import Elan.IamSemantics
import Elan.RemoteScan

/-! The optimizer rule that takes denied scans out of a physical plan. Plan trees have
any depth and arity; the operators other than the remote scan and the empty leaf belong
to the query engine, so their behaviour is a parameter. -/
namespace Elan

/-- A physical plan over the query engine's own operators `Op`. -/
inductive ExecutionPlan (Op : Type)
  | remoteTableScan (scan : RemoteTableScanExec)
  | empty (schema : Schema)
  | node (op : Op) (children : List (ExecutionPlan Op))

/-- What the query engine says of its operators. -/
class PlanOperators (Op : Type) where
  name : Op → String
  schema : Op → List (ExecutionPlan Op) → Schema
  withNewChildren : Op → List (ExecutionPlan Op) → List (ExecutionPlan Op) →
    Except String (ExecutionPlan Op)

namespace ExecutionPlan

variable {Op : Type} [PlanOperators Op]

def name : ExecutionPlan Op → String
  | .remoteTableScan _ => "RemoteTableScanExec"
  | .empty _ => "EmptyExec"
  | .node op _ => PlanOperators.name op

def schema : ExecutionPlan Op → Schema
  | .remoteTableScan scan => scan.schema
  | .empty schema => schema
  | .node op children => PlanOperators.schema op children

def children : ExecutionPlan Op → List (ExecutionPlan Op)
  | .remoteTableScan _ | .empty _ => []
  | .node _ children => children

/-- The leaves ignore the children they are given. -/
def withNewChildren (plan : ExecutionPlan Op) (new : List (ExecutionPlan Op)) :
    Except String (ExecutionPlan Op) :=
  match plan with
  | .node op old => PlanOperators.withNewChildren op old new
  | leaf => .ok leaf

end ExecutionPlan

section
variable {Op : Type} [PlanOperators Op]
variable (engine : IamEngine) (subject : Subject) (nodeName : String)
  (extract : ExecutionPlan Op → Option (String × String))

/-- The early return of the rule: an empty leaf in place of a denied scan. A row filter
is logged and otherwise ignored. -/
def intercept (plan : ExecutionPlan Op) : Option (ExecutionPlan Op) :=
  if plan.name = nodeName then
    match extract plan with
    | some (ns,datasetName) =>
      match engine.check subject ⟨ns,datasetName⟩ "SELECT" with
      | .deny _ => some (.empty plan.schema)
      | .allow (some _) _ => none
      | .allow none _ => none
    | none => none
  else none

mutual
/-- Walk the tree from the root; a denied scan ends the walk of its branch. -/
def applyIam : ExecutionPlan Op → Except String (ExecutionPlan Op)
  | .remoteTableScan scan =>
    match intercept engine subject nodeName extract (.remoteTableScan scan) with
    | some replaced => .ok replaced
    | none => (ExecutionPlan.remoteTableScan scan).withNewChildren []
  | .empty schema =>
    match intercept engine subject nodeName extract (.empty schema) with
    | some replaced => .ok replaced
    | none => (ExecutionPlan.empty schema).withNewChildren []
  | .node op children =>
    match intercept engine subject nodeName extract (.node op children) with
    | some replaced => .ok replaced
    | none =>
      match applyIamAll children with
      | .error e => .error e
      | .ok newChildren => (ExecutionPlan.node op children).withNewChildren newChildren

def applyIamAll : List (ExecutionPlan Op) → Except String (List (ExecutionPlan Op))
  | [] => .ok []
  | child :: rest =>
    match applyIam child with
    | .error e => .error e
    | .ok newChild => (applyIamAll rest).map (newChild :: ·)
end

/-- One equation for all three kinds of node. -/
theorem applyIam_eq (plan : ExecutionPlan Op) :
    applyIam engine subject nodeName extract plan =
      match intercept engine subject nodeName extract plan with
      | some replaced => .ok replaced
      | none => (applyIamAll engine subject nodeName extract plan.children).bind
          plan.withNewChildren := by
  cases plan with
  | remoteTableScan scan => rw [applyIam]; rfl
  | empty schema => rw [applyIam]; rfl
  | node op children =>
    rw [applyIam]
    cases intercept engine subject nodeName extract (.node op children) with
    | some replaced => rfl
    | none => cases h : applyIamAll engine subject nodeName extract children <;>
        simp [ExecutionPlan.children,h,Except.bind]

end

/-- The rule as it is registered: what to intercept, and how to identify it. -/
structure IamFilterRule (Op : Type) where
  engine : IamEngine
  subject : Subject
  remoteScanNodeName : String
  extract : ExecutionPlan Op → Option (String × String)

namespace IamFilterRule

variable {Op : Type}

def new (engine : IamEngine) (subject : Subject) : IamFilterRule Op :=
  ⟨engine,subject,"RemoteTableScanExec",fun _ => none⟩

def withExtractor (rule : IamFilterRule Op)
    (extractor : ExecutionPlan Op → Option (String × String)) : IamFilterRule Op :=
  { rule with extract := extractor }

def optimize [PlanOperators Op] (rule : IamFilterRule Op) (plan : ExecutionPlan Op) :
    Except String (ExecutionPlan Op) :=
  applyIam rule.engine rule.subject rule.remoteScanNodeName rule.extract plan

end IamFilterRule

/-- The extractor of a session: it recognises the scan node by its type. -/
def remoteScanIdentity {Op : Type} : ExecutionPlan Op → Option (String × String)
  | .remoteTableScan scan => some (scan.datasetNamespace,scan.datasetName)
  | _ => none

def sessionRule {Op : Type} (engine : IamEngine) (subject : Subject) : IamFilterRule Op :=
  (IamFilterRule.new engine subject).withExtractor remoteScanIdentity

end Elan
