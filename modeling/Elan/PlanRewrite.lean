import Elan.IamFilterRule

/-! What the optimizer rule does to a whole plan, position by position. -/
namespace Elan
namespace PlanRewrite

open ExecutionPlan

variable {Op : Type}

def subtree : ExecutionPlan Op → List ℕ → Option (ExecutionPlan Op)
  | plan, [] => some plan
  | .node _ children, i :: path =>
    match children[i]? with
    | some child => subtree child path
    | none => none
  | _, _ :: _ => none

mutual
/-- The plan with the denied scans, and nothing else, replaced by empty leaves. -/
def restrict (denied : RemoteTableScanExec → Bool) : ExecutionPlan Op → ExecutionPlan Op
  | .remoteTableScan scan => if denied scan then .empty scan.schema else .remoteTableScan scan
  | .empty schema => .empty schema
  | .node op children => .node op (restrictAll denied children)

def restrictAll (denied : RemoteTableScanExec → Bool) :
    List (ExecutionPlan Op) → List (ExecutionPlan Op)
  | [] => []
  | child :: rest => restrict denied child :: restrictAll denied rest
end

theorem restrictAll_eq_map (denied : RemoteTableScanExec → Bool)
    (children : List (ExecutionPlan Op)) :
    restrictAll denied children = children.map (restrict denied) := by
  induction children with
  | nil => rfl
  | cons child rest ih => simp [restrictAll,ih]

/-- Restricting a plan restricts each of its subtrees, in place. -/
theorem subtree_restrict (denied : RemoteTableScanExec → Bool) (path : List ℕ)
    (plan : ExecutionPlan Op) :
    subtree (restrict denied plan) path = (subtree plan path).map (restrict denied) := by
  induction path generalizing plan with
  | nil => simp [subtree]
  | cons i path ih =>
    cases plan with
    | remoteTableScan scan => by_cases h : denied scan <;> simp [restrict,subtree,h]
    | empty schema => rfl
    | node op children =>
      rw [restrict,restrictAll_eq_map,subtree,subtree,List.getElem?_map]
      cases children[i]? with
      | none => rfl
      | some child => exact ih child

/-- A restricted plan has a remote scan only where the plan had it, allowed. -/
theorem restrict_eq_remoteTableScan_iff (denied : RemoteTableScanExec → Bool)
    (plan : ExecutionPlan Op) (scan : RemoteTableScanExec) :
    restrict denied plan = .remoteTableScan scan ↔
      plan = .remoteTableScan scan ∧ denied scan = false := by
  cases plan with
  | remoteTableScan s =>
    by_cases h : denied s <;> simp only [restrict,h,if_true,Bool.false_eq_true,if_false]
    · simp only [reduceCtorEq,ExecutionPlan.remoteTableScan.injEq,false_iff]
      rintro ⟨rfl,hs⟩; simp [h] at hs
    · simp only [ExecutionPlan.remoteTableScan.injEq]
      exact ⟨fun hs => ⟨hs,by simpa [hs] using h⟩,And.left⟩
  | empty schema => simp [restrict]
  | node op children => simp [restrict]

mutual
theorem restrict_eq_self (denied : RemoteTableScanExec → Bool) : ∀ plan : ExecutionPlan Op,
    (∀ path scan, subtree plan path = some (.remoteTableScan scan) → denied scan = false) →
    restrict denied plan = plan
  | .remoteTableScan scan, h => by simp [restrict,h [] scan rfl]
  | .empty schema, _ => rfl
  | .node op children, h => by
    rw [restrict,restrictAll_eq_self denied children]
    intro i child hchild path scan hscan
    apply h (i :: path) scan
    rw [subtree,hchild]
    exact hscan

theorem restrictAll_eq_self (denied : RemoteTableScanExec → Bool) :
    ∀ children : List (ExecutionPlan Op),
      (∀ (i : ℕ) child, children[i]? = some child → ∀ path scan,
        subtree child path = some (.remoteTableScan scan) → denied scan = false) →
      restrictAll denied children = children
  | [], _ => rfl
  | child :: rest, h => by
    rw [restrictAll,restrict_eq_self denied child (h 0 child rfl),restrictAll_eq_self denied rest]
    intro i c hc
    exact h (i+1) c (by simpa using hc)
end

mutual
theorem restrict_idem (denied : RemoteTableScanExec → Bool) : ∀ plan : ExecutionPlan Op,
    restrict denied (restrict denied plan) = restrict denied plan
  | .remoteTableScan scan => by by_cases h : denied scan <;> simp [restrict,h]
  | .empty schema => rfl
  | .node op children => by simp only [restrict,restrictAll_idem denied children]

theorem restrictAll_idem (denied : RemoteTableScanExec → Bool) :
    ∀ children : List (ExecutionPlan Op),
      restrictAll denied (restrictAll denied children) = restrictAll denied children
  | [] => rfl
  | child :: rest => by
    simp only [restrictAll,restrict_idem denied child,restrictAll_idem denied rest]
end

/-- `result` differs from `plan` exactly at the denied scans: every position of one is a
position of the other and carries the same node, but for the denied scans, whose place
an empty leaf of their schema takes. -/
structure ReplacesDenied (denied : RemoteTableScanExec → Bool) (plan result : ExecutionPlan Op) :
    Prop where
  denied_scan : ∀ path scan, subtree plan path = some (.remoteTableScan scan) →
    denied scan = true → subtree result path = some (.empty scan.schema)
  allowed_scan : ∀ path scan, subtree plan path = some (.remoteTableScan scan) →
    denied scan = false → subtree result path = some (.remoteTableScan scan)
  empty_leaf : ∀ path schema, subtree plan path = some (.empty schema) →
    subtree result path = some (.empty schema)
  node : ∀ path op children, subtree plan path = some (.node op children) →
    ∃ children', subtree result path = some (.node op children') ∧
      children'.length = children.length
  nothing_else : ∀ path, subtree plan path = none → subtree result path = none

theorem restrict_replacesDenied (denied : RemoteTableScanExec → Bool)
    (plan : ExecutionPlan Op) : ReplacesDenied denied plan (restrict denied plan) where
  denied_scan path scan h hd := by simp [subtree_restrict,h,restrict,hd]
  allowed_scan path scan h hd := by simp [subtree_restrict,h,restrict,hd]
  empty_leaf path schema h := by simp [subtree_restrict,h,restrict]
  node path op children h := by
    refine ⟨children.map (restrict denied),?_,by simp⟩
    rw [subtree_restrict,h,Option.map_some,restrict,restrictAll_eq_map]
  nothing_else path h := by simp [subtree_restrict,h]

section
variable [PlanOperators Op]

/-- An operator given children of the schemas it had is rebuilt over them, and keeps its
own schema. -/
structure LawfulOperators (Op : Type) [PlanOperators Op] : Prop where
  rebuilds : ∀ (op : Op) (old new : List (ExecutionPlan Op)),
    new.map ExecutionPlan.schema = old.map ExecutionPlan.schema →
    PlanOperators.withNewChildren op old new = .ok (.node op new)
  keeps_schema : ∀ (op : Op) (old new : List (ExecutionPlan Op)),
    new.map ExecutionPlan.schema = old.map ExecutionPlan.schema →
    PlanOperators.schema op new = PlanOperators.schema op old

mutual
theorem schema_restrict (hops : LawfulOperators Op) (denied : RemoteTableScanExec → Bool) :
    ∀ plan : ExecutionPlan Op, (restrict denied plan).schema = plan.schema
  | .remoteTableScan scan => by
    by_cases h : denied scan <;> simp [restrict,h,ExecutionPlan.schema]
  | .empty schema => rfl
  | .node op children => hops.keeps_schema op _ _ (schema_restrictAll hops denied children)

theorem schema_restrictAll (hops : LawfulOperators Op) (denied : RemoteTableScanExec → Bool) :
    ∀ children : List (ExecutionPlan Op),
      (restrictAll denied children).map ExecutionPlan.schema =
        children.map ExecutionPlan.schema
  | [] => rfl
  | child :: rest => by
    simp only [restrictAll,List.map_cons,schema_restrict hops denied child,
      schema_restrictAll hops denied rest]
end

def deniedScan (engine : IamEngine) (subject : Subject) (scan : RemoteTableScanExec) : Bool :=
  !(engine.check subject ⟨scan.datasetNamespace,scan.datasetName⟩ "SELECT").isAllowed

/-- With the extractor of a session the early return is taken at the denied scans only. -/
theorem intercept_session (engine : IamEngine) (subject : Subject) (plan : ExecutionPlan Op) :
    intercept engine subject "RemoteTableScanExec" remoteScanIdentity plan =
      match plan with
      | .remoteTableScan scan =>
        if deniedScan engine subject scan then some (.empty scan.schema) else none
      | _ => none := by
  cases plan with
  | remoteTableScan scan =>
    cases hd : engine.check subject ⟨scan.datasetNamespace,scan.datasetName⟩ "SELECT" with
    | deny reason =>
      simp [intercept,ExecutionPlan.name,remoteScanIdentity,deniedScan,hd,
        AccessDecision.isAllowed,ExecutionPlan.schema]
    | allow rf cm =>
      cases rf <;> simp [intercept,ExecutionPlan.name,remoteScanIdentity,deniedScan,hd,
        AccessDecision.isAllowed]
  | empty schema => rfl
  | node op children => simp [intercept,remoteScanIdentity]

mutual
theorem applyIam_eq_restrict (hops : LawfulOperators Op) (engine : IamEngine)
    (subject : Subject) : ∀ plan : ExecutionPlan Op,
    applyIam engine subject "RemoteTableScanExec" remoteScanIdentity plan =
      .ok (restrict (deniedScan engine subject) plan)
  | .remoteTableScan scan => by
    rw [applyIam_eq,intercept_session]
    by_cases h : deniedScan engine subject scan <;>
      simp [h,restrict,children,applyIamAll,withNewChildren,Except.bind]
  | .empty schema => by
    rw [applyIam_eq,intercept_session]
    simp [restrict,children,applyIamAll,withNewChildren,Except.bind]
  | .node op cs => by
    rw [applyIam_eq,intercept_session]
    simp only [children,applyIamAll_eq_restrictAll hops engine subject cs,Except.bind,
      withNewChildren,restrict]
    exact hops.rebuilds op _ _ (schema_restrictAll hops _ cs)

theorem applyIamAll_eq_restrictAll (hops : LawfulOperators Op) (engine : IamEngine)
    (subject : Subject) : ∀ cs : List (ExecutionPlan Op),
    applyIamAll engine subject "RemoteTableScanExec" remoteScanIdentity cs =
      .ok (restrictAll (deniedScan engine subject) cs)
  | [] => rfl
  | child :: rest => by
    simp only [applyIamAll,applyIam_eq_restrict hops engine subject child,
      applyIamAll_eq_restrictAll hops engine subject rest,Except.map,restrictAll]
end

theorem optimize_eq_restrict (hops : LawfulOperators Op) (engine : IamEngine)
    (subject : Subject) (plan : ExecutionPlan Op) :
    (sessionRule engine subject).optimize plan =
      .ok (restrict (deniedScan engine subject) plan) :=
  applyIam_eq_restrict hops engine subject plan

/-- The rule of a session rewrites every plan, and only its denied scans; no denied scan is
left, every position keeps its schema, and a second run changes nothing. -/
theorem optimize_exact [SerdeJson] (hops : LawfulOperators Op) (snapshot : SnapshotIamEngine)
    (subject : Subject) (plan : ExecutionPlan Op) :
    ∃ result, (sessionRule snapshot.toEngine subject).optimize plan = .ok result ∧
      ReplacesDenied (deniedScan snapshot.toEngine subject) plan result ∧
      (∀ path scan, subtree result path = some (.remoteTableScan scan) →
        (snapshot.check subject ⟨scan.datasetNamespace,scan.datasetName⟩ "SELECT").isAllowed) ∧
      (∀ path, (subtree result path).map ExecutionPlan.schema =
        (subtree plan path).map ExecutionPlan.schema) ∧
      (sessionRule snapshot.toEngine subject).optimize result = .ok result := by
  let denied := deniedScan snapshot.toEngine subject
  refine ⟨restrict denied plan,optimize_eq_restrict hops _ _ _,
    restrict_replacesDenied denied plan,?_,?_,?_⟩
  · intro path scan hscan
    rw [subtree_restrict,Option.map_eq_some_iff] at hscan
    obtain ⟨p,-,hp⟩ := hscan
    have hallowed := ((restrict_eq_remoteTableScan_iff denied p scan).mp hp).2
    simpa [denied,deniedScan,SnapshotIamEngine.toEngine] using hallowed
  · intro path
    rw [subtree_restrict,Option.map_map]
    exact congrArg (Option.map · _) (funext (schema_restrict hops denied))
  · rw [optimize_eq_restrict hops,restrict_idem]

end

/-- An operator that carries its output schema, as plan nodes do once they are built. -/
structure SampleOperator where
  name : String
  schema : Schema

instance : PlanOperators SampleOperator where
  name op := op.name
  schema op _ := op.schema
  withNewChildren op _ new := .ok (.node op new)

theorem sampleOperator_lawful : LawfulOperators SampleOperator :=
  ⟨fun _ _ _ _ => rfl,fun _ _ _ _ => rfl⟩

def accountScan (ns : String) : RemoteTableScanExec :=
  ⟨⟨Uuid.ofByte 9,"accounts",ns,.csv,"coordinator-01","elan-executor:50055",[],.null⟩,[],[],none⟩

/-- Everyone may read everything but the namespace `finance`. -/
def financeClosed : SnapshotIamEngine :=
  ⟨[⟨Uuid.ofByte 1,"*",.user,"*","SELECT",.allow,none,none,0⟩,
    ⟨Uuid.ofByte 2,"*",.user,"finance.*","SELECT",.deny,none,none,10⟩]⟩

@[reducible] def noMasks : SerdeJson := ⟨fun _ => none⟩

/-- A join of a readable and a closed dataset, below a filter. -/
def joinPlan : ExecutionPlan SampleOperator :=
  .node ⟨"FilterExec",[]⟩ [.node ⟨"HashJoinExec",[]⟩
    [.remoteTableScan (accountScan "crm"),.remoteTableScan (accountScan "finance")]]

theorem optimize_exact_join : ∃ result,
    (sessionRule (@SnapshotIamEngine.toEngine noMasks financeClosed) ⟨"alice",[]⟩).optimize
      joinPlan = .ok result ∧
    subtree result [0,0] = some (.remoteTableScan (accountScan "crm")) ∧
    subtree result [0,1] = some (.empty []) := by
  obtain ⟨result,hopt,hrep,-⟩ :=
    @optimize_exact _ _ noMasks sampleOperator_lawful financeClosed ⟨"alice",[]⟩ joinPlan
  exact ⟨result,hopt,hrep.allowed_scan [0,0] _ rfl (by decide),
    hrep.denied_scan [0,1] _ rfl (by decide)⟩

end PlanRewrite
end Elan
