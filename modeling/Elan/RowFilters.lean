import Elan.PlanRewrite

/-! What a rewritten plan reads when it runs, next to the plan as it was over tables cut down to
the rows that the policies leave to a subject. -/
namespace Elan
namespace RowFilters

open PlanRewrite

variable {Op Row : Type}

/-- A run of plans: the rows each remote scan obtains, and what each operator makes of the rows
of its inputs. -/
structure Execution (Op Row : Type) where
  table : RemoteTableScanExec → List Row
  apply : Op → List (List Row) → List Row

mutual
def rows (x : Execution Op Row) : ExecutionPlan Op → List Row
  | .remoteTableScan scan => x.table scan
  | .empty _ => []
  | .node op children => x.apply op (rowsAll x children)

def rowsAll (x : Execution Op Row) : List (ExecutionPlan Op) → List (List Row)
  | [] => []
  | child :: rest => rows x child :: rowsAll x rest
end

/-- Whether a row satisfies a filter, whose text is read over the columns of a scan. -/
abbrev RowPredicate (Row : Type) := String → Schema → Row → Bool

/-- The rows of a scan that a decision leaves to the subject. -/
def permitted (accepts : RowPredicate Row) (schema : Schema) (table : List Row) :
    AccessDecision → List Row
  | .deny _ => []
  | .allow (some filter) _ => table.filter (accepts filter schema)
  | .allow none _ => table

variable (engine : IamEngine) (subject : Subject) (accepts : RowPredicate Row)

def decision (scan : RemoteTableScanExec) : AccessDecision :=
  engine.check subject ⟨scan.datasetNamespace,scan.datasetName⟩ "SELECT"

/-- The same run, over tables cut down to the permitted rows. -/
def Execution.cutDown (x : Execution Op Row) : Execution Op Row :=
  { x with table := fun scan =>
      permitted accepts scan.schema (x.table scan) (decision engine subject scan) }

/-- Whatever the tables hold, the rows obtained where the plan had a scan with a row filter
satisfy that filter. -/
def ObtainsPermitted (plan result : ExecutionPlan Op) : Prop :=
  ∀ (x : Execution Op Row) path scan filter mask, subtree plan path = some (.remoteTableScan scan) →
    decision engine subject scan = .allow (some filter) mask →
    ∀ p, subtree result path = some p → ∀ row ∈ rows x p, accepts filter scan.schema row = true

/-- In every run the one plan returns what the other returns over the permitted rows. -/
def EquivalentCutDown (plan result : ExecutionPlan Op) : Prop :=
  ∀ x : Execution Op Row, rows x result = rows (x.cutDown engine subject accepts) plan

/-- The row filter of a scan, if it has one, takes no row away. -/
def Unrestricted (scan : RemoteTableScanExec) : Prop :=
  ∀ filter mask, decision engine subject scan = .allow (some filter) mask →
    ∀ row, accepts filter scan.schema row = true

def NoneRestricted (plan : ExecutionPlan Op) : Prop :=
  ∀ path scan, subtree plan path = some (.remoteTableScan scan) →
    Unrestricted engine subject accepts scan

variable {engine subject accepts}

theorem deniedScan_eq (scan : RemoteTableScanExec) :
    deniedScan engine subject scan = !(decision engine subject scan).isAllowed := rfl

theorem permitted_sublist (x : Execution Op Row) (scan : RemoteTableScanExec) :
    (permitted accepts scan.schema (x.table scan) (decision engine subject scan)).Sublist
      (rows x (restrict (deniedScan engine subject) (.remoteTableScan scan))) := by
  cases hd : decision engine subject scan with
  | deny reason => exact List.nil_sublist _
  | allow filter mask =>
    have hallowed : deniedScan engine subject scan = false := by rw [deniedScan_eq,hd]; rfl
    rw [restrict,hallowed]
    cases filter with
    | none => exact List.Sublist.refl _
    | some filter => exact List.filter_sublist

theorem permitted_of_unrestricted {scan : RemoteTableScanExec}
    (h : Unrestricted engine subject accepts scan) (x : Execution Op Row) :
    permitted accepts scan.schema (x.table scan) (decision engine subject scan) =
      rows x (restrict (deniedScan engine subject) (.remoteTableScan scan)) := by
  cases hd : decision engine subject scan with
  | deny reason =>
    have hdenied : deniedScan engine subject scan = true := by rw [deniedScan_eq,hd]; rfl
    rw [restrict,hdenied]
    rfl
  | allow filter mask =>
    have hallowed : deniedScan engine subject scan = false := by rw [deniedScan_eq,hd]; rfl
    rw [restrict,hallowed]
    cases filter with
    | none => rfl
    | some filter => exact List.filter_eq_self.mpr fun row _ => h filter mask hd row

mutual
theorem rows_restrict (x : Execution Op Row) : ∀ plan : ExecutionPlan Op,
    NoneRestricted engine subject accepts plan →
    rows x (restrict (deniedScan engine subject) plan) =
      rows (x.cutDown engine subject accepts) plan
  | .remoteTableScan scan, h => (permitted_of_unrestricted (h [] scan rfl) x).symm
  | .empty schema, _ => rfl
  | .node op children, h => by
    show x.apply op (rowsAll x (restrictAll _ children)) = x.apply op (rowsAll _ children)
    apply congrArg (x.apply op)
    apply rowsAll_restrictAll x children
    intro i child hchild path scan hscan
    apply h (i :: path) scan
    rw [subtree,hchild]
    exact hscan

theorem rowsAll_restrictAll (x : Execution Op Row) : ∀ children : List (ExecutionPlan Op),
    (∀ (i : ℕ) child, children[i]? = some child →
      NoneRestricted engine subject accepts child) →
    rowsAll x (restrictAll (deniedScan engine subject) children) =
      rowsAll (x.cutDown engine subject accepts) children
  | [], _ => rfl
  | child :: rest, h => by
    rw [restrictAll,rowsAll,rowsAll,rows_restrict x child (h 0 child rfl),
      rowsAll_restrictAll x rest]
    intro i c hc
    exact h (i+1) c (by simpa using hc)
end

/-! ### Plans that return every row they read -/

/-- Every table holds the one row, and every operator passes the rows of its inputs on. -/
def collecting (Op : Type) (row : Row) : Execution Op Row := ⟨fun _ => [row],fun _ => List.flatten⟩

mutual
theorem rows_cutDown_sublist (row : Row) : ∀ plan : ExecutionPlan Op,
    (rows ((collecting Op row).cutDown engine subject accepts) plan).Sublist
      (rows (collecting Op row) (restrict (deniedScan engine subject) plan))
  | .remoteTableScan scan => permitted_sublist (collecting Op row) scan
  | .empty _ => List.Sublist.refl _
  | .node _ children => rowsAll_cutDown_sublist row children

theorem rowsAll_cutDown_sublist (row : Row) : ∀ children : List (ExecutionPlan Op),
    (rowsAll ((collecting Op row).cutDown engine subject accepts) children).flatten.Sublist
      (rowsAll (collecting Op row) (restrictAll (deniedScan engine subject) children)).flatten
  | [] => List.Sublist.refl _
  | child :: rest => by
    simp only [restrictAll,rowsAll,List.flatten_cons]
    exact (rows_cutDown_sublist row child).append (rowsAll_cutDown_sublist row rest)
end

theorem append_eq_of_sublist {xs xs' ys ys' : List Row} (hx : xs'.Sublist xs)
    (hy : ys'.Sublist ys) (h : xs ++ ys = xs' ++ ys') : xs = xs' ∧ ys = ys' := by
  have hlength := congrArg List.length h
  rw [List.length_append,List.length_append] at hlength
  have hxl := hx.length_le
  have hyl := hy.length_le
  exact ⟨(hx.eq_of_length (by omega)).symm,(hy.eq_of_length (by omega)).symm⟩

/-- A row that a filter rejects is in the answer of a plan that returns every row it reads, and
the plan over the permitted rows does not return it. -/
theorem accepts_of_rows_eq {row : Row} {filter : String} {mask : Option ColumnMask}
    {scan : RemoteTableScanExec} (hd : decision engine subject scan = .allow (some filter) mask)
    (path : List ℕ) (plan : ExecutionPlan Op)
    (hscan : subtree plan path = some (.remoteTableScan scan))
    (h : rows (collecting Op row) (restrict (deniedScan engine subject) plan) =
      rows ((collecting Op row).cutDown engine subject accepts) plan) :
    accepts filter scan.schema row = true := by
  induction path generalizing plan with
  | nil =>
    cases hscan
    have hallowed : deniedScan engine subject scan = false := by rw [deniedScan_eq,hd]; rfl
    have hone : [row] = [row].filter (accepts filter scan.schema) := by
      have hx : rows ((collecting Op row).cutDown engine subject accepts) (.remoteTableScan scan) =
          permitted accepts scan.schema [row] (decision engine subject scan) := rfl
      rw [hx,hd,restrict,hallowed] at h
      exact h
    exact List.filter_eq_self.mp hone.symm row (by simp)
  | cons i path ih =>
    cases plan with
    | remoteTableScan s => cases hscan
    | empty schema => cases hscan
    | node op children =>
      change (rowsAll _ (restrictAll _ children)).flatten = (rowsAll _ children).flatten at h
      rw [subtree] at hscan
      induction children generalizing i with
      | nil => cases hscan
      | cons child rest ihrest =>
        simp only [restrictAll,rowsAll,List.flatten_cons] at h
        obtain ⟨hchild,hrest⟩ :=
          append_eq_of_sublist (rows_cutDown_sublist row child) (rowsAll_cutDown_sublist row rest) h
        cases i with
        | zero => exact ih child hscan hchild
        | succ i => exact ihrest i (by simpa using hscan) hrest

section
variable [PlanOperators Op]

/-- The rule returns the plan with its row filters unapplied: the rows obtained are the permitted
ones, and the answers those over the permitted rows, exactly when no filter rejects a row. -/
theorem row_filters_enforced_iff [SerdeJson] (hops : LawfulOperators Op)
    (snapshot : SnapshotIamEngine) (subject : Subject) (accepts : RowPredicate Row)
    (plan : ExecutionPlan Op) :
    ∃ result, (sessionRule snapshot.toEngine subject).optimize plan = .ok result ∧
      (ObtainsPermitted snapshot.toEngine subject accepts plan result ↔
        NoneRestricted snapshot.toEngine subject accepts plan) ∧
      (EquivalentCutDown snapshot.toEngine subject accepts plan result ↔
        NoneRestricted snapshot.toEngine subject accepts plan) := by
  refine ⟨_,optimize_eq_restrict hops snapshot.toEngine subject plan,⟨?_,?_⟩,⟨?_,?_⟩⟩
  · intro h path scan hscan filter mask hd row
    have hallowed : deniedScan snapshot.toEngine subject scan = false := by
      rw [deniedScan_eq,hd]
      rfl
    apply h (collecting Op row) path scan filter mask hscan hd (.remoteTableScan scan)
    · rw [subtree_restrict,hscan,Option.map_some,restrict,hallowed]
      rfl
    · exact List.mem_singleton_self row
  · intro h x path scan filter mask hscan hd p _ row _
    exact h path scan hscan filter mask hd row
  · intro h path scan hscan filter mask hd row
    exact accepts_of_rows_eq hd path plan hscan (h (collecting Op row))
  · intro h x
    exact rows_restrict x plan h

end

/-- A filter on the tier of a customer, over rows that are tiers; any other filter keeps them. -/
def byTier : RowPredicate String := fun filter _ tier => filter = "tier = 'gold'" → tier = "gold"

/-- Everyone may read the customers that have a tier, and nothing of the namespace `finance`. -/
def tieredOnly : SnapshotIamEngine :=
  ⟨[⟨Uuid.ofByte 1,"*",.user,"*","SELECT",.allow,some "tier IS NOT NULL",none,0⟩,
    ⟨Uuid.ofByte 2,"*",.user,"finance.*","SELECT",.deny,none,none,10⟩]⟩

/-- Under a row filter that keeps every row, a rewritten plan reads what the subject may read. -/
theorem row_filters_enforced_tiered : ∃ result,
    (sessionRule (@SnapshotIamEngine.toEngine noMasks tieredOnly) ⟨"alice",[]⟩).optimize
      joinPlan = .ok result ∧
    subtree result [0,0] = some (.remoteTableScan (accountScan "crm")) ∧
    decision (@SnapshotIamEngine.toEngine noMasks tieredOnly) ⟨"alice",[]⟩ (accountScan "crm") =
      .allow (some "tier IS NOT NULL") none ∧
    ObtainsPermitted (@SnapshotIamEngine.toEngine noMasks tieredOnly) ⟨"alice",[]⟩ byTier
      joinPlan result ∧
    EquivalentCutDown (@SnapshotIamEngine.toEngine noMasks tieredOnly) ⟨"alice",[]⟩ byTier
      joinPlan result := by
  obtain ⟨result,hopt,hobtains,hequivalent⟩ := @row_filters_enforced_iff _ _ _ noMasks
    sampleOperator_lawful tieredOnly ⟨"alice",[]⟩ byTier joinPlan
  have hrows : NoneRestricted (@SnapshotIamEngine.toEngine noMasks tieredOnly) ⟨"alice",[]⟩ byTier
      joinPlan := by
    intro path scan hscan filter mask hd row
    have hat : scan = accountScan "crm" ∨ scan = accountScan "finance" := by
      match path, hscan with
      | [0,0], hscan => exact .inl (by cases hscan; rfl)
      | [0,1], hscan => exact .inr (by cases hscan; rfl)
    rcases hat with rfl | rfl
    · cases hd
      rfl
    · cases hd
  refine ⟨result,hopt,?_,rfl,hobtains.mpr hrows,hequivalent.mpr hrows⟩
  cases hopt
  rfl

/-- Everyone may read the customers of one tier. -/
def goldOnly : SnapshotIamEngine :=
  ⟨[⟨Uuid.ofByte 1,"*",.user,"*","SELECT",.allow,some "tier = 'gold'",none,0⟩]⟩

/-- The rule leaves the scan as it is, and a customer of another tier is read. -/
theorem row_filter_not_applied :
    ¬ ∀ (_ : SerdeJson) (snapshot : SnapshotIamEngine) (subject : Subject)
      (accepts : RowPredicate String) (plan result : ExecutionPlan SampleOperator),
      (sessionRule snapshot.toEngine subject).optimize plan = .ok result →
      ObtainsPermitted snapshot.toEngine subject accepts plan result ∧
        EquivalentCutDown snapshot.toEngine subject accepts plan result := by
  intro hall
  have hopt : (sessionRule (@SnapshotIamEngine.toEngine noMasks goldOnly) ⟨"alice",[]⟩).optimize
      joinPlan = .ok joinPlan := rfl
  have hsilver := (hall noMasks goldOnly ⟨"alice",[]⟩ byTier joinPlan joinPlan hopt).1
    (collecting SampleOperator "silver") [0,0] (accountScan "crm") "tier = 'gold'" none rfl rfl
    (.remoteTableScan (accountScan "crm")) rfl "silver" (List.mem_singleton_self _)
  exact absurd hsilver (by decide)

end RowFilters
end Elan
