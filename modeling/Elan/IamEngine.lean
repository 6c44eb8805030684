import Elan.StableSort
import Elan.IamTypes

/-! The policy engine: filter the snapshot, sort it stably by effect and priority,
and let its first policy decide. -/
namespace Elan

/-- What a request handler sees of an engine. -/
structure IamEngine where
  check : Subject → ResourceId → String → AccessDecision

/-- The in-memory copy of the policy table. -/
structure SnapshotIamEngine where
  policies : List Policy
  deriving DecidableEq

def effectOrd : PolicyEffect → ℕ
  | .deny => 0
  | .allow => 1

def policyOrder (a b : Policy) : Ordering :=
  (compare (effectOrd a.effect) (effectOrd b.effect)).then (compare b.priority a.priority)

def SortsBefore (a b : Policy) : Prop := (policyOrder a b).isLE = true

instance : DecidableRel SortsBefore := fun a b =>
  inferInstanceAs (Decidable ((policyOrder a b).isLE = true))

theorem sortsBefore_iff (a b : Policy) :
    SortsBefore a b ↔ effectOrd a.effect < effectOrd b.effect ∨
      effectOrd a.effect = effectOrd b.effect ∧ b.priority ≤ a.priority := by
  unfold SortsBefore policyOrder
  rcases lt_trichotomy (effectOrd a.effect) (effectOrd b.effect) with h | h | h
  · simp [Nat.compare_eq_lt.mpr h,h,Ordering.then]
  · simpa [h] using Std.isLE_compare
  · simp [Nat.compare_eq_gt.mpr h,Ordering.then,not_lt_of_gt h,h.ne']

instance : Std.Total SortsBefore where
  total a b := by
    simp only [sortsBefore_iff]
    rcases lt_trichotomy (effectOrd a.effect) (effectOrd b.effect) with h | h | h
    · exact Or.inl (Or.inl h)
    · rcases Int32.le_total b.priority a.priority with hp | hp
      · exact Or.inl (Or.inr ⟨h,hp⟩)
      · exact Or.inr (Or.inr ⟨h.symm,hp⟩)
    · exact Or.inr (Or.inl h)

instance : IsTrans Policy SortsBefore where
  trans a b c hab hbc := by
    rw [sortsBefore_iff] at *
    rcases hab with hab | ⟨hab,hp⟩ <;> rcases hbc with hbc | ⟨hbc,hq⟩
    · exact Or.inl (hab.trans hbc)
    · exact Or.inl (hbc ▸ hab)
    · exact Or.inl (hab ▸ hbc)
    · exact Or.inr ⟨hab.trans hbc,Int32.le_trans hq hp⟩

def matchesRequest (s : Subject) (r : ResourceId) (action : String) (p : Policy) : Bool :=
  p.matchesSubject s && p.matchesResource r.ns r.name && p.matchesAction action

theorem matchesRequest_iff (s : Subject) (r : ResourceId) (action : String) (p : Policy) :
    matchesRequest s r action p ↔ Matches p s r action := by
  simp only [matchesRequest,Bool.and_eq_true,matchesSubject_iff,matchesResource_iff,
    matchesAction_iff]
  exact ⟨fun h => ⟨h.1.1,h.1.2,h.2⟩,fun h => ⟨⟨h.1,h.2⟩,h.3⟩⟩

/-- Mask kinds the engine does not know are left out of the mask. -/
def maskKind : String → Option MaskKind
  | "REDACT" => some .redact
  | "SHA256" => some .sha256
  | _ => none

def parseColumnMask [SerdeJson] (json : String) : Option ColumnMask :=
  (SerdeJson.fromStr json).map (·.filterMap maskKind)

def denyReason (p : Policy) (r : ResourceId) : String :=
  "Deny policy '" ++ p.id.toString ++ "' matched for " ++ r.ns ++ "." ++ r.name

def noPolicyReason (s : Subject) (r : ResourceId) : String :=
  "No Allow policy for " ++ s.userId ++ " on " ++ r.ns ++ "." ++ r.name

/-- The columns an Allow policy masks, read from its text. -/
def Policy.columnMask [SerdeJson] (p : Policy) : Option ColumnMask :=
  p.columnMaskJson.bind parseColumnMask

namespace SnapshotIamEngine

def matching (e : SnapshotIamEngine) (s : Subject) (r : ResourceId) (action : String) :
    List Policy :=
  (e.policies.filter (matchesRequest s r action)).insertionSort SortsBefore

def check [SerdeJson] (e : SnapshotIamEngine) (s : Subject) (r : ResourceId) (action : String) :
    AccessDecision :=
  match (e.matching s r action).head? with
  | some policy =>
    match policy.effect with
    | .deny => .deny (denyReason policy r)
    | .allow => .allow policy.rowFilter policy.columnMask
  | none => .deny (noPolicyReason s r)

def reload (_ : SnapshotIamEngine) (policies : List Policy) : SnapshotIamEngine := ⟨policies⟩

def toEngine [SerdeJson] (e : SnapshotIamEngine) : IamEngine := ⟨e.check⟩

end SnapshotIamEngine

/-- Whether the subject may see that a dataset exists. -/
def isVisible (engine : IamEngine) (s : Subject) (ns name : String) : Bool :=
  (engine.check s ⟨ns,name⟩ "SELECT").isAllowed

end Elan
