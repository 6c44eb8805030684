import Elan.Uuid

/-! Subjects, resources, policies and access decisions, with the three matchers a
policy is filtered by. -/
namespace Elan

structure Subject where
  userId : String
  groups : List String
  deriving DecidableEq

structure ResourceId where
  ns : String
  name : String
  deriving DecidableEq

def ResourceId.qualified (r : ResourceId) : String := r.ns ++ "." ++ r.name

inductive PolicyEffect
  | allow | deny
  deriving DecidableEq

inductive SubjectType
  | user | group
  deriving DecidableEq

inductive MaskKind
  | redact | sha256
  deriving DecidableEq

/-- A hash map with text keys, as its entries in iteration order. -/
structure StringMap (V : Type) where
  entries : List (String × V)
  nodup : (entries.map Prod.fst).Nodup
  deriving DecidableEq

namespace StringMap

variable {V W : Type}

/-- Transform the values, leaving out the keys whose value has no image. -/
def filterMap (f : V → Option W) (m : StringMap V) : StringMap W where
  entries := m.entries.filterMap fun e => (f e.2).map (e.1,·)
  nodup := by
    refine List.Nodup.sublist ?_ m.nodup
    induction m.entries with
    | nil => simp
    | cons e es ih =>
      cases hf : f e.2 with
      | none => simpa [List.filterMap_cons,hf] using ih.cons e.1
      | some w => simpa [List.filterMap_cons,hf] using ih

end StringMap

abbrev ColumnMask := StringMap MaskKind

/-- Reading a JSON object of strings; the decoder is not part of the program. -/
class SerdeJson where
  fromStr : String → Option (StringMap String)

inductive AccessDecision
  | allow (rowFilter : Option String) (columnMask : Option ColumnMask)
  | deny (reason : String)
  deriving DecidableEq

def AccessDecision.isAllowed : AccessDecision → Bool
  | .allow _ _ => true
  | .deny _ => false

structure Policy where
  id : Uuid
  subjectName : String
  subjectType : SubjectType
  resourcePattern : String
  action : String
  effect : PolicyEffect
  rowFilter : Option String
  columnMaskJson : Option String
  priority : Int32
  deriving DecidableEq

/-- The text before `suffix`, when `s` ends in it. -/
def stripSuffix (s suffix : String) : Option String :=
  if suffix.toList <:+ s.toList
  then some (String.ofList (s.toList.take (s.toList.length - suffix.toList.length)))
  else none

theorem stripSuffix_eq_some_iff (s suffix p : String) :
    stripSuffix s suffix = some p ↔ s = p ++ suffix := by
  unfold stripSuffix
  split_ifs with h
  · obtain ⟨t,ht⟩ := h
    simp only [Option.some.injEq,← ht,List.length_append,Nat.add_sub_cancel,List.take_left]
    rw [← String.toList_inj,← String.toList_inj,String.toList_ofList,String.toList_append,← ht,
      List.append_cancel_right_eq]
  · simp only [false_iff]
    rintro rfl
    exact h ⟨p.toList,by rw [String.toList_append]⟩

/-- Equality of texts up to the case of the letters `A` to `Z`. -/
def eqIgnoreAsciiCase (a b : String) : Bool :=
  a.toList.map Char.toLower == b.toList.map Char.toLower

namespace Policy

def matchesResource (p : Policy) (ns name : String) : Bool :=
  if p.resourcePattern = "*" then true
  else match stripSuffix p.resourcePattern ".*" with
    | some nsPattern => nsPattern = ns
    | none => p.resourcePattern = ns ++ "." ++ name

def matchesAction (p : Policy) (action : String) : Bool :=
  p.action = "*" || eqIgnoreAsciiCase p.action action

def matchesSubject (p : Policy) (s : Subject) : Bool :=
  match p.subjectType with
  | .user => p.subjectName = "*" || p.subjectName = s.userId
  | .group => s.groups.contains p.subjectName

end Policy

/-- The resources a pattern stands for: all of them, those of one namespace, or one
qualified name. -/
def PatternCovers (pattern ns name : String) : Prop :=
  pattern = "*" ∨ pattern = ns ++ ".*" ∨
    pattern = ns ++ "." ++ name ∧ ¬ ∃ m, pattern = m ++ ".*"

theorem matchesResource_iff (p : Policy) (ns name : String) :
    p.matchesResource ns name ↔ PatternCovers p.resourcePattern ns name := by
  unfold Policy.matchesResource PatternCovers
  split_ifs with hall
  · simp [hall]
  cases hs : stripSuffix p.resourcePattern ".*" with
  | some m =>
    have hp := (stripSuffix_eq_some_iff _ _ _).mp hs
    have hex : ∃ m, p.resourcePattern = m ++ ".*" := ⟨m,hp⟩
    simp only [decide_eq_true_eq,hall,false_or,hex,not_true_eq_false,and_false,or_false]
    rw [← stripSuffix_eq_some_iff,hs,Option.some.injEq]
  | none =>
    have hno : ¬ ∃ m, p.resourcePattern = m ++ ".*" := by
      rintro ⟨m,hm⟩
      rw [(stripSuffix_eq_some_iff _ _ _).mpr hm] at hs
      cases hs
    have hns : p.resourcePattern ≠ ns ++ ".*" := fun h => hno ⟨ns,h⟩
    simp [hall,hns,hno]

/-- Who a policy speaks about: everyone, one user, or the members of a group. -/
def SubjectCovered (p : Policy) (s : Subject) : Prop :=
  match p.subjectType with
  | .user => p.subjectName = "*" ∨ p.subjectName = s.userId
  | .group => p.subjectName ∈ s.groups

/-- A policy matches a request when subject, resource and action all match. -/
structure Matches (p : Policy) (s : Subject) (r : ResourceId) (action : String) : Prop where
  subject : SubjectCovered p s
  resource : PatternCovers p.resourcePattern r.ns r.name
  action : p.action = "*" ∨ p.action.toList.map Char.toLower = action.toList.map Char.toLower

theorem matchesSubject_iff (p : Policy) (s : Subject) :
    p.matchesSubject s ↔ SubjectCovered p s := by
  unfold Policy.matchesSubject SubjectCovered
  cases p.subjectType <;> simp

theorem matchesAction_iff (p : Policy) (action : String) :
    p.matchesAction action ↔
      p.action = "*" ∨ p.action.toList.map Char.toLower = action.toList.map Char.toLower := by
  simp [Policy.matchesAction,eqIgnoreAsciiCase]

end Elan
