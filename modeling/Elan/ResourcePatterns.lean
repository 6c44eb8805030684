import Elan.IamTypes

/-! How many datasets a resource pattern stands for. Namespaces and names are free texts, so
that the dots of a pattern may belong to either. -/
namespace Elan

section
variable {α : Type} [DecidableEq α] {x : α}

/-- Where a separator occurs once, the parts around it are determined. -/
theorem eq_of_split {as bs cs ds : List α} (h : as ++ x :: bs = cs ++ x :: ds)
    (hcount : (as ++ x :: bs).count x ≤ 1) : as = cs ∧ bs = ds := by
  rcases List.append_eq_append_iff.mp h with ⟨ws,hc,hb⟩ | ⟨ws,ha,hd⟩
  · cases ws with
    | nil => simp_all
    | cons w ws =>
      obtain ⟨rfl,rfl⟩ := List.cons.inj hb
      simp [List.count_append] at hcount
      omega
  · cases ws with
    | nil => simp_all
    | cons w ws =>
      obtain ⟨rfl,rfl⟩ := List.cons.inj hd
      simp [ha,List.count_append] at hcount
      omega

/-- A separator that occurs twice splits a list in two ways. -/
theorem exists_splits {xs : List α} (h : 1 < xs.count x) :
    ∃ as bs cs, xs = as ++ x :: (bs ++ x :: cs) := by
  have hmem : x ∈ xs := List.count_pos_iff.mp (by omega)
  obtain ⟨as,ys,rfl,has⟩ := List.eq_append_cons_of_mem hmem
  rw [List.count_append,List.count_eq_zero_of_not_mem has,List.count_cons_self] at h
  have hmem' : x ∈ ys := List.count_pos_iff.mp (by omega)
  obtain ⟨bs,cs,rfl⟩ := List.append_of_mem hmem'
  exact ⟨as,bs,cs,rfl⟩

end

namespace Policy

def CoversNamespace (p : Policy) : Prop := ∃ ns, p.resourcePattern = ns ++ ".*"

/-- A pattern for a namespace matches all of it and nothing else, any other pattern but `*`
matches one dataset at most, and only `*` matches datasets of two namespaces. -/
structure Unambiguous (p : Policy) : Prop where
  wholeNamespace : ∀ ns, p.resourcePattern = ns ++ ".*" →
    ∀ ns' name, p.matchesResource ns' name ↔ ns' = ns
  atMostOne : p.resourcePattern ≠ "*" → ¬ p.CoversNamespace → ∀ ns name ns' name',
    p.matchesResource ns name → p.matchesResource ns' name' → ns = ns' ∧ name = name'
  oneNamespace : p.resourcePattern ≠ "*" → ∀ ns name ns' name',
    p.matchesResource ns name → p.matchesResource ns' name' → ns = ns'

theorem matchesResource_of_eq {p : Policy} {ns : String} (h : p.resourcePattern = ns ++ ".*")
    (ns' name : String) : p.matchesResource ns' name ↔ ns' = ns := by
  have hall : p.resourcePattern ≠ "*" := by
    intro hall
    have hlength := congrArg (fun s => s.toList.length) (hall.symm.trans h)
    simp [String.toList_append] at hlength
  rw [matchesResource_iff,PatternCovers]
  constructor
  · intro hcovers
    rcases hcovers with hstar | hns | ⟨-,hno⟩
    · exact absurd hstar hall
    · rw [h,← String.toList_inj,String.toList_append,String.toList_append] at hns
      exact (String.toList_inj.mp (List.append_cancel_right hns)).symm
    · exact absurd ⟨ns,h⟩ hno
  · rintro rfl
    exact .inr (.inl h)

theorem matchesResource_of_not {p : Policy} (hall : p.resourcePattern ≠ "*")
    (hno : ¬ p.CoversNamespace) (ns name : String) :
    p.matchesResource ns name ↔ p.resourcePattern.toList = ns.toList ++ '.' :: name.toList := by
  have hns : p.resourcePattern ≠ ns ++ ".*" := fun h => hno ⟨ns,h⟩
  have htext : p.resourcePattern = ns ++ "." ++ name ↔
      p.resourcePattern.toList = ns.toList ++ '.' :: name.toList := by
    rw [← String.toList_inj]
    simp [String.toList_append]
  rw [matchesResource_iff,PatternCovers,htext]
  constructor
  · intro h
    rcases h with h | h | h
    · exact absurd h hall
    · exact absurd h hns
    · exact h.1
  · intro h
    exact .inr (.inr ⟨h,hno⟩)

/-- A pattern stands for what it was written for exactly when it is `*`, names a namespace, or
has no second dot. -/
theorem unambiguous_iff (p : Policy) : p.Unambiguous ↔
    p.resourcePattern = "*" ∨ p.CoversNamespace ∨ p.resourcePattern.toList.count '.' ≤ 1 := by
  constructor
  · intro h
    by_contra hcond
    rw [not_or,not_or,not_le] at hcond
    obtain ⟨hall,hno,hdots⟩ := hcond
    obtain ⟨as,bs,cs,hsplit⟩ := exists_splits hdots
    have hmatch (ns name : List Char) (hns : p.resourcePattern.toList = ns ++ '.' :: name) :
        p.matchesResource (String.ofList ns) (String.ofList name) := by
      apply (matchesResource_of_not hall hno _ _).mpr
      simpa using hns
    have hfirst := hmatch as (bs ++ '.' :: cs) hsplit
    have hsecond := hmatch (as ++ '.' :: bs) cs (by simpa using hsplit)
    have hns := h.oneNamespace hall _ _ _ _ hfirst hsecond
    have hlists : as = as ++ '.' :: bs := by simpa using congrArg String.toList hns
    have hlength := congrArg List.length hlists
    simp at hlength
  · intro hcond
    have hone : p.resourcePattern ≠ "*" → ¬ p.CoversNamespace → ∀ ns name ns' name',
        p.matchesResource ns name → p.matchesResource ns' name' → ns = ns' ∧ name = name' := by
      intro hall hno ns name ns' name' h h'
      rw [matchesResource_of_not hall hno] at h h'
      have hdots := (hcond.resolve_left hall).resolve_left hno
      rw [h] at hdots
      obtain ⟨hns,hname⟩ := eq_of_split (h ▸ h') hdots
      exact ⟨String.toList_inj.mp hns,String.toList_inj.mp hname⟩
    refine ⟨fun ns hns => matchesResource_of_eq hns,hone,?_⟩
    intro hall ns name ns' name' h h'
    by_cases hns : p.CoversNamespace
    · obtain ⟨m,hm⟩ := hns
      rw [matchesResource_of_eq hm] at h h'
      rw [h,h']
    · exact (hone hall hns ns name ns' name' h h').1

end Policy

/-- Everyone may read one dataset of a nested namespace. -/
def emeaAccounts : Policy :=
  ⟨Uuid.ofByte 1,"*",.user,"finance.emea.accounts","SELECT",.allow,none,none,0⟩

/-- The policy also matches a dataset of another namespace, whose name has a dot. -/
theorem nested_pattern_ambiguous : ¬ ∀ p : Policy, p.Unambiguous := by
  intro h
  have hns := (h emeaAccounts).oneNamespace (by decide) "finance.emea" "accounts" "finance"
    "emea.accounts" (by decide) (by decide)
  exact absurd hns (by decide)

end Elan
