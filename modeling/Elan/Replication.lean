import Elan.TransitionSystem
import Mathlib.Data.List.Induction
import Mathlib.Order.Monotone.Basic

/-! Copies of a source that changes while a system runs: what is held was shown by the source
before, and a copy that is refreshed over a slow channel never goes back in time. -/
namespace TransitionSystem

variable {S A ι α : Type} {step : A → S → Option S}

theorem run_concat {as : List A} {a : A} {s s' : S} :
    run step (as ++ [a]) s = some s' ↔ ∃ t, run step as s = some t ∧ step a t = some s' := by
  simp only [run_append,run_cons,run_nil]
  constructor
  · rintro ⟨t,ht,u,hu,rfl⟩
    exact ⟨t,ht,hu⟩
  · rintro ⟨t,ht,hs'⟩
    exact ⟨t,ht,s',hs',rfl⟩

/-- If all that a step adds is what the source shows, all that is held was shown at some moment. -/
theorem held_was_shown {Held Shown : S → ι → Prop}
    (hstep : ∀ a s t, step a s = some t → ∀ i, Held t i → Held s i ∨ Shown s i) {as : List A}
    {s₀ s : S} (hs₀ : ∀ i, Held s₀ i → Shown s₀ i) (hrun : run step as s₀ = some s) {i : ι}
    (h : Held s i) : ∃ bs t, bs <+: as ∧ run step bs s₀ = some t ∧ Shown t i := by
  induction as using List.reverseRecOn generalizing s with
  | nil =>
    obtain rfl := run_nil.mp hrun
    exact ⟨[],s,List.nil_prefix,rfl,hs₀ i h⟩
  | append_singleton as a ih =>
    obtain ⟨t,ht,hs⟩ := run_concat.mp hrun
    rcases hstep a t s hs i h with hheld | hshown
    · obtain ⟨bs,u,hbs,hu,hshown⟩ := ih ht hheld
      exact ⟨bs,u,hbs.trans (List.prefix_append as [a]),hu,hshown⟩
    · exact ⟨as,t,List.prefix_append as [a],ht,hshown⟩

/-- What one step does to a copy and to the value on its way to it. -/
inductive Replicates (source copy : S → α) (sent : S → Option α) (s t : S) : Prop
  | idle (hcopy : copy t = copy s) (hsent : sent t = none ∨ sent t = sent s)
  | read (hcopy : copy t = copy s) (hsent : sent t = some (source s))
  | install (hcopy : sent s = some (copy t)) (hsent : sent t = none)

section
variable {source copy : S → α} {sent : S → Option α} {s₀ : S}

/-- After `k` actions the copy is of moment `m.1`, and what is on its way of the later `m.2`. -/
def CopiedAt (step : A → S → Option S) (source copy : S → α) (sent : S → Option α) (s₀ : S)
    (as : List A) (k : ℕ) (m : ℕ × ℕ) : Prop :=
  m.1 ≤ m.2 ∧ m.2 ≤ k ∧ ∀ s, run step (as.take k) s₀ = some s →
    (∃ t, run step (as.take m.1) s₀ = some t ∧ copy s = source t) ∧
      ∀ v, sent s = some v → ∃ t, run step (as.take m.2) s₀ = some t ∧ v = source t

theorem CopiedAt.zero (hcopy : copy s₀ = source s₀) (hsent : sent s₀ = none) (as : List A) :
    CopiedAt step source copy sent s₀ as 0 (0,0) := by
  refine ⟨le_rfl,le_rfl,?_⟩
  intro s hs
  obtain rfl := run_nil.mp hs
  refine ⟨⟨s,rfl,hcopy⟩,?_⟩
  intro v hv
  rw [hsent] at hv
  cases hv

theorem CopiedAt.succ (hstep : ∀ a s t, step a s = some t → Replicates source copy sent s t)
    {as : List A} {k : ℕ} {m : ℕ × ℕ} (h : CopiedAt step source copy sent s₀ as k m) :
    ∃ m', CopiedAt step source copy sent s₀ as (k+1) m' ∧ m.1 ≤ m'.1 := by
  obtain ⟨hle,hk,hcopied⟩ := h
  by_cases hlen : k < as.length
  · have htake : as.take (k+1) = as.take k ++ [as[k]] := List.take_succ_eq_append_getElem hlen
    unfold CopiedAt
    rw [htake]
    cases hs : run step (as.take k ++ [as[k]]) s₀ with
    | none => exact ⟨m,⟨hle,hk.trans (Nat.le_succ k),fun s hs' => by cases hs'⟩,le_rfl⟩
    | some s' =>
      obtain ⟨s,hrun,hs'⟩ := run_concat.mp hs
      obtain ⟨hold,hway⟩ := hcopied s hrun
      cases hstep _ _ _ hs' with
      | idle hcopy hsent =>
        refine ⟨m,⟨hle,hk.trans (Nat.le_succ k),?_⟩,le_rfl⟩
        rintro _ ⟨⟩
        rw [hcopy]
        refine ⟨hold,fun v hv => hway v ?_⟩
        rcases hsent with hnone | hsame
        · rw [hnone] at hv
          cases hv
        · rw [← hsame,hv]
      | read hcopy hsent =>
        refine ⟨(m.1,k),⟨hle.trans hk,Nat.le_succ k,?_⟩,le_rfl⟩
        rintro _ ⟨⟩
        rw [hcopy,hsent]
        refine ⟨hold,?_⟩
        rintro _ ⟨⟩
        exact ⟨s,hrun,rfl⟩
      | install hcopy hsent =>
        refine ⟨(m.2,m.2),⟨le_rfl,hk.trans (Nat.le_succ k),?_⟩,hle⟩
        rintro _ ⟨⟩
        refine ⟨hway _ hcopy,?_⟩
        intro v hv
        rw [hsent] at hv
        cases hv
  · -- the run is over
    have htake : as.take (k+1) = as.take k := by
      rw [List.take_of_length_le (by omega),List.take_of_length_le (by omega)]
    refine ⟨m,⟨hle,hk.trans (Nat.le_succ k),?_⟩,le_rfl⟩
    rw [htake]
    exact hcopied

/-- A copy that is refreshed by what was read from the source is at every moment what the source
showed at an earlier one, and these moments follow each other in order. -/
theorem exists_moments (hstep : ∀ a s t, step a s = some t → Replicates source copy sent s t)
    (hcopy : copy s₀ = source s₀) (hsent : sent s₀ = none) (as : List A) :
    ∃ moment : ℕ → ℕ, Monotone moment ∧ ∀ k s, run step (as.take k) s₀ = some s → moment k ≤ k ∧
      ∃ t, run step (as.take (moment k)) s₀ = some t ∧ copy s = source t := by
  choose next hnext using fun k (m : {m // CopiedAt step source copy sent s₀ as k m}) =>
    m.2.succ hstep
  let moments : ∀ k, {m // CopiedAt step source copy sent s₀ as k m} :=
    Nat.rec ⟨(0,0),.zero hcopy hsent as⟩ fun k m => ⟨next k m,(hnext k m).1⟩
  refine ⟨fun k => (moments k).1.1,monotone_nat_of_le_succ fun k => (hnext k (moments k)).2,?_⟩
  intro k s hs
  obtain ⟨hle,hk,hcopied⟩ := (moments k).2
  exact ⟨hle.trans hk,(hcopied s hs).1⟩

end

end TransitionSystem
