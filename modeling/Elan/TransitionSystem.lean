import Mathlib.Tactic.Common

/-! Runs of a system whose actions are taken one after the other: the invariant rule, runs
whose every step meets a condition, and variables that only record the history. -/
namespace TransitionSystem

variable {S A H : Type} (step : A → S → Option S)

def run : List A → S → Option S
  | [], s => some s
  | a :: as, s => (step a s).bind (run as)

variable {step}

theorem run_nil {s s' : S} : run step [] s = some s' ↔ s' = s := by
  simp [run,eq_comm]

theorem run_cons {a : A} {as : List A} {s s' : S} :
    run step (a :: as) s = some s' ↔ ∃ t, step a s = some t ∧ run step as t = some s' :=
  Option.bind_eq_some_iff

theorem run_append {as bs : List A} {s s' : S} :
    run step (as ++ bs) s = some s' ↔ ∃ t, run step as s = some t ∧ run step bs t = some s' := by
  induction as generalizing s with
  | nil => simp [run]
  | cons a as ih =>
    simp only [List.cons_append,run_cons,ih]
    constructor
    · rintro ⟨t,ht,u,hu,hbs⟩
      exact ⟨u,⟨t,ht,hu⟩,hbs⟩
    · rintro ⟨u,⟨t,ht,hu⟩,hbs⟩
      exact ⟨t,ht,u,hu,hbs⟩

variable (step) in
/-- Each step of the run meets `ok` in the state it is taken in. -/
def Meets (ok : A → S → Prop) : List A → S → Prop
  | [], _ => True
  | a :: as, s => ok a s ∧ ∀ t, step a s = some t → Meets ok as t

instance decidableMeets {ok : A → S → Prop} [∀ a s, Decidable (ok a s)] :
    ∀ as s, Decidable (Meets step ok as s)
  | [], _ => isTrue trivial
  | a :: as, s =>
    match h : step a s with
    | none => decidable_of_iff (ok a s) (by simp [Meets,h])
    | some t =>
      have : Decidable (Meets step ok as t) := decidableMeets as t
      decidable_of_iff (ok a s ∧ Meets step ok as t) (by simp [Meets,h])

/-- What every allowed step preserves, a run of allowed steps preserves. -/
theorem run_invariant {Inv : S → Prop} {ok : A → S → Prop}
    (hstep : ∀ a s s', Inv s → ok a s → step a s = some s' → Inv s') {as : List A} {s s' : S}
    (hs : Inv s) (hok : Meets step ok as s) (hrun : run step as s = some s') : Inv s' := by
  induction as generalizing s with
  | nil => exact run_nil.mp hrun ▸ hs
  | cons a as ih =>
    obtain ⟨t,ht,htrun⟩ := run_cons.mp hrun
    exact ih (hstep a s t hs hok.1 ht) (hok.2 t ht) htrun

theorem meets_of_forall {ok : A → S → Prop} {as : List A} (h : ∀ a ∈ as, ∀ s, ok a s) (s : S) :
    Meets step ok as s := by
  induction as generalizing s with
  | nil => trivial
  | cons a as ih =>
    exact ⟨h a (by simp) s,fun t _ => ih (fun b hb => h b (by simp [hb])) t⟩

/-- What every step preserves, every run preserves. -/
theorem run_preserves {Inv : S → Prop} (hstep : ∀ a s s', Inv s → step a s = some s' → Inv s')
    {as : List A} {s s' : S} (hs : Inv s) (hrun : run step as s = some s') : Inv s' := by
  have hallowed : ∀ a s s', Inv s → True → step a s = some s' → Inv s' :=
    fun a s s' h _ => hstep a s s' h
  exact run_invariant hallowed hs (meets_of_forall (fun _ _ _ => trivial) s) hrun

theorem meets_and {ok ok' : A → S → Prop} {as : List A} {s : S} :
    Meets step (fun a s => ok a s ∧ ok' a s) as s ↔ Meets step ok as s ∧ Meets step ok' as s := by
  induction as generalizing s with
  | nil => simp [Meets]
  | cons a as ih =>
    simp only [Meets,ih]
    constructor
    · rintro ⟨⟨ha,ha'⟩,h⟩
      exact ⟨⟨ha,fun t ht => (h t ht).1⟩,ha',fun t ht => (h t ht).2⟩
    · rintro ⟨⟨ha,h⟩,ha',h'⟩
      exact ⟨⟨ha,ha'⟩,fun t ht => ⟨h t ht,h' t ht⟩⟩

theorem meets_append {ok : A → S → Prop} {as bs : List A} {s : S} :
    Meets step ok (as ++ bs) s ↔
      Meets step ok as s ∧ ∀ t, run step as s = some t → Meets step ok bs t := by
  induction as generalizing s with
  | nil => simp [Meets,run]
  | cons a as ih =>
    simp only [List.cons_append,Meets,ih,run_cons]
    constructor
    · rintro ⟨ha,h⟩
      exact ⟨⟨ha,fun t ht => (h t ht).1⟩,fun u ⟨t,ht,hu⟩ => (h t ht).2 u hu⟩
    · rintro ⟨⟨ha,h⟩,h'⟩
      exact ⟨ha,fun t ht => ⟨h t ht,fun u hu => h' u ⟨t,ht,hu⟩⟩⟩

/-- Conditions that agree where an invariant holds are met by the same runs. -/
theorem meets_congr {Inv : S → Prop} {ok ok' : A → S → Prop}
    (hstep : ∀ a s t, Inv s → step a s = some t → Inv t)
    (hok : ∀ a s, Inv s → (ok a s ↔ ok' a s)) {as : List A} {s : S} (hs : Inv s) :
    Meets step ok as s ↔ Meets step ok' as s := by
  induction as generalizing s with
  | nil => exact Iff.rfl
  | cons a as ih =>
    refine and_congr (hok a s hs) (forall_congr' fun t => ?_)
    exact imp_congr_right fun ht => ih (hstep a s t hs ht)

variable (step) in
/-- `P` holds in the state the run starts in and in every state it passes through. -/
def Always (P : S → Prop) : List A → S → Prop
  | [], s => P s
  | a :: as, s => P s ∧ ∀ t, step a s = some t → Always P as t

theorem always_iff {P : S → Prop} {as : List A} {s : S} :
    Always step P as s ↔ ∀ bs t, bs <+: as → run step bs s = some t → P t := by
  induction as generalizing s with
  | nil =>
    constructor
    · intro h bs t hbs hrun
      rw [List.prefix_nil.mp hbs] at hrun
      exact run_nil.mp hrun ▸ h
    · intro h
      exact h [] s List.prefix_rfl rfl
  | cons a as ih =>
    constructor
    · intro ⟨hs,hrest⟩ bs t hbs hrun
      rcases List.prefix_cons_iff.mp hbs with rfl | ⟨cs,rfl,hcs⟩
      · exact run_nil.mp hrun ▸ hs
      · obtain ⟨u,hu,hcrun⟩ := run_cons.mp hrun
        exact ih.mp (hrest u hu) cs t hcs hcrun
    · intro h
      refine ⟨h [] s List.nil_prefix rfl,fun t ht => ih.mpr fun bs u hbs hrun => ?_⟩
      apply h (a :: bs) u
      · exact List.prefix_cons_iff.mpr (.inr ⟨bs,rfl,hbs⟩)
      · exact run_cons.mpr ⟨t,ht,hrun⟩

/-- When one step keeps `P` exactly under `ok`, a run keeps it exactly when its steps meet `ok`. -/
theorem always_iff_meets {Inv P : S → Prop} {ok : A → S → Prop} (hP : ∀ s, Inv s → P s)
    (hstuck : ∀ a s, step a s = none → ok a s)
    (hstep : ∀ a s t, Inv s → step a s = some t → (P t ↔ ok a s))
    (hkeep : ∀ a s t, Inv s → step a s = some t → P t → Inv t) {as : List A} {s : S}
    (hs : Inv s) : Always step P as s ↔ Meets step ok as s := by
  induction as generalizing s with
  | nil => exact ⟨fun _ => trivial,fun _ => hP s hs⟩
  | cons a as ih =>
    cases hst : step a s with
    | none => simp [Always,Meets,hst,hP s hs,hstuck a s hst]
    | some t =>
      simp only [Always,Meets,hst,Option.some.injEq,forall_eq',hP s hs,true_and]
      rw [← hstep a s t hs hst]
      constructor
      · intro h
        have ht : P t := always_iff.mp h [] t List.nil_prefix rfl
        exact ⟨ht,(ih (hkeep a s t hs hst ht)).mp h⟩
      · intro ⟨ht,h⟩
        exact (ih (hkeep a s t hs hst ht)).mpr h

variable (step) in
/-- The system together with a record of what happened, which no step depends on. -/
def withHistory (record : A → S → S → H → H) (a : A) (x : S × H) : Option (S × H) :=
  (step a x.1).map fun s => (s,record a x.1 s x.2)

theorem withHistory_eq_some {record : A → S → S → H → H} {a : A} {x y : S × H} :
    withHistory step record a x = some y ↔
      step a x.1 = some y.1 ∧ y.2 = record a x.1 y.1 x.2 := by
  simp only [withHistory,Option.map_eq_some_iff]
  constructor
  · rintro ⟨s,hs,rfl⟩
    exact ⟨hs,rfl⟩
  · rintro ⟨hs,hh⟩
    exact ⟨y.1,hs,by rw [← hh]⟩

/-- Recording the history takes no run away. -/
theorem exists_run_withHistory (record : A → S → S → H → H) {as : List A} {s s' : S} (h : H)
    (hrun : run step as s = some s') :
    ∃ h', run (withHistory step record) as (s,h) = some (s',h') := by
  induction as generalizing s h with
  | nil => exact ⟨h,by rw [run_nil.mp hrun]; rfl⟩
  | cons a as ih =>
    obtain ⟨t,ht,htrun⟩ := run_cons.mp hrun
    obtain ⟨h',hh'⟩ := ih (record a s t h) htrun
    exact ⟨h',run_cons.mpr ⟨_,withHistory_eq_some.mpr ⟨ht,rfl⟩,hh'⟩⟩

/-- Conditions on the steps of the system are conditions on its steps with a record. -/
theorem meets_withHistory {record : A → S → S → H → H} {ok : A → S → Prop} {as : List A} {s : S}
    {h : H} : Meets (withHistory step record) (fun a x => ok a x.1) as (s,h) ↔
      Meets step ok as s := by
  induction as generalizing s h with
  | nil => exact Iff.rfl
  | cons a as ih =>
    apply and_congr_right
    intro _
    constructor
    · intro hrest t ht
      exact ih.mp (hrest (t,record a s t h) (withHistory_eq_some.mpr ⟨ht,rfl⟩))
    · intro hrest y hy
      exact ih.mpr (hrest y.1 (withHistory_eq_some.mp hy).1)

end TransitionSystem
