import Elan.PolicyReload

/-! Subjects created on demand: the lookup of a name and the insertion of a row for it are two
statements, and those of other calls may come in between. -/
namespace Elan
namespace SubjectCreation

open TransitionSystem Table IamTables

inductive Rpc
  | createSubject (subjectType name : String)
  | createPolicy (p : PolicyProto)
  | addGroupMember (groupName userName : String)
  deriving DecidableEq

/-- The types and names of the subjects a call needs, in order. -/
def Rpc.subjects : Rpc → List (String × String)
  | .createSubject subjectType name => [(subjectType,name)]
  | .createPolicy p => [(p.subjectType,p.subjectName)]
  | .addGroupMember groupName userName => [("group",groupName),("user",userName)]

/-- The statement of a call once it has the identifiers of its subjects. -/
def Rpc.finish (rpc : Rpc) (ids : List String) (uuid : Uuid) (t : IamTables) :
    Except StoreError IamTables :=
  match rpc, ids with
  | .createPolicy p, [subjectId] =>
    t.insertPolicy (PolicyReload.policyRow p uuid.toString subjectId)
  | .addGroupMember _ _, [groupId,userId] => t.insertMember ⟨groupId,userId⟩
  | _, _ => .ok t

inductive Next
  | lookup (subjectType name : String) (rest : List (String × String))
  | insert (subjectType name : String) (rest : List (String × String))
  | finish
  | answered
  | refused (subjectType name : String) (e : StoreError)
  | failed (e : StoreError)
  deriving DecidableEq

def Next.after : List (String × String) → Next
  | [] => .finish
  | (subjectType,name) :: rest => .lookup subjectType name rest

theorem after_ne_refused (rest : List (String × String)) {subjectType name : String}
    {e : StoreError} : Next.after rest ≠ .refused subjectType name e := by
  rcases rest with _ | ⟨⟨_,_⟩,_⟩ <;> simp [Next.after]

/-- `found` are the names that have been got or created, with the identifiers returned. -/
structure Call where
  rpc : Rpc
  found : List (String × String)
  next : Next
  deriving DecidableEq

def Call.returns (c : Call) (name id : String) (rest : List (String × String)) : Call :=
  { c with found := c.found ++ [(name,id)], next := .after rest }

structure State (ι : Type) where
  tables : IamTables
  calls : ι → Call

def State.initial {ι : Type} (tables : IamTables) (rpcs : ι → Rpc) : State ι :=
  ⟨tables,fun i => ⟨rpcs i,[],.after (rpcs i).subjects⟩⟩

/-- The next statement of one call, with the identifier it draws for a row it inserts. -/
structure Action (ι : Type) where
  call : ι
  uuid : Uuid

variable {ι : Type} [DecidableEq ι]

def State.goto (s : State ι) (i : ι) (c : Call) : State ι :=
  { s with calls := Function.update s.calls i c }

def step (a : Action ι) (s : State ι) : Option (State ι) :=
  let i := a.call
  let c := s.calls i
  match c.next with
  | .lookup subjectType name rest =>
    match s.tables.selectSubjectId name with
    | some id => some (s.goto i (c.returns name id rest))
    | none => some (s.goto i { c with next := .insert subjectType name rest })
  | .insert subjectType name rest =>
    match s.tables.insertSubject ⟨a.uuid.toString,subjectType,name⟩ with
    | .error e => some (s.goto i { c with next := .refused subjectType name e })
    | .ok tables => some { s.goto i (c.returns name a.uuid.toString rest) with tables }
  | .finish =>
    match c.rpc.finish (c.found.map Prod.snd) a.uuid s.tables with
    | .error e => some (s.goto i { c with next := .failed e })
    | .ok tables => some { s.goto i { c with next := .answered } with tables }
  | .answered | .refused .. | .failed _ => none

def validTypes : List String := ["user","group"]

/-- No lookup or insertion of a subject of a valid type has failed, all calls were given one
identifier for a name, and it is that of the only row of the name. -/
structure Linearised (s : State ι) : Prop where
  succeeds : ∀ i subjectType name e,
    (s.calls i).next = .refused subjectType name e → subjectType ∉ validTypes
  agree : ∀ i j name id id', (name,id) ∈ (s.calls i).found → (name,id') ∈ (s.calls j).found →
    id = id'
  oneRow : ∀ i name id, (name,id) ∈ (s.calls i).found →
    ∃ subjectType, s.tables.subjects.filter (·.name = name) = [⟨id,subjectType,name⟩]

/-- Where a call comes to insert the subject that its lookup did not find, no other call has
inserted the name, and the new identifier is not taken. -/
def StillAbsent (a : Action ι) (s : State ι) : Prop :=
  ∀ subjectType name rest, (s.calls a.call).next = .insert subjectType name rest →
    subjectType ∈ validTypes → name ∉ s.tables.subjects.map SubjectRow.name ∧
      a.uuid.toString ∉ s.tables.subjects.map SubjectRow.id

inductive Effect (s : State ι) (a : Action ι) : State ι → Prop
  | found {subjectType name id : String} {rest : List (String × String)}
    (hnext : (s.calls a.call).next = .lookup subjectType name rest)
    (hid : s.tables.selectSubjectId name = some id) :
    Effect s a (s.goto a.call ((s.calls a.call).returns name id rest))
  | absent {subjectType name : String} {rest : List (String × String)}
    (hnext : (s.calls a.call).next = .lookup subjectType name rest) :
    Effect s a (s.goto a.call { s.calls a.call with next := .insert subjectType name rest })
  | inserted {subjectType name : String} {rest : List (String × String)} {tables : IamTables}
    (hnext : (s.calls a.call).next = .insert subjectType name rest)
    (hins : s.tables.insertSubject ⟨a.uuid.toString,subjectType,name⟩ = .ok tables) :
    Effect s a
      { s.goto a.call ((s.calls a.call).returns name a.uuid.toString rest) with tables }
  | refused {subjectType name : String} {rest : List (String × String)} {e : StoreError}
    (hnext : (s.calls a.call).next = .insert subjectType name rest)
    (hins : s.tables.insertSubject ⟨a.uuid.toString,subjectType,name⟩ = .error e) :
    Effect s a (s.goto a.call { s.calls a.call with next := .refused subjectType name e })
  | finished {tables : IamTables} (hnext : (s.calls a.call).next = .finish)
    (hsubjects : tables.subjects = s.tables.subjects) :
    Effect s a { s.goto a.call { s.calls a.call with next := .answered } with tables }
  | failed {e : StoreError} (hnext : (s.calls a.call).next = .finish) :
    Effect s a (s.goto a.call { s.calls a.call with next := .failed e })

omit [DecidableEq ι] in
theorem finish_subjects {rpc : Rpc} {ids : List String} {uuid : Uuid} {t t' : IamTables}
    (h : rpc.finish ids uuid t = .ok t') : t'.subjects = t.subjects := by
  unfold Rpc.finish at h
  split at h
  · exact (insertPolicy_eq_ok h).2.2.1
  · exact (insertMember_eq_ok h).1
  · rw [Except.ok.inj h]

theorem step_effect {a : Action ι} {s s' : State ι} (h : step a s = some s') : Effect s a s' := by
  unfold step at h
  cases hnext : (s.calls a.call).next with
  | lookup subjectType name rest =>
    cases hid : s.tables.selectSubjectId name with
    | none =>
      simp only [hnext,hid,Option.some.injEq] at h
      exact h ▸ .absent hnext
    | some id =>
      simp only [hnext,hid,Option.some.injEq] at h
      exact h ▸ .found hnext hid
  | insert subjectType name rest =>
    cases hins : s.tables.insertSubject ⟨a.uuid.toString,subjectType,name⟩ with
    | error e =>
      simp only [hnext,hins,Option.some.injEq] at h
      exact h ▸ .refused hnext hins
    | ok tables =>
      simp only [hnext,hins,Option.some.injEq] at h
      exact h ▸ .inserted hnext hins
  | finish =>
    cases hfin : (s.calls a.call).rpc.finish ((s.calls a.call).found.map Prod.snd) a.uuid
      s.tables with
    | error e =>
      simp only [hnext,hfin,Option.some.injEq] at h
      exact h ▸ .failed hnext
    | ok tables =>
      simp only [hnext,hfin,Option.some.injEq] at h
      exact h ▸ .finished hnext (finish_subjects hfin)
  | answered | refused | failed => simp [hnext] at h

def Stored (s : State ι) : Prop :=
  ∀ i name id, (name,id) ∈ (s.calls i).found → ∃ r ∈ s.tables.subjects, r.name = name ∧ r.id = id

theorem Stored.goto {s : State ι} {i : ι} {c : Call} {tables : IamTables} (hs : Stored s)
    (hsubjects : s.tables.subjects ⊆ tables.subjects)
    (hc : ∀ name id, (name,id) ∈ c.found → (name,id) ∈ (s.calls i).found ∨
      ∃ r ∈ tables.subjects, r.name = name ∧ r.id = id) :
    Stored { s.goto i c with tables } := by
  have hkeep : ∀ j name id, (name,id) ∈ (s.calls j).found →
      ∃ r ∈ tables.subjects, r.name = name ∧ r.id = id := by
    intro j name id hmem
    obtain ⟨r,hr,hrow⟩ := hs j name id hmem
    exact ⟨r,hsubjects hr,hrow⟩
  intro j name id hmem
  simp only [State.goto] at hmem
  by_cases hj : j = i
  · subst hj
    rw [Function.update_self] at hmem
    exact (hc name id hmem).elim (hkeep j name id) fun h => h
  · rw [Function.update_of_ne hj] at hmem
    exact hkeep j name id hmem

theorem stored_step {a : Action ι} {s s' : State ι} (hs : Stored s) (h : step a s = some s') :
    Stored s' := by
  cases step_effect h with
  | @found _ name id _ _ hid =>
    refine hs.goto (List.Subset.refl _) ?_
    intro name' id' hmem
    rcases List.mem_append.mp hmem with hmem | hmem
    · exact .inl hmem
    · obtain ⟨rfl,rfl⟩ := Prod.mk.inj (List.mem_singleton.mp hmem)
      exact .inr (selectSubjectId_eq_some.mp hid)
  | inserted _ hins =>
    obtain ⟨-,-,-,hsubjects,-⟩ := insertSubject_eq_ok hins
    refine hs.goto (hsubjects ▸ List.subset_append_left _ _) ?_
    intro name' id' hmem
    rcases List.mem_append.mp hmem with hmem | hmem
    · exact .inl hmem
    · obtain ⟨rfl,rfl⟩ := Prod.mk.inj (List.mem_singleton.mp hmem)
      exact .inr ⟨_,hsubjects ▸ List.mem_append_right _ (List.mem_singleton.mpr rfl),rfl,rfl⟩
  | absent | refused | failed => exact hs.goto (List.Subset.refl _) fun _ _ hmem => .inl hmem
  | finished _ hsubjects =>
    exact hs.goto (hsubjects ▸ List.Subset.refl _) fun _ _ hmem => .inl hmem

omit [DecidableEq ι] in
/-- Names are unique, so a row found for a name is the only one. -/
theorem Stored.linearised {s : State ι} (hs : Stored s)
    (hsucceeds : ∀ i subjectType name e, (s.calls i).next = .refused subjectType name e →
      subjectType ∉ validTypes) : Linearised s where
  succeeds := hsucceeds
  agree i j name id id' hi hj := by
    obtain ⟨r,hr,hname,rfl⟩ := hs i name id hi
    obtain ⟨r',hr',hname',rfl⟩ := hs j name id' hj
    rw [List.inj_on_of_nodup_map s.tables.subject_names hr hr' (hname.trans hname'.symm)]
  oneRow i name id hi := by
    obtain ⟨⟨id,subjectType,name⟩,hr,rfl,rfl⟩ := hs i name id hi
    exact ⟨subjectType,filter_key_eq SubjectRow.name s.tables.subject_names hr⟩

/-- A step that inserts the subject after another call fails. -/
theorem stillAbsent_of_linearised {a : Action ι} {s s' : State ι} (h : step a s = some s')
    (hs' : Linearised s') : StillAbsent a s := by
  intro subjectType name rest hnext htype
  cases step_effect h with
  | inserted hinsert hins =>
    obtain ⟨rfl,rfl,rfl⟩ := Next.insert.inj (hnext.symm.trans hinsert)
    obtain ⟨-,hid,hname,-⟩ := insertSubject_eq_ok hins
    exact ⟨hname,hid⟩
  | @refused _ _ _ e hinsert hins =>
    obtain ⟨rfl,rfl,rfl⟩ := Next.insert.inj (hnext.symm.trans hinsert)
    have hrefused := hs'.succeeds a.call subjectType name e (by simp [State.goto])
    exact absurd htype hrefused
  | found hlookup | absent hlookup => cases hnext.symm.trans hlookup
  | finished hfinish | failed hfinish => cases hnext.symm.trans hfinish

/-- An insertion of a subject that is still absent is not refused. -/
theorem not_refused_of_stillAbsent {a : Action ι} {s s' : State ι} {subjectType name : String}
    {e : StoreError} (h : step a s = some s') (habsent : StillAbsent a s)
    (hrefused : (s'.calls a.call).next = .refused subjectType name e) :
    subjectType ∉ validTypes := by
  cases step_effect h with
  | @refused subjectType' name' rest _ hinsert hins =>
    simp only [State.goto,Function.update_self,Next.refused.injEq] at hrefused
    obtain ⟨rfl,rfl,rfl⟩ := hrefused
    intro htype
    obtain ⟨hname,hid⟩ := habsent _ _ rest hinsert htype
    obtain ⟨t,ht⟩ := @exists_insertSubject s.tables ⟨a.uuid.toString,subjectType',name'⟩ htype
      hname hid
    rw [hins] at ht
    cases ht
  | found | inserted =>
    simp only [State.goto,Function.update_self,Call.returns] at hrefused
    exact absurd hrefused (after_ne_refused _)
  | absent | finished | failed => simp [State.goto] at hrefused

/-- One step keeps the calls linearised exactly when it inserts no subject twice. -/
theorem linearised_step {a : Action ι} {s s' : State ι} (hs : Linearised s) (hstored : Stored s)
    (h : step a s = some s') : Linearised s' ↔ StillAbsent a s := by
  refine ⟨stillAbsent_of_linearised h,fun habsent => ?_⟩
  refine (stored_step hstored h).linearised ?_
  intro i subjectType name e hrefused
  by_cases hi : i = a.call
  · subst hi
    exact not_refused_of_stillAbsent h habsent hrefused
  · apply hs.succeeds i subjectType name e
    cases step_effect h <;> simpa [State.goto,Function.update_of_ne hi] using hrefused

/-- A run keeps the calls linearised exactly when none of its steps inserts a subject twice. -/
theorem linearised_iff (t : IamTables) (rpcs : ι → Rpc) (as : List (Action ι)) :
    Always step Linearised as (State.initial t rpcs) ↔
      Meets step StillAbsent as (State.initial t rpcs) := by
  apply always_iff_meets fun s (hs : Linearised s ∧ Stored s) => hs.1
  · intro a s hstuck subjectType name rest hnext
    cases hins : s.tables.insertSubject ⟨a.uuid.toString,subjectType,name⟩ <;>
      simp [step,hnext,hins] at hstuck
  · exact fun a s s' hs h => linearised_step hs.1 hs.2 h
  · exact fun a s s' hs h hs' => ⟨hs',stored_step hs.2 h⟩
  · have hstored : Stored (State.initial t rpcs) := by
      intro i name id hmem
      cases hmem
    refine ⟨hstored.linearised ?_,hstored⟩
    intro i subjectType name e hrefused
    exact absurd hrefused (after_ne_refused _)

/-! ### A lookup alone -/

/-- Without others in between, a call gets or creates the subject as the store operation does. -/
theorem getOrCreateSubject_alone {s : State ι} {i : ι} {uuid : Uuid} {subjectType name : String}
    {rest : List (String × String)}
    (hnext : (s.calls i).next = .lookup subjectType name rest) :
    ∃ n s', run step (List.replicate n ⟨i,uuid⟩) s = some s' ∧
      s'.tables = (IamStore.getOrCreateSubject s.tables uuid subjectType name).2 ∧
      s'.calls i = match (IamStore.getOrCreateSubject s.tables uuid subjectType name).1 with
        | .ok id => (s.calls i).returns name id rest
        | .error e => { s.calls i with next := .refused subjectType name e } := by
  cases hid : s.tables.selectSubjectId name with
  | some id =>
    have hstep : step ⟨i,uuid⟩ s = some (s.goto i ((s.calls i).returns name id rest)) := by
      simp [step,hnext,hid]
    refine ⟨1,_,run_cons.mpr ⟨_,hstep,rfl⟩,?_⟩
    simp [IamStore.getOrCreateSubject,hid,State.goto]
  | none =>
    let inserting := s.goto i { s.calls i with next := .insert subjectType name rest }
    have hlookup : step ⟨i,uuid⟩ s = some inserting := by
      simp [step,hnext,hid,inserting]
    cases hins : s.tables.insertSubject ⟨uuid.toString,subjectType,name⟩ with
    | error e =>
      have hinsert : step ⟨i,uuid⟩ inserting = some (inserting.goto i
          { s.calls i with next := .refused subjectType name e }) := by
        simp [step,State.goto,hins,inserting]
      refine ⟨2,_,run_cons.mpr ⟨_,hlookup,run_cons.mpr ⟨_,hinsert,rfl⟩⟩,?_⟩
      simp [IamStore.getOrCreateSubject,IamStore.createSubject,hid,hins,State.goto,inserting]
    | ok t =>
      have hinsert : step ⟨i,uuid⟩ inserting = some
          { inserting.goto i ((s.calls i).returns name uuid.toString rest) with tables := t } := by
        simp [step,State.goto,hins,inserting,Call.returns]
      refine ⟨2,_,run_cons.mpr ⟨_,hlookup,run_cons.mpr ⟨_,hinsert,rfl⟩⟩,?_⟩
      simp [IamStore.getOrCreateSubject,IamStore.createSubject,hid,hins,State.goto,inserting]

/-! ### Two calls for one name -/

/-- The policy of a user whom another call creates. -/
def alicePolicy : PolicyProto := ⟨"","alice","user","*","SELECT",0,"","",0⟩

/-- Both calls look the name up before either inserts it, and the policy is refused. -/
theorem second_insert_refused : ¬ ∀ (t : IamTables) (rpcs : Bool → Rpc)
    (as : List (Action Bool)), (as.map Action.uuid).Nodup →
      Always step Linearised as (State.initial t rpcs) := by
  intro h
  let rpcs : Bool → Rpc := fun first => if first then .createSubject "user" "alice"
    else .createPolicy alicePolicy
  let as : List (Action Bool) := [⟨true,.ofByte 3⟩,⟨false,.ofByte 4⟩,⟨true,.ofByte 5⟩,
    ⟨false,.ofByte 6⟩]
  have hrun : (run step as (State.initial .seed rpcs)).any (fun s =>
      (s.calls false).next = .refused "user" "alice" (.unique "name")) = true := by
    decide
  obtain ⟨s,hs,hcheck⟩ := Option.any_eq_true _ _ |>.mp hrun
  have hlinear := always_iff.mp (h .seed rpcs as (by decide)) as s List.prefix_rfl hs
  exact absurd (hlinear.succeeds false _ _ _ (of_decide_eq_true hcheck)) (by decide)

end SubjectCreation
end Elan
