import Elan.IamSvc
import Elan.TransitionSystem

/-! Policies as they were written and as they are listed again, over any sequence of accepted
calls that starts from the migrated database. -/
namespace Elan
namespace PolicyRoundTrip

open TransitionSystem Table IamTables

inductive Call
  | createSubject (subjectType name : String)
  | addGroupMember (groupName userName : String)
  | createPolicy (p : PolicyProto)
  | deletePolicy (policyId : String)
  deriving DecidableEq

def accept (a : Call × Choices) (svc : IamSvc) : Option IamSvc :=
  match a.1 with
  | .createSubject subjectType name => accepted (svc.createSubject a.2 subjectType name)
  | .addGroupMember groupName userName => accepted (svc.addGroupMember a.2 groupName userName)
  | .createPolicy p => accepted (svc.createPolicy a.2 p)
  | .deletePolicy policyId => accepted (svc.deletePolicy a.2 policyId)
where
  accepted {α : Type} : Except StoreError α × IamSvc → Option IamSvc
    | (.ok _,svc) => some svc
    | (.error _,_) => none

/-- The listing shows the policy once, and with the fields it was written with. -/
def ReportedAsWritten (svc : IamSvc) (order : QueryOrder) (policyId : String)
    (p : PolicyProto) : Prop :=
  ∃ protos, svc.listPolicies order "" = .ok protos ∧
    protos.filter (·.policyId = policyId) = [{ p with policyId }]

/-! ### Steps -/

theorem reloadEngine_store {svc svc' : IamSvc} {order : QueryOrder} {r : Except StoreError Unit}
    (h : svc.reloadEngine order = (r,svc')) : svc'.store = svc.store := by
  unfold IamSvc.reloadEngine at h
  cases hl : IamStore.listPolicies order svc.store none <;> rw [hl] at h <;> cases h <;> rfl

inductive Effect : Call → Choices → IamTables → IamTables → Prop
  | subjects {a : Call} {c : Choices} {t t' : IamTables} (ha : ∀ p, a ≠ .createPolicy p)
    (hsubjects : t.subjects ⊆ t'.subjects) (hpolicies : t'.policies = t.policies) : Effect a c t t'
  | created {p : PolicyProto} {c : Choices} {t t' : IamTables} {s : SubjectRow}
    (hs : s ∈ t'.subjects) (hname : s.name = p.subjectName)
    (horigin : s ∈ t.subjects ∨ p.subjectName ∉ t.subjects.map SubjectRow.name ∧
      s.subjectType = p.subjectType) (hsubjects : t.subjects ⊆ t'.subjects)
    (hpolicies : t'.policies = t.policies ++ [⟨c.secondUuid.toString,s.id,p.resourcePattern,
      p.action,effectText p.effect,optionalText p.rowFilter,optionalText p.columnMaskJson,
      p.priority.toInt64⟩]) : Effect (.createPolicy p) c t t'
  | deleted {policyId : String} {c : Choices} {t t' : IamTables}
    (hstore : t' = t.deletePolicy policyId) : Effect (.deletePolicy policyId) c t t'

theorem accept_effect {a : Call} {c : Choices} {svc svc' : IamSvc}
    (h : accept (a,c) svc = some svc') : Effect a c svc.store svc'.store := by
  cases a with
  | createSubject subjectType name =>
    rcases hr : IamStore.getOrCreateSubject svc.store c.firstUuid subjectType name with ⟨r,t⟩
    obtain ⟨hsub,hpol,-⟩ := IamStore.getOrCreateSubject_spec hr
    cases r <;> simp only [accept,IamSvc.createSubject,hr,accept.accepted] at h <;> cases h
    exact .subjects (by simp) hsub hpol
  | addGroupMember groupName userName =>
    rcases hr : IamStore.addGroupMember svc.store c.firstUuid c.secondUuid groupName userName
      with ⟨r,t⟩
    obtain ⟨hsub,hpol⟩ := IamStore.addGroupMember_spec hr
    cases r <;> simp only [accept,IamSvc.addGroupMember,hr,accept.accepted] at h <;> cases h
    exact .subjects (by simp) hsub hpol
  | createPolicy p =>
    rcases hr : IamStore.createPolicy svc.store c.firstUuid c.secondUuid p.subjectName
      p.subjectType p.resourcePattern p.action (effectText p.effect) (optionalText p.rowFilter)
      (optionalText p.columnMaskJson) p.priority with ⟨r,t⟩
    cases r with
    | error e => simp [accept,IamSvc.createPolicy,hr,accept.accepted] at h
    | ok id =>
      obtain ⟨rfl,s,hs,hname,horigin,hsub,hpol⟩ := IamStore.createPolicy_spec hr
      rcases hre : IamSvc.reloadEngine { svc with store := t } c.order with ⟨r,svc₁⟩
      have hstore := reloadEngine_store hre
      simp only [accept,IamSvc.createPolicy,hr,hre] at h
      cases r <;> simp only [accept.accepted] at h <;> cases h
      rw [hstore]
      exact .created hs hname horigin hsub hpol
  | deletePolicy policyId =>
    rcases hr : IamSvc.reloadEngine { svc with store := svc.store.deletePolicy policyId } c.order
      with ⟨r,svc₁⟩
    have hstore := reloadEngine_store hr
    simp only [accept,IamSvc.deletePolicy,IamStore.deletePolicy,hr] at h
    cases r <;> simp only [accept.accepted] at h <;> cases h
    exact .deleted hstore

/-- Policy identifiers are stored the way they are printed. -/
def Canonical (t : IamTables) : Prop := ∀ p ∈ t.policies, ∃ u : Uuid, p.id = u.toString

theorem canonical_seed : Canonical .seed := by
  intro p hp
  exact ⟨.ofByte 2,by rw [List.mem_singleton.mp hp]; decide⟩

theorem Effect.canonical {a : Call} {c : Choices} {t t' : IamTables} (h : Effect a c t t')
    (ht : Canonical t) : Canonical t' := by
  unfold Canonical
  cases h with
  | subjects _ _ hpolicies => rw [hpolicies]; exact ht
  | created _ _ _ _ hpolicies =>
    rw [hpolicies]
    exact forall_mem_concat ht ⟨c.secondUuid,rfl⟩
  | deleted hstore =>
    subst hstore
    exact fun p hp => ht p (List.mem_of_mem_filter hp)

/-- A row stays, and stays the row of its subject, until it is deleted. -/
theorem Effect.keeps {a : Call} {c : Choices} {t t' : IamTables} (h : Effect a c t t')
    {r : PolicyRow × SubjectRow} (hr : r ∈ t.joined) (ha : a ≠ .deletePolicy r.1.id) :
    r ∈ t'.joined := by
  obtain ⟨hp,hs,hid⟩ := mem_joined.mp hr
  cases h with
  | subjects _ hsubjects hpolicies => exact mem_joined.mpr ⟨hpolicies ▸ hp,hsubjects hs,hid⟩
  | created _ _ _ hsubjects hpolicies =>
    exact mem_joined.mpr ⟨hpolicies ▸ List.mem_append_left _ hp,hsubjects hs,hid⟩
  | deleted hstore =>
    subst hstore
    have hne : r.1.id ≠ _ := fun he => ha (he ▸ rfl)
    rw [joined_deletePolicy]
    exact List.mem_filter.mpr ⟨hr,by simpa using hne⟩

/-! ### Listing -/

theorem Canonical.readable {t : IamTables} (h : Canonical t) : t.Readable := fun p hp => by
  obtain ⟨u,hu⟩ := h p hp
  exact ⟨u,hu ▸ Uuid.parseStr_toString u⟩

theorem decodeRow_id {row : PolicyRow × SubjectRow} {p : Policy} {u : Uuid}
    (h : decodeRow row = .ok p) (hu : row.1.id = u.toString) : p.id.toString = row.1.id := by
  have hid := decodeRow_eq_ok h
  rw [hu,Uuid.parseStr_toString] at hid
  rw [hu,Option.some.inj hid]

theorem filter_decoded {rows : List (PolicyRow × SubjectRow)} {ps : List Policy}
    (h : List.Forall₂ (fun r p => decodeRow r = .ok p) rows ps)
    (hcanon : ∀ r ∈ rows, ∃ u : Uuid, r.1.id = u.toString) (id : String) :
    List.Forall₂ (fun r p => decodeRow r = .ok p) (rows.filter (·.1.id = id))
      (ps.filter (·.id.toString = id)) := by
  induction h with
  | nil => exact .nil
  | @cons r p rows ps hp _ ih =>
    obtain ⟨u,hu⟩ := hcanon r (by simp)
    have hid := decodeRow_id hp hu
    have ih := ih fun q hq => hcanon q (by simp [hq])
    by_cases he : r.1.id = id <;> simp [he,hid,ih,hp]

/-- A stored policy is listed exactly once, as what its row decodes to. -/
theorem listPolicies_filter {svc : IamSvc} (hcanon : Canonical svc.store) (order : QueryOrder)
    {r : PolicyRow × SubjectRow} (hr : r ∈ svc.store.joined) :
    ∃ protos p, svc.listPolicies order "" = .ok protos ∧ decodeRow r = .ok p ∧
      protos.filter (·.policyId = r.1.id) = [PolicyProto.ofPolicy p] := by
  have hmem : ∀ q ∈ order.rows svc.store, q ∈ svc.store.joined := fun q hq =>
    (order.answers svc.store).mem_iff.mp hq
  obtain ⟨ps,hps⟩ := hcanon.readable.decodeRows hmem
  have hrows : (order.rows svc.store).filter (·.1.id = r.1.id) = [r] := by
    have hperm := (order.answers svc.store).1.filter (·.1.id = r.1.id)
    rw [filter_joined hr] at hperm
    exact List.perm_singleton.mp hperm
  have hfilter := filter_decoded (decodeRows_eq_ok.mp hps)
    (fun q hq => hcanon q.1 (mem_joined.mp (hmem q hq)).1) r.1.id
  rw [hrows] at hfilter
  obtain ⟨p,qs,hp,hqs,hpq⟩ := List.forall₂_cons_left_iff.mp hfilter
  obtain rfl := List.forall₂_nil_left_iff.mp hqs
  refine ⟨ps.map PolicyProto.ofPolicy,p,?_,hp,?_⟩
  · simp [IamSvc.listPolicies,IamStore.listPolicies,optionalText,hps]
  · rw [List.filter_map]
    have hcomp : (fun q : PolicyProto => decide (q.policyId = r.1.id)) ∘ PolicyProto.ofPolicy =
        fun q => decide (q.id.toString = r.1.id) := rfl
    rw [hcomp,hpq]
    rfl

/-- What a policy reads back as from the row it was written to. -/
theorem ofPolicy_decodeRow {p : PolicyProto} {u : Uuid} {s : SubjectRow} {q : Policy}
    (hname : s.name = p.subjectName) (htype : s.subjectType ∈ ["user","group"])
    (h : decodeRow (⟨u.toString,s.id,p.resourcePattern,p.action,effectText p.effect,
      optionalText p.rowFilter,optionalText p.columnMaskJson,p.priority.toInt64⟩,s) = .ok q) :
    PolicyProto.ofPolicy q = { p with
      policyId := u.toString
      subjectType := s.subjectType
      effect := if p.effect = 1 then 1 else 0 } := by
  have htext (x : String) : (optionalText x).getD "" = x := by
    unfold optionalText
    split_ifs with hx <;> simp [hx]
  have hsubject : subjectTypeText (decodeSubjectType s.subjectType) = s.subjectType := by
    rcases List.mem_pair.mp htype with ht | ht <;> rw [ht] <;> rfl
  have heffect : effectNumber (decodeEffect (effectText p.effect)) =
      if p.effect = 1 then 1 else 0 := by
    unfold effectText
    split_ifs <;> rfl
  simp only [decodeRow,Uuid.parseStr_toString,Except.ok.injEq] at h
  subst h
  simp [PolicyProto.ofPolicy,htext,hsubject,heffect,hname]

/-! ### Runs -/

theorem run_canonical {svc svc' : IamSvc} {as : List (Call × Choices)}
    (h : Canonical svc.store) (hrun : run accept as svc = some svc') : Canonical svc'.store := by
  have hstep : ∀ (a : Call × Choices) (s s' : IamSvc), Canonical s.store → True →
      accept a s = some s' → Canonical s'.store := fun a s s' hs _ ha =>
    (accept_effect ha).canonical hs
  exact run_invariant hstep h (meets_of_forall (by simp) svc) hrun

theorem run_keeps {svc svc' : IamSvc} {as : List (Call × Choices)} {r : PolicyRow × SubjectRow}
    (hr : r ∈ svc.store.joined) (has : ∀ a ∈ as, a.1 ≠ .deletePolicy r.1.id)
    (hrun : run accept as svc = some svc') : r ∈ svc'.store.joined := by
  have hstep : ∀ (a : Call × Choices) (s s' : IamSvc), r ∈ s.store.joined →
      a.1 ≠ .deletePolicy r.1.id → accept a s = some s' → r ∈ s'.store.joined :=
    fun a s s' hs hok ha => (accept_effect ha).keeps hs hok
  exact run_invariant hstep hr (meets_of_forall (fun a ha _ => has a ha) svc) hrun

/-- The subject of a name, old or new, has a type exactly when all old subjects of the name do. -/
theorem subjectType_eq_iff {olds subjects : List SubjectRow} {s : SubjectRow}
    {name subjectType : String} (hnames : (subjects.map SubjectRow.name).Nodup)
    (hsub : olds ⊆ subjects) (hs : s ∈ subjects) (hname : s.name = name)
    (horigin : s ∈ olds ∨ s.subjectType = subjectType) : s.subjectType = subjectType ↔
      ∀ s' ∈ olds, s'.name = name → s'.subjectType = subjectType := by
  constructor
  · intro ht s' hs' hname'
    have heq := List.inj_on_of_nodup_map hnames (hsub hs') hs (hname'.trans hname.symm)
    rw [heq,ht]
  · intro hall
    rcases horigin with hold | hnew
    · exact hall s hold hname
    · exact hnew

/-- An accepted policy that is not deleted is listed as it was written exactly when its
subject's name was unused or had the requested type, and its effect is one of the two. -/
theorem reportedAsWritten_iff {svc₀ svc₁ svc : IamSvc} {pre post : List (Call × Choices)}
    {p : PolicyProto} {c : Choices} (hseed : svc₀.store = .seed)
    (hpre : run accept pre svc₀ = some svc₁)
    (hpost : run accept ((.createPolicy p,c) :: post) svc₁ = some svc)
    (hkept : ∀ a ∈ post, a.1 ≠ .deletePolicy c.secondUuid.toString) (order : QueryOrder) :
    ReportedAsWritten svc order c.secondUuid.toString p ↔
      (∀ s ∈ svc₁.store.subjects, s.name = p.subjectName → s.subjectType = p.subjectType) ∧
        (p.effect = 0 ∨ p.effect = 1) := by
  obtain ⟨svc₂,hcreate,hrest⟩ := run_cons.mp hpost
  have hcanon₁ := run_canonical (hseed ▸ canonical_seed) hpre
  have hcanon := run_canonical hcanon₁ hpost
  cases accept_effect hcreate with
  | subjects ha => exact absurd rfl (ha p)
  | @created _ _ _ _ s hs hname horigin hsub hpol =>
    have hjoined := mem_joined.mpr
      ⟨hpol ▸ List.mem_append_right _ (List.mem_singleton_self _),hs,rfl⟩
    obtain ⟨protos,q,hlist,hdecode,hfilter⟩ :=
      listPolicies_filter hcanon order (run_keeps hjoined hkept hrest)
    have hreads := ofPolicy_decodeRow hname (svc₂.store.subject_types s hs) hdecode
    rw [hreads] at hfilter
    have htype := subjectType_eq_iff svc₂.store.subject_names hsub hs hname
      (horigin.imp_right And.right)
    have heffect : (if p.effect = 1 then 1 else 0) = p.effect ↔ p.effect = 0 ∨ p.effect = 1 := by
      split_ifs with h1
      · simp [h1]
      · simp [h1,eq_comm]
    rw [← htype,← heffect]
    constructor
    · rintro ⟨protos',hlist',hfilter'⟩
      obtain rfl := Except.ok.inj (hlist.symm.trans hlist')
      have hp := List.singleton_inj.mp (hfilter.symm.trans hfilter')
      exact ⟨congrArg PolicyProto.subjectType hp,congrArg PolicyProto.effect hp⟩
    · rintro ⟨ht,he⟩
      refine ⟨protos,hlist,hfilter.trans ?_⟩
      rw [ht,he]

def migrated : IamSvc := ⟨.seed,⟨[]⟩⟩

def choices (first second : ℕ) : Choices := ⟨.ofByte first,.ofByte second,storageOrder⟩

def analystsDeny : PolicyProto :=
  ⟨"","analysts","group","finance.*","SELECT",1,"","",100⟩

theorem reportedAsWritten_group : ∃ svc, run accept
    [(.createSubject "group" "analysts",choices 3 4),(.createPolicy analystsDeny,choices 5 6),
      (.addGroupMember "analysts" "alice",choices 7 8)] migrated = some svc ∧
      ReportedAsWritten svc storageOrder (Uuid.ofByte 6).toString analystsDeny := by
  have hpre : (run accept [(.createSubject "group" "analysts",choices 3 4)] migrated).any
      (fun svc =>
        (svc.store.subjects.all fun s => s.name != "analysts" || s.subjectType == "group") &&
        (run accept [(.createPolicy analystsDeny,choices 5 6),
          (.addGroupMember "analysts" "alice",choices 7 8)] svc).isSome) = true := by decide
  obtain ⟨svc₁,hsvc₁,h⟩ := Option.any_eq_true _ _ |>.mp hpre
  simp only [Bool.and_eq_true,List.all_eq_true] at h
  obtain ⟨svc,hsvc⟩ := Option.isSome_iff_exists.mp h.2
  refine ⟨svc,run_append.mpr ⟨svc₁,hsvc₁,hsvc⟩,?_⟩
  refine (reportedAsWritten_iff rfl hsvc₁ hsvc (by simp) storageOrder).mpr ⟨?_,.inr rfl⟩
  intro s hs hname
  have hs := h.1 s hs
  rw [show s.name = "analysts" from hname] at hs
  exact show s.subjectType = "group" by simpa using hs

/-- A policy for the group `*`: the migrations have a user of that name. -/
def groupEveryone : PolicyProto := ⟨"","*","group","finance.*","SELECT",0,"","",10⟩

/-- It is accepted, and then listed as a policy for every user. -/
theorem group_reported_as_user :
    ¬ ∀ (svc₀ svc : IamSvc) (pre post : List (Call × Choices)) (p : PolicyProto) (c : Choices)
      (order : QueryOrder), svc₀.store = .seed →
      run accept (pre ++ (.createPolicy p,c) :: post) svc₀ = some svc →
      (∀ a ∈ post, a.1 ≠ .deletePolicy c.secondUuid.toString) →
      ReportedAsWritten svc order c.secondUuid.toString p := by
  intro hall
  have hrun : (run accept [(.createPolicy groupEveryone,choices 3 4)] migrated).any (fun svc =>
      (svc.listPolicies storageOrder "").toOption.any (fun protos =>
        protos.filter (·.policyId = (Uuid.ofByte 4).toString) !=
          [{ groupEveryone with policyId := (Uuid.ofByte 4).toString }])) = true := by decide
  obtain ⟨svc,hsvc,h⟩ := Option.any_eq_true _ _ |>.mp hrun
  obtain ⟨protos,hlist,hfilter⟩ :=
    hall migrated svc [] [] groupEveryone (choices 3 4) storageOrder rfl hsvc (by simp)
  rw [hlist] at h
  simp only [Except.toOption,Option.any_some,bne_iff_ne] at h
  exact h hfilter

end PolicyRoundTrip
end Elan
