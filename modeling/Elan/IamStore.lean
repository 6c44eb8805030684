import Elan.StableSort
import Elan.IamTypes
import Elan.Table

/-! The tables of subjects, group members and policies, the statements over them, and the
store operations made of these statements. -/
namespace Elan

open StableSort Table

structure SubjectRow where
  id : String
  subjectType : String
  name : String
  deriving DecidableEq

structure GroupMemberRow where
  groupId : String
  userId : String
  deriving DecidableEq

structure PolicyRow where
  id : String
  subjectId : String
  resourcePattern : String
  action : String
  effect : String
  rowFilter : Option String
  columnMaskJson : Option String
  priority : Int64
  deriving DecidableEq

/-- The rows of the three tables, which meet the constraints the tables declare. -/
structure IamTables where
  subjects : List SubjectRow
  groupMembers : List GroupMemberRow
  policies : List PolicyRow
  subject_ids : (subjects.map SubjectRow.id).Nodup
  subject_names : (subjects.map SubjectRow.name).Nodup
  subject_types : ∀ s ∈ subjects, s.subjectType ∈ ["user","group"]
  member_keys : groupMembers.Nodup
  member_groups : ∀ m ∈ groupMembers, m.groupId ∈ subjects.map SubjectRow.id
  member_users : ∀ m ∈ groupMembers, m.userId ∈ subjects.map SubjectRow.id
  policy_ids : (policies.map PolicyRow.id).Nodup
  policy_subjects : ∀ p ∈ policies, p.subjectId ∈ subjects.map SubjectRow.id
  policy_effects : ∀ p ∈ policies, p.effect ∈ ["Allow","Deny"]
  deriving DecidableEq

inductive StoreError
  | unique (column : String)
  | check (column : String)
  | foreignKey (column : String)
  | parse (column : String)
  deriving DecidableEq

namespace IamTables

def selectSubjectId (t : IamTables) (name : String) : Option String :=
  (t.subjects.find? (·.name = name)).map SubjectRow.id

def insertSubject (t : IamTables) (s : SubjectRow) : Except StoreError IamTables :=
  if htype : s.subjectType ∉ ["user","group"] then .error (.check "subject_type")
  else if hid : s.id ∈ t.subjects.map SubjectRow.id then .error (.unique "id")
  else if hname : s.name ∈ t.subjects.map SubjectRow.name then .error (.unique "name")
  else .ok { t with
    subjects := t.subjects ++ [s]
    subject_ids := nodup_map_concat _ t.subject_ids hid
    subject_names := nodup_map_concat _ t.subject_names hname
    subject_types := forall_mem_concat t.subject_types (not_not.mp htype)
    member_groups := fun m hm => mem_map_concat s (t.member_groups m hm)
    member_users := fun m hm => mem_map_concat s (t.member_users m hm)
    policy_subjects := fun p hp => mem_map_concat s (t.policy_subjects p hp) }

/-- `INSERT OR IGNORE`: a pair that is there already is left alone. -/
def insertMember (t : IamTables) (m : GroupMemberRow) : Except StoreError IamTables :=
  if hmem : m ∈ t.groupMembers then .ok t
  else if hgroup : m.groupId ∉ t.subjects.map SubjectRow.id then .error (.foreignKey "group_id")
  else if huser : m.userId ∉ t.subjects.map SubjectRow.id then .error (.foreignKey "user_id")
  else .ok { t with
    groupMembers := t.groupMembers ++ [m]
    member_keys := by
      simpa using nodup_map_concat id (by simpa using t.member_keys) (by simpa using hmem)
    member_groups := forall_mem_concat t.member_groups (not_not.mp hgroup)
    member_users := forall_mem_concat t.member_users (not_not.mp huser) }

def insertPolicy (t : IamTables) (p : PolicyRow) : Except StoreError IamTables :=
  if heffect : p.effect ∉ ["Allow","Deny"] then .error (.check "effect")
  else if hid : p.id ∈ t.policies.map PolicyRow.id then .error (.unique "id")
  else if hsubject : p.subjectId ∉ t.subjects.map SubjectRow.id then
    .error (.foreignKey "subject_id")
  else .ok { t with
    policies := t.policies ++ [p]
    policy_ids := nodup_map_concat _ t.policy_ids hid
    policy_subjects := forall_mem_concat t.policy_subjects (not_not.mp hsubject)
    policy_effects := forall_mem_concat t.policy_effects (not_not.mp heffect) }

def deletePolicy (t : IamTables) (policyId : String) : IamTables :=
  { t with
    policies := t.policies.filter (·.id ≠ policyId)
    policy_ids := t.policy_ids.sublist (List.filter_sublist.map _)
    policy_subjects := fun p hp => t.policy_subjects p (List.mem_of_mem_filter hp)
    policy_effects := fun p hp => t.policy_effects p (List.mem_of_mem_filter hp) }

/-- `iam_policies JOIN iam_subjects`. -/
def joined (t : IamTables) : List (PolicyRow × SubjectRow) :=
  t.policies.flatMap fun p => (t.subjects.filter (·.id = p.subjectId)).map (p,·)

theorem mem_joined {t : IamTables} {p : PolicyRow} {s : SubjectRow} :
    (p,s) ∈ t.joined ↔ p ∈ t.policies ∧ s ∈ t.subjects ∧ s.id = p.subjectId := by
  simp [joined]

theorem insertSubject_eq_ok {t t' : IamTables} {s : SubjectRow}
    (h : t.insertSubject s = .ok t') :
    s.subjectType ∈ ["user","group"] ∧ s.id ∉ t.subjects.map SubjectRow.id ∧
      s.name ∉ t.subjects.map SubjectRow.name ∧
      t'.subjects = t.subjects ++ [s] ∧ t'.policies = t.policies := by
  unfold insertSubject at h
  split_ifs at h with htype hid hname
  cases h
  exact ⟨htype,hid,hname,rfl,rfl⟩

theorem insertMember_eq_ok {t t' : IamTables} {m : GroupMemberRow}
    (h : t.insertMember m = .ok t') : t'.subjects = t.subjects ∧ t'.policies = t.policies := by
  unfold insertMember at h
  split_ifs at h <;> cases h <;> exact ⟨rfl,rfl⟩

theorem insertPolicy_eq_ok {t t' : IamTables} {p : PolicyRow}
    (h : t.insertPolicy p = .ok t') :
    p.id ∉ t.policies.map PolicyRow.id ∧ p.subjectId ∈ t.subjects.map SubjectRow.id ∧
      t'.subjects = t.subjects ∧ t'.policies = t.policies ++ [p] := by
  unfold insertPolicy at h
  split_ifs at h with heffect hid hsubject
  cases h
  exact ⟨hid,hsubject,rfl,rfl⟩

theorem exists_insertSubject {t : IamTables} {r : SubjectRow}
    (htype : r.subjectType ∈ ["user","group"]) (hname : r.name ∉ t.subjects.map SubjectRow.name)
    (hid : r.id ∉ t.subjects.map SubjectRow.id) :
    ∃ t', t.insertSubject r = .ok t' := by
  unfold insertSubject
  rw [dif_neg (not_not.mpr htype),dif_neg hid,dif_neg hname]
  exact ⟨_,rfl⟩

theorem exists_insertPolicy {t : IamTables} {row : PolicyRow}
    (heffect : row.effect ∈ ["Allow","Deny"]) (hid : row.id ∉ t.policies.map PolicyRow.id)
    (hsubject : row.subjectId ∈ t.subjects.map SubjectRow.id) :
    ∃ t', t.insertPolicy row = .ok t' := by
  unfold insertPolicy
  rw [dif_neg (not_not.mpr heffect),dif_neg hid,dif_neg (not_not.mpr hsubject)]
  exact ⟨_,rfl⟩

theorem joined_insertSubject {t t' : IamTables} {s : SubjectRow}
    (h : t.insertSubject s = .ok t') : t'.joined = t.joined := by
  obtain ⟨-,hid,-,hsubjects,hpolicies⟩ := insertSubject_eq_ok h
  unfold joined
  rw [hsubjects,hpolicies]
  refine List.flatMap_congr fun p hp => ?_
  have hne : s.id ≠ p.subjectId := fun he => hid (he ▸ t.policy_subjects p hp)
  simp [List.filter_append,hne]

/-- The subject of a policy is one row. -/
theorem filter_subjects {t : IamTables} {s : SubjectRow} (hs : s ∈ t.subjects) :
    t.subjects.filter (·.id = s.id) = [s] :=
  filter_key_eq SubjectRow.id t.subject_ids hs

/-- Each policy has exactly one row in the join. -/
theorem joined_policies (t : IamTables) : t.joined.map Prod.fst = t.policies := by
  have hone : ∀ p ∈ t.policies,
      ((t.subjects.filter (·.id = p.subjectId)).map (p,·)).map Prod.fst = [p] := fun p hp => by
    obtain ⟨s,hs,hid⟩ := List.mem_map.mp (t.policy_subjects p hp)
    rw [← hid,filter_subjects hs]
    rfl
  unfold joined
  rw [List.map_flatMap,List.flatMap_congr hone,List.flatMap_singleton']

theorem filter_joined {t : IamTables} {r : PolicyRow × SubjectRow} (hr : r ∈ t.joined) :
    t.joined.filter (·.1.id = r.1.id) = [r] := by
  refine filter_key_eq (fun r => r.1.id) ?_ hr
  have hids := t.policy_ids
  rwa [← joined_policies,List.map_map] at hids

theorem joined_deletePolicy (t : IamTables) (policyId : String) :
    (t.deletePolicy policyId).joined = t.joined.filter (·.1.id ≠ policyId) := by
  have hrow (p : PolicyRow) (ss : List SubjectRow) :
      (ss.map (p,·)).filter (·.1.id ≠ policyId) = if p.id = policyId then [] else ss.map (p,·) := by
    split_ifs with hp
    · simp [hp]
    · exact List.filter_eq_self.mpr (by simp [hp])
  simp only [joined,deletePolicy,List.filter_flatMap,hrow]
  induction t.policies with
  | nil => rfl
  | cons p ps ih => by_cases hp : p.id = policyId <;> simpa [hp] using ih

theorem selectSubjectId_eq_some {t : IamTables} {name id : String} :
    t.selectSubjectId name = some id ↔ ∃ s ∈ t.subjects, s.name = name ∧ s.id = id := by
  unfold selectSubjectId
  constructor
  · intro h
    obtain ⟨s,hs,rfl⟩ := Option.map_eq_some_iff.mp h
    exact ⟨s,List.mem_of_find?_eq_some hs,by simpa using List.find?_some hs,rfl⟩
  · rintro ⟨s,hs,rfl,rfl⟩
    cases hf : t.subjects.find? (·.name = s.name) with
    | none => exact absurd (List.find?_eq_none.mp hf s hs) (by simp)
    | some r =>
      have hname : r.name = s.name := by simpa using List.find?_some hf
      have hr := List.inj_on_of_nodup_map t.subject_names (List.mem_of_find?_eq_some hf) hs hname
      rw [hr]
      rfl

theorem selectSubjectId_eq_none {t : IamTables} {name : String} :
    t.selectSubjectId name = none ↔ name ∉ t.subjects.map SubjectRow.name := by
  rw [Option.eq_none_iff_forall_ne_some,List.mem_map]
  constructor
  · rintro h ⟨s,hs,hname⟩
    exact h s.id (selectSubjectId_eq_some.mpr ⟨s,hs,hname,rfl⟩)
  · intro h id hid
    obtain ⟨s,hs,hname,-⟩ := selectSubjectId_eq_some.mp hid
    exact h ⟨s,hs,hname⟩

end IamTables

/-- `ORDER BY priority DESC`. -/
def ByPriority (a b : PolicyRow × SubjectRow) : Prop := b.1.priority ≤ a.1.priority

instance : DecidableRel ByPriority := fun a b =>
  inferInstanceAs (Decidable (b.1.priority ≤ a.1.priority))

def decodeSubjectType : String → SubjectType
  | "group" => .group
  | _ => .user

def decodeEffect : String → PolicyEffect
  | "Deny" => .deny
  | _ => .allow

def decodeRow (row : PolicyRow × SubjectRow) : Except StoreError Policy :=
  match Uuid.parseStr row.1.id with
  | none => .error (.parse "id")
  | some id => .ok
    { id := id
      subjectName := row.2.name
      subjectType := decodeSubjectType row.2.subjectType
      resourcePattern := row.1.resourcePattern
      action := row.1.action
      effect := decodeEffect row.1.effect
      rowFilter := row.1.rowFilter
      columnMaskJson := row.1.columnMaskJson
      priority := row.1.priority.toInt32 }

def decodeRows (rows : List (PolicyRow × SubjectRow)) : Except StoreError (List Policy) :=
  rows.mapM decodeRow

theorem decodeRow_eq_ok {row : PolicyRow × SubjectRow} {p : Policy} (h : decodeRow row = .ok p) :
    Uuid.parseStr row.1.id = some p.id := by
  unfold decodeRow at h
  cases hid : Uuid.parseStr row.1.id <;> rw [hid] at h <;> cases h
  rfl

theorem decodeRows_eq_ok {rows : List (PolicyRow × SubjectRow)} {ps : List Policy} :
    decodeRows rows = .ok ps ↔ List.Forall₂ (fun r p => decodeRow r = .ok p) rows ps :=
  mapM_eq_ok

theorem exists_decodeRow {rows : List (PolicyRow × SubjectRow)} {ps : List Policy}
    (h : decodeRows rows = .ok ps) {r : PolicyRow × SubjectRow} (hr : r ∈ rows) :
    ∃ p ∈ ps, decodeRow r = .ok p :=
  exists_of_mapM h hr

/-- Rows decode in any order, to the same policies in that order. -/
theorem decodeRows_perm {rows rows' : List (PolicyRow × SubjectRow)} {ps : List Policy}
    (hperm : rows.Perm rows') (h : decodeRows rows = .ok ps) :
    ∃ ps', decodeRows rows' = .ok ps' ∧ ps.Perm ps' := by
  obtain ⟨ps',hps',hp⟩ := List.perm_comp_forall₂ hperm.symm (decodeRows_eq_ok.mp h)
  exact ⟨ps',decodeRows_eq_ok.mpr hps',hp.symm⟩

/-- The rows of the policy query, in some order that its ordering clause allows. -/
def IamTables.Answers (t : IamTables) (rows : List (PolicyRow × SubjectRow)) : Prop :=
  OrderedBy ByPriority t.joined rows

/-- How the database orders the rows of the policy query that tie. -/
structure QueryOrder where
  rows : IamTables → List (PolicyRow × SubjectRow)
  answers (t : IamTables) : t.Answers (rows t)

instance : Std.Total ByPriority := ⟨fun a b => Int64.le_total b.1.priority a.1.priority⟩

instance : IsTrans (PolicyRow × SubjectRow) ByPriority :=
  ⟨fun _ _ _ hab hbc => Int64.le_trans hbc hab⟩

/-- Rows that tie come in the order they were inserted in. -/
def storageOrder : QueryOrder :=
  ⟨fun t => t.joined.insertionSort ByPriority,fun _ => orderedBy_insertionSort _ _⟩

/-- The rows the migrations insert: everyone may select everything. -/
def IamTables.seed : IamTables where
  subjects := [⟨"00000000-0000-0000-0000-000000000001","user","*"⟩]
  groupMembers := []
  policies := [⟨"00000000-0000-0000-0000-000000000002","00000000-0000-0000-0000-000000000001",
    "*","SELECT","Allow",none,none,0⟩]
  subject_ids := by decide
  subject_names := by decide
  subject_types := by decide
  member_keys := by decide
  member_groups := by decide
  member_users := by decide
  policy_ids := by decide
  policy_subjects := by decide
  policy_effects := by decide

def IamTables.Readable (t : IamTables) : Prop :=
  ∀ p ∈ t.policies, ∃ id, Uuid.parseStr p.id = some id

theorem IamTables.Readable.decodeRows {t : IamTables} (h : t.Readable)
    {rows : List (PolicyRow × SubjectRow)} (hrows : ∀ r ∈ rows, r ∈ t.joined) :
    ∃ ps, Elan.decodeRows rows = .ok ps := by
  apply exists_mapM
  intro r hr
  obtain ⟨id,hid⟩ := h r.1 (mem_joined.mp (hrows r hr)).1
  exact ⟨_,by rw [decodeRow,hid]⟩

namespace IamStore

open IamTables

def createSubject (t : IamTables) (uuid : Uuid) (subjectType name : String) :
    Except StoreError String × IamTables :=
  match t.insertSubject ⟨uuid.toString,subjectType,name⟩ with
  | .error e => (.error e,t)
  | .ok t => (.ok uuid.toString,t)

/-- A subject is looked up by its name alone. -/
def getOrCreateSubject (t : IamTables) (uuid : Uuid) (subjectType name : String) :
    Except StoreError String × IamTables :=
  match t.selectSubjectId name with
  | some id => (.ok id,t)
  | none => createSubject t uuid subjectType name

/-- The tables only grow, and the identifier is that of the subject of the name: the one
that was there, or a new one of the given type. -/
theorem getOrCreateSubject_spec {t t' : IamTables} {uuid : Uuid} {subjectType name : String}
    {r : Except StoreError String} (h : getOrCreateSubject t uuid subjectType name = (r,t')) :
    t.subjects ⊆ t'.subjects ∧ t'.policies = t.policies ∧
      ∀ id, r = .ok id → ∃ s ∈ t'.subjects, s.id = id ∧ s.name = name ∧
        (s ∈ t.subjects ∨ name ∉ t.subjects.map SubjectRow.name ∧ s.subjectType = subjectType) := by
  unfold getOrCreateSubject at h
  cases hid : t.selectSubjectId name with
  | some id =>
    simp only [hid,Prod.mk.injEq] at h
    obtain ⟨rfl,rfl⟩ := h
    obtain ⟨s,hs,hname,rfl⟩ := selectSubjectId_eq_some.mp hid
    refine ⟨List.Subset.refl _,rfl,fun id' hid' => ⟨s,hs,?_,hname,.inl hs⟩⟩
    exact Except.ok.inj hid'
  | none =>
    simp only [hid,createSubject] at h
    cases hins : t.insertSubject ⟨uuid.toString,subjectType,name⟩ with
    | error e =>
      simp only [hins,Prod.mk.injEq] at h
      obtain ⟨rfl,rfl⟩ := h
      exact ⟨List.Subset.refl _,rfl,by simp⟩
    | ok t₁ =>
      simp only [hins,Prod.mk.injEq] at h
      obtain ⟨rfl,rfl⟩ := h
      obtain ⟨-,-,hname,hsubjects,hpolicies⟩ := insertSubject_eq_ok hins
      rw [hsubjects]
      refine ⟨List.subset_append_left _ _,hpolicies,fun id hid => ?_⟩
      refine ⟨⟨uuid.toString,subjectType,name⟩,by simp,?_,rfl,.inr ⟨hname,rfl⟩⟩
      exact Except.ok.inj hid

/-- There is no transaction: what was created before a refused statement stays. -/
def addGroupMember (t : IamTables) (groupUuid userUuid : Uuid) (groupName userName : String) :
    Except StoreError Unit × IamTables :=
  match getOrCreateSubject t groupUuid "group" groupName with
  | (.error e,t) => (.error e,t)
  | (.ok groupId,t) =>
    match getOrCreateSubject t userUuid "user" userName with
    | (.error e,t) => (.error e,t)
    | (.ok userId,t) =>
      match t.insertMember ⟨groupId,userId⟩ with
      | .error e => (.error e,t)
      | .ok t => (.ok (),t)

def createPolicy (t : IamTables) (subjectUuid policyUuid : Uuid)
    (subjectName subjectType resourcePattern action effect : String)
    (rowFilter columnMaskJson : Option String) (priority : Int32) :
    Except StoreError String × IamTables :=
  match getOrCreateSubject t subjectUuid subjectType subjectName with
  | (.error e,t) => (.error e,t)
  | (.ok subjectId,t) =>
    match t.insertPolicy ⟨policyUuid.toString,subjectId,resourcePattern,action,effect,rowFilter,
      columnMaskJson,priority.toInt64⟩ with
    | .error e => (.error e,t)
    | .ok t => (.ok policyUuid.toString,t)

theorem addGroupMember_spec {t t' : IamTables} {groupUuid userUuid : Uuid}
    {groupName userName : String} {r : Except StoreError Unit}
    (h : addGroupMember t groupUuid userUuid groupName userName = (r,t')) :
    t.subjects ⊆ t'.subjects ∧ t'.policies = t.policies := by
  unfold addGroupMember at h
  rcases hgroup : getOrCreateSubject t groupUuid "group" groupName with ⟨r₁,t₁⟩
  obtain ⟨hsub₁,hpol₁,-⟩ := getOrCreateSubject_spec hgroup
  rw [hgroup] at h
  cases r₁ with
  | error e => cases h; exact ⟨hsub₁,hpol₁⟩
  | ok groupId =>
    rcases huser : getOrCreateSubject t₁ userUuid "user" userName with ⟨r₂,t₂⟩
    obtain ⟨hsub₂,hpol₂,-⟩ := getOrCreateSubject_spec huser
    simp only [huser] at h
    have hsub := List.Subset.trans hsub₁ hsub₂
    have hpol := hpol₂.trans hpol₁
    cases r₂ with
    | error e => cases h; exact ⟨hsub,hpol⟩
    | ok userId =>
      cases hins : t₂.insertMember ⟨groupId,userId⟩ with
      | error e => simp only [hins] at h; cases h; exact ⟨hsub,hpol⟩
      | ok t₃ =>
        simp only [hins] at h
        cases h
        obtain ⟨hs,hp⟩ := insertMember_eq_ok hins
        exact ⟨hs ▸ hsub,hp.trans hpol⟩

theorem createPolicy_spec {t t' : IamTables} {subjectUuid policyUuid : Uuid}
    {subjectName subjectType resourcePattern action effect : String}
    {rowFilter columnMaskJson : Option String} {priority : Int32} {id : String}
    (h : createPolicy t subjectUuid policyUuid subjectName subjectType resourcePattern action
      effect rowFilter columnMaskJson priority = (.ok id,t')) :
    id = policyUuid.toString ∧ ∃ s ∈ t'.subjects, s.name = subjectName ∧
      (s ∈ t.subjects ∨ subjectName ∉ t.subjects.map SubjectRow.name ∧
        s.subjectType = subjectType) ∧
      t.subjects ⊆ t'.subjects ∧ t'.policies = t.policies ++ [⟨id,s.id,resourcePattern,action,
        effect,rowFilter,columnMaskJson,priority.toInt64⟩] := by
  unfold createPolicy at h
  rcases hsubject : getOrCreateSubject t subjectUuid subjectType subjectName with ⟨r₁,t₁⟩
  obtain ⟨hsub,hpol,hfound⟩ := getOrCreateSubject_spec hsubject
  rw [hsubject] at h
  cases r₁ with
  | error e => cases h
  | ok subjectId =>
    obtain ⟨s,hs,rfl,hname,horigin⟩ := hfound subjectId rfl
    simp only at h
    split at h
    · cases h
    · rename_i t₂ hins
      cases h
      obtain ⟨-,-,hs₂,hp₂⟩ := insertPolicy_eq_ok hins
      exact ⟨rfl,s,hs₂ ▸ hs,hname,horigin,hs₂ ▸ hsub,by rw [hp₂,hpol]⟩

def deletePolicy (t : IamTables) (policyId : String) : IamTables := t.deletePolicy policyId

def listPolicies (order : QueryOrder) (t : IamTables) (subjectName : Option String) :
    Except StoreError (List Policy) :=
  decodeRows ((order.rows t).filter fun r => (subjectName.map (decide <| r.2.name = ·)).getD true)

end IamStore
end Elan
