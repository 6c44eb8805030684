import Elan.IamEngine

/-! Reference semantics of a decision.
A request is denied by a matching Deny policy, or for want of any matching policy;
otherwise the Allow policy of greatest priority, the first of its rank, sets the
terms of the grant. The engine computes this relation, and the terms are the one
part of it that can depend on the order of the snapshot. -/
namespace Elan

section
variable (policies : List Policy) (s : Subject) (r : ResourceId) (action : String)

/-- The first of the matching policies of one effect that have the greatest priority. -/
def Winner (effect : PolicyEffect) (p : Policy) : Prop :=
  ∃ pre post, policies = pre ++ p :: post ∧ Matches p s r action ∧ p.effect = effect ∧
    (∀ q ∈ pre, Matches q s r action → q.effect = effect → q.priority < p.priority) ∧
    ∀ q ∈ post, Matches q s r action → q.effect = effect → q.priority ≤ p.priority

def Denied : Prop := ∃ p ∈ policies, Matches p s r action ∧ p.effect = .deny

def Unmatched : Prop := ∀ p ∈ policies, ¬ Matches p s r action

/-- What a request may be answered, read off the policies without sorting them. -/
def Reference [SerdeJson] : AccessDecision → Prop
  | .deny reason =>
    (∃ p, Winner policies s r action .deny p ∧ reason = denyReason p r) ∨
      Unmatched policies s r action ∧ reason = noPolicyReason s r
  | .allow rowFilter columnMask =>
    ¬ Denied policies s r action ∧
      ∃ p, Winner policies s r action .allow p ∧ rowFilter = p.rowFilter ∧
        columnMask = p.columnMask

end

variable {policies policies' : List Policy} {s : Subject} {r : ResourceId} {action : String}

theorem Winner.mem {effect : PolicyEffect} {p : Policy}
    (h : Winner policies s r action effect p) : p ∈ policies := by
  obtain ⟨pre,post,rfl,-⟩ := h
  simp

theorem Winner.matches_request {effect : PolicyEffect} {p : Policy}
    (h : Winner policies s r action effect p) : Matches p s r action := by
  obtain ⟨pre,post,-,hm,-⟩ := h
  exact hm

theorem Winner.effect_eq {effect : PolicyEffect} {p : Policy}
    (h : Winner policies s r action effect p) : p.effect = effect := by
  obtain ⟨pre,post,-,-,he,-⟩ := h
  exact he

theorem Winner.maximal {effect : PolicyEffect} {p : Policy}
    (h : Winner policies s r action effect p) :
    ∀ q ∈ policies, Matches q s r action → q.effect = effect → q.priority ≤ p.priority := by
  obtain ⟨pre,post,rfl,hm,he,hpre,hpost⟩ := h
  intro q hq hqm hqe
  rcases List.mem_append.mp hq with hq | hq
  · exact Int32.le_of_lt (hpre q hq hqm hqe)
  · rcases List.mem_cons.mp hq with rfl | hq
    · exact Int32.le_refl _
    · exact hpost q hq hqm hqe

theorem not_sortsBefore_of_effect {p q : Policy} (he : q.effect = p.effect) :
    ¬ SortsBefore q p ↔ q.priority < p.priority := by
  rw [sortsBefore_iff,he]
  simp [Int32.not_le]

theorem sortsBefore_of_effect {p q : Policy} (he : q.effect = p.effect) :
    SortsBefore p q ↔ q.priority ≤ p.priority := by
  rw [sortsBefore_iff,he]
  simp

theorem deny_sortsBefore_allow {p q : Policy} (hp : p.effect = .deny) (hq : q.effect = .allow) :
    SortsBefore p q ∧ ¬ SortsBefore q p := by
  simp [sortsBefore_iff,hp,hq,effectOrd]

/-- The engine's first policy wins its effect, and an Allow only wins undenied. -/
theorem matching_head_iff (e : SnapshotIamEngine) (p : Policy) :
    (e.matching s r action).head? = some p ↔
      Winner e.policies s r action p.effect p ∧
        (p.effect = .allow → ¬ Denied e.policies s r action) := by
  rw [SnapshotIamEngine.matching,StableSort.head_iff,StableSort.firstLeast_filter]
  simp only [matchesRequest_iff]
  constructor
  · rintro ⟨pre,post,hps,hm,hpre,hpost⟩
    refine ⟨⟨pre,post,hps,hm,rfl,?_,?_⟩,?_⟩
    · intro q hq hqm hqe
      exact (not_sortsBefore_of_effect hqe).mp (hpre q hq hqm)
    · intro q hq hqm hqe
      exact (sortsBefore_of_effect hqe).mp (hpost q hq hqm)
    · rintro hallow ⟨q,hq,hqm,hdeny⟩
      have hlt := deny_sortsBefore_allow hdeny hallow
      rw [hps] at hq
      rcases List.mem_append.mp hq with hq | hq
      · exact hpre q hq hqm hlt.1
      · rcases List.mem_cons.mp hq with rfl | hq
        · simp [hallow] at hdeny
        · exact hlt.2 (hpost q hq hqm)
  · rintro ⟨⟨pre,post,hps,hm,-,hpre,hpost⟩,hden⟩
    -- a matching policy of the other effect is an Allow behind a Deny
    have hother : ∀ q ∈ e.policies, Matches q s r action → q.effect ≠ p.effect →
        SortsBefore p q ∧ ¬ SortsBefore q p := by
      intro q hq hqm hne
      cases hp : p.effect with
      | deny => cases hqe : q.effect with
        | deny => simp [hp,hqe] at hne
        | allow => exact deny_sortsBefore_allow hp hqe
      | allow => cases hqe : q.effect with
        | deny => exact absurd ⟨q,hq,hqm,hqe⟩ (hden hp)
        | allow => simp [hp,hqe] at hne
    refine ⟨pre,post,hps,hm,?_,?_⟩
    · intro q hq hqm
      by_cases hqe : q.effect = p.effect
      · exact (not_sortsBefore_of_effect hqe).mpr (hpre q hq hqm hqe)
      · exact (hother q (by simp [hps,hq]) hqm hqe).2
    · intro q hq hqm
      by_cases hqe : q.effect = p.effect
      · exact (sortsBefore_of_effect hqe).mpr (hpost q hq hqm hqe)
      · exact (hother q (by simp [hps,hq]) hqm hqe).1

theorem matching_head_none_iff (e : SnapshotIamEngine) :
    (e.matching s r action).head? = none ↔ Unmatched e.policies s r action := by
  rw [SnapshotIamEngine.matching,StableSort.head_none_iff,List.filter_eq_nil_iff]
  simp only [matchesRequest_iff,Unmatched]

/-- The engine answers every request, with exactly what the reference allows. -/
theorem check_eq_iff [SerdeJson] (e : SnapshotIamEngine) (d : AccessDecision) :
    e.check s r action = d ↔ Reference e.policies s r action d := by
  have hsound : Reference e.policies s r action (e.check s r action) := by
    unfold SnapshotIamEngine.check
    cases hh : (e.matching s r action).head? with
    | none => exact Or.inr ⟨(matching_head_none_iff e).mp hh,rfl⟩
    | some p =>
      obtain ⟨hwin,hden⟩ := (matching_head_iff e p).mp hh
      cases he : p.effect with
      | deny => simp only [he]; exact Or.inl ⟨p,he ▸ hwin,rfl⟩
      | allow => simp only [he]; exact ⟨hden he,p,he ▸ hwin,rfl,rfl⟩
  refine ⟨fun h => h ▸ hsound,fun h => ?_⟩
  cases d with
  | deny reason =>
    rcases h with ⟨p,hwin,rfl⟩ | ⟨hnone,rfl⟩
    · have he := hwin.effect_eq
      have hh := (matching_head_iff e p).mpr ⟨he ▸ hwin,by simp [he]⟩
      simp [SnapshotIamEngine.check,hh,he]
    · simp [SnapshotIamEngine.check,(matching_head_none_iff e).mpr hnone]
  | allow rf cm =>
    obtain ⟨hden,p,hwin,rfl,rfl⟩ := h
    have he := hwin.effect_eq
    have hh := (matching_head_iff e p).mpr ⟨he ▸ hwin,fun _ => hden⟩
    simp [SnapshotIamEngine.check,hh,he]

theorem check_isAllowed_iff [SerdeJson] (e : SnapshotIamEngine) :
    (e.check s r action).isAllowed = true ↔
      ¬ Denied e.policies s r action ∧ ¬ Unmatched e.policies s r action := by
  have href : Reference e.policies s r action (e.check s r action) := (check_eq_iff e _).mp rfl
  cases hd : e.check s r action with
  | deny reason =>
    rw [hd] at href
    simp only [AccessDecision.isAllowed,Bool.false_eq_true,false_iff,not_and,not_not]
    rcases href with ⟨p,hwin,-⟩ | ⟨hnone,-⟩
    · exact fun hden => absurd ⟨p,hwin.mem,hwin.matches_request,hwin.effect_eq⟩ hden
    · exact fun _ => hnone
  | allow rf cm =>
    rw [hd] at href
    obtain ⟨hden,p,hwin,-⟩ := href
    simp only [AccessDecision.isAllowed,true_iff]
    exact ⟨hden,fun hnone => hnone p hwin.mem hwin.matches_request⟩

theorem exists_winner_deny (h : Denied policies s r action) :
    ∃ p, Winner policies s r action .deny p := by
  obtain ⟨q,hq,hqm,hqe⟩ := h
  cases hh : (SnapshotIamEngine.matching ⟨policies⟩ s r action).head? with
  | none => exact absurd hqm ((matching_head_none_iff ⟨policies⟩).mp hh q hq)
  | some p =>
    obtain ⟨hwin,hden⟩ := (matching_head_iff ⟨policies⟩ p).mp hh
    cases he : p.effect with
    | deny => exact ⟨p,he ▸ hwin⟩
    | allow => exact absurd ⟨q,hq,hqm,hqe⟩ (hden he)

/-- The engine's answer in full: when it denies, which Allow policy sets the terms of
a grant, and which policy a denial names. -/
theorem check_reference [SerdeJson] (e : SnapshotIamEngine) (s : Subject) (r : ResourceId)
    (action : String) :
    ((e.check s r action).isAllowed = false ↔
      Denied e.policies s r action ∨ Unmatched e.policies s r action) ∧
    (∀ rf cm, e.check s r action = .allow rf cm ↔
      ¬ Denied e.policies s r action ∧
        ∃ p, Winner e.policies s r action .allow p ∧ rf = p.rowFilter ∧ cm = p.columnMask) ∧
    (Denied e.policies s r action → ∃ p ∈ e.policies, Matches p s r action ∧ p.effect = .deny ∧
      (∀ q ∈ e.policies, Matches q s r action → q.effect = .deny → q.priority ≤ p.priority) ∧
      e.check s r action = .deny (denyReason p r)) ∧
    (Unmatched e.policies s r action → e.check s r action = .deny (noPolicyReason s r)) := by
  refine ⟨?_,fun rf cm => check_eq_iff e (.allow rf cm),?_,?_⟩
  · rw [← Bool.not_eq_true,check_isAllowed_iff]
    tauto
  · intro hden
    obtain ⟨p,hwin⟩ := exists_winner_deny hden
    exact ⟨p,hwin.mem,hwin.matches_request,hwin.effect_eq,hwin.maximal,
      (check_eq_iff e _).mpr (Or.inl ⟨p,hwin,rfl⟩)⟩
  · exact fun hnone => (check_eq_iff e _).mpr (Or.inr ⟨hnone,rfl⟩)

/-! The order of the snapshot. -/

/-- The terms of a grant; a denial has none. -/
def AccessDecision.grant : AccessDecision → Option (Option String × Option ColumnMask)
  | .allow rowFilter columnMask => some (rowFilter,columnMask)
  | .deny _ => none

/-- The matching Allow policies of greatest priority, wherever they stand. -/
def TopAllow (policies : List Policy) (s : Subject) (r : ResourceId) (action : String)
    (p : Policy) : Prop :=
  p ∈ policies ∧ Matches p s r action ∧ p.effect = .allow ∧
    ∀ q ∈ policies, Matches q s r action → q.effect = .allow → q.priority ≤ p.priority

/-- All the matching Allow policies of greatest priority set the same terms. -/
def TopAgree [SerdeJson] (policies : List Policy) (s : Subject) (r : ResourceId)
    (action : String) : Prop :=
  ∀ p q, TopAllow policies s r action p → TopAllow policies s r action q →
    p.rowFilter = q.rowFilter ∧ p.columnMask = q.columnMask

theorem Denied.perm (h : policies.Perm policies') (hd : Denied policies s r action) :
    Denied policies' s r action := by
  obtain ⟨p,hp,hpm⟩ := hd
  exact ⟨p,h.mem_iff.mp hp,hpm⟩

theorem Unmatched.perm (h : policies.Perm policies') (hu : Unmatched policies s r action) :
    Unmatched policies' s r action :=
  fun p hp => hu p (h.mem_iff.mpr hp)

theorem TopAllow.perm (h : policies.Perm policies') {p : Policy}
    (hp : TopAllow policies s r action p) : TopAllow policies' s r action p :=
  ⟨h.mem_iff.mp hp.1,hp.2.1,hp.2.2.1,fun q hq => hp.2.2.2 q (h.mem_iff.mpr hq)⟩

theorem Winner.topAllow {p : Policy} (h : Winner policies s r action .allow p) :
    TopAllow policies s r action p :=
  ⟨h.mem,h.matches_request,h.effect_eq,h.maximal⟩

theorem isAllowed_perm [SerdeJson] (h : policies.Perm policies') :
    (SnapshotIamEngine.check ⟨policies⟩ s r action).isAllowed =
      (SnapshotIamEngine.check ⟨policies'⟩ s r action).isAllowed := by
  rw [Bool.eq_iff_iff,check_isAllowed_iff,check_isAllowed_iff]
  refine and_congr (not_congr ⟨Denied.perm h,Denied.perm h.symm⟩)
    (not_congr ⟨Unmatched.perm h,Unmatched.perm h.symm⟩)

theorem TopAgree.grant_eq [SerdeJson] (hagree : TopAgree policies s r action)
    (h : policies.Perm policies') :
    (SnapshotIamEngine.check ⟨policies⟩ s r action).grant =
      (SnapshotIamEngine.check ⟨policies'⟩ s r action).grant := by
  have hallowed : (SnapshotIamEngine.check ⟨policies⟩ s r action).isAllowed =
      (SnapshotIamEngine.check ⟨policies'⟩ s r action).isAllowed := isAllowed_perm h
  cases hd : SnapshotIamEngine.check ⟨policies⟩ s r action with
  | deny reason =>
    rw [hd] at hallowed
    cases hd' : SnapshotIamEngine.check ⟨policies'⟩ s r action with
    | deny reason' => rfl
    | allow rf cm => simp [hd',AccessDecision.isAllowed] at hallowed
  | allow rf cm =>
    rw [hd] at hallowed
    cases hd' : SnapshotIamEngine.check ⟨policies'⟩ s r action with
    | deny reason' => simp [hd',AccessDecision.isAllowed] at hallowed
    | allow rf' cm' =>
      obtain ⟨-,p,hp,rfl,rfl⟩ := (check_eq_iff _ _).mp hd
      obtain ⟨-,q,hq,rfl,rfl⟩ := (check_eq_iff _ _).mp hd'
      obtain ⟨hrf,hcm⟩ := hagree p q hp.topAllow (hq.topAllow.perm h.symm)
      simp [AccessDecision.grant,hrf,hcm]

/-- A matching Allow policy of greatest priority sets the terms once it comes first. -/
theorem check_cons_top [SerdeJson] {p : Policy} {rest : List Policy}
    (htop : TopAllow (p :: rest) s r action p) (hden : ¬ Denied (p :: rest) s r action) :
    SnapshotIamEngine.check ⟨p :: rest⟩ s r action = .allow p.rowFilter p.columnMask := by
  obtain ⟨-,hpm,hpe,hmax⟩ := htop
  refine (check_eq_iff ⟨p :: rest⟩ _).mpr ⟨hden,p,⟨[],rest,rfl,hpm,hpe,by simp,?_⟩,rfl,rfl⟩
  intro q hq hqm hqe
  exact hmax q (by simp [hq]) hqm hqe

/-- Permuting the snapshot never changes whether a request is granted, and it leaves
the terms of the grant alone exactly when the top Allow policies agree on them. -/
theorem check_perm [SerdeJson] (policies : List Policy) (s : Subject) (r : ResourceId)
    (action : String) :
    (∀ policies', policies.Perm policies' →
      (SnapshotIamEngine.check ⟨policies⟩ s r action).isAllowed =
        (SnapshotIamEngine.check ⟨policies'⟩ s r action).isAllowed) ∧
    ((∀ policies', policies.Perm policies' →
      (SnapshotIamEngine.check ⟨policies⟩ s r action).grant =
        (SnapshotIamEngine.check ⟨policies'⟩ s r action).grant) ↔
      Denied policies s r action ∨ TopAgree policies s r action) := by
  refine ⟨fun policies' h => isAllowed_perm h,?_,?_⟩
  · intro hsame
    by_cases hden : Denied policies s r action
    · exact Or.inl hden
    refine Or.inr fun p q hp hq => ?_
    -- bring each of the two policies to the front in turn
    have hfront : ∀ t, TopAllow policies s r action t →
        (SnapshotIamEngine.check ⟨policies⟩ s r action).grant =
          some (t.rowFilter,t.columnMask) := by
      intro t ht
      have hperm := List.perm_cons_erase ht.1
      rw [hsame _ hperm,check_cons_top (ht.perm hperm) fun h => hden (h.perm hperm.symm)]
      rfl
    have heq := (hfront p hp).symm.trans (hfront q hq)
    simpa using heq
  · rintro (hden | hagree) policies' h
    · have hno : ∀ ps : List Policy, policies.Perm ps →
          (SnapshotIamEngine.check ⟨ps⟩ s r action).grant = none := by
        intro ps hps
        cases hd : SnapshotIamEngine.check ⟨ps⟩ s r action with
        | deny reason => rfl
        | allow rf cm => exact absurd (hden.perm hps) ((check_eq_iff _ _).mp hd).1
      rw [hno _ (List.Perm.refl _),hno _ h]
    · exact hagree.grant_eq h

def allowRows (b : ℕ) (rowFilter : String) : Policy :=
  ⟨Uuid.ofByte b,"*",.user,"*","SELECT",.allow,some rowFilter,none,0⟩

/-- Two Allow policies of one priority: whichever row is stored first sets the filter. -/
theorem check_not_order_free :
    [allowRows 1 "region = 'EU'",allowRows 2 "true"].Perm
      [allowRows 2 "true",allowRows 1 "region = 'EU'"] ∧
    ∀ _ : SerdeJson,
      (SnapshotIamEngine.check ⟨[allowRows 1 "region = 'EU'",allowRows 2 "true"]⟩
        ⟨"alice",[]⟩ ⟨"crm","customers"⟩ "SELECT").grant ≠
      (SnapshotIamEngine.check ⟨[allowRows 2 "true",allowRows 1 "region = 'EU'"]⟩
        ⟨"alice",[]⟩ ⟨"crm","customers"⟩ "SELECT").grant := by
  have hhead : (SnapshotIamEngine.matching ⟨[allowRows 1 "region = 'EU'",allowRows 2 "true"]⟩
      ⟨"alice",[]⟩ ⟨"crm","customers"⟩ "SELECT").head? = some (allowRows 1 "region = 'EU'") := by
    decide
  have hhead' : (SnapshotIamEngine.matching ⟨[allowRows 2 "true",allowRows 1 "region = 'EU'"]⟩
      ⟨"alice",[]⟩ ⟨"crm","customers"⟩ "SELECT").head? = some (allowRows 2 "true") := by
    decide
  refine ⟨List.Perm.swap _ _ _,fun _ => ?_⟩
  simp only [SnapshotIamEngine.check,hhead,hhead']
  simp [allowRows,AccessDecision.grant]

end Elan
