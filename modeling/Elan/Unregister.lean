import Elan.CatalogSvc

/-! Registering a dataset and unregistering it again. Registrations are kept by namespace and
name, but are taken back by identifier. -/
namespace Elan

open CatalogTables TransitionSystem

/-- The key is gone for good: its row is inactive, whatever becomes of its coordinator. -/
def Retired (key : String × String) (t : CatalogTables) : Prop :=
  ∀ d, t.dataset? key = some d → d.isActive = false

namespace DatasetRegistration

/-- The key has no row yet, or its row has the identifier of the registration. -/
def OwnsId (req : DatasetRegistration) (t : CatalogTables) : Prop :=
  ∀ d, t.dataset? req.key = some d → d.id = req.datasetId

/-- The identifier is that of the key; or the coordinator is dead, so that the key is not served
anyway, and no active row of another key has the identifier. -/
def Undoable (req : DatasetRegistration) (t : CatalogTables) : Prop :=
  req.OwnsId t ∨ t.living req.coordinatorId = false ∧
    ∀ key d, key ≠ req.key → t.dataset? key = some d → d.id = req.datasetId → d.isActive = false

end DatasetRegistration

variable {t t₁ : CatalogTables} {req : DatasetRegistration} {now executorEndpoint : String}

/-- The rows of the other keys lose their activity where they have the identifier. -/
theorem dataset?_other (hins : t.insertDataset (req.row now executorEndpoint) = .ok t₁)
    {key : String × String} (hkey : key ≠ req.key) :
    (CoordinatorSvc.unregisterDataset t₁ req.datasetId).dataset? key =
      (t.dataset? key).map fun d => if d.id = req.datasetId then d.deactivate else d := by
  rw [CoordinatorSvc.dataset?_unregisterDataset,DatasetRegistration.dataset?_insert hins,
    if_neg hkey]

theorem deactivate_eq_self_iff {d : DatasetRow} : d.deactivate = d ↔ d.isActive = false := by
  cases d
  simp [DatasetRow.deactivate,eq_comm]

/-- The other rows are kept exactly when no active one of them has the identifier. -/
theorem rows_kept_iff (hins : t.insertDataset (req.row now executorEndpoint) = .ok t₁) :
    (∀ key, key ≠ req.key →
      (CoordinatorSvc.unregisterDataset t₁ req.datasetId).dataset? key = t.dataset? key) ↔
    ∀ key d, key ≠ req.key → t.dataset? key = some d → d.id = req.datasetId →
      d.isActive = false := by
  constructor
  · intro h key d hkey hd hid
    have hkept := h key hkey
    rw [dataset?_other hins hkey,hd,Option.map_some,if_pos hid,Option.some.injEq] at hkept
    exact deactivate_eq_self_iff.mp hkept
  · intro h key hkey
    rw [dataset?_other hins hkey]
    cases hd : t.dataset? key with
    | none => rfl
    | some d =>
      by_cases hid : d.id = req.datasetId
      · rw [Option.map_some,if_pos hid,deactivate_eq_self_iff.mpr (h key d hkey hd hid)]
      · rw [Option.map_some,if_neg hid]

/-- The identifier names the row of the key, when the key had no other. -/
theorem DatasetRegistration.OwnsId.other_ne (hown : req.OwnsId t) (hacc : req.Accepted t)
    {key : String × String} (hkey : key ≠ req.key) {d : DatasetRow}
    (hd : t.dataset? key = some d) : d.id ≠ req.datasetId := by
  cases hstored : t.dataset? req.key with
  | none => exact hacc.2 hstored key d hd
  | some e =>
    intro hid
    exact hkey (dataset?_id_inj hd hstored (hid.trans (hown e hstored).symm))

theorem retired_iff (hins : t.insertDataset (req.row now executorEndpoint) = .ok t₁) :
    Retired req.key (CoordinatorSvc.unregisterDataset t₁ req.datasetId) ↔ req.OwnsId t := by
  have hrow : (CoordinatorSvc.unregisterDataset t₁ req.datasetId).dataset? req.key =
      some (if (req.written t now executorEndpoint).id = req.datasetId then
        (req.written t now executorEndpoint).deactivate
      else req.written t now executorEndpoint) := by
    rw [CoordinatorSvc.dataset?_unregisterDataset,DatasetRegistration.dataset?_insert hins,
      if_pos rfl]
    rfl
  have hid : (req.written t now executorEndpoint).id = req.datasetId ↔ req.OwnsId t := by
    rw [DatasetRegistration.written_id]
    unfold DatasetRegistration.OwnsId
    cases hd : t.dataset? req.key <;> simp
  rw [← hid]
  unfold Retired
  rw [hrow]
  have hactive : (req.written t now executorEndpoint).isActive = true :=
    DatasetRegistration.written_isActive
  by_cases hown : (req.written t now executorEndpoint).id = req.datasetId
  · simp [hown,DatasetRow.deactivate]
  · simp [hown,hactive]

theorem served?_own (hins : t.insertDataset (req.row now executorEndpoint) = .ok t₁) :
    (CoordinatorSvc.unregisterDataset t₁ req.datasetId).served? req.key = none ↔
      t.living req.coordinatorId = false ∨ req.OwnsId t := by
  rw [CoordinatorSvc.served?_unregisterDataset,DatasetRegistration.served?_insert hins,if_pos rfl]
  unfold DatasetRegistration.OwnsId
  by_cases hliving : t.living req.coordinatorId = true
  · rw [if_pos hliving]
    cases hd : t.dataset? req.key <;> simp [hliving,DatasetRegistration.written_id,hd]
  · simp [hliving]

theorem served?_kept (hins : t.insertDataset (req.row now executorEndpoint) = .ok t₁)
    {key : String × String}
    (h : (CoordinatorSvc.unregisterDataset t₁ req.datasetId).dataset? key = t.dataset? key) :
    (CoordinatorSvc.unregisterDataset t₁ req.datasetId).served? key = t.served? key := by
  have hliving (id : String) :
      (CoordinatorSvc.unregisterDataset t₁ req.datasetId).living id = t.living id := by
    unfold CatalogTables.living
    rw [← coordinator?_insertDataset hins id]
    rfl
  unfold CatalogTables.served?
  simp only [h,hliving]

variable [JsonText]

/-- What unregistering leaves of a registration of `t` that was accepted into `t₁`: its key is
gone from lookups and listings, and the rows of all other keys are as they were. -/
structure Undone (req : DatasetRegistration) (t t₁ t₂ : CatalogTables) : Prop where
  gone : CatalogStore.getDataset t₂ req.ns req.name = .ok none
  unlisted : ∀ namespaceFilter ds, CatalogStore.listDatasets t₁ namespaceFilter = .ok ds →
    CatalogStore.listDatasets t₂ namespaceFilter = .ok (ds.filter (·.key ≠ req.key))
  rows : ∀ key, key ≠ req.key → t₂.dataset? key = t.dataset? key
  others : ∀ ns name, (ns,name) ≠ req.key →
    CatalogStore.getDataset t₂ ns name = CatalogStore.getDataset t ns name

theorem listDatasets_remove {t₂ : CatalogTables} {key : String × String}
    (hget : CatalogStore.getDataset t₂ key.1 key.2 = .ok none)
    (hothers : ∀ ns name, (ns,name) ≠ key →
      CatalogStore.getDataset t₂ ns name = CatalogStore.getDataset t₁ ns name)
    {namespaceFilter : Option String} {ds : List DatasetInfo}
    (hds : CatalogStore.listDatasets t₁ namespaceFilter = .ok ds) :
    CatalogStore.listDatasets t₂ namespaceFilter = .ok (ds.filter (·.key ≠ key)) := by
  obtain ⟨hok,hsorted,hmem⟩ := CatalogStore.listDatasets_eq_ok.mp hds
  refine CatalogStore.listDatasets_eq_ok.mpr ⟨?_,hsorted.filter _,?_⟩
  · intro ns name hns
    by_cases hkey : (ns,name) = key
    · subst hkey
      exact ⟨none,hget⟩
    · rw [hothers ns name hkey]
      exact hok ns name hns
  · intro d
    rw [List.mem_filter,hmem]
    by_cases hkey : d.key = key
    · subst hkey
      have hnone : CatalogStore.getDataset t₂ d.ns d.name = .ok none := hget
      simp [hnone]
    · simp [hkey,hothers d.ns d.name hkey]

theorem undone_of_undoable (hacc : req.Accepted t)
    (hins : t.insertDataset (req.row now executorEndpoint) = .ok t₁) (h : req.Undoable t) :
    Undone req t t₁ (CoordinatorSvc.unregisterDataset t₁ req.datasetId) := by
  have hrows : ∀ key, key ≠ req.key →
      (CoordinatorSvc.unregisterDataset t₁ req.datasetId).dataset? key = t.dataset? key := by
    apply (rows_kept_iff hins).mpr
    intro key d hkey hd hid
    rcases h with hown | ⟨-,hfree⟩
    · exact absurd hid (hown.other_ne hacc hkey hd)
    · exact hfree key d hkey hd hid
  have hgone : (CoordinatorSvc.unregisterDataset t₁ req.datasetId).served? req.key = none :=
    (served?_own hins).mpr (h.symm.imp And.left id)
  have hget : CatalogStore.getDataset (CoordinatorSvc.unregisterDataset t₁ req.datasetId)
      req.ns req.name = .ok none := CatalogStore.getDataset_eq_none.mpr hgone
  have hget₁ : ∀ ns name, (ns,name) ≠ req.key →
      CatalogStore.getDataset (CoordinatorSvc.unregisterDataset t₁ req.datasetId) ns name =
        CatalogStore.getDataset t₁ ns name := by
    intro ns name hkey
    apply CatalogStore.getDataset_congr
    rw [served?_kept hins (hrows _ hkey),DatasetRegistration.served?_insert hins,if_neg hkey]
  exact
    { gone := hget
      unlisted := fun _ _ hds => listDatasets_remove hget hget₁ hds
      rows := hrows
      others := fun _ _ hkey => CatalogStore.getDataset_congr (served?_kept hins (hrows _ hkey)) }

theorem undoable_of_undone (hins : t.insertDataset (req.row now executorEndpoint) = .ok t₁)
    (h : Undone req t t₁ (CoordinatorSvc.unregisterDataset t₁ req.datasetId)) :
    req.Undoable t := by
  rcases (served?_own hins).mp (CatalogStore.getDataset_eq_none.mp h.gone) with hdead | hown
  · exact .inr ⟨hdead,(rows_kept_iff hins).mp h.rows⟩
  · exact .inl hown

/-- Unregistering undoes an accepted registration exactly when the identifier is that of the row
the key stands for, or when the coordinator is dead and no other active row has the identifier. It
does so for good, even if the coordinator comes back, in the first case only. -/
theorem unregister_undoes_iff
    (h : CoordinatorSvc.registerDataset t now req = (.ok true,t₁)) :
    (Undone req t t₁ (CoordinatorSvc.unregisterDataset t₁ req.datasetId) ↔ req.Undoable t) ∧
      (Undone req t t₁ (CoordinatorSvc.unregisterDataset t₁ req.datasetId) ∧
          Retired req.key (CoordinatorSvc.unregisterDataset t₁ req.datasetId) ↔ req.OwnsId t) := by
  rcases CoordinatorSvc.registerDataset_cases t now req with ⟨-,e,he⟩ | ⟨hacc,-,hins⟩
  · rw [he] at h
    cases h
  · rw [h] at hins
    refine ⟨⟨undoable_of_undone hins,undone_of_undoable hacc hins⟩,?_⟩
    rw [retired_iff hins]
    exact ⟨And.right,fun hown => ⟨undone_of_undoable hacc hins (.inl hown),hown⟩⟩

omit [JsonText] in
/-- A new dataset beside another one. -/
theorem unregister_undoes_first : ∃ t t₁,
    run CatalogCall.step [.register "t0" (sampleCoordinator "node-1:50051"),.registerDataset "t1"
      { sampleRegistration "00000000-0000-0000-0000-000000000011" with name := "sessions" }]
        .empty = some t ∧
    CoordinatorSvc.registerDataset t "t2"
      (sampleRegistration "00000000-0000-0000-0000-000000000010") = (.ok true,t₁) ∧
    ∀ _ : JsonText,
      Undone (sampleRegistration "00000000-0000-0000-0000-000000000010") t t₁
        (CoordinatorSvc.unregisterDataset t₁ "00000000-0000-0000-0000-000000000010") ∧
      Retired ("analytics","events")
        (CoordinatorSvc.unregisterDataset t₁ "00000000-0000-0000-0000-000000000010") := by
  refine ⟨_,_,rfl,rfl,fun _ => (unregister_undoes_iff rfl).2.mpr ?_⟩
  intro d hd
  cases hd

omit [JsonText] in
/-- A coordinator that has restarted announces its dataset under a new identifier, and cannot
take it back by that one. -/
theorem unregister_after_restart_keeps_dataset : ∃ t t₁,
    run CatalogCall.step [.register "t0" (sampleCoordinator "node-1:50051"),
      .registerDataset "t1" (sampleRegistration "00000000-0000-0000-0000-000000000010")] .empty =
        some t ∧
    CoordinatorSvc.registerDataset t "t2"
      (sampleRegistration "00000000-0000-0000-0000-000000000011") = (.ok true,t₁) ∧
    ∀ _ : JsonText, ∃ d, CatalogStore.getDataset
      (CoordinatorSvc.unregisterDataset t₁ "00000000-0000-0000-0000-000000000011")
      "analytics" "events" = .ok (some d) :=
  ⟨_,_,rfl,rfl,fun _ =>
    ⟨⟨Uuid.ofByte 16,"events","analytics",.parquet,"c1","node-1:50051",[],.null⟩,rfl⟩⟩

end Elan
