import Elan.CatalogSvc

/-! Whether what coordinators write into the catalog can be read back: one row that cannot be
decoded decides for the whole listing. -/
namespace Elan

open TransitionSystem CatalogTables

variable [JsonText]

/-- Every listing and every lookup succeeds. -/
def CatalogReadable (t : CatalogTables) : Prop :=
  (∀ namespaceFilter, ∃ ds, CatalogStore.listDatasets t namespaceFilter = .ok ds) ∧
    ∀ ns name, ∃ o, CatalogStore.getDataset t ns name = .ok o

/-- An accepted registration can be read; nothing is asked of the other calls. -/
def CatalogCall.WritesReadable : CatalogCall → CatalogTables → Prop
  | .registerDataset _ req, t => req.Accepted t → req.Readable t
  | _, _ => True

/-- Reachable without marking a coordinator dead, and with rows that can all be read. -/
structure Decoding (t : CatalogTables) : Prop where
  living : t.AllLiving
  decodes : ∀ key d, t.dataset? key = some d → d.Decodes

theorem catalogReadable_iff {t : CatalogTables} :
    CatalogReadable t ↔ ∀ key d, t.served? key = some d → d.Decodes := by
  unfold CatalogReadable
  simp only [CatalogStore.exists_listDatasets_iff,CatalogStore.exists_getDataset_iff]
  constructor
  · intro h key
    exact h.2 key.1 key.2
  · intro h
    exact ⟨fun _ ns name _ => h (ns,name),fun ns name => h (ns,name)⟩

theorem Decoding.readable {t : CatalogTables} (h : Decoding t) : CatalogReadable t :=
  catalogReadable_iff.mpr fun key d hd => h.decodes key d (served?_eq_some.mp hd).1

omit [JsonText] in
theorem allLiving_empty : AllLiving .empty := by
  intro id c hc
  cases hc

theorem Decoding.empty : Decoding .empty := by
  refine ⟨allLiving_empty,?_⟩
  intro key d hd
  cases hd

/-- A row that an accepted registration writes is served at once, so that it decides. -/
theorem Decoding.insert {t t' : CatalogTables} (h : Decoding t) {req : DatasetRegistration}
    {now endpoint : String} (hacc : req.Accepted t)
    (hins : t.insertDataset (req.row now endpoint) = .ok t') :
    (CatalogReadable t' ↔ req.Readable t) ∧ (req.Readable t → Decoding t') := by
  have hkeep (hread : req.Readable t) : Decoding t' := by
    refine ⟨h.living.insertDataset hins,?_⟩
    intro key d hd
    rw [DatasetRegistration.dataset?_insert hins] at hd
    split_ifs at hd with hkey
    · cases hd
      exact DatasetRegistration.decodes_written.mpr hread
    · exact h.decodes key d hd
  refine ⟨⟨?_,fun hread => (hkeep hread).readable⟩,hkeep⟩
  intro hread
  apply DatasetRegistration.decodes_written.mp
  obtain ⟨c,hc⟩ := Option.ne_none_iff_exists'.mp hacc.1
  have hliving : t.living req.coordinatorId = true := living_iff.mpr ⟨c,hc,h.living _ c hc⟩
  apply catalogReadable_iff.mp hread req.key
  rw [DatasetRegistration.served?_insert hins,if_pos rfl,if_pos hliving]

/-- A call keeps the catalog readable exactly when what it writes can be read. -/
theorem Decoding.step {t t' : CatalogTables} (h : Decoding t) {call : CatalogCall}
    (hstep : call.step t = some t') :
    (CatalogReadable t' ↔ call.WritesReadable t) ∧ (CatalogReadable t' → Decoding t') := by
  have hkeep (h' : Decoding t') (hw : call.WritesReadable t) :
      (CatalogReadable t' ↔ call.WritesReadable t) ∧ (CatalogReadable t' → Decoding t') :=
    ⟨iff_of_true h'.readable hw,fun _ => h'⟩
  cases call with
  | register now req =>
    cases hstep
    exact hkeep ⟨h.living.register now req,h.decodes⟩ trivial
  | heartbeat now coordinatorId =>
    cases hstep
    exact hkeep ⟨h.living.heartbeat now coordinatorId,h.decodes⟩ trivial
  | unregisterDataset datasetId =>
    cases hstep
    refine hkeep ⟨h.living,?_⟩ trivial
    intro key d hd
    rw [CoordinatorSvc.dataset?_unregisterDataset] at hd
    obtain ⟨d₀,hd₀,rfl⟩ := Option.map_eq_some_iff.mp hd
    by_cases hid : d₀.id = datasetId <;> simpa [hid] using h.decodes key d₀ hd₀
  | registerDataset now req =>
    cases hstep
    rcases CoordinatorSvc.registerDataset_cases t now req with ⟨hrefused,e,he⟩ | ⟨hacc,-,hins⟩
    · rw [he]
      exact ⟨iff_of_true h.readable fun hacc => absurd hacc hrefused,fun _ => h⟩
    · obtain ⟨hiff,hnext⟩ := h.insert hacc hins
      have hwrites : (CatalogCall.registerDataset now req).WritesReadable t ↔ req.Readable t :=
        ⟨fun hw => hw hacc,fun hread _ => hread⟩
      exact ⟨hiff.trans hwrites.symm,fun hread => hnext (hiff.mp hread)⟩

/-- Over any sequence of calls, listings and lookups succeed in every state exactly when each
accepted registration was readable. -/
theorem catalog_readable_iff (calls : List CatalogCall) :
    (∀ done t, done <+: calls → run CatalogCall.step done .empty = some t → CatalogReadable t) ↔
      Meets CatalogCall.step CatalogCall.WritesReadable calls .empty := by
  rw [← always_iff]
  apply always_iff_meets fun t => Decoding.readable
  · intro call t hnone
    cases call <;> cases hnone
  · intro call t t' h hstep
    exact (h.step hstep).1
  · intro call t t' h hstep
    exact (h.step hstep).2
  · exact Decoding.empty

omit [JsonText] in
/-- A single accepted registration with an identifier that is no UUID makes the listing fail. -/
theorem registration_breaks_listing : ∃ t t',
    run CatalogCall.step [.register "t0" (sampleCoordinator "node-1:50051")] .empty = some t ∧
    CoordinatorSvc.registerDataset t "t1" (sampleRegistration "not-a-uuid") = (.ok true,t') ∧
    ∀ _ : JsonText, ∀ ds, CatalogStore.listDatasets t' none ≠ .ok ds := by
  refine ⟨_,_,rfl,rfl,?_⟩
  intro _ ds h
  have hfails : Except.error (DecodeError.uuid "not-a-uuid") = Except.ok ds := h
  cases hfails

end Elan
