import Elan.EndpointSync
import Elan.PolicyReload
import Elan.StreamedAnswers
import Elan.UserCatalog

/-! The listings of the central service: datasets, searches for datasets, and policies are read in
one query each and streamed while other calls go on writing. -/
namespace Elan

open StableSort Streaming TransitionSystem

/-- The lower case of a text, by the tables of Unicode. -/
class Unicode where
  toLowercase : String → String

section
variable [JsonText] [Unicode]

def matchesQuery (query text : String) : Bool :=
  decide (query.toList <:+: (Unicode.toLowercase text).toList)

/-- The stream of a search, over names and namespaces. -/
def CatalogSvc.searchDatasets (t : CatalogTables) (query : String) :
    Except CatalogStatus (List DatasetProto) :=
  let query := Unicode.toLowercase query
  match CatalogStore.listDatasets t none with
  | .error e => .error (.internal e)
  | .ok all =>
    .ok ((all.filter fun d => matchesQuery query d.name || matchesQuery query d.ns).map .ofDataset)

end

/-- The tables of the service, with the calls that are writing to them. -/
structure CentralStores (ι : Type) where
  catalog : CatalogState
  policies : PolicyReload.State ι

inductive CentralWrite (ι : Type)
  | catalog (stmt : CatalogStatement)
  | policies (a : PolicyReload.Action ι)

/-- A request for a stream; the order of ties is that of the database. -/
inductive ListingRequest
  | listDatasets (namespaceFilter : String)
  | searchDatasets (query : String)
  | listPolicies (order : QueryOrder) (subjectName : String)

inductive ListingItem
  | dataset (proto : DatasetProto)
  | policy (proto : PolicyProto)
  deriving DecidableEq

inductive ListingError
  | catalog (status : CatalogStatus)
  | policies (e : StoreError)
  deriving DecidableEq

namespace Listings

section
variable {ι : Type} [DecidableEq ι]

def writeStep (w : CentralWrite ι) (s : CentralStores ι) : Option (CentralStores ι) :=
  match w with
  | .catalog stmt => (stmt.step s.catalog).map fun catalog => { s with catalog := catalog }
  | .policies a =>
    (PolicyReload.step a s.policies).map fun policies => { s with policies := policies }

variable [JsonText] [Unicode]

omit [DecidableEq ι] in
/-- The query of a listing, before anything is sent. -/
def read (s : CentralStores ι) : ListingRequest → Except ListingError (List ListingItem)
  | .listDatasets namespaceFilter =>
    match CatalogSvc.listDatasets s.catalog.tables namespaceFilter with
    | .error e => .error (.catalog e)
    | .ok protos => .ok (protos.map .dataset)
  | .searchDatasets query =>
    match CatalogSvc.searchDatasets s.catalog.tables query with
    | .error e => .error (.catalog e)
    | .ok protos => .ok (protos.map .dataset)
  | .listPolicies order subjectName =>
    match s.policies.svc.listPolicies order subjectName with
    | .error e => .error (.policies e)
    | .ok protos => .ok (protos.map .policy)

def channelCapacity : ℕ := 32

abbrev step : Streaming.Action (CentralWrite ι) ListingRequest →
    Service (CentralStores ι) ListingRequest ListingError ListingItem →
    Option (Service (CentralStores ι) ListingRequest ListingError ListingItem) :=
  Streaming.step writeStep read channelCapacity

/-- The datasets that `covers` picks from the catalog, in the order of their keys. -/
def ListsDatasets (t : CatalogTables) (covers : DatasetInfo → Prop) (items : List ListingItem) :
    Prop :=
  ∃ ds : List DatasetInfo, items = ds.map (fun d => .dataset (.ofDataset d)) ∧
    ds.Pairwise (fun a b => toLex a.key < toLex b.key) ∧
    ∀ d, d ∈ ds ↔ covers d ∧ CatalogStore.getDataset t d.ns d.name = .ok (some d)

/-- The policies of the subject, or all of them, by priority. -/
def ListsPolicies (t : IamTables) (subjectName : Option String) (items : List ListingItem) : Prop :=
  ∃ rows ps, OrderedBy ByPriority
      (t.joined.filter fun r => (subjectName.map (decide <| r.2.name = ·)).getD true) rows ∧
    decodeRows rows = .ok ps ∧ items = ps.map (fun p => .policy (.ofPolicy p))

def Lists (s : CentralStores ι) : ListingRequest → List ListingItem → Prop
  | .listDatasets namespaceFilter => ListsDatasets s.catalog.tables fun d =>
      namespaceFilter = "" ∨ d.ns = namespaceFilter
  | .searchDatasets query => ListsDatasets s.catalog.tables fun d =>
      matchesQuery (Unicode.toLowercase query) d.name ∨
        matchesQuery (Unicode.toLowercase query) d.ns
  | .listPolicies _ subjectName => ListsPolicies s.policies.store (optionalText subjectName)

omit [Unicode] in
theorem listsDatasets_of_listDatasets {t : CatalogTables} {namespaceFilter : String}
    {protos : List DatasetProto} (h : CatalogSvc.listDatasets t namespaceFilter = .ok protos) :
    ListsDatasets t (fun d => namespaceFilter = "" ∨ d.ns = namespaceFilter)
      (protos.map .dataset) := by
  unfold CatalogSvc.listDatasets at h
  split at h
  · cases h
  · rename_i ds hds
    cases h
    obtain ⟨hsorted,hmem⟩ := CatalogStore.listDatasets_spec hds
    refine ⟨ds,by rw [List.map_map]; rfl,hsorted,?_⟩
    intro d
    rw [hmem]
    by_cases hf : namespaceFilter = "" <;> simp [hf,CatalogStore.inNamespace]

theorem listsDatasets_of_searchDatasets {t : CatalogTables} {query : String}
    {protos : List DatasetProto} (h : CatalogSvc.searchDatasets t query = .ok protos) :
    ListsDatasets t (fun d => matchesQuery (Unicode.toLowercase query) d.name ∨
      matchesQuery (Unicode.toLowercase query) d.ns) (protos.map .dataset) := by
  unfold CatalogSvc.searchDatasets at h
  cases hds : CatalogStore.listDatasets t none with
  | error e =>
    rw [hds] at h
    cases h
  | ok all =>
    rw [hds] at h
    cases h
    obtain ⟨hsorted,hmem⟩ := CatalogStore.listDatasets_spec hds
    refine ⟨_,by rw [List.map_map]; rfl,hsorted.filter _,?_⟩
    intro d
    rw [List.mem_filter,hmem,Bool.or_eq_true]
    constructor
    · rintro ⟨⟨-,hget⟩,hcovers⟩
      exact ⟨hcovers,hget⟩
    · rintro ⟨hcovers,hget⟩
      exact ⟨⟨rfl,hget⟩,hcovers⟩

omit [JsonText] [Unicode] in
theorem listsPolicies_of_listPolicies {svc : IamSvc} {order : QueryOrder} {subjectName : String}
    {protos : List PolicyProto} (h : svc.listPolicies order subjectName = .ok protos) :
    ListsPolicies svc.store (optionalText subjectName) (protos.map .policy) := by
  unfold IamSvc.listPolicies at h
  split at h
  · cases h
  · rename_i ps hps
    cases h
    exact ⟨_,ps,(order.answers svc.store).filter _,hps,by rw [List.map_map]; rfl⟩

omit [DecidableEq ι] in
theorem lists_of_read {s : CentralStores ι} {r : ListingRequest} {items : List ListingItem}
    (h : read s r = .ok items) : Lists s r items := by
  cases r with
  | listDatasets namespaceFilter =>
    simp only [read] at h
    split at h
    · cases h
    · rename_i protos hprotos
      cases h
      exact listsDatasets_of_listDatasets hprotos
  | searchDatasets query =>
    simp only [read] at h
    split at h
    · cases h
    · rename_i protos hprotos
      cases h
      exact listsDatasets_of_searchDatasets hprotos
  | listPolicies order subjectName =>
    simp only [read] at h
    split at h
    · cases h
    · rename_i protos hprotos
      cases h
      exact listsPolicies_of_listPolicies hprotos

/-- Whatever is written while a listing is streamed, and however many are, its reader has a
beginning of what the request asked for at one moment, and all of it once the stream has ended. -/
theorem stream_is_snapshot {as : List (Streaming.Action (CentralWrite ι) ListingRequest)}
    {stores : CentralStores ι}
    {s : Service (CentralStores ι) ListingRequest ListingError ListingItem}
    (hrun : run step as ⟨stores,[]⟩ = some s) {c : Client ListingRequest ListingError ListingItem}
    (hc : c ∈ s.clients) {items : List ListingItem} (hitems : c.answer = .ok items) :
    ∃ bs past, bs <+: as ∧ run step bs ⟨stores,[]⟩ = some past ∧
      Lists past.source c.request items ∧ c.delivery.received <+: items ∧
        (c.delivery.reader = .complete → c.delivery.received = items) := by
  obtain ⟨⟨bs,past,hbs,hpast,hanswer⟩,hserved⟩ := answers_are_snapshots hrun hc
  have hdelivers := hserved items hitems
  rw [hitems] at hanswer
  exact ⟨bs,past,hbs,hpast,lists_of_read hanswer.symm,hdelivers.received,hdelivers.complete⟩

/-- A stream of `n` items is over after `2 * n + 1` moves at most, and never gets stuck before:
when its client can only leave, it has all of the answer or has gone, and nothing is sent. -/
theorem stream_ends {as : List (Streaming.Action (CentralWrite ι) ListingRequest)}
    {stores : CentralStores ι}
    {s : Service (CentralStores ι) ListingRequest ListingError ListingItem}
    (hrun : run step as ⟨stores,[]⟩ = some s) {i : ℕ}
    {c : Client ListingRequest ListingError ListingItem} (hc : s.clients[i]? = some c)
    {items : List ListingItem} (hitems : c.answer = .ok items) :
    as.countP (·.isMove i) ≤ 2 * items.length + 1 ∧
      ((∀ m, m ≠ .leave → step (.move i m) s = none) → c.delivery.toSend = [] ∧
        (c.delivery.reader = .complete ∧ c.delivery.received = items ∨
          c.delivery.reader = .gone)) := by
  constructor
  · have hbound := (moves_bounded hrun i).2 c hc
    rw [hitems] at hbound
    exact (Nat.le_add_right _ _).trans hbound
  · intro hstuck
    have hserved : c.Served := (answers_are_snapshots hrun (List.mem_of_getElem? hc)).2
    refine settled hserved (by decide : 0 < channelCapacity) ?_ hitems
    intro m hm
    have hmove : step (.move i m) s = none := hstuck m hm
    simp only [step,Streaming.step,hc,Option.map_eq_none_iff] at hmove
    exact hmove

/-- A poll of the whole catalog that is streamed is the poll of one moment. -/
theorem streamed_poll {as : List (Streaming.Action (CentralWrite ι) ListingRequest)}
    {stores : CentralStores ι}
    {s : Service (CentralStores ι) ListingRequest ListingError ListingItem}
    (hrun : run step as ⟨stores,[]⟩ = some s) {c : Client ListingRequest ListingError ListingItem}
    (hc : c ∈ s.clients) (hrequest : c.request = .listDatasets "") {items : List ListingItem}
    (hitems : c.answer = .ok items) (hdone : c.delivery.reader = .complete) :
    ∃ bs past, ∃ protos : List DatasetProto, bs <+: as ∧ run step bs ⟨stores,[]⟩ = some past ∧
      c.delivery.received = protos.map .dataset ∧
      centralListing past.source.catalog.tables = .ok (protos.map .ok) := by
  obtain ⟨⟨bs,past,hbs,hpast,hanswer⟩,hserved⟩ := answers_are_snapshots hrun hc
  rw [hitems,hrequest,read] at hanswer
  cases hlist : CatalogSvc.listDatasets past.source.catalog.tables "" with
  | error e =>
    rw [hlist] at hanswer
    cases hanswer
  | ok protos =>
    rw [hlist] at hanswer
    cases hanswer
    refine ⟨bs,past,protos,hbs,hpast,(hserved _ hitems).complete hdone,?_⟩
    simp [centralListing,hlist]

end

/-! ### A search -/

@[reducible] def asciiCase : Unicode := ⟨fun s => .ofList (s.toList.map Char.toLower)⟩

def sampleStores : CentralStores Bool := ⟨⟨sampleTables,[]⟩,PolicyReload.migrated⟩

/-- The dataset is taken out of the catalog while it is streamed. -/
def sampleActions : List (Streaming.Action (CentralWrite Bool) ListingRequest) :=
  [.ask (.searchDatasets "EVE"),.move 0 .send,
    .source (.catalog (.deactivateDataset "00000000-0000-0000-0000-000000000010")),
    .ask (.searchDatasets "EVE"),.move 0 .receive,.move 0 .finish]

abbrev sampleStep := @step Bool _ nullJson asciiCase

theorem stream_is_snapshot_sample : ∃ s c items, run sampleStep sampleActions ⟨sampleStores,[]⟩ =
      some s ∧ c ∈ s.clients ∧ c.answer = .ok items ∧ items.length = 1 ∧
    ∃ bs past, bs <+: sampleActions ∧ run sampleStep bs ⟨sampleStores,[]⟩ = some past ∧
      @Lists Bool nullJson asciiCase past.source c.request items ∧
      c.delivery.received <+: items ∧
      (c.delivery.reader = .complete → c.delivery.received = items) := by
  refine ⟨_,_,_,rfl,.head _,rfl,rfl,?_⟩
  exact @stream_is_snapshot Bool _ nullJson asciiCase _ _ _ rfl _ (.head _) _ rfl

theorem stream_ends_sample : ∃ s c items, run sampleStep sampleActions ⟨sampleStores,[]⟩ =
      some s ∧ s.clients[0]? = some c ∧ c.answer = .ok items ∧
    sampleActions.countP (·.isMove 0) ≤ 2 * items.length + 1 ∧
      ((∀ m, m ≠ .leave → sampleStep (.move 0 m) s = none) → c.delivery.toSend = [] ∧
        (c.delivery.reader = .complete ∧ c.delivery.received = items ∨
          c.delivery.reader = .gone)) := by
  refine ⟨_,_,_,rfl,rfl,rfl,?_⟩
  exact @stream_ends Bool _ nullJson asciiCase _ sampleStores _ rfl 0 _ rfl _ rfl

end Listings

end Elan
