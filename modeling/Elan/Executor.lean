import Elan.Catalog
import Elan.Endpoint

/-! The executor: the tables it mounts, and the address of its HTTP service. -/
namespace Elan

structure ObjectStoreConfig where
  endpoint : String
  accessKey : String
  secretKey : String
  bucket : String
  allowHttp : Bool

inductive DatasetMount
  | parquet (tableName path : String)
  | csv (tableName path : String) (hasHeader : Bool)
  deriving DecidableEq

def DatasetMount.tableName : DatasetMount → String
  | .parquet tableName _ | .csv tableName _ _ => tableName

structure ExecutorConfig where
  bindHost : String
  bindPort : UInt16
  objectStore : Option ObjectStoreConfig
  datasets : List DatasetMount

/-! ### Tables -/

/-- How a CSV file is read: by default with a header, and at commas. -/
structure CsvReadOptions where
  hasHeader : Bool := true
  delimiter : UInt8 := 44
  deriving DecidableEq

/-- A table of a context, by the names of its catalog, its schema and its own. -/
structure TableReference where
  catalog : String
  schema : String
  table : String
  deriving DecidableEq

/-- Files and table names as DataFusion reads them; it is not part of the program. A name is parsed
and completed to a reference into a schema of the context, and there are names that can be. -/
class DataFusion where
  connect : ObjectStoreConfig → Except String Unit
  openFile : Option ObjectStoreConfig → String → Except String (List UInt8)
  inferCsv : CsvReadOptions → List UInt8 → Except String Schema
  inferParquet : List UInt8 → Except String Schema
  resolve : String → Except String TableReference
  resolves : ∃ name reference, resolve name = .ok reference

section
variable [DataFusion]

/-- The schema of the table that a mount is registered as. -/
def DatasetMount.schema (store : Option ObjectStoreConfig) : DatasetMount → Except String Schema
  | .parquet _ path => do DataFusion.inferParquet (← DataFusion.openFile store path)
  | .csv _ path hasHeader => do
    DataFusion.inferCsv { hasHeader := hasHeader } (← DataFusion.openFile store path)

/-- A table can be registered once. -/
def registerMounts (store : Option ObjectStoreConfig) :
    List DatasetMount → List (TableReference × Schema) →
      Except String (List (TableReference × Schema))
  | [], tables => .ok tables
  | mount :: mounts, tables =>
    match mount.schema store with
    | .error e => .error e
    | .ok schema =>
      match DataFusion.resolve mount.tableName with
      | .error e => .error e
      | .ok reference =>
        if reference ∈ tables.map Prod.fst then
          .error ("The table " ++ reference.table ++ " already exists")
        else registerMounts store mounts (tables ++ [(reference,schema)])

/-- Each table is taken out of the context again, in the order of the mounts. -/
def deregisterMounts : List DatasetMount → List (TableReference × Schema) →
    Except String (List (String × Schema))
  | [], _ => .ok []
  | mount :: mounts, tables =>
    match DataFusion.resolve mount.tableName with
    | .error e => .error e
    | .ok reference =>
      match tables.find? (·.1 = reference) with
      | some table => do
        let providers ← deregisterMounts mounts (tables.filter (·.1 ≠ reference))
        .ok ((mount.tableName,table.2) :: providers)
      | none => deregisterMounts mounts tables

def connectStore : Option ObjectStoreConfig → Except String Unit
  | none => .ok ()
  | some store => DataFusion.connect store

def buildProviders (cfg : ExecutorConfig) : Except String (List (String × Schema)) := do
  connectStore cfg.objectStore
  let tables ← registerMounts cfg.objectStore cfg.datasets []
  deregisterMounts cfg.datasets tables

def RegisteredAs (store : Option ObjectStoreConfig) (mount : DatasetMount)
    (table : TableReference × Schema) : Prop :=
  DataFusion.resolve mount.tableName = .ok table.1 ∧ mount.schema store = .ok table.2

def MountedAs (store : Option ObjectStoreConfig) (mount : DatasetMount)
    (provider : String × Schema) : Prop :=
  provider.1 = mount.tableName ∧ mount.schema store = .ok provider.2

/-- The names of the mounts stand for these tables. -/
def Named (mounts : List DatasetMount) (references : List TableReference) : Prop :=
  List.Forall₂ (fun mount reference => DataFusion.resolve mount.tableName = .ok reference) mounts
    references

theorem exists_registered_cons {store : Option ObjectStoreConfig} {mount : DatasetMount}
    {mounts : List DatasetMount} {tables tables' : List (TableReference × Schema)} :
    (∃ added, tables' = tables ++ added ∧
        List.Forall₂ (RegisteredAs store) (mount :: mounts) added) ↔
      ∃ table, RegisteredAs store mount table ∧ ∃ added, tables' = tables ++ [table] ++ added ∧
        List.Forall₂ (RegisteredAs store) mounts added := by
  constructor
  · rintro ⟨added,rfl,hadded⟩
    obtain ⟨table,rest,htable,hrest,rfl⟩ := List.forall₂_cons_left_iff.mp hadded
    exact ⟨table,htable,rest,by simp,hrest⟩
  · rintro ⟨table,htable,added,rfl,hrest⟩
    exact ⟨table :: added,by simp,.cons htable hrest⟩

theorem registerMounts_eq_ok {store : Option ObjectStoreConfig} {mounts : List DatasetMount}
    {tables tables' : List (TableReference × Schema)} (hnodup : (tables.map Prod.fst).Nodup) :
    registerMounts store mounts tables = .ok tables' ↔
      (∃ added, tables' = tables ++ added ∧ List.Forall₂ (RegisteredAs store) mounts added) ∧
        (tables'.map Prod.fst).Nodup := by
  induction mounts generalizing tables with
  | nil =>
    simp only [registerMounts,Except.ok.injEq,List.forall₂_nil_left_iff]
    constructor
    · rintro rfl
      exact ⟨⟨[],by simp,rfl⟩,hnodup⟩
    · rintro ⟨⟨added,rfl,rfl⟩,-⟩
      simp
  | cons mount mounts ih =>
    rw [registerMounts,exists_registered_cons]
    cases hschema : mount.schema store with
    | error e => simp [RegisteredAs,hschema]
    | ok schema =>
      cases hname : DataFusion.resolve mount.tableName with
      | error e => simp [RegisteredAs,hname]
      | ok reference =>
        have htable (table : TableReference × Schema) :
            RegisteredAs store mount table ↔ (reference,schema) = table := by
          simp [RegisteredAs,hschema,hname,Prod.ext_iff]
        simp only [htable,exists_eq_left']
        by_cases htaken : reference ∈ tables.map Prod.fst
        · simp only [htaken,if_true]
          refine iff_of_false (by simp) ?_
          rintro ⟨⟨added,rfl,-⟩,hnames⟩
          rw [List.map_append,List.map_append,List.map_singleton] at hnames
          have hfirst := (List.nodup_append.mp hnames).1
          exact (List.nodup_append.mp hfirst).2.2 _ htaken _ (List.mem_singleton_self _) rfl
        · simp only [htaken,if_false]
          have hnames : ((tables ++ [(reference,schema)]).map Prod.fst).Nodup := by
            rw [List.map_append,List.map_singleton,← List.concat_eq_append]
            exact hnodup.concat htaken
          exact ih hnames

/-- The tables are found again, each under the name of its mount. -/
theorem deregisterMounts_eq {store : Option ObjectStoreConfig} {mounts : List DatasetMount}
    {tables : List (TableReference × Schema)}
    (h : List.Forall₂ (RegisteredAs store) mounts tables) (hnodup : (tables.map Prod.fst).Nodup) :
    deregisterMounts mounts tables =
      .ok (List.zipWith (fun mount table => (mount.tableName,table.2)) mounts tables) := by
  induction h with
  | nil => rfl
  | @cons mount table mounts tables hregistered _ ih =>
    rw [List.map_cons,List.nodup_cons] at hnodup
    have hrest : tables.filter (·.1 ≠ table.1) = tables := by
      apply List.filter_eq_self.mpr
      intro other hother
      have hne : other.1 ≠ table.1 := fun h => hnodup.1 (h ▸ List.mem_map_of_mem hother)
      simpa using hne
    have hfound : (table :: tables).find? (·.1 = table.1) = some table :=
      List.find?_cons_of_pos (by simp)
    simp only [deregisterMounts,hregistered.1,hfound]
    rw [List.filter_cons_of_neg (by simp),hrest,ih hnodup.2]
    rfl

/-- Tables that are registered under their names give the providers of the mounts, and every list
of providers of the mounts comes from such tables. -/
theorem mountedAs_iff {store : Option ObjectStoreConfig} {mounts : List DatasetMount}
    {providers : List (String × Schema)} {references : List TableReference} :
    List.Forall₂ (MountedAs store) mounts providers ∧ Named mounts references ↔
      ∃ tables, List.Forall₂ (RegisteredAs store) mounts tables ∧
        tables.map Prod.fst = references ∧
        List.zipWith (fun mount table => (mount.tableName,table.2)) mounts tables = providers := by
  induction mounts generalizing providers references with
  | nil => simp [Named,eq_comm,and_comm]
  | cons mount mounts ih =>
    constructor
    · rintro ⟨hmounted,hnamed⟩
      obtain ⟨⟨name,schema⟩,providers,⟨hname,hschema⟩,hproviders,rfl⟩ :=
        List.forall₂_cons_left_iff.mp hmounted
      obtain ⟨reference,references,hreference,hreferences,rfl⟩ :=
        List.forall₂_cons_left_iff.mp hnamed
      obtain ⟨tables,htables,rfl,rfl⟩ := ih.mp ⟨hproviders,hreferences⟩
      obtain rfl : name = mount.tableName := hname
      exact ⟨(reference,schema) :: tables,.cons ⟨hreference,hschema⟩ htables,rfl,rfl⟩
    · rintro ⟨tables,htables,rfl,rfl⟩
      obtain ⟨table,tables,⟨hreference,hschema⟩,hrest,rfl⟩ := List.forall₂_cons_left_iff.mp htables
      obtain ⟨hmounted,hnamed⟩ := ih.mpr ⟨tables,hrest,rfl,rfl⟩
      exact ⟨.cons ⟨rfl,hschema⟩ hmounted,.cons hreference hnamed⟩

/-- The providers are the mounts, each with the schema read for it, and their names stand for
distinct tables. -/
theorem buildProviders_eq_ok {cfg : ExecutorConfig} {providers : List (String × Schema)} :
    buildProviders cfg = .ok providers ↔ connectStore cfg.objectStore = .ok () ∧
      List.Forall₂ (MountedAs cfg.objectStore) cfg.datasets providers ∧
        ∃ references, Named cfg.datasets references ∧ references.Nodup := by
  have hregister (tables : List (TableReference × Schema)) :
      registerMounts cfg.objectStore cfg.datasets [] = .ok tables ↔
        List.Forall₂ (RegisteredAs cfg.objectStore) cfg.datasets tables ∧
          (tables.map Prod.fst).Nodup := by
    rw [registerMounts_eq_ok (by simp)]
    simp
  have hproviders : buildProviders cfg = .ok providers ↔ connectStore cfg.objectStore = .ok () ∧
      ∃ tables, registerMounts cfg.objectStore cfg.datasets [] = .ok tables ∧
        deregisterMounts cfg.datasets tables = .ok providers := by
    unfold buildProviders
    cases connectStore cfg.objectStore with
    | error e => simp [bind,Except.bind]
    | ok _ => cases registerMounts cfg.objectStore cfg.datasets [] <;> simp [bind,Except.bind]
  rw [hproviders]
  refine and_congr_right fun _ => ?_
  constructor
  · rintro ⟨tables,hok,hderegister⟩
    obtain ⟨htables,hnodup⟩ := (hregister tables).mp hok
    rw [deregisterMounts_eq htables hnodup] at hderegister
    obtain ⟨hmounted,hnamed⟩ :=
      mountedAs_iff.mpr ⟨tables,htables,rfl,Except.ok.inj hderegister⟩
    exact ⟨hmounted,_,hnamed,hnodup⟩
  · rintro ⟨hmounted,references,hnamed,hnodup⟩
    obtain ⟨tables,htables,rfl,rfl⟩ := mountedAs_iff.mp ⟨hmounted,hnamed⟩
    exact ⟨tables,(hregister tables).mpr ⟨htables,hnodup⟩,deregisterMounts_eq htables hnodup⟩

theorem providers_nodup {store : Option ObjectStoreConfig} {mounts : List DatasetMount}
    {providers : List (String × Schema)} {references : List TableReference}
    (hmounted : List.Forall₂ (MountedAs store) mounts providers) (hnamed : Named mounts references)
    (hnodup : references.Nodup) : (providers.map Prod.fst).Nodup := by
  have hresolved : (providers.map Prod.fst).map DataFusion.resolve = references.map .ok := by
    induction hmounted generalizing references with
    | nil => simp [List.forall₂_nil_left_iff.mp hnamed]
    | @cons mount provider mounts providers hprovider _ ih =>
      obtain ⟨reference,references,hreference,hrest,rfl⟩ := List.forall₂_cons_left_iff.mp hnamed
      simp only [List.map_cons,hprovider.1,hreference,ih hrest (List.nodup_cons.mp hnodup).2]
  have hok : (references.map (.ok : _ → Except String TableReference)).Nodup :=
    hnodup.map fun _ _ => Except.ok.inj
  rw [← hresolved] at hok
  exact hok.of_map

end

/-! ### The HTTP service -/

structure SocketAddr where
  ip : String
  port : UInt16
  deriving DecidableEq

/-- How the start of the service fails; `panic` is a trap of the arithmetic checks. -/
inductive StartError
  | panic
  | invalidAddress
  deriving DecidableEq

/-- An address text is an IP address, a colon and the decimal port. -/
def SocketAddr.parse (isIp : String → Bool) (s : String) : Except StartError SocketAddr :=
  match rsplitOnce ':' s with
  | none => .error .invalidAddress
  | some (ip,port) =>
    if isIp ip && decide (port.toList ≠ []) then
      match parseDigits 0 port.toList with
      | .error _ => .error .invalidAddress
      | .ok n => .ok ⟨ip,.ofNat n⟩
    else .error .invalidAddress

/-- Where the SQL service listens: the port after the one of the executor. -/
def ExecutorConfig.httpAddr (overflowChecks : Bool) (isIp : String → Bool)
    (cfg : ExecutorConfig) : Except StartError SocketAddr :=
  match addU16 overflowChecks cfg.bindPort 1 with
  | .error _ => .error .panic
  | .ok httpPort => SocketAddr.parse isIp (cfg.bindHost ++ ":" ++ toString httpPort.toNat)

theorem SocketAddr.parse_append {isIp : String → Bool} {ip : String} (hip : isIp ip = true)
    (port : UInt16) : parse isIp (ip ++ ":" ++ toString port.toNat) = .ok ⟨ip,port⟩ := by
  obtain ⟨hne,hdigits,hvalue⟩ := toString_digits port.toNat
  have hsplit : rsplitOnce ':' (ip ++ ":" ++ toString port.toNat) =
      some (ip,toString port.toNat) := by
    rw [rsplitOnce_eq_some]
    exact ⟨by simp [String.toList_append],(isDecimal_toString port.toNat).not_mem_colon⟩
  have hport : parseDigits 0 (toString port.toNat).toList = .ok port.toNat :=
    (parseDigits_eq_ok (by decide)).mpr ⟨hdigits,hvalue,port.toNat_lt⟩
  unfold parse
  simp only [hsplit,hip,hne,hport,ne_eq,not_false_eq_true,decide_true,Bool.and_self,if_true,
    UInt16.ofNat_toNat]

end Elan
