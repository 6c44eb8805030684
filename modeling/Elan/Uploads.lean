import Mathlib.Data.List.Basic
import Mathlib.Data.String.Basic
import Mathlib.Logic.Function.Basic
import Mathlib.Tactic.Common

/-! The upload of dataset files: each goes to the object of its namespace and file name, and a
later one replaces what an earlier one has put there. -/
namespace Elan

/-- A configured dataset, with what the upload reads of it. -/
inductive DatasetConfig
  | parquet (name ns path : String)
  | csv (name ns path : String)
  | postgres (name ns : String)
  | delta (name ns path : String)
  deriving DecidableEq

namespace DatasetConfig

def name : DatasetConfig → String
  | .parquet name _ _ | .csv name _ _ | .postgres name _ | .delta name _ _ => name

def ns : DatasetConfig → String
  | .parquet _ ns _ | .csv _ ns _ | .postgres _ ns | .delta _ ns _ => ns

def localPath : DatasetConfig → Option String
  | .parquet _ _ path | .csv _ _ path => some path
  | .postgres _ _ | .delta _ _ _ => none

end DatasetConfig

/-! ### Paths -/

/-- The parts of a path between slashes that are not empty. -/
def segments (path : String) : List (List Char) := (path.toList.splitOn '/').filter (· ≠ [])

/-- The last component of a path: a dot stands for nothing, and two dots are no name. -/
def fileName (path : String) : Option String :=
  match ((segments path).filter (· ≠ ['.'])).getLast? with
  | none => none
  | some c => if c = ['.','.'] then none else some (String.ofList c)

theorem not_mem_of_mem_splitOn {α : Type} [BEq α] [LawfulBEq α] {a : α} {xs part : List α}
    (h : part ∈ xs.splitOn a) : a ∉ part := by
  induction xs generalizing part with
  | nil =>
    rw [List.splitOn_nil,List.mem_singleton] at h
    simp [h]
  | cons x xs ih =>
    rw [List.splitOn_cons_eq_if_modifyHead] at h
    split_ifs at h with hx
    · rcases List.mem_cons.mp h with rfl | h
      · exact List.not_mem_nil
      · exact ih h
    · obtain ⟨head,tail,hsplit⟩ := List.exists_cons_of_ne_nil (List.splitOn_ne_nil a xs)
      rw [hsplit,List.modifyHead_cons] at h
      rcases List.mem_cons.mp h with rfl | h
      · have hhead : a ∉ head := ih (hsplit ▸ List.mem_cons_self)
        have hne : a ≠ x := fun hax => hx (by simp [hax])
        simp [hne,hhead]
      · exact ih (hsplit ▸ List.mem_cons_of_mem _ h)

theorem segments_append (s t : String) : segments (s ++ "/" ++ t) = segments s ++ segments t := by
  unfold segments
  rw [String.toList_append,String.toList_append,List.append_assoc]
  show List.filter _ (List.splitOn '/' (s.toList ++ '/' :: t.toList)) = _
  rw [List.splitOn_append_cons_self,List.filter_append]

theorem segments_fileName {path name : String} (h : fileName path = some name) :
    segments name = [name.toList] := by
  unfold fileName at h
  split at h
  · cases h
  · rename_i c hc
    split_ifs at h
    obtain rfl := Option.some.inj h
    have hmem := List.mem_of_mem_filter (List.mem_of_getLast? hc)
    obtain ⟨hsplit,hne⟩ := List.mem_filter.mp hmem
    have hslash : '/' ∉ c := not_mem_of_mem_splitOn hsplit
    unfold segments
    rw [String.toList_ofList,List.splitOn_eq_singleton hslash]
    simpa using hne

namespace Uploads

/-- The file name that the object of a dataset is called after. -/
def objectName (d : DatasetConfig) (localPath : String) : String :=
  (fileName localPath).getD d.name

def s3Key (d : DatasetConfig) (localPath : String) : String :=
  d.ns ++ "/" ++ objectName d localPath

section
variable {Key : Type} [DecidableEq Key] (pathFrom : String → Key)
  (read : String → Option (List UInt8)) (accepts : Key → Bool)

abbrev Bucket (Key : Type) := Key → Option (List UInt8)

/-- The answer is the size of what was put; a file that cannot be read, or an object that is
not accepted, leaves the bucket as it is. -/
def uploadFile (localPath s3Key : String) (bucket : Bucket Key) : Option ℕ × Bucket Key :=
  match read localPath with
  | none => (none,bucket)
  | some data =>
    if accepts (pathFrom s3Key) then
      (some data.length,Function.update bucket (pathFrom s3Key) (some data))
    else (none,bucket)

/-- A failure is logged, and the next dataset is uploaded. -/
def uploadDatasets : List DatasetConfig → Bucket Key → Bucket Key
  | [], bucket => bucket
  | d :: ds, bucket =>
    match d.localPath with
    | none => uploadDatasets ds bucket
    | some localPath =>
      uploadDatasets ds (uploadFile pathFrom read accepts localPath (s3Key d localPath) bucket).2

end

/-- Each file-backed dataset finds its own file under its key. -/
def OwnContent {Key : Type} (pathFrom : String → Key) (read : String → Option (List UInt8))
    (ds : List DatasetConfig) (bucket : Bucket Key) : Prop :=
  ∀ d ∈ ds, ∀ localPath, d.localPath = some localPath →
    bucket (pathFrom (s3Key d localPath)) = read localPath

/-- The namespaces and the file names of two datasets come to the same segments. -/
def SameObject (d e : DatasetConfig) (path path' : String) : Prop :=
  segments d.ns ++ segments (objectName d path) = segments e.ns ++ segments (objectName e path')

instance (d e : DatasetConfig) (path path' : String) : Decidable (SameObject d e path path') :=
  inferInstanceAs (Decidable (_ = _))

/-- Files that come to the same object have the same content. -/
def Compatible (read : String → Option (List UInt8)) (ds : List DatasetConfig) : Prop :=
  ∀ d ∈ ds, ∀ e ∈ ds, ∀ path path', d.localPath = some path → e.localPath = some path' →
    SameObject d e path path' → read path = read path'

/-- Paths with a file name come to the same object when the names are equal, and the namespaces
up to empty segments. -/
theorem sameObject_iff {d e : DatasetConfig} {path path' name name' : String}
    (h : fileName path = some name) (h' : fileName path' = some name') :
    SameObject d e path path' ↔ segments d.ns = segments e.ns ∧ name = name' := by
  unfold SameObject objectName
  rw [h,h',Option.getD_some,Option.getD_some,segments_fileName h,segments_fileName h']
  constructor
  · intro hsame
    obtain ⟨hns,hname⟩ := List.append_inj' hsame rfl
    exact ⟨hns,String.toList_inj.mp (List.singleton_inj.mp hname)⟩
  · rintro ⟨hns,rfl⟩
    rw [hns]

section
variable {Key : Type} [DecidableEq Key] {pathFrom : String → Key}
  {read : String → Option (List UInt8)} {accepts : Key → Bool}

/-- An object is what it was, or the content of a dataset that has its key. -/
theorem uploadDatasets_spec {ds : List DatasetConfig} {bucket : Bucket Key}
    (hread : ∀ d ∈ ds, ∀ path, d.localPath = some path → read path ≠ none)
    (haccepts : ∀ key, accepts key = true) (key : Key) :
    (∃ d ∈ ds, ∃ path, d.localPath = some path ∧ pathFrom (s3Key d path) = key ∧
      uploadDatasets pathFrom read accepts ds bucket key = read path) ∨
      (∀ d ∈ ds, ∀ path, d.localPath = some path → pathFrom (s3Key d path) ≠ key) ∧
        uploadDatasets pathFrom read accepts ds bucket key = bucket key := by
  induction ds generalizing bucket with
  | nil => exact .inr ⟨by simp,rfl⟩
  | cons d ds ih =>
    obtain ⟨hd,hrest⟩ := List.forall_mem_cons.mp hread
    cases hpath : d.localPath with
    | none =>
      have hstep : uploadDatasets pathFrom read accepts (d :: ds) bucket =
          uploadDatasets pathFrom read accepts ds bucket := by
        simp [uploadDatasets,hpath]
      rw [hstep]
      rcases @ih bucket hrest with ⟨e,he,hfound⟩ | ⟨hnone,hsame⟩
      · exact .inl ⟨e,List.mem_cons_of_mem d he,hfound⟩
      · exact .inr ⟨List.forall_mem_cons.mpr ⟨by simp [hpath],hnone⟩,hsame⟩
    | some path =>
      obtain ⟨data,hdata⟩ := Option.ne_none_iff_exists'.mp (hd path hpath)
      have hstep : uploadDatasets pathFrom read accepts (d :: ds) bucket =
          uploadDatasets pathFrom read accepts ds
            (Function.update bucket (pathFrom (s3Key d path)) (some data)) := by
        simp [uploadDatasets,uploadFile,hpath,hdata,haccepts]
      rw [hstep]
      rcases @ih (Function.update bucket (pathFrom (s3Key d path)) (some data)) hrest with
        ⟨e,he,hfound⟩ | ⟨hnone,hsame⟩
      · exact .inl ⟨e,List.mem_cons_of_mem d he,hfound⟩
      · by_cases hkey : pathFrom (s3Key d path) = key
        · refine .inl ⟨d,List.mem_cons_self,path,hpath,hkey,?_⟩
          rw [hsame,← hkey,Function.update_self,hdata]
        · refine .inr ⟨List.forall_mem_cons.mpr ⟨?_,hnone⟩,?_⟩
          · simpa [hpath] using hkey
          · rw [hsame,Function.update_of_ne (Ne.symm hkey)]

/-- After an upload without failures every dataset finds its own file exactly when those that
come to the same object have the same content. -/
theorem ownContent_iff {ds : List DatasetConfig} {bucket : Bucket Key}
    (hkeys : ∀ s t, pathFrom s = pathFrom t ↔ segments s = segments t)
    (hread : ∀ d ∈ ds, ∀ path, d.localPath = some path → read path ≠ none)
    (haccepts : ∀ key, accepts key = true) :
    OwnContent pathFrom read ds (uploadDatasets pathFrom read accepts ds bucket) ↔
      Compatible read ds := by
  have hsame (d e : DatasetConfig) (path path' : String) :
      pathFrom (s3Key d path) = pathFrom (s3Key e path') ↔ SameObject d e path path' := by
    rw [hkeys]
    unfold s3Key SameObject
    rw [segments_append,segments_append]
  constructor
  · intro hown d hd e he path path' hpath hpath' hobject
    rw [← hown d hd path hpath,← hown e he path' hpath',(hsame d e path path').mpr hobject]
  · intro hcompatible d hd path hpath
    rcases @uploadDatasets_spec _ _ pathFrom read accepts ds bucket hread haccepts
      (pathFrom (s3Key d path)) with ⟨e,he,path',hpath',hkey,hfound⟩ | ⟨hnone,-⟩
    · rw [hfound]
      exact hcompatible e he d hd path' path hpath' hpath ((hsame e d path' path).mp hkey)
    · exact absurd rfl (hnone d hd path hpath)

end

/-! ### Two files of one name -/

/-- The orders of two regions, in directories of their own. -/
def ordersOf (region : String) : DatasetConfig :=
  .csv ("orders_" ++ region) "ops" ("data/" ++ region ++ "/orders.csv")

def disk (path : String) : Option (List UInt8) := some (path.toList.map fun c => c.toNat.toUInt8)

/-- Files of one name in two namespaces, a file that two datasets share, and no file at all. -/
def severalDatasets : List DatasetConfig :=
  [ordersOf "eu",.csv "orders_us" "sales" "data/us/orders.csv",
    .csv "orders_copy" "ops/" "data/eu/orders.csv",.parquet "customers" "ops" "data/c.parquet",
    .postgres "ledger" "ops"]

theorem ownContent_several : OwnContent segments disk severalDatasets
    (uploadDatasets segments disk (fun _ => true) severalDatasets fun _ => none) := by
  have hsame : ∀ d ∈ severalDatasets, ∀ e ∈ severalDatasets, ∀ path ∈ d.localPath,
      ∀ path' ∈ e.localPath, SameObject d e path path' → disk path = disk path' := by
    decide
  refine (ownContent_iff (fun _ _ => Iff.rfl) (by simp [disk]) (by simp)).mpr ?_
  intro d hd e he path path' hpath hpath' hobject
  exact hsame d hd e he path hpath path' hpath' hobject

/-- The second upload replaces the first. -/
theorem orders_overwritten : ¬ ∀ (ds : List DatasetConfig) (read : String → Option (List UInt8)),
    (ds.map fun d => (d.ns,d.name)).Nodup → (∀ path, read path ≠ none) →
      OwnContent segments read ds
        (uploadDatasets segments read (fun _ => true) ds fun _ => none) := by
  intro h
  have hown := h [ordersOf "eu",ordersOf "us"] disk (by decide) (by simp [disk])
  have hcompatible := (ownContent_iff (fun _ _ => Iff.rfl) (by simp [disk]) (by simp)).mp hown
  have hsame := hcompatible (ordersOf "eu") (by simp) (ordersOf "us") (by simp) _ _ rfl rfl
    ((sameObject_iff rfl rfl).mpr ⟨rfl,rfl⟩)
  exact absurd hsame (by decide)

end Uploads
end Elan
