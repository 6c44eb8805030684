import Elan.Executor
import Elan.Table
import Elan.Uploads

/-! The CSV datasets: the coordinator reads the schema that it registers from the file, and the
executor reads the file again for the table that it mounts. -/
namespace Elan

structure CsvFormat where
  delimiter : Char := ','
  hasHeader : Bool := true
  deriving DecidableEq

/-- The delimiter as a byte: of a character beyond the bytes its lowest byte. -/
def CsvFormat.delimiterByte (format : CsvFormat) : UInt8 := .ofNat format.delimiter.toNat

def CsvFormat.metadataJson (format : CsvFormat) (path : String) : JsonValue :=
  .object [("delimiter",.string (String.singleton format.delimiter)),
    ("has_header",.bool format.hasHeader),("path",.string path)]

def placeholderSchema : Schema := [⟨"_placeholder",.utf8,true⟩]

section
variable [DataFusion]

def inferCsvSchema (path : String) (hasHeader : Bool) (delimiter : UInt8) :
    Except String Schema := do
  DataFusion.inferCsv ⟨hasHeader,delimiter⟩ (← DataFusion.openFile none path)

def inferParquetSchema (path : String) : Except String Schema := do
  DataFusion.inferParquet (← DataFusion.openFile none path)

/-- The schema that is registered: a placeholder, if none can be inferred. -/
def inferSchema (format : CsvFormat) : DatasetConfig → Schema
  | .csv _ _ path =>
    (inferCsvSchema path format.hasHeader format.delimiterByte).toOption.getD placeholderSchema
  | .parquet _ _ path => (inferParquetSchema path).toOption.getD placeholderSchema
  | .postgres _ _ | .delta _ _ _ => placeholderSchema

end

namespace CsvDatasets

def utf8 (text : String) : List UInt8 := text.toList.flatMap String.utf8EncodeChar

/-- The metadata names a text as the delimiter. -/
def Records (metadata : JsonValue) (text : String) : Prop :=
  ∃ entries, metadata = .object entries ∧ entries.lookup "delimiter" = some (.string text)

section
variable [DataFusion]

/-- The registered schema is that of the file split at the delimiter of the metadata, or the
placeholder. -/
def ProbeSplits (format : CsvFormat) (name ns path : String) : Prop :=
  inferSchema format (.csv name ns path) = placeholderSchema ∨
    ∃ text delimiter, Records (format.metadataJson path) text ∧ utf8 text = [delimiter] ∧
      inferCsvSchema path format.hasHeader delimiter =
        .ok (inferSchema format (.csv name ns path))

/-- An executor that mounts the same file has a table of the registered columns for it. -/
def MountAgrees (format : CsvFormat) (name ns path : String) : Prop :=
  ∃ (cfg : ExecutorConfig) (tableName path' : String) (providers : List (String × Schema)),
    .csv tableName path' format.hasHeader ∈ cfg.datasets ∧
      DataFusion.openFile cfg.objectStore path' = DataFusion.openFile none path ∧
      buildProviders cfg = .ok providers ∧
      (tableName,inferSchema format (.csv name ns path)) ∈ providers

/-- Coordinator and executor read the dataset alike. -/
structure ReadsAlike (format : CsvFormat) (name ns path : String) : Prop where
  probe : ProbeSplits format name ns path
  table : MountAgrees format name ns path

/-- They do, unless the placeholder is registered. -/
structure ReadsAlikeIfInferred (format : CsvFormat) (name ns path : String) : Prop where
  probe : ProbeSplits format name ns path
  table : inferSchema format (.csv name ns path) = placeholderSchema ∨
    MountAgrees format name ns path

/-- The file cannot be read at the byte of the delimiter, or has just the column of the
placeholder. -/
def FallsBack (format : CsvFormat) (path : String) : Prop :=
  ∀ bytes schema, DataFusion.openFile none path = .ok bytes →
    DataFusion.inferCsv ⟨format.hasHeader,format.delimiterByte⟩ bytes = .ok schema →
      schema = placeholderSchema

/-- The delimiter is ASCII, and the file has the columns at it that it has at commas. -/
def SameAtCommas (format : CsvFormat) (path : String) : Prop :=
  format.delimiter.toNat < 128 ∧ ∃ bytes schema, DataFusion.openFile none path = .ok bytes ∧
    DataFusion.inferCsv ⟨format.hasHeader,format.delimiterByte⟩ bytes = .ok schema ∧
    DataFusion.inferCsv { hasHeader := format.hasHeader } bytes = .ok schema

/-! ### The mount -/

theorem schema_of_mem_providers {cfg : ExecutorConfig} {providers : List (String × Schema)}
    (h : buildProviders cfg = .ok providers) {mount : DatasetMount} (hmount : mount ∈ cfg.datasets)
    {schema : Schema} (hprovider : (mount.tableName,schema) ∈ providers) :
    mount.schema cfg.objectStore = .ok schema := by
  obtain ⟨-,hmounted,_,hnamed,hnodup⟩ := buildProviders_eq_ok.mp h
  obtain ⟨table,htable,hname,hschema⟩ := Table.exists_of_forall₂ hmounted.flip hmount
  have hsame : table = (mount.tableName,schema) :=
    List.inj_on_of_nodup_map (providers_nodup hmounted hnamed hnodup) htable hprovider hname
  rwa [hsame] at hschema

theorem mountAgrees_iff {format : CsvFormat} {name ns path : String} :
    MountAgrees format name ns path ↔ inferCsvSchema path format.hasHeader 44 =
      .ok (inferSchema format (.csv name ns path)) := by
  constructor
  · rintro ⟨cfg,tableName,path',providers,hmount,hfile,hproviders,hprovider⟩
    have hschema := schema_of_mem_providers hproviders hmount hprovider
    rw [DatasetMount.schema,hfile] at hschema
    exact hschema
  · intro h
    obtain ⟨tableName,reference,hreference⟩ := DataFusion.resolves
    let mount : DatasetMount := .csv tableName path format.hasHeader
    refine ⟨⟨"0.0.0.0",50055,none,[mount]⟩,tableName,path,_,List.mem_singleton_self _,rfl,?_,
      List.mem_singleton_self _⟩
    exact buildProviders_eq_ok.mpr
      ⟨rfl,.cons ⟨rfl,h⟩ .nil,_,.cons hreference .nil,List.nodup_singleton _⟩

/-! ### The probe -/

omit [DataFusion] in
theorem utf8EncodeChar_eq_singleton {c : Char} {b : UInt8} :
    String.utf8EncodeChar c = [b] ↔ c.toNat < 128 ∧ b = .ofNat c.toNat := by
  have hsize : c.utf8Size = 1 ↔ c.toNat < 128 := by
    rw [Char.utf8Size_eq_one_iff,UInt32.le_iff_toNat_le]
    exact Nat.lt_succ_iff.symm
  have hbyte : c.val.toUInt8 = UInt8.ofNat c.toNat := rfl
  constructor
  · intro h
    have hone : c.utf8Size = 1 := by rw [← String.length_utf8EncodeChar,h]; rfl
    rw [String.utf8EncodeChar_eq_singleton hone,hbyte] at h
    exact ⟨hsize.mp hone,(List.singleton_inj.mp h).symm⟩
  · rintro ⟨hlt,rfl⟩
    rw [String.utf8EncodeChar_eq_singleton (hsize.mpr hlt),hbyte]

omit [DataFusion] in
/-- The delimiter of the metadata is a byte when it is ASCII, and then it is the byte of the
probe. -/
theorem records_byte_iff {format : CsvFormat} {path : String} {delimiter : UInt8} :
    (∃ text, Records (format.metadataJson path) text ∧ utf8 text = [delimiter]) ↔
      format.delimiter.toNat < 128 ∧ delimiter = format.delimiterByte := by
  have hrecords (text : String) :
      Records (format.metadataJson path) text ↔ String.singleton format.delimiter = text := by
    simp [Records,CsvFormat.metadataJson]
  simp only [hrecords,exists_eq_left',utf8,String.toList_singleton,List.flatMap_singleton]
  exact utf8EncodeChar_eq_singleton

theorem inferCsvSchema_eq_ok {path : String} {hasHeader : Bool} {delimiter : UInt8}
    {schema : Schema} : inferCsvSchema path hasHeader delimiter = .ok schema ↔
      ∃ bytes, DataFusion.openFile none path = .ok bytes ∧
        DataFusion.inferCsv ⟨hasHeader,delimiter⟩ bytes = .ok schema := by
  unfold inferCsvSchema
  cases DataFusion.openFile none path with
  | error e => simp [bind,Except.bind]
  | ok bytes => simp [bind,Except.bind]

theorem inferSchema_of_ok {format : CsvFormat} {name ns path : String} {schema : Schema}
    (h : inferCsvSchema path format.hasHeader format.delimiterByte = .ok schema) :
    inferSchema format (.csv name ns path) = schema := by
  simp [inferSchema,h,Except.toOption]

theorem fallsBack_iff (name ns : String) {format : CsvFormat} {path : String} :
    FallsBack format path ↔ inferSchema format (.csv name ns path) = placeholderSchema := by
  have hfalls : FallsBack format path ↔ ∀ schema,
      inferCsvSchema path format.hasHeader format.delimiterByte = .ok schema →
        schema = placeholderSchema := by
    simp only [inferCsvSchema_eq_ok]
    constructor
    · rintro h schema ⟨bytes,hfile,hschema⟩
      exact h bytes schema hfile hschema
    · intro h bytes schema hfile hschema
      exact h schema ⟨bytes,hfile,hschema⟩
  rw [hfalls]
  cases hinfer : inferCsvSchema path format.hasHeader format.delimiterByte with
  | error e => simp [inferSchema,hinfer,Except.toOption]
  | ok schema => simp [inferSchema_of_ok hinfer]

theorem inferCsvSchema_of_not_fallsBack {format : CsvFormat} (name ns : String)
    {path : String} (h : ¬FallsBack format path) :
    inferCsvSchema path format.hasHeader format.delimiterByte =
      .ok (inferSchema format (.csv name ns path)) := by
  cases hinfer : inferCsvSchema path format.hasHeader format.delimiterByte with
  | error e =>
    refine absurd ((fallsBack_iff name ns).mpr ?_) h
    simp [inferSchema,hinfer,Except.toOption]
  | ok schema => rw [inferSchema_of_ok hinfer]

theorem probeSplits_iff {format : CsvFormat} {name ns path : String} :
    ProbeSplits format name ns path ↔
      FallsBack format path ∨ format.delimiter.toNat < 128 := by
  rw [ProbeSplits,← fallsBack_iff name ns]
  constructor
  · rintro (hfalls | ⟨text,delimiter,htext,hbyte,-⟩)
    · exact .inl hfalls
    · exact .inr (records_byte_iff.mp ⟨text,htext,hbyte⟩).1
  · rintro (hfalls | hascii)
    · exact .inl hfalls
    · by_cases hfalls : FallsBack format path
      · exact .inl hfalls
      · obtain ⟨text,htext,hbyte⟩ := records_byte_iff.mpr ⟨hascii,rfl⟩
        exact .inr ⟨text,_,htext,hbyte,inferCsvSchema_of_not_fallsBack name ns hfalls⟩

theorem sameAtCommas_iff {format : CsvFormat} {path : String} :
    SameAtCommas format path ↔ format.delimiter.toNat < 128 ∧ ∃ schema,
      inferCsvSchema path format.hasHeader format.delimiterByte = .ok schema ∧
      inferCsvSchema path format.hasHeader 44 = .ok schema := by
  simp only [SameAtCommas,inferCsvSchema_eq_ok]
  constructor
  · rintro ⟨hascii,bytes,schema,hfile,hd,hc⟩
    exact ⟨hascii,schema,⟨bytes,hfile,hd⟩,bytes,hfile,hc⟩
  · rintro ⟨hascii,schema,⟨bytes,hfile,hd⟩,bytes',hfile',hc⟩
    obtain rfl := Except.ok.inj (hfile.symm.trans hfile')
    exact ⟨hascii,bytes,schema,hfile,hd,hc⟩

/-! ### Both processes -/

theorem SameAtCommas.mountAgrees {format : CsvFormat} {name ns path : String}
    (h : SameAtCommas format path) : MountAgrees format name ns path := by
  obtain ⟨-,schema,hd,hc⟩ := sameAtCommas_iff.mp h
  rw [mountAgrees_iff,inferSchema_of_ok hd,hc]

theorem sameAtCommas_of_mountAgrees {format : CsvFormat} {name ns path : String}
    (hfalls : ¬FallsBack format path) (hprobe : ProbeSplits format name ns path)
    (htable : MountAgrees format name ns path) : SameAtCommas format path := by
  have hascii := (probeSplits_iff.mp hprobe).resolve_left hfalls
  have hd := inferCsvSchema_of_not_fallsBack name ns hfalls
  exact sameAtCommas_iff.mpr ⟨hascii,_,hd,mountAgrees_iff.mp htable⟩

theorem readsAlikeIfInferred_iff {format : CsvFormat} {name ns path : String} :
    ReadsAlikeIfInferred format name ns path ↔
      FallsBack format path ∨ SameAtCommas format path := by
  constructor
  · intro ⟨hprobe,htable⟩
    by_cases hfalls : FallsBack format path
    · exact .inl hfalls
    · have hmount := htable.resolve_left (mt (fallsBack_iff name ns).mpr hfalls)
      exact .inr (sameAtCommas_of_mountAgrees hfalls hprobe hmount)
  · rintro (hfalls | hsame)
    · exact ⟨probeSplits_iff.mpr (.inl hfalls),.inl ((fallsBack_iff name ns).mp hfalls)⟩
    · exact ⟨probeSplits_iff.mpr (.inr hsame.1),.inr hsame.mountAgrees⟩

theorem readsAlike_iff {format : CsvFormat} {name ns path : String} :
    ReadsAlike format name ns path ↔ SameAtCommas format path ∨ FallsBack format path ∧
      inferCsvSchema path format.hasHeader 44 = .ok placeholderSchema := by
  constructor
  · intro ⟨hprobe,htable⟩
    by_cases hfalls : FallsBack format path
    · have hcommas := mountAgrees_iff.mp htable
      rw [(fallsBack_iff name ns).mp hfalls] at hcommas
      exact .inr ⟨hfalls,hcommas⟩
    · exact .inl (sameAtCommas_of_mountAgrees hfalls hprobe htable)
  · rintro (hsame | ⟨hfalls,hcommas⟩)
    · exact ⟨probeSplits_iff.mpr (.inr hsame.1),hsame.mountAgrees⟩
    · refine ⟨probeSplits_iff.mpr (.inl hfalls),mountAgrees_iff.mpr ?_⟩
      rw [(fallsBack_iff name ns).mp hfalls,hcommas]

/-- Both read the dataset alike exactly when the file gives the same columns at commas as at its
delimiter, or nothing at the delimiter, where the columns at commas have to be the placeholder's
if a table is asked for then, too. -/
theorem csv_readAlike_iff (format : CsvFormat) (name ns path : String) :
    (ReadsAlikeIfInferred format name ns path ↔
      FallsBack format path ∨ SameAtCommas format path) ∧
    (ReadsAlike format name ns path ↔ SameAtCommas format path ∨
      FallsBack format path ∧ ∃ bytes, DataFusion.openFile none path = .ok bytes ∧
        DataFusion.inferCsv { hasHeader := format.hasHeader } bytes = .ok placeholderSchema) := by
  refine ⟨readsAlikeIfInferred_iff,?_⟩
  rw [← inferCsvSchema_eq_ok]
  exact readsAlike_iff

/-- A dataset with the default delimiter is read alike. -/
theorem readsAlikeIfInferred_of_comma {format : CsvFormat} (hcomma : format.delimiter = ',')
    (name ns path : String) : ReadsAlikeIfInferred format name ns path := by
  rw [readsAlikeIfInferred_iff,or_iff_not_imp_left]
  intro hfalls
  have hd := inferCsvSchema_of_not_fallsBack name ns hfalls
  have hbyte : format.delimiterByte = 44 := by rw [CsvFormat.delimiterByte,hcomma]; rfl
  exact sameAtCommas_iff.mpr ⟨by rw [hcomma]; decide,_,hd,hbyte ▸ hd⟩

end

/-! ### Plain headers -/

section
variable {α : Type} [BEq α]

theorem length_splitOn (xs : List α) (a : α) : (xs.splitOn a).length = xs.count a + 1 := by
  induction xs with
  | nil => rfl
  | cons x xs ih =>
    rw [List.splitOn_cons_eq_if_modifyHead,List.count_cons]
    split_ifs with hx
    · rw [List.length_cons,ih]
    · rw [List.length_modifyHead,ih]

/-- Two separators split a list alike only if neither occurs. -/
theorem splitOn_eq_splitOn_iff [LawfulBEq α] {xs : List α} {a b : α} :
    xs.splitOn a = xs.splitOn b ↔ a = b ∨ a ∉ xs ∧ b ∉ xs := by
  constructor
  · intro h
    have ha : [a].intercalate (xs.splitOn a) = xs := List.intercalate_splitOn a
    have hb : [b].intercalate (xs.splitOn b) = xs := List.intercalate_splitOn b
    have hmema : ∀ part ∈ xs.splitOn a, a ∉ part := fun _ => not_mem_of_mem_splitOn
    have hmemb : ∀ part ∈ xs.splitOn b, b ∉ part := fun _ => not_mem_of_mem_splitOn
    rw [← h] at hb hmemb
    match hparts : xs.splitOn a with
    | [] => exact absurd hparts (List.splitOn_ne_nil a xs)
    | [part] =>
      rw [hparts] at ha hmema hmemb
      obtain rfl : part = xs := by simpa using ha
      exact .inr ⟨hmema part (by simp),hmemb part (by simp)⟩
    | part :: part' :: parts =>
      rw [hparts,List.intercalate_cons_cons,List.append_assoc] at ha hb
      have hrest := List.append_cancel_left (ha.trans hb.symm)
      exact .inl (List.cons.inj hrest).1
  · rintro (rfl | ⟨ha,hb⟩)
    · rfl
    · rw [List.splitOn_eq_singleton ha,List.splitOn_eq_singleton hb]

end

def firstLine (bytes : List UInt8) : List UInt8 := bytes.takeWhile fun b => b != 10 && b != 13

/-- A file begins with a line that is not blank, and has no quotes and no byte order mark. -/
structure Plain (bytes : List UInt8) : Prop where
  nonempty : firstLine bytes ≠ []
  noQuote : 34 ∉ firstLine bytes
  noMark : (firstLine bytes).head? ≠ some 239

section
variable [DataFusion]

/-- The columns of a plain file are the parts of its first line: their names, or just their
number. -/
structure SplitsAtDelimiter : Prop where
  names : ∀ delimiter bytes schema, delimiter ≠ 10 → delimiter ≠ 13 → Plain bytes →
    DataFusion.inferCsv ⟨true,delimiter⟩ bytes = .ok schema →
      schema.map (utf8 ·.name) = (firstLine bytes).splitOn delimiter
  number : ∀ delimiter bytes schema, delimiter ≠ 10 → delimiter ≠ 13 → Plain bytes →
    DataFusion.inferCsv ⟨false,delimiter⟩ bytes = .ok schema →
      schema.length = ((firstLine bytes).splitOn delimiter).length

omit [DataFusion] in
/-- The first line has the columns of the delimiter also at commas: neither is in a header, and
there are as many of both in a row. -/
def SplitsAlike (format : CsvFormat) (line : List UInt8) : Prop :=
  if format.hasHeader then format.delimiterByte ∉ line ∧ 44 ∉ line
  else line.count format.delimiterByte = line.count 44

/-- With another delimiter a plain file is read alike only if its first line is split alike. -/
theorem splitsAlike_of_readsAlike (hsplits : SplitsAtDelimiter) {format : CsvFormat}
    {name ns path : String} {bytes : List UInt8}
    (hfile : DataFusion.openFile none path = .ok bytes) (hplain : Plain bytes)
    (hlf : format.delimiterByte ≠ 10) (hcr : format.delimiterByte ≠ 13)
    (h : ReadsAlikeIfInferred format name ns path) : FallsBack format path ∨
      format.delimiterByte = 44 ∨ SplitsAlike format (firstLine bytes) := by
  refine (readsAlikeIfInferred_iff.mp h).imp_right ?_
  rintro ⟨-,bytes',schema,hfile',hd,hc⟩
  obtain rfl : bytes = bytes' := Except.ok.inj (hfile.symm.trans hfile')
  cases hheader : format.hasHeader with
  | true =>
    rw [hheader] at hd hc
    have hnames := hsplits.names _ _ _ hlf hcr hplain hd
    rw [hsplits.names 44 _ _ (by decide) (by decide) hplain hc] at hnames
    simpa [SplitsAlike,hheader] using splitOn_eq_splitOn_iff.mp hnames.symm
  | false =>
    rw [hheader] at hd hc
    have hnumber := hsplits.number _ _ _ hlf hcr hplain hd
    rw [hsplits.number 44 _ _ (by decide) (by decide) hplain hc,length_splitOn,
      length_splitOn] at hnumber
    right
    simp [SplitsAlike,hheader]
    omega

end

/-! ### A file with semicolons -/

/-- The names of the columns are the parts of the header, or counted. -/
def columnNames (hasHeader : Bool) (parts : List (List UInt8)) : List String :=
  if hasHeader then parts.map fun part => String.ofList (part.map fun b => .ofNat b.toNat)
  else (List.range parts.length).map fun i => "column_" ++ toString (i + 1)

/-- One file, whose columns are texts, with names in ASCII. -/
local instance peopleFile : DataFusion where
  connect _ := .ok ()
  openFile _ _ := .ok (utf8 "id;name\nA1;Alice\n")
  inferCsv opts bytes :=
    let parts := (firstLine bytes).splitOn opts.delimiter
    if parts.all (·.all (· < 128)) then
      .ok ((columnNames opts.hasHeader parts).map (⟨·,.utf8,true⟩))
    else .error "invalid header"
  inferParquet _ := .error "no Parquet file"
  resolve name := .ok ⟨"datafusion","public",name⟩
  resolves := ⟨"people",_,rfl⟩

theorem utf8_ofList {part : List UInt8} (h : part.all (· < 128) = true) :
    utf8 (String.ofList (part.map fun b => .ofNat b.toNat)) = part := by
  unfold utf8
  rw [String.toList_ofList,List.flatMap_map]
  induction part with
  | nil => rfl
  | cons b part ih =>
    rw [List.all_cons,Bool.and_eq_true] at h
    have hb : b.toNat < 128 := by simpa [UInt8.lt_iff_toNat_lt] using h.1
    have hvalid : b.toNat.isValidChar := .inl (by omega)
    have hnat : (Char.ofNat b.toNat).toNat = b.toNat := by
      rw [Char.ofNat,dif_pos hvalid]
      rfl
    have hchar : String.utf8EncodeChar (.ofNat b.toNat) = [b] := by
      rw [utf8EncodeChar_eq_singleton,hnat]
      exact ⟨hb,UInt8.ofNat_toNat.symm⟩
    rw [List.flatMap_cons,hchar,ih h.2,List.singleton_append]

theorem peopleFile_splits : SplitsAtDelimiter where
  names delimiter bytes schema _ _ _ h := by
    simp only [DataFusion.inferCsv] at h
    split_ifs at h with hascii
    obtain rfl := Except.ok.inj h
    rw [columnNames,if_pos rfl,List.map_map,List.map_map]
    refine (List.map_congr_left fun part hpart => ?_).trans (List.map_id _)
    exact utf8_ofList (List.all_eq_true.mp hascii part hpart)
  number delimiter bytes schema _ _ _ h := by
    simp only [DataFusion.inferCsv] at h
    split_ifs at h
    obtain rfl := Except.ok.inj h
    simp [columnNames]

/-- The coordinator registers two columns, and the executor has one, as both have with the default
delimiter; a delimiter beyond the bytes is cut to the semicolon. -/
theorem semicolons_read_apart :
    (inferSchema ⟨';',true⟩ (.csv "people" "crm" "people.csv") =
        [⟨"id",.utf8,true⟩,⟨"name",.utf8,true⟩] ∧
      inferCsvSchema "people.csv" true 44 = .ok [⟨"id;name",.utf8,true⟩]) ∧
    ¬ReadsAlikeIfInferred ⟨';',true⟩ "people" "crm" "people.csv" ∧
    ¬ReadsAlike ⟨';',true⟩ "people" "crm" "people.csv" ∧
    ReadsAlikeIfInferred ⟨',',true⟩ "people" "crm" "people.csv" ∧
    ¬ProbeSplits ⟨'Ļ',true⟩ "people" "crm" "people.csv" := by
  have hfalls : ¬FallsBack ⟨';',true⟩ "people.csv" := by
    rw [fallsBack_iff "people" "crm"]
    decide
  have hplain : Plain (utf8 "id;name\nA1;Alice\n") := ⟨by decide,by decide,by decide⟩
  have hapart : ¬ReadsAlikeIfInferred ⟨';',true⟩ "people" "crm" "people.csv" := by
    intro h
    rcases splitsAlike_of_readsAlike peopleFile_splits rfl hplain (by decide) (by decide) h with
      hnone | hcomma | halike
    · exact hfalls hnone
    · exact absurd hcomma (by decide)
    · exact absurd halike.1 (by decide)
  have hcut : ¬ProbeSplits ⟨'Ļ',true⟩ "people" "crm" "people.csv" := by
    rw [probeSplits_iff,fallsBack_iff "people" "crm"]
    decide
  exact ⟨by decide,hapart,fun h => hapart ⟨h.probe,.inr h.table⟩,
    readsAlikeIfInferred_of_comma rfl "people" "crm" "people.csv",hcut⟩

end CsvDatasets
end Elan
