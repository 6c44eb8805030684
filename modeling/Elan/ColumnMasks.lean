import Elan.IamSvc

/-! Column masks from the text of a policy to the answer of an access check: which of the columns
that the text names are masked. -/
namespace Elan

/-- Writing a JSON object of strings; the encoder is not part of the program. -/
class SerdeJsonWriter where
  toString : StringMap String → Option String

/-- The text written for a map reads back as the map, whatever the order of its entries. -/
def ReadsBack [SerdeJson] [SerdeJsonWriter] (m : StringMap String) : Prop :=
  ∃ text m', SerdeJsonWriter.toString m = some text ∧ SerdeJson.fromStr text = some m' ∧
    m'.entries.Perm m.entries

def StringMap.map {V W : Type} (f : V → W) (m : StringMap V) : StringMap W where
  entries := m.entries.map fun e => (e.1,f e.2)
  nodup := by
    rw [List.map_map]
    exact m.nodup

def MaskKind.text : MaskKind → String
  | .redact => "REDACT"
  | .sha256 => "SHA256"

structure AccessRequest where
  userId : String
  groups : List String
  ns : String
  dataset : String
  action : String
  deriving DecidableEq

/-- A decision as responses carry it; an absent text is empty. -/
structure ProtoDecision where
  allowed : Bool
  reason : String
  rowFilter : String
  columnMaskJson : String
  deriving DecidableEq

def ProtoDecision.ofDecision [SerdeJsonWriter] : AccessDecision → ProtoDecision
  | .allow rowFilter columnMask =>
    { allowed := true
      reason := ""
      rowFilter := rowFilter.getD ""
      columnMaskJson := (columnMask.map fun m =>
        (SerdeJsonWriter.toString (m.map MaskKind.text)).getD "").getD "" }
  | .deny reason => ⟨false,reason,"",""⟩

def AccessRequest.subject (req : AccessRequest) : Subject := ⟨req.userId,req.groups⟩

def AccessRequest.resource (req : AccessRequest) : ResourceId := ⟨req.ns,req.dataset⟩

def IamSvc.checkAccess [SerdeJson] [SerdeJsonWriter] (svc : IamSvc) (req : AccessRequest) :
    ProtoDecision :=
  .ofDecision (svc.engine.check req.subject req.resource req.action)

namespace ColumnMasks

section
variable [SerdeJson]

/-- The columns a text names: any reading of texts under which the keys of an object of strings
are its columns. -/
structure Naming where
  Names : String → String → Prop
  names_object : ∀ text m, SerdeJson.fromStr text = some m →
    ∀ column, Names text column ↔ column ∈ m.entries.map Prod.fst

/-- The decision denies, or masks every column that the text names. -/
def Masked (naming : Naming) (text : String) : AccessDecision → Prop
  | .allow _ columnMask => ∀ column, naming.Names text column →
      ∃ m, columnMask = some m ∧ column ∈ m.entries.map Prod.fst
  | .deny _ => True

/-- The response denies, or carries the text of a mask for every column that the text names. -/
def MaskedResponse (naming : Naming) (text : String) (d : ProtoDecision) : Prop :=
  d.allowed = true → ∀ column, naming.Names text column →
    ∃ m, SerdeJson.fromStr d.columnMaskJson = some m ∧
      ∃ kind : MaskKind, (column,kind.text) ∈ m.entries

/-- The text is an object whose values are all mask kinds. -/
def WellFormed (text : String) : Prop :=
  ∃ m, SerdeJson.fromStr text = some m ∧ ∀ e ∈ m.entries, e.2 = "REDACT" ∨ e.2 = "SHA256"

omit [SerdeJson] in
theorem maskKind_eq_some {text : String} {kind : MaskKind} :
    maskKind text = some kind ↔ text = kind.text := by
  unfold maskKind
  constructor
  · intro h
    split at h <;> cases h <;> rfl
  · rintro rfl
    cases kind <;> rfl

omit [SerdeJson] in
theorem exists_kind {text : String} :
    (∃ kind : MaskKind, text = kind.text) ↔ text = "REDACT" ∨ text = "SHA256" := by
  constructor
  · rintro ⟨_ | _,rfl⟩
    · exact .inl rfl
    · exact .inr rfl
  · rintro (rfl | rfl)
    · exact ⟨.redact,rfl⟩
    · exact ⟨.sha256,rfl⟩

omit [SerdeJson] in
theorem mem_filterMap_maskKind {m : StringMap String} {column : String} {kind : MaskKind} :
    (column,kind) ∈ (m.filterMap maskKind).entries ↔ (column,kind.text) ∈ m.entries := by
  simp only [StringMap.filterMap,List.mem_filterMap,Option.map_eq_some_iff,maskKind_eq_some,
    Prod.mk.injEq]
  constructor
  · rintro ⟨⟨_,_⟩,he,kind',rfl,rfl,rfl⟩
    exact he
  · intro h
    exact ⟨_,h,kind,rfl,rfl,rfl⟩

omit [SerdeJson] in
/-- Keys are unique, so all of them have a mask kind exactly when all entries do. -/
theorem keys_filterMap_iff {m : StringMap String} :
    (∀ column ∈ m.entries.map Prod.fst, column ∈ (m.filterMap maskKind).entries.map Prod.fst) ↔
      ∀ e ∈ m.entries, e.2 = "REDACT" ∨ e.2 = "SHA256" := by
  constructor
  · intro h e he
    obtain ⟨⟨column,kind⟩,hkept,hcolumn⟩ := List.mem_map.mp (h e.1 (List.mem_map.mpr ⟨e,he,rfl⟩))
    have hentry := mem_filterMap_maskKind.mp hkept
    have hsame : e = (column,kind.text) := List.inj_on_of_nodup_map m.nodup he hentry hcolumn.symm
    exact exists_kind.mp ⟨kind,by rw [hsame]⟩
  · intro h column hcolumn
    obtain ⟨e,he,rfl⟩ := List.mem_map.mp hcolumn
    obtain ⟨kind,hkind⟩ := exists_kind.mpr (h e he)
    have hentry : (e.1,kind.text) ∈ m.entries := hkind ▸ he
    exact List.mem_map.mpr ⟨(e.1,kind),mem_filterMap_maskKind.mpr hentry,rfl⟩

/-- The mask read from a text covers the columns the text names exactly when the text is well
formed, or names none. -/
theorem masked_iff (naming : Naming) (text : String) (rowFilter : Option String) :
    Masked naming text (.allow rowFilter (parseColumnMask text)) ↔
      WellFormed text ∨ ∀ column, ¬ naming.Names text column := by
  unfold Masked parseColumnMask WellFormed
  cases hread : SerdeJson.fromStr text with
  | none => simp
  | some m =>
    simp only [Option.map_some,Option.some.injEq,exists_eq_left',
      naming.names_object text m hread]
    rw [keys_filterMap_iff,or_iff_left_of_imp]
    intro hnone e he
    exact absurd (List.mem_map.mpr ⟨e,he,rfl⟩) (hnone e.1)

/-- What is written of a mask that covers the columns covers them when it is read. -/
theorem maskedResponse_of_masked [SerdeJsonWriter] {naming : Naming} {text : String}
    {d : AccessDecision} (h : Masked naming text d) (hprint : ∀ rowFilter m,
      d = .allow rowFilter (some m) → ReadsBack (m.map MaskKind.text)) :
    MaskedResponse naming text (.ofDecision d) := by
  intro hallowed column hnames
  cases d with
  | deny reason => cases hallowed
  | allow rowFilter columnMask =>
    obtain ⟨m,rfl,hcolumn⟩ := h column hnames
    obtain ⟨written,m',hwrite,hread,hperm⟩ := hprint rowFilter m rfl
    obtain ⟨⟨_,kind⟩,he,rfl⟩ := List.mem_map.mp hcolumn
    refine ⟨m',by simp [ProtoDecision.ofDecision,hwrite,hread],kind,?_⟩
    exact hperm.mem_iff.mpr (List.mem_map.mpr ⟨_,he,rfl⟩)

/-- Neither the decision nor the response leaves a column unmasked that the text names. -/
def FailsClosed [SerdeJsonWriter] (naming : Naming) (svc : IamSvc) (req : AccessRequest)
    (text : String) : Prop :=
  Masked naming text (svc.engine.check req.subject req.resource req.action) ∧
    MaskedResponse naming text (svc.checkAccess req)

theorem check_of_winner {e : SnapshotIamEngine} {s : Subject} {r : ResourceId} {action : String}
    {p : Policy} {text : String} (hwinner : (e.matching s r action).head? = some p)
    (hallow : p.effect = .allow) (htext : p.columnMaskJson = some text) :
    e.check s r action = .allow p.rowFilter (parseColumnMask text) := by
  simp [SnapshotIamEngine.check,hwinner,hallow,Policy.columnMask,htext]

/-- The mask of the policy that decides fails closed exactly when its text is well formed, or
names no column. -/
theorem failsClosed_iff [SerdeJsonWriter] (naming : Naming) {svc : IamSvc} {req : AccessRequest}
    {p : Policy} {text : String}
    (hwinner : (svc.engine.matching req.subject req.resource req.action).head? = some p)
    (hallow : p.effect = .allow) (htext : p.columnMaskJson = some text)
    (hprint : ∀ m, parseColumnMask text = some m → ReadsBack (m.map MaskKind.text)) :
    FailsClosed naming svc req text ↔
      WellFormed text ∨ ∀ column, ¬ naming.Names text column := by
  have hcheck := check_of_winner hwinner hallow htext
  unfold FailsClosed IamSvc.checkAccess
  rw [hcheck,← masked_iff naming text p.rowFilter]
  refine and_iff_left_of_imp fun hmasked => maskedResponse_of_masked hmasked ?_
  intro rowFilter m hm
  exact hprint m (AccessDecision.allow.inj hm).2

end

/-! ### Two texts -/

section
def redacted : StringMap String := ⟨[("ssn","REDACT")],by decide⟩

def hashed : StringMap String := ⟨[("ssn","HASH")],by decide⟩

local instance twoObjects : SerdeJson where
  fromStr text :=
    if text = "\x7b\"ssn\":\"REDACT\"\x7d" then some redacted
    else if text = "\x7b\"ssn\":\"HASH\"\x7d" then some hashed else none

local instance twoTexts : SerdeJsonWriter where
  toString m :=
    if m = redacted then some "\x7b\"ssn\":\"REDACT\"\x7d"
    else if m = hashed then some "\x7b\"ssn\":\"HASH\"\x7d" else some "\x7b\x7d"

def keysOnly : Naming where
  Names text column := ∃ m, SerdeJson.fromStr text = some m ∧ column ∈ m.entries.map Prod.fst
  names_object text m hread column := by simp [hread]

def maskedService (text : String) : IamSvc :=
  ⟨.seed,⟨[⟨.ofByte 1,"*",.user,"hr.staff","SELECT",.allow,none,some text,0⟩]⟩⟩

def staffRequest : AccessRequest := ⟨"alice",[],"hr","staff","SELECT"⟩

theorem failsClosed_redacted : FailsClosed keysOnly (maskedService "\x7b\"ssn\":\"REDACT\"\x7d")
    staffRequest "\x7b\"ssn\":\"REDACT\"\x7d" := by
  refine (failsClosed_iff keysOnly rfl rfl rfl ?_).mpr (.inl ⟨redacted,rfl,by decide⟩)
  intro m hm
  obtain rfl := Option.some.inj hm
  exact ⟨_,redacted,rfl,rfl,.refl _⟩

/-- A mask kind that the engine does not know leaves its column unmasked. -/
theorem hashed_column_unmasked : ¬ ∀ (naming : Naming) (svc : IamSvc) (req : AccessRequest)
    (p : Policy) (text : String),
    (svc.engine.matching req.subject req.resource req.action).head? = some p →
    p.effect = .allow → p.columnMaskJson = some text →
      Masked naming text (svc.engine.check req.subject req.resource req.action) := by
  intro h
  have hmasked := h keysOnly (maskedService "\x7b\"ssn\":\"HASH\"\x7d") staffRequest _
    "\x7b\"ssn\":\"HASH\"\x7d" rfl rfl rfl "ssn" ⟨hashed,rfl,by decide⟩
  obtain ⟨m,hm,hcolumn⟩ := hmasked
  obtain rfl := Option.some.inj hm
  exact absurd hcolumn (by decide)

end
end ColumnMasks
end Elan
