import Elan.Catalog
import Elan.Endpoint
import Elan.StringMaps

/-! Derived serializers over JSON trees. A codec reads back what it writes; the fields of a record
are read in any order, among any others. -/
namespace Elan

/-- A writer, and a reader that takes back what is written of valid values. -/
structure Codec (α : Type) where
  serialize : α → JsonValue
  deserialize : JsonValue → Option α
  Valid : α → Prop
  deserialize_serialize : ∀ a, Valid a → deserialize (serialize a) = some a

/-- Entries of an object, by their names, that make up one value: a single field, or the fields of
a record. What is written is read in any order, and among any entries of other names. -/
structure Fields (names : List String) (α : Type) where
  write : α → List (String × JsonValue)
  read : List (String × JsonValue) → Option α
  Valid : α → Prop
  write_names : ∀ a, ∀ e ∈ write a, e.1 ∈ names
  read_of_perm : ∀ a, Valid a → ∀ es : List (String × JsonValue),
    (es.filter (·.1 ∈ names)).Perm (write a) → read es = some a

mutual
/-- A tree as a value that is not bound to a type: the entries of an object are sorted by their
names, and the last of a name is kept. -/
def JsonValue.toValue : JsonValue → JsonValue
  | .array items => .array (toValues items)
  | .object entries =>
    .object ((StringMap.collect (toValueEntries entries)).entries.insertionSort (·.1 ≤ ·.1))
  | v => v

def JsonValue.toValues : List JsonValue → List JsonValue
  | [] => []
  | v :: vs => v.toValue :: toValues vs

def JsonValue.toValueEntries : List (String × JsonValue) → List (String × JsonValue)
  | [] => []
  | e :: es => toValueEntry e :: toValueEntries es

def JsonValue.toValueEntry : String × JsonValue → String × JsonValue
  | (k,v) => (k,v.toValue)
end

namespace Codec

variable {α β : Type}

def string : Codec String where
  serialize := .string
  deserialize
    | .string s => some s
    | _ => none
  Valid _ := True
  deserialize_serialize _ _ := rfl

def text (print : α → String) (parse : String → Option α) (h : ∀ a, parse (print a) = some a) :
    Codec α where
  serialize a := .string (print a)
  deserialize
    | .string s => parse s
    | _ => none
  Valid _ := True
  deserialize_serialize a _ := h a

def uuid : Codec Uuid := text Uuid.toString Uuid.parseStr Uuid.parseStr_toString

/-- Unsigned numbers of `bits` bits; JSON writes fractions and signs that these do not have. -/
def unsigned (bits : ℕ) : Codec ℕ where
  serialize n := .number (toString n)
  deserialize
    | .number s =>
      if s.toList.all Char.isDigit && decide (Nat.ofDigitChars 10 s.toList 0 < 2 ^ bits) then
        some (Nat.ofDigitChars 10 s.toList 0)
      else none
    | _ => none
  Valid n := n < 2 ^ bits
  deserialize_serialize n hn := by
    have hvalue : Nat.ofDigitChars 10 (Nat.toDigits 10 n) 0 = n := Nat.ofDigitChars_ten_toDigits
    have hdigits : (Nat.toDigits 10 n).all Char.isDigit = true :=
      List.all_eq_true.mpr fun c hc => Nat.isDigit_of_mem_toDigits (by decide) (by decide) hc
    simp [hvalue,hdigits,hn]

def option (c : Codec α) : Codec (Option α) where
  serialize
    | none => .null
    | some a => c.serialize a
  deserialize
    | .null => some none
    | v => (c.deserialize v).map some
  Valid o := ∀ a ∈ o, c.Valid a ∧ c.serialize a ≠ .null
  deserialize_serialize o h := by
    cases o with
    | none => rfl
    | some a =>
      obtain ⟨hvalid,hnull⟩ := h a rfl
      have hread := c.deserialize_serialize a hvalid
      split
      · rename_i hv
        exact absurd hv hnull
      · simp [hread]

theorem mapM_deserialize (c : Codec α) {as : List α} (h : ∀ a ∈ as, c.Valid a) :
    (as.map c.serialize).mapM c.deserialize = some as := by
  induction as with
  | nil => rfl
  | cons a as ih =>
    rw [List.forall_mem_cons] at h
    simp [c.deserialize_serialize a h.1,ih h.2]

def list (c : Codec α) : Codec (List α) where
  serialize as := .array (as.map c.serialize)
  deserialize
    | .array vs => vs.mapM c.deserialize
    | _ => none
  Valid as := ∀ a ∈ as, c.Valid a
  deserialize_serialize _ h := c.mapM_deserialize h

/-- Trees that are read as values: the entries of an object become a map. -/
def value : Codec JsonValue where
  serialize := id
  deserialize v := some v.toValue
  Valid v := v.toValue = v
  deserialize_serialize _ h := congrArg some h

end Codec

namespace Fields

variable {ms ns : List String} {α β : Type}

def occurrences (name : String) (es : List (String × JsonValue)) : List JsonValue :=
  (es.filter (·.1 = name)).map Prod.snd

theorem occurrences_of_perm {name : String} {es : List (String × JsonValue)}
    {ws : List (String × JsonValue)} (h : (es.filter (·.1 ∈ [name])).Perm ws) {v : JsonValue}
    (hws : ws = [(name,v)]) : occurrences name es = [v] := by
  rw [hws,List.perm_singleton] at h
  have hfilter : es.filter (·.1 = name) = es.filter (·.1 ∈ [name]) := by simp
  rw [occurrences,hfilter,h]
  rfl

/-- A field that has to be there, once. -/
def field (name : String) (c : Codec α) : Fields [name] α where
  write a := [(name,c.serialize a)]
  read es :=
    match occurrences name es with
    | [v] => c.deserialize v
    | _ => none
  Valid := c.Valid
  write_names a := by simp
  read_of_perm a ha es h := by
    rw [occurrences_of_perm h rfl]
    exact c.deserialize_serialize a ha

/-- A field of an optional value, which may be left out. -/
def optional (name : String) (c : Codec α) : Fields [name] (Option α) where
  write o := [(name,c.option.serialize o)]
  read es :=
    match occurrences name es with
    | [] => some none
    | [v] => c.option.deserialize v
    | _ => none
  Valid := c.option.Valid
  write_names a := by simp
  read_of_perm o ho es h := by
    rw [occurrences_of_perm h rfl]
    exact c.option.deserialize_serialize o ho

theorem perm_of_subset (hsub : ∀ n ∈ ms, n ∈ ns) {es ws : List (String × JsonValue)}
    (h : (es.filter (·.1 ∈ ns)).Perm ws) :
    (es.filter (·.1 ∈ ms)).Perm (ws.filter (·.1 ∈ ms)) := by
  have hfilter := h.filter (·.1 ∈ ms)
  rw [List.filter_filter] at hfilter
  convert hfilter using 2
  funext e
  by_cases he : e.1 ∈ ms
  · simp [he,hsub _ he]
  · simp [he]

theorem filter_write (f : Fields ns α) (a : α) : (f.write a).filter (·.1 ∈ ns) = f.write a :=
  List.filter_eq_self.mpr fun e he => by simpa using f.write_names a e he

theorem filter_write_of_disjoint (f : Fields ns α) (hdisjoint : ∀ n ∈ ms, n ∉ ns) (a : α) :
    (f.write a).filter (·.1 ∈ ms) = [] :=
  List.filter_eq_nil_iff.mpr fun e he => by
    simpa using fun hmem => hdisjoint e.1 hmem (f.write_names a e he)

def both (f : Fields ms α) (g : Fields ns β) (hdisjoint : ∀ n ∈ ms, n ∉ ns := by decide) :
    Fields (ms ++ ns) (α × β) where
  write p := f.write p.1 ++ g.write p.2
  read es := do
    let a ← f.read es
    let b ← g.read es
    return (a,b)
  Valid p := f.Valid p.1 ∧ g.Valid p.2
  write_names p e he := by
    rcases List.mem_append.mp he with he | he
    · exact List.mem_append_left _ (f.write_names p.1 e he)
    · exact List.mem_append_right _ (g.write_names p.2 e he)
  read_of_perm p hp es h := by
    have hf : (es.filter (·.1 ∈ ms)).Perm (f.write p.1) := by
      have hperm := perm_of_subset (fun n hn => List.mem_append_left ns hn) h
      rwa [List.filter_append,filter_write,filter_write_of_disjoint g hdisjoint,
        List.append_nil] at hperm
    have hg : (es.filter (·.1 ∈ ns)).Perm (g.write p.2) := by
      have hperm := perm_of_subset (fun n hn => List.mem_append_right ms hn) h
      have hother : ∀ n ∈ ns, n ∉ ms := fun n hg hf => hdisjoint n hf hg
      rwa [List.filter_append,filter_write,filter_write_of_disjoint f hother,
        List.nil_append] at hperm
    simp [f.read_of_perm _ hp.1 es hf,g.read_of_perm _ hp.2 es hg]

/-- The fields of a type by those of what it is made from. -/
def map (f : Fields ns α) (make : α → β) (parts : β → α) (h : ∀ b, make (parts b) = b) :
    Fields ns β where
  write b := f.write (parts b)
  read es := (f.read es).map make
  Valid b := f.Valid (parts b)
  write_names b := f.write_names (parts b)
  read_of_perm b hb es hperm := by
    rw [f.read_of_perm (parts b) hb es hperm,Option.map_some,h]

/-- An adjacently tagged enumeration: the name of the variant under `tag`, its value under
`content`. -/
def tagged (tag content : String) (htag : tag ≠ content) (variant : α → String)
    (serialize : α → JsonValue) (deserialize : String → JsonValue → Option α) (Valid : α → Prop)
    (h : ∀ a, Valid a → deserialize (variant a) (serialize a) = some a) :
    Fields [tag,content] α where
  write a := [(tag,.string (variant a)),(content,serialize a)]
  read es :=
    match occurrences tag es,occurrences content es with
    | [.string name],[v] => deserialize name v
    | _,_ => none
  Valid := Valid
  write_names a := by simp
  read_of_perm a ha es hperm := by
    have htags : occurrences tag es = [.string (variant a)] :=
      occurrences_of_perm (perm_of_subset (by simp) hperm) (by simp [htag.symm])
    have hcontents : occurrences content es = [serialize a] :=
      occurrences_of_perm (perm_of_subset (by simp) hperm) (by simp [htag])
    rw [htags,hcontents]
    exact h a ha

/-- A record as an object. Derived readers also take an array of the values in the order of the
fields; that form is never written, and is left out here. -/
def object (f : Fields ns α) : Codec α where
  serialize a := .object (f.write a)
  deserialize
    | .object es => f.read es
    | _ => none
  Valid := f.Valid
  deserialize_serialize a ha := f.read_of_perm a ha _ (by rw [filter_write])

end Fields

namespace Codec

variable {α : Type}

theorem mapM_entries (c : Codec α) {es : List (String × α)} (h : ∀ e ∈ es, c.Valid e.2) :
    (es.map fun e => (e.1,c.serialize e.2)).mapM (fun e => (c.deserialize e.2).map (e.1,·)) =
      some es := by
  induction es with
  | nil => rfl
  | cons e es ih =>
    rw [List.forall_mem_cons] at h
    rw [List.map_cons,List.mapM_cons,c.deserialize_serialize e.2 h.1,ih h.2]
    rfl

/-- Maps with text keys, as objects; the last entry of a key counts. -/
def stringMap (c : Codec α) : Codec (StringMap α) where
  serialize m := .object (m.entries.map fun e => (e.1,c.serialize e.2))
  deserialize
    | .object es => (es.mapM fun e => (c.deserialize e.2).map (e.1,·)).map StringMap.collect
    | _ => none
  Valid m := ∀ e ∈ m.entries, c.Valid e.2
  deserialize_serialize m h := by
    simp only [c.mapM_entries h,Option.map_some,StringMap.collect_entries]

end Codec

/-! ### A printer -/

mutual
/-- The text of a tree whose strings need no escapes. -/
def JsonValue.compact : JsonValue → String
  | .null => "null"
  | .bool b => if b then "true" else "false"
  | .number text => text
  | .string s => "\"" ++ s ++ "\""
  | .array items => "[" ++ ",".intercalate (compactItems items) ++ "]"
  | .object entries => "\x7b" ++ ",".intercalate (compactEntries entries) ++ "\x7d"

def JsonValue.compactItems : List JsonValue → List String
  | [] => []
  | v :: vs => v.compact :: compactItems vs

def JsonValue.compactEntries : List (String × JsonValue) → List String
  | [] => []
  | e :: es => compactEntry e :: compactEntries es

def JsonValue.compactEntry : String × JsonValue → String
  | (k,v) => "\"" ++ k ++ "\":" ++ v.compact
end

/-- The printer, for documents that are not read. -/
@[reducible] def compactJson : JsonText := ⟨fun _ => none,JsonValue.compact⟩

end Elan
