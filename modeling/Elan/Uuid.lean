import Mathlib.Data.List.Basic
import Mathlib.Tactic

/-! Universally unique identifiers and their text forms, as policies, datasets and
audit events carry them through text columns and messages. -/
namespace Elan

/-- A 128-bit identifier, most significant hexadecimal digit first. -/
structure Uuid where
  digits : List (Fin 16)
  length_eq : digits.length = 32
  deriving DecidableEq

namespace Uuid

def hexChar (d : Fin 16) : Char := "0123456789abcdef".toList.getD d.val '0'

/-- Both cases of the letters are read. -/
def hexDigit (c : Char) : Option (Fin 16) :=
  (List.finRange 16).find? fun d => hexChar d = c.toLower

@[simp] theorem hexDigit_hexChar (d : Fin 16) : hexDigit (hexChar d) = some d := by
  revert d; decide

theorem mapM_hexDigit (ds : List (Fin 16)) : (ds.map hexChar).mapM hexDigit = some ds := by
  induction ds with
  | nil => rfl
  | cons d ds ih => simp [ih]

/-- Put a hyphen after each group of the given sizes. -/
def hyphenate : List ℕ → List Char → List Char
  | [], cs => cs
  | n :: ns, cs => cs.take n ++ '-' :: hyphenate ns (cs.drop n)

/-- Take the hyphens out again; each must stand exactly after its group. -/
def unhyphenate : List ℕ → List Char → Option (List Char)
  | [], cs => some cs
  | n :: ns, cs =>
    match cs.drop n with
    | '-' :: rest => (unhyphenate ns rest).map (cs.take n ++ ·)
    | _ => none

theorem unhyphenate_hyphenate (ns : List ℕ) (cs : List Char) (h : ns.sum ≤ cs.length) :
    unhyphenate ns (hyphenate ns cs) = some cs := by
  induction ns generalizing cs with
  | nil => rfl
  | cons n ns ih =>
    simp only [List.sum_cons] at h
    have hn : (cs.take n).length = n := by simp; omega
    have hdrop : (hyphenate (n :: ns) cs).drop n = '-' :: hyphenate ns (cs.drop n) := by
      rw [hyphenate,List.drop_append_of_le_length (by omega)]; simp
    have htake : (hyphenate (n :: ns) cs).take n = cs.take n := by
      rw [hyphenate,List.take_append_of_le_length (by omega)]; simp [hn]
    rw [unhyphenate,hdrop,htake]
    simp [ih (cs.drop n) (by simp; omega)]

theorem hyphenate_length (ns : List ℕ) (cs : List Char) :
    (hyphenate ns cs).length = cs.length + ns.length := by
  induction ns generalizing cs with
  | nil => simp [hyphenate]
  | cons n ns ih => simp [hyphenate,ih]; omega

def groups : List ℕ := [8,4,4,4]

def toString (u : Uuid) : String :=
  String.ofList (hyphenate groups (u.digits.map hexChar))

def parseSimple (cs : List Char) : Option Uuid :=
  match cs.mapM hexDigit with
  | some ds => if h : ds.length = 32 then some ⟨ds,h⟩ else none
  | none => none

def parseHyphenated (cs : List Char) : Option Uuid :=
  (unhyphenate groups cs).bind parseSimple

/-- The text forms that are read: bare digits, hyphenated, braced, and the URN. -/
def parseStr (s : String) : Option Uuid :=
  match s.toList.length with
  | 32 => parseSimple s.toList
  | 36 => parseHyphenated s.toList
  | 38 =>
    if s.toList.head? = some '{' ∧ s.toList.getLast? = some '}'
    then parseHyphenated s.toList.tail.dropLast else none
  | 45 =>
    if s.toList.take 9 = "urn:uuid:".toList then parseHyphenated (s.toList.drop 9) else none
  | _ => none

/-- What is written as text reads back as the same identifier. -/
@[simp] theorem parseStr_toString (u : Uuid) : parseStr u.toString = some u := by
  have hlen : (hyphenate groups (u.digits.map hexChar)).length = 36 := by
    rw [hyphenate_length,List.length_map,u.length_eq]; rfl
  have hun : unhyphenate groups (hyphenate groups (u.digits.map hexChar)) =
      some (u.digits.map hexChar) :=
    unhyphenate_hyphenate _ _ (by rw [List.length_map,u.length_eq]; decide)
  simp only [parseStr,toString,String.toList_ofList,hlen,parseHyphenated,hun,Option.bind_some,
    parseSimple,mapM_hexDigit,u.length_eq,dif_pos]

/-- The identifier whose digits are all zero but for the last two. -/
def ofByte (b : ℕ) : Uuid :=
  ⟨List.replicate 30 0 ++ [Fin.ofNat 16 (b / 16),Fin.ofNat 16 b],by simp⟩

end Uuid
end Elan
