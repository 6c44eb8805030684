import Mathlib.Data.List.TakeWhile
import Mathlib.Tactic

/-! Executor endpoints: splitting `host:port` and deriving the port of the HTTP service. -/
namespace Elan

inductive ParseIntError
  | empty | invalidDigit | posOverflow
  deriving DecidableEq

def ParseIntError.toString : ParseIntError → String
  | .empty => "cannot parse integer from empty string"
  | .invalidDigit => "invalid digit found in string"
  | .posOverflow => "number too large to fit in target type"

/-- Errors a scan can end in; `panic` is a trap of the arithmetic checks. -/
inductive DataFusionError
  | plan (message : String)
  | external (message : String)
  | panic
  deriving DecidableEq

def decimalDigit (c : Char) : Option ℕ :=
  if c.isDigit then some (c.toNat - '0'.toNat) else none

/-- Read decimal digits after those already worth `acc`, within 16 bits. -/
def parseDigits (acc : ℕ) : List Char → Except ParseIntError ℕ
  | [] => .ok acc
  | c :: cs =>
    match decimalDigit c with
    | none => .error .invalidDigit
    | some d => if 2^16 ≤ acc*10+d then .error .posOverflow else parseDigits (acc*10+d) cs

def parseU16 (s : String) : Except ParseIntError UInt16 :=
  match s.toList with
  | [] => .error .empty
  | ['+'] | ['-'] => .error .invalidDigit
  | '+' :: cs => (parseDigits 0 cs).map UInt16.ofNat
  | cs => (parseDigits 0 cs).map UInt16.ofNat

/-- The text before and after the last `sep`, if there is one. -/
def rsplitOnce (sep : Char) (s : String) : Option (String × String) :=
  let after := (s.toList.reverse.takeWhile (· ≠ sep)).reverse
  match s.toList.reverse.dropWhile (· ≠ sep) with
  | [] => none
  | _ :: before => some (String.ofList before.reverse,String.ofList after)

/-- Split an endpoint at its last colon into host and port. -/
def parseEndpoint (endpoint : String) : Except DataFusionError (String × UInt16) :=
  match rsplitOnce ':' endpoint with
  | none => .error (.plan ("invalid executor endpoint: " ++ endpoint))
  | some (host,port) =>
    match parseU16 port with
    | .error e => .error (.plan ("invalid port in endpoint: " ++ e.toString))
    | .ok port => .ok (host,port)

/-- Addition of 16-bit numbers: an overflow traps in builds that check for it and wraps
around in the others. -/
def addU16 (overflowChecks : Bool) (a b : UInt16) : Except DataFusionError UInt16 :=
  if overflowChecks && decide (2^16 ≤ a.toNat + b.toNat) then .error .panic else .ok (a + b)

/-- Where a query is posted: the port after the one of the endpoint. -/
def executorUrl (overflowChecks : Bool) (endpoint : String) : Except DataFusionError String := do
  let (host,ballistaPort) ← parseEndpoint endpoint
  let httpPort ← addU16 overflowChecks ballistaPort 1
  .ok ("http://" ++ host ++ ":" ++ toString httpPort.toNat ++ "/sql")

/-! ### What is accepted -/

theorem rsplitOnce_eq_some {sep : Char} {s a b : String} :
    rsplitOnce sep s = some (a,b) ↔ s.toList = a.toList ++ sep :: b.toList ∧ sep ∉ b.toList := by
  unfold rsplitOnce
  constructor
  · intro h
    split at h
    · cases h
    · rename_i x before hdrop
      obtain ⟨rfl,rfl⟩ := Prod.mk.inj (Option.some.inj h)
      have hx : x = sep := by
        have hhead := List.head?_dropWhile_not (· ≠ sep) s.toList.reverse
        rw [hdrop] at hhead
        simpa using hhead
      have hsplit := List.takeWhile_append_dropWhile (p := (· ≠ sep)) (l := s.toList.reverse)
      rw [hdrop,hx] at hsplit
      have hlist := congrArg List.reverse hsplit
      rw [List.reverse_reverse] at hlist
      refine ⟨?_,?_⟩
      · simpa using hlist.symm
      · intro hmem
        rw [String.toList_ofList,List.mem_reverse] at hmem
        simpa using List.mem_takeWhile_imp hmem
  · rintro ⟨hs,hb⟩
    have hrev : s.toList.reverse = b.toList.reverse ++ sep :: a.toList.reverse := by simp [hs]
    have hne : ∀ c ∈ b.toList.reverse, decide (c ≠ sep) = true := by
      intro c hc
      have hcb : c ∈ b.toList := List.mem_reverse.mp hc
      simpa using fun h : c = sep => hb (h ▸ hcb)
    rw [hrev,List.takeWhile_append_of_pos hne,List.dropWhile_append_of_pos hne]
    simp

def IsDecimal (text : String) (n : ℕ) : Prop :=
  ∃ digits : List Char, digits ≠ [] ∧ (∀ c ∈ digits, c.isDigit = true) ∧
    Nat.ofDigitChars 10 digits 0 = n ∧ (text.toList = digits ∨ text.toList = '+' :: digits)

theorem le_ofDigitChars (acc : ℕ) (cs : List Char) : acc ≤ Nat.ofDigitChars 10 cs acc := by
  induction cs generalizing acc with
  | nil => simp
  | cons c cs ih =>
    rw [Nat.ofDigitChars_cons]
    exact le_trans (by omega) (ih _)

theorem parseDigits_eq_ok {acc n : ℕ} {cs : List Char} (hacc : acc < 2 ^ 16) :
    parseDigits acc cs = .ok n ↔
      (∀ c ∈ cs, c.isDigit = true) ∧ Nat.ofDigitChars 10 cs acc = n ∧ n < 2 ^ 16 := by
  induction cs generalizing acc with
  | nil =>
    simp only [parseDigits,Except.ok.injEq,Nat.ofDigitChars_nil]
    constructor
    · rintro rfl
      exact ⟨by simp,rfl,hacc⟩
    · exact fun h => h.2.1
  | cons c cs ih =>
    rw [parseDigits,Nat.ofDigitChars_cons,List.forall_mem_cons]
    unfold decimalDigit
    by_cases hc : c.isDigit = true
    · simp only [hc,if_true,true_and]
      rw [Nat.mul_comm acc 10]
      split_ifs with hlarge
      · have hle := le_ofDigitChars (10 * acc + (c.toNat - '0'.toNat)) cs
        refine iff_of_false (by simp) ?_
        rintro ⟨-,hvalue,hn⟩
        omega
      · exact ih (not_le.mp hlarge)
    · simp [hc]

theorem map_ofNat_eq_ok {r : Except ParseIntError ℕ} {p : UInt16}
    (hr : ∀ n, r = .ok n → n < 2 ^ 16) :
    r.map UInt16.ofNat = .ok p ↔ r = .ok p.toNat := by
  cases r with
  | error e => simp [Except.map]
  | ok n =>
    have hn := hr n rfl
    simp only [Except.map,Except.ok.injEq]
    constructor
    · rintro rfl
      exact (UInt16.toNat_ofNat_of_lt' hn).symm
    · rintro rfl
      exact UInt16.ofNat_toNat

theorem isDecimal_plus {s : String} {cs : List Char} {n : ℕ} (hs : s.toList = '+' :: cs) :
    IsDecimal s n ↔ cs ≠ [] ∧ (∀ c ∈ cs, c.isDigit = true) ∧ Nat.ofDigitChars 10 cs 0 = n := by
  constructor
  · rintro ⟨digits,hne,hdigits,hvalue,htext | htext⟩
    · have hplus := hdigits '+' (by rw [← htext,hs]; simp)
      exact absurd hplus (by decide)
    · obtain rfl : cs = digits := (List.cons.inj (hs.symm.trans htext)).2
      exact ⟨hne,hdigits,hvalue⟩
  · rintro ⟨hne,hdigits,hvalue⟩
    exact ⟨cs,hne,hdigits,hvalue,.inr hs⟩

theorem isDecimal_unsigned {s : String} {n : ℕ} (hs : ∀ cs, s.toList ≠ '+' :: cs) :
    IsDecimal s n ↔ s.toList ≠ [] ∧ (∀ c ∈ s.toList, c.isDigit = true) ∧
      Nat.ofDigitChars 10 s.toList 0 = n := by
  constructor
  · rintro ⟨digits,hne,hdigits,hvalue,htext | htext⟩
    · exact htext ▸ ⟨hne,hdigits,hvalue⟩
    · exact absurd htext (hs digits)
  · rintro ⟨hne,hdigits,hvalue⟩
    exact ⟨s.toList,hne,hdigits,hvalue,.inl rfl⟩

theorem parseU16_eq_ok {s : String} {p : UInt16} :
    parseU16 s = .ok p ↔ IsDecimal s p.toNat := by
  have hparse (cs : List Char) : (parseDigits 0 cs).map UInt16.ofNat = .ok p ↔
      (∀ c ∈ cs, c.isDigit = true) ∧ Nat.ofDigitChars 10 cs 0 = p.toNat := by
    rw [map_ofNat_eq_ok fun n hn => ((parseDigits_eq_ok (by decide)).mp hn).2.2,
      parseDigits_eq_ok (by decide)]
    have hp := p.toNat_lt
    tauto
  unfold parseU16
  split
  · rename_i hs
    rw [isDecimal_unsigned (by simp [hs])]
    simp [hs]
  · rename_i hs
    rw [isDecimal_plus hs]
    simp
  · rename_i hs
    rw [isDecimal_unsigned (by simp [hs]),hs]
    simp
  · rename_i cs hne hs
    rw [isDecimal_plus hs,hparse,and_iff_right hne]
  · rename_i hempty _ _ hplus
    rw [isDecimal_unsigned hplus,hparse,and_iff_right hempty]

/-- A printed number is decimal, and without a sign. -/
theorem toString_digits (n : ℕ) : (toString n).toList ≠ [] ∧
    (∀ c ∈ (toString n).toList, c.isDigit = true) ∧
      Nat.ofDigitChars 10 (toString n).toList 0 = n := by
  rw [Nat.toString_eq_repr,Nat.toList_repr]
  exact ⟨Nat.toDigits_ne_nil,fun c hc => Nat.isDigit_of_mem_toDigits (by omega) le_rfl hc,
    Nat.ofDigitChars_ten_toDigits⟩

theorem isDecimal_toString (n : ℕ) : IsDecimal (toString n) n := by
  obtain ⟨hne,hdigits,hvalue⟩ := toString_digits n
  exact ⟨_,hne,hdigits,hvalue,.inl rfl⟩

theorem IsDecimal.not_mem_colon {text : String} {n : ℕ} (h : IsDecimal text n) :
    ':' ∉ text.toList := by
  obtain ⟨digits,-,hdigits,-,htext | htext⟩ := h
  · intro hmem
    exact absurd (hdigits ':' (htext ▸ hmem)) (by decide)
  · intro hmem
    rw [htext,List.mem_cons] at hmem
    exact absurd (hdigits ':' (hmem.resolve_left (by decide))) (by decide)

/-- The host is what stands before the last colon, and the port the decimal number after it. -/
theorem parseEndpoint_eq_ok {endpoint host : String} {p : UInt16} :
    parseEndpoint endpoint = .ok (host,p) ↔
      ∃ port, endpoint = host ++ ":" ++ port ∧ IsDecimal port p.toNat := by
  have hsplit (port : String) : endpoint = host ++ ":" ++ port ↔
      endpoint.toList = host.toList ++ ':' :: port.toList := by
    rw [← String.toList_inj]
    simp [String.toList_append]
  unfold parseEndpoint
  constructor
  · intro h
    split at h
    · cases h
    · rename_i a port hport
      split at h
      · cases h
      · rename_i q hq
        obtain ⟨rfl,rfl⟩ := Prod.mk.inj (Except.ok.inj h)
        exact ⟨port,(hsplit port).mpr (rsplitOnce_eq_some.mp hport).1,parseU16_eq_ok.mp hq⟩
  · rintro ⟨port,hendpoint,hport⟩
    have hrsplit : rsplitOnce ':' endpoint = some (host,port) :=
      rsplitOnce_eq_some.mpr ⟨(hsplit port).mp hendpoint,hport.not_mem_colon⟩
    simp only [hrsplit,parseU16_eq_ok.mpr hport]

theorem parseEndpoint_append (host : String) (p : UInt16) :
    parseEndpoint (host ++ ":" ++ toString p.toNat) = .ok (host,p) :=
  parseEndpoint_eq_ok.mpr ⟨_,rfl,isDecimal_toString p.toNat⟩

theorem addU16_one_iff (overflowChecks : Bool) {p : UInt16} :
    (∃ q, addU16 overflowChecks p 1 = .ok q ∧ q.toNat = p.toNat + 1) ↔ p.toNat ≠ 65535 := by
  have hp := p.toNat_lt
  constructor
  · rintro ⟨q,-,hq⟩
    have hlt := q.toNat_lt
    omega
  · intro hne
    have hfits : ¬ 2 ^ 16 ≤ p.toNat + (1 : UInt16).toNat := by
      have hone : (1 : UInt16).toNat = 1 := rfl
      omega
    refine ⟨p + 1,by simp only [addU16,hfits,decide_false,Bool.and_false,Bool.false_eq_true,
      if_false],?_⟩
    rw [UInt16.toNat_add]
    exact Nat.mod_eq_of_lt (not_le.mp hfits)

end Elan
