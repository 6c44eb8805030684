import Mathlib.Data.Nat.Find
import Mathlib.Data.String.Basic
import Mathlib.Tactic.IntervalCases

/-! Times in UTC as RFC 3339 text: the calendar fields of an instant, and their text with as many
digits of the fraction as it needs. The order of the texts is the order of the instants. -/
namespace Rfc3339

/-! ### Words of equal length -/

/-- The first difference decides, and before it nothing counts. -/
theorem append_lt_append_iff {α : Type*} [LinearOrder α] {u v : List α}
    (h : u.length = v.length) {x y : List α} :
    u ++ x < v ++ y ↔ u < v ∨ u = v ∧ x < y := by
  induction u generalizing v with
  | nil =>
    obtain rfl : v = [] := List.eq_nil_of_length_eq_zero h.symm
    simp
  | cons a u ih =>
    cases v with
    | nil => cases h
    | cons b v =>
      have hrest := ih (Nat.succ_inj.mp h)
      simp only [List.cons_append,List.cons_lt_cons_iff,List.cons.injEq,hrest]
      tauto

/-- Words of equal length that are in the order of their numbers, with anything behind them. -/
theorem word_append_lt_iff {α : Type*} [LinearOrder α] {word : ℕ → List α} {a b : ℕ}
    (hlength : (word a).length = (word b).length) (hab : word a < word b ↔ a < b)
    (hba : word b < word a ↔ b < a) {x y : List α} :
    word a ++ x < word b ++ y ↔ a < b ∨ a = b ∧ x < y := by
  have hsame : word a = word b ↔ a = b := by
    refine ⟨fun h => ?_,congrArg word⟩
    have hnot : ¬ a < b := hab.not.mp (h ▸ lt_irrefl _)
    have hnot' : ¬ b < a := hba.not.mp (h ▸ lt_irrefl _)
    omega
  rw [append_lt_append_iff hlength,hab,hsame]

/-! ### Decimal words -/

def digit (n : ℕ) : Char := Char.ofNat (48 + n % 10)

theorem toNat_digit (n : ℕ) : (digit n).toNat = 48 + n % 10 := by
  have hlt : n % 10 < 10 := Nat.mod_lt n (by decide)
  unfold digit
  generalize n % 10 = k at hlt
  interval_cases k <;> rfl

theorem digit_lt_iff {m n : ℕ} : digit m < digit n ↔ m % 10 < n % 10 := by
  have hm := toNat_digit m
  have hn := toNat_digit n
  rw [Char.lt_def,UInt32.lt_iff_toNat_lt]
  simp only [Char.toNat] at hm hn
  omega

/-- The last `w` decimal digits of a number. -/
def digits : ℕ → ℕ → List Char
  | 0, _ => []
  | w + 1, n => digits w (n / 10) ++ [digit n]

@[simp] theorem length_digits (w n : ℕ) : (digits w n).length = w := by
  induction w generalizing n with
  | zero => rfl
  | succ w ih => simp [digits,ih]

theorem digits_add (w k n : ℕ) : digits (w + k) n = digits w (n / 10 ^ k) ++ digits k n := by
  induction k generalizing n with
  | zero => simp [digits]
  | succ k ih =>
    rw [← Nat.add_assoc,digits,ih,digits,Nat.div_div_eq_div_mul,Nat.pow_succ',List.append_assoc]

theorem digits_lt_iff {w m n : ℕ} (hm : m < 10 ^ w) (hn : n < 10 ^ w) :
    digits w m < digits w n ↔ m < n := by
  induction w generalizing m n with
  | zero =>
    simp only [Nat.pow_zero,Nat.lt_one_iff] at hm hn
    simp [hm,hn]
  | succ w ih =>
    rw [Nat.pow_succ'] at hm hn
    have hrest := @ih (m / 10) (n / 10) (by omega) (by omega)
    have hrest' := @ih (n / 10) (m / 10) (by omega) (by omega)
    have hlast : [digit m] < [digit n] ↔ m % 10 < n % 10 := by
      simp [List.cons_lt_cons_iff,digit_lt_iff]
    rw [digits,digits,word_append_lt_iff (by simp) hrest hrest',hlast]
    omega

/-- A word of fixed width with anything behind it: the numbers decide first. -/
theorem digits_append_lt_iff {w m n : ℕ} (hm : m < 10 ^ w) (hn : n < 10 ^ w) {x y : List Char} :
    digits w m ++ x < digits w n ++ y ↔ m < n ∨ m = n ∧ x < y :=
  word_append_lt_iff (by simp) (digits_lt_iff hm hn) (digits_lt_iff hn hm)

/-! ### The fraction of a second -/

/-- How many digits show the nanoseconds, in groups of three. -/
def places (nanos : ℕ) : ℕ :=
  if nanos % 10 ^ 6 = 0 then 3 else if nanos % 10 ^ 3 = 0 then 6 else 9

def fraction (nanos : ℕ) : List Char :=
  if nanos = 0 then []
  else '.' :: digits (places nanos) (nanos / 10 ^ (9 - places nanos))

def utc : List Char := ['+','0','0',':','0','0']

theorem places_le (nanos : ℕ) : places nanos ≤ 9 := by
  unfold places
  split_ifs <;> decide

theorem dvd_of_places (nanos : ℕ) : 10 ^ (9 - places nanos) ∣ nanos := by
  unfold places
  split_ifs with hmilli hmicro
  · exact Nat.dvd_of_mod_eq_zero hmilli
  · exact Nat.dvd_of_mod_eq_zero hmicro
  · exact one_dvd nanos

theorem utc_lt_digits {k : ℕ} (hk : 0 < k) (n : ℕ) (x : List Char) : utc < digits k n ++ x := by
  obtain ⟨k,rfl⟩ := Nat.exists_eq_add_of_lt hk
  have hchar : '+' < digit (n / 10 ^ k) := by
    have hnat := toNat_digit (n / 10 ^ k)
    rw [Char.lt_def,UInt32.lt_iff_toNat_lt]
    simp only [Char.toNat] at hnat
    rw [hnat]
    exact Nat.lt_of_lt_of_le (by decide) (Nat.le_add_right 48 _)
  rw [Nat.zero_add,Nat.add_comm,digits_add]
  simp [digits,utc,List.cons_lt_cons_iff,hchar]

theorem div_lt_pow {w k n : ℕ} (hn : n < 10 ^ (w + k)) : n / 10 ^ k < 10 ^ w :=
  Nat.div_lt_of_lt_mul (by rwa [← Nat.pow_add,Nat.add_comm])

/-- More places of a fraction continue the digits of fewer. -/
theorem digits_places {i k n : ℕ} (h : i + k ≤ 9) : digits (i + k) (n / 10 ^ (9 - (i + k))) =
    digits i (n / 10 ^ (9 - i)) ++ digits k (n / 10 ^ (9 - (i + k))) := by
  have hplaces : 9 - i = 9 - (i + k) + k := by omega
  rw [digits_add,Nat.div_div_eq_div_mul,← Nat.pow_add,← hplaces]

/-- Decimals of `i` and of `j` places: the shared digits decide, and then the longer are later. -/
theorem decimals_lt {i j m n : ℕ} (hm : m < 10 ^ 9) (hn : n < 10 ^ 9) (hi : i ≤ 9) (hj : j ≤ 9)
    (hmi : 10 ^ (9 - i) ∣ m) (hnj : 10 ^ (9 - j) ∣ n) (h : m < n) :
    digits i (m / 10 ^ (9 - i)) ++ utc < digits j (n / 10 ^ (9 - j)) ++ utc := by
  rcases le_total i j with hij | hji
  · obtain ⟨k,rfl⟩ := Nat.exists_eq_add_of_le hij
    rw [digits_places hj,List.append_assoc,
      digits_append_lt_iff (div_lt_pow (by rwa [Nat.add_sub_cancel' hi]))
      (div_lt_pow (by rwa [Nat.add_sub_cancel' hi]))]
    rcases (Nat.div_le_div_right h.le).lt_or_eq with hlt | heq
    · exact .inl hlt
    · refine .inr ⟨heq,utc_lt_digits ?_ _ _⟩
      by_contra hk
      obtain rfl : k = 0 := by omega
      exact h.ne ((Nat.div_left_inj hmi hnj).mp heq)
  · obtain ⟨k,rfl⟩ := Nat.exists_eq_add_of_le hji
    rw [digits_places hi,List.append_assoc,
      digits_append_lt_iff (div_lt_pow (by rwa [Nat.add_sub_cancel' hj]))
      (div_lt_pow (by rwa [Nat.add_sub_cancel' hj]))]
    exact .inl (Nat.div_lt_div_of_lt_of_dvd hnj h)

theorem fraction_lt {m n : ℕ} (hn : n < 10 ^ 9) (h : m < n) :
    fraction m ++ utc < fraction n ++ utc := by
  have hpos : n ≠ 0 := by omega
  by_cases hm : m = 0
  · simp [fraction,hm,hpos,utc,List.cons_lt_cons_iff]
  · simp only [fraction,if_neg hm,if_neg hpos,List.cons_append,List.cons_lt_cons_iff]
    exact .inr ⟨trivial,decimals_lt (h.trans hn) hn (places_le m) (places_le n) (dvd_of_places m)
      (dvd_of_places n) h⟩

theorem fraction_lt_iff {m n : ℕ} (hm : m < 10 ^ 9) (hn : n < 10 ^ 9) :
    fraction m ++ utc < fraction n ++ utc ↔ m < n := by
  refine ⟨fun h => ?_,fraction_lt hn⟩
  by_contra hle
  rcases (not_lt.mp hle).lt_or_eq with hlt | rfl
  · exact lt_asymm h (fraction_lt hm hlt)
  · exact lt_irrefl _ h

/-! ### The calendar -/

/-- In which of the intervals that `f` begins a number lies, and how far behind its beginning:
larger numbers come later. -/
theorem interval_lt_iff {f : ℕ → ℕ} (hf : Monotone f) {i j a b : ℕ} (ha : f i ≤ a ∧ a < f (i + 1))
    (hb : f j ≤ b ∧ b < f (j + 1)) : a < b ↔ i < j ∨ i = j ∧ a - f i < b - f j := by
  have hle : ∀ {k l}, k < l → f (k + 1) ≤ f l := fun h => hf h
  rcases lt_trichotomy i j with hlt | rfl | hgt
  · have hnext := hle hlt
    omega
  · omega
  · have hnext := hle hgt
    omega

theorem findGreatest_interval {f : ℕ → ℕ} {last a : ℕ} (hfirst : f 0 ≤ a)
    (hlast : a < f (last + 1)) :
    f (Nat.findGreatest (f · ≤ a) last) ≤ a ∧ a < f (Nat.findGreatest (f · ≤ a) last + 1) := by
  refine ⟨Nat.findGreatest_spec (P := (f · ≤ a)) (Nat.zero_le last) hfirst,?_⟩
  rcases (Nat.findGreatest_le (P := (f · ≤ a)) last).lt_or_eq with hlt | heq
  · exact not_le.mp (Nat.findGreatest_is_greatest (P := (f · ≤ a)) (Nat.lt_succ_self _) hlt)
  · rwa [heq]

def isLeap (year : ℕ) : Bool := 4 ∣ year ∧ (¬ 100 ∣ year ∨ 400 ∣ year)

/-- The days before a year, from the first day of the year 1 on. -/
def daysBeforeYear (year : ℕ) : ℕ :=
  365 * (year - 1) + (year - 1) / 4 - (year - 1) / 100 + (year - 1) / 400

/-- The days of a common year before a month. -/
def monthStart : ℕ → ℕ
  | 0 | 1 => 0
  | 2 => 31
  | 3 => 59
  | 4 => 90
  | 5 => 120
  | 6 => 151
  | 7 => 181
  | 8 => 212
  | 9 => 243
  | 10 => 273
  | 11 => 304
  | 12 => 334
  | _ => 365

def daysBeforeMonth (leap : Bool) (month : ℕ) : ℕ :=
  monthStart month + if leap ∧ 2 < month then 1 else 0

theorem daysBeforeYear_succ (year : ℕ) : daysBeforeYear (year + 2) =
    daysBeforeYear (year + 1) + daysBeforeMonth (isLeap (year + 1)) 13 := by
  have hsucc (k : ℕ) : (year + 1) / k = year / k + if k ∣ year + 1 then 1 else 0 :=
    Nat.succ_div
  have hfour : 100 ∣ year + 1 → 4 ∣ year + 1 := (by decide : 4 ∣ 100).trans
  have hcentury : 400 ∣ year + 1 → 100 ∣ year + 1 := (by decide : 100 ∣ 400).trans
  have hle : year / 100 ≤ year / 4 := Nat.div_le_div_left (by decide) (by decide)
  simp only [daysBeforeYear,daysBeforeMonth,monthStart,isLeap,Nat.add_sub_cancel,
    show year + 2 - 1 = year + 1 from rfl,hsucc,decide_eq_true_eq]
  by_cases h4 : 4 ∣ year + 1 <;> by_cases h100 : 100 ∣ year + 1 <;>
    by_cases h400 : 400 ∣ year + 1 <;> simp [h4,h100,h400] at hfour hcentury ⊢ <;> omega

theorem monotone_daysBeforeYear : Monotone daysBeforeYear := by
  apply monotone_nat_of_le_succ
  intro year
  unfold daysBeforeYear
  omega

theorem monotone_monthStart : Monotone monthStart := by
  apply monotone_nat_of_le_succ
  intro month
  by_cases hmonth : month < 13
  · interval_cases month <;> decide
  · obtain ⟨k,rfl⟩ := Nat.exists_eq_add_of_le (not_lt.mp hmonth)
    rw [Nat.add_comm]
    rfl

theorem monotone_daysBeforeMonth (leap : Bool) : Monotone (daysBeforeMonth leap) := by
  intro i j hij
  have hstart := monotone_monthStart hij
  cases leap with
  | false => simpa [daysBeforeMonth] using hstart
  | true =>
    simp only [daysBeforeMonth,true_and]
    split_ifs <;> omega

/-- Years of four digits. -/
def yearOf (day : ℕ) : ℕ := Nat.findGreatest (daysBeforeYear · ≤ day) 9999

def monthOf (leap : Bool) (dayOfYear : ℕ) : ℕ :=
  Nat.findGreatest (daysBeforeMonth leap · ≤ dayOfYear) 12

theorem yearOf_spec {day : ℕ} (h : day < daysBeforeYear 10000) :
    daysBeforeYear (yearOf day) ≤ day ∧ day < daysBeforeYear (yearOf day + 1) :=
  findGreatest_interval (Nat.zero_le day) h

theorem yearOf_lt (day : ℕ) : yearOf day < 10 ^ 4 :=
  Nat.lt_of_le_of_lt (Nat.findGreatest_le 9999) (by decide)

theorem monthOf_spec {leap : Bool} {dayOfYear : ℕ} (h : dayOfYear < daysBeforeMonth leap 13) :
    daysBeforeMonth leap (monthOf leap dayOfYear) ≤ dayOfYear ∧
      dayOfYear < daysBeforeMonth leap (monthOf leap dayOfYear + 1) :=
  findGreatest_interval (by simp [daysBeforeMonth,monthStart]) h

theorem monthOf_lt (leap : Bool) (dayOfYear : ℕ) : monthOf leap dayOfYear < 10 ^ 2 :=
  Nat.lt_of_le_of_lt (Nat.findGreatest_le 12) (by decide)

/-- No month has more than two digits of days. -/
theorem daysBeforeMonth_succ (leap : Bool) (month : ℕ) :
    daysBeforeMonth leap (month + 1) ≤ daysBeforeMonth leap month + 31 := by
  by_cases hmonth : month < 13
  · interval_cases month <;> cases leap <;> decide
  · obtain ⟨k,rfl⟩ := Nat.exists_eq_add_of_le (not_lt.mp hmonth)
    have hsame : monthStart (13 + k + 1) = monthStart (13 + k) := by
      rw [Nat.add_comm 13 k]
      rfl
    have hlate : 2 < 13 + k := by omega
    simp [daysBeforeMonth,hsame,hlate,hlate.trans (Nat.lt_succ_self _)]

def dayOfYear (day : ℕ) : ℕ := day - daysBeforeYear (yearOf day)

def dayOfMonth (leap : Bool) (dayOfYear : ℕ) : ℕ :=
  dayOfYear - daysBeforeMonth leap (monthOf leap dayOfYear) + 1

theorem dayOfYear_lt {day : ℕ} (h : day < daysBeforeYear 10000) :
    dayOfYear day < daysBeforeMonth (isLeap (yearOf day)) 13 := by
  obtain ⟨hfrom,hto⟩ := yearOf_spec h
  have hne : yearOf day ≠ 0 := by
    intro hzero
    rw [hzero] at hto
    cases hto
  obtain ⟨year,hyear⟩ := Nat.exists_eq_add_one.mpr (Nat.pos_of_ne_zero hne)
  unfold dayOfYear
  rw [hyear] at hfrom hto ⊢
  rw [daysBeforeYear_succ] at hto
  omega

theorem dayOfMonth_lt {leap : Bool} {dayOfYear : ℕ} (h : dayOfYear < daysBeforeMonth leap 13) :
    dayOfMonth leap dayOfYear < 10 ^ 2 := by
  have hmonth := (monthOf_spec h).2
  have hlength := daysBeforeMonth_succ leap (monthOf leap dayOfYear)
  unfold dayOfMonth
  omega

/-! ### The text -/

/-- The calendar day, from the first day of the year 1 on. -/
def dateText (day : ℕ) : List Char :=
  let leap := isLeap (yearOf day)
  digits 4 (yearOf day) ++ '-' :: (digits 2 (monthOf leap (dayOfYear day)) ++
    '-' :: digits 2 (dayOfMonth leap (dayOfYear day)))

def clockText (second : ℕ) : List Char :=
  digits 2 (second / 3600) ++ ':' :: (digits 2 (second / 60 % 60) ++ ':' :: digits 2 (second % 60))

/-- The instant that many seconds and nanoseconds after the beginning of the year 1. -/
def text (seconds nanos : ℕ) : String :=
  String.ofList (dateText (seconds / 86400) ++ 'T' :: (clockText (seconds % 86400) ++
    (fraction nanos ++ utc)))

theorem cons_lt_cons_self {c : Char} {x y : List Char} : c :: x < c :: y ↔ x < y := by
  simp

theorem dateText_lt_iff {a b : ℕ} (ha : a < daysBeforeYear 10000) (hb : b < daysBeforeYear 10000) :
    dateText a < dateText b ↔ a < b := by
  have hyear := interval_lt_iff monotone_daysBeforeYear (yearOf_spec ha) (yearOf_spec hb)
  unfold dateText
  simp only
  rw [digits_append_lt_iff (yearOf_lt a) (yearOf_lt b),cons_lt_cons_self,
    digits_append_lt_iff (monthOf_lt _ _) (monthOf_lt _ _),cons_lt_cons_self,
    digits_lt_iff (dayOfMonth_lt (dayOfYear_lt ha)) (dayOfMonth_lt (dayOfYear_lt hb)),hyear]
  apply or_congr_right
  apply and_congr_right
  intro hsame
  have hbleap := dayOfYear_lt hb
  rw [← hsame] at hbleap
  have hmonth := interval_lt_iff (monotone_daysBeforeMonth (isLeap (yearOf a)))
    (monthOf_spec (dayOfYear_lt ha)) (monthOf_spec hbleap)
  simp only [dayOfYear,dayOfMonth,← hsame] at hmonth ⊢
  rw [hmonth]
  omega

theorem clockText_lt_iff {a b : ℕ} (ha : a < 86400) (hb : b < 86400) :
    clockText a < clockText b ↔ a < b := by
  unfold clockText
  rw [digits_append_lt_iff (by omega) (by omega),cons_lt_cons_self,
    digits_append_lt_iff (by omega) (by omega),cons_lt_cons_self,
    digits_lt_iff (by omega) (by omega)]
  omega

/-- The order of the texts is the order of the instants. -/
theorem text_lt_iff {s t m n : ℕ} (hs : s / 86400 < daysBeforeYear 10000)
    (ht : t / 86400 < daysBeforeYear 10000) (hm : m < 10 ^ 9) (hn : n < 10 ^ 9) :
    text s m < text t n ↔ s < t ∨ s = t ∧ m < n := by
  have hs' : s % 86400 < 86400 := Nat.mod_lt s (by decide)
  have ht' : t % 86400 < 86400 := Nat.mod_lt t (by decide)
  unfold text
  rw [String.lt_iff_toList_lt,String.toList_ofList,String.toList_ofList,
    word_append_lt_iff (by simp [dateText]) (dateText_lt_iff hs ht) (dateText_lt_iff ht hs),
    cons_lt_cons_self,word_append_lt_iff (by simp [clockText]) (clockText_lt_iff hs' ht')
      (clockText_lt_iff ht' hs'),fraction_lt_iff hm hn]
  omega

end Rfc3339
