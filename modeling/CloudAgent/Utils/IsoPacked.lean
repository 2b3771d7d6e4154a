import CloudAgent.Utils.Time
import Mathlib.Data.Rat.Defs
import Mathlib.Data.List.TakeWhile
import Mathlib.Tactic.IntervalCases
import Mathlib.Tactic.NormNum
import Mathlib.Tactic.Ring

/-! Packed ISO 8601 times, and the pieces of the standard library that read and write them. -/
namespace CloudAgent.Utils

/-! ### The calendar -/

/-- The year, month and day of a day count since 1970-01-01, in the proleptic Gregorian calendar. Years
start in March here, and an era is 400 of them. -/
def civil (days : ℤ) : ℤ × ℤ × ℤ :=
  let z := days + 719468
  let doe := z % 146097
  let yoe := (doe - doe / 1460 + doe / 36524 - doe / 146096) / 365
  let doy := doe - (365 * yoe + yoe / 4 - yoe / 100)
  let mp := (5 * doy + 2) / 153
  let month := if mp < 10 then mp + 3 else mp - 9
  (yoe + z / 146097 * 400 + (if month ≤ 2 then 1 else 0), month, doy - (153 * mp + 2) / 5 + 1)

example : civil 0 = (1970, 1, 1) ∧ civil 11016 = (2000, 2, 29) ∧ civil 18779 = (2021, 6, 1) := by decide

theorem civil_year_ge {days : ℤ} (h : 0 ≤ days) : 1970 ≤ (civil days).1 := by
  simp only [civil]
  omega

/-- A year lasts 365 days or more. -/
theorem civil_year_le {days : ℤ} (h : 0 ≤ days) : 365 * (civil days).1 ≤ days + 719468 + 365 := by
  simp only [civil]
  omega

theorem civil_month (days : ℤ) : 0 ≤ (civil days).2.1 ∧ (civil days).2.1 < 100 := by
  simp only [civil]
  omega

theorem civil_day (days : ℤ) : 0 ≤ (civil days).2.2 ∧ (civil days).2.2 < 100 := by
  simp only [civil]
  omega

/-! ### Writing -/

/-- An integer as a stream writes it. -/
def decimal (n : ℤ) : List Char := if n < 0 then '-' :: Nat.toDigits 10 n.natAbs else Nat.toDigits 10 n.natAbs

/-- An integer with leading zeros. -/
def padded (width : ℕ) (n : ℤ) : List Char := (decimal n).leftpad width '0'

namespace Time

/-- `to_time_t` of a time point. -/
def toTimeT (t : Time) : ℤ := t.tdiv 1000000000

/-- `to_iso_packed`: `%Y%m%dT%H%M%S` of `gmtime`, and the microseconds. -/
def toIsoPacked (t : Time) : List Char :=
  let epochSeconds := toTimeT t
  let date := civil (epochSeconds / 86400)
  let second := epochSeconds % 86400
  let deltaUs := (t - epochSeconds * 1000000000).tdiv 1000
  decimal date.1 ++ padded 2 date.2.1 ++ padded 2 date.2.2 ++ 'T' :: (padded 2 (second / 3600) ++
    padded 2 (second / 60 % 60) ++ padded 2 (second % 60) ++ '.' :: padded 6 deltaUs)

end Time

/-! ### Reading -/

/-- `string_split`: the pieces that `getline` returns, so no empty piece at the end. -/
def stringSplit (delimiter : Char) : List Char → List Char → List (List Char)
  | [], token => if token = [] then [] else [token]
  | c :: cs, token =>
    if c = delimiter then token :: stringSplit delimiter cs [] else stringSplit delimiter cs (token ++ [c])

def isSpace (c : Char) : Bool := c = ' ' || (9 ≤ c.toNat && c.toNat ≤ 13)

/-- The sign of a number, and what follows it. -/
def readSign : List Char → ℤ × List Char
  | '-' :: cs => (-1, cs)
  | '+' :: cs => (1, cs)
  | cs => (1, cs)

/-- The exponent of a decimal number; a letter that no digit follows is not part of it. -/
def readExponent : List Char → ℤ
  | c :: cs =>
    if c = 'e' ∨ c = 'E' then (readSign cs).1 * Nat.ofDigitChars 10 ((readSign cs).2.takeWhile Char.isDigit) 0 else 0
  | [] => 0

/-- The digits after a decimal point, and what follows them. -/
def readFraction : List Char → List Char × List Char
  | '.' :: cs => (cs.takeWhile Char.isDigit, cs.dropWhile Char.isDigit)
  | cs => ([], cs)

/-- `std::stod` of a number in decimal form: the number at the start, whatever follows it. No number is
an exception. The value is not rounded. -/
def stod (s : List Char) : Option ℚ :=
  let (sign, cs) := readSign (s.dropWhile isSpace)
  let whole := cs.takeWhile Char.isDigit
  let (fraction, rest) := readFraction (cs.dropWhile Char.isDigit)
  if whole = [] ∧ fraction = [] then none
  else some (sign * Nat.ofDigitChars 10 (whole ++ fraction) 0 * 10 ^ (readExponent rest - fraction.length))

namespace Time

/-- `from_double`, which drops what is below a microsecond. -/
def fromDouble (t : ℚ) : Time := (t * 1000000).num.tdiv (t * 1000000).den * 1000

end Time

/-! ### What is read of what was written -/

theorem stringSplit_of_not_mem {d : Char} {a token : List Char} (h : d ∉ a) :
    stringSplit d a token = if token ++ a = [] then [] else [token ++ a] := by
  induction a generalizing token with
  | nil => rw [stringSplit, List.append_nil]
  | cons c a ih =>
    have hc : c ≠ d := fun hcd => h (by simp [hcd])
    rw [stringSplit, if_neg hc, ih (fun hm => h (List.mem_cons_of_mem c hm)), List.append_assoc]
    rfl

theorem stringSplit_two {d : Char} {a b : List Char} (token : List Char) (ha : d ∉ a) (hb : d ∉ b) (hne : b ≠ []) :
    stringSplit d (a ++ d :: b) token = [token ++ a, b] := by
  induction a generalizing token with
  | nil =>
    rw [List.nil_append, stringSplit, if_pos rfl, stringSplit_of_not_mem hb, List.nil_append, if_neg hne,
      List.append_nil]
  | cons c a ih =>
    have hc : c ≠ d := fun hcd => ha (by simp [hcd])
    rw [List.cons_append, stringSplit, if_neg hc, ih (token ++ [c]) (fun hm => ha (List.mem_cons_of_mem c hm)),
      List.append_assoc]
    rfl

theorem isDigit_of_mem_decimal {n : ℤ} (h : 0 ≤ n) {c : Char} (hc : c ∈ decimal n) : c.isDigit = true := by
  rw [decimal, if_neg (by omega)] at hc
  exact Nat.isDigit_of_mem_toDigits (by decide) (by decide) hc

theorem isDigit_of_mem_padded {w : ℕ} {n : ℤ} (h : 0 ≤ n) {c : Char} (hc : c ∈ padded w n) :
    c.isDigit = true := by
  rw [padded, List.leftpad, List.mem_append] at hc
  obtain hc | hc := hc
  · rw [List.eq_of_mem_replicate hc]
    rfl
  · exact isDigit_of_mem_decimal h hc

theorem readSign_of_digit {c : Char} {cs : List Char} (hc : c.isDigit = true) : readSign (c :: cs) = (1, c :: cs) := by
  unfold readSign
  split
  · rename_i h
    rw [(List.cons.inj h).1] at hc
    exact absurd hc (by decide)
  · rename_i h
    rw [(List.cons.inj h).1] at hc
    exact absurd hc (by decide)
  · rfl

theorem isSpace_of_digit {c : Char} (hc : c.isDigit = true) : isSpace c = false := by
  have hle : 48 ≤ c.toNat := by
    simp only [Char.isDigit, Bool.and_eq_true, decide_eq_true_eq] at hc
    exact hc.1
  have hne : c ≠ ' ' := by
    rintro rfl
    exact absurd hc (by decide)
  simp only [isSpace, hne, decide_false, Bool.false_or, Bool.and_eq_false_iff, decide_eq_false_iff_not]
  omega

/-- Digits that a letter other than an exponent follows. -/
theorem stod_digits {ds rest : List Char} (hd : ∀ c ∈ ds, c.isDigit = true) (hne : ds ≠ []) :
    stod (ds ++ 'T' :: rest) = some (Nat.ofDigitChars 10 ds 0 : ℚ) := by
  have htake : (ds ++ 'T' :: rest).takeWhile Char.isDigit = ds := by
    rw [List.takeWhile_append_of_pos hd, List.takeWhile_cons_of_neg (by decide), List.append_nil]
  have hdrop : (ds ++ 'T' :: rest).dropWhile Char.isDigit = 'T' :: rest := by
    rw [List.dropWhile_append_of_pos hd, List.dropWhile_cons_of_neg (by decide)]
  have hstart : readSign ((ds ++ 'T' :: rest).dropWhile isSpace) = (1, ds ++ 'T' :: rest) := by
    cases ds with
    | nil => exact absurd rfl hne
    | cons c cs =>
      have hc := hd c List.mem_cons_self
      rw [List.cons_append, List.dropWhile_cons_of_neg (by simp [isSpace_of_digit hc]), readSign_of_digit hc]
  have hexp : readExponent ('T' :: rest) = 0 := by
    rw [readExponent, if_neg (by decide)]
  simp [stod, hstart, htake, hdrop, readFraction, hexp, hne]

theorem decimal_ne_nil (n : ℤ) : decimal n ≠ [] := by
  rw [decimal]
  split
  · exact List.cons_ne_nil _ _
  · exact Nat.toDigits_ne_nil

theorem not_mem_decimal (n : ℤ) : '_' ∉ decimal n := by
  rw [decimal]
  split
  · intro h
    obtain h | h := List.mem_cons.mp h
    · exact absurd h (by decide)
    · exact Nat.underscore_not_in_toDigits h
  · exact Nat.underscore_not_in_toDigits

theorem not_mem_padded (w : ℕ) (n : ℤ) : '_' ∉ padded w n := by
  rw [padded, List.leftpad, List.mem_append]
  rintro (h | h)
  · exact absurd (List.eq_of_mem_replicate h) (by decide)
  · exact not_mem_decimal n h

theorem ofDigitChars_decimal {n : ℤ} (h : 0 ≤ n) : (Nat.ofDigitChars 10 (decimal n) 0 : ℤ) = n := by
  rw [decimal, if_neg (by omega), Nat.ofDigitChars_ten_toDigits]
  omega

theorem ofDigitChars_padded_two {n : ℤ} (h : 0 ≤ n) (hn : n < 100) (k : ℕ) :
    (Nat.ofDigitChars 10 (padded 2 n) k : ℤ) = 100 * k + n := by
  have hval := ofDigitChars_decimal h
  have hpad : Nat.ofDigitChars 10 (padded 2 n) 0 = Nat.ofDigitChars 10 (decimal n) 0 := by
    rw [padded, List.leftpad, Nat.ofDigitChars_append, Nat.ofDigitChars_replicate_zero, Nat.mul_zero]
  have hlen : (decimal n).length ≤ 2 := by
    rw [decimal, if_neg (by omega)]
    exact (Nat.length_toDigits_le_iff (by decide) (by decide)).mpr (by omega)
  have hpadlen : (padded 2 n).length = 2 := by
    simp only [padded, List.leftpad, List.length_append, List.length_replicate]
    omega
  rw [Nat.ofDigitChars_eq_ofDigitChars_zero, hpadlen, hpad]
  omega

namespace Time

theorem not_mem_toIsoPacked (t : Time) : '_' ∉ toIsoPacked t := by
  simp only [toIsoPacked, List.mem_append, List.mem_cons, not_or]
  have hd := not_mem_decimal
  have hp := not_mem_padded
  refine ⟨⟨⟨hd _, hp _ _⟩, hp _ _⟩, by decide, ⟨⟨hp _ _, hp _ _⟩, hp _ _⟩, by decide, hp _ _⟩

theorem toIsoPacked_ne_nil (t : Time) : toIsoPacked t ≠ [] := by
  simp [toIsoPacked]

/-- The date of a day as a number, year first. -/
def dayNumber (days : ℤ) : ℤ := ((civil days).1 * 100 + (civil days).2.1) * 100 + (civil days).2.2

/-- The date of a time as a number. -/
def dateNumber (t : Time) : ℤ := dayNumber (toTimeT t / 86400)

theorem days_nonneg {t : Time} (h : 0 ≤ t) : 0 ≤ toTimeT t / 86400 := by
  have hsec : 0 ≤ toTimeT t := Int.tdiv_nonneg h (by decide)
  omega

/-- The number at the start of a packed time is the date; the time of day is not looked at. -/
theorem stod_toIsoPacked {t : Time} (h : 0 ≤ t) : stod (toIsoPacked t) = some (dateNumber t : ℚ) := by
  have hy : 0 ≤ (civil (toTimeT t / 86400)).1 := (by decide : (0 : ℤ) ≤ 1970).trans (civil_year_ge (days_nonneg h))
  obtain ⟨hm, hm'⟩ := civil_month (toTimeT t / 86400)
  obtain ⟨hd, hd'⟩ := civil_day (toTimeT t / 86400)
  have hdigits : ∀ c ∈ decimal (civil (toTimeT t / 86400)).1 ++ padded 2 (civil (toTimeT t / 86400)).2.1 ++
      padded 2 (civil (toTimeT t / 86400)).2.2, c.isDigit = true := by
    intro c hc
    rw [List.mem_append, List.mem_append] at hc
    obtain (hc | hc) | hc := hc
    · exact isDigit_of_mem_decimal hy hc
    · exact isDigit_of_mem_padded hm hc
    · exact isDigit_of_mem_padded hd hc
  have hval : (Nat.ofDigitChars 10 (decimal (civil (toTimeT t / 86400)).1 ++
      padded 2 (civil (toTimeT t / 86400)).2.1 ++ padded 2 (civil (toTimeT t / 86400)).2.2) 0 : ℤ) =
      dateNumber t := by
    rw [Nat.ofDigitChars_append, Nat.ofDigitChars_append, ofDigitChars_padded_two hd hd',
      ofDigitChars_padded_two hm hm', ofDigitChars_decimal hy, dateNumber, dayNumber]
    omega
  rw [toIsoPacked, stod_digits hdigits (by simp [decimal_ne_nil]), ← hval, Int.cast_natCast]

theorem fromDouble_intCast (n : ℤ) : fromDouble n = n * 1000000000 := by
  have hcast : (n : ℚ) * 1000000 = ((n * 1000000 : ℤ) : ℚ) := by push_cast; rfl
  rw [fromDouble, hcast, Rat.num_intCast, Rat.den_intCast, Nat.cast_one, Int.tdiv_one]
  ring

theorem dateNumber_ge {t : Time} (h : 0 ≤ t) : 19700000 ≤ dateNumber t := by
  have hyear := civil_year_ge (days_nonneg h)
  obtain ⟨hm, -⟩ := civil_month (toTimeT t / 86400)
  obtain ⟨hd, -⟩ := civil_day (toTimeT t / 86400)
  simp only [dateNumber, dayNumber]
  omega

/-- 1970-08-17T00:26:57, which is 19700817 seconds after the epoch. -/
def ownDate : Time := 19700817 * 1000000000

/-- Only one time is as many seconds after the epoch as its date is as a number. -/
theorem eq_dateNumber_iff {t : Time} (h : 0 ≤ t) : dateNumber t * 1000000000 = t ↔ t = ownDate := by
  constructor
  · intro ht
    have hsec : toTimeT (dateNumber t * 1000000000) = dateNumber t := Int.mul_tdiv_cancel _ (by decide)
    rw [ht] at hsec
    have hge := dateNumber_ge h
    have hyear := civil_year_le (days_nonneg h)
    obtain ⟨-, hm⟩ := civil_month (toTimeT t / 86400)
    obtain ⟨-, hd⟩ := civil_day (toTimeT t / 86400)
    have hdate : dateNumber t = dayNumber (toTimeT t / 86400) := rfl
    -- the number is about 20 million, which is 228 days
    have h228 : toTimeT t / 86400 = 228 := by
      rw [dayNumber] at hdate
      omega
    have hown : dayNumber 228 = 19700817 := by decide
    rw [← ht, hdate, h228, hown, ownDate]
  · rintro rfl
    decide

end Time

end CloudAgent.Utils
