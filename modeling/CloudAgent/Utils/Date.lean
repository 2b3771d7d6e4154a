import CloudAgent.Utils.IsoPacked
import Mathlib.Tactic.Linarith
import Mathlib.Tactic.Positivity
import Mathlib.Tactic.Zify

/-! The times of `utils::time` that the date library writes and reads. The library is a parameter:
what its documentation says of the formats in use is stated on groups of digits. -/
namespace CloudAgent.Utils

/-! ### Groups of digits -/

/-- A group of digits of a fixed width, and the number that it writes. -/
structure Digits (width : ℕ) (ds : List Char) (n : ℤ) : Prop where
  length : ds.length = width
  digit : ∀ c ∈ ds, c.isDigit = true
  value : (Nat.ofDigitChars 10 ds 0 : ℤ) = n

theorem length_decimal_le {w : ℕ} {n : ℤ} (h : 0 ≤ n) (hn : n < 10 ^ w) (hw : 0 < w) :
    (decimal n).length ≤ w := by
  rw [decimal, if_neg (by omega)]
  refine (Nat.length_toDigits_le_iff (by decide) hw).mpr ?_
  zify
  rwa [abs_of_nonneg h]

/-- Leading zeros fill a number up to the width. -/
theorem digits_padded {w : ℕ} {n : ℤ} (h : 0 ≤ n) (hn : n < 10 ^ w) (hw : 0 < w) :
    Digits w (padded w n) n where
  length := by
    have hlen := length_decimal_le h hn hw
    simp only [padded, List.leftpad, List.length_append, List.length_replicate]
    omega
  digit _ hc := isDigit_of_mem_padded h hc
  value := by
    rw [padded, List.leftpad, Nat.ofDigitChars_append, Nat.ofDigitChars_replicate_zero, Nat.mul_zero,
      ofDigitChars_decimal h]

/-- A number that fills the width by itself. -/
theorem padded_eq_decimal {w : ℕ} {n : ℤ} (hlow : 10 ^ w ≤ n) : padded (w + 1) n = decimal n := by
  have h : 0 ≤ n := le_trans (by positivity) hlow
  have hlen : w + 1 ≤ (decimal n).length := by
    rw [decimal, if_neg (by omega)]
    by_contra hshort
    have hw : 0 < w := by
      have hpos := List.length_pos_iff.mpr (Nat.toDigits_ne_nil : Nat.toDigits 10 n.natAbs ≠ [])
      omega
    have hlt : n.natAbs < 10 ^ w :=
      (Nat.length_toDigits_le_iff (by decide) hw).mp (by omega)
    zify at hlt
    rw [abs_of_nonneg h] at hlt
    exact absurd hlow (not_le.mpr hlt)
  rw [padded, List.leftpad, Nat.sub_eq_zero_of_le hlen, List.replicate_zero, List.nil_append]

theorem Digits.not_mem {w : ℕ} {ds : List Char} {n : ℤ} (h : Digits w ds n) {c : Char}
    (hc : c.isDigit = false) : c ∉ ds := by
  intro hmem
  rw [h.digit c hmem] at hc
  exact absurd hc (by decide)

/-! ### Fields of a time -/

/-- The fields of a time, down to the microseconds. -/
structure TimeFields where
  days : ℤ
  hour : ℤ
  minute : ℤ
  second : ℤ
  micro : ℤ
  hour_range : 0 ≤ hour ∧ hour < 24
  minute_range : 0 ≤ minute ∧ minute < 60
  second_range : 0 ≤ second ∧ second < 60
  micro_range : 0 ≤ micro ∧ micro < 1000000

namespace TimeFields

/-- The time point of the fields. -/
def toTime (f : TimeFields) : Time :=
  (((f.days * 24 + f.hour) * 60 + f.minute) * 60 + f.second) * 1000000000 + f.micro * 1000

/-- The fields of a count of microseconds. -/
def ofMicroseconds (us : ℤ) : TimeFields where
  days := us / 1000000 / 86400
  hour := us / 1000000 % 86400 / 3600
  minute := us / 1000000 % 86400 / 60 % 60
  second := us / 1000000 % 86400 % 60
  micro := us % 1000000
  hour_range := by omega
  minute_range := by omega
  second_range := by omega
  micro_range := by omega

theorem toTime_ofMicroseconds (us : ℤ) : (ofMicroseconds us).toTime = us * 1000 := by
  change (((us / 1000000 / 86400 * 24 + us / 1000000 % 86400 / 3600) * 60 +
    us / 1000000 % 86400 / 60 % 60) * 60 + us / 1000000 % 86400 % 60) * 1000000000 +
      us % 1000000 * 1000 = us * 1000
  omega

end TimeFields

/-- The groups of digits of a time in text. -/
structure DateText where
  year : List Char
  month : List Char
  day : List Char
  hour : List Char
  minute : List Char
  second : List Char
  micro : List Char

namespace DateText

/-- `%Y%m%dT%H%M%S` with a fraction. -/
def packed (x : DateText) : List Char :=
  x.year ++ x.month ++ x.day ++ 'T' :: (x.hour ++ x.minute ++ x.second ++ '.' :: x.micro)

/-- `%FT%TZ` with a fraction. -/
def iso (x : DateText) : List Char :=
  x.year ++ '-' :: (x.month ++ '-' :: (x.day ++ 'T' :: (x.hour ++ ':' :: (x.minute ++ ':' :: (x.second ++
    '.' :: (x.micro ++ ['Z']))))))

/-- The groups write the fields of a time. -/
structure Writes (x : DateText) (f : TimeFields) : Prop where
  year : Digits 4 x.year (civil f.days).1
  month : Digits 2 x.month (civil f.days).2.1
  day : Digits 2 x.day (civil f.days).2.2
  hour : Digits 2 x.hour f.hour
  minute : Digits 2 x.minute f.minute
  second : Digits 2 x.second f.second
  micro : Digits 6 x.micro f.micro

/-- The groups with leading zeros. -/
def written (f : TimeFields) : DateText where
  year := padded 4 (civil f.days).1
  month := padded 2 (civil f.days).2.1
  day := padded 2 (civil f.days).2.2
  hour := padded 2 f.hour
  minute := padded 2 f.minute
  second := padded 2 f.second
  micro := padded 6 f.micro

theorem written_writes (f : TimeFields) (hlow : 0 ≤ (civil f.days).1) (hhigh : (civil f.days).1 < 10000) :
    (written f).Writes f := by
  obtain ⟨hm, hm'⟩ := civil_month f.days
  obtain ⟨hd, hd'⟩ := civil_day f.days
  have h1 := f.hour_range
  have h2 := f.minute_range
  have h3 := f.second_range
  have h4 := f.micro_range
  constructor
  · exact digits_padded hlow hhigh (by decide)
  · exact digits_padded hm hm' (by decide)
  · exact digits_padded hd hd' (by decide)
  · exact digits_padded h1.1 (by omega) (by decide)
  · exact digits_padded h2.1 (by omega) (by decide)
  · exact digits_padded h3.1 (by omega) (by decide)
  · exact digits_padded h4.1 (by omega) (by decide)

theorem Writes.not_mem_iso {x : DateText} {f : TimeFields} (h : x.Writes f) : '_' ∉ x.iso := by
  have hd : ('_' : Char).isDigit = false := by decide
  simp only [iso, List.mem_append, List.mem_cons, not_or]
  exact ⟨h.year.not_mem hd, by decide, h.month.not_mem hd, by decide, h.day.not_mem hd, by decide,
    h.hour.not_mem hd, by decide, h.minute.not_mem hd, by decide, h.second.not_mem hd, by decide,
    h.micro.not_mem hd, by decide⟩

end DateText

/-! ### The library -/

namespace Time

/-- 2262-01-01, the start of the last year that a 64-bit count of nanoseconds reaches. -/
def year2262 : ℤ := 106651 * 86400 * 1000000000

example : civil 106651 = (2262, 1, 1) := by decide

/-- A time since the epoch and before 2262. -/
def InRange (t : ℤ) : Prop := 0 ≤ t ∧ t < year2262

instance (t : ℤ) : Decidable (InRange t) := by unfold InRange; infer_instance

end Time

/-- What the code calls of the date library. `format` takes a count of microseconds, `parse` answers
with the time point unless the stream fails. -/
structure DateLibrary where
  format : String → ℤ → List Char
  parse : String → List Char → Option Time

/-- What the library documents about the formats in use, for times that a time point can hold: `%Y` has four
digits, `%m`, `%d`, `%H`, `%M` have two, and `%S` has two and a fraction down to the precision of the time. -/
structure DateLibrary.Documented (date : DateLibrary) : Prop where
  format_iso : ∀ us : ℤ, Time.InRange (us * 1000) →
    ∃ x : DateText, x.Writes (.ofMicroseconds us) ∧ date.format "%FT%TZ" us = x.iso
  parse_iso : ∀ (f : TimeFields) (x : DateText), Time.InRange f.toTime → x.Writes f →
    date.parse "%FT%TZ" x.iso = some f.toTime
  parse_packed : ∀ (f : TimeFields) (x : DateText), Time.InRange f.toTime → x.Writes f →
    date.parse "%Y%m%dT%H%M%S" x.packed = some f.toTime

namespace Time

/-- `date::floor<microseconds>(t)`, as a time point. -/
def floorMicroseconds (t : Time) : Time := t / 1000 * 1000

/-- `utils::time::to_iso`. -/
def toIso (date : DateLibrary) (t : Time) : List Char := date.format "%FT%TZ" (t / 1000)

/-- `utils::time::to_iso2`. -/
def toIso2 (date : DateLibrary) (t : Time) : List Char := date.format "%FT%T" (t / 1000)

/-- `utils::time::from_iso`. -/
def fromIso (date : DateLibrary) (st : List Char) : Time := (date.parse "%FT%TZ" st).getD null

/-- `utils::time::from_iso_packed`. -/
def fromIsoPacked (date : DateLibrary) (st : List Char) : Time := (date.parse "%Y%m%dT%H%M%S" st).getD null

variable {date : DateLibrary} {t : ℤ}

theorem InRange.year (h : InRange t) : 1970 ≤ (civil (TimeFields.ofMicroseconds (t / 1000)).days).1 ∧
    (civil (TimeFields.ofMicroseconds (t / 1000)).days).1 < 10000 := by
  have hdays : 0 ≤ t / 1000 / 1000000 / 86400 ∧ t / 1000 / 1000000 / 86400 < 106651 := by
    have h1 := h.1
    have h2 := h.2
    rw [year2262] at h2
    omega
  have hhigh := civil_year_le hdays.1
  refine ⟨civil_year_ge hdays.1, ?_⟩
  change (civil (t / 1000 / 1000000 / 86400)).1 < 10000
  linarith [hdays.2]

theorem toTime_floor (t : Time) :
    (TimeFields.ofMicroseconds (t / 1000)).toTime = floorMicroseconds t :=
  TimeFields.toTime_ofMicroseconds _

theorem InRange.floor (h : InRange t) : InRange (floorMicroseconds t) := by
  have h1 := h.1
  have h2 := h.2
  rw [InRange, floorMicroseconds]
  omega

/-- The packed text is made of the groups of the time floored to microseconds. -/
theorem toIsoPacked_eq (h : InRange t) :
    ∃ x : DateText, x.Writes (.ofMicroseconds (t / 1000)) ∧ toIsoPacked t = x.packed := by
  have hsec : toTimeT t = t / 1000 / 1000000 := by
    rw [toTimeT, Int.tdiv_eq_ediv_of_nonneg h.1]
    omega
  have hmicro : (t - t / 1000 / 1000000 * 1000000000).tdiv 1000 = t / 1000 % 1000000 := by
    have h1 := h.1
    rw [Int.tdiv_eq_ediv_of_nonneg (by omega)]
    omega
  obtain ⟨hyear, hyear'⟩ := h.year
  have hfour : padded 4 (civil (TimeFields.ofMicroseconds (t / 1000)).days).1 =
      decimal (civil (t / 1000 / 1000000 / 86400)).1 :=
    padded_eq_decimal (w := 3) ((by decide : (10 : ℤ) ^ 3 ≤ 1970).trans hyear)
  refine ⟨.written (.ofMicroseconds (t / 1000)),
    DateText.written_writes _ ((by decide : (0 : ℤ) ≤ 1970).trans hyear) hyear', ?_⟩
  simp only [toIsoPacked, hsec, hmicro, DateText.packed, DateText.written, hfour]
  rfl

/-- Reading a packed time gives the time floored to microseconds. -/
theorem fromIsoPacked_toIsoPacked (hdate : date.Documented) (h : InRange t) :
    fromIsoPacked date (toIsoPacked t) = floorMicroseconds t := by
  obtain ⟨x, hx, htext⟩ := toIsoPacked_eq h
  rw [fromIsoPacked, htext, hdate.parse_packed _ x ((toTime_floor t).symm ▸ h.floor) hx, Option.getD_some, toTime_floor]

theorem toIso_eq (hdate : date.Documented) (h : InRange t) :
    ∃ x : DateText, x.Writes (.ofMicroseconds (t / 1000)) ∧ toIso date t = x.iso :=
  hdate.format_iso _ h.floor

/-- Reading an ISO time gives the time floored to microseconds. -/
theorem fromIso_toIso (hdate : date.Documented) (h : InRange t) :
    fromIso date (toIso date t) = floorMicroseconds t := by
  obtain ⟨x, hx, htext⟩ := toIso_eq hdate h
  rw [fromIso, htext, hdate.parse_iso _ x ((toTime_floor t).symm ▸ h.floor) hx, Option.getD_some, toTime_floor]

theorem not_mem_toIso (hdate : date.Documented) (h : InRange t) : '_' ∉ toIso date t := by
  obtain ⟨x, hx, htext⟩ := toIso_eq hdate h
  rw [htext]
  exact hx.not_mem_iso

theorem toIso_ne_nil (hdate : date.Documented) (h : InRange t) : toIso date t ≠ [] := by
  obtain ⟨x, -, htext⟩ := toIso_eq hdate h
  rw [htext, DateText.iso]
  simp

end Time
end CloudAgent.Utils
