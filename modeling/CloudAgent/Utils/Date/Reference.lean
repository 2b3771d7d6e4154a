import CloudAgent.Utils.Date

/-! A date library that reads and writes by the directives of a format, as documented. It shows that
the documented behaviour can be met, and concrete texts are read with it. -/
namespace CloudAgent.Utils

/-- The day count of a date, whose years start in March. -/
def daysFromCivil (year month day : ℤ) : ℤ :=
  let y := if month ≤ 2 then year - 1 else year
  let yoe := y % 400
  let doy := (153 * ((month + 9) % 12) + 2) / 5 + day - 1
  y / 400 * 146097 + (yoe * 365 + yoe / 4 - yoe / 100 + doy) - 719468

/-- The month, counted from January, of a month that is counted from March. -/
def civilMonth (mp : ℤ) : ℤ := if mp < 10 then mp + 3 else mp - 9

theorem civilMonth_mod (mp : ℤ) (h0 : 0 ≤ mp) (h1 : mp < 12) : (civilMonth mp + 9) % 12 = mp := by
  unfold civilMonth
  split <;> omega

/-- The day of the year, from the day of the era and its corrections for leap years. -/
theorem dayOfYear_range {doe f g k yoe : ℤ} (h : 0 ≤ doe ∧ doe < 146097) (hf : f = doe / 1460)
    (hg : g = doe / 36524) (hk : k = doe / 146096) (hy : yoe = (doe - f + g - k) / 365) :
    0 ≤ doe - (365 * yoe + yoe / 4 - yoe / 100) ∧ doe - (365 * yoe + yoe / 4 - yoe / 100) ≤ 365 := by
  have h25 : 25 * g ≤ f := by omega
  have hrest : f ≤ 25 * g + (doe - 36524 * g) := by omega
  -- only the last day of the era belongs to its leap year
  have hlast : k = 0 ∨ doe = 146096 := by omega
  rcases hlast with h0 | h0
  · have hcentury : g ≤ yoe / 100 ∧ yoe / 100 ≤ g := by omega
    have hquad : yoe / 4 ≤ f ∧ f ≤ yoe / 4 + 1 := by omega
    omega
  · omega

/-- The era, the year of the era and the day of the year behind a date. -/
theorem civil_parts (days : ℤ) : ∃ era yoe doy : ℤ, (0 ≤ yoe ∧ yoe < 400) ∧ (0 ≤ doy ∧ doy ≤ 365) ∧
    days + 719468 = era * 146097 + (yoe * 365 + yoe / 4 - yoe / 100 + doy) ∧
    civil days = (yoe + era * 400 + (if civilMonth ((5 * doy + 2) / 153) ≤ 2 then 1 else 0),
      civilMonth ((5 * doy + 2) / 153), doy - (153 * ((5 * doy + 2) / 153) + 2) / 5 + 1) := by
  have hdoe : 0 ≤ (days + 719468) % 146097 ∧ (days + 719468) % 146097 < 146097 := by omega
  refine ⟨(days + 719468) / 146097, ((days + 719468) % 146097 - (days + 719468) % 146097 / 1460 +
    (days + 719468) % 146097 / 36524 - (days + 719468) % 146097 / 146096) / 365, _, ?_,
    dayOfYear_range hdoe rfl rfl rfl rfl, ?_, rfl⟩
  · omega
  · omega

/-- A year that starts in March, back from the civil year. -/
theorem daysFromCivil_march (y mp day : ℤ) (h : (civilMonth mp + 9) % 12 = mp) :
    daysFromCivil (y + if civilMonth mp ≤ 2 then 1 else 0) (civilMonth mp) day =
      y / 400 * 146097 + (y % 400 * 365 + y % 400 / 4 - y % 400 / 100 + ((153 * mp + 2) / 5 + day - 1)) -
        719468 := by
  have hyear : (if civilMonth mp ≤ 2 then (y + if civilMonth mp ≤ 2 then 1 else 0) - 1
      else y + if civilMonth mp ≤ 2 then 1 else 0) = y := by
    split <;> omega
  rw [daysFromCivil, hyear, h]

theorem daysFromCivil_civil (days : ℤ) :
    daysFromCivil (civil days).1 (civil days).2.1 (civil days).2.2 = days := by
  obtain ⟨era, yoe, doy, hyoe, hdoy, hdays, hcivil⟩ := civil_parts days
  have hmonth := civilMonth_mod ((5 * doy + 2) / 153) (by omega) (by omega)
  have hera : (yoe + era * 400) / 400 = era := by omega
  have hyear : (yoe + era * 400) % 400 = yoe := by omega
  rw [hcivil]
  simp only
  rw [daysFromCivil_march _ _ _ hmonth, hera, hyear]
  omega

/-! ### Directives -/

/-- The fields that are written as whole numbers. -/
inductive DateField
  | year | month | day | hour | minute
  deriving DecidableEq, Repr

/-- The directives of the formats in use, and the characters between them. -/
inductive Directive
  | number (field : DateField)
  | second
  | literal (c : Char)
  deriving DecidableEq, Repr

/-- `%F` is `%Y-%m-%d` and `%T` is `%H:%M:%S`. -/
def directives : List Char → List Directive
  | '%' :: 'Y' :: cs => .number .year :: directives cs
  | '%' :: 'm' :: cs => .number .month :: directives cs
  | '%' :: 'd' :: cs => .number .day :: directives cs
  | '%' :: 'H' :: cs => .number .hour :: directives cs
  | '%' :: 'M' :: cs => .number .minute :: directives cs
  | '%' :: 'S' :: cs => .second :: directives cs
  | '%' :: 'F' :: cs =>
    .number .year :: .literal '-' :: .number .month :: .literal '-' :: .number .day :: directives cs
  | '%' :: 'T' :: cs =>
    .number .hour :: .literal ':' :: .number .minute :: .literal ':' :: .second :: directives cs
  | c :: cs => .literal c :: directives cs
  | [] => []

/-- What has been read of a time. -/
structure Reading where
  year : ℤ := 0
  month : ℤ := 0
  day : ℤ := 0
  hour : ℤ := 0
  minute : ℤ := 0
  second : ℤ := 0
  nano : ℤ := 0
  deriving DecidableEq, Repr

namespace DateField

def width : DateField → ℕ
  | .year => 4
  | _ => 2

def value (f : TimeFields) : DateField → ℤ
  | .year => (civil f.days).1
  | .month => (civil f.days).2.1
  | .day => (civil f.days).2.2
  | .hour => f.hour
  | .minute => f.minute

def store (r : Reading) (n : ℤ) : DateField → Reading
  | .year => { r with year := n }
  | .month => { r with month := n }
  | .day => { r with day := n }
  | .hour => { r with hour := n }
  | .minute => { r with minute := n }

theorem width_pos (x : DateField) : 0 < x.width := by cases x <;> decide

end DateField

def Directive.write (f : TimeFields) : Directive → List Char
  | .number x => padded x.width (x.value f)
  | .second => padded 2 f.second ++ '.' :: padded 6 f.micro
  | .literal c => [c]

/-- The number in at most `width` digits, and what follows it. -/
def readNumber (width : ℕ) (cs : List Char) : Option (List Char × List Char) :=
  let ds := (cs.take width).takeWhile Char.isDigit
  if ds = [] then none else some (ds, cs.drop ds.length)

/-- The fraction of the seconds, which need not be there. -/
def readNano (r : Reading) : List Char → Option (Reading × List Char)
  | '.' :: cs => (readNumber 9 cs).map fun (ds, rest) =>
    ({ r with nano := Nat.ofDigitChars 10 ds 0 * 10 ^ (9 - ds.length) }, rest)
  | cs => some (r, cs)

def Directive.read (r : Reading) : Directive → List Char → Option (Reading × List Char)
  | .number x, cs => (readNumber x.width cs).map fun (ds, rest) => (x.store r (Nat.ofDigitChars 10 ds 0), rest)
  | .second, cs => (readNumber 2 cs).bind fun (ds, rest) =>
    readNano { r with second := Nat.ofDigitChars 10 ds 0 } rest
  | .literal c, c' :: cs => if c = c' then some (r, cs) else none
  | .literal _, [] => none

def readAll : List Directive → Reading → List Char → Option Reading
  | [], r, _ => some r
  | d :: ds, r, cs => (d.read r cs).bind fun (r, cs) => readAll ds r cs

/-- The time point of the fields, if there is such a date and such a time of day. -/
def Reading.time (r : Reading) : Option Time :=
  let days := daysFromCivil r.year r.month r.day
  if civil days = (r.year, r.month, r.day) ∧ r.hour < 24 ∧ r.minute < 60 ∧ r.second < 60 then
    some ((((days * 24 + r.hour) * 60 + r.minute) * 60 + r.second) * 1000000000 + r.nano)
  else none

/-- The library that works by directives. -/
def DateLibrary.reference : DateLibrary where
  format fmt us := (directives fmt.toList).flatMap (Directive.write (.ofMicroseconds us))
  parse fmt cs := (readAll (directives fmt.toList) {} cs).bind Reading.time

/-! ### It behaves as documented -/

theorem readNumber_full {w : ℕ} {ds : List Char} {n : ℤ} (h : Digits w ds n) (hw : 0 < w) (rest : List Char) :
    readNumber w (ds ++ rest) = some (ds, rest) := by
  have htake : (ds ++ rest).take w = ds := by rw [← h.length, List.take_left]
  have hall : ds.takeWhile Char.isDigit = ds := List.takeWhile_eq_self_iff.mpr h.digit
  have hne : ds ≠ [] := by
    rintro rfl
    exact absurd h.length hw.ne
  simp only [readNumber, htake, hall, hne, if_false, List.drop_left]

/-- A group that ends before the width does, at a character that is no digit. -/
theorem readNumber_short {w : ℕ} (width : ℕ) {ds rest : List Char} {n : ℤ} (h : Digits w ds n) (hw : 0 < w)
    (hwidth : w ≤ width) (hrest : ∀ c ∈ rest.head?, c.isDigit = false) :
    readNumber width (ds ++ rest) = some (ds, rest) := by
  have hne : ds ≠ [] := by
    rintro rfl
    exact absurd h.length hw.ne
  have hstop : (rest.take (width - w)).takeWhile Char.isDigit = [] := by
    cases rest with
    | nil => simp
    | cons c cs =>
      have hc := hrest c rfl
      cases width - w with
      | zero => rfl
      | succ k => rw [List.take_succ_cons, List.takeWhile_cons_of_neg (by simp [hc])]
  have hds : ((ds ++ rest).take width).takeWhile Char.isDigit = ds := by
    rw [List.take_append, List.take_of_length_le (h.length.trans_le hwidth), h.length,
      List.takeWhile_append_of_pos h.digit, hstop, List.append_nil]
  simp only [readNumber, hds, hne, if_false, List.drop_left]

theorem readNano_micro {ds rest : List Char} {n : ℤ} (r : Reading) (h : Digits 6 ds n)
    (hrest : ∀ c ∈ rest.head?, c.isDigit = false) :
    readNano r ('.' :: (ds ++ rest)) = some ({ r with nano := n * 1000 }, rest) := by
  simp only [readNano, readNumber_short 9 h (by decide) (by decide) hrest, Option.map_some,
    h.length, h.value]
  rfl

/-- The fields that are written are read. -/
def Reading.ofFields (f : TimeFields) : Reading where
  year := (civil f.days).1
  month := (civil f.days).2.1
  day := (civil f.days).2.2
  hour := f.hour
  minute := f.minute
  second := f.second
  nano := f.micro * 1000

theorem Reading.time_ofFields (f : TimeFields) : (Reading.ofFields f).time = some f.toTime := by
  simp only [Reading.time, Reading.ofFields, daysFromCivil_civil, f.hour_range.2, f.minute_range.2,
    f.second_range.2, and_self, if_true, TimeFields.toTime]

theorem readAll_cons {d : Directive} {ds : List Directive} {r r' : Reading} {cs rest : List Char}
    (h : d.read r cs = some (r', rest)) : readAll (d :: ds) r cs = readAll ds r' rest := by
  rw [readAll, h, Option.bind_some]

theorem read_literal (r : Reading) (c : Char) (cs : List Char) :
    (Directive.literal c).read r (c :: cs) = some (r, cs) := by
  rw [Directive.read, if_pos rfl]

theorem read_number (x : DateField) {ds : List Char} {n : ℤ} (h : Digits x.width ds n) (r : Reading)
    (rest : List Char) : (Directive.number x).read r (ds ++ rest) = some (x.store r n, rest) := by
  simp only [Directive.read, readNumber_full h x.width_pos, Option.map_some, h.value]

theorem read_second {ds us : List Char} {n m : ℤ} (h : Digits 2 ds n) (hus : Digits 6 us m) (r : Reading)
    {rest : List Char} (hrest : ∀ c ∈ rest.head?, c.isDigit = false) :
    Directive.second.read r (ds ++ '.' :: (us ++ rest)) =
      some ({ r with second := n, nano := m * 1000 }, rest) := by
  simp only [Directive.read, readNumber_full h (by decide), Option.bind_some, readNano_micro _ hus hrest,
    h.value]

theorem reference_documented : DateLibrary.reference.Documented where
  format_iso us hus := by
    obtain ⟨hlow, hhigh⟩ := hus.year
    rw [Int.mul_ediv_cancel _ (by decide)] at hlow hhigh
    have hfmt : directives "%FT%TZ".toList = [.number .year, .literal '-', .number .month, .literal '-',
      .number .day, .literal 'T', .number .hour, .literal ':', .number .minute, .literal ':', .second,
      .literal 'Z'] := by decide
    refine ⟨.written (.ofMicroseconds us), DateText.written_writes _ ((by decide : (0 : ℤ) ≤ 1970).trans hlow) hhigh, ?_⟩
    simp only [DateLibrary.reference, hfmt, List.flatMap_cons, List.flatMap_nil, Directive.write,
      DateField.width, DateField.value, DateText.iso, DateText.written, List.append_assoc,
      List.cons_append, List.nil_append]
  parse_iso f x _ h := by
    have hfmt : directives "%FT%TZ".toList = [.number .year, .literal '-', .number .month, .literal '-',
      .number .day, .literal 'T', .number .hour, .literal ':', .number .minute, .literal ':', .second,
      .literal 'Z'] := by decide
    have hend : ∀ c ∈ ['Z'].head?, c.isDigit = false := by
      intro c hc
      obtain rfl := Option.some.inj hc
      rfl
    have hread : readAll (directives "%FT%TZ".toList) {} x.iso = some (Reading.ofFields f) := by
      rw [hfmt, DateText.iso, readAll_cons (read_number .year h.year _ _), readAll_cons (read_literal _ _ _),
        readAll_cons (read_number .month h.month _ _), readAll_cons (read_literal _ _ _),
        readAll_cons (read_number .day h.day _ _), readAll_cons (read_literal _ _ _),
        readAll_cons (read_number .hour h.hour _ _), readAll_cons (read_literal _ _ _),
        readAll_cons (read_number .minute h.minute _ _), readAll_cons (read_literal _ _ _),
        readAll_cons (read_second h.second h.micro _ hend), readAll_cons (read_literal _ _ _)]
      rfl
    simp only [DateLibrary.reference, hread, Option.bind_some, Reading.time_ofFields]
  parse_packed f x _ h := by
    have hfmt : directives "%Y%m%dT%H%M%S".toList = [.number .year, .number .month, .number .day,
      .literal 'T', .number .hour, .number .minute, .second] := by decide
    have hread : readAll (directives "%Y%m%dT%H%M%S".toList) {} (x.packed ++ []) =
        some (Reading.ofFields f) := by
      simp only [hfmt, DateText.packed, List.append_assoc, List.cons_append]
      rw [readAll_cons (read_number .year h.year _ _), readAll_cons (read_number .month h.month _ _),
        readAll_cons (read_number .day h.day _ _), readAll_cons (read_literal _ _ _),
        readAll_cons (read_number .hour h.hour _ _), readAll_cons (read_number .minute h.minute _ _),
        readAll_cons (read_second h.second h.micro _ (by simp))]
      rfl
    rw [List.append_nil] at hread
    simp only [DateLibrary.reference, hread, Option.bind_some, Reading.time_ofFields]

end CloudAgent.Utils
