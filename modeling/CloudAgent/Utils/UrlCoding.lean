import CloudAgent.Lib.StdString
import Mathlib.Logic.Function.Basic

/-! `string_urlencode` and `string_urldecode`, with the C locale's characters. -/
namespace CloudAgent.Utils

namespace UrlCoding

def isdigit (c : Int8) : Bool := byteOf '0' ≤ c && c ≤ byteOf '9'

def isupper (c : Int8) : Bool := byteOf 'A' ≤ c && c ≤ byteOf 'Z'

def islower (c : Int8) : Bool := byteOf 'a' ≤ c && c ≤ byteOf 'z'

def isalnum (c : Int8) : Bool := isdigit c || isupper c || islower c

def tolower (c : Int8) : Int8 := if isupper c then c - byteOf 'A' + byteOf 'a' else c

/-- The characters that are kept as they are. -/
def unreserved (c : Int8) : Bool := isalnum c || [byteOf '-', byteOf '_', byteOf '.', byteOf '~'].contains c

/-- A number as a stream prints it under `std::hex` and `std::uppercase`. -/
def printHex (n : ℕ) : List Int8 := (Nat.toDigits 16 n).map fun d => byteOf d.toUpper

/-- What is printed, filled up from the left to the width. -/
def setw (width : ℕ) (fill : Int8) (printed : List Int8) : List Int8 :=
  List.replicate (width - printed.length) fill ++ printed

def escape (c : Int8) : List Int8 := byteOf '%' :: setw 2 (byteOf '0') (printHex c.toUInt8.toNat)

def stringUrlencode (value : List Int8) : List Int8 := value.flatMap fun c => if unreserved c then [c] else escape c

def fromHex (ch : Int8) : Int8 := if isdigit ch then ch - byteOf '0' else tolower ch - byteOf 'a' + 10

/-- A `%` with two more characters behind it stands for a byte, unless one of the two is a null: then the `%` alone is
left out. -/
def stringUrldecode : List Int8 → Except String (List Int8)
  | [] => .ok []
  | c :: rest =>
    if c = byteOf '%' then
      match rest with
      | a :: b :: tail =>
        if a ≠ 0 ∧ b ≠ 0 then ((fromHex a <<< 4 ||| fromHex b) :: ·) <$> stringUrldecode tail
        else stringUrldecode (a :: b :: tail)
      | _ => .error "Lost '%' character"
    else if c = byteOf '+' then (byteOf ' ' :: ·) <$> stringUrldecode rest
    else (c :: ·) <$> stringUrldecode rest

def upperHex (c : Int8) : Bool := isdigit c || (byteOf 'A' ≤ c && c ≤ byteOf 'F')

/-- Unreserved characters, and `%` with two upper-case hex digits. -/
inductive Coded : List Int8 → Prop
  | nil : Coded []
  | plain {c : Int8} {l : List Int8} (hc : unreserved c) (h : Coded l) : Coded (c :: l)
  | escaped {hi lo : Int8} {l : List Int8} (hhi : upperHex hi) (hlo : upperHex lo) (h : Coded l) :
      Coded (byteOf '%' :: hi :: lo :: l)

theorem ne_of_unreserved : ∀ c, unreserved c → c ≠ byteOf '%' ∧ c ≠ byteOf '+' := forall_byte (by decide +kernel)

/-- Every byte is printed with two digits, which are read back as the byte. -/
theorem escape_eq : ∀ c, ∃ hi lo, escape c = [byteOf '%', hi, lo] ∧ upperHex hi ∧ upperHex lo ∧
    fromHex hi <<< 4 ||| fromHex lo = c := by
  have hdigits : ∀ c, (escape c).length = 3 ∧ upperHex ((escape c).getD 1 0) ∧ upperHex ((escape c).getD 2 0) ∧
      fromHex ((escape c).getD 1 0) <<< 4 ||| fromHex ((escape c).getD 2 0) = c := forall_byte (by decide +kernel)
  intro c
  obtain ⟨hlen, hhi, hlo, hc⟩ := hdigits c
  obtain ⟨p, hi, lo, h⟩ := List.length_eq_three.mp hlen
  have hp : p = byteOf '%' := (List.cons.inj h).1.symm
  rw [h] at hhi hlo hc
  exact ⟨hi, lo, by rw [h, hp], hhi, hlo, hc⟩

theorem ne_zero_of_upperHex : ∀ c, upperHex c → c ≠ 0 := forall_byte (by decide +kernel)

theorem stringUrlencode_cons (c : Int8) (s : List Int8) :
    stringUrlencode (c :: s) = (if unreserved c then [c] else escape c) ++ stringUrlencode s := List.flatMap_cons ..

theorem stringUrldecode_plain {c : Int8} (hc : unreserved c) (l : List Int8) :
    stringUrldecode (c :: l) = (c :: ·) <$> stringUrldecode l := by
  obtain ⟨hpercent, hplus⟩ := ne_of_unreserved c hc
  rw [stringUrldecode.eq_def]
  dsimp only
  rw [if_neg hpercent, if_neg hplus]

theorem stringUrldecode_escape (c : Int8) (l : List Int8) :
    stringUrldecode (escape c ++ l) = (c :: ·) <$> stringUrldecode l := by
  obtain ⟨hi, lo, he, hhi, hlo, hc⟩ := escape_eq c
  rw [he, List.cons_append, List.cons_append, List.cons_append, List.nil_append, stringUrldecode, if_pos rfl,
    if_pos ⟨ne_zero_of_upperHex hi hhi, ne_zero_of_upperHex lo hlo⟩, hc]

theorem stringUrldecode_stringUrlencode (s : List Int8) : stringUrldecode (stringUrlencode s) = .ok s := by
  induction s with
  | nil => rfl
  | cons c s ih =>
    rw [stringUrlencode_cons]
    split
    next hc => rw [List.cons_append, List.nil_append, stringUrldecode_plain hc, ih]; rfl
    next => rw [stringUrldecode_escape, ih]; rfl

theorem coded_stringUrlencode (s : List Int8) : Coded (stringUrlencode s) := by
  induction s with
  | nil => exact .nil
  | cons c s ih =>
    rw [stringUrlencode_cons]
    split
    next hc => exact .plain hc ih
    next =>
      obtain ⟨hi, lo, he, hhi, hlo, -⟩ := escape_eq c
      rw [he]
      exact .escaped hhi hlo ih

/-- Encoded texts are decoded to what they were, consist of unreserved characters and escapes, and differ where the
texts do. -/
theorem url_coding_lossless : (∀ s, stringUrldecode (stringUrlencode s) = .ok s) ∧
    (∀ s, Coded (stringUrlencode s)) ∧ Function.Injective stringUrlencode := by
  refine ⟨stringUrldecode_stringUrlencode, coded_stringUrlencode, fun s t h => ?_⟩
  have hs := stringUrldecode_stringUrlencode s
  rw [h, stringUrldecode_stringUrlencode] at hs
  exact (Except.ok.inj hs).symm

/-- A `%` that is cut off is refused, and one in front of a null is dropped. -/
example : stringUrldecode [byteOf '%', byteOf '4'] = .error "Lost '%' character" ∧
    stringUrldecode [byteOf '%', 0, byteOf 'b'] = .ok [0, byteOf 'b'] := by decide

end UrlCoding
end CloudAgent.Utils
