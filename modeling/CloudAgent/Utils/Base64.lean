import CloudAgent.Lib.StdString
import Mathlib.Data.Nat.Bitwise

/-! `base64.cc`: bytes as text, three at a time, and back. -/
namespace CloudAgent.Utils
open StdString

namespace Base64

/-- `base64_chars`. -/
def base64Chars (url : Bool) : List Int8 :=
  bytesOf (if url then "ABCDEFGHIJKLMNOPQRSTUVWXYZabcdefghijklmnopqrstuvwxyz0123456789-_"
    else "ABCDEFGHIJKLMNOPQRSTUVWXYZabcdefghijklmnopqrstuvwxyz0123456789+/")

def trailingChar (url : Bool) : Int8 := byteOf (if url then '.' else '=')

/-- A character as an `unsigned char`. -/
def uchar (c : Int8) : ℕ := c.toUInt8.toNat

def charOf (url : Bool) (n : ℕ) : Int8 := (base64Chars url).getD n 0

/-- One round of the loop of `base64_encode`. The tests behind the first byte are made with an `unsigned int`, too. -/
def encodeAt (url : Bool) (s : List Int8) (pos : UInt32) : List Int8 :=
  let a := uchar (s.getD pos.toNat 0)
  let b := uchar (s.getD (pos + 1).toNat 0)
  let c := uchar (s.getD (pos + 2).toNat 0)
  charOf url ((a &&& 0xfc) >>> 2) ::
    if (pos + 1).toNat < s.length then
      charOf url (((a &&& 0x03) <<< 4) + ((b &&& 0xf0) >>> 4)) ::
        if (pos + 2).toNat < s.length then
          [charOf url (((b &&& 0x0f) <<< 2) + ((c &&& 0xc0) >>> 6)), charOf url (c &&& 0x3f)]
        else [charOf url ((b &&& 0x0f) <<< 2), trailingChar url]
    else [charOf url ((a &&& 0x03) <<< 4), trailingChar url, trailingChar url]

/-- The loop of `base64_encode`. `none`: it has not ended after `fuel` rounds. -/
def encodeLoop (url : Bool) (s : List Int8) : (fuel : ℕ) → (pos : UInt32) → (ret : List Int8) → Option (List Int8)
  | 0, _, _ => none
  | fuel + 1, pos, ret =>
    if pos.toNat < s.length then encodeLoop url s fuel (pos + 3) (ret ++ encodeAt url s pos) else some ret

def base64Encode (fuel : ℕ) (url : Bool) (s : List Int8) : Option (List Int8) := encodeLoop url s fuel 0 []

/-- How decoding ends without a result: what `pos_of_char` throws, or a read behind the null of the string. -/
inductive Fault
  | thrown | outside
  deriving DecidableEq, Repr

/-- `pos_of_char`, for both sets of characters. -/
def posOfChar (chr : Int8) : Except Fault ℕ :=
  let c := uchar chr
  if uchar (byteOf 'A') ≤ c ∧ c ≤ uchar (byteOf 'Z') then .ok (c - uchar (byteOf 'A'))
  else if uchar (byteOf 'a') ≤ c ∧ c ≤ uchar (byteOf 'z') then .ok (c - uchar (byteOf 'a') + 25 + 1)
  else if uchar (byteOf '0') ≤ c ∧ c ≤ uchar (byteOf '9') then .ok (c - uchar (byteOf '0') + 25 + 25 + 2)
  else if chr = byteOf '+' ∨ chr = byteOf '-' then .ok 62
  else if chr = byteOf '/' ∨ chr = byteOf '_' then .ok 63
  else .error .thrown

/-- `operator[]` of a string, which has a null behind its last character. -/
def charAt (s : List Int8) (i : ℕ) : Except Fault Int8 :=
  if i < s.length then .ok (s.getD i 0) else if i = s.length then .ok 0 else .error .outside

def trailing (c : Int8) : Bool := c = byteOf '=' || c = byteOf '.'

/-- One round of the loop of `decode`, on what is left of the string. -/
def decodeGroup (s : List Int8) : Except Fault (List Int8) := do
  let posOfChar1 ← posOfChar (← charAt s 1)
  let posOfChar0 ← posOfChar (← charAt s 0)
  let first := Int8.ofNat ((posOfChar0 <<< 2) + ((posOfChar1 &&& 0x30) >>> 4))
  let third ← charAt s 2
  if trailing third then return [first]
  let posOfChar2 ← posOfChar third
  let second := Int8.ofNat (((posOfChar1 &&& 0x0f) <<< 4) + ((posOfChar2 &&& 0x3c) >>> 2))
  let fourth ← charAt s 3
  if trailing fourth then return [first, second]
  let posOfChar3 ← posOfChar fourth
  return [first, second, Int8.ofNat (((posOfChar2 &&& 0x03) <<< 6) + posOfChar3)]

/-- The loop of `decode`. -/
def decodeLoop : List Int8 → Except Fault (List Int8)
  | [] => .ok []
  | a :: b :: c :: d :: rest => do return (← decodeGroup [a, b, c, d]) ++ (← decodeLoop rest)
  | s => decodeGroup s

/-- `base64_decode`. -/
def base64Decode (removeLinebreaks : Bool) (encodedString : List Int8) : Except Fault (List Int8) :=
  decodeLoop (if removeLinebreaks then encodedString.filter (· ≠ byteOf '\n') else encodedString)

/-- The loop of `insert_linebreaks`. With a distance of zero the source inserts for ever. -/
def insertFrom (distance : ℕ) (str : List Int8) (pos : ℕ) : List Int8 :=
  if 0 < distance ∧ pos < str.length then
    insertFrom distance (str.take pos ++ byteOf '\n' :: str.drop pos) (pos + (distance + 1))
  else str
termination_by str.length - pos
decreasing_by
  simp only [List.length_append, List.length_cons, List.length_take, List.length_drop]
  omega

def insertLinebreaks (str : List Int8) (distance : ℕ) : List Int8 :=
  if str.length = 0 then [] else insertFrom distance str distance

def base64EncodePem (fuel : ℕ) (s : List Int8) : Option (List Int8) :=
  (base64Encode fuel false s).map (insertLinebreaks · 64)

def base64EncodeMime (fuel : ℕ) (s : List Int8) : Option (List Int8) :=
  (base64Encode fuel false s).map (insertLinebreaks · 76)

/-- The text of the bytes, group by group. What is left at the end is filled up with the trailing character. -/
def encodeGroups (url : Bool) : List Int8 → List Int8
  | [] => []
  | [a] =>
    [charOf url ((uchar a &&& 0xfc) >>> 2), charOf url ((uchar a &&& 0x03) <<< 4), trailingChar url, trailingChar url]
  | [a, b] =>
    [charOf url ((uchar a &&& 0xfc) >>> 2), charOf url (((uchar a &&& 0x03) <<< 4) + ((uchar b &&& 0xf0) >>> 4)),
      charOf url ((uchar b &&& 0x0f) <<< 2), trailingChar url]
  | a :: b :: c :: rest =>
    charOf url ((uchar a &&& 0xfc) >>> 2) ::
      charOf url (((uchar a &&& 0x03) <<< 4) + ((uchar b &&& 0xf0) >>> 4)) ::
      charOf url (((uchar b &&& 0x0f) <<< 2) + ((uchar c &&& 0xc0) >>> 6)) ::
      charOf url (uchar c &&& 0x3f) :: encodeGroups url rest

/-! ### Sextets -/

/-- A mask in front of a shift takes digits out of the middle. -/
theorem shiftRight_and_mask (n m j k : ℕ) (hm : (2 ^ k - 1) <<< j = m) : (n &&& m) >>> j = n / 2 ^ j % 2 ^ k := by
  rw [← hm, Nat.shiftRight_and_distrib, Nat.shiftLeft_shiftRight, Nat.and_two_pow_sub_one_eq_mod, Nat.shiftRight_eq_div_pow]

theorem uchar_lt (c : Int8) : uchar c < 256 := c.toUInt8.toNat_lt

theorem ofNat_uchar : ∀ c, Int8.ofNat (uchar c) = c := forall_byte (by decide +kernel)

section sextets
variable {n : ℕ}

theorem high_six (h : n < 256) : (n &&& 0xfc) >>> 2 = n / 4 := by
  rw [shiftRight_and_mask n 0xfc 2 6 rfl]
  omega

theorem low_two (n : ℕ) : (n &&& 0x03) <<< 4 = n % 4 * 16 := by
  rw [Nat.and_two_pow_sub_one_eq_mod n 2, Nat.shiftLeft_eq]

theorem high_four (h : n < 256) : (n &&& 0xf0) >>> 4 = n / 16 := by
  rw [shiftRight_and_mask n 0xf0 4 4 rfl]
  omega

theorem low_four (n : ℕ) : (n &&& 0x0f) <<< 2 = n % 16 * 4 := by
  rw [Nat.and_two_pow_sub_one_eq_mod n 4, Nat.shiftLeft_eq]

theorem high_two (h : n < 256) : (n &&& 0xc0) >>> 6 = n / 64 := by
  rw [shiftRight_and_mask n 0xc0 6 2 rfl]
  omega

theorem low_six (n : ℕ) : n &&& 0x3f = n % 64 := Nat.and_two_pow_sub_one_eq_mod n 6

end sextets

/-- The bytes of four sextets, as `decode` puts them together. -/
theorem group_bytes (p q r t : ℕ) :
    (p <<< 2) + ((q &&& 0x30) >>> 4) = p * 4 + q / 16 % 4 ∧
      ((q &&& 0x0f) <<< 4) + ((r &&& 0x3c) >>> 2) = q % 16 * 16 + r / 4 % 16 ∧
        ((r &&& 0x03) <<< 6) + t = r % 4 * 64 + t := by
  refine ⟨?_, ?_, ?_⟩
  · rw [shiftRight_and_mask q 0x30 4 2 rfl, Nat.shiftLeft_eq]
    rfl
  · rw [shiftRight_and_mask r 0x3c 2 4 rfl, Nat.and_two_pow_sub_one_eq_mod q 4, Nat.shiftLeft_eq]
    rfl
  · rw [Nat.and_two_pow_sub_one_eq_mod r 2, Nat.shiftLeft_eq]

/-! ### Characters -/

theorem posOfChar_charOf (url : Bool) : ∀ n < 64, posOfChar (charOf url n) = .ok n := by
  cases url <;> decide +kernel

theorem charOf_plain (url : Bool) : ∀ n < 64, trailing (charOf url n) = false ∧ charOf url n ≠ byteOf '\n' := by
  cases url <;> decide +kernel

theorem trailingChar_plain (url : Bool) : trailing (trailingChar url) = true ∧ trailingChar url ≠ byteOf '\n' := by
  cases url <;> decide

/-! ### Groups -/

section groups
variable {a b c d : Int8} {p q r t : ℕ}

theorem decodeGroup_four (ha : posOfChar a = .ok p) (hb : posOfChar b = .ok q) (hc : posOfChar c = .ok r)
    (hd : posOfChar d = .ok t) (hc' : trailing c = false) (hd' : trailing d = false) :
    decodeGroup [a, b, c, d] = .ok [Int8.ofNat (p * 4 + q / 16 % 4), Int8.ofNat (q % 16 * 16 + r / 4 % 16),
      Int8.ofNat (r % 4 * 64 + t)] := by
  obtain ⟨h1, h2, h3⟩ := group_bytes p q r t
  simp [decodeGroup, charAt, ha, hb, hc, hd, hc', hd', h1, h2, h3, bind, Except.bind, pure, Except.pure]

theorem decodeGroup_three (ha : posOfChar a = .ok p) (hb : posOfChar b = .ok q) (hc : posOfChar c = .ok r)
    (hc' : trailing c = false) (hd' : trailing d = true) :
    decodeGroup [a, b, c, d] = .ok [Int8.ofNat (p * 4 + q / 16 % 4), Int8.ofNat (q % 16 * 16 + r / 4 % 16)] := by
  obtain ⟨h1, h2, -⟩ := group_bytes p q r 0
  simp [decodeGroup, charAt, ha, hb, hc, hc', hd', h1, h2, bind, Except.bind, pure, Except.pure]

theorem decodeGroup_two (ha : posOfChar a = .ok p) (hb : posOfChar b = .ok q) (hc' : trailing c = true) (l : List Int8) :
    decodeGroup (a :: b :: c :: l) = .ok [Int8.ofNat (p * 4 + q / 16 % 4)] := by
  obtain ⟨h1, -, -⟩ := group_bytes p q 0 0
  simp [decodeGroup, charAt, ha, hb, hc', h1, bind, Except.bind, pure, Except.pure]

end groups

/-! ### Texts that are encoded and decoded -/

section encoding
variable (url : Bool)

theorem decodeGroup_encode_three (a b c : Int8) :
    decodeGroup (encodeGroups url [a, b, c]) = .ok [a, b, c] := by
  have ha := uchar_lt a
  have hb := uchar_lt b
  have hc := uchar_lt c
  rw [encodeGroups, encodeGroups, high_six ha, low_two, high_four hb, low_four, high_two hc, low_six,
    decodeGroup_four (posOfChar_charOf url _ (by omega)) (posOfChar_charOf url _ (by omega))
      (posOfChar_charOf url _ (by omega)) (posOfChar_charOf url _ (by omega)) (charOf_plain url _ (by omega)).1
      (charOf_plain url _ (by omega)).1]
  have hfirst : uchar a / 4 * 4 + (uchar a % 4 * 16 + uchar b / 16) / 16 % 4 = uchar a := by omega
  have hsecond : (uchar a % 4 * 16 + uchar b / 16) % 16 * 16 + (uchar b % 16 * 4 + uchar c / 64) / 4 % 16 = uchar b := by
    omega
  have hthird : (uchar b % 16 * 4 + uchar c / 64) % 4 * 64 + uchar c % 64 = uchar c := by omega
  rw [hfirst, hsecond, hthird, ofNat_uchar, ofNat_uchar, ofNat_uchar]

theorem decodeGroup_encode_two (a b : Int8) : decodeGroup (encodeGroups url [a, b]) = .ok [a, b] := by
  have ha := uchar_lt a
  have hb := uchar_lt b
  rw [encodeGroups, high_six ha, low_two, high_four hb, low_four,
    decodeGroup_three (posOfChar_charOf url _ (by omega)) (posOfChar_charOf url _ (by omega))
      (posOfChar_charOf url _ (by omega)) (charOf_plain url _ (by omega)).1 (trailingChar_plain url).1]
  have hfirst : uchar a / 4 * 4 + (uchar a % 4 * 16 + uchar b / 16) / 16 % 4 = uchar a := by omega
  have hsecond : (uchar a % 4 * 16 + uchar b / 16) % 16 * 16 + uchar b % 16 * 4 / 4 % 16 = uchar b := by omega
  rw [hfirst, hsecond, ofNat_uchar, ofNat_uchar]

theorem decodeGroup_encode_one (a : Int8) : decodeGroup (encodeGroups url [a]) = .ok [a] := by
  have ha := uchar_lt a
  rw [encodeGroups, high_six ha, low_two,
    decodeGroup_two (posOfChar_charOf url _ (by omega)) (posOfChar_charOf url _ (by omega)) (trailingChar_plain url).1]
  have hfirst : uchar a / 4 * 4 + uchar a % 4 * 16 / 16 % 4 = uchar a := by omega
  rw [hfirst, ofNat_uchar]

/-- A group of four characters, and what is behind it. -/
theorem decodeLoop_group {g v : List Int8} (hg : g.length = 4) (hv : decodeGroup g = .ok v) (rest : List Int8) :
    decodeLoop (g ++ rest) = (v ++ ·) <$> decodeLoop rest := by
  match g, hg with
  | [a, b, c, d], _ =>
    rw [List.cons_append, List.cons_append, List.cons_append, List.cons_append, List.nil_append, decodeLoop, hv]
    rfl

theorem decodeLoop_encode (s : List Int8) : decodeLoop (encodeGroups url s) = .ok s := by
  induction s using encodeGroups.induct with
  | case1 => rfl
  | case2 a =>
    have h := decodeLoop_group rfl (decodeGroup_encode_one url a) []
    rwa [List.append_nil] at h
  | case3 a b =>
    have h := decodeLoop_group rfl (decodeGroup_encode_two url a b) []
    rwa [List.append_nil] at h
  | case4 a b c rest ih =>
    have h := decodeLoop_group rfl (decodeGroup_encode_three url a b c) (encodeGroups url rest)
    rw [ih] at h
    exact h

theorem length_encodeGroups (s : List Int8) : (encodeGroups url s).length = (s.length + 2) / 3 * 4 := by
  induction s using encodeGroups.induct with
  | case1 => rfl
  | case2 | case3 => simp [encodeGroups]
  | case4 a b c rest ih =>
    simp only [encodeGroups, List.length_cons, ih]
    omega

/-- Everything in an encoded text is from the set or trails. -/
theorem mem_encodeGroups (s : List Int8) :
    ∀ c ∈ encodeGroups url s, (∃ n < 64, c = charOf url n) ∨ c = trailingChar url := by
  have hchar (n : ℕ) (hn : n < 64) : (∃ m < 64, charOf url n = charOf url m) ∨ charOf url n = trailingChar url :=
    .inl ⟨n, hn, rfl⟩
  induction s using encodeGroups.induct with
  | case1 => exact List.forall_mem_nil _
  | case2 a =>
    have ha := uchar_lt a
    rw [encodeGroups, high_six ha, low_two]
    simp only [List.forall_mem_cons]
    exact ⟨hchar _ (by omega), hchar _ (by omega), .inr trivial, .inr trivial, List.forall_mem_nil _⟩
  | case3 a b =>
    have ha := uchar_lt a
    have hb := uchar_lt b
    rw [encodeGroups, high_six ha, low_two, high_four hb, low_four]
    simp only [List.forall_mem_cons]
    exact ⟨hchar _ (by omega), hchar _ (by omega), hchar _ (by omega), .inr trivial, List.forall_mem_nil _⟩
  | case4 a b c rest ih =>
    have ha := uchar_lt a
    have hb := uchar_lt b
    have hc := uchar_lt c
    rw [encodeGroups, high_six ha, low_two, high_four hb, low_four, high_two hc, low_six]
    simp only [List.forall_mem_cons]
    exact ⟨hchar _ (by omega), hchar _ (by omega), hchar _ (by omega), hchar _ (by omega), ih⟩

theorem newline_notMem_encodeGroups (s : List Int8) : byteOf '\n' ∉ encodeGroups url s := by
  intro h
  rcases mem_encodeGroups url s _ h with ⟨n, hn, hc⟩ | hc
  · exact (charOf_plain url n hn).2 hc.symm
  · exact (trailingChar_plain url).2 hc.symm

end encoding

/-! ### Lines -/

/-- The text, cut into lines; the last one may be shorter. -/
structure IsLines (distance : ℕ) (lines : List (List Int8)) (s : List Int8) : Prop where
  flatten : lines.flatten = s
  le : ∀ l ∈ lines, l.length ≤ distance
  full : ∀ l ∈ lines.dropLast, l.length = distance

/-- The loop, once the lines in front of `rest` are ended. -/
theorem insertFrom_eq {distance : ℕ} (hd : 0 < distance) (front rest : List Int8) :
    ∃ lines, IsLines distance lines rest ∧
      insertFrom distance (front ++ rest) (front.length + distance) =
        front ++ List.intercalate [byteOf '\n'] lines := by
  induction hn : rest.length using Nat.strong_induction_on generalizing front rest with
  | _ n ih =>
    rw [insertFrom]
    split
    next hpos =>
      rw [List.length_append] at hpos
      have hlen : (rest.take distance).length = distance := List.length_take_of_le (by omega)
      have hcut : (front ++ rest).take (front.length + distance) = front ++ rest.take distance :=
        List.take_length_add_append distance
      have hdrop : (front ++ rest).drop (front.length + distance) = rest.drop distance :=
        List.drop_length_add_append distance
      obtain ⟨lines, hlines, heq⟩ := ih (rest.drop distance).length (by rw [List.length_drop]; omega)
        (front ++ rest.take distance ++ [byteOf '\n']) (rest.drop distance) rfl
      have hne : lines ≠ [] := by
        rintro rfl
        have hnil : rest.drop distance = [] := hlines.flatten.symm
        rw [List.drop_eq_nil_iff] at hnil
        omega
      refine ⟨rest.take distance :: lines, ⟨?_, ?_, ?_⟩, ?_⟩
      · rw [List.flatten_cons, hlines.flatten, List.take_append_drop]
      · exact List.forall_mem_cons.mpr ⟨hlen.le, hlines.le⟩
      · rw [List.dropLast_cons_of_ne_nil hne]
        exact List.forall_mem_cons.mpr ⟨hlen, hlines.full⟩
      · have hnext : front.length + distance + (distance + 1) =
            (front ++ rest.take distance ++ [byteOf '\n']).length + distance := by
          simp only [List.length_append, List.length_singleton, hlen]
          omega
        rw [hcut, hdrop, hnext, List.append_cons, heq]
        obtain ⟨l, lines, rfl⟩ := List.exists_cons_of_ne_nil hne
        simp [List.intercalate]
    next hpos =>
      rw [List.length_append] at hpos
      refine ⟨[rest], ⟨by simp, ?_, by simp⟩, by simp [List.intercalate]⟩
      rw [List.forall_mem_singleton]
      omega

theorem insertLinebreaks_eq {distance : ℕ} (hd : 0 < distance) (s : List Int8) :
    ∃ lines, IsLines distance lines s ∧ insertLinebreaks s distance = List.intercalate [byteOf '\n'] lines := by
  rw [insertLinebreaks]
  split
  next hs => exact ⟨[], ⟨(List.length_eq_zero_iff.mp hs).symm, by simp, by simp⟩, rfl⟩
  next =>
    obtain ⟨lines, hlines, heq⟩ := insertFrom_eq hd [] s
    rw [List.nil_append, List.nil_append, List.length_nil, Nat.zero_add] at heq
    exact ⟨lines, hlines, heq⟩

theorem filter_eq_self {s : List Int8} (h : byteOf '\n' ∉ s) : s.filter (· ≠ byteOf '\n') = s := by
  rw [List.filter_eq_self]
  intro c hc
  exact decide_eq_true fun heq => h (heq ▸ hc)

/-- Without its newlines a text in lines is what it was. -/
theorem filter_intercalate {lines : List (List Int8)} (h : byteOf '\n' ∉ lines.flatten) :
    (List.intercalate [byteOf '\n'] lines).filter (· ≠ byteOf '\n') = lines.flatten := by
  induction lines with
  | nil => rfl
  | cons l lines ih =>
    rw [List.flatten_cons, List.mem_append, not_or] at h
    cases lines with
    | nil => simpa [List.intercalate] using filter_eq_self h.1
    | cons l' lines =>
      have hcons : List.intercalate [byteOf '\n'] (l :: l' :: lines) =
          l ++ byteOf '\n' :: List.intercalate [byteOf '\n'] (l' :: lines) := by simp [List.intercalate]
      rw [hcons, List.filter_append, filter_eq_self h.1, List.filter_cons_of_neg (by simp), ih h.2]
      rfl

/-! ### Encoding and decoding -/

section loop
variable {url : Bool} {s : List Int8} {pos : UInt32} {n fuel : ℕ}

/-- Behind the first group of bytes the groups go on. -/
theorem encodeGroups_drop (hn : n < s.length) :
    encodeGroups url (s.drop n) = encodeGroups url ((s.drop n).take 3) ++ encodeGroups url (s.drop (n + 3)) := by
  rw [← List.drop_drop]
  match hs : s.drop n with
  | [] => rw [List.drop_eq_nil_iff] at hs; omega
  | [a] | [a, b] => simp [encodeGroups]
  | a :: b :: c :: rest => simp [encodeGroups]

/-- As long as the counter does not start over again, a round encodes the next group. -/
theorem encodeAt_eq (hlen : s.length < 2 ^ 32) (hpos : pos.toNat = n) (hthree : n % 3 = 0) (hn : n < s.length) :
    encodeAt url s pos = encodeGroups url ((s.drop n).take 3) ∧ (pos + 3).toNat = n + 3 := by
  have hone : (pos + 1).toNat = n + 1 := by rw [UInt32.toNat_add, hpos]; simp; omega
  have htwo : (pos + 2).toNat = n + 2 := by rw [UInt32.toNat_add, hpos]; simp; omega
  refine ⟨?_, by rw [UInt32.toNat_add, hpos]; simp; omega⟩
  have hget (k : ℕ) : s.getD (n + k) 0 = (s.drop n).getD k 0 := by
    simp [List.getD_eq_getElem?_getD]
  have hmore (k : ℕ) : n + k < s.length ↔ k < (s.drop n).length := by rw [List.length_drop]; omega
  have hfirst := hget 0
  rw [Nat.add_zero] at hfirst
  simp only [encodeAt, hpos, hone, htwo, hfirst, hget, hmore]
  match hs : s.drop n with
  | [] => rw [List.drop_eq_nil_iff] at hs; omega
  | [a] | [a, b] | a :: b :: c :: rest => simp [encodeGroups]

/-- Every round counts three bytes, and the loop ends in the round that finds none left. -/
theorem encodeLoop_eq (hlen : s.length < 2 ^ 32) (hpos : pos.toNat = n) (hthree : n % 3 = 0) (hn : n < s.length + 3)
    (ret : List Int8) : encodeLoop url s fuel pos ret =
      if s.length + 3 ≤ n + 3 * fuel then some (ret ++ encodeGroups url (s.drop n)) else none := by
  induction fuel generalizing pos n ret with
  | zero => rw [encodeLoop, if_neg (by omega)]
  | succ fuel ih =>
    rw [encodeLoop, hpos]
    split
    next hlt =>
      obtain ⟨hat, hnext⟩ : encodeAt url s pos = encodeGroups url ((s.drop n).take 3) ∧ (pos + 3).toNat = n + 3 :=
        encodeAt_eq hlen hpos hthree hlt
      have hrounds : n + 3 + 3 * fuel = n + 3 * (fuel + 1) := by omega
      rw [ih hnext (by omega) (by omega), hat, encodeGroups_drop hlt, List.append_assoc, hrounds]
    next hge => rw [if_pos (by omega), List.drop_eq_nil_of_le (not_lt.mp hge), encodeGroups, List.append_nil]

/-- From 2^32 bytes on the counter stays below their number, and the loop does not end. -/
theorem encodeLoop_none (hlen : 2 ^ 32 ≤ s.length) (ret : List Int8) : encodeLoop url s fuel pos ret = none := by
  induction fuel generalizing pos ret with
  | zero => rfl
  | succ fuel ih =>
    have hpos : pos.toNat < s.length := pos.toNat_lt.trans_le hlen
    rw [encodeLoop, if_pos hpos, ih]

theorem base64Encode_eq (fuel : ℕ) (url : Bool) (s : List Int8) : base64Encode fuel url s =
    if s.length < 2 ^ 32 ∧ s.length + 3 ≤ 3 * fuel then some (encodeGroups url s) else none := by
  rw [base64Encode]
  by_cases hlen : s.length < 2 ^ 32
  · rw [encodeLoop_eq (n := 0) hlen rfl rfl (by omega)]
    simp only [hlen, true_and, Nat.zero_add, List.nil_append, List.drop_zero]
  · rw [encodeLoop_none (not_lt.mp hlen), if_neg fun h => hlen h.1]

/-- The loop ends for exactly the strings whose length its counter can hold. -/
theorem base64Encode_ends_iff : (∃ fuel t, base64Encode fuel url s = some t) ↔ s.length < 2 ^ 32 := by
  simp only [base64Encode_eq, Option.ite_none_right_eq_some, exists_and_left, Option.some.injEq, exists_eq', and_true,
    exists_and_left]
  exact and_iff_left ⟨s.length + 3, by omega⟩

theorem base64Encode_eq_some {t : List Int8} (h : base64Encode fuel url s = some t) : t = encodeGroups url s := by
  rw [base64Encode_eq, Option.ite_none_right_eq_some] at h
  exact (Option.some.inj h.2).symm

end loop

/-! ### Encoding and decoding -/

/-- The loop ends for exactly the strings of fewer than 2^32 bytes. What is encoded is decoded, with both sets of
characters; it has four characters from the set for every three bytes, and trailing ones. -/
theorem base64_lossless (url removeLinebreaks : Bool) (s : List Int8) :
    ((∃ fuel t, base64Encode fuel url s = some t) ↔ s.length < 2 ^ 32) ∧
      ∀ fuel, ∀ t ∈ base64Encode fuel url s, base64Decode removeLinebreaks t = .ok s ∧
        t.length = (s.length + 2) / 3 * 4 ∧ ∀ c ∈ t, (∃ n < 64, c = charOf url n) ∨ c = trailingChar url := by
  refine ⟨base64Encode_ends_iff, fun fuel t ht => ?_⟩
  obtain rfl := base64Encode_eq_some ht
  refine ⟨?_, length_encodeGroups url s, mem_encodeGroups url s⟩
  rw [base64Decode]
  split
  next => rw [filter_eq_self (newline_notMem_encodeGroups url s), decodeLoop_encode]
  next => exact decodeLoop_encode url s

example : base64Encode 2 false (bytesOf "Hi?") = some (bytesOf "SGk/") ∧
    base64Encode 2 true (bytesOf "Hi") = some (bytesOf "SGk.") := by decide

/-- The encoded text in lines, of which there is one for fewer than 2^32 bytes, is decoded where the line breaks are
removed. -/
theorem lines_of_encoded {distance : ℕ} (hd : 0 < distance) (s : List Int8) :
    ((∃ fuel t, (base64Encode fuel false s).map (insertLinebreaks · distance) = some t) ↔ s.length < 2 ^ 32) ∧
      ∀ fuel, ∀ t ∈ (base64Encode fuel false s).map (insertLinebreaks · distance), base64Decode true t = .ok s ∧
        ∃ body ∈ base64Encode fuel false s, ∃ lines, IsLines distance lines body ∧
          t = List.intercalate [byteOf '\n'] lines := by
  constructor
  · have hends : (∃ fuel t, base64Encode fuel false s = some t) ↔ s.length < 2 ^ 32 := base64Encode_ends_iff
    rw [← hends]
    simp only [Option.map_eq_some_iff]
    exact ⟨fun ⟨fuel, _, body, hbody, _⟩ => ⟨fuel, body, hbody⟩, fun ⟨fuel, body, hbody⟩ => ⟨fuel, _, body, hbody, rfl⟩⟩
  · intro fuel t ht
    obtain ⟨body, hbody, rfl⟩ := Option.map_eq_some_iff.mp ht
    obtain ⟨lines, hlines, heq⟩ := insertLinebreaks_eq hd body
    refine ⟨?_, body, hbody, lines, hlines, heq⟩
    obtain rfl := base64Encode_eq_some hbody
    have hnewline : byteOf '\n' ∉ lines.flatten := hlines.flatten ▸ newline_notMem_encodeGroups false s
    rw [base64Decode, if_pos rfl, heq, filter_intercalate hnewline, hlines.flatten, decodeLoop_encode]

/-- Encoding for PEM or MIME ends for fewer than 2^32 bytes. What is encoded is the encoded text in lines of 64 or 76
characters, and is decoded. -/
theorem lines_lossless (s : List Int8) :
    (((∃ fuel t, base64EncodePem fuel s = some t) ↔ s.length < 2 ^ 32) ∧
      ∀ fuel, ∀ t ∈ base64EncodePem fuel s, base64Decode true t = .ok s ∧ ∃ body ∈ base64Encode fuel false s,
        ∃ lines, IsLines 64 lines body ∧ t = List.intercalate [byteOf '\n'] lines) ∧
      ((∃ fuel t, base64EncodeMime fuel s = some t) ↔ s.length < 2 ^ 32) ∧
        ∀ fuel, ∀ t ∈ base64EncodeMime fuel s, base64Decode true t = .ok s ∧ ∃ body ∈ base64Encode fuel false s,
          ∃ lines, IsLines 76 lines body ∧ t = List.intercalate [byteOf '\n'] lines :=
  ⟨lines_of_encoded (by decide) s, lines_of_encoded (by decide) s⟩

/-! ### Texts that are accepted -/

/-- A character of either set. -/
def sextet (c : Int8) : Bool := (base64Chars false).contains c || (base64Chars true).contains c

/-- The texts that `decode` accepts: groups of four, in which whatever stands behind a trailing third character is not
looked at. The last group may end with that character. -/
inductive Decodable : List Int8 → Prop
  | nil : Decodable []
  | four {a b c d : Int8} {rest : List Int8} (ha : sextet a) (hb : sextet b) (hc : sextet c) (hd : sextet d)
      (h : Decodable rest) : Decodable (a :: b :: c :: d :: rest)
  | three {a b c d : Int8} {rest : List Int8} (ha : sextet a) (hb : sextet b) (hc : sextet c) (hd : trailing d)
      (h : Decodable rest) : Decodable (a :: b :: c :: d :: rest)
  | two {a b c d : Int8} {rest : List Int8} (ha : sextet a) (hb : sextet b) (hc : trailing c) (h : Decodable rest) :
      Decodable (a :: b :: c :: d :: rest)
  | cut {a b c : Int8} (ha : sextet a) (hb : sextet b) (hc : trailing c) : Decodable [a, b, c]

/-- The computation has a result where `p` holds, and throws where it does not. -/
def ThrowsUnless {α : Type} (x : Except Fault α) (p : Prop) : Prop := (p ∧ ∃ v, x = .ok v) ∨ (¬p ∧ x = .error .thrown)

section throws
variable {α β : Type} {x : Except Fault α} {f : α → Except Fault β} {p q : Prop}

theorem throwsUnless_ok (v : α) : ThrowsUnless (.ok v) True := .inl ⟨trivial, v, rfl⟩

theorem throwsUnless_thrown : ThrowsUnless (.error .thrown : Except Fault α) False := .inr ⟨id, rfl⟩

theorem ThrowsUnless.congr (h : ThrowsUnless x p) (hpq : p ↔ q) : ThrowsUnless x q := by
  rwa [ThrowsUnless, ← hpq]

theorem ThrowsUnless.bind (h : ThrowsUnless x p) (hf : ∀ v, x = .ok v → ThrowsUnless (f v) q) :
    ThrowsUnless (x >>= f) (p ∧ q) := by
  rcases h with ⟨hp, v, rfl⟩ | ⟨hp, rfl⟩
  · exact (hf v rfl).congr (and_iff_right hp).symm
  · exact .inr ⟨fun h => hp h.1, rfl⟩

theorem ok_bind (v : α) (f : α → Except Fault β) : (.ok v >>= f) = f v := rfl

theorem ThrowsUnless.bind_false (h : ThrowsUnless x False) (f : α → Except Fault β) : ThrowsUnless (x >>= f) False := by
  rcases h with ⟨hp, -⟩ | ⟨-, rfl⟩
  · exact hp.elim
  · exact throwsUnless_thrown

/-- A result that is the last one with another put around it. -/
theorem ThrowsUnless.map (h : ThrowsUnless x p) (g : α → β) : ThrowsUnless (g <$> x) p := by
  rcases h with ⟨hp, v, rfl⟩ | ⟨hp, rfl⟩
  · exact .inl ⟨hp, g v, rfl⟩
  · exact .inr ⟨hp, rfl⟩

/-- A test that ends the computation. -/
theorem ThrowsUnless.or {b : Bool} (v : α) (h : ThrowsUnless x p) :
    ThrowsUnless (if b then (.ok v) else x) (b = true ∨ p) := by
  cases b with
  | true => exact (throwsUnless_ok v).congr (by simp)
  | false => exact h.congr (by simp)

end throws

theorem mem_base64Chars {url : Bool} {c : Int8} : c ∈ base64Chars url ↔ ∃ n < 64, c = charOf url n := by
  have hlength : (base64Chars url).length = 64 := by cases url <;> rfl
  rw [List.mem_iff_getElem]
  constructor
  · rintro ⟨n, hn, rfl⟩
    exact ⟨n, hlength ▸ hn, (List.getD_eq_getElem _ _ hn).symm⟩
  · rintro ⟨n, hn, rfl⟩
    exact ⟨n, hlength ▸ hn, (List.getD_eq_getElem _ _ (hlength ▸ hn)).symm⟩

theorem sextet_iff {c : Int8} : sextet c = true ↔ ∃ url, ∃ n < 64, c = charOf url n := by
  simp only [sextet, Bool.or_eq_true, List.contains_iff_mem, mem_base64Chars, Bool.exists_bool]

/-- What `pos_of_char` finds is where the character stands in one of the sets. -/
theorem charOf_posOfChar : ∀ c, ∀ n ∈ (posOfChar c).toOption, n < 64 ∧ (c = charOf false n ∨ c = charOf true n) :=
  forall_byte (by decide +kernel)

/-- `pos_of_char` throws for the characters of neither set. -/
theorem throwsUnless_posOfChar (c : Int8) : ThrowsUnless (posOfChar c) (sextet c = true) := by
  have hthrown (fault : Fault) (h : posOfChar c = .error fault) : fault = .thrown := by
    rw [posOfChar] at h
    repeat' split at h
    all_goals simp_all
  cases hpos : posOfChar c with
  | ok n =>
    obtain ⟨hn, hc⟩ := charOf_posOfChar c n (by rw [hpos]; rfl)
    exact .inl ⟨sextet_iff.mpr (hc.elim (⟨false, n, hn, ·⟩) (⟨true, n, hn, ·⟩)), n, rfl⟩
  | error fault =>
    refine .inr ⟨fun hc => ?_, by rw [hthrown fault hpos]⟩
    obtain ⟨url, n, hn, rfl⟩ := sextet_iff.mp hc
    rw [posOfChar_charOf url n hn] at hpos
    cases hpos

/-- The null behind a string is of neither set, and does not trail. -/
theorem null_plain : sextet 0 = false ∧ trailing 0 = false := by decide +kernel

/-- What a group needs, with `c` and `d` its last two characters. -/
def GroupOk (a b c d : Int8) : Prop :=
  sextet a = true ∧ sextet b = true ∧ (trailing c = true ∨ sextet c = true ∧ (trailing d = true ∨ sextet d = true))

theorem throwsUnless_decodeGroup {a b c d : Int8} {s : List Int8} (ha : charAt s 0 = .ok a) (hb : charAt s 1 = .ok b)
    (hc : charAt s 2 = .ok c) (hd : charAt s 3 = .ok d) : ThrowsUnless (decodeGroup s) (GroupOk a b c d) := by
  rw [decodeGroup, ha, hb, hc, hd]
  have hgroup := (throwsUnless_posOfChar b).bind fun q _ => (throwsUnless_posOfChar a).bind fun p _ =>
    ThrowsUnless.or (b := trailing c) [Int8.ofNat ((p <<< 2) + ((q &&& 0x30) >>> 4))]
      ((throwsUnless_posOfChar c).bind fun r _ => ThrowsUnless.or (b := trailing d)
        [Int8.ofNat ((p <<< 2) + ((q &&& 0x30) >>> 4)), Int8.ofNat (((q &&& 0x0f) <<< 4) + ((r &&& 0x3c) >>> 2))]
        ((throwsUnless_posOfChar d).bind fun t _ => throwsUnless_ok
          [Int8.ofNat ((p <<< 2) + ((q &&& 0x30) >>> 4)), Int8.ofNat (((q &&& 0x0f) <<< 4) + ((r &&& 0x3c) >>> 2)),
            Int8.ofNat (((r &&& 0x03) <<< 6) + t)]))
  refine ThrowsUnless.congr hgroup ?_
  simp only [GroupOk, and_true]
  tauto

/-- A group that is cut off after two characters or one. -/
theorem throwsUnless_decodeGroup_short {s : List Int8} (hs : s.length = 1 ∨ s.length = 2) :
    ThrowsUnless (decodeGroup s) False := by
  rw [decodeGroup]
  have hnull : ThrowsUnless (posOfChar 0) False :=
    (throwsUnless_posOfChar 0).congr (by simp only [null_plain.1, Bool.false_eq_true])
  rcases hs with hs | hs
  · obtain ⟨a, rfl⟩ := List.length_eq_one_iff.mp hs
    have hend : charAt [a] 1 = .ok 0 := rfl
    rw [hend, ok_bind]
    exact hnull.bind_false _
  · obtain ⟨a, b, rfl⟩ := List.length_eq_two.mp hs
    have ha : charAt [a, b] 0 = .ok a := rfl
    have hb : charAt [a, b] 1 = .ok b := rfl
    have hend : charAt [a, b] 2 = .ok 0 := rfl
    simp only [ha, hb, hend, ok_bind, null_plain.2, Bool.false_eq_true, if_false]
    refine ThrowsUnless.congr (p := sextet b ∧ sextet a ∧ False) ?_ (by simp only [and_false])
    exact (throwsUnless_posOfChar b).bind fun q _ => (throwsUnless_posOfChar a).bind fun p _ => hnull.bind_false _

theorem decodable_group_iff {a b c d : Int8} {rest : List Int8} :
    Decodable (a :: b :: c :: d :: rest) ↔ GroupOk a b c d ∧ Decodable rest := by
  constructor
  · intro h
    cases h with
    | four ha hb hc hd h => exact ⟨⟨ha, hb, .inr ⟨hc, .inr hd⟩⟩, h⟩
    | three ha hb hc hd h => exact ⟨⟨ha, hb, .inr ⟨hc, .inl hd⟩⟩, h⟩
    | two ha hb hc h => exact ⟨⟨ha, hb, .inl hc⟩, h⟩
  · rintro ⟨⟨ha, hb, hc | ⟨hc, hd | hd⟩⟩, h⟩
    · exact .two ha hb hc h
    · exact .three ha hb hc hd h
    · exact .four ha hb hc hd h

theorem decodable_cut_iff {a b c : Int8} : Decodable [a, b, c] ↔ GroupOk a b c 0 := by
  rw [GroupOk, null_plain.1, null_plain.2]
  constructor
  · intro h
    cases h with
    | cut ha hb hc => exact ⟨ha, hb, .inl hc⟩
  · rintro ⟨ha, hb, hc | hc⟩
    · exact .cut ha hb hc
    · simp at hc

/-- Decoding has a result for the decodable texts, and throws for all others; it never reads behind the text's null. -/
theorem throwsUnless_decodeLoop (s : List Int8) : ThrowsUnless (decodeLoop s) (Decodable s) := by
  induction s using decodeLoop.induct with
  | case1 => exact (throwsUnless_ok []).congr (iff_of_true trivial .nil)
  | case2 a b c d rest ih =>
    rw [decodeLoop]
    have hloop := (throwsUnless_decodeGroup (s := [a, b, c, d]) rfl rfl rfl rfl).bind fun v _ => ih.map (v ++ ·)
    exact hloop.congr decodable_group_iff.symm
  | case3 s hnil hfour =>
    match s with
    | [] => exact absurd rfl hnil
    | [a] => exact (throwsUnless_decodeGroup_short (.inl rfl)).congr (iff_of_false id nofun)
    | [a, b] => exact (throwsUnless_decodeGroup_short (.inr rfl)).congr (iff_of_false id nofun)
    | [a, b, c] => exact (throwsUnless_decodeGroup rfl rfl rfl rfl).congr decodable_cut_iff.symm
    | a :: b :: c :: d :: rest => exact absurd rfl (hfour a b c d rest)

/-- Decoding reads no character behind the null of the text, and has a result for exactly the decodable ones. -/
theorem decode_iff (removeLinebreaks : Bool) (s : List Int8) :
    base64Decode removeLinebreaks s ≠ .error .outside ∧ ((∃ v, base64Decode removeLinebreaks s = .ok v) ↔
      Decodable (if removeLinebreaks then s.filter (· ≠ byteOf '\n') else s)) := by
  rw [base64Decode]
  rcases throwsUnless_decodeLoop (if removeLinebreaks then s.filter (· ≠ byteOf '\n') else s) with ⟨hs, v, hv⟩ | ⟨hs, hv⟩
  · rw [hv]
    exact ⟨nofun, iff_of_true ⟨v, rfl⟩ hs⟩
  · rw [hv]
    exact ⟨by decide, iff_of_false nofun hs⟩

/-- A group that is cut off in front of the second trailing character is accepted, one without either is not. -/
example : base64Decode false (bytesOf "SGk=SA=") = .ok (bytesOf "HiH") ∧
    base64Decode false (bytesOf "SGk=SA") = .error .thrown := by decide +kernel

end Base64
end CloudAgent.Utils
