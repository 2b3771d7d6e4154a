import Mathlib.Algebra.Group.Nat.Defs
import Mathlib.Data.List.Basic
import Mathlib.Data.List.Infix

/-! The standard library's strings as lists of characters: searches that give positions, and ranges between them. -/
namespace CloudAgent

/-- The `char` that a character stands for. -/
def byteOf (c : Char) : Int8 := Int8.ofNat c.toNat

def bytesOf (s : String) : List Int8 := s.toList.map byteOf

/-- What holds of the 256 bytes. -/
theorem forall_byte {P : Int8 → Prop} (h : ∀ n < 256, P (Int8.ofNat n)) (c : Int8) : P c := by
  have hc : Int8.ofNat c.toUInt8.toNat = c := by
    change (UInt8.ofNat c.toUInt8.toNat).toInt8 = c
    rw [UInt8.ofNat_toNat]
    rfl
  rw [← hc]
  exact h _ c.toUInt8.toNat_lt

/-- The difference of two values of `size_t`. -/
def sizeDiff (a b : ℕ) : ℕ := (a + 2 ^ 64 - b) % 2 ^ 64

theorem sizeDiff_of_le {a b : ℕ} (h : b ≤ a) (ha : a < 2 ^ 64) : sizeDiff a b = a - b := by
  rw [sizeDiff]
  omega

theorem sizeDiff_of_lt {a b : ℕ} (h : a < b) (hb : b < 2 ^ 64) : sizeDiff a b = a + 2 ^ 64 - b := by
  rw [sizeDiff]
  omega

inductive StdError
  | outOfRange | lengthError
  deriving DecidableEq

namespace StdString
variable {α : Type*} {s l r pat : List α} {c : α} {a b n i : ℕ}

theorem singleton_infix : [c] <:+: s ↔ c ∈ s := by
  constructor
  · rintro ⟨l, r, rfl⟩
    simp
  · intro h
    obtain ⟨l, r, rfl⟩ := List.append_of_mem h
    exact ⟨l, r, by simp⟩

theorem exists_last_of_mem (h : c ∈ s) : ∃ l r, s = l ++ c :: r ∧ c ∉ r := by
  obtain ⟨r, l, hs, hr⟩ := List.eq_append_cons_of_mem (List.mem_reverse.mpr h)
  refine ⟨l.reverse, r.reverse, ?_, by rwa [List.mem_reverse]⟩
  have hrev := congrArg List.reverse hs
  rw [List.reverse_reverse] at hrev
  simpa using hrev

/-! ### Replacing -/

/-- `replace` of `n1` characters from `pos` on by `n2` times the same one; a text may have `maxSize` characters. -/
def replaceFill (maxSize : ℕ) (s : List α) (pos n1 n2 : ℕ) (c : α) : Except StdError (List α) :=
  if s.length < pos then .error .outOfRange
  else
    let n1 := min n1 (s.length - pos)
    if maxSize - (s.length - n1) < n2 then .error .lengthError
    else .ok (s.take pos ++ List.replicate n2 c ++ s.drop (pos + n1))

theorem replaceFill_append {maxSize : ℕ} (l m r : List α) (c : α) (h : (l ++ m ++ r).length ≤ maxSize) :
    replaceFill maxSize (l ++ m ++ r) l.length m.length m.length c = .ok (l ++ List.replicate m.length c ++ r) := by
  have hlen : (l ++ m ++ r).length = l.length + m.length + r.length := by
    rw [List.length_append, List.length_append]
  have hmin : min m.length ((l ++ m ++ r).length - l.length) = m.length := by omega
  have hdrop : (l ++ m ++ r).drop (l.length + m.length) = r := by
    rw [← List.length_append, List.drop_left]
  have htake : (l ++ m ++ r).take l.length = l := by
    rw [List.append_assoc, List.take_left]
  rw [replaceFill, if_neg (by omega)]
  dsimp only
  rw [hmin, if_neg (by omega), hdrop, htake]

/-! ### Ranges between positions, as iterators give them -/

/-- The characters from one position up to another. -/
def slice (s : List α) (first last : ℕ) : List α := (s.take last).drop first

/-- The text of a range. `none`: the range is inverted. -/
def range (s : List α) (first last : ℕ) : Option (List α) := if first ≤ last then some (slice s first last) else none

theorem range_eq_some {m : List α} (h : range s a b = some m) : a ≤ b ∧ m = slice s a b := by
  rw [range] at h
  split at h
  next hab => exact ⟨hab, (Option.some.inj h).symm⟩
  · cases h

theorem range_of_le (h : a ≤ b) : range s a b = some (slice s a b) := if_pos h

/-- A range that is only formed under a condition. -/
theorem exists_if_range {p : Prop} [Decidable p] (h : p → a ≤ b) :
    ∃ m, (if p then range s a b else some []) = some m := by
  split
  next hp => exact ⟨_, range_of_le (h hp)⟩
  · exact ⟨_, rfl⟩

@[simp] theorem slice_self (s : List α) (a : ℕ) : slice s a a = [] := by
  rw [slice, List.drop_eq_nil_iff, List.length_take]
  exact Nat.min_le_left ..

@[simp] theorem slice_length (s : List α) (a : ℕ) : slice s a s.length = s.drop a := by
  rw [slice, List.take_length]

@[simp] theorem slice_zero (s : List α) (b : ℕ) : slice s 0 b = s.take b := by
  rw [slice, List.drop_zero]

theorem slice_append (hab : a ≤ b) (hbn : b ≤ n) : slice s a b ++ slice s b n = slice s a n := by
  have htake : slice s a b = ((s.take n).drop a).take (b - a) := by
    rw [slice, ← List.drop_take, List.take_take, Nat.min_eq_left hbn]
  have hdrop : slice s b n = ((s.take n).drop a).drop (b - a) := by
    rw [slice, List.drop_drop, Nat.add_sub_cancel' hab]
  rw [htake, hdrop, List.take_append_drop, slice]

theorem take_slice (h : a + n ≤ b) : (slice s a b).take n = slice s a (a + n) := by
  rw [slice, slice, List.drop_take, List.drop_take, List.take_take, Nat.add_sub_cancel_left, Nat.min_eq_left (by omega)]

theorem slice_subset {a' b' : ℕ} (ha : a' ≤ a) (hb : b ≤ b') : slice s a b ⊆ slice s a' b' := by
  have htake : s.take b <+: s.take b' := List.take_prefix_take_left hb
  intro x hx
  have hlonger : x ∈ slice s a b' := (List.IsPrefix.drop htake a).subset hx
  rw [slice] at hlonger ⊢
  exact (List.drop_suffix_drop_left _ ha).subset hlonger

theorem slice_eq_cons (h : s[a]? = some c) (hab : a < b) : slice s a b = c :: slice s (a + 1) b := by
  obtain ⟨ha, rfl⟩ := List.getElem?_eq_some_iff.mp h
  have hlt : a < (s.take b).length := by rw [List.length_take]; omega
  rw [slice, List.drop_eq_getElem_cons hlt, List.getElem_take, slice]

/-! ### Searches -/

variable [DecidableEq α]

/-- The first position at which `pat` stands. -/
def findPat (pat : List α) : List α → Option ℕ
  | [] => if pat = [] then some 0 else none
  | c :: s => if pat.isPrefixOf (c :: s) then some 0 else (findPat pat s).map (· + 1)

/-- `find`, from a position on. -/
def find (s pat : List α) (pos : ℕ) : Option ℕ :=
  if pos ≤ s.length then (findPat pat (s.drop pos)).map (pos + ·) else none

/-- `find_last_of` for a single character. -/
def findLastOf (s : List α) (c : α) : Option ℕ :=
  if c ∈ s then some (s.length - 1 - s.reverse.idxOf c) else none

/-- Where a pattern is found it stands, and neither in front of that place nor across its border. -/
theorem findPat_eq_some (h : findPat pat s = some i) :
    ∃ l r, s = l ++ (pat ++ r) ∧ l.length = i ∧ (pat ≠ [] → ¬ pat <:+: l ++ pat.dropLast) := by
  have hself (hp : pat ≠ []) : ¬ pat <:+: [] ++ pat.dropLast := by
    intro hinf
    have hlen := hinf.length_le
    have hpos := List.length_pos_iff.mpr hp
    rw [List.nil_append, List.length_dropLast] at hlen
    omega
  induction s generalizing i with
  | nil =>
    rw [findPat] at h
    split at h
    next hp => exact ⟨[], [], by rw [hp]; rfl, Option.some.inj h, hself⟩
    · cases h
  | cons c s ih =>
    rw [findPat] at h
    split at h
    next hp =>
      obtain ⟨r, hr⟩ := List.isPrefixOf_iff_prefix.mp hp
      exact ⟨[], r, hr.symm, Option.some.inj h, hself⟩
    next hp =>
      obtain ⟨j, hj, rfl⟩ := Option.map_eq_some_iff.mp h
      obtain ⟨l, r, hs, hl, hfirst⟩ := ih hj
      refine ⟨c :: l, r, by rw [hs]; rfl, by rw [List.length_cons, hl], fun hne => ?_⟩
      rw [List.cons_append, List.infix_cons_iff]
      rintro (hpre | hinf)
      · refine hp (List.isPrefixOf_iff_prefix.mpr (hpre.trans ?_))
        rw [hs, List.cons_prefix_cons]
        exact ⟨rfl, (List.prefix_append_right_inj l).mpr (pat.dropLast_prefix.trans (List.prefix_append pat r))⟩
      · exact hfirst hne hinf

theorem findPat_append (hfirst : ¬ pat <:+: l ++ pat.dropLast) : findPat pat (l ++ (pat ++ r)) = some l.length := by
  induction l with
  | nil =>
    rw [List.nil_append]
    cases hs : pat ++ r with
    | nil => rw [findPat, if_pos (List.append_eq_nil_iff.mp hs).1]; rfl
    | cons c s =>
      rw [findPat, if_pos (List.isPrefixOf_iff_prefix.mpr (hs ▸ List.prefix_append pat r))]
      rfl
  | cons c l ih =>
    rw [List.cons_append, List.infix_cons_iff, not_or] at hfirst
    have hpre : ¬ pat <+: c :: (l ++ (pat ++ r)) := by
      intro hpre
      have hborder : c :: (l ++ pat.dropLast) <+: c :: (l ++ (pat ++ r)) := by
        rw [List.cons_prefix_cons]
        exact ⟨rfl, (List.prefix_append_right_inj l).mpr (pat.dropLast_prefix.trans (List.prefix_append pat r))⟩
      refine hfirst.1 (List.prefix_of_prefix_length_le hpre hborder ?_)
      rw [List.length_cons, List.length_append, List.length_dropLast]
      omega
    rw [List.cons_append, findPat, if_neg fun h => hpre (List.isPrefixOf_iff_prefix.mp h), ih hfirst.2]
    rfl

theorem find_append_left (l s pat : List α) : find (l ++ s) pat l.length = (findPat pat s).map (l.length + ·) := by
  rw [find, if_pos (by rw [List.length_append]; omega), List.drop_left]

theorem find_zero (s pat : List α) : find s pat 0 = findPat pat s := by
  rw [find, if_pos (Nat.zero_le _), List.drop_zero]
  cases findPat pat s with
  | none => rfl
  | some i => exact congrArg some (Nat.zero_add i)

theorem findLastOf_of_notMem (h : c ∉ s) : findLastOf s c = none := if_neg h

theorem findLastOf_append (h : c ∉ r) : findLastOf (l ++ c :: r) c = some l.length := by
  have hidx : (l ++ c :: r).reverse.idxOf c = r.length := by
    rw [List.reverse_append, List.reverse_cons, List.append_assoc,
      List.idxOf_append_of_notMem (by rwa [List.mem_reverse]), List.singleton_append, List.idxOf_cons_self,
      List.length_reverse, Nat.add_zero]
  rw [findLastOf, if_pos (by simp), hidx, List.length_append, List.length_cons]
  congr 1
  omega

/-- `std::find` in a range: the end of the range where the character is not in it. `none`: the range is inverted. -/
def findIn (s : List α) (first last : ℕ) (c : α) : Option ℕ :=
  if first ≤ last then some (first + (slice s first last).idxOf c) else none

theorem findIn_of_le (h : a ≤ b) : findIn s a b c = some (a + (slice s a b).idxOf c) := if_pos h

theorem notMem_take_idxOf (s : List α) (c : α) : c ∉ s.take (s.idxOf c) := by
  intro hmem
  exact Nat.lt_irrefl _ ((List.mem_take_iff_idxOf_lt (List.mem_of_mem_take hmem)).mp hmem)

/-- Up to where a character is first met. -/
theorem le_idxOf_iff (h : i ≤ s.length) : i ≤ s.idxOf c ↔ c ∉ s.take i := by
  by_cases hc : c ∈ s
  · rw [List.mem_take_iff_idxOf_lt hc, Nat.not_lt]
  · rw [List.idxOf_eq_length hc]
    exact ⟨fun _ hmem => hc (List.mem_of_mem_take hmem), fun _ => h⟩

/-- What is found lies in the range, the character is not in front of it, and stands there unless the range ends. -/
theorem findIn_eq_some (hb : b ≤ s.length) (h : findIn s a b c = some i) :
    a ≤ i ∧ i ≤ b ∧ c ∉ slice s a i ∧ (i = b ∨ s[i]? = some c) := by
  rw [findIn] at h
  split at h
  next hab =>
    have hlen : (slice s a b).length = b - a := by
      rw [slice, List.length_drop, List.length_take, Nat.min_eq_left hb]
    have hle := List.idxOf_le_length (l := slice s a b) (a := c)
    have hi := Option.some.inj h
    have hfront : slice s a i = (slice s a b).take ((slice s a b).idxOf c) := by
      rw [← hi, take_slice (by omega)]
    refine ⟨by omega, by omega, by rw [hfront]; exact notMem_take_idxOf _ c, ?_⟩
    obtain hend | hin := Nat.eq_or_lt_of_le hle
    · exact .inl (by omega)
    · right
      have hat := List.getElem_idxOf hin
      have hget : (slice s a b)[(slice s a b).idxOf c]? = some c := by rw [List.getElem?_eq_getElem hin, hat]
      rw [slice, List.getElem?_drop, List.getElem?_take, ← slice, hi] at hget
      split at hget
      · exact hget
      · cases hget
  · cases h

end StdString
end CloudAgent
