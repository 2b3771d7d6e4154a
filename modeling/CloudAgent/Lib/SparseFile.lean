import Mathlib.Algebra.Group.Defs
import Mathlib.Data.List.Basic
import Mathlib.Order.Defs.LinearOrder

/-! A file that is written at any position: what lies between its end and a position beyond it reads as
zero. -/
namespace CloudAgent.SparseFile

variable {α : Type*} [Zero α]

/-- Reading past the end gives zero. -/
def read (l : List α) (i : ℕ) : α := l[i]?.getD 0

/-- `n` elements: the rest is cut off, or filled up with zeros. -/
def resize (l : List α) (n : ℕ) : List α := l.take n ++ List.replicate (n - l.length) 0

/-- The elements from `p` on are replaced, as far as there are any. -/
def overwrite (l : List α) (p : ℕ) (bs : List α) : List α :=
  l.mapIdx fun i b => if p ≤ i ∧ i < p + bs.length then read bs (i - p) else b

/-- Writing at `p`, with a hole where `p` is beyond the end. -/
def write (l : List α) (p : ℕ) (bs : List α) : List α :=
  if bs = [] then l else overwrite (resize l (max l.length (p + bs.length))) p bs

variable {l l' bs : List α} {p i m n : ℕ}

@[simp] theorem length_resize (l : List α) (n : ℕ) : (resize l n).length = n := by
  simp only [resize, List.length_append, List.length_take, List.length_replicate]
  omega

@[simp] theorem length_overwrite (l : List α) (p : ℕ) (bs : List α) : (overwrite l p bs).length = l.length :=
  List.length_mapIdx

theorem read_of_le (h : l.length ≤ i) : read l i = 0 := by
  rw [read, List.getElem?_eq_none h, Option.getD_none]

theorem read_resize (l : List α) (n i : ℕ) : read (resize l n) i = if i < n then read l i else 0 := by
  split
  · rename_i hi
    by_cases hl : i < l.length
    · rw [read, resize, List.getElem?_append_left (by rw [List.length_take]; omega), List.getElem?_take_of_lt hi, read]
    · rw [read_of_le (Nat.not_lt.mp hl), read, resize, List.getElem?_append_right (by rw [List.length_take]; omega),
        List.getElem?_replicate]
      split <;> rfl
  · rename_i hi
    exact read_of_le (by rw [length_resize]; omega)

theorem read_overwrite (hi : i < l.length) :
    read (overwrite l p bs) i = if p ≤ i ∧ i < p + bs.length then read bs (i - p) else read l i := by
  rw [read, overwrite, List.getElem?_mapIdx, List.getElem?_eq_getElem hi, Option.map_some, Option.getD_some, read, read,
    List.getElem?_eq_getElem hi, Option.getD_some]

/-- Lists of one length are equal where they read the same. -/
theorem eq_of_read (hlen : l.length = l'.length) (h : ∀ i < l.length, read l i = read l' i) : l = l' := by
  apply List.ext_getElem hlen
  intro i hi hi'
  have hread := h i hi
  rwa [read, read, List.getElem?_eq_getElem hi, List.getElem?_eq_getElem hi', Option.getD_some,
    Option.getD_some] at hread

theorem length_write (h : bs ≠ []) : (write l p bs).length = max l.length (p + bs.length) := by
  rw [write, if_neg h, length_overwrite, length_resize]

theorem read_write (l : List α) (p : ℕ) (bs : List α) (i : ℕ) :
    read (write l p bs) i = if p ≤ i ∧ i < p + bs.length then read bs (i - p) else read l i := by
  by_cases h : bs = []
  · subst h
    rw [write, if_pos rfl, List.length_nil, if_neg (by omega)]
  · by_cases hi : i < max l.length (p + bs.length)
    · rw [write, if_neg h, read_overwrite (by rwa [length_resize]), read_resize, if_pos hi]
    · rw [read_of_le (by rw [length_write h]; omega), if_neg (by omega), read_of_le (by omega)]

/-- Writing in place does what writing to the file does, as far as the place goes. -/
theorem overwrite_resize (l : List α) (n p : ℕ) (bs : List α) :
    overwrite (resize l n) p bs = resize (write l p bs) n := by
  apply eq_of_read
  · rw [length_overwrite, length_resize, length_resize]
  · intro i hi
    rw [length_overwrite, length_resize] at hi
    rw [read_overwrite (by rwa [length_resize]), read_resize, read_resize, if_pos hi, if_pos hi, read_write]

theorem resize_resize (h : l.length ≤ m) (n : ℕ) : resize (resize l m) n = resize l n := by
  apply eq_of_read
  · rw [length_resize, length_resize]
  · intro i hi
    rw [length_resize] at hi
    rw [read_resize, read_resize, read_resize, if_pos hi, if_pos hi]
    split
    · rfl
    · exact (read_of_le (by omega)).symm

theorem resize_length (l : List α) : resize l l.length = l := by
  rw [resize, List.take_length, Nat.sub_self, List.replicate_zero, List.append_nil]

/-- A list is its own resizing to no other length. -/
theorem resize_eq_iff : resize l n = l ↔ n = l.length := by
  constructor
  · intro h
    rw [← h, length_resize]
  · rintro rfl
    exact resize_length l

end SparseFile

/-- Where a position is counted from; `size` asks for the size. -/
inductive Whence
  | set | cur | fromEnd | size
  deriving DecidableEq

/-- A file that is open for writing. -/
structure File (α : Type*) where
  content : List α
  pos : ℤ
  deriving DecidableEq

namespace File
variable {α : Type*} [Zero α]

def empty : File α := ⟨[], 0⟩

def size (f : File α) : ℤ := f.content.length

def write (f : File α) (bs : List α) : File α :=
  ⟨SparseFile.write f.content f.pos.toNat bs, f.pos + bs.length⟩

/-- The position after a seek. -/
def target (f : File α) (offset : ℤ) : Whence → ℤ
  | .set => offset
  | .cur => f.pos + offset
  | .fromEnd => f.size + offset
  | .size => f.pos

def seek (f : File α) (offset : ℤ) (whence : Whence) : File α := { f with pos := f.target offset whence }

/-- What a seek answers: the position, or the size. -/
def answer (f : File α) (offset : ℤ) : Whence → ℤ
  | .size => f.size
  | whence => f.target offset whence

end File
end CloudAgent
