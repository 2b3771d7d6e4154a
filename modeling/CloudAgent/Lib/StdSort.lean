import Mathlib.Data.List.Sort
import Mathlib.Order.Basic

/-! Sorting by an integer key with the guarantees of the C++ standard library's unstable sort:
the result is an ordered permutation of the input, and nothing is promised about equal keys. -/
namespace CloudAgent

/-- A sorting algorithm together with what its specification promises. -/
structure StdSort where
  sort : {α : Type} → (α → ℤ) → List α → List α
  perm : ∀ {α : Type} (key : α → ℤ) (l : List α), (sort key l).Perm l
  ordered : ∀ {α : Type} (key : α → ℤ) (l : List α),
    (sort key l).Pairwise (fun a b => key a ≤ key b)

namespace StdSort

@[simp] theorem mem_sort (std : StdSort) {α : Type} (key : α → ℤ) (l : List α) (a : α) :
    a ∈ std.sort key l ↔ a ∈ l := (std.perm key l).mem_iff

/-- What the library runs on a short range: insertion of each element in turn. -/
def insertion : StdSort where
  sort key l := l.insertionSort (fun a b => key a ≤ key b)
  perm key l := List.perm_insertionSort _ l
  ordered key l := by
    have : Std.Total (fun a b => key a ≤ key b) := ⟨fun a b => le_total (key a) (key b)⟩
    have : IsTrans _ (fun a b => key a ≤ key b) := ⟨fun _ _ _ => le_trans⟩
    exact List.pairwise_insertionSort _ l

end StdSort
end CloudAgent
