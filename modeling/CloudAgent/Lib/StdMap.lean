import Mathlib.Data.List.AList
import Mathlib.Data.List.Sort

/-! The standard library's ordered map with text keys: a finite map that is walked in the order of
its keys. -/
namespace CloudAgent

abbrev StdMap (β : Type*) := AList fun _ : String => β

namespace StdMap
variable {β : Type*}

/-- The keys in the order in which an iterator meets them. -/
def order (m : StdMap β) : List String := m.keys.insertionSort (· ≤ ·)

@[simp] theorem mem_order {m : StdMap β} {k : String} : k ∈ m.order ↔ k ∈ m := by
  rw [order, List.mem_insertionSort, AList.mem_keys]

/-- The first key whose value satisfies `p`. -/
def findKey (m : StdMap β) (p : β → Bool) : Option String := m.order.find? fun k => (m.lookup k).any p

/-- The key that is found has a value satisfying `p`. -/
theorem any_of_findKey {m : StdMap β} {p : β → Bool} {k : String} (h : m.findKey p = some k) :
    (m.lookup k).any p = true :=
  List.find?_some (p := fun k => (m.lookup k).any p) h

theorem findKey_eq_none {m : StdMap β} {p : β → Bool} :
    m.findKey p = none ↔ ∀ k, (m.lookup k).any p = false := by
  simp only [findKey, List.find?_eq_none, mem_order, Bool.not_eq_true]
  constructor
  · intro h k
    by_cases hk : k ∈ m
    · exact h k hk
    · rw [AList.lookup_eq_none.mpr hk]; rfl
  · exact fun h k _ => h k

/-- Where only one key has a value satisfying `p`, that key is found. -/
theorem findKey_eq_some {m : StdMap β} {p : β → Bool} {k : String} (hk : (m.lookup k).any p = true)
    (huniq : ∀ j, (m.lookup j).any p = true → j = k) : m.findKey p = some k := by
  cases hf : m.findKey p with
  | none => simp [findKey_eq_none.mp hf k] at hk
  | some j => rw [huniq j (any_of_findKey hf)]

end StdMap
end CloudAgent
