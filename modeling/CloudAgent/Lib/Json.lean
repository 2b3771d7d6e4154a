import Mathlib.Data.Rat.Defs
import Mathlib.Data.List.Basic

/-! JSON values, objects as lists of named members. A member is looked up, set and erased by its
name; what is no object has no members. -/
namespace CloudAgent

inductive Json
  | null
  | bool (b : Bool)
  | int (n : ℤ)
  | float (q : ℚ)
  | str (s : String)
  | arr (xs : List Json)
  | obj (members : List (String × Json))

namespace Json

def isNull : Json → Bool
  | .null => true
  | _ => false

theorem isNull_iff {j : Json} : j.isNull = true ↔ j = .null := by
  cases j <;> simp [isNull]

/-- The member of that name. -/
def at? : Json → String → Option Json
  | .obj members, k => members.lookup k
  | _, _ => none

/-- Add the member, or replace it; `null` becomes an object. -/
def set (j : Json) (k : String) (x : Json) : Json :=
  match j with
  | .obj members => .obj ((k, x) :: members.filter fun m => m.1 != k)
  | _ => .obj [(k, x)]

def erase (j : Json) (k : String) : Json :=
  match j with
  | .obj members => .obj (members.filter fun m => m.1 != k)
  | j => j

theorem lookup_filter_ne {members : List (String × Json)} {k k' : String} (h : k' ≠ k) :
    (members.filter fun m => m.1 != k).lookup k' = members.lookup k' := by
  induction members with
  | nil => rfl
  | cons m members ih =>
    obtain ⟨name, x⟩ := m
    by_cases hn : name = k
    · have hne : (k' == name) = false := by simpa [hn] using h
      simp [List.lookup_cons, hn ▸ hne, hn, ih]
    · simp [List.lookup_cons, hn, ih]

theorem lookup_filter_self (members : List (String × Json)) (k : String) :
    (members.filter fun m => m.1 != k).lookup k = none := by
  induction members with
  | nil => rfl
  | cons m members ih =>
    obtain ⟨name, x⟩ := m
    by_cases hn : name = k
    · simp [hn, ih]
    · have hne : (k == name) = false := by simpa using Ne.symm hn
      simp [List.lookup_cons, hn, hne, ih]

@[simp] theorem at?_set_self (j : Json) (k : String) (x : Json) : (j.set k x).at? k = some x := by
  cases j <;> simp [set, at?]

@[simp] theorem at?_set_ne (j : Json) {k k' : String} (x : Json) (h : k' ≠ k) :
    (j.set k x).at? k' = j.at? k' := by
  have hne : (k' == k) = false := by simpa using h
  cases j <;> simp [set, at?, List.lookup_cons, hne, lookup_filter_ne h]

@[simp] theorem at?_erase_self (j : Json) (k : String) : (j.erase k).at? k = none := by
  cases j <;> simp [erase, at?, lookup_filter_self]

@[simp] theorem at?_erase_ne (j : Json) {k k' : String} (h : k' ≠ k) : (j.erase k).at? k' = j.at? k' := by
  cases j <;> simp [erase, at?, lookup_filter_ne h]

@[simp] theorem at?_null (k : String) : null.at? k = none := rfl

@[simp] theorem set_ne_null (j : Json) (k : String) (x : Json) : (j.set k x).isNull = false := by
  cases j <;> rfl

end Json
end CloudAgent
