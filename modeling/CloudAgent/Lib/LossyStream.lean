import Mathlib.Data.List.Basic
import Mathlib.Data.List.Induction

/-! A stream whose elements are decoded one after another, and of which some are lost. -/
namespace CloudAgent.LossyStream

/-- What decoding takes: nothing, everything since the last element that restarts, or nothing for an element that
restarts. -/
inductive Kind
  | alone | refers | restarts
  deriving DecidableEq

/-- What became of an element. -/
inductive Fate (α : Type*)
  | popped (a : α)
  | dropped (a : α)
  deriving DecidableEq

variable {α : Type*} (kind : α → Kind)

/-- Nothing is decoded that refers to what was lost: between the two an element restarts. -/
def Decodes (l : List (Fate α)) : Prop :=
  ∀ a b c x y, l = a ++ .dropped x :: (b ++ .popped y :: c) → kind x ≠ .alone → kind y = .refers →
    ∃ z, kind z = .restarts ∧ .popped z ∈ b

/-- Whether elements are missing after this one. -/
def broken : Bool → Fate α → Bool
  | missing, .popped x => missing && kind x ≠ .restarts
  | missing, .dropped x => missing || kind x ≠ .alone

/-- Whether elements are missing at the end. -/
def isBroken (l : List (Fate α)) : Bool := l.foldl (broken kind) false

/-- The first element that does not stand alone restarts. -/
def Restarts (l : List α) : Prop := ∀ x ∈ l.find? (kind · ≠ .alone), kind x = .restarts

variable {kind} {l : List (Fate α)} {xs : List α} {x : α}

theorem isBroken_append_singleton (l : List (Fate α)) (f : Fate α) :
    isBroken kind (l ++ [f]) = broken kind (isBroken kind l) f := by
  rw [isBroken, List.foldl_append]
  rfl

theorem isBroken_append_popped (l : List (Fate α)) (x : α) :
    isBroken kind (l ++ [.popped x]) = (isBroken kind l && kind x ≠ .restarts) :=
  isBroken_append_singleton l _

theorem isBroken_append_dropped (l : List (Fate α)) (xs : List α) :
    isBroken kind (l ++ xs.map .dropped) = (isBroken kind l || xs.any (kind · ≠ .alone)) := by
  induction xs generalizing l with
  | nil => simp
  | cons x xs ih =>
    rw [List.map_cons, List.append_cons, ih, isBroken_append_singleton, List.any_cons, ← Bool.or_assoc]
    rfl

/-- An element of a list with one more at its end is that one, or one of the list. -/
theorem append_singleton_eq_iff {β : Type*} {l a b : List β} {f e : β} :
    l ++ [f] = a ++ e :: b ↔ (l = a ∧ f = e ∧ b = []) ∨ ∃ b', b = b' ++ [f] ∧ l = a ++ e :: b' := by
  constructor
  · intro h
    rcases List.eq_nil_or_concat b with rfl | ⟨b', g, rfl⟩
    · obtain ⟨rfl, hlast⟩ := List.append_inj' h rfl
      exact .inl ⟨rfl, List.singleton_inj.mp hlast, rfl⟩
    · rw [List.concat_eq_append, ← List.cons_append, ← List.append_assoc] at h
      obtain ⟨rfl, hlast⟩ := List.append_inj' h rfl
      obtain rfl := List.singleton_inj.mp hlast
      exact .inr ⟨b', List.concat_eq_append, rfl⟩
  · rintro (⟨rfl, rfl, rfl⟩ | ⟨b', rfl, rfl⟩)
    · rfl
    · rw [List.append_assoc, List.cons_append]

/-- Elements are missing exactly if one was lost and none restarts after it. -/
theorem isBroken_iff : isBroken kind l = true ↔
    ∃ a b x, l = a ++ .dropped x :: b ∧ kind x ≠ .alone ∧ ∀ z, kind z = .restarts → .popped z ∉ b := by
  induction l using List.reverseRecOn with
  | nil => simp [isBroken]
  | append_singleton l f ih =>
    rw [isBroken_append_singleton]
    constructor
    · intro h
      cases f with
      | popped y =>
        obtain ⟨hl, hy⟩ := (Bool.and_eq_true _ _).mp h
        obtain ⟨a, b, x, rfl, hx, hb⟩ := ih.mp hl
        refine ⟨a, b ++ [.popped y], x, append_singleton_eq_iff.mpr (.inr ⟨b, rfl, rfl⟩), hx, fun z hz hmem => ?_⟩
        rcases List.mem_append.mp hmem with hmem | hmem
        · exact hb z hz hmem
        · obtain rfl : z = y := by simpa using hmem
          simp [hz] at hy
      | dropped y =>
        rcases (Bool.or_eq_true _ _).mp h with hl | hy
        · obtain ⟨a, b, x, rfl, hx, hb⟩ := ih.mp hl
          refine ⟨a, b ++ [.dropped y], x, append_singleton_eq_iff.mpr (.inr ⟨b, rfl, rfl⟩), hx, fun z hz hmem => ?_⟩
          exact hb z hz (by simpa using hmem)
        · exact ⟨l, [], y, rfl, of_decide_eq_true hy, fun z _ hmem => absurd hmem List.not_mem_nil⟩
    · rintro ⟨a, b, x, hl, hx, hb⟩
      rcases append_singleton_eq_iff.mp hl with ⟨rfl, rfl, rfl⟩ | ⟨b, rfl, rfl⟩
      · simp [broken, hx]
      · have hbroken := ih.mpr ⟨a, b, x, rfl, hx, fun z hz hmem => hb z hz (List.mem_append_left _ hmem)⟩
        cases f with
        | popped y =>
          have hy : kind y ≠ .restarts := fun hy => hb y hy (by simp)
          simp [broken, hbroken, hy]
        | dropped y => simp [broken, hbroken]

theorem Decodes.of_append {m : List (Fate α)} (h : Decodes kind (l ++ m)) : Decodes kind l := by
  rintro a b c x y rfl
  exact h a b (c ++ m) x y (by simp)

theorem decodes_append_popped {y : α} : Decodes kind (l ++ [.popped y]) ↔
    Decodes kind l ∧ (kind y = .refers → isBroken kind l = false) := by
  constructor
  · refine fun h => ⟨h.of_append, fun hy => Bool.eq_false_iff.mpr fun hl => ?_⟩
    obtain ⟨a, b, x, rfl, hx, hb⟩ := isBroken_iff.mp hl
    obtain ⟨z, hz, hmem⟩ := h a b [] x y (by simp) hx hy
    exact hb z hz hmem
  · rintro ⟨hl, hlast⟩ a b c x y' heq hx hy
    rw [← List.cons_append, ← List.append_assoc] at heq
    rcases append_singleton_eq_iff.mp heq with ⟨rfl, hf, rfl⟩ | ⟨c, rfl, rfl⟩
    · obtain rfl : y = y' := Fate.popped.inj hf
      by_contra hno
      have hbroken : isBroken kind (a ++ .dropped x :: b) = true :=
        isBroken_iff.mpr ⟨a, b, x, rfl, hx, fun z hz hmem => hno ⟨z, hz, hmem⟩⟩
      rw [hlast hy] at hbroken
      exact Bool.false_ne_true hbroken
    · exact hl a b c x y' (by simp) hx hy

theorem decodes_append_dropped : Decodes kind (l ++ xs.map .dropped) ↔ Decodes kind l := by
  induction xs using List.reverseRecOn with
  | nil => simp
  | append_singleton xs x ih =>
    rw [← ih]
    refine ⟨fun h => ?_, fun h => ?_⟩
    · rw [List.map_append, ← List.append_assoc] at h
      exact h.of_append
    · intro a b c x' y heq
      rw [List.map_append, List.map_singleton, ← List.append_assoc, ← List.cons_append, ← List.append_assoc] at heq
      rcases append_singleton_eq_iff.mp heq with ⟨-, hf, -⟩ | ⟨c, rfl, hl⟩
      · simp at hf
      · exact h a b c x' y (by simp [hl])

/-- What is popped in one go decodes exactly if nothing is missing before it, or it restarts. -/
theorem decodes_append_map_popped : Decodes kind (l ++ xs.map .popped) ↔
    Decodes kind l ∧ (isBroken kind l = true → Restarts kind xs) := by
  induction xs generalizing l with
  | nil => simp [Restarts]
  | cons x xs ih =>
    rw [List.map_cons, List.append_cons, ih, decodes_append_popped, isBroken_append_popped, and_assoc]
    refine and_congr_right fun _ => ?_
    cases hl : isBroken kind l with
    | false => simp
    | true =>
      cases hx : kind x with
      | alone => simp [Restarts, hx]
      | refers => simp [Restarts, hx]
      | restarts => simp [Restarts, hx]

end CloudAgent.LossyStream
