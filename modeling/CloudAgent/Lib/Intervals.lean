import Mathlib.Data.Set.Lattice
import Mathlib.Order.Interval.Set.LinearOrder
import Mathlib.Order.MinMax

/-! Finite unions of closed intervals, given by lists of their end points. Intervals that are kept
apart from one another are the normal form of such a union. -/
namespace CloudAgent.Intervals

variable {α : Type*} [LinearOrder α]

/-- The points of a list of closed intervals. -/
def union (l : List (α × α)) : Set α := ⋃ p ∈ l, Set.Icc p.1 p.2

theorem mem_union {l : List (α × α)} {x : α} : x ∈ union l ↔ ∃ p ∈ l, p.1 ≤ x ∧ x ≤ p.2 := by
  simp only [union, Set.mem_iUnion, Set.mem_Icc, exists_prop]

@[simp] theorem union_nil : union ([] : List (α × α)) = ∅ := by simp [union]

@[simp] theorem union_cons (p : α × α) (l : List (α × α)) :
    union (p :: l) = Set.Icc p.1 p.2 ∪ union l := by simp [union]

theorem union_perm {l m : List (α × α)} (h : l.Perm m) : union l = union m := by
  ext x
  simp only [mem_union, h.mem_iff]

/-- Every interval has a point, and each one ends before the later ones begin. -/
structure Separated (l : List (α × α)) : Prop where
  nonempty : ∀ p ∈ l, p.1 ≤ p.2
  apart : l.Pairwise fun p q => p.2 < q.1

namespace Separated

variable {p q : α × α} {l m : List (α × α)}

theorem tail (h : Separated (p :: l)) : Separated l :=
  ⟨fun r hr => h.nonempty r (List.mem_cons_of_mem _ hr), h.apart.of_cons⟩

theorem after (h : Separated (p :: l)) {r : α × α} (hr : r ∈ l) : p.2 < r.1 :=
  (List.pairwise_cons.mp h.apart).1 r hr

/-- The first interval begins at the least point. -/
theorem head_le (h : Separated (p :: l)) {x : α} (hx : x ∈ union (p :: l)) : p.1 ≤ x := by
  obtain ⟨r, hr, h1, -⟩ := mem_union.mp hx
  rcases List.mem_cons.mp hr with rfl | hr
  · exact h1
  · exact (h.nonempty p List.mem_cons_self).trans ((h.after hr).le.trans h1)

/-- The later intervals hold the points beyond the first one. -/
theorem mem_tail (h : Separated (p :: l)) {x : α} : x ∈ union l ↔ x ∈ union (p :: l) ∧ p.2 < x := by
  rw [union_cons]
  constructor
  · intro hx
    obtain ⟨r, hr, h1, -⟩ := mem_union.mp hx
    exact ⟨Or.inr hx, (h.after hr).trans_le h1⟩
  · rintro ⟨hx | hx, hlt⟩
    · exact absurd hx.2 (not_le.mpr hlt)
    · exact hx

theorem head_fst_le (hl : Separated (p :: l)) (hm : Separated (q :: m))
    (h : union (p :: l) = union (q :: m)) : p.1 ≤ q.1 := by
  apply hl.head_le
  rw [h]
  exact mem_union.mpr ⟨q, List.mem_cons_self, le_rfl, hm.nonempty q List.mem_cons_self⟩

/-- A point right after the first interval belongs to none, so no other union can go on there. -/
theorem head_snd_le [DenselyOrdered α] (hl : Separated (p :: l)) (hm : Separated (q :: m))
    (h : union (p :: l) = union (q :: m)) : q.2 ≤ p.2 := by
  by_contra hlt
  have hlt : p.2 < q.2 := not_le.mp hlt
  have hgap : ∃ x, p.2 < x ∧ x ≤ q.2 ∧ ∀ r ∈ l, x < r.1 := by
    cases l with
    | nil => exact ⟨q.2, hlt, le_rfl, by simp⟩
    | cons r rs =>
      obtain ⟨x, hx1, hx2⟩ := exists_between (lt_min hlt (hl.after List.mem_cons_self))
      refine ⟨x, hx1, (lt_min_iff.mp hx2).1.le, fun s hs => ?_⟩
      have hr : r.1 ≤ s.1 := by
        rcases List.mem_cons.mp hs with rfl | hs
        · exact le_rfl
        · exact (hl.tail.nonempty r List.mem_cons_self).trans (hl.tail.after hs).le
      exact (lt_min_iff.mp hx2).2.trans_le hr
  obtain ⟨x, hpx, hxq, hrest⟩ := hgap
  have hx : x ∈ union (p :: l) := by
    rw [h]
    have hqp := head_fst_le hm hl h.symm
    exact mem_union.mpr ⟨q, List.mem_cons_self,
      hqp.trans ((hl.nonempty p List.mem_cons_self).trans hpx.le), hxq⟩
  obtain ⟨r, hr, h1, -⟩ := mem_union.mp (hl.mem_tail.mpr ⟨hx, hpx⟩)
  exact absurd h1 (not_le.mpr (hrest r hr))

/-- In a dense order the points determine the intervals. -/
theorem ext [DenselyOrdered α] (hl : Separated l) (hm : Separated m) (h : union l = union m) :
    l = m := by
  induction l generalizing m with
  | nil =>
    cases m with
    | nil => rfl
    | cons q m =>
      have hq : q.1 ∈ union (q :: m) :=
        mem_union.mpr ⟨q, List.mem_cons_self, le_rfl, hm.nonempty q List.mem_cons_self⟩
      rw [← h, union_nil] at hq
      exact absurd hq (Set.notMem_empty _)
  | cons p l ih =>
    cases m with
    | nil =>
      have hp : p.1 ∈ union (p :: l) :=
        mem_union.mpr ⟨p, List.mem_cons_self, le_rfl, hl.nonempty p List.mem_cons_self⟩
      rw [h, union_nil] at hp
      exact absurd hp (Set.notMem_empty _)
    | cons q m =>
      have hfst : p.1 = q.1 := le_antisymm (head_fst_le hl hm h) (head_fst_le hm hl h.symm)
      have hsnd : p.2 = q.2 := le_antisymm (head_snd_le hm hl h.symm) (head_snd_le hl hm h)
      have htail : union l = union m := by
        ext x
        rw [hl.mem_tail, hm.mem_tail, h, hsnd]
      rw [Prod.ext hfst hsnd, ih hl.tail hm.tail htail]

end Separated
end CloudAgent.Intervals
