import CloudAgent.Agent.Timeline
import CloudAgent.Lib.Intervals
import Mathlib.Algebra.Order.Field.Basic
import Mathlib.Algebra.Order.Ring.Rat
import Mathlib.Data.Int.ConditionallyCompleteOrder
import Mathlib.Data.Rat.Cast.Order

/-! Squashing periods normalises them. Their instants are compared on a dense axis as well, where
the separated periods of a result are determined by the instants that they cover. -/
namespace CloudAgent.Agent
open Utils Intervals

/-- The period on another time axis. -/
def Period.onAxis {α : Type*} (f : Time → α) (p : Period) : α × α := (f p.beginTime, f p.endTime)

/-- The instants of a list of periods, their end points included. -/
def instants (periods : List Period) : Set Time := Intervals.union (periods.map (Period.onAxis id))

theorem mem_instants {periods : List Period} {t : Time} :
    t ∈ instants periods ↔ ∃ p ∈ periods, p.beginTime ≤ t ∧ t ≤ p.endTime := by
  simp only [instants, mem_union, List.mem_map, exists_exists_and_eq_and]
  rfl

theorem Period.make_eq {p : Period} (h : p.endTime ≠ Time.null) :
    Period.make p.beginTime p.endTime = p := by
  simp only [Period.make, h, if_false]

theorem Period.make_valid {p : Period} (h : p.beginTime ≤ p.endTime) :
    (Period.make p.beginTime p.endTime).beginTime ≤ (Period.make p.beginTime p.endTime).endTime := by
  simp only [Period.make]
  split
  · rename_i hnull
    exact (h.trans_eq hnull).trans (by decide)
  · exact h

/-- Periods in the order of `std::sort`, each with an instant. -/
structure Sorted (periods : List Period) : Prop where
  valid : ∀ p ∈ periods, p.beginTime ≤ p.endTime
  ordered : periods.Pairwise fun p q => p.beginTime ≤ q.beginTime

namespace Sorted

variable {current p : Period} {ps : List Period}

theorem of_sort (std : StdSort) {periods : List Period}
    (h : ∀ p ∈ periods, p.beginTime ≤ p.endTime) : Sorted (std.sort Period.beginTime periods) :=
  ⟨fun p hp => h p ((std.mem_sort _ _ _).mp hp), std.ordered _ _⟩

theorem tail (h : Sorted (p :: ps)) : Sorted ps :=
  ⟨fun q hq => h.valid q (List.mem_cons_of_mem _ hq), h.ordered.of_cons⟩

theorem head (h : Sorted (p :: ps)) : p.beginTime ≤ p.endTime := h.valid p List.mem_cons_self

theorem head_le (h : Sorted (p :: ps)) {q : Period} (hq : q ∈ ps) : p.beginTime ≤ q.beginTime :=
  (List.pairwise_cons.mp h.ordered).1 q hq

/-- The period being extended takes the place of the next one. -/
theorem extend (h : Sorted (current :: p :: ps)) :
    Sorted ({ current with endTime := max current.endTime p.endTime } :: ps) := by
  refine ⟨fun q hq => ?_, List.pairwise_cons.mpr ⟨fun q hq => ?_, h.tail.ordered.of_cons⟩⟩
  · rcases List.mem_cons.mp hq with rfl | hq
    · exact h.head.trans (le_max_left _ _)
    · exact h.tail.tail.valid q hq
  · exact h.head_le (List.mem_cons_of_mem _ hq)

/-- The constructor of `period` keeps the order. -/
theorem make (h : Sorted (p :: ps)) : Sorted (Period.make p.beginTime p.endTime :: ps) := by
  refine ⟨fun q hq => ?_, List.pairwise_cons.mpr ⟨fun q hq => h.head_le hq, h.tail.ordered⟩⟩
  rcases List.mem_cons.mp hq with rfl | hq
  · exact Period.make_valid h.head
  · exact h.tail.valid q hq

end Sorted

/-! ### The loop -/

theorem squashFrom_begin_le {current : Period} {ps : List Period} (h : Sorted (current :: ps)) :
    ∀ q ∈ squashFrom current ps, current.beginTime ≤ q.beginTime := by
  induction ps generalizing current with
  | nil =>
    intro q hq
    obtain rfl := List.mem_singleton.mp hq
    exact le_rfl
  | cons p ps ih =>
    simp only [squashFrom]
    split
    · exact ih h.extend
    · intro q hq
      rcases List.mem_cons.mp hq with rfl | hq
      · exact le_rfl
      · exact (h.head_le List.mem_cons_self).trans (ih h.tail.make q hq)

/-- What the loop pushes ends before everything that comes later begins. -/
theorem squashFrom_separated {current : Period} {ps : List Period} (h : Sorted (current :: ps)) :
    Separated ((squashFrom current ps).map (Period.onAxis id)) := by
  induction ps generalizing current with
  | nil =>
    refine ⟨fun p hp => ?_, List.pairwise_singleton _ _⟩
    obtain rfl := List.mem_singleton.mp hp
    exact h.head
  | cons p ps ih =>
    simp only [squashFrom]
    split
    · exact ih h.extend
    · rename_i hgap
      have hrest := ih h.tail.make
      have hlater : ∀ q ∈ squashFrom (Period.make p.beginTime p.endTime) ps,
          current.endTime < q.beginTime := fun q hq =>
        (not_le.mp hgap).trans_le (squashFrom_begin_le h.tail.make q hq)
      rw [List.map_cons]
      refine ⟨fun q hq => ?_, List.pairwise_cons.mpr ⟨fun q hq => ?_, hrest.apart⟩⟩
      · rcases List.mem_cons.mp hq with rfl | hq
        · exact h.head
        · exact hrest.nonempty q hq
      · obtain ⟨r, hr, rfl⟩ := List.mem_map.mp hq
        exact hlater r hr

/-- On every axis the loop keeps the instants. -/
theorem squashFrom_union {α : Type*} [LinearOrder α] {f : Time → α} (hf : Monotone f)
    {current : Period} {ps : List Period} (h : Sorted (current :: ps))
    (hends : ∀ p ∈ ps, p.endTime ≠ Time.null) :
    Intervals.union ((squashFrom current ps).map (Period.onAxis f)) =
      Intervals.union ((current :: ps).map (Period.onAxis f)) := by
  induction ps generalizing current with
  | nil => rfl
  | cons p ps ih =>
    have hp := hends p List.mem_cons_self
    have hps : ∀ q ∈ ps, q.endTime ≠ Time.null := fun q hq => hends q (List.mem_cons_of_mem _ hq)
    simp only [squashFrom]
    split
    · rename_i hmeet
      have hbegin : f current.beginTime ≤ f p.beginTime := hf (h.head_le List.mem_cons_self)
      have hunion : Set.Icc (f current.beginTime) (f current.endTime) ∪
          Set.Icc (f p.beginTime) (f p.endTime) =
            Set.Icc (f current.beginTime) (f (max current.endTime p.endTime)) := by
        rw [Set.Icc_union_Icc' (hf hmeet) (hbegin.trans (hf h.tail.head)), min_eq_left hbegin,
          hf.map_max]
      rw [ih h.extend hps]
      simp only [List.map_cons, union_cons, Period.onAxis]
      rw [← Set.union_assoc, hunion]
    · have hrest := ih h.tail.make hps
      rw [Period.make_eq hp] at hrest ⊢
      simp only [List.map_cons, union_cons, hrest]

/-! ### The result -/

theorem squashPeriods_separated (std : StdSort) {periods : List Period}
    (h : ∀ p ∈ periods, p.beginTime ≤ p.endTime) :
    Separated ((squashPeriods std periods).map (Period.onAxis id)) := by
  have hs := Sorted.of_sort std h
  unfold squashPeriods
  split
  · exact ⟨by simp, List.Pairwise.nil⟩
  · rename_i p ps hsort
    rw [hsort] at hs
    exact squashFrom_separated hs.make

theorem squashPeriods_union {α : Type*} [LinearOrder α] {f : Time → α} (hf : Monotone f)
    (std : StdSort) {periods : List Period} (h : ∀ p ∈ periods, p.beginTime ≤ p.endTime)
    (hends : ∀ p ∈ periods, p.endTime ≠ Time.null) :
    Intervals.union ((squashPeriods std periods).map (Period.onAxis f)) =
      Intervals.union (periods.map (Period.onAxis f)) := by
  have hs := Sorted.of_sort std h
  have hperm := (std.perm Period.beginTime periods).map (Period.onAxis f)
  rw [← union_perm hperm]
  unfold squashPeriods
  split
  · rename_i hsort
    rw [hsort]
  · rename_i p ps hsort
    have hends' : ∀ q ∈ p :: ps, q.endTime ≠ Time.null := fun q hq =>
      hends q ((std.mem_sort Period.beginTime periods q).mp (hsort ▸ hq))
    rw [hsort] at hs ⊢
    rw [squashFrom_union hf hs.make fun q hq => hends' q (List.mem_cons_of_mem _ hq),
      Period.make_eq (hends' p List.mem_cons_self)]

/-- Items whose ends are not null are squashed to the only separated periods with their instants. -/
theorem squashPeriods_eq_of_union {std : StdSort} {periods : List Period} {result : List Period}
    (h : ∀ p ∈ periods, p.beginTime ≤ p.endTime) (hends : ∀ p ∈ periods, p.endTime ≠ Time.null)
    (hsep : Separated (result.map (Period.onAxis id)))
    (hunion : Intervals.union (result.map (Period.onAxis ((↑) : Time → ℚ))) =
      Intervals.union (periods.map (Period.onAxis (↑)))) : squashPeriods std periods = result := by
  have hdense : ∀ l : List Period, Separated (l.map (Period.onAxis id)) →
      Separated (l.map (Period.onAxis ((↑) : Time → ℚ))) := by
    intro l hl
    obtain ⟨hne, hap⟩ := hl
    simp only [List.forall_mem_map, List.pairwise_map, Period.onAxis, id] at hne hap
    refine ⟨?_, ?_⟩
    · simp only [List.forall_mem_map, Period.onAxis, Int.cast_le]
      exact hne
    · simp only [List.pairwise_map, Period.onAxis, Int.cast_lt]
      exact hap
  have hinj : Function.Injective (Period.onAxis ((↑) : Time → ℚ)) := by
    intro p q hpq
    obtain ⟨h1, h2⟩ := Prod.mk.inj hpq
    cases p
    cases q
    simp only [Period.mk.injEq]
    exact ⟨Int.cast_injective h1, Int.cast_injective h2⟩
  apply List.map_injective_iff.mpr hinj
  apply (hdense _ (squashPeriods_separated std h)).ext (hdense _ hsep)
  rw [squashPeriods_union Int.cast_mono std h hends, hunion]

/-- Items that begin before they end are squashed to periods in order and apart from one another.
If no item ends at the null time, which stands for a missing end, the periods have the same
instants, whatever the order of the items, and squashing them again changes nothing. -/
theorem squashPeriods_normal (std : StdSort) (periods : List Period)
    (h : ∀ p ∈ periods, p.beginTime ≤ p.endTime) :
    ((squashPeriods std periods).Pairwise fun p q => p.beginTime < q.beginTime) ∧
      ((squashPeriods std periods).Pairwise fun p q => p.endTime < q.beginTime) ∧
      ((∀ p ∈ periods, p.endTime ≠ Time.null) →
        (∀ t, t ∈ instants (squashPeriods std periods) ↔ t ∈ instants periods) ∧
          (∀ (std' : StdSort) (items : List Period), items.Perm periods →
            squashPeriods std' items = squashPeriods std periods) ∧
          squashPeriods std (squashPeriods std periods) = squashPeriods std periods) := by
  have hsep := squashPeriods_separated std h
  have hvalid : ∀ p ∈ squashPeriods std periods, p.beginTime ≤ p.endTime := fun p hp =>
    hsep.nonempty _ (List.mem_map_of_mem hp)
  have hapart : (squashPeriods std periods).Pairwise fun p q => p.endTime < q.beginTime := by
    simpa only [List.pairwise_map, Period.onAxis, id] using hsep.apart
  refine ⟨?_, hapart, fun hends => ⟨fun t => ?_, fun std' items hperm => ?_, ?_⟩⟩
  · apply hapart.imp_of_mem
    intro p q hp _ hlt
    exact (hvalid p hp).trans_lt hlt
  · unfold instants
    rw [squashPeriods_union monotone_id std h hends]
  · apply squashPeriods_eq_of_union _ _ hsep
    · rw [squashPeriods_union Int.cast_mono std h hends]
      exact (union_perm (hperm.map _)).symm
    · exact fun p hp => h p (hperm.mem_iff.mp hp)
    · exact fun p hp => hends p (hperm.mem_iff.mp hp)
  · exact squashPeriods_eq_of_union hvalid (squashPeriods_endTime_ne_null std hends) hsep rfl

/-- Two uploads that touch, and the second one again before them. -/
theorem squashPeriods_normal_touching :
    squashPeriods .insertion [⟨20, 30⟩, ⟨10, 20⟩, ⟨20, 30⟩, ⟨40, 50⟩] = [⟨10, 30⟩, ⟨40, 50⟩] ∧
      ∀ t, t ∈ instants (squashPeriods .insertion [⟨20, 30⟩, ⟨10, 20⟩, ⟨20, 30⟩, ⟨40, 50⟩]) ↔
        t ∈ instants [⟨20, 30⟩, ⟨10, 20⟩, ⟨20, 30⟩, ⟨40, 50⟩] :=
  ⟨by decide, ((squashPeriods_normal .insertion _ (by decide)).2.2 (by decide)).1⟩

/-- A cleared item begins and ends at the null time, and it is squashed to an open period. -/
theorem squashPeriods_cleared :
    ¬ ((∀ p ∈ [Period.mk Time.null Time.null], p.beginTime ≤ p.endTime) →
      ∀ t, t ∈ instants (squashPeriods .insertion [⟨Time.null, Time.null⟩]) ↔
        t ∈ instants [⟨Time.null, Time.null⟩]) := by
  intro h
  have hsquash : squashPeriods .insertion [⟨Time.null, Time.null⟩] = [⟨Time.null, Time.max⟩] := by
    decide
  have hone := (h (by decide) 1).mp (by rw [hsquash, mem_instants]; decide)
  simp [mem_instants, Time.null] at hone

end CloudAgent.Agent
