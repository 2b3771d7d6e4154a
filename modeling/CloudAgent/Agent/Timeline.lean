import CloudAgent.Lib.StdSort
import CloudAgent.Utils.Time
import Mathlib.Order.MinMax

/-! Periods of recording time and the cloud timeline, which answers with merged slices. -/
namespace CloudAgent.Agent
open Utils

/-- `period` without its constructor's convention for a missing end. -/
structure Period where
  beginTime : Time
  endTime : Time
  deriving DecidableEq, Repr

namespace Period

/-- The constructor of `period`: a null end is replaced by the largest time. -/
def make (begin_ end_ : Time) : Period :=
  ⟨begin_, if end_ = Time.null then Time.max else end_⟩

def intersects (p r : Period) : Bool :=
  let e1 := if p.endTime ≠ Time.null then p.endTime else Time.max
  let e2 := if r.endTime ≠ Time.null then r.endTime else Time.max
  p.beginTime < e2 && e1 > r.beginTime

theorem make_endTime_ne_null (b e : Time) : (make b e).endTime ≠ Time.null := by
  simp only [make]
  split
  · decide
  · assumption

theorem make_endTime {b e : Time} (h : e ≠ Time.null) : (make b e).endTime = e := if_neg h

/-- A period that ends somewhere meets a range if neither one ends before the other begins. -/
theorem intersects_make_iff {p : Period} {b e : Time} (h : p.endTime ≠ Time.null) :
    p.intersects (make b e) = true ↔ p.beginTime < (make b e).endTime ∧ b < p.endTime := by
  have hstop := make_endTime_ne_null b e
  simp only [intersects, h, hstop, ne_eq, not_false_eq_true, if_true, Bool.and_eq_true,
    decide_eq_true_eq, gt_iff_lt]
  rfl

end Period

/-- The loop of `_squash_periods` over the sorted items, with the period being extended. -/
def squashFrom (current : Period) : List Period → List Period
  | [] => [current]
  | p :: ps =>
    if current.endTime ≥ p.beginTime then
      squashFrom { current with endTime := max current.endTime p.endTime } ps
    else current :: squashFrom (Period.make p.beginTime p.endTime) ps

/-- `timeline::_squash_periods`. -/
def squashPeriods (std : StdSort) (periods : List Period) : List Period :=
  match std.sort Period.beginTime periods with
  | [] => []
  | p :: ps => squashFrom (Period.make p.beginTime p.endTime) ps

/-- `cloud_storage::list`: every object of the answer becomes an item built by `period(start, end)`. -/
def cloudStorageList (objects : List (Time × Time)) : List Period :=
  objects.map fun o => Period.make o.1 o.2

/-- `timeline::slices` on the objects with which the storage answers the request. -/
def timelineSlices (std : StdSort) (objects : List (Time × Time)) : List Period :=
  squashPeriods std (cloudStorageList objects)

theorem squashFrom_endTime_ne_null {current : Period} {ps : List Period}
    (hc : current.endTime ≠ Time.null) (hps : ∀ p ∈ ps, p.endTime ≠ Time.null) :
    ∀ p ∈ squashFrom current ps, p.endTime ≠ Time.null := by
  induction ps generalizing current with
  | nil => simpa [squashFrom] using hc
  | cons q qs ih =>
    have hqs : ∀ p ∈ qs, p.endTime ≠ Time.null := fun p hp => hps p (List.mem_cons_of_mem _ hp)
    simp only [squashFrom]
    split
    · apply ih _ hqs
      have hq := hps q List.mem_cons_self
      rcases max_choice current.endTime q.endTime with h | h <;> simpa only [h]
    · intro p hp
      rcases List.mem_cons.mp hp with rfl | hp
      · exact hc
      · exact ih (Period.make_endTime_ne_null _ _) hqs p hp

theorem squashPeriods_endTime_ne_null (std : StdSort) {periods : List Period}
    (hends : ∀ p ∈ periods, p.endTime ≠ Time.null) :
    ∀ p ∈ squashPeriods std periods, p.endTime ≠ Time.null := by
  unfold squashPeriods
  split
  · simp
  · rename_i q qs hs
    apply squashFrom_endTime_ne_null (Period.make_endTime_ne_null _ _)
    intro p hp
    apply hends p
    rw [← std.mem_sort Period.beginTime, hs]
    exact List.mem_cons_of_mem _ hp

/-- No slice of the cloud timeline is open. -/
theorem timelineSlices_endTime_ne_null (std : StdSort) (objects : List (Time × Time)) :
    ∀ p ∈ timelineSlices std objects, p.endTime ≠ Time.null := by
  apply squashPeriods_endTime_ne_null std
  intro p hp
  obtain ⟨o, _, rfl⟩ := List.mem_map.mp hp
  exact Period.make_endTime_ne_null _ _

@[simp] theorem timelineSlices_nil (std : StdSort) : timelineSlices std [] = [] := by
  have h : std.sort Period.beginTime [] = [] := (std.perm Period.beginTime []).eq_nil
  simp [timelineSlices, cloudStorageList, squashPeriods, h]

end CloudAgent.Agent
