import CloudAgent.Agent.Timeline.Squash
import CloudAgent.Agent.Upload.Run

/-! What `__check_clip_segment` leaves of a window. The window is cut at slices that were computed
for the window it had before; each cut keeps it apart from the slices that were passed already. -/
namespace CloudAgent.Agent
open Utils

namespace Segmenter

/-- The null time plays no part in comparing the window with the slices. -/
def ClearOfNull (s : Segmenter) (slices : List Period) : Prop :=
  s.curSegStart < Time.null → s.curSegStop ≠ Time.null ∧ ∀ slice ∈ slices, slice.beginTime ≠ Time.null

variable {s : Segmenter} {slice : Period} {slices rest : List Period}

theorem ClearOfNull.tail (h : s.ClearOfNull (slice :: rest)) : s.ClearOfNull rest := fun hneg =>
  ⟨(h hneg).1, fun p hp => (h hneg).2 p (List.mem_cons_of_mem _ hp)⟩

theorem ClearOfNull.stop_ne_null (h : s.ClearOfNull slices) (hwin : s.curSegStart < s.curSegStop) :
    s.curSegStop ≠ Time.null := by
  intro hnull
  exact (h (hwin.trans_eq hnull)).1 hnull

/-- The test of the loop compares a slice with the open window. -/
theorem ClearOfNull.intersects_iff (h : s.ClearOfNull slices) (hwin : s.curSegStart < s.curSegStop)
    (hend : slice.endTime ≠ Time.null) :
    slice.intersects (Period.make s.curSegStart s.curSegStop) = true ↔
      slice.beginTime < s.curSegStop ∧ s.curSegStart < slice.endTime := by
  rw [Period.intersects_make_iff hend, Period.make_endTime (h.stop_ne_null hwin)]

theorem ClearOfNull.cutSlice (h : s.ClearOfNull (slice :: rest))
    (hcut : s.curSegStart < slice.endTime) : (s.cutSlice slice).ClearOfNull rest := by
  intro hneg
  simp only [Segmenter.cutSlice] at hneg ⊢
  split at hneg
  · rename_i hle
    rw [if_pos hle]
    exact h.tail (hcut.trans hneg)
  · rename_i hle
    rw [if_neg hle]
    exact ⟨(h hneg).2 slice List.mem_cons_self, (h.tail hneg).2⟩

theorem renewWindow_of_not_covered (h : s.covered = false) : s.renewWindow = s := by
  simp only [renewWindow, h, Bool.false_eq_true, if_false]

theorem covered_eq_false : s.covered = false ↔ s.curSegStart < s.curSegStop := by
  simp only [covered, decide_eq_false_iff_not, not_le]

/-- A cut takes the slice out of the window and nothing is added to it. -/
theorem cutSlice_window_apart (slice : Period) (hend : s.curSegStart < slice.endTime)
    (hbegin : slice.beginTime < s.curSegStop) :
    s.curSegStart ≤ (s.cutSlice slice).curSegStart ∧ (s.cutSlice slice).curSegStop ≤ s.curSegStop ∧
      (slice.endTime ≤ (s.cutSlice slice).curSegStart ∨
        (s.cutSlice slice).curSegStop ≤ slice.beginTime) := by
  unfold cutSlice
  split
  · exact ⟨hend.le, le_rfl, Or.inl le_rfl⟩
  · exact ⟨le_rfl, hbegin.le, Or.inr le_rfl⟩

/-- Once a slice has covered the window, it is not uploaded any more. -/
theorem checkSlices_upload {upload : Bool} (s : Segmenter) (slices : List Period)
    (h : (s.checkSlices upload slices).uploadCurrentWindow = true) : upload = true := by
  induction slices generalizing s upload with
  | nil => exact h
  | cons slice rest ih =>
    simp only [checkSlices] at h
    split at h
    · split at h
      · exact absurd h Bool.false_ne_true
      · have hboth := ih _ h
        simp only [Bool.and_eq_true] at hboth
        exact hboth.1
    · exact ih s h

/-- A window that is to be uploaded has only been trimmed, and no slice reaches into it. -/
theorem checkSlices_trimmed {upload : Bool} (hwin : s.curSegStart < s.curSegStop)
    (hnull : s.ClearOfNull slices) (hends : ∀ p ∈ slices, p.endTime ≠ Time.null)
    (h : (s.checkSlices upload slices).uploadCurrentWindow = true) :
    let w := (s.checkSlices upload slices).window
    s.curSegStart ≤ w.curSegStart ∧ w.curSegStart < w.curSegStop ∧ w.curSegStop ≤ s.curSegStop ∧
      ∀ p ∈ slices, p.endTime ≤ w.curSegStart ∨ w.curSegStop ≤ p.beginTime := by
  induction slices generalizing s upload with
  | nil => exact ⟨le_rfl, hwin, le_rfl, by simp⟩
  | cons slice rest ih =>
    have hend := hends slice List.mem_cons_self
    have hrest : ∀ p ∈ rest, p.endTime ≠ Time.null := fun p hp => hends p (List.mem_cons_of_mem _ hp)
    have hiff := hnull.intersects_iff hwin hend
    simp only [checkSlices] at h ⊢
    by_cases hi : slice.intersects (Period.make s.curSegStart s.curSegStop) = true
    · obtain ⟨h1, h2⟩ := hiff.mp hi
      obtain ⟨hstart, hstop, hslice⟩ := cutSlice_window_apart slice h2 h1
      rw [if_pos hi] at h ⊢
      by_cases hpast : (s.cutSlice slice).renewWindow.curSegStart >
          (s.cutSlice slice).renewWindow.lastTime
      · simp [hpast] at h
      · rw [if_neg hpast] at h ⊢
        have hboth := checkSlices_upload _ _ h
        simp only [Bool.and_eq_true, Bool.not_eq_true'] at hboth
        rw [renewWindow_of_not_covered hboth.2] at h ⊢
        obtain ⟨h3, h4, h5, h6⟩ :=
          ih (covered_eq_false.mp hboth.2) (hnull.cutSlice h2) hrest h
        refine ⟨hstart.trans h3, h4, h5.trans hstop, fun p hp => ?_⟩
        rcases List.mem_cons.mp hp with rfl | hp
        · exact hslice.imp (fun h => h.trans h3) fun h => h5.trans h
        · exact h6 p hp
    · rw [if_neg hi] at h ⊢
      obtain ⟨h3, h4, h5, h6⟩ := ih hwin hnull.tail hrest h
      refine ⟨h3, h4, h5, fun p hp => ?_⟩
      rcases List.mem_cons.mp hp with rfl | hp
      · have hout : s.curSegStop ≤ p.beginTime ∨ p.endTime ≤ s.curSegStart := by
          by_contra hn
          simp only [not_or, not_le] at hn
          exact hi (hiff.mpr hn)
        exact hout.symm.imp (fun h => h.trans h3) fun h => h5.trans h
      · exact h6 p hp

/-- What the start of the window has passed is on the cloud. -/
theorem checkSlices_covered (s : Segmenter) (upload : Bool) (slices : List Period) {t : Time}
    (h1 : s.curSegStart ≤ t) (h2 : t < (s.checkSlices upload slices).window.curSegStart) :
    t ∈ instants slices := by
  rw [mem_instants]
  induction slices generalizing s upload with
  | nil => exact absurd (h1.trans_lt h2) (lt_irrefl _)
  | cons slice rest ih =>
    have hlater : (∃ p ∈ rest, p.beginTime ≤ t ∧ t ≤ p.endTime) →
        ∃ p ∈ slice :: rest, p.beginTime ≤ t ∧ t ≤ p.endTime := fun ⟨p, hp, ht⟩ =>
      ⟨p, List.mem_cons_of_mem _ hp, ht⟩
    simp only [checkSlices] at h2
    split at h2
    · obtain ⟨b, hb⟩ := renewWindow_window (s.cutSlice slice)
      have hcut : t < (s.cutSlice slice).renewWindow.curSegStart →
          slice.beginTime ≤ t ∧ t ≤ slice.endTime := by
        rw [hb, withWindow_curSegStart, cutSlice]
        split
        · rename_i hle
          exact fun hlt => ⟨hle.trans h1, hlt.le⟩
        · exact fun hlt => absurd (h1.trans_lt hlt) (lt_irrefl _)
      by_cases ht : t < (s.cutSlice slice).renewWindow.curSegStart
      · exact ⟨slice, List.mem_cons_self, hcut ht⟩
      · split at h2
        · exact absurd h2 ht
        · exact hlater (ih _ _ (not_lt.mp ht) h2)
    · exact hlater (ih s upload h1 h2)

end Segmenter

namespace SegmentedUploader

variable {std : StdSort} {env : TickEnv} {u : SegmentedUploader} {s : SegId}

/-- The window of `s` after the check is the one that the slices leave of it. -/
theorem checkClipSegment_window (std : StdSort) (env : TickEnv) (u : SegmentedUploader) (s : SegId) :
    let w := ((u.heap s).checkSlices true (cloudSlices std env u s)).window
    ((u.checkClipSegment std env s).2.heap s).curSegStart = w.curSegStart ∧
      ((u.checkClipSegment std env s).2.heap s).curSegStop = w.curSegStop := by
  have hsend : ∀ x : Segmenter,
      (((u.setSeg s x).sendTimelineSynchronizationStatus 100 s).heap s).curSegStart = x.curSegStart ∧
        (((u.setSeg s x).sendTimelineSynchronizationStatus 100 s).heap s).curSegStop = x.curSegStop :=
    fun x => heap_send (P := fun y => y.curSegStart = x.curSegStart ∧ y.curSegStop = x.curSegStop) 100
      s s (fun _ _ _ h _ _ => h) (by rw [setSeg_heap_self]; exact ⟨rfl, rfl⟩)
  unfold checkClipSegment cloudSlices
  simp only
  split
  · split
    · exact hsend _
    · rw [setSeg_heap_self]
      exact ⟨rfl, rfl⟩
  · rw [setSeg_heap_self]
    exact ⟨rfl, rfl⟩

theorem checkClipSegment_fst :
    (u.checkClipSegment std env s).1 = true →
      ((u.heap s).checkSlices true (cloudSlices std env u s)).uploadCurrentWindow = true := by
  unfold checkClipSegment cloudSlices
  simp only
  split
  · exact fun h => absurd h Bool.false_ne_true
  · exact id

/-- A window that is to be uploaded is a part of the old one without anything that is on the cloud,
and in any case everything that its start has passed is on the cloud. The window must not start
before the epoch when it stops, or a slice begins, at the null time. -/
theorem checkClipSegment_exact (std : StdSort) (env : TickEnv) (u : SegmentedUploader) (s : SegId)
    (hwin : (u.heap s).curSegStart < (u.heap s).curSegStop) :
    let x := u.heap s
    let slices := cloudSlices std env u s
    let checked := u.checkClipSegment std env s
    let x' := checked.2.heap s
    (checked.1 = true → x.ClearOfNull slices →
      x'.curSegStart < x'.curSegStop ∧
        Set.Ico x'.curSegStart x'.curSegStop ⊆ Set.Ico x.curSegStart x.curSegStop ∧
        ∀ slice ∈ slices, slice.endTime ≤ x'.curSegStart ∨ x'.curSegStop ≤ slice.beginTime) ∧
      ∀ t ∈ Set.Ico x.curSegStart x'.curSegStart, t ∈ instants slices := by
  obtain ⟨hstart, hstop⟩ := checkClipSegment_window std env u s
  simp only [hstart, hstop]
  refine ⟨fun hup hnull => ?_, fun t ht => Segmenter.checkSlices_covered _ _ _ ht.1 ht.2⟩
  obtain ⟨h1, h2, h3, h4⟩ := Segmenter.checkSlices_trimmed hwin hnull
    (timelineSlices_endTime_ne_null std _) (checkClipSegment_fst hup)
  exact ⟨h2, Set.Ico_subset_Ico h1 h3, h4⟩

/-- A recording whose first window is `[time - pre, time + step)`. -/
def recordingAt (time : Time) (pre step : Duration) : SegId → NewSegmenter := fun _ =>
  .ofEvent false time 300 pre 0 step 0 "cam" "" 0

theorem checkClipSegment_exact_trimmed :
    let u := start 7 (recordingAt 100 0 50)
    let checked := u.checkClipSegment .insertion (.exact [(90, 110), (130, 135)]) 0
    checked.1 = true ∧ (checked.2.heap 0).curSegStart = 110 ∧ (checked.2.heap 0).curSegStop = 130 ∧
      Set.Ico (checked.2.heap 0).curSegStart (checked.2.heap 0).curSegStop ⊆ Set.Ico 100 150 := by
  have hexact := checkClipSegment_exact .insertion (.exact [(90, 110), (130, 135)])
    (start 7 (recordingAt 100 0 50)) 0 (by decide)
  refine ⟨by decide, by decide, by decide, ?_⟩
  exact (hexact.1 (by decide) (fun h => absurd h (by decide))).2.1

/-- The window `[-10, 0)` stops at the null time and counts as endless, so a slice that lies after
it sets a later stop. -/
theorem checkClipSegment_widened :
    let u := start 7 (recordingAt (-5) 5 5)
    let checked := u.checkClipSegment .insertion (.exact [(100, 200)]) 0
    (u.heap 0).isOpen = false ∧ (u.heap 0).curSegStart < (u.heap 0).curSegStop ∧ checked.1 = true ∧
      ¬ Set.Ico (checked.2.heap 0).curSegStart (checked.2.heap 0).curSegStop ⊆
        Set.Ico (u.heap 0).curSegStart (u.heap 0).curSegStop := by
  refine ⟨by decide, by decide, by decide, fun h => ?_⟩
  have hlate : (50 : Time) ∈ Set.Ico (-10 : Time) 0 := h (by
    rw [Set.mem_Ico]
    decide)
  exact absurd hlate.2 (by decide)

end SegmentedUploader
end CloudAgent.Agent
