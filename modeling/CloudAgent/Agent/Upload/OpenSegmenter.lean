import CloudAgent.Agent.Upload.Run

/-! The segmenter of an ongoing event. Its end is null, and every place that closes a segmenter but
one asks for an end first: the cloud timeline is compared with the end of an open segmenter too. -/
namespace CloudAgent.Agent
open Utils Transition

namespace Segmenter

/-- The slices cannot move the window past the last time: none of them is inside the window, or
the window starts before that time and they all end before it. -/
def outOfReach (s : Segmenter) (slices : List Period) : Bool :=
  (slices.all fun p => !p.intersects (Period.make s.curSegStart s.curSegStop)) ||
    (s.curSegStart ≤ s.lastTime && slices.all fun p => p.endTime ≤ s.lastTime)

theorem checkSlices_of_disjoint (s : Segmenter) (upload : Bool) (l : List Period)
    (h : ∀ p ∈ l, p.intersects (Period.make s.curSegStart s.curSegStop) = false) :
    s.checkSlices upload l = ⟨s, upload, false⟩ := by
  induction l with
  | nil => rfl
  | cons p l ih =>
    simp only [checkSlices, h p List.mem_cons_self, Bool.false_eq_true, if_false]
    exact ih fun q hq => h q (List.mem_cons_of_mem _ hq)

theorem checkSlices_of_le_lastTime (s : Segmenter) (upload : Bool) (l : List Period)
    (hs : s.curSegStart ≤ s.lastTime) (hl : ∀ p ∈ l, p.endTime ≤ s.lastTime) :
    (s.checkSlices upload l).alreadyOnCloud = false := by
  induction l generalizing s upload with
  | nil => rfl
  | cons p l ih =>
    have hrest : ∀ q ∈ l, q.endTime ≤ s.lastTime := fun q hq => hl q (List.mem_cons_of_mem _ hq)
    simp only [checkSlices]
    split
    · obtain ⟨b, hw⟩ := renewWindow_window (s.cutSlice p)
      have hlast : (s.cutSlice p).renewWindow.lastTime = s.lastTime := by
        rw [hw, lastTime_withWindow]
        unfold cutSlice
        split <;> rfl
      have hle : (s.cutSlice p).renewWindow.curSegStart ≤ s.lastTime := by
        rw [hw, withWindow_curSegStart]
        unfold cutSlice
        split
        · exact hl p List.mem_cons_self
        · exact hs
      rw [hlast, if_neg (not_lt.mpr hle)]
      exact ih _ _ (hlast ▸ hle) (hlast ▸ hrest)
    · exact ih s upload hs hrest

/-- Slices out of reach never finish the segmenter. -/
theorem checkSlices_of_outOfReach (s : Segmenter) (upload : Bool) (l : List Period)
    (h : s.outOfReach l = true) : (s.checkSlices upload l).alreadyOnCloud = false := by
  simp only [outOfReach, Bool.or_eq_true, Bool.and_eq_true, List.all_eq_true, Bool.not_eq_true',
    decide_eq_true_eq] at h
  rcases h with h | h
  · rw [checkSlices_of_disjoint s upload l h]
  · exact checkSlices_of_le_lastTime s upload l h.1 h.2

/-- An open segmenter that was not canceled is still being worked on. -/
def Ongoing (s : Segmenter) : Prop :=
  s.isOpen = true → s.canceled = false → s.processed = false ∧ s.finished = false

theorem Ongoing.withReport {s : Segmenter} (h : s.Ongoing) {c : Bool} (t : String)
    (hc : s.canceled = true → c = true) : (s.withReport c t).Ongoing := by
  intro ho hcan
  refine h ho ?_
  by_contra hn
  simp only [Bool.not_eq_false] at hn
  simp [hc hn] at hcan

end Segmenter

namespace SegmentedUploader

variable {std : StdSort} {u v : SegmentedUploader}

/-- `finalize_upload` has not ended the segmenter `i`, and the slices of the cloud timeline are out
of its reach while it is open. -/
def openConditions (std : StdSort) (i : SegId) : Conditions where
  finalize _ s _ := s ≠ i
  window env phase s u :=
    phase ≠ .check || s ≠ i || !(u.heap s).isOpen || (u.heap s).outOfReach (cloudSlices std env u s)

/-- Writing back another segmenter, or an ongoing one, keeps `i` ongoing. -/
theorem ongoing_setSeg {i s : SegId} {x : Segmenter} (h : (u.heap i).Ongoing)
    (hx : s = i → x.Ongoing) : ((u.setSeg s x).heap i).Ongoing := by
  simp only [setSeg_heap]
  split
  · rename_i hi
    exact hx hi.symm
  · exact h

theorem ongoing_send {i s : SegId} (progress : ℕ) (h : (u.heap i).Ongoing) :
    ((u.sendTimelineSynchronizationStatus progress s).heap i).Ongoing :=
  heap_send progress s i (fun _ _ t hx hc _ => hx.withReport t hc) h

/-- Taking a window never closes an open segmenter. -/
theorem ongoing_takenWindow {env : TickEnv} {s : SegId} (h : (u.heap s).Ongoing) (hcur : u.Current s) :
    (takenWindow env u s).Ongoing := by
  intro ho hc
  have hopen : (u.heap s).isOpen = true := ho
  rw [takenWindow_processed env hcur.processed, hopen]
  exact ⟨rfl, (h ho hc).2⟩

theorem ongoing_tick (std : StdSort) (env : TickEnv) (i : SegId) :
    TickInvariant std env ((openConditions std i).window env) fun u => (u.heap i).Ongoing where
  list _ _ h _ := h
  adjust u s v h hcur _ hv := by
    cases hv with
    | same => exact h
    | moved q => exact ongoing_setSeg h fun hi => hi ▸ h
    | outside q hq hproc hint hlt hclosed =>
      refine ongoing_send 100 (ongoing_setSeg h fun _ ho => ?_)
      simp [hclosed] at ho
  check u s upload v h hcur hok hv := by
    have hclosed : s = i →
        ((u.heap s).checkSlices true (cloudSlices std env u s)).alreadyOnCloud = true →
          (u.heap s).isOpen = false := by
      rintro rfl hcloud
      by_contra ho
      rw [Segmenter.checkSlices_of_outOfReach] at hcloud
      · simp at hcloud
      · simpa [openConditions, ho] using hok
    cases hv with
    | moved a b => exact ongoing_setSeg h fun hi => hi ▸ h
    | onCloudUnplanned a b hcloud =>
      refine ongoing_send 100 (ongoing_setSeg h fun hi ho => ?_)
      simp [hclosed hi (by rw [hcloud])] at ho
    | onCloudPlanned a b hcloud =>
      refine ongoing_setSeg h fun hi ho => ?_
      simp [hclosed hi (by rw [hcloud])] at ho
  step u s v h hcur _ hv := by
    cases hv with
    | outsideUnplanned hclosed =>
      refine ongoing_send 0 (ongoing_setSeg h fun _ ho => ?_)
      simp [requestWindow, hclosed] at ho
    | outsidePlanned hclosed =>
      refine ongoing_setSeg h fun _ ho => ?_
      simp [requestWindow, hclosed] at ho
    | empty => exact ongoing_setSeg h fun hi => hi ▸ h
    | exported => exact ongoing_setSeg h fun hi => ongoing_takenWindow (hi ▸ h) hcur
    | finalUnplanned hin hclip hclosed =>
      refine ongoing_send 0 (ongoing_setSeg h fun _ ho => ?_)
      simp [takenWindow, requestWindow, hclosed] at ho
    | skipped => exact ongoing_setSeg h fun hi => ongoing_takenWindow (hi ▸ h) hcur

theorem ongoing_step (std : StdSort) (i : SegId) :
    StepInvariant std (openConditions std i) fun u => (u.heap i).Ongoing where
  service _ _ _ _ h := h
  enqueue _ _ _ h _ _ := h
  finalize u s stop h hok := by
    refine ongoing_setSeg h fun hi => ?_
    simp [openConditions, hi] at hok
  cancel u s h _ _ _ := by
    refine ongoing_send 100 (ongoing_setSeg h fun _ _ hc => ?_)
    simp at hc
  canceledTicket _ _ h := h
  tick env := ongoing_tick std env i
  report u k r ok h _ _ := by
    rw [onFinished_eq]
    refine ongoing_send _ (ongoing_setSeg h fun hi ho hc => ?_)
    -- an answer finishes only what is processed already
    obtain ⟨hp, -⟩ := (hi ▸ h : (u.heap r.segment).Ongoing) ho hc
    simp [answerSeg, hp]

/-- While nothing has ended its event and the cloud timeline stays out of its reach, the segmenter
of an ongoing event is neither processed nor finished unless it was canceled. -/
theorem open_segmenter_ongoing (std : StdSort) (camId : ℤ) (created : SegId → NewSegmenter) (i : SegId)
    (as : List Action) (hm : Meets (step std) ((openConditions std i).Admits std) (start camId created) as)
    (he : exec (step std) (start camId created) as = some u) (hopen : (u.heap i).isOpen = true)
    (hc : (u.heap i).canceled = false) : (u.heap i).processed = false ∧ (u.heap i).finished = false := by
  have hfresh : ((start camId created).heap i).Ongoing := by
    intro _ _
    have hf := (created i).2
    simp only [Segmenter.fresh, Bool.and_eq_true, Bool.not_eq_true'] at hf
    exact ⟨hf.1.1.1.1.1, hf.1.1.1.2⟩
  exact ((ongoing_step std i).run (sound_start camId created) hfresh hm he).2 hopen hc

/-- An event that started a thousand seconds after the epoch and goes on. -/
def ongoingEvent : NewSegmenter :=
  .ofEvent true (seconds 1000) 0 (seconds 5) (seconds 5) (seconds 15) (seconds 10) "cam" "" 0

/-- The event's segmenter is enqueued, and one tick follows. -/
def ongoingRun (objects : List (Time × Time)) : List Action :=
  [.scheduleUpload 0, .fire 1 (.exact []), .fire 0 (.exact objects)]

theorem open_segmenter_ongoing_exported :
    ∃ u, exec (step .insertion) (start 7 fun _ => ongoingEvent) (ongoingRun [(0, seconds 5)]) = some u ∧
      u.planned.length = 1 ∧ (u.heap 0).processed = false ∧ (u.heap 0).finished = false := by
  have hrun : ∃ u ∈ exec (step .insertion) (start 7 fun _ => ongoingEvent)
      (ongoingRun [(0, seconds 5)]), u.planned.length = 1 ∧ (u.heap 0).isOpen = true ∧
        (u.heap 0).canceled = false := by
    decide +kernel
  obtain ⟨u, hu, hplanned, hopen, hc⟩ := hrun
  exact ⟨u, hu, hplanned,
    open_segmenter_ongoing .insertion 7 _ 0 _ (by decide +kernel) hu hopen hc⟩

/-- Some of the window is on the cloud already: the end of the open segmenter, which is null, is
taken for a time that the window has passed. -/
theorem open_segmenter_closed_by_cloud :
    ∃ u ∈ exec (step .insertion) (start 7 fun _ => ongoingEvent)
        (ongoingRun [(seconds 990, seconds 1005)]),
      (u.heap 0).isOpen = true ∧ (u.heap 0).canceled = false ∧ (u.heap 0).processed = true ∧
        (u.heap 0).finished = true := by
  decide +kernel

end SegmentedUploader
end CloudAgent.Agent
