import CloudAgent.Agent.Timeline

/-! A segmenter cuts a period of recording time into upload windows. Everything that only reads
and moves the window of one segmenter is here; the uploader's shared state is in `Upload`. -/
namespace CloudAgent.Agent
open Utils

/-- The fields of `proto::video_clip_info` that the uploader and the manager read. A value that
was never filled in has both times null. -/
structure VideoClipInfo where
  tpStart : Time := Time.null
  tpStop : Time := Time.null
  data : List UInt8 := []
  deriving DecidableEq, Repr

/-- The test for a clip that was really exported. -/
def VideoClipInfo.valid (c : VideoClipInfo) : Bool :=
  c.tpStop ≠ Time.null && c.tpStart ≠ Time.null

/-- `segmented_uploader::segmenter`. The provider is named by its `cloud_name`. -/
structure Segmenter where
  beginTime : Time
  endTime : Time
  curSegStart : Time
  curSegStop : Time
  lastProcessedTime : Time := Time.null
  pre : Duration
  post : Duration
  step : Duration
  delay : Duration := 0
  processed : Bool := false
  canceled : Bool := false
  finished : Bool := false
  realtime : Bool := true
  segProvider : String := ""
  ticket : String := ""
  uploadsPlanned : ℕ := 0
  uploadsDone : ℕ := 0
  uploadsFailed : ℕ := 0
  deriving DecidableEq, Repr

namespace Segmenter

/-- `period::is_open`. -/
def isOpen (s : Segmenter) : Bool := s.endTime = Time.null

/-- `end + post`, where the last window of a closed segmenter stops. -/
def lastTime (s : Segmenter) : Time := s.endTime + s.post

/-- `begin - pre`, where the first window starts. -/
def firstTime (s : Segmenter) : Time := s.beginTime - s.pre

/-- `segmenter::intersects`, which extends the periods by their steps. -/
def intersects (s r : Segmenter) : Bool :=
  let b1 := s.beginTime - s.pre
  let b2 := r.beginTime - r.pre
  let e1 := if s.endTime ≠ Time.null then s.endTime + s.step else Time.max
  let e2 := if r.endTime ≠ Time.null then r.endTime + r.step else Time.max
  b1 ≤ e2 && e1 ≥ b2

/-- All the uploads planned so far have been answered. -/
def answered (s : Segmenter) : Bool := s.uploadsPlanned = s.uploadsDone + s.uploadsFailed

/-- The segmenter that `event_state::start` builds, for a stateful or a stateless event. -/
def eventStateStart (stateful : Bool) (time timeEnd : Time) (pre post step startDelay : Duration)
    (segProvider uploadToken : String) (now : Time) : Segmenter :=
  let stop := if stateful then Time.null else if timeEnd ≠ Time.null then timeEnd else time
  let extended := !stateful && timeEnd ≠ Time.null
  { beginTime := time
    endTime := stop
    curSegStart := time - pre
    curSegStop := min (time + step) (if stop ≠ Time.null then stop + post else Time.max)
    lastProcessedTime := now
    pre, post, step, segProvider
    delay := if extended then 0 else startDelay
    realtime := !extended
    ticket := uploadToken }

/-- Nothing has happened to the segmenter yet. -/
def fresh (s : Segmenter) : Bool :=
  !s.processed && !s.canceled && !s.finished && s.uploadsPlanned = 0 && s.uploadsDone = 0 &&
    s.uploadsFailed = 0

theorem eventStateStart_fresh (stateful : Bool) (time timeEnd : Time)
    (pre post step startDelay : Duration) (segProvider uploadToken : String) (now : Time) :
    (eventStateStart stateful time timeEnd pre post step startDelay segProvider uploadToken now).fresh =
      true := rfl

end Segmenter

/-- A segmenter as its creator hands it to the uploader. -/
abbrev NewSegmenter := { x : Segmenter // x.fresh = true }

/-- The segmenter of an event that has just started. -/
def NewSegmenter.ofEvent (stateful : Bool) (time timeEnd : Time)
    (pre post step startDelay : Duration) (segProvider uploadToken : String) (now : Time) : NewSegmenter :=
  ⟨_, Segmenter.eventStateStart_fresh stateful time timeEnd pre post step startDelay segProvider
    uploadToken now⟩

namespace Segmenter

/-- A closed segmenter as `event_state::start` initialises it. -/
def Started (s : Segmenter) : Prop :=
  s.endTime ≠ Time.null ∧ s.beginTime ≤ s.endTime ∧ 0 ≤ s.pre ∧ 0 ≤ s.post ∧ 0 < s.step ∧
    s.curSegStart = s.firstTime ∧ s.curSegStop = min (s.beginTime + s.step) s.lastTime

instance (s : Segmenter) : Decidable s.Started := by unfold Started; infer_instance

theorem eventStateStart_started (time timeEnd : Time) (pre post step startDelay : Duration)
    (segProvider uploadToken : String) (now : Time) (ht : time ≠ Time.null)
    (he : timeEnd ≠ Time.null → time ≤ timeEnd) (hpre : 0 ≤ pre) (hpost : 0 ≤ post)
    (hstep : 0 < step) :
    (eventStateStart false time timeEnd pre post step startDelay segProvider uploadToken now).Started := by
  by_cases h : timeEnd = Time.null
  · simp [Started, eventStateStart, firstTime, lastTime, h, ht, hpre, hpost, hstep]
  · simp [Started, eventStateStart, firstTime, lastTime, h, he h, hpre, hpost, hstep]

/-! ### Flags and counters -/

/-- The same segmenter with other `processed` and `finished` flags. -/
@[simps]
def withState (s : Segmenter) (processed finished : Bool) : Segmenter :=
  { s with processed, finished }

/-- The same segmenter after a status message: its canceled flag and its ticket. -/
@[simps]
def withReport (s : Segmenter) (canceled : Bool) (ticket : String) : Segmenter :=
  { s with canceled, ticket }

/-- One more upload was planned. -/
@[simps]
def countPlanned (s : Segmenter) : Segmenter := { s with uploadsPlanned := s.uploadsPlanned + 1 }

/-- One more upload was answered. -/
@[simps]
def countAnswer (s : Segmenter) (ok : Bool) : Segmenter :=
  { s with
    uploadsDone := s.uploadsDone + ok.toNat
    uploadsFailed := s.uploadsFailed + (!ok).toNat }

@[simp] theorem isOpen_withState (s : Segmenter) (p f : Bool) : (s.withState p f).isOpen = s.isOpen := rfl

@[simp] theorem lastTime_withState (s : Segmenter) (p f : Bool) :
    (s.withState p f).lastTime = s.lastTime := rfl

@[simp] theorem firstTime_withState (s : Segmenter) (p f : Bool) :
    (s.withState p f).firstTime = s.firstTime := rfl

@[simp] theorem answered_withState (s : Segmenter) (p f : Bool) :
    (s.withState p f).answered = s.answered := rfl

@[simp] theorem isOpen_withReport (s : Segmenter) (c : Bool) (t : String) :
    (s.withReport c t).isOpen = s.isOpen := rfl

@[simp] theorem lastTime_withReport (s : Segmenter) (c : Bool) (t : String) :
    (s.withReport c t).lastTime = s.lastTime := rfl

@[simp] theorem firstTime_withReport (s : Segmenter) (c : Bool) (t : String) :
    (s.withReport c t).firstTime = s.firstTime := rfl

@[simp] theorem answered_withReport (s : Segmenter) (c : Bool) (t : String) :
    (s.withReport c t).answered = s.answered := rfl

@[simp] theorem isOpen_countPlanned (s : Segmenter) : s.countPlanned.isOpen = s.isOpen := rfl

@[simp] theorem lastTime_countPlanned (s : Segmenter) : s.countPlanned.lastTime = s.lastTime := rfl

@[simp] theorem firstTime_countPlanned (s : Segmenter) : s.countPlanned.firstTime = s.firstTime := rfl

@[simp] theorem isOpen_countAnswer (s : Segmenter) (ok : Bool) :
    (s.countAnswer ok).isOpen = s.isOpen := rfl

@[simp] theorem lastTime_countAnswer (s : Segmenter) (ok : Bool) :
    (s.countAnswer ok).lastTime = s.lastTime := rfl

@[simp] theorem firstTime_countAnswer (s : Segmenter) (ok : Bool) :
    (s.countAnswer ok).firstTime = s.firstTime := rfl

/-! ### Moving the window -/

/-- The same segmenter with another window. -/
@[simps]
def withWindow (s : Segmenter) (a b : Time) : Segmenter :=
  { s with curSegStart := a, curSegStop := b }

@[simp] theorem withWindow_withWindow (s : Segmenter) (a b c d : Time) :
    (s.withWindow a b).withWindow c d = s.withWindow c d := rfl

@[simp] theorem withWindow_self (s : Segmenter) : s.withWindow s.curSegStart s.curSegStop = s := rfl

@[simp] theorem isOpen_withWindow (s : Segmenter) (a b : Time) :
    (s.withWindow a b).isOpen = s.isOpen := rfl

@[simp] theorem lastTime_withWindow (s : Segmenter) (a b : Time) :
    (s.withWindow a b).lastTime = s.lastTime := rfl

@[simp] theorem firstTime_withWindow (s : Segmenter) (a b : Time) :
    (s.withWindow a b).firstTime = s.firstTime := rfl

@[simp] theorem answered_withWindow (s : Segmenter) (a b : Time) :
    (s.withWindow a b).answered = s.answered := rfl

@[simp] theorem intersects_withWindow (s r : Segmenter) (a b : Time) :
    (s.withWindow a b).intersects r = s.intersects r := rfl

/-- The loop of `__adjust_segmenters_current_to_finished` over the other listed segmenters. The
flag says that the window was moved outside the borders, where the loop stops. -/
def adjustTo (s : Segmenter) : List Segmenter → Segmenter × Bool
  | [] => (s, false)
  | p :: ps =>
    if p.processed && s.intersects p && s.curSegStart < p.curSegStart then
      let s' := s.withWindow p.curSegStart (p.curSegStart + s.step)
      if !s'.isOpen && s'.curSegStart ≥ s'.lastTime then (s', true) else adjustTo s' ps
    else adjustTo s ps

/-- The window once a slice of the cloud that intersects it has been taken out. -/
def cutSlice (s : Segmenter) (slice : Period) : Segmenter :=
  if s.curSegStart ≥ slice.beginTime then s.withWindow slice.endTime s.curSegStop
  else s.withWindow s.curSegStart slice.beginTime

/-- Nothing is left of the window. -/
def covered (s : Segmenter) : Bool := s.curSegStop ≤ s.curSegStart

/-- A window of which nothing is left starts anew with a full step. -/
def renewWindow (s : Segmenter) : Segmenter :=
  if s.covered then s.withWindow s.curSegStart (s.curSegStart + s.step) else s

/-- What the slices of the cloud timeline leave of a window. -/
structure CheckedWindow where
  window : Segmenter
  uploadCurrentWindow : Bool
  alreadyOnCloud : Bool

/-- The loop of `__check_clip_segment` over the slices, which stops when the window has moved past
the end of the segmenter. The end of an open segmenter is compared like any other. -/
def checkSlices (s : Segmenter) (upload : Bool) : List Period → CheckedWindow
  | [] => ⟨s, upload, false⟩
  | slice :: rest =>
    if slice.intersects (Period.make s.curSegStart s.curSegStop) then
      let cut := s.cutSlice slice
      let s' := cut.renewWindow
      if s'.curSegStart > s'.lastTime then ⟨s', false, true⟩
      else checkSlices s' (upload && !cut.covered) rest
    else checkSlices s upload rest

/-- Where the window stops: a closed segmenter's window never reaches past its last time. -/
def clippedStop (s : Segmenter) : Time :=
  if !s.isOpen && s.curSegStop > s.lastTime then s.lastTime else s.curSegStop

/-- The delay before the next window, which follows the wall clock in realtime mode. -/
def nextDelay (s : Segmenter) (now : Time) (clip : VideoClipInfo) : Duration :=
  if s.realtime then
    let extraTimeAdj := (now - s.lastProcessedTime) - s.delay
    let delay := if s.step > extraTimeAdj then s.step - extraTimeAdj else 0
    if s.curSegStop < clip.tpStop then delay + (clip.tpStop - s.curSegStop) else delay
  else 0

/-- Where the next window starts: at the end of the exported clip, or at the end of this window
when nothing was exported or the clip is longer than ten minutes. -/
def nextStart (s : Segmenter) (clip : VideoClipInfo) : Time :=
  if clip.valid then
    if clip.tpStop - clip.tpStart > minutes 10 then s.curSegStop else clip.tpStop
  else s.curSegStop

/-- The bookkeeping of `__segment_step` after the provider answered, with its final chunk test. -/
@[simps]
def takeWindow (s : Segmenter) (now : Time) (clip : VideoClipInfo) : Segmenter :=
  { s with
    delay := s.nextDelay now clip
    lastProcessedTime := now
    curSegStart := s.nextStart clip
    curSegStop := s.nextStart clip + s.step
    processed := s.processed || (!s.isOpen && s.lastTime ≤ s.nextStart clip) }

@[simp] theorem isOpen_takeWindow (s : Segmenter) (now : Time) (clip : VideoClipInfo) :
    (s.takeWindow now clip).isOpen = s.isOpen := rfl

@[simp] theorem lastTime_takeWindow (s : Segmenter) (now : Time) (clip : VideoClipInfo) :
    (s.takeWindow now clip).lastTime = s.lastTime := rfl

@[simp] theorem firstTime_takeWindow (s : Segmenter) (now : Time) (clip : VideoClipInfo) :
    (s.takeWindow now clip).firstTime = s.firstTime := rfl

@[simp] theorem answered_takeWindow (s : Segmenter) (now : Time) (clip : VideoClipInfo) :
    (s.takeWindow now clip).answered = s.answered := rfl

/-! ### Where the window can end up -/

/-- Adjusting moves the window to a processed neighbour's position, or not at all. -/
theorem adjustTo_window (s : Segmenter) (l : List Segmenter) :
    (s.adjustTo l).1 = s ∨
      ∃ p ∈ l, p.processed ∧ s.intersects p ∧ s.curSegStart < p.curSegStart ∧
        (s.adjustTo l).1 = s.withWindow p.curSegStart (p.curSegStart + s.step) := by
  induction l generalizing s with
  | nil => exact Or.inl rfl
  | cons p ps ih =>
    simp only [adjustTo]
    split
    · rename_i h
      simp only [Bool.and_eq_true, decide_eq_true_eq] at h
      right
      split
      · exact ⟨p, List.mem_cons_self, h.1.1, h.1.2, h.2, rfl⟩
      · rcases ih (s.withWindow p.curSegStart (p.curSegStart + s.step)) with hs | ⟨q, hq, h1, h2, h3, hs⟩
        · exact ⟨p, List.mem_cons_self, h.1.1, h.1.2, h.2, hs⟩
        · exact ⟨q, List.mem_cons_of_mem _ hq, h1, h2, h.2.trans h3, hs⟩
    · rcases ih s with hs | ⟨q, hq, hrest⟩
      · exact Or.inl hs
      · exact Or.inr ⟨q, List.mem_cons_of_mem _ hq, hrest⟩

theorem curSegStart_le_adjustTo (s : Segmenter) (l : List Segmenter) :
    s.curSegStart ≤ (s.adjustTo l).1.curSegStart := by
  rcases adjustTo_window s l with h | ⟨p, _, _, _, hlt, h⟩
  · rw [h]
  · rw [h]
    exact hlt.le

/-- Only a closed segmenter that has just been moved is outside its borders. -/
theorem adjustTo_outside (s : Segmenter) (l : List Segmenter) (h : (s.adjustTo l).2 = true) :
    s.isOpen = false ∧ ∃ p ∈ l, p.processed ∧ s.intersects p ∧ s.curSegStart < p.curSegStart ∧
      s.lastTime ≤ p.curSegStart ∧
      (s.adjustTo l).1 = s.withWindow p.curSegStart (p.curSegStart + s.step) := by
  induction l generalizing s with
  | nil => simp [adjustTo] at h
  | cons p ps ih =>
    simp only [adjustTo] at h ⊢
    split at h
    · rename_i hp
      simp only [hp, if_true] at h ⊢
      simp only [Bool.and_eq_true, decide_eq_true_eq] at hp
      split at h
      · rename_i ho
        rw [if_pos ho]
        simp only [isOpen_withWindow, lastTime_withWindow, withWindow_curSegStart, Bool.and_eq_true,
          Bool.not_eq_true', decide_eq_true_eq] at ho
        exact ⟨ho.1, p, List.mem_cons_self, hp.1.1, hp.1.2, hp.2, ho.2, rfl⟩
      · rename_i ho
        rw [if_neg ho]
        obtain ⟨h1, q, hq, h2, h3, h4, h5, h6⟩ := ih _ h
        exact ⟨h1, q, List.mem_cons_of_mem _ hq, h2, h3, hp.2.trans h4, h5, h6⟩
    · rename_i hp
      rw [if_neg hp]
      obtain ⟨h1, q, hq, hrest⟩ := ih s h
      exact ⟨h1, q, List.mem_cons_of_mem _ hq, hrest⟩

/-- A segmenter that stays inside its borders is past every processed neighbour it intersects. -/
theorem le_adjustTo (s : Segmenter) (l : List Segmenter) (h : (s.adjustTo l).2 = false) :
    ∀ p ∈ l, p.processed → s.intersects p → p.curSegStart ≤ (s.adjustTo l).1.curSegStart := by
  induction l generalizing s with
  | nil => simp
  | cons q qs ih =>
    intro p hp hproc hint
    simp only [adjustTo] at h ⊢
    split at h
    · rename_i hq
      simp only [hq, if_true] at h ⊢
      split at h
      · simp at h
      · rename_i ho
        rw [if_neg ho]
        rcases List.mem_cons.mp hp with rfl | hp
        · exact curSegStart_le_adjustTo (s.withWindow _ _) qs
        · exact ih _ h p hp hproc hint
    · rename_i hq
      rw [if_neg hq]
      rcases List.mem_cons.mp hp with rfl | hp
      · simp only [hproc, hint, Bool.and_self, Bool.true_and, decide_eq_true_eq, not_lt] at hq
        exact hq.trans (curSegStart_le_adjustTo s qs)
      · exact ih s h p hp hproc hint

theorem cutSlice_window (s : Segmenter) (slice : Period) : ∃ a b, s.cutSlice slice = s.withWindow a b := by
  unfold cutSlice
  split <;> exact ⟨_, _, rfl⟩

theorem renewWindow_window (s : Segmenter) : ∃ b, s.renewWindow = s.withWindow s.curSegStart b := by
  unfold renewWindow
  split
  · exact ⟨_, rfl⟩
  · exact ⟨s.curSegStop, rfl⟩

theorem curSegStart_le_renewWindow (s : Segmenter) (h : 0 ≤ s.step) :
    s.renewWindow.curSegStart ≤ s.renewWindow.curSegStop := by
  unfold renewWindow
  split
  · exact Int.le_add_of_nonneg_right h
  · rename_i hn
    simp only [covered, decide_eq_true_eq, not_le] at hn
    exact hn.le

/-- The slices of the cloud move the window and change nothing else. -/
theorem checkSlices_window (s : Segmenter) (upload : Bool) (l : List Period) :
    ∃ a b, (s.checkSlices upload l).window = s.withWindow a b := by
  induction l generalizing s upload with
  | nil => exact ⟨_, _, rfl⟩
  | cons slice rest ih =>
    obtain ⟨a, b, hcut⟩ := cutSlice_window s slice
    obtain ⟨d, hs⟩ := renewWindow_window (s.cutSlice slice)
    have hs' : (s.cutSlice slice).renewWindow = s.withWindow a d := by
      rw [hs, hcut]
      rfl
    simp only [checkSlices, hs']
    split
    · split
      · exact ⟨a, d, rfl⟩
      · obtain ⟨a', d', h⟩ := ih (s.withWindow a d) (upload && !(s.cutSlice slice).covered)
        exact ⟨a', d', h⟩
    · exact ih s upload

/-- A slice that ends after the start of the window moves it forward only. -/
theorem curSegStart_le_cutSlice (s : Segmenter) {slice : Period} (hend : s.curSegStart < slice.endTime) :
    s.curSegStart ≤ (s.cutSlice slice).renewWindow.curSegStart := by
  obtain ⟨d, hs⟩ := renewWindow_window (s.cutSlice slice)
  rw [hs, withWindow_curSegStart, cutSlice]
  split
  · exact hend.le
  · exact le_rfl

theorem curSegStart_le_checkSlices (s : Segmenter) (upload : Bool) (l : List Period)
    (hl : ∀ p ∈ l, p.endTime ≠ Time.null) :
    s.curSegStart ≤ (s.checkSlices upload l).window.curSegStart := by
  induction l generalizing s upload with
  | nil => exact le_rfl
  | cons slice rest ih =>
    have hrest : ∀ p ∈ rest, p.endTime ≠ Time.null := fun p hp => hl p (List.mem_cons_of_mem _ hp)
    simp only [checkSlices]
    split
    · rename_i hi
      have hmeet := (Period.intersects_make_iff (hl slice List.mem_cons_self)).mp hi
      have hforward := s.curSegStart_le_cutSlice hmeet.2
      split
      · exact hforward
      · exact hforward.trans (ih _ _ hrest)
    · exact ih s upload hrest

/-- Slices that end somewhere move the start of the window forward only, and a window whose start
does not exceed its stop keeps that. -/
theorem checkSlices_forward (s : Segmenter) (upload : Bool) (l : List Period)
    (hl : ∀ p ∈ l, p.endTime ≠ Time.null) (hstep : 0 ≤ s.step) (hs : s.curSegStart ≤ s.curSegStop) :
    s.curSegStart ≤ (s.checkSlices upload l).window.curSegStart ∧
      (s.checkSlices upload l).window.curSegStart ≤ (s.checkSlices upload l).window.curSegStop := by
  refine ⟨s.curSegStart_le_checkSlices upload l hl, ?_⟩
  clear hl
  induction l generalizing s upload with
  | nil => exact hs
  | cons slice rest ih =>
    obtain ⟨a, b, hcut⟩ := cutSlice_window s slice
    obtain ⟨d, hs'⟩ := renewWindow_window (s.cutSlice slice)
    have hpos : 0 ≤ (s.cutSlice slice).step := by rwa [hcut]
    have hwin := curSegStart_le_renewWindow _ hpos
    simp only [checkSlices]
    split
    · split
      · exact hwin
      · exact ih _ (upload && !(s.cutSlice slice).covered) (by rwa [hs']) hwin
    · exact ih s upload hstep hs

theorem checkSlices_alreadyOnCloud_upload (s : Segmenter) (upload : Bool) (l : List Period)
    (h : (s.checkSlices upload l).alreadyOnCloud = true) :
    (s.checkSlices upload l).uploadCurrentWindow = false := by
  induction l generalizing s upload with
  | nil => simp [checkSlices] at h
  | cons slice rest ih =>
    simp only [checkSlices] at h ⊢
    by_cases hi : slice.intersects (Period.make s.curSegStart s.curSegStop) = true
    · simp only [hi, if_true] at h ⊢
      by_cases hgt : (s.cutSlice slice).renewWindow.curSegStart >
          (s.cutSlice slice).renewWindow.lastTime
      · rw [if_pos hgt]
      · rw [if_neg hgt] at h ⊢
        exact ih _ _ h
    · rw [if_neg hi] at h ⊢
      exact ih _ _ h

@[simp] theorem checkSlices_nil (s : Segmenter) (upload : Bool) :
    s.checkSlices upload [] = ⟨s, upload, false⟩ := rfl

theorem clippedStop_le_lastTime (s : Segmenter) (h : s.isOpen = false) : s.clippedStop ≤ s.lastTime := by
  unfold clippedStop
  split
  · exact le_rfl
  · rename_i hn
    simpa [h] using hn

theorem clippedStop_le_curSegStop (s : Segmenter) : s.clippedStop ≤ s.curSegStop := by
  unfold clippedStop
  split
  · rename_i hc
    simp only [Bool.and_eq_true, decide_eq_true_eq] at hc
    exact hc.2.le
  · exact le_rfl

theorem le_clippedStop (s : Segmenter) {t : Time} (h : t ≤ s.curSegStop)
    (hlast : s.isOpen = false → t ≤ s.lastTime) : t ≤ s.clippedStop := by
  unfold clippedStop
  split
  · rename_i hc
    simp only [Bool.and_eq_true, Bool.not_eq_true'] at hc
    exact hlast hc.1
  · exact h

end Segmenter
end CloudAgent.Agent
