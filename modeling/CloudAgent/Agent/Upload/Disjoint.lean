import CloudAgent.Agent.Upload.Adjusting
import CloudAgent.Agent.Upload.CloudCheck
import Mathlib.Data.Int.ConditionallyCompleteOrder
import Mathlib.Order.CompletePartialOrder
import Mathlib.Order.Interval.Set.Disjoint
import Mathlib.Tactic.Linarith

/-! No recording time is planned twice. A segmenter's own windows follow each other, the adjusting
loop moves it past the processed segmenters of the list that it intersects, and the check takes out
what the cloud timeline lists; the other planned clips have to be out of its reach by themselves. -/
namespace CloudAgent.Agent
open Utils Transition

/-- The recording time of a planned upload. -/
def UploadRequest.span (r : UploadRequest) : Set Time := Set.Ico r.tpStart r.tpStop

/-- The intervals from `a` to `b` and from `c` to `d` share some time. -/
def overlaps (a b c d : Time) : Bool := max a c < min b d

theorem overlaps_eq_false {a b c d : Time} :
    overlaps a b c d = false ↔ Disjoint (Set.Ico a b) (Set.Ico c d) := by
  rw [Set.Ico_disjoint_Ico]
  simp only [overlaps, decide_eq_false_iff_not, not_lt]

theorem not_overlaps_of_le {a b c d : Time} (h : b ≤ c) : overlaps a b c d = false := by
  simp only [overlaps, decide_eq_false_iff_not, not_lt]
  exact (min_le_left b d).trans (h.trans (le_max_right a c))

theorem overlaps_comm (a b c d : Time) : overlaps a b c d = overlaps c d a b := by
  simp only [overlaps, max_comm a c, min_comm b d]

theorem not_overlaps_of_subset {a b c d c' d' : Time} (h : overlaps a b c d = false) (hc : c ≤ c')
    (hd : d' ≤ d) : overlaps a b c' d' = false := by
  simp only [overlaps, decide_eq_false_iff_not, not_lt] at h ⊢
  exact (min_le_min_left b hd).trans (h.trans (max_le_max_left a hc))

instance (r q : UploadRequest) : Decidable (Disjoint r.span q.span) :=
  decidable_of_iff _ (overlaps_eq_false (a := r.tpStart) (b := r.tpStop) (c := q.tpStart) (d := q.tpStop))

/-- What a callback does to the window of a closed segmenter. -/
structure Segmenter.Forward (x y : Segmenter) : Prop where
  closed : y.isOpen = x.isOpen
  step : y.step = x.step
  start : x.curSegStart ≤ y.curSegStart
  window : (x.processed = false → x.curSegStart ≤ x.curSegStop) → y.processed = false →
    y.curSegStart ≤ y.curSegStop

namespace SegmentedUploader

variable {std : StdSort} {env : TickEnv} {u v : SegmentedUploader} {s : SegId}

/-- Closed segmenters whose windows have moved past the clips planned for them. -/
structure Windowed (u : SegmentedUploader) : Prop where
  closed : ∀ s, (u.heap s).isOpen = false
  step : ∀ s, 0 < (u.heap s).step
  window : ∀ s, (u.heap s).processed = false → (u.heap s).curSegStart ≤ (u.heap s).curSegStop
  behind : ∀ r ∈ u.planned, r.tpStop ≤ (u.heap r.segment).curSegStart

/-- Timers, containers and reports do not matter. -/
theorem Windowed.congr (h : Windowed u) (hheap : v.heap = u.heap) (hplanned : v.planned = u.planned) :
    Windowed v := by
  constructor
  · exact hheap ▸ h.closed
  · exact hheap ▸ h.step
  · exact hheap ▸ h.window
  · rw [hheap, hplanned]
    exact h.behind

theorem Windowed.setSeg {x : Segmenter} (h : Windowed u) (hx : (u.heap s).Forward x) :
    Windowed (u.setSeg s x) := by
  refine ⟨fun j => ?_, fun j => ?_, fun j => ?_, fun r hr => ?_⟩ <;> simp only [setSeg_heap] <;> split
  · exact hx.closed.trans (h.closed s)
  · exact h.closed j
  · exact hx.step ▸ h.step s
  · exact h.step j
  · exact hx.window (h.window s)
  · exact h.window j
  · rename_i hrs
    exact (hrs ▸ h.behind r hr).trans hx.start
  · exact h.behind r hr

theorem Windowed.send (h : Windowed u) (progress : ℕ) :
    Windowed (u.sendTimelineSynchronizationStatus progress s) := by
  obtain ⟨c, t, ct, m, -, -, he⟩ := send_eq u progress s
  have hset : Windowed (u.setSeg s ((u.heap s).withReport c t)) := h.setSeg ⟨rfl, rfl, le_rfl, id⟩
  rw [he]
  exact hset.congr rfl rfl

theorem Windowed.setSeg_send {x : Segmenter} (h : Windowed u) (progress : ℕ)
    (hx : (u.heap s).Forward x) :
    Windowed ((u.setSeg s x).sendTimelineSynchronizationStatus progress s) :=
  (h.setSeg hx).send progress

/-- The window that is requested starts no later than it stops. -/
theorem Windowed.le_clippedStop (h : Windowed u) (hcur : u.Current s)
    (hin : (u.heap s).isOpen = false → (u.heap s).curSegStart < (u.heap s).lastTime) :
    (u.heap s).curSegStart ≤ (u.heap s).clippedStop :=
  (u.heap s).le_clippedStop (h.window s hcur.processed) fun ho => (hin ho).le

/-- The provider's clip lies inside the window that is requested. -/
def clipInside (env : TickEnv) (u : SegmentedUploader) (s : SegId) : Bool :=
  let clip := requestClip env u s
  !clip.valid || ((u.heap s).curSegStart ≤ clip.tpStart && clip.tpStart ≤ clip.tpStop &&
    clip.tpStop ≤ (u.heap s).clippedStop)

/-- The window that is requested shares no time with the clip of another segmenter. -/
def clearOf (u : SegmentedUploader) (s : SegId) (r : UploadRequest) : Bool :=
  r.segment = s ||
    !overlaps r.tpStart r.tpStop (u.heap s).curSegStart (u.heap s).clippedStop

/-- The conditions under which a step is seen to keep the planned clips apart. -/
def clearConditions : Conditions where
  finalize _ _ _ := false
  window env phase s u := phase ≠ .step || (clipInside env u s && u.planned.all (clearOf u s))

/-- The next window starts between the start and the stop of this one, and past its clip. -/
theorem takenWindow_forward (h : Windowed u) (hcur : u.Current s)
    (hin : (u.heap s).isOpen = false → (u.heap s).curSegStart < (u.heap s).lastTime)
    (hclip : clipInside env u s = true) : (u.heap s).Forward (takenWindow env u s) ∧
      ((requestClip env u s).valid = true →
        (requestClip env u s).tpStop ≤ (takenWindow env u s).curSegStart) := by
  have hle := h.le_clippedStop hcur hin
  have hstop : (takenWindow env u s).curSegStop =
      (takenWindow env u s).curSegStart + (u.heap s).step := rfl
  have hwindow : (takenWindow env u s).curSegStart ≤ (takenWindow env u s).curSegStop :=
    hstop ▸ Int.le_add_of_nonneg_right (h.step s).le
  cases hvalid : (requestClip env u s).valid with
  | false =>
    have hstart : (takenWindow env u s).curSegStart = _ := takenWindow_curSegStart hvalid
    exact ⟨⟨rfl, rfl, hstart ▸ hle, fun _ _ => hwindow⟩, by simp⟩
  | true =>
    simp only [clipInside, hvalid, Bool.not_true, Bool.false_or, Bool.and_eq_true,
      decide_eq_true_eq] at hclip
    obtain ⟨⟨h1, h2⟩, h3⟩ := hclip
    have hstart : (takenWindow env u s).curSegStart = (u.heap s).clippedStop ∨
        (takenWindow env u s).curSegStart = (requestClip env u s).tpStop := by
      simp only [takenWindow, Segmenter.takeWindow_curSegStart, Segmenter.nextStart, hvalid, if_true]
      split
      · exact Or.inl rfl
      · exact Or.inr rfl
    rcases hstart with hs | hs
    · exact ⟨⟨rfl, rfl, hs ▸ hle, fun _ _ => hwindow⟩, fun _ => hs ▸ h3⟩
    · exact ⟨⟨rfl, rfl, hs ▸ h1.trans h2, fun _ _ => hwindow⟩, fun _ => hs.ge⟩

/-- Planning a clip inside the window that is requested. -/
theorem Windowed.plan (h : Windowed u) (hcur : u.Current s)
    (hin : (u.heap s).isOpen = false → (u.heap s).curSegStart < (u.heap s).lastTime)
    (hvalid : (requestClip env u s).valid = true) (hclip : clipInside env u s = true) :
    Windowed { u.setSeg s (takenWindow env u s).countPlanned with
      planned := u.planned ++ [uploadRequest s (takenWindow env u s) (requestClip env u s)] } := by
  obtain ⟨hforward, hpast⟩ := takenWindow_forward h hcur hin hclip
  have hset := h.setSeg (s := s) (x := (takenWindow env u s).countPlanned)
    ⟨hforward.closed, hforward.step, hforward.start, hforward.window⟩
  refine ⟨hset.closed, hset.step, hset.window, fun r hr => ?_⟩
  rcases List.mem_append.mp hr with hr | hr
  · exact hset.behind r hr
  · obtain rfl := List.mem_singleton.mp hr
    simpa [uploadRequest] using hpast hvalid

/-- The window of a segmenter whose slices have been taken out. -/
theorem checked_forward {a b : Time} {upload onCloud : Bool} (h : Windowed u) (hcur : u.Current s)
    (hcloud : (u.heap s).checkSlices true (cloudSlices std env u s) =
      ⟨(u.heap s).withWindow a b, upload, onCloud⟩) : (u.heap s).curSegStart ≤ a ∧ a ≤ b := by
  have hforward := (u.heap s).checkSlices_forward true (cloudSlices std env u s)
    (timelineSlices_endTime_ne_null std _) (h.step s).le (h.window s hcur.processed)
  rw [hcloud] at hforward
  exact hforward

/-- The windows go forward, and the planned clips are disjoint. -/
structure Separated (u : SegmentedUploader) : Prop extends Windowed u where
  disjoint : u.planned.Pairwise fun r q => Disjoint r.span q.span

theorem Separated.congr (h : Separated u) (hheap : v.heap = u.heap) (hplanned : v.planned = u.planned) :
    Separated v := ⟨h.toWindowed.congr hheap hplanned, hplanned ▸ h.disjoint⟩

theorem Separated.setSeg {x : Segmenter} (h : Separated u) (hx : (u.heap s).Forward x) :
    Separated (u.setSeg s x) := ⟨h.toWindowed.setSeg hx, h.disjoint⟩

theorem Separated.setSeg_send {x : Segmenter} (h : Separated u) (progress : ℕ)
    (hx : (u.heap s).Forward x) :
    Separated ((u.setSeg s x).sendTimelineSynchronizationStatus progress s) :=
  ⟨h.toWindowed.setSeg_send progress hx, by simpa using h.disjoint⟩

/-- A clip inside a clear window is apart from all planned clips. -/
theorem Separated.plan (h : Separated u) (hcur : u.Current s)
    (hin : (u.heap s).isOpen = false → (u.heap s).curSegStart < (u.heap s).lastTime)
    (hvalid : (requestClip env u s).valid = true) (hclip : clipInside env u s = true)
    (hclear : ∀ r ∈ u.planned, clearOf u s r = true) :
    Separated { u.setSeg s (takenWindow env u s).countPlanned with
      planned := u.planned ++ [uploadRequest s (takenWindow env u s) (requestClip env u s)] } := by
  have hwindowed := h.toWindowed.plan hcur hin hvalid hclip
  simp only [clipInside, hvalid, Bool.not_true, Bool.false_or, Bool.and_eq_true,
    decide_eq_true_eq] at hclip
  refine ⟨hwindowed, ?_⟩
  refine List.pairwise_append.mpr ⟨h.disjoint, by simp, fun r hr q hq => ?_⟩
  obtain rfl := List.mem_singleton.mp hq
  apply overlaps_eq_false.mp
  have hr' := hclear r hr
  simp only [clearOf, Bool.or_eq_true, decide_eq_true_eq, Bool.not_eq_true'] at hr'
  rcases hr' with rfl | hr'
  · exact not_overlaps_of_le ((h.behind r hr).trans hclip.1.1)
  · exact not_overlaps_of_subset hr' hclip.1.1 hclip.2

theorem separated_tick (std : StdSort) (env : TickEnv) :
    TickInvariant std env (clearConditions.window env) Separated where
  list _ _ h _ := h.congr rfl rfl
  adjust u s v h hcur _ hv := by
    have hstep := Int.le_of_lt (h.step s)
    cases hv with
    | same => exact h
    | moved q hq hproc hint hlt =>
      exact h.setSeg ⟨rfl, rfl, hlt.le, fun _ _ => Int.le_add_of_nonneg_right hstep⟩
    | outside q hq hproc hint hlt =>
      exact h.setSeg_send 100 ⟨rfl, rfl, hlt.le, fun _ _ => Int.le_add_of_nonneg_right hstep⟩
  check u s upload v h hcur _ hv := by
    cases hv with
    | moved a b upload hcloud =>
      obtain ⟨ha, hab⟩ := checked_forward h.toWindowed hcur hcloud
      exact h.setSeg ⟨rfl, rfl, ha, fun _ _ => hab⟩
    | onCloudUnplanned a b hcloud =>
      obtain ⟨ha, hab⟩ := checked_forward h.toWindowed hcur hcloud
      exact h.setSeg_send 100 ⟨rfl, rfl, ha, fun _ _ => hab⟩
    | onCloudPlanned a b hcloud =>
      obtain ⟨ha, hab⟩ := checked_forward h.toWindowed hcur hcloud
      exact h.setSeg ⟨rfl, rfl, ha, fun _ _ => hab⟩
  step u s v h hcur hok hv := by
    have hok : clipInside env u s = true ∧ ∀ r ∈ u.planned, clearOf u s r = true := by
      simpa [clearConditions] using hok
    have hstep := Int.le_of_lt (h.step s)
    cases hv with
    | outsideUnplanned => exact h.setSeg_send 0 ⟨rfl, rfl, le_rfl, fun _ hp => by simp at hp⟩
    | outsidePlanned => exact h.setSeg ⟨rfl, rfl, le_rfl, fun _ hp => by simp at hp⟩
    | empty =>
      exact h.setSeg ⟨rfl, rfl, le_rfl, fun _ _ => Int.le_add_of_nonneg_right hstep⟩
    | exported hin hclip => exact h.plan hcur hin hclip hok.1 hok.2
    | finalUnplanned hin hclip =>
      obtain ⟨hforward, -⟩ := takenWindow_forward h.toWindowed hcur hin hok.1
      exact h.setSeg_send 0 ⟨hforward.closed, hforward.step, hforward.start, fun _ hp => by simp at hp⟩
    | skipped hin hclip =>
      exact h.setSeg (takenWindow_forward h.toWindowed hcur hin hok.1).1

theorem separated_step (std : StdSort) : StepInvariant std clearConditions Separated where
  service _ _ _ _ h := h.congr rfl rfl
  enqueue _ _ _ h _ _ := h.congr rfl rfl
  finalize _ _ _ _ hok := by simp [clearConditions] at hok
  cancel _ _ h _ _ _ := h.setSeg_send 100 ⟨rfl, rfl, le_rfl, fun _ hp => by simp at hp⟩
  canceledTicket _ _ h := h.congr rfl rfl
  tick env := separated_tick std env
  report u k r ok h _ _ := by
    have hv : Separated (u.onFinished r.segment ok) := by
      rw [onFinished_eq]
      exact h.setSeg_send _ ⟨rfl, rfl, le_rfl, id⟩
    exact hv.congr rfl rfl

/-! ### What keeps the next window apart -/

/-- The windows in which adjusting can leave `x` among the listed segmenters `l`. -/
def adjustable (x : Segmenter) (l : List Segmenter) : List Segmenter :=
  x :: (l.filter fun q => q.processed && x.intersects q).map fun q =>
    x.withWindow q.curSegStart (q.curSegStart + x.step)

/-- The clip shares no time with what is left of the recording of `x`. -/
def outOfReach (x : Segmenter) (r : UploadRequest) : Bool :=
  !overlaps r.tpStart r.tpStop x.curSegStart x.lastTime

/-- A processed segmenter that `x` intersects has passed the clip, or all of what `x` records. -/
def passedByProcessed (x : Segmenter) (l : List Segmenter) (r : UploadRequest) : Bool :=
  l.any fun q => q.processed && x.intersects q && min r.tpStop x.lastTime ≤ q.curSegStart

/-- Whichever window of `x` the cloud timeline is asked for, it lists the clip. -/
def listedOnCloud (std : StdSort) (env : TickEnv) (x : Segmenter) (l : List Segmenter)
    (r : UploadRequest) : Bool :=
  (adjustable x l).all fun y => 0 ≤ y.curSegStart && y.curSegStart < y.curSegStop &&
    (timelineSlices std (env.storageObjects y.curSegStart y.curSegStop)).any fun slice =>
      slice.beginTime ≤ r.tpStart && r.tpStop ≤ slice.endTime

/-- The clip is one of `s` itself, or something keeps `s` away from it. This is asked of the state
in which adjusting finds `s`. -/
def keptApart (std : StdSort) (env : TickEnv) (u : SegmentedUploader) (s : SegId) (r : UploadRequest) :
    Bool :=
  r.segment = s || outOfReach (u.heap s) r || passedByProcessed (u.heap s) (u.others s) r ||
    listedOnCloud std env (u.heap s) (u.others s) r

/-- The provider answers inside the requested windows, and no event is ended meanwhile. A segmenter
that is about to be adjusted is kept apart from the planned clips of the others, and choosing again
keeps the one that has been adjusted. -/
def disjointConditions (std : StdSort) : Conditions where
  finalize _ _ _ := false
  window env phase s u :=
    match phase with
    | .adjust => u.planned.all (keptApart std env u s)
    | .choose => u.firstUnprocessed = some s
    | .check => true
    | .step => clipInside env u s

theorem adjustTo_mem_adjustable (x : Segmenter) (l : List Segmenter) :
    (x.adjustTo l).1 ∈ adjustable x l := by
  rcases x.adjustTo_window l with h | ⟨q, hq, hproc, hint, -, h⟩
  · rw [h]
    exact List.mem_cons_self
  · rw [h]
    refine List.mem_cons_of_mem _ (List.mem_map.mpr ⟨q, List.mem_filter.mpr ⟨hq, ?_⟩, rfl⟩)
    simp [hproc, hint]

@[simp] theorem adjustTo_isOpen (x : Segmenter) (l : List Segmenter) :
    (x.adjustTo l).1.isOpen = x.isOpen := by
  rcases x.adjustTo_window l with h | ⟨_, _, _, _, _, h⟩ <;> simp [h]

@[simp] theorem adjustTo_lastTime (x : Segmenter) (l : List Segmenter) :
    (x.adjustTo l).1.lastTime = x.lastTime := by
  rcases x.adjustTo_window l with h | ⟨_, _, _, _, _, h⟩ <;> simp [h]

variable {x : Segmenter} {l : List Segmenter} {r : UploadRequest} {a b : Time}

theorem not_overlaps_of_passed (hin : (x.adjustTo l).2 = false) (ha : (x.adjustTo l).1.curSegStart ≤ a)
    (hb : b ≤ x.lastTime) (h : passedByProcessed x l r = true) :
    overlaps r.tpStart r.tpStop a b = false := by
  obtain ⟨q, hq, hpassed⟩ := List.any_eq_true.mp h
  simp only [Bool.and_eq_true, decide_eq_true_eq] at hpassed
  obtain ⟨⟨hproc, hint⟩, hpast⟩ := hpassed
  have hpast : min r.tpStop x.lastTime ≤ a :=
    hpast.trans ((x.le_adjustTo l hin q hq hproc hint).trans ha)
  simp only [overlaps, decide_eq_false_iff_not, not_lt]
  calc min r.tpStop b ≤ min r.tpStop x.lastTime := min_le_min_left _ hb
    _ ≤ a := hpast
    _ ≤ max r.tpStart a := le_max_right _ _

theorem not_overlaps_of_listed {y : Segmenter} {c : Time} (hy : y ∈ adjustable x l)
    (hcloud : y.checkSlices true (timelineSlices std (env.storageObjects y.curSegStart y.curSegStop)) =
      ⟨y.withWindow a b, true, false⟩)
    (hc : c ≤ b) (h : listedOnCloud std env x l r = true) : overlaps r.tpStart r.tpStop a c = false := by
  have hwindow := List.all_eq_true.mp h y hy
  simp only [Bool.and_eq_true, decide_eq_true_eq, List.any_eq_true] at hwindow
  obtain ⟨⟨hnonneg, hwin⟩, slice, hslice, hbegin, hend⟩ := hwindow
  have hup : (y.checkSlices true (timelineSlices std
      (env.storageObjects y.curSegStart y.curSegStop))).uploadCurrentWindow = true := by
    rw [hcloud]
  obtain ⟨-, -, -, hapart⟩ := Segmenter.checkSlices_trimmed hwin
    (fun hneg => absurd hneg (not_lt.mpr hnonneg)) (timelineSlices_endTime_ne_null std _) hup
  rw [hcloud] at hapart
  rcases hapart slice hslice with hs | hs
  · exact not_overlaps_of_le (hend.trans hs)
  · rw [overlaps_comm]
    exact not_overlaps_of_le (hc.trans (hs.trans hbegin))

/-- The window that the check leaves of an adjusted one is out of the way of the clip. -/
theorem not_overlaps_window (hopen : x.isOpen = false) (hin : (x.adjustTo l).2 = false)
    (ha : (x.adjustTo l).1.curSegStart ≤ a)
    (hcloud : (x.adjustTo l).1.checkSlices true (timelineSlices std
      (env.storageObjects (x.adjustTo l).1.curSegStart (x.adjustTo l).1.curSegStop)) =
      ⟨(x.adjustTo l).1.withWindow a b, true, false⟩)
    (h : outOfReach x r = true ∨ passedByProcessed x l r = true ∨ listedOnCloud std env x l r = true) :
    overlaps r.tpStart r.tpStop a ((x.adjustTo l).1.withWindow a b).clippedStop = false := by
  have hlast : ((x.adjustTo l).1.withWindow a b).clippedStop ≤ x.lastTime := by
    simpa using ((x.adjustTo l).1.withWindow a b).clippedStop_le_lastTime (by simpa using hopen)
  rcases h with hreach | hpassed | hlisted
  · have hreach : overlaps r.tpStart r.tpStop x.curSegStart x.lastTime = false := by
      simpa [outOfReach] using hreach
    exact not_overlaps_of_subset hreach ((x.curSegStart_le_adjustTo l).trans ha) hlast
  · exact not_overlaps_of_passed hin ha hlast hpassed
  · exact not_overlaps_of_listed (adjustTo_mem_adjustable x l) hcloud
      ((x.adjustTo l).1.withWindow a b).clippedStop_le_curSegStop hlisted

/-- The conditions suffice, since the adjusting loop has just adjusted the segmenter whose window is
requested. -/
theorem clear_of_disjoint (hs : u.Sound) (h : Separated u)
    (hm : TickMeets std env ((disjointConditions std).window env) u = true) :
    TickMeets std env (clearConditions.window env) u = true := by
  obtain ⟨hadj, hrest⟩ := tickMeets_iff.mp hm
  have hclear : AdjustLoopMeets std (clearConditions.window env .adjust) (u.segmenters.length + 1) u =
      true := adjustLoopMeets_true _ u
  refine tickMeets_iff.mpr ⟨hclear, fun v hv s hc => ⟨rfl, rfl, fun hup => ?_⟩⟩
  obtain ⟨hchoose, -, hstep⟩ := hrest v hv s hc
  have hsep := (separated_tick std env).adjustLoop _ hs h hclear
  have hcount : u.segmenters.countP u.unprocessed < u.segmenters.length + 1 :=
    Nat.lt_succ_of_le List.countP_le_length
  rw [hv] at hsep
  have hfirst : v.firstUnprocessed = some s := by simpa [disjointConditions] using hchoose
  obtain ⟨w, hkept, hin, hw⟩ := adjustLoop_last (s := s) _ hs hcount hadj (hv ▸ hfirst)
  obtain ⟨hinside, hwv⟩ := adjustCurrent_inside hin
  obtain rfl : v = w.setSeg s ((w.heap s).adjustTo (w.others s)).1 := hv.symm.trans (hw.trans hwv)
  obtain ⟨l, hl, -, -⟩ := getCurrent_segmenters std
    (w.setSeg s ((w.heap s).adjustTo (w.others s)).1)
  have hcur := getCurrent_current hsep.1 hc
  have hopen : (w.heap s).isOpen = false := by simpa using hsep.2.closed s
  have hsep' := ((separated_tick std env).getCurrent hsep.1 hsep.2).2
  rw [hl] at hup hstep hcur hsep' ⊢
  have hchk := checked std env
    { w.setSeg s ((w.heap s).adjustTo (w.others s)).1 with segmenters := l } s
  generalize (SegmentedUploader.checkClipSegment std env _ s).1 = upload at hup hstep hchk
  generalize (SegmentedUploader.checkClipSegment std env _ s).2 = c at hstep hchk ⊢
  cases hchk with
  | moved a b upload hcloud =>
    obtain rfl : upload = true := hup
    obtain ⟨ha, -⟩ := checked_forward hsep'.toWindowed hcur hcloud
    simp only [cloudSlices, setSeg_heap_self] at hcloud ha
    simp only [clearConditions, ne_eq, not_true_eq_false, decide_false, Bool.false_or,
      Bool.and_eq_true, List.all_eq_true]
    refine ⟨hstep rfl, fun r hr => ?_⟩
    have hr : keptApart std env w s r = true := List.all_eq_true.mp hkept r hr
    simp only [keptApart, Bool.or_eq_true, decide_eq_true_eq, or_assoc] at hr
    simp only [clearOf, Bool.or_eq_true, decide_eq_true_eq, Bool.not_eq_true', setSeg_heap_self]
    exact hr.imp_right fun hr => not_overlaps_window hopen hinside ha hcloud hr
  | onCloudUnplanned => simp at hup
  | onCloudPlanned => simp at hup

theorem admits_clear {a : Action} (hs : u.Sound) (h : Separated u)
    (hm : (disjointConditions std).Admits std u a) : clearConditions.Admits std u a := by
  cases a with
  | fire t env =>
    intro f hf
    have hok := hm f hf
    obtain ⟨cb, http⟩ := f
    cases cb with
    | asyncLoop =>
      have hw : Separated { u with http := http } := (separated_step std).service u http u.loop _ h
      exact clear_of_disjoint (u := { u with http := http }) hs hw hok
    | segmenterEnqueue => rfl
    | segmenterFinalize => exact hok
    | segmenterCancelByTicket => rfl
  | reportFinished => rfl
  | scheduleUpload => trivial
  | finalizeUpload => trivial
  | cancelUpload => trivial

theorem separated_start (camId : ℤ) (created : SegId → NewSegmenter)
    (hstarted : ∀ s, (created s).1.Started) : Separated (start camId created) := by
  refine ⟨⟨fun s => ?_, fun s => ?_, fun s _ => ?_, by simp [start]⟩, by simp [start]⟩ <;>
    obtain ⟨h1, h2, h3, h4, h5, h6, h7⟩ := hstarted s
  · exact decide_eq_false h1
  · exact h5
  · have h6 : ((start camId created).heap s).curSegStart = (created s).1.firstTime := h6
    have h7 : ((start camId created).heap s).curSegStop =
        min ((created s).1.beginTime + (created s).1.step) (created s).1.lastTime := h7
    rw [h6, h7]
    simp only [Segmenter.firstTime, Segmenter.lastTime, le_min_iff]
    constructor <;> linarith

/-- In every run that meets the conditions, no recording time is planned for upload twice. -/
theorem planned_disjoint (std : StdSort) (camId : ℤ) (created : SegId → NewSegmenter)
    (hstarted : ∀ s, (created s).1.Started) (as : List Action)
    (hm : Meets (step std) ((disjointConditions std).Admits std) (start camId created) as)
    (he : exec (step std) (start camId created) as = some u) :
    u.planned.Pairwise fun r q => Disjoint r.span q.span :=
  (Transition.invariant (P := fun v => v.Sound ∧ Separated v)
    (fun _ a _ hv hok hw =>
      ⟨hv.1.step hw, (separated_step std).step a hv.1 hv.2 (admits_clear hv.1 hv.2 hok) hw⟩)
    ⟨sound_start camId created, separated_start camId created hstarted⟩ hm he).2.disjoint

/-- Two stateless events whose recordings overlap. -/
def twoEvents (first : SegId → Time × Time) : SegId → NewSegmenter := fun s =>
  .ofEvent false (first s).1 (first s).2 0 0 (seconds 15) 0 "cam" "" 0

/-- The second recording starts before the first one ends. -/
def neighbours : SegId → NewSegmenter :=
  twoEvents fun s => if s = 0 then (seconds 1000, seconds 1030) else (seconds 1020, seconds 1040)

theorem neighbours_started (s : SegId) : (neighbours s).1.Started := by
  by_cases h : s = 0 <;> simp only [neighbours, twoEvents, h, if_true, if_false] <;> decide

theorem planned_disjoint_neighbours :
    ∃ u, exec (step .insertion) (start 7 neighbours)
        [.scheduleUpload 0, .scheduleUpload 1, .fire 1 (.exact []), .fire 2 (.exact []),
          .fire 0 (.exact []), .fire 3 (.exact []), .fire 4 (.exact [])] = some u ∧
      u.planned.map (·.segment) = [0, 0, 1] ∧ u.planned.Pairwise fun r q => Disjoint r.span q.span := by
  have hrun : ∃ u ∈ exec (step .insertion) (start 7 neighbours)
      [.scheduleUpload 0, .scheduleUpload 1, .fire 1 (.exact []), .fire 2 (.exact []),
        .fire 0 (.exact []), .fire 3 (.exact []), .fire 4 (.exact [])],
      u.planned.map (·.segment) = [0, 0, 1] := by
    decide +kernel
  obtain ⟨u, hu, hsegments⟩ := hrun
  exact ⟨u, hu, hsegments,
    planned_disjoint .insertion 7 neighbours neighbours_started _ (by decide +kernel) hu⟩

/-- The second recording starts first, and it is enqueued when a window of the other is planned. -/
def lateNeighbour : SegId → NewSegmenter :=
  twoEvents fun s => if s = 0 then (seconds 1000, seconds 1100) else (seconds 995, seconds 1100)

theorem lateNeighbour_started (s : SegId) : (lateNeighbour s).1.Started := by
  by_cases h : s = 0 <;> simp only [lateNeighbour, twoEvents, h, if_true, if_false] <;> decide

theorem planned_twice :
    (∀ s, (lateNeighbour s).1.Started) ∧
      ∃ u ∈ exec (step .insertion) (start 7 lateNeighbour)
          [.scheduleUpload 0, .fire 1 (.exact []), .fire 0 (.exact []), .scheduleUpload 1,
            .fire 3 (.exact []), .fire 2 (.exact [])],
        ¬ u.planned.Pairwise fun r q => Disjoint r.span q.span :=
  ⟨lateNeighbour_started, by decide +kernel⟩

end SegmentedUploader
end CloudAgent.Agent
