import CloudAgent.Agent.Upload.Terminates

/-! The windows that a tick requests from a provider. A tick makes at most one request, and its window
is well formed as long as the window of its segmenter has been kept in order. -/
namespace CloudAgent.Agent
open Utils Transition

namespace Segmenter

/-- What `record_get_list` is called with: the segmenter at the time of the call. -/
structure WellFormed (x : Segmenter) : Prop where
  nonempty : x.curSegStart < x.curSegStop
  length : x.curSegStop - x.curSegStart ≤ x.step + x.pre
  inside : x.isOpen = false → x.firstTime ≤ x.curSegStart ∧ x.curSegStop ≤ x.lastTime

/-- The window is no longer than the first one may be. -/
def Short (x : Segmenter) : Prop := x.curSegStop - x.curSegStart ≤ x.step + x.pre

/-- The window of a closed segmenter stands past its last time. -/
def Spent (x : Segmenter) : Prop := x.isOpen = false ∧ x.lastTime ≤ x.curSegStart

instance (x : Segmenter) : Decidable x.Short := by unfold Short; infer_instance

instance (x : Segmenter) : Decidable x.Spent := by unfold Spent; infer_instance

/-- A segmenter whose next request will be well formed, if there is one. -/
structure Orderly (x : Segmenter) : Prop where
  pre : 0 ≤ x.pre
  step : 0 < x.step
  first : x.firstTime ≤ x.curSegStart
  window : x.settled = false → x.Short ∧ (x.Spent ∨ x.curSegStart ≤ x.curSegStop)

/-- A segmenter that `event_state::start` has built at a time that a `cloud::time` can hold. -/
def EventStarted (x : Segmenter) : Prop :=
  ∃ stateful time timeEnd pre post step startDelay segProvider uploadToken now,
    time ≤ Time.max ∧ 0 ≤ pre ∧ 0 ≤ post ∧ 0 < step ∧
      x = eventStateStart stateful time timeEnd pre post step startDelay segProvider uploadToken now

variable {x y : Segmenter} {slice : Period} {slices rest : List Period}

theorem EventStarted.orderly (h : x.EventStarted) : x.Orderly := by
  obtain ⟨stateful, time, timeEnd, pre, post, step, startDelay, segProvider, uploadToken, now, hmax, hpre,
    hpost, hstep, rfl⟩ := h
  generalize hx : eventStateStart stateful time timeEnd pre post step startDelay segProvider uploadToken
    now = x
  have hstart : x.curSegStart = time - pre := by rw [← hx]; rfl
  have hstop : x.curSegStop = min (time + step) (if x.endTime ≠ Time.null then x.lastTime else Time.max) := by
    rw [← hx]; rfl
  have hpre' : x.pre = pre := by rw [← hx]; rfl
  have hstep' : x.step = step := by rw [← hx]; rfl
  refine ⟨hpre' ▸ hpre, hstep' ▸ hstep, by rw [← hx]; exact le_rfl, fun _ => ⟨?_, ?_⟩⟩
  · rw [Short, hstart, hpre', hstep', hstop]
    linarith [min_le_left (time + step) (if x.endTime ≠ Time.null then x.lastTime else Time.max)]
  · by_cases hopen : x.endTime = Time.null
    · refine .inr ?_
      rw [hstart, hstop, if_neg (not_not.mpr hopen)]
      exact le_min (by linarith) (by linarith)
    · rcases le_or_gt x.lastTime x.curSegStart with hlast | hlast
      · exact .inl ⟨decide_eq_false hopen, hlast⟩
      · refine .inr ?_
        rw [hstop, if_pos hopen]
        exact le_min (by rw [hstart]; linarith) hlast.le

/-- A window of one step. -/
theorem Short.full (hpre : 0 ≤ x.pre) (hstop : x.curSegStop = x.curSegStart + x.step) : x.Short := by
  rw [Short, hstop]
  linarith

/-- A window that has only moved forward. -/
theorem Orderly.withWindow (h : x.Orderly) {a b : Time} (ha : x.curSegStart ≤ a)
    (hb : x.Short → (x.withWindow a b).Short ∧ (x.curSegStart ≤ x.curSegStop → a ≤ b)) :
    (x.withWindow a b).Orderly := by
  refine ⟨h.pre, h.step, h.first.trans ha, fun hsettled => ?_⟩
  obtain ⟨hshort, hwindow⟩ := h.window hsettled
  exact ⟨(hb hshort).1, hwindow.imp (fun hspent => ⟨hspent.1, hspent.2.trans ha⟩) (hb hshort).2⟩

theorem Orderly.moveTo (h : x.Orderly) {a : Time} (ha : x.curSegStart ≤ a) :
    (x.withWindow a (a + x.step)).Orderly :=
  h.withWindow ha fun _ => ⟨.full h.pre rfl, fun _ => (lt_add_of_pos_right a h.step).le⟩

/-- Nothing more is requested for a segmenter that is settled. -/
theorem Orderly.withState (h : x.Orderly) (f : Bool) : (x.withState true f).Orderly :=
  ⟨h.pre, h.step, h.first, fun hsettled => absurd hsettled (by simp [Segmenter.settled])⟩

/-! ### Slices of the cloud -/

/-- No slice begins after the null time where the window may stop at the null time, which would make it
endless. -/
def ClearOfEpoch (x : Segmenter) (slices : List Period) : Prop :=
  (Time.null ≤ x.curSegStart ∧ Time.null < x.curSegStop) ∨ ∀ p ∈ slices, p.beginTime ≤ Time.null

instance (x : Segmenter) (slices : List Period) : Decidable (x.ClearOfEpoch slices) := by
  unfold ClearOfEpoch; infer_instance

/-- One slice leaves a window that is in order, and no longer than before unless it is renewed. -/
theorem Short.cutSlice (h : x.Short) (hpre : 0 ≤ x.pre) (hstep : 0 < x.step)
    (hclear : x.ClearOfEpoch (slice :: rest)) (hend : x.curSegStart < slice.endTime)
    (hbegin : x.curSegStop ≠ Time.null → slice.beginTime < x.curSegStop) :
    let x' := (x.cutSlice slice).renewWindow
    x'.Short ∧ x'.curSegStart ≤ x'.curSegStop ∧ x'.ClearOfEpoch rest := by
  have htail : (∀ p ∈ slice :: rest, p.beginTime ≤ Time.null) → ∀ p ∈ rest, p.beginTime ≤ Time.null :=
    fun h p hp => h p (List.mem_cons_of_mem _ hp)
  unfold Segmenter.cutSlice
  split
  · by_cases hcovered : (x.withWindow slice.endTime x.curSegStop).covered = true
    · rw [renewWindow, if_pos hcovered]
      refine ⟨.full hpre rfl, (lt_add_of_pos_right _ hstep).le, hclear.imp (fun hpos => ?_) htail⟩
      exact ⟨hpos.1.trans hend.le, hpos.1.trans_lt (hend.trans (lt_add_of_pos_right _ hstep))⟩
    · rw [renewWindow, if_neg hcovered]
      simp only [covered, withWindow_curSegStart, withWindow_curSegStop, decide_eq_true_eq, not_le] at hcovered
      refine ⟨?_, hcovered.le, hclear.imp (fun hpos => ⟨hpos.1.trans hend.le, hpos.2⟩) htail⟩
      simp only [Short, withWindow_curSegStart, withWindow_curSegStop, withWindow_step, withWindow_pre] at h ⊢
      linarith
  · rename_i hlt
    have hlt := not_le.mp hlt
    have hstop : slice.beginTime ≤ x.curSegStop := by
      by_cases hnull : x.curSegStop = Time.null
      · rcases hclear with hpos | hall
        · exact absurd hnull hpos.2.ne'
        · exact (hall slice List.mem_cons_self).trans_eq hnull.symm
      · exact (hbegin hnull).le
    have hcovered : ¬ (x.withWindow x.curSegStart slice.beginTime).covered = true := by
      simpa [covered] using hlt
    rw [renewWindow, if_neg hcovered]
    refine ⟨?_, hlt.le, hclear.imp (fun hpos => ⟨hpos.1, hpos.1.trans_lt hlt⟩) htail⟩
    simp only [Short, withWindow_curSegStart, withWindow_curSegStop, withWindow_step, withWindow_pre] at h ⊢
    linarith

theorem Short.checkSlices (x : Segmenter) (upload : Bool) (slices : List Period)
    (hends : ∀ p ∈ slices, p.endTime ≠ Time.null) (hpre : 0 ≤ x.pre) (hstep : 0 < x.step)
    (hclear : x.ClearOfEpoch slices) (h : x.Short) :
    let w := (x.checkSlices upload slices).window
    w.Short ∧ (x.curSegStart ≤ x.curSegStop → w.curSegStart ≤ w.curSegStop) := by
  induction slices generalizing x upload with
  | nil => exact ⟨h, id⟩
  | cons slice rest ih =>
    have hrest : ∀ p ∈ rest, p.endTime ≠ Time.null := fun p hp => hends p (List.mem_cons_of_mem _ hp)
    simp only [Segmenter.checkSlices]
    split
    · rename_i hi
      have hmeet := (Period.intersects_make_iff (hends slice List.mem_cons_self)).mp hi
      have hbegin : x.curSegStop ≠ Time.null → slice.beginTime < x.curSegStop := fun hnull =>
        hmeet.1.trans_eq (Period.make_endTime hnull)
      obtain ⟨hshort, hordered, hclear'⟩ := h.cutSlice hpre hstep hclear hmeet.2 hbegin
      obtain ⟨a, b, hcut⟩ := cutSlice_window x slice
      obtain ⟨d, hrenew⟩ := renewWindow_window (x.cutSlice slice)
      split
      · exact ⟨hshort, fun _ => hordered⟩
      · obtain ⟨h1, h2⟩ := ih _ (upload && !(x.cutSlice slice).covered) hrest (by rwa [hrenew, hcut])
          (by rwa [hrenew, hcut]) hclear' hshort
        exact ⟨h1, fun _ => h2 hordered⟩
    · refine ih x upload hrest hpre hstep (hclear.imp_right fun hall p hp => ?_) h
      exact hall p (List.mem_cons_of_mem _ hp)

end Segmenter

namespace SegmentedUploader

variable {std : StdSort} {env : TickEnv} {u v w : SegmentedUploader} {s : SegId} {x : Segmenter}

/-! ### Windows in order -/

/-- Every segmenter is in order. -/
def AllOrderly (u : SegmentedUploader) : Prop := ∀ s, (u.heap s).Orderly

theorem AllOrderly.setSeg (h : AllOrderly u) (hx : x.Orderly) : AllOrderly (u.setSeg s x) := by
  intro j
  simp only [setSeg_heap]
  split
  · exact hx
  · exact h j

theorem AllOrderly.send (h : AllOrderly u) (progress : ℕ) (s : SegId) :
    AllOrderly (u.sendTimelineSynchronizationStatus progress s) := by
  intro j
  refine heap_send (P := Segmenter.Orderly) progress s j (fun x c t hx hc _ => ?_) (h j)
  refine ⟨hx.pre, hx.step, hx.first, fun hsettled => hx.window ?_⟩
  apply Bool.eq_false_iff.mpr
  intro hbefore
  rw [Segmenter.settled_withReport t hc hbefore] at hsettled
  cases hsettled

theorem AllOrderly.setSeg_send (h : AllOrderly u) (progress : ℕ) (hx : x.Orderly) :
    AllOrderly ((u.setSeg s x).sendTimelineSynchronizationStatus progress s) := (h.setSeg hx).send progress s

/-- No segmenter whose window is the wrong way round gets an end past its start, the cloud has nothing
after the null time for windows that may stop there, and clips stop after the windows' starts. -/
def windowConditions (std : StdSort) : Conditions where
  finalize u s stop := (u.heap s).settled || (u.heap s).curSegStart ≤ (u.heap s).curSegStop ||
    (stop ≠ Time.null && stop + (u.heap s).post ≤ (u.heap s).curSegStart)
  window env phase s u :=
    (phase ≠ .check || (u.heap s).ClearOfEpoch (cloudSlices std env u s)) &&
      (phase ≠ .step || clipAdvances env u s)

/-- The window that is requested is in order. -/
theorem le_clippedStop_of_orderly (h : (u.heap s).Orderly) (hsettled : (u.heap s).settled = false)
    (hin : (u.heap s).isOpen = false → (u.heap s).curSegStart < (u.heap s).lastTime) :
    (u.heap s).curSegStart ≤ (u.heap s).clippedStop := by
  rcases (h.window hsettled).2 with hspent | hordered
  · exact absurd (hin hspent.1) (not_lt.mpr hspent.2)
  · exact (u.heap s).le_clippedStop hordered fun ho => (hin ho).le

theorem takenWindow_orderly (h : (u.heap s).Orderly) (hcur : u.Current s)
    (hin : (u.heap s).isOpen = false → (u.heap s).curSegStart < (u.heap s).lastTime)
    (hclip : clipAdvances env u s = true) : (takenWindow env u s).Orderly := by
  have hstop := le_clippedStop_of_orderly h (settled_eq_false hcur) hin
  have hstart : (u.heap s).curSegStart ≤ (takenWindow env u s).curSegStart :=
    (takenWindow_start hclip).elim (fun h => hstop.trans_eq h.symm) le_of_lt
  exact ⟨h.pre, h.step, h.first.trans hstart, fun _ =>
    ⟨.full h.pre rfl, .inr (lt_add_of_pos_right _ h.step).le⟩⟩

theorem AllOrderly.adjusted (h : AllOrderly u) (hv : Adjusted u s v) : AllOrderly v := by
  cases hv with
  | same => exact h
  | moved q hq hproc hint hlt => exact h.setSeg ((h s).moveTo hlt.le)
  | outside q hq hproc hint hlt => exact h.setSeg_send 100 (((h s).moveTo hlt.le).withState true)

theorem cloudSlices_orderly {a b : Time} {upload onCloud : Bool} (h : (u.heap s).Orderly)
    (hclear : (u.heap s).ClearOfEpoch (cloudSlices std env u s))
    (hcloud : (u.heap s).checkSlices true (cloudSlices std env u s) =
      ⟨(u.heap s).withWindow a b, upload, onCloud⟩) : ((u.heap s).withWindow a b).Orderly := by
  have hends : ∀ p ∈ cloudSlices std env u s, p.endTime ≠ Time.null := timelineSlices_endTime_ne_null std _
  have hstart := (u.heap s).curSegStart_le_checkSlices true (cloudSlices std env u s) hends
  have hchecked := Segmenter.Short.checkSlices (u.heap s) true _ hends h.pre h.step hclear
  simp only [hcloud] at hstart hchecked
  exact h.withWindow hstart hchecked

theorem AllOrderly.checked {upload : Bool} (h : AllOrderly u)
    (hclear : (u.heap s).ClearOfEpoch (cloudSlices std env u s)) (hv : Checked std env u s upload v) :
    AllOrderly v := by
  cases hv with
  | moved a b upload hcloud => exact h.setSeg (cloudSlices_orderly (h s) hclear hcloud)
  | onCloudUnplanned a b hcloud =>
    exact h.setSeg_send 100 ((cloudSlices_orderly (h s) hclear hcloud).withState true)
  | onCloudPlanned a b hcloud => exact h.setSeg ((cloudSlices_orderly (h s) hclear hcloud).withState true)

theorem requestWindow_short (h : (u.heap s).Short) : (requestWindow u s).Short := by
  have hle : (u.heap s).clippedStop ≤ (u.heap s).curSegStop := by
    unfold Segmenter.clippedStop
    split
    · rename_i hc
      simp only [Bool.and_eq_true, decide_eq_true_eq] at hc
      exact hc.2.le
    · exact le_rfl
  simp only [Segmenter.Short, requestWindow, Segmenter.withWindow_curSegStart, Segmenter.withWindow_curSegStop,
    Segmenter.withWindow_step, Segmenter.withWindow_pre] at h ⊢
  linarith

theorem requestWindow_orderly (h : (u.heap s).Orderly) (hpast : (u.heap s).Spent) :
    (requestWindow u s).Orderly :=
  ⟨h.pre, h.step, h.first, fun hsettled => ⟨requestWindow_short (h.window hsettled).1, .inl hpast⟩⟩

theorem AllOrderly.stepped (h : AllOrderly u) (hcur : u.Current s) (hclip : clipAdvances env u s = true)
    (hv : Stepped env u s v) : AllOrderly v := by
  cases hv with
  | outsideUnplanned hclosed hpast =>
    exact h.setSeg_send 0 ((requestWindow_orderly (h s) ⟨hclosed, hpast⟩).withState true)
  | outsidePlanned hclosed hpast =>
    exact h.setSeg ((requestWindow_orderly (h s) ⟨hclosed, hpast⟩).withState _)
  | empty => exact h.setSeg ((h s).moveTo le_rfl)
  | exported hin =>
    have hnext := takenWindow_orderly (h s) hcur hin hclip
    have hset : AllOrderly (u.setSeg s (takenWindow env u s).countPlanned) :=
      h.setSeg ⟨hnext.pre, hnext.step, hnext.first, hnext.window⟩
    exact hset
  | finalUnplanned hin => exact h.setSeg_send 0 ((takenWindow_orderly (h s) hcur hin hclip).withState true)
  | skipped hin => exact h.setSeg (takenWindow_orderly (h s) hcur hin hclip)

theorem orderly_tick (std : StdSort) (env : TickEnv) :
    TickInvariant std env ((windowConditions std).window env) AllOrderly where
  list _ _ h _ := h
  adjust _ _ _ h _ _ hv := h.adjusted hv
  check _ _ _ _ h _ hok hv := h.checked (by simpa [windowConditions] using hok) hv
  step _ _ _ h hcur hok hv := h.stepped hcur (by simpa [windowConditions] using hok) hv

theorem orderly_step (std : StdSort) : StepInvariant std (windowConditions std) AllOrderly where
  service _ _ _ _ h := h
  enqueue _ _ _ h _ _ := h
  finalize u s stop h hok := by
    have hs := h s
    refine h.setSeg ⟨hs.pre, hs.step, hs.first, fun hsettled => ?_⟩
    have hsettled : (u.heap s).settled = false := hsettled
    refine ⟨(hs.window hsettled).1, ?_⟩
    simp only [windowConditions, hsettled, Bool.false_or, Bool.or_eq_true, Bool.and_eq_true,
      decide_eq_true_eq] at hok
    rcases hok with hordered | ⟨hclosed, hpast⟩
    · exact .inr hordered
    · exact .inl ⟨decide_eq_false hclosed, hpast⟩
  cancel u s h _ _ _ := by
    have hx := (h s).withState true
    exact h.setSeg_send 100 ⟨hx.pre, hx.step, hx.first, hx.window⟩
  canceledTicket _ _ h := h
  tick env := orderly_tick std env
  report u _ r ok h _ _ := by
    have hr := h r.segment
    have hv : AllOrderly (u.onFinished r.segment ok) := by
      rw [onFinished_eq]
      exact h.setSeg_send _ ⟨hr.pre, hr.step, hr.first, hr.window⟩
    exact hv

/-! ### Requests -/

/-- The call of `record_get_list` in `__segment_step`. -/
def segmentRequest (u : SegmentedUploader) (s : SegId) : Option Segmenter :=
  if (u.heap s).processed || (u.heap s).canceled then none
  else
    let x := requestWindow u s
    if !x.isOpen && x.curSegStart ≥ x.lastTime then none
    else if x.curSegStart = x.curSegStop then none
    else some x

/-- The call of `record_get_list` in a tick. -/
def tickRequest (std : StdSort) (env : TickEnv) (u : SegmentedUploader) : Option Segmenter :=
  let u := adjustLoop std (u.segmenters.length + 1) u
  if u.segmenters.isEmpty then none
  else
    match u.getCurrent std with
    | (none, _) => none
    | (some s, u) =>
      match u.checkClipSegment std env s with
      | (true, u) => u.segmentRequest s
      | (false, _) => none

/-- The other surroundings answer the request in the same way. -/
def SameAnswer (env env' : TickEnv) (x : Segmenter) : Prop :=
  env.recordGetList x.segProvider x.curSegStart x.curSegStop =
    env'.recordGetList x.segProvider x.curSegStart x.curSegStop

theorem segmentStep_congr {env' : TickEnv} (hnow : env'.now = env.now)
    (h : ∀ x ∈ u.segmentRequest s, SameAnswer env env' x) : u.segmentStep env' s = u.segmentStep env s := by
  unfold segmentStep
  split
  · rfl
  · rename_i hsettled
    simp only
    split
    · rfl
    · rename_i hin
      split
      · rfl
      · rename_i hfull
        have hrequest : u.segmentRequest s = some (requestWindow u s) := by
          unfold segmentRequest
          rw [if_neg hsettled]
          exact (if_neg hin).trans (if_neg hfull)
        have hx := h _ hrequest
        have hclip : exportClip env' (requestWindow u s) = exportClip env (requestWindow u s) := by
          rw [exportClip, exportClip, hx]
        simp only [requestWindow] at hclip
        simp only [hclip, hnow]

/-- A tick asks the provider for nothing but its request. -/
theorem tick_congr {env' : TickEnv} (hnow : env'.now = env.now)
    (hcloud : env'.storageObjects = env.storageObjects)
    (h : ∀ x ∈ tickRequest std env u, SameAnswer env env' x) : u.tick std env' = u.tick std env := by
  have hcheck : ∀ (v : SegmentedUploader) (s : SegId),
      v.checkClipSegment std env' s = v.checkClipSegment std env s := fun v s => by
    simp only [checkClipSegment, hcloud]
  simp only [SegmentedUploader.tick, tickRequest] at h ⊢
  generalize adjustLoop std (u.segmenters.length + 1) u = v at h ⊢
  split
  · rfl
  · rename_i hlist
    rw [if_neg hlist] at h
    rcases hget : v.getCurrent std with ⟨_ | s, w⟩
    · rfl
    · simp only [hget] at h
      have hprocess : w.processCurrent std env' s = w.processCurrent std env s := by
        unfold processCurrent
        rw [hcheck]
        rcases hpair : w.checkClipSegment std env s with ⟨_ | _, w'⟩
        · rfl
        · rw [hpair] at h
          exact segmentStep_congr hnow h
      simp only [hprocess]

/-- The request of a segmenter in order is well formed. -/
theorem segmentRequest_wellFormed (h : (u.heap s).Orderly) (hx : u.segmentRequest s = some x) :
    x.WellFormed := by
  unfold segmentRequest at hx
  split at hx
  · cases hx
  · rename_i hsettled
    simp only at hx
    split at hx
    · cases hx
    · rename_i hin
      split at hx
      · cases hx
      · rename_i hfull
        obtain rfl := Option.some.inj hx
        have hsettled : (u.heap s).settled = false := by simpa [Segmenter.settled] using hsettled
        have hin : (u.heap s).isOpen = false → (u.heap s).curSegStart < (u.heap s).lastTime := fun ho => by
          by_contra hn
          exact hin (by simpa [requestWindow, ho] using hn)
        exact ⟨lt_of_le_of_ne (le_clippedStop_of_orderly h hsettled hin) hfull,
          requestWindow_short (h.window hsettled).1, fun ho => ⟨h.first, (u.heap s).clippedStop_le_lastTime ho⟩⟩

/-- A tick that meets the conditions requests a well-formed window, if any. -/
theorem tickRequest_wellFormed (hs : u.Sound) (h : AllOrderly u)
    (hm : TickMeets std env ((windowConditions std).window env) u = true)
    (hx : tickRequest std env u = some x) : x.WellFormed := by
  obtain ⟨hadj, hrest⟩ := tickMeets_iff.mp hm
  obtain ⟨hsound, hv⟩ := (orderly_tick std env).adjustLoop _ hs h hadj
  have hrest := hrest _ rfl
  simp only [tickRequest] at hx
  generalize adjustLoop std (u.segmenters.length + 1) u = v at *
  split at hx
  · cases hx
  · have hw := (orderly_tick std env).getCurrent hsound hv
    have hcurrent := fun s (hc : (v.getCurrent std).1 = some s) => getCurrent_current hsound hc
    rcases hget : v.getCurrent std with ⟨_ | s, w⟩
    · simp [hget] at hx
    · simp only [hget] at hx hw hrest hcurrent
      obtain ⟨-, hcheck, -⟩ := hrest s rfl
      have hw' := (orderly_tick std env).check w s _ _ hw.2 (hcurrent s rfl) hcheck (checked std env w s)
      rcases hpair : w.checkClipSegment std env s with ⟨_ | _, w'⟩
      · simp [hpair] at hx
      · simp only [hpair] at hx hw'
        exact segmentRequest_wellFormed (hw' s) hx

end SegmentedUploader
end CloudAgent.Agent
