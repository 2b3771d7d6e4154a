import CloudAgent.Agent.Upload.Parts
import CloudAgent.Lib.Transition

/-! Runs of the uploader. A tick is cut into the places where it touches its current segmenter, and
one rule proves an invariant of every run from those places and from the other callbacks. -/
namespace CloudAgent.Agent.SegmentedUploader
open Utils Transition

variable {std : StdSort} {env : TickEnv} {u v : SegmentedUploader} {s : SegId}

/-! ### Ticks -/

/-- The places where a tick touches its current segmenter; `choose` is where the segmenter to be
checked is chosen anew, once the adjusting loop is over. -/
inductive Phase
  | adjust | choose | check | step
  deriving DecidableEq

/-- Every iteration of the adjusting loop that has a current segmenter satisfies `ok`. -/
def AdjustLoopMeets (std : StdSort) (ok : SegId → SegmentedUploader → Bool) :
    ℕ → SegmentedUploader → Bool
  | 0, _ => true
  | n + 1, u =>
    match u.getCurrent std with
    | (none, _) => true
    | (some s, v) =>
      ok s v && (!(v.adjustCurrent s).1 || AdjustLoopMeets std ok n (v.adjustCurrent s).2)

/-- Every place of the tick satisfies `ok` in the state that it finds. -/
def TickMeets (std : StdSort) (env : TickEnv) (ok : Phase → SegId → SegmentedUploader → Bool)
    (u : SegmentedUploader) : Bool :=
  AdjustLoopMeets std (ok .adjust) (u.segmenters.length + 1) u &&
    match (adjustLoop std (u.segmenters.length + 1) u).getCurrent std with
    | (none, _) => true
    | (some s, v) =>
      ok .choose s (adjustLoop std (u.segmenters.length + 1) u) && ok .check s v &&
        (!(v.checkClipSegment std env s).1 || ok .step s (v.checkClipSegment std env s).2)

theorem tickMeets_iff {ok : Phase → SegId → SegmentedUploader → Bool} :
    TickMeets std env ok u = true ↔
      AdjustLoopMeets std (ok .adjust) (u.segmenters.length + 1) u = true ∧
        ∀ v, adjustLoop std (u.segmenters.length + 1) u = v → ∀ s, (v.getCurrent std).1 = some s →
          ok .choose s v = true ∧ ok .check s (v.getCurrent std).2 = true ∧
            (((v.getCurrent std).2.checkClipSegment std env s).1 = true →
              ok .step s ((v.getCurrent std).2.checkClipSegment std env s).2 = true) := by
  simp only [TickMeets, Bool.and_eq_true]
  refine and_congr_right fun _ => ?_
  generalize adjustLoop std (u.segmenters.length + 1) u = v
  simp only [forall_eq']
  rcases v.getCurrent std with ⟨_ | s, w⟩
  · simp
  · cases h : (w.checkClipSegment std env s).1 <;> simp [h, and_assoc]

theorem adjustLoopMeets_true (n : ℕ) (u : SegmentedUploader) :
    AdjustLoopMeets std (fun _ _ => true) n u = true := by
  induction n generalizing u with
  | zero => rfl
  | succ n ih =>
    simp only [AdjustLoopMeets]
    split
    · rfl
    · simp [ih]

theorem tickMeets_true (u : SegmentedUploader) : TickMeets std env (fun _ _ _ => true) u = true :=
  tickMeets_iff.mpr ⟨adjustLoopMeets_true _ u, fun _ _ _ _ => ⟨rfl, rfl, fun _ => rfl⟩⟩

/-- What an invariant needs in order to survive a tick whose places satisfy `ok`. -/
structure TickInvariant (std : StdSort) (env : TickEnv)
    (ok : Phase → SegId → SegmentedUploader → Bool) (Inv : SegmentedUploader → Prop) : Prop where
  list : ∀ u l, Inv u → (∀ s ∈ l, s ∈ u.segmenters) → Inv { u with segmenters := l }
  adjust : ∀ u s v, Inv u → u.Current s → ok .adjust s u = true → Adjusted u s v → Inv v
  check : ∀ u s upload v, Inv u → u.Current s → ok .check s u = true →
    Checked std env u s upload v → Inv v
  step : ∀ u s v, Inv u → u.Current s → ok .step s u = true → Stepped env u s v → Inv v

theorem adjustLoop_succ_none (n : ℕ) (h : (u.getCurrent std).1 = none) :
    adjustLoop std (n + 1) u = (u.getCurrent std).2 := by
  simp only [adjustLoop, adjustSegmentersCurrentToFinished]
  generalize u.getCurrent std = c at h
  obtain ⟨_ | s, v⟩ := c
  · rfl
  · simp at h

theorem adjustLoop_succ_some (n : ℕ) (h : (u.getCurrent std).1 = some s) :
    adjustLoop std (n + 1) u =
      if ((u.getCurrent std).2.adjustCurrent s).1 then
        adjustLoop std n ((u.getCurrent std).2.adjustCurrent s).2
      else ((u.getCurrent std).2.adjustCurrent s).2 := by
  simp only [adjustLoop, adjustSegmentersCurrentToFinished]
  generalize u.getCurrent std = c at h
  obtain ⟨_ | q, v⟩ := c
  · simp at h
  · obtain rfl : q = s := by simpa using h
    simp only
    rcases hadj : v.adjustCurrent q with ⟨_ | _, w⟩ <;> rfl

theorem adjustLoopMeets_succ_some {ok : SegId → SegmentedUploader → Bool} (n : ℕ)
    (h : (u.getCurrent std).1 = some s) (hm : AdjustLoopMeets std ok (n + 1) u = true) :
    ok s (u.getCurrent std).2 = true ∧ (((u.getCurrent std).2.adjustCurrent s).1 = true →
      AdjustLoopMeets std ok n ((u.getCurrent std).2.adjustCurrent s).2 = true) := by
  simp only [AdjustLoopMeets] at hm
  generalize u.getCurrent std = c at h hm
  obtain ⟨_ | q, v⟩ := c
  · simp at h
  · obtain rfl : q = s := by simpa using h
    simp only [Bool.and_eq_true, Bool.or_eq_true, Bool.not_eq_true'] at hm
    refine ⟨hm.1, fun ha => ?_⟩
    rcases hm.2 with hf | hf
    · simp [ha] at hf
    · exact hf

namespace TickInvariant

variable {ok : Phase → SegId → SegmentedUploader → Bool} {Inv : SegmentedUploader → Prop}

theorem getCurrent (t : TickInvariant std env ok Inv) (hs : u.Sound) (h : Inv u) :
    (u.getCurrent std).2.Sound ∧ Inv (u.getCurrent std).2 := by
  obtain ⟨l, hv, hl, -⟩ := getCurrent_segmenters std u
  rw [hv]
  exact ⟨hs, t.list u l h hl⟩

theorem adjustLoop (t : TickInvariant std env ok Inv) (n : ℕ) (hs : u.Sound) (h : Inv u)
    (hm : AdjustLoopMeets std (ok .adjust) n u = true) :
    (adjustLoop std n u).Sound ∧ Inv (adjustLoop std n u) := by
  induction n generalizing u with
  | zero => exact ⟨hs, h⟩
  | succ n ih =>
    obtain ⟨hs', h'⟩ := t.getCurrent hs h
    cases hc : (u.getCurrent std).1 with
    | none =>
      rw [adjustLoop_succ_none n hc]
      exact ⟨hs', h'⟩
    | some s =>
      obtain ⟨hok, hrest⟩ := adjustLoopMeets_succ_some n hc hm
      have hadj := adjusted (u.getCurrent std).2 s
      have hv := t.adjust _ s _ h' (getCurrent_current hs hc) hok hadj
      rw [adjustLoop_succ_some n hc]
      split
      · rename_i ha
        exact ih (hs'.adjusted hadj) hv (hrest ha)
      · exact ⟨hs'.adjusted hadj, hv⟩

theorem processCurrent (t : TickInvariant std env ok Inv) (hs : u.Sound) (h : Inv u)
    (hc : u.Current s) (hcheck : ok .check s u = true)
    (hstep : (u.checkClipSegment std env s).1 = true →
      ok .step s (u.checkClipSegment std env s).2 = true) :
    (u.processCurrent std env s).Sound ∧ Inv (u.processCurrent std env s) := by
  have hchk := checked std env u s
  have hv := t.check u s _ _ h hc hcheck hchk
  have hsv := hs.checked hchk
  unfold SegmentedUploader.processCurrent
  split
  · rename_i v hu
    have h1 : (u.checkClipSegment std env s).1 = true := by rw [hu]
    have hcur := hc.upload h1
    have hstep := hstep h1
    rw [hu] at hv hsv hstep hcur
    exact ⟨hsv.stepped hcur (stepped env hcur), t.step v s _ hv hcur hstep (stepped env hcur)⟩
  · rename_i v hu
    rw [hu] at hv hsv
    exact ⟨hsv, hv⟩

/-- The tick rule. -/
theorem tick (t : TickInvariant std env ok Inv) (hs : u.Sound) (h : Inv u)
    (hm : TickMeets std env ok u = true) : (u.tick std env).1.Sound ∧ Inv (u.tick std env).1 := by
  obtain ⟨hadj, hrest⟩ := tickMeets_iff.mp hm
  have hv := t.adjustLoop _ hs h hadj
  simp only [SegmentedUploader.tick]
  generalize hloop : SegmentedUploader.adjustLoop std (u.segmenters.length + 1) u = v at hv
  have hrest := hrest v hloop
  have hw := t.getCurrent hv.1 hv.2
  split
  · exact hv
  · split
    · rename_i w hw'
      rw [hw'] at hw
      exact hw
    · rename_i s w hw'
      have hcur : (v.getCurrent std).2.Current s := getCurrent_current hv.1 (by rw [hw'])
      rw [hw'] at hw hcur
      obtain ⟨-, hcheck, hstep⟩ := hrest s (by rw [hw'])
      rw [hw'] at hcheck hstep
      exact t.processCurrent hw.1 hw.2 hcur hcheck hstep

end TickInvariant

/-! ### Whole steps -/

/-- What a claim asks of the surroundings: of the callbacks that run and of the windows of the
ticks, each in the state that it finds. A field that is left out asks for nothing. -/
structure Conditions where
  enqueue : SegmentedUploader → SegId → Bool := fun _ _ => true
  finalize : SegmentedUploader → SegId → Time → Bool := fun _ _ _ => true
  cancel : SegmentedUploader → String → Bool := fun _ _ => true
  report : SegmentedUploader → ℕ → Bool → Bool := fun _ _ _ => true
  window : TickEnv → Phase → SegId → SegmentedUploader → Bool := fun _ _ _ _ => true

namespace Conditions

/-- The conditions on a callback that runs now. -/
def admitsCb (c : Conditions) (std : StdSort) (env : TickEnv) (u : SegmentedUploader) :
    UploaderCb → Bool
  | .asyncLoop => TickMeets std env (c.window env) u
  | .segmenterEnqueue s => c.enqueue u s
  | .segmenterFinalize s stop => c.finalize u s stop
  | .segmenterCancelByTicket ticket => c.cancel u ticket

/-- The conditions on an action. -/
def Admits (c : Conditions) (std : StdSort) (u : SegmentedUploader) : Action → Prop
  | .fire t env => ∀ f ∈ u.http.sulCb t, c.admitsCb std env { u with http := f.2 } f.1
  | .reportFinished k ok => c.report u k ok
  | _ => True

instance (c : Conditions) (std : StdSort) (u : SegmentedUploader) (a : Action) :
    Decidable (c.Admits std u a) :=
  match a with
  | .fire t env =>
    inferInstanceAs (Decidable (∀ f ∈ u.http.sulCb t, c.admitsCb std env { u with http := f.2 } f.1))
  | .reportFinished k ok => inferInstanceAs (Decidable (c.report u k ok = true))
  | .scheduleUpload _ => isTrue trivial
  | .finalizeUpload _ _ => isTrue trivial
  | .cancelUpload _ => isTrue trivial

end Conditions

/-- What an invariant that does not look at the timers needs in order to survive every step. -/
structure StepInvariant (std : StdSort) (c : Conditions) (Inv : SegmentedUploader → Prop) : Prop where
  service : ∀ u http loop starts, Inv u →
    Inv { u with http := http, loop := loop, scheduledSyncStarts := starts }
  enqueue : ∀ u s l, Inv u → c.enqueue u s = true → (∀ j ∈ l, j = s ∨ j ∈ u.segmenters) →
    Inv { u with segmenters := l }
  finalize : ∀ u s stop, Inv u → c.finalize u s stop = true → Inv (u.segmenterFinalize s stop)
  cancel : ∀ u s, Inv u → (∃ w ticket, c.cancel w ticket = true) → (u.heap s).ticket ≠ "" →
    (u.heap s).canceled = false →
    Inv ((u.setSeg s (((u.heap s).withState true true).withReport true (u.heap s).ticket)
      ).sendTimelineSynchronizationStatus 100 s)
  canceledTicket : ∀ u ticket, Inv u →
    Inv { u with canceledTickets := u.canceledTickets ++ [ticket] }
  tick : ∀ env, TickInvariant std env (c.window env) Inv
  report : ∀ u k r ok, Inv u → u.planned[k]? = some r → c.report u k ok = true →
    Inv { u.onFinished r.segment ok with reported := k :: u.reported }

namespace StepInvariant

variable {c : Conditions} {Inv : SegmentedUploader → Prop}

theorem cancelSegmenter (t : StepInvariant std c Inv) (h : Inv u)
    (hok : ∃ w ticket, c.cancel w ticket = true) (hticket : (u.heap s).ticket ≠ "")
    (hc : (u.heap s).canceled = false) : Inv (u.cancelSegmenter s) := by
  unfold SegmentedUploader.cancelSegmenter
  simp only [setSeg_scheduledSyncStarts, setSeg_http]
  split
  · rename_i i _
    have hi := t.service u (u.http.cancelTimedCb i) u.loop
      (fun j => if j = s then none else u.scheduledSyncStarts j) h
    exact t.cancel _ s hi hok hticket hc
  · exact t.cancel u s h hok hticket hc

theorem cancelFrom (t : StepInvariant std c Inv) {ticket : String} (hticket : ticket ≠ "")
    (hok : ∃ w ticket, c.cancel w ticket = true) (l : List SegId) (h : Inv u) : Inv (cancelFrom ticket l u) := by
  induction l generalizing u with
  | nil => exact h
  | cons s l ih =>
    simp only [SegmentedUploader.cancelFrom, Bool.and_eq_true, decide_eq_true_eq, Bool.not_eq_true']
    apply ih
    split
    · rename_i hs
      exact t.cancelSegmenter h hok (hs.1 ▸ hticket) hs.2
    · exact h

theorem runCb (t : StepInvariant std c Inv) (cb : UploaderCb) (hs : u.Sound) (h : Inv u)
    (hok : c.admitsCb std env u cb = true) : Inv (u.runCb std env cb) := by
  cases cb with
  | asyncLoop =>
    have := (t.tick env).tick hs h hok
    exact t.service (u.tick std env).1 _ _ (u.tick std env).1.scheduledSyncStarts this.2
  | segmenterEnqueue s =>
    have := t.enqueue u s (std.sort u.segKey (u.segmenters ++ [s])) h hok (by simp [or_comm])
    exact t.service _ u.http u.loop _ this
  | segmenterFinalize s stop => exact t.finalize u s stop h hok
  | segmenterCancelByTicket ticket =>
    simp only [SegmentedUploader.runCb, segmenterCancelByTicket]
    split
    · exact h
    · rename_i hticket
      exact t.canceledTicket _ ticket (t.cancelFrom hticket ⟨u, ticket, hok⟩ _ h)

theorem step (t : StepInvariant std c Inv) (a : Action) (hs : u.Sound) (h : Inv u)
    (hok : c.Admits std u a) (hv : step std u a = some v) : Inv v := by
  cases a with
  | scheduleUpload s =>
    obtain rfl := Option.some.inj hv
    exact t.service u _ u.loop _ h
  | finalizeUpload s stop =>
    obtain rfl := Option.some.inj hv
    exact t.service u _ u.loop u.scheduledSyncStarts h
  | cancelUpload ticket =>
    obtain rfl := Option.some.inj hv
    exact t.service u _ u.loop u.scheduledSyncStarts h
  | fire i env =>
    obtain ⟨f, hf, rfl⟩ := Option.map_eq_some_iff.mp hv
    exact t.runCb f.1 hs (t.service u f.2 u.loop u.scheduledSyncStarts h) (hok f hf)
  | reportFinished k ok =>
    obtain ⟨r, hr, rfl⟩ := Option.map_eq_some_iff.mp hv
    exact t.report u k r ok h hr hok

end StepInvariant

theorem admits_default (u : SegmentedUploader) (a : Action) : ({} : Conditions).Admits std u a := by
  cases a with
  | fire t env =>
    rintro ⟨cb, http⟩ -
    cases cb with
    | asyncLoop => exact tickMeets_true _
    | segmenterEnqueue => rfl
    | segmenterFinalize => rfl
    | segmenterCancelByTicket => rfl
  | reportFinished => rfl
  | scheduleUpload => trivial
  | finalizeUpload => trivial
  | cancelUpload => trivial

theorem meets_default (u : SegmentedUploader) (as : List Action) :
    Meets (step std) (({} : Conditions).Admits std) u as := by
  induction as generalizing u with
  | nil => trivial
  | cons a as ih => exact ⟨admits_default u a, fun v _ => ih v⟩

/-- The assertion of `__dump_segmenters` is an invariant. -/
theorem sound_step (std : StdSort) : StepInvariant std {} Sound where
  service _ _ _ _ h := h
  enqueue _ _ _ h _ _ := h
  finalize _ s _ h _ := h.setSeg (h s)
  cancel _ _ h _ _ _ := h.setSeg_send 100 fun _ => rfl
  canceledTicket _ _ h := h
  tick _ :=
    { list := fun _ _ h _ => h
      adjust := fun _ _ _ h _ _ hv => h.adjusted hv
      check := fun _ _ _ _ h _ _ hv => h.checked hv
      step := fun _ _ _ h hcur _ hv => h.stepped hcur hv }
  report u _ r ok h _ _ := by
    rw [onFinished_eq]
    refine h.setSeg_send _ fun hf => ?_
    simp only [answerSeg, Segmenter.withState_finished, Bool.and_eq_true] at hf
    exact hf.1

theorem Sound.step {a : Action} (h : u.Sound) (hv : step std u a = some v) : v.Sound :=
  (sound_step std).step a h h (admits_default u a) hv

theorem sound_start (camId : ℤ) (created : SegId → NewSegmenter) : (start camId created).Sound := by
  intro s hf
  have hfresh := (created s).2
  simp only [Segmenter.fresh, Bool.and_eq_true, Bool.not_eq_true'] at hfresh
  have hs : (created s).1.finished = true := hf
  simp [hfresh.1.1.1.2] at hs

/-- The run rule. -/
theorem StepInvariant.run {c : Conditions} {Inv : SegmentedUploader → Prop}
    (t : StepInvariant std c Inv) {as : List Action} (hs : u.Sound) (h : Inv u)
    (hm : Meets (SegmentedUploader.step std) (c.Admits std) u as)
    (he : exec (SegmentedUploader.step std) u as = some v) : v.Sound ∧ Inv v :=
  Transition.invariant (P := fun u => u.Sound ∧ Inv u)
    (fun _ a _ hu hok hv => ⟨hu.1.step hv, t.step a hu.1 hu.2 hok hv⟩) ⟨hs, h⟩ hm he

/-! ### What only grows -/

/-- Nothing that was planned, sent or canceled is taken back. -/
structure Grows (u v : SegmentedUploader) : Prop where
  planned : u.planned <+: v.planned
  sent : u.sent <+: v.sent
  canceled : ∀ s, (u.heap s).canceled = true → (v.heap s).canceled = true

theorem Grows.refl (u : SegmentedUploader) : Grows u u :=
  ⟨List.prefix_rfl, List.prefix_rfl, fun _ => id⟩

theorem Grows.send (h : Grows u v) (progress : ℕ) (s : SegId) :
    Grows u (v.sendTimelineSynchronizationStatus progress s) := by
  refine ⟨by simpa using h.planned, h.sent.trans (sent_prefix_send v progress s), fun j hj => ?_⟩
  exact heap_send progress s j (fun _ _ _ hx hc _ => hc hx) (h.canceled j hj)

theorem Grows.setSeg {x : Segmenter} (h : Grows u v)
    (hx : (v.heap s).canceled = true → x.canceled = true) : Grows u (v.setSeg s x) := by
  refine ⟨h.planned, h.sent, fun j hj => ?_⟩
  simp only [setSeg_heap]
  split
  · rename_i hjs
    exact hx (hjs ▸ h.canceled j hj)
  · exact h.canceled j hj

theorem Grows.setSeg_send {x : Segmenter} (h : Grows u v) (progress : ℕ)
    (hx : (v.heap s).canceled = true → x.canceled = true) :
    Grows u ((v.setSeg s x).sendTimelineSynchronizationStatus progress s) :=
  (h.setSeg hx).send progress s

theorem grows_tick (std : StdSort) (env : TickEnv) (u : SegmentedUploader) :
    TickInvariant std env (({} : Conditions).window env) (Grows u) where
  list _ _ h _ := ⟨h.planned, h.sent, h.canceled⟩
  adjust w s v h _ _ hv := by
    cases hv with
    | same => exact h
    | moved => exact h.setSeg id
    | outside => exact h.setSeg_send 100 id
  check w s upload v h _ _ hv := by
    cases hv with
    | moved => exact h.setSeg id
    | onCloudUnplanned => exact h.setSeg_send 100 id
    | onCloudPlanned => exact h.setSeg id
  step w s v h _ _ hv := by
    cases hv with
    | outsideUnplanned => exact h.setSeg_send 0 id
    | outsidePlanned => exact h.setSeg id
    | empty => exact h.setSeg id
    | exported =>
      have hs : Grows u (w.setSeg s (takenWindow env w s).countPlanned) := h.setSeg id
      exact ⟨h.planned.trans (List.prefix_append _ _), h.sent, hs.canceled⟩
    | finalUnplanned => exact h.setSeg_send 0 id
    | skipped => exact h.setSeg id

theorem grows_step (std : StdSort) (u : SegmentedUploader) : StepInvariant std {} (Grows u) where
  service _ _ _ _ h := ⟨h.planned, h.sent, h.canceled⟩
  enqueue _ _ _ h _ _ := ⟨h.planned, h.sent, h.canceled⟩
  finalize _ _ _ h _ := h.setSeg id
  cancel w s h _ _ _ := h.setSeg_send 100 fun _ => rfl
  canceledTicket _ _ h := ⟨h.planned, h.sent, h.canceled⟩
  tick env := grows_tick std env u
  report w _ r ok h _ _ := by
    have hv : Grows u (w.onFinished r.segment ok) := by
      rw [onFinished_eq]
      exact h.setSeg_send _ id
    exact ⟨hv.planned, hv.sent, hv.canceled⟩

theorem step_grows {a : Action} (hs : u.Sound) (h : SegmentedUploader.step std u a = some v) :
    Grows u v :=
  (grows_step std u).step a hs (Grows.refl u) (admits_default u a) h

end CloudAgent.Agent.SegmentedUploader
