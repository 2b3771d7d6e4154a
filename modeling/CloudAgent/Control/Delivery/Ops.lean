import CloudAgent.Control.Delivery

/-! The operations on the event states: what each does to the states and to the record of segmenters and
deliveries. -/
namespace CloudAgent.Control
open Proto Net Utils

/-- A state without its times and its timer. -/
def EventState.core (st : EventState) : EventState :=
  { st with
    startTime := Time.null
    stopTime := Time.max
    postRecordTime := seconds 5
    stopPendingTimer := none }

namespace Delivery
variable {dev : Device} {d d' : Delivery} {now time : Time} {name k : String} {mode : StreamDeliveryMode}
  {event : EventObject} {pre post : Duration} {segProvider : Option String} {uploadToken : String}

/-! ### States -/

/-- The state under a name, if there is one. -/
def core (d : Delivery) (name : String) : Option EventState := (d.eventsStates.lookup name).map EventState.core

theorem state_of_lookup {st : EventState} (h : d.eventsStates.lookup name = some st) : d.state name = st := by
  simp [state, h]

theorem state_of_none (h : d.eventsStates.lookup name = none) : d.state name = { segmenter := d.nextSegmenter } := by
  simp [state, h]

theorem core_eq_none : d.core name = none ↔ name ∉ d.eventsStates := by
  rw [core, Option.map_eq_none_iff, AList.lookup_eq_none]

theorem core_of_mem (h : name ∈ d.eventsStates) : d.core name = some (d.state name).core := by
  obtain ⟨st, hst⟩ := Option.isSome_iff_exists.mp (AList.lookup_isSome.mpr h)
  rw [core, state_of_lookup hst, hst]
  rfl

theorem core_state {st : EventState} (h : d.core name = some st) : (d.state name).core = st := by
  obtain ⟨st', hst, rfl⟩ := Option.map_eq_some_iff.mp h
  rw [state_of_lookup hst]

theorem stateful_state {st : EventState} (h : d.core name = some st) : (d.state name).stateful = st.stateful := by
  rw [← core_state h]
  rfl

theorem mem_of_attached (h : (d.state name).attached = true) : name ∈ d.eventsStates := by
  by_contra hn
  rw [state_of_none (AList.lookup_eq_none.mpr hn)] at h
  exact Bool.false_ne_true h

theorem mem_of_streamCbs (h : (d.state name).streamCbs = true) : name ∈ d.eventsStates := by
  by_contra hn
  rw [state_of_none (AList.lookup_eq_none.mpr hn)] at h
  exact Bool.false_ne_true h

theorem mem_of_stateful (h : (d.state name).stateful = true) : name ∈ d.eventsStates := by
  by_contra hn
  rw [state_of_none (AList.lookup_eq_none.mpr hn)] at h
  exact Bool.false_ne_true h

@[simp] theorem state_setState (d : Delivery) (name : String) (st : EventState) :
    (d.setState name st).state name = st := by
  simp [state, setState]

theorem core_setState (d : Delivery) (name : String) (st : EventState) :
    (d.setState name st).core = Function.update d.core name (some st.core) := by
  funext k
  by_cases h : k = name
  · subst h
    simp [core, setState]
  · simp [core, setState, h, AList.lookup_insert_ne]

/-- A state that keeps its core is the same state for what follows. -/
theorem core_setState_same {st : EventState} (hmem : name ∈ d.eventsStates) (hst : st.core = (d.state name).core) :
    (d.setState name st).core = d.core := by
  rw [core_setState, hst, ← core_of_mem hmem, Function.update_eq_self]

theorem touch_of_mem (h : name ∈ d.eventsStates) : d.touch name = d := if_pos h

theorem mem_touch (d : Delivery) (name : String) : name ∈ (d.touch name).eventsStates := by
  unfold touch
  split_ifs with h
  · exact h
  · exact (AList.mem_insert _).mpr (.inl rfl)

/-- Touching a state does not show in it. -/
@[simp] theorem state_touch (d : Delivery) (name : String) : (d.touch name).state name = d.state name := by
  unfold touch
  split_ifs with h
  · rfl
  · rw [state_of_none (AList.lookup_eq_none.mpr h)]
    exact state_setState _ _ _

theorem core_touch (d : Delivery) (name : String) :
    (d.touch name).core = Function.update d.core name (some (d.state name).core) := by
  unfold touch
  split_ifs with h
  · rw [← core_of_mem h, Function.update_eq_self]
  · rw [state_of_none (AList.lookup_eq_none.mpr h)]
    exact core_setState _ _ _

/-! ### Deliveries -/

/-- A delivery that starts or stops is recorded, unless there is none. -/
def recorded (d : Delivery) (name : String) : List (String × Bool) :=
  if (d.state name).deliveryMode = .none then d.delivered else (name, (d.state name).attached) :: d.delivered

/-- The state uploads what it delivers. -/
def uploads (d : Delivery) (name : String) : Bool :=
  (d.state name).deliveryMode = .upload && (d.state name).attached

/-- The state should upload what it delivers, and has no uploader. -/
def crashes (d : Delivery) (name : String) : Bool :=
  (d.state name).deliveryMode = .upload && !(d.state name).attached

@[simp] theorem state_recordDelivery (d : Delivery) (name k : String) :
    (d.recordDelivery name).state k = d.state k := rfl

/-- All that starting a delivery does: an open segmenter is handed to the uploader. -/
theorem startDelivery_eq (d : Delivery) (name : String) : ∃ http,
    d.startDelivery name = { d with
      http
      delivered := d.recorded name
      scheduledOpen :=
        if d.uploads name && (d.segmenters (d.state name).segmenter).isOpen then
          (d.state name).segmenter :: d.scheduledOpen
        else d.scheduledOpen
      crashed := d.crashed || d.crashes name } := by
  unfold startDelivery recorded uploads crashes
  cases hmode : (d.state name).deliveryMode with
  | none => exact ⟨d.http, by simp⟩
  | upload =>
    refine ⟨d.http, ?_⟩
    dsimp only
    unfold startUploadDelivery
    rw [state_recordDelivery]
    cases hatt : (d.state name).attached
    · simp [recordDelivery, hatt]
    · cases hopen : (d.segmenters (d.state name).segmenter).isOpen <;> simp [recordDelivery, hatt, hopen]
  | stream =>
    unfold startStreamDelivery
    rw [state_recordDelivery]
    dsimp only
    by_cases hcbs : (d.state name).streamCbs = true
    · rw [if_pos hcbs]
      exact ⟨(d.http.scheduleTimedCb (.startStream (d.segmenters (d.state name).segmenter).segProvider) 0).2,
        by simp [recordDelivery]⟩
    · rw [if_neg hcbs]
      exact ⟨d.http, by simp [recordDelivery]⟩

/-- All that stopping a delivery does: its segmenter is finalized. -/
theorem stopDelivery_eq (d : Delivery) (now : Time) (name : String) : ∃ states http,
    d.stopDelivery now name = { d with
      eventsStates := states
      http
      crashed := d.crashed || d.crashes name
      delivered := d.recorded name
      finalized := if d.uploads name then (d.state name).segmenter :: d.finalized else d.finalized } ∧
    { d with eventsStates := states }.core = d.core := by
  unfold stopDelivery recorded uploads crashes
  cases hmode : (d.state name).deliveryMode with
  | none => exact ⟨d.eventsStates, d.http, by simp, rfl⟩
  | upload =>
    unfold stopUploadDelivery
    rw [state_recordDelivery]
    dsimp only
    by_cases hatt : (d.state name).attached = true
    · rw [if_pos hatt]
      have hsame : { d.state name with
          stopTime := if (d.state name).stopTime = Time.null then now else (d.state name).stopTime }.core =
            (d.state name).core := rfl
      exact ⟨_, d.http, by simp [recordDelivery, setState, hatt],
        core_setState_same (mem_of_attached hatt) hsame⟩
    · rw [if_neg hatt]
      exact ⟨d.eventsStates, d.http, by simp [recordDelivery, hatt], rfl⟩
  | stream =>
    unfold stopStreamDelivery
    rw [state_recordDelivery]
    simp only [reduceCtorEq, decide_false, Bool.false_and, Bool.false_eq_true, if_false]
    split_ifs with hcbs
    · have hsame : { d.state name with stopPendingTimer := some d.http.nextId }.core = (d.state name).core := rfl
      exact ⟨_, (d.http.scheduleTimedCb (.stopStream name) (d.state name).postRecordTime.toTimeout).2,
        by simp [recordDelivery, setState, LwsCommon.scheduleTimedCb],
        core_setState_same (mem_of_streamCbs (Bool.and_elim_left hcbs)) hsame⟩
    · exact ⟨d.eventsStates, d.http, by simp [recordDelivery], rfl⟩

theorem core_stopDelivery (d : Delivery) (now : Time) (name : String) : (d.stopDelivery now name).core = d.core := by
  obtain ⟨states, http, h, hcore⟩ := d.stopDelivery_eq now name
  rw [h]
  exact hcore

/-! ### Touching -/

@[simp] theorem scheduledOpen_touch (d : Delivery) (name : String) :
    (d.touch name).scheduledOpen = d.scheduledOpen := by
  unfold touch
  split_ifs <;> rfl

@[simp] theorem finalized_touch (d : Delivery) (name : String) : (d.touch name).finalized = d.finalized := by
  unfold touch
  split_ifs <;> rfl

@[simp] theorem delivered_touch (d : Delivery) (name : String) : (d.touch name).delivered = d.delivered := by
  unfold touch
  split_ifs <;> rfl

@[simp] theorem initialized_touch (d : Delivery) (name : String) : (d.touch name).initialized = d.initialized := by
  unfold touch
  split_ifs <;> rfl

@[simp] theorem crashed_touch (d : Delivery) (name : String) : (d.touch name).crashed = d.crashed := by
  unfold touch
  split_ifs <;> rfl

@[simp] theorem state_setSegmenter (d : Delivery) (id : ℕ) (s : Agent.Segmenter) (name : String) :
    (d.setSegmenter id s).state name = d.state name := rfl

theorem nextSegmenter_le_touch (d : Delivery) (name : String) : d.nextSegmenter ≤ (d.touch name).nextSegmenter := by
  unfold touch
  split_ifs
  · exact le_rfl
  · exact Nat.le_succ _

/-! ### Starting -/

/-- A new segmenter is open where its event has no end: a stateful event, or one without any time. -/
theorem isOpen_eventStateStart (stateful : Bool) (time timeEnd : Time) (pre post step delay : Duration)
    (segProvider uploadToken : String) (now : Time) :
    (Agent.Segmenter.eventStateStart stateful time timeEnd pre post step delay segProvider uploadToken now).isOpen =
      (stateful || (timeEnd = Time.null && time = Time.null)) := by
  cases stateful
  · by_cases h : timeEnd = Time.null <;> simp [Agent.Segmenter.eventStateStart, Agent.Segmenter.isOpen, h]
  · simp [Agent.Segmenter.eventStateStart, Agent.Segmenter.isOpen]

/-- The state that a start leaves behind. -/
def startedCore (d : Delivery) (name : String) (mode : StreamDeliveryMode) : EventState :=
  { (d.state name).core with
    active := (d.state name).stateful || (d.state name).active
    deliveryMode := mode
    segmenter := (d.touch name).nextSegmenter }

/-- The start of an event opens a segmenter and hands it to the uploader. -/
def opens (d : Delivery) (name : String) (mode : StreamDeliveryMode) (event : EventObject) : Bool :=
  mode = .upload && (d.state name).attached &&
    ((d.state name).stateful || (event.timeEnd = Time.null && event.time = Time.null))

/-- All that `event_state::start` does. -/
theorem start_eq (dev : Device) (now : Time) (name : String) (mode : StreamDeliveryMode) (event : EventObject)
    (pre post : Duration) (segProvider : Option String) (uploadToken : String) (d : Delivery) :
    ∃ states segmenters http,
      d.start dev now name mode event pre post segProvider uploadToken =
        { eventsStates := states
          segmenters
          nextSegmenter := (d.touch name).nextSegmenter + 1
          http
          initialized := d.initialized
          scheduledOpen :=
            if d.opens name mode event then (d.touch name).nextSegmenter :: d.scheduledOpen else d.scheduledOpen
          finalized := d.finalized
          delivered := if mode = .none then d.delivered else (name, (d.state name).attached) :: d.delivered
          crashed := d.crashed || (mode = .upload && !(d.state name).attached) } ∧
      { d with eventsStates := states }.core = Function.update d.core name (some (d.startedCore name mode)) := by
  have hopen := isOpen_eventStateStart (d.state name).stateful event.time event.timeEnd pre post
    dev.recordByEventUploadStep dev.delayBetweenEventAndRecordsUploadStart (segProvider.getD "") uploadToken now
  unfold start opens
  simp only [state_touch]
  generalize Agent.Segmenter.eventStateStart _ _ _ _ _ _ _ _ _ _ = s at hopen ⊢
  generalize hst : ({ d.state name with
    active := (d.state name).stateful || (d.state name).active
    startTime := event.time
    stopTime := s.endTime
    deliveryMode := mode
    postRecordTime := post
    segmenter := (d.touch name).nextSegmenter } : EventState) = st
  have hmode : st.deliveryMode = mode := by rw [← hst]
  have hatt : st.attached = (d.state name).attached := by rw [← hst]
  have hid : st.segmenter = (d.touch name).nextSegmenter := by rw [← hst]
  have hcore : st.core = d.startedCore name mode := by rw [← hst]; rfl
  obtain ⟨http, h⟩ := (((d.touch name).addSegmenter s).setState name st).startDelivery_eq name
  refine ⟨(((d.touch name).addSegmenter s).setState name st).eventsStates,
    (((d.touch name).addSegmenter s).setState name st).segmenters, http, h.trans ?_, ?_⟩
  · simp only [recorded, uploads, crashes, state_setState, hmode, hatt, hid, ← hopen]
    simp [setState, addSegmenter]
  · change (((d.touch name).addSegmenter s).setState name st).core = _
    rw [core_setState, hcore]
    change Function.update (d.touch name).core _ _ = _
    rw [core_touch, Function.update_idem]

/-- An upload that does not crash has an uploader. -/
theorem attached_of_start
    (h : (d.start dev now name .upload event pre post segProvider uploadToken).crashed = false) :
    (d.state name).attached = true := by
  obtain ⟨states, segmenters, http, heq, -⟩ := start_eq dev now name .upload event pre post segProvider uploadToken d
  rw [heq] at h
  simpa using (Bool.or_eq_false_iff.mp h).2

/-! ### Stopping -/

/-- The state that a stop leaves behind. -/
def stoppedCore (d : Delivery) (name : String) : EventState :=
  { (d.state name).core with active := !(d.state name).stateful && (d.state name).active }

/-- Ending an open segmenter changes the segmenters only. -/
theorem exists_end_segmenter (d : Delivery) (id : ℕ) (time : Time) : ∃ segmenters,
    (if (d.segmenters id).isOpen then d.setSegmenter id { d.segmenters id with endTime := time } else d) =
      { d with segmenters } := by
  split_ifs
  · exact ⟨_, rfl⟩
  · exact ⟨_, rfl⟩

/-- Whatever the state and its segmenter become first, the delivery that a stop ends is the one that was there. -/
theorem stop_eq_stopDelivery (now : Time) (name : String) (time : Time) (d : Delivery) : ∃ D : Delivery,
    d.stop now name time = D.stopDelivery now name ∧
      (∃ states segmenters, D = { d.touch name with eventsStates := states, segmenters }) ∧
      D.core = Function.update d.core name (some (d.stoppedCore name)) ∧
      (D.state name).deliveryMode = (d.state name).deliveryMode ∧ (D.state name).attached = (d.state name).attached ∧
      (D.state name).segmenter = (d.state name).segmenter := by
  unfold stop
  simp only [state_touch]
  by_cases hs : (d.state name).stateful = true
  · have hcore : ((d.touch name).setState name { d.state name with stopTime := time, active := false }).core =
        Function.update d.core name (some (d.stoppedCore name)) := by
      rw [core_setState, core_touch, Function.update_idem]
      simp [stoppedCore, hs, EventState.core]
    rw [if_pos hs]
    obtain ⟨segmenters, h⟩ := exists_end_segmenter
      ((d.touch name).setState name { d.state name with stopTime := time, active := false })
      (d.state name).segmenter time
    rw [h]
    refine ⟨_, rfl, ⟨_, _, rfl⟩, hcore, ?_, ?_, ?_⟩
    all_goals simp [state, setState]
  · have hcore : (d.touch name).core = Function.update d.core name (some (d.stoppedCore name)) := by
      rw [core_touch]
      simp [stoppedCore, hs, EventState.core]
    rw [if_neg hs]
    obtain ⟨segmenters, h⟩ := exists_end_segmenter (d.touch name) (d.state name).segmenter time
    rw [h]
    have hstate : { d.touch name with segmenters }.state name = d.state name := state_touch d name
    refine ⟨_, rfl, ⟨_, _, rfl⟩, hcore, ?_, ?_, ?_⟩
    all_goals rw [hstate]

/-- All that `event_state::stop` does. -/
theorem stop_eq (now : Time) (name : String) (time : Time) (d : Delivery) : ∃ states segmenters http,
    d.stop now name time =
        { eventsStates := states
          segmenters
          nextSegmenter := (d.touch name).nextSegmenter
          http
          initialized := d.initialized
          scheduledOpen := d.scheduledOpen
          finalized := if d.uploads name then (d.state name).segmenter :: d.finalized else d.finalized
          delivered := d.recorded name
          crashed := d.crashed || d.crashes name } ∧
      { d with eventsStates := states }.core = Function.update d.core name (some (d.stoppedCore name)) := by
  obtain ⟨D, hstop, hrest, hcore, hmode, hatt, hid⟩ := stop_eq_stopDelivery now name time d
  obtain ⟨states, http, h, hsame⟩ := D.stopDelivery_eq now name
  obtain ⟨hnext, hinit, hopen, hfin, hdel, hcrash⟩ : D.nextSegmenter = (d.touch name).nextSegmenter ∧
      D.initialized = d.initialized ∧ D.scheduledOpen = d.scheduledOpen ∧ D.finalized = d.finalized ∧
      D.delivered = d.delivered ∧ D.crashed = d.crashed := by
    obtain ⟨_, _, rfl⟩ := hrest
    simp
  have hrecorded : D.recorded name = d.recorded name := by
    unfold recorded
    rw [hmode, hatt, hdel]
  have huploads : D.uploads name = d.uploads name := by
    unfold uploads
    rw [hmode, hatt]
  have hcrashes : D.crashes name = d.crashes name := by
    unfold crashes
    rw [hmode, hatt]
  refine ⟨states, D.segmenters, http, hstop.trans (h.trans ?_), hsame.trans hcore⟩
  rw [hrecorded, huploads, hcrashes, hid, hnext, hinit, hopen, hfin, hcrash]

/-! ### Switching the mode of a delivery -/

/-- A delivery that has stopped starts in the new mode, with another window and without its timer. -/
theorem updateDeliveryMode_eq_startDelivery (now : Time) (segProvider : Option String)
    (hmode : mode ≠ (d.state name).deliveryMode) : ∃ segmenters http,
    d.updateDeliveryMode now name mode segProvider =
      { (d.stopDelivery now name).setState name
          { (d.stopDelivery now name).state name with deliveryMode := mode, stopPendingTimer := none } with
        segmenters, http }.startDelivery name := by
  unfold updateDeliveryMode
  rw [if_neg hmode]
  exact ⟨_, _, rfl⟩

/-- All that `event_state::update_delivery_mode` does to an event that is there, where the mode is new. -/
theorem updateDeliveryMode_eq (now : Time) (segProvider : Option String) (hmem : name ∈ d.eventsStates)
    (hmode : mode ≠ (d.state name).deliveryMode) : ∃ states segmenters http isOpen,
    d.updateDeliveryMode now name mode segProvider =
        { d with
          eventsStates := states
          segmenters
          http
          scheduledOpen :=
            if mode = .upload && (d.state name).attached && isOpen then (d.state name).segmenter :: d.scheduledOpen
            else d.scheduledOpen
          finalized := if d.uploads name then (d.state name).segmenter :: d.finalized else d.finalized
          delivered :=
            if mode = .none then d.recorded name else (name, (d.state name).attached) :: d.recorded name
          crashed := d.crashed || d.crashes name || (mode = .upload && !(d.state name).attached) } ∧
      { d with eventsStates := states }.core =
        Function.update d.core name (some { (d.state name).core with deliveryMode := mode }) := by
  obtain ⟨segmenters, http, hupdate⟩ := updateDeliveryMode_eq_startDelivery (d := d) now segProvider hmode
  obtain ⟨states, http', hstop, -⟩ := d.stopDelivery_eq now name
  have hcore := d.core_stopDelivery now name
  have hst : ((d.stopDelivery now name).state name).core = (d.state name).core :=
    core_state (by rw [hcore, core_of_mem hmem])
  generalize d.stopDelivery now name = D at hupdate hstop hcore hst
  have hatt : (D.state name).attached = (d.state name).attached := by
    change (D.state name).core.attached = (d.state name).core.attached
    rw [hst]
  have hid : (D.state name).segmenter = (d.state name).segmenter := by
    change (D.state name).core.segmenter = (d.state name).core.segmenter
    rw [hst]
  have hnew : ({ D.state name with deliveryMode := mode, stopPendingTimer := none } : EventState).core =
      { (d.state name).core with deliveryMode := mode } := by
    rw [← hst]
    rfl
  generalize hD' : { D.setState name { D.state name with deliveryMode := mode, stopPendingTimer := none } with
    segmenters, http } = D' at hupdate
  have hst' : D'.state name = { D.state name with deliveryMode := mode, stopPendingTimer := none } := by
    rw [← hD']
    exact state_setState _ _ _
  have hcore' : D'.core = Function.update d.core name (some { (d.state name).core with deliveryMode := mode }) := by
    rw [← hD']
    change (D.setState name { D.state name with deliveryMode := mode, stopPendingTimer := none }).core = _
    rw [core_setState, hcore, hnew]
  obtain ⟨http'', h⟩ := D'.startDelivery_eq name
  obtain ⟨hnext, hinit, hopen, hfin, hdel, hcrash⟩ : D'.nextSegmenter = d.nextSegmenter ∧
      D'.initialized = d.initialized ∧ D'.scheduledOpen = d.scheduledOpen ∧
      D'.finalized = (if d.uploads name then (d.state name).segmenter :: d.finalized else d.finalized) ∧
      D'.delivered = d.recorded name ∧ D'.crashed = (d.crashed || d.crashes name) := by
    rw [← hD', hstop]
    exact ⟨rfl, rfl, rfl, rfl, rfl, rfl⟩
  have hrecorded : D'.recorded name =
      if mode = .none then d.recorded name else (name, (d.state name).attached) :: d.recorded name := by
    unfold recorded
    rw [hst', hdel, hatt]
    rfl
  have huploads : D'.uploads name = (mode = .upload && (d.state name).attached) := by
    unfold uploads
    rw [hst', hatt]
  have hcrashes : D'.crashes name = (mode = .upload && !(d.state name).attached) := by
    unfold crashes
    rw [hst', hatt]
  refine ⟨D'.eventsStates, D'.segmenters, http'', (D'.segmenters (D'.state name).segmenter).isOpen,
    hupdate.trans (h.trans ?_), hcore'⟩
  rw [hrecorded, huploads, hcrashes, hnext, hinit, hopen, hfin, hcrash, hst', hid]

/-! ### Building the states -/

theorem core_addState (d : Delivery) (name : String) (st : EventState) :
    (d.addState name st).core = Function.update d.core name (some { st.core with segmenter := d.nextSegmenter }) :=
  core_setState _ _ _

/-- States are added one after the other: the last one of a name stays. -/
theorem core_addStates (states : List (String × EventState)) (d : Delivery) (name : String) :
    (∀ p ∈ states, p.1 ≠ name) ∧ (states.foldl (fun d p => d.addState p.1 p.2) d).core name = d.core name ∨
      ∃ p ∈ states, p.1 = name ∧ ∃ n,
        (states.foldl (fun d p => d.addState p.1 p.2) d).core name = some { p.2.core with segmenter := n } := by
  induction states generalizing d with
  | nil => exact .inl ⟨by simp, rfl⟩
  | cons p states ih =>
    obtain ⟨hne, h⟩ | ⟨q, hq, hname, n, h⟩ := ih (d.addState p.1 p.2)
    · rw [core_addState] at h
      by_cases hp : p.1 = name
      · refine .inr ⟨p, List.mem_cons_self, hp, d.nextSegmenter, h.trans ?_⟩
        rw [← hp, Function.update_self]
      · refine .inl ⟨List.forall_mem_cons.mpr ⟨hp, hne⟩, h.trans ?_⟩
        rw [Function.update_of_ne (Ne.symm hp)]
    · exact .inr ⟨q, List.mem_cons_of_mem p hq, hname, n, h⟩

/-- Adding states changes neither deliveries nor what the uploader was told. -/
theorem addStates_eq (states : List (String × EventState)) (d : Delivery) : ∃ eventsStates segmenters nextSegmenter,
    states.foldl (fun d p => d.addState p.1 p.2) d = { d with eventsStates, segmenters, nextSegmenter } := by
  induction states generalizing d with
  | nil => exact ⟨_, _, _, rfl⟩
  | cons p states ih =>
    obtain ⟨eventsStates, segmenters, nextSegmenter, h⟩ := ih (d.addState p.1 p.2)
    exact ⟨eventsStates, segmenters, nextSegmenter, h⟩

/-! ### The other states -/

theorem core_touch_of_ne (d : Delivery) (hk : k ≠ name) : (d.touch name).core k = d.core k := by
  rw [core_touch, Function.update_of_ne hk]

theorem core_start_of_ne (dev : Device) (now : Time) (mode : StreamDeliveryMode) (event : EventObject)
    (pre post : Duration) (segProvider : Option String) (uploadToken : String) (d : Delivery) (hk : k ≠ name) :
    (d.start dev now name mode event pre post segProvider uploadToken).core k = d.core k := by
  obtain ⟨states, segmenters, http, h, hcore⟩ := start_eq dev now name mode event pre post segProvider uploadToken d
  rw [h]
  exact (congrFun hcore k).trans (Function.update_of_ne hk _ _)

theorem core_stop_of_ne (now time : Time) (d : Delivery) (hk : k ≠ name) :
    (d.stop now name time).core k = d.core k := by
  obtain ⟨states, segmenters, http, h, hcore⟩ := stop_eq now name time d
  rw [h]
  exact (congrFun hcore k).trans (Function.update_of_ne hk _ _)

/-- An event with video is going on, read off its state. -/
theorem isOngoing_eq (d : Delivery) (name : String) :
    d.isOngoing name = (d.core name).any fun st => st.stateful && st.active && st.needClip := by
  unfold isOngoing
  by_cases hname : name ∈ d.eventsStates
  · rw [core_of_mem hname]
    rfl
  · rw [core_eq_none.mpr hname, state_of_none (AList.lookup_eq_none.mpr hname)]
    rfl

/-- Switching the delivery of an event that is there does not end any event. -/
theorem isOngoing_updateDeliveryMode (now : Time) (segProvider : Option String) (hmem : name ∈ d.eventsStates)
    (k : String) :
    (d.updateDeliveryMode now name mode segProvider).isOngoing k = d.isOngoing k := by
  by_cases hmode : mode = (d.state name).deliveryMode
  · rw [updateDeliveryMode, if_pos hmode]
  · obtain ⟨states, segmenters, http, isOpen, h, hcore⟩ := updateDeliveryMode_eq now segProvider hmem hmode
    rw [h, isOngoing_eq, isOngoing_eq]
    refine (congrArg _ (congrFun hcore k)).trans ?_
    by_cases hk : k = name
    · subst hk
      rw [Function.update_self, core_of_mem hmem]
      rfl
    · rw [Function.update_of_ne hk]

theorem mem_of_isOngoing (h : d.isOngoing name = true) : name ∈ d.eventsStates := by
  simp only [isOngoing, Bool.and_eq_true] at h
  exact mem_of_stateful h.1.1

theorem isOngoing_switchAll (now : Time) (mode : StreamDeliveryMode) (segProvider : Option String) (d : Delivery)
    (k : String) :
    (d.switchAll now mode segProvider).isOngoing k = d.isOngoing k := by
  unfold switchAll
  generalize d.eventsStates.order = l
  induction l generalizing d with
  | nil => rfl
  | cons name l ih =>
    rw [List.foldl_cons, ih]
    split_ifs with h
    · exact isOngoing_updateDeliveryMode now segProvider (mem_of_isOngoing h) k
    · rfl

theorem isOngoing_runHttpCb (http : LwsCommon HttpCb) (cb : HttpCb) (d : Delivery) (k : String) :
    ({ d with http }.runHttpCb cb).2.isOngoing k = d.isOngoing k := by
  cases cb with
  | startStream streamId => rfl
  | stopStream name =>
    by_cases hk : k = name
    · subst hk
      simp [runHttpCb, isOngoing]
      rfl
    · rw [isOngoing_eq, isOngoing_eq]
      exact congrArg _ ((congrFun (core_setState _ _ _) k).trans (Function.update_of_ne hk _ _))

end Delivery
end CloudAgent.Control
