import CloudAgent.Control.Delivery.Ops
import CloudAgent.Lib.Transition

/-! Everything that happens to the event states as a sequence of operations, and what holds of the states
whatever the sequence is. -/
namespace CloudAgent.Control
open Proto Net Utils Transition

namespace EventState

/-- What holds of every state: only a state that was built for an event of the device can be stateful,
and only a stateful one becomes active. The state of a storage-direct recording is stateful. -/
structure Sound (name : String) (st : EventState) : Prop where
  stateful_of_active : st.active = true → st.stateful = true
  attached_of_stateful : st.stateful = true → st.attached = true
  direct : name = "direct-upload-recording" → st.attached = true → st.stateful = true ∧ st.needClip = true

/-- A state of the same event. -/
structure SameEvent (st st' : EventState) : Prop where
  stateful : st'.stateful = st.stateful
  needClip : st'.needClip = st.needClip
  attached : st'.attached = st.attached

theorem Sound.sameEvent {name : String} {st st' : EventState} (h : st.Sound name) (hsame : st.SameEvent st')
    (hactive : st'.active = true → st.stateful = true) : st'.Sound name where
  stateful_of_active ha := hsame.stateful.trans (hactive ha)
  attached_of_stateful hs := hsame.attached.trans (h.attached_of_stateful (hsame.stateful.symm.trans hs))
  direct hname ha := by
    rw [hsame.stateful, hsame.needClip]
    exact h.direct hname (hsame.attached.symm.trans ha)

end EventState

namespace Delivery

/-- What happens to the event states. -/
inductive Op
  | touch (name : String)
  | start (dev : Device) (now : Time) (name : String) (mode : StreamDeliveryMode) (event : EventObject)
    (pre post : Duration) (segProvider : Option String) (uploadToken : String)
  | stop (now : Time) (name : String) (time : Time)
  | updateDeliveryMode (now : Time) (name : String) (mode : StreamDeliveryMode) (segProvider : Option String)
  | initEventsStates (events : List EventConfig)
  | fireHttpTimer (http : LwsCommon HttpCb) (cb : HttpCb)

/-- One operation. Only a stateful event is stopped or switched, and it is active unless the delivery
is switched off. -/
def Op.step (d : Delivery) : Op → Option Delivery
  | .touch name => some (d.touch name)
  | .start dev now name mode event pre post segProvider uploadToken =>
    some (d.start dev now name mode event pre post segProvider uploadToken)
  | .stop now name time => if (d.state name).stateful then some (d.stop now name time) else none
  | .updateDeliveryMode now name mode segProvider =>
    if (d.state name).stateful && ((d.state name).active || mode = .none) then
      some (d.updateDeliveryMode now name mode segProvider)
    else none
  | .initEventsStates events => some (d.initEventsStates events)
  | .fireHttpTimer http cb => some ({ d with http }.runHttpCb cb).2

/-- A state was built for this event. -/
def Initialized (d : Delivery) (name : String) : Prop :=
  ∃ names ∈ d.initialized, name ∈ names ++ (internalStates 0).map Prod.fst

/-- The states are sound, and the attached ones are those that were built. -/
structure Sound (d : Delivery) : Prop where
  states : ∀ name, (d.state name).Sound name
  attached_iff : ∀ name, (d.state name).attached = true ↔ d.Initialized name

variable {d d' : Delivery} {op : Op}

/-- A property of the state under every name that a default state has. -/
theorem forall_state {Q : String → EventState → Prop} (hcore : ∀ k st, Q k st.core ↔ Q k st)
    (hnew : ∀ k n, Q k { segmenter := n }) : (∀ k, Q k (d.state k)) ↔ ∀ k, ∀ st ∈ d.core k, Q k st := by
  refine forall_congr' fun k => ?_
  by_cases hk : k ∈ d.eventsStates
  · rw [core_of_mem hk]
    simp [hcore]
  · rw [core_eq_none.mpr hk, state_of_none (AList.lookup_eq_none.mpr hk)]
    simp [hnew]

/-- All that an operation can do to the states: it touches one of them, or it builds the states of the
device where there was none. -/
theorem Op.step_cases (h : op.step d = some d') : (∃ name st,
      d'.initialized = d.initialized ∧ d'.core = Function.update d.core name (some st) ∧
      (d.state name).SameEvent st ∧ (st.active = true → (d.state name).active = true ∨ st.stateful = true)) ∨
    (d'.initialized = d.initialized ∧ d'.core = d.core) ∨
    (d.eventsStates.keys = [] ∧ ∃ events, d' = d.initEventsStates events) := by
  cases op with
  | touch name =>
    obtain rfl := Option.some.inj h
    exact .inl ⟨name, _, initialized_touch d name, core_touch d name, ⟨rfl, rfl, rfl⟩, .inl⟩
  | start dev now name mode event pre post segProvider uploadToken =>
    obtain rfl := Option.some.inj h
    obtain ⟨states, segmenters, http, h, hcore⟩ := start_eq dev now name mode event pre post segProvider uploadToken d
    rw [h]
    refine .inl ⟨name, _, rfl, hcore, ⟨rfl, rfl, rfl⟩, fun ha => ?_⟩
    simpa [startedCore, EventState.core, or_comm] using ha
  | stop now name time =>
    simp only [step, Option.ite_none_right_eq_some, Option.some.injEq] at h
    obtain ⟨hstateful, rfl⟩ := h
    obtain ⟨states, segmenters, http, h, hcore⟩ := stop_eq now name time d
    rw [h]
    exact .inl ⟨name, _, rfl, hcore, ⟨rfl, rfl, rfl⟩, fun _ => .inr hstateful⟩
  | updateDeliveryMode now name mode segProvider =>
    simp only [step, Option.ite_none_right_eq_some, Option.some.injEq, Bool.and_eq_true] at h
    obtain ⟨⟨hstateful, -⟩, rfl⟩ := h
    by_cases hmode : mode = (d.state name).deliveryMode
    · rw [Delivery.updateDeliveryMode, if_pos hmode]
      exact .inr (.inl ⟨rfl, rfl⟩)
    · obtain ⟨states, segmenters, http, isOpen, h, hcore⟩ :=
        updateDeliveryMode_eq now segProvider (mem_of_stateful hstateful) hmode
      rw [h]
      exact .inl ⟨name, _, rfl, hcore, ⟨rfl, rfl, rfl⟩, .inl⟩
  | initEventsStates events =>
    obtain rfl := Option.some.inj h
    by_cases hkeys : d.eventsStates.keys = []
    · exact .inr (.inr ⟨hkeys, events, rfl⟩)
    · rw [Delivery.initEventsStates, if_neg hkeys]
      exact .inr (.inl ⟨rfl, rfl⟩)
  | fireHttpTimer http cb =>
    obtain rfl := Option.some.inj h
    cases cb with
    | startStream streamId => exact .inr (.inl ⟨rfl, rfl⟩)
    | stopStream name => exact .inl ⟨name, _, rfl, core_setState _ _ _, ⟨rfl, rfl, rfl⟩, .inl⟩

theorem attached_state (d : Delivery) (name : String) :
    (d.state name).attached = (d.core name).any EventState.attached := by
  by_cases hname : name ∈ d.eventsStates
  · rw [core_of_mem hname]
    rfl
  · rw [core_eq_none.mpr hname, state_of_none (AList.lookup_eq_none.mpr hname)]
    rfl

/-- Soundness, read off the states that there are. -/
theorem sound_iff : d.Sound ↔ (∀ name, ∀ st ∈ d.core name, st.Sound name) ∧
    ∀ name, (d.core name).any EventState.attached = true ↔ d.Initialized name := by
  have hstates : (∀ name, (d.state name).Sound name) ↔ ∀ name, ∀ st ∈ d.core name, st.Sound name :=
    forall_state (fun _ _ => ⟨fun h => ⟨h.1, h.2, h.3⟩, fun h => ⟨h.1, h.2, h.3⟩⟩)
      fun _ _ => ⟨nofun, nofun, fun _ => nofun⟩
  rw [← hstates]
  simp only [← attached_state]
  exact ⟨fun h => ⟨h.states, h.attached_iff⟩, fun h => ⟨h.1, h.2⟩⟩

theorem Sound.empty : empty.Sound := by
  rw [sound_iff]
  refine ⟨fun name st hst => ?_, fun name => ?_⟩
  · simp [core, Delivery.empty] at hst
  · simp [core, Delivery.empty, Initialized]

/-- The states that `_init_events_states` builds: one for each event of the device, and two that are hidden. -/
def builtStates (events : List EventConfig) : List (String × EventState) :=
  (events.map fun conf => (conf.name, ofConfig conf 0)) ++ internalStates 0

/-- A state that was just built is attached, and nothing has happened to it. -/
theorem of_mem_builtStates {events : List EventConfig} {p : String × EventState} (hp : p ∈ builtStates events) :
    p.2.attached = true ∧ p.2.active = false := by
  rcases List.mem_append.mp hp with hp | hp
  · obtain ⟨conf, -, rfl⟩ := List.mem_map.mp hp
    exact ⟨rfl, rfl⟩
  · simp only [internalStates, List.mem_cons, List.not_mem_nil, or_false] at hp
    rcases hp with rfl | rfl
    · exact ⟨rfl, rfl⟩
    · exact ⟨rfl, rfl⟩

theorem initEventsStates_of_nil (hkeys : d.eventsStates.keys = []) (events : List EventConfig) :
    d.initEventsStates events =
      { (builtStates events).foldl (fun d p => d.addState p.1 p.2) d with
        initialized := some (events.map EventConfig.name) } := if_pos hkeys

theorem core_initEventsStates (hkeys : d.eventsStates.keys = []) (events : List EventConfig) :
    (d.initEventsStates events).core = ((builtStates events).foldl (fun d p => d.addState p.1 p.2) d).core := by
  rw [initEventsStates_of_nil hkeys]
  rfl

theorem initialized_initEventsStates (hkeys : d.eventsStates.keys = []) (events : List EventConfig) (k : String) :
    (d.initEventsStates events).Initialized k ↔ ∃ p ∈ builtStates events, p.1 = k := by
  have hnames : (builtStates events).map Prod.fst =
      events.map EventConfig.name ++ (internalStates 0).map Prod.fst := by
    rw [builtStates, List.map_append, List.map_map]
    rfl
  rw [initEventsStates_of_nil hkeys, ← List.mem_map, hnames]
  simp [Initialized]

/-- The state of a storage-direct recording is the one that is built last. -/
theorem core_initEventsStates_direct (hkeys : d.eventsStates.keys = []) (events : List EventConfig) : ∃ n,
    (d.initEventsStates events).core "direct-upload-recording" =
      some { stateful := true, needClip := true, attached := true, segmenter := n } := by
  rw [core_initEventsStates hkeys, builtStates, List.foldl_append]
  exact ⟨_, (congrFun (core_addState _ _ _) _).trans (Function.update_self _ _ _)⟩

theorem core_of_keys_nil (hkeys : d.eventsStates.keys = []) (k : String) : d.core k = none := by
  rw [core_eq_none]
  intro hk
  have h := AList.mem_keys.mp hk
  rw [hkeys] at h
  exact List.not_mem_nil h

theorem sound_initEventsStates (hkeys : d.eventsStates.keys = []) (events : List EventConfig) :
    (d.initEventsStates events).Sound := by
  have hnone (k : String) := core_of_keys_nil hkeys k
  rw [sound_iff]
  constructor
  · intro k st hst
    rw [core_initEventsStates hkeys] at hst
    obtain ⟨-, h⟩ | ⟨p, hp, -, n, h⟩ := core_addStates (builtStates events) d k
    · rw [h, hnone] at hst
      cases hst
    · obtain ⟨hattached, hactive⟩ := of_mem_builtStates hp
      rw [h] at hst
      obtain rfl := Option.some.inj hst
      refine ⟨fun ha => absurd (hactive.symm.trans ha) Bool.false_ne_true, fun _ => hattached, ?_⟩
      rintro rfl -
      obtain ⟨n', hdirect⟩ := core_initEventsStates_direct hkeys events
      rw [core_initEventsStates hkeys, h] at hdirect
      rw [Option.some.inj hdirect]
      exact ⟨rfl, rfl⟩
  · intro k
    rw [initialized_initEventsStates hkeys, core_initEventsStates hkeys]
    obtain ⟨hne, h⟩ | ⟨p, hp, hname, n, h⟩ := core_addStates (builtStates events) d k
    · rw [h, hnone]
      exact iff_of_false Bool.false_ne_true fun ⟨p, hp, hname⟩ => hne p hp hname
    · rw [h]
      exact iff_of_true (of_mem_builtStates hp).1 ⟨p, hp, hname⟩

theorem Sound.step (h : d.Sound) (hs : op.step d = some d') : d'.Sound := by
  have hd := sound_iff.mp h
  obtain ⟨name, st, hinit, hcore, hsame, hactive⟩ | ⟨hinit, hcore⟩ | ⟨hkeys, events, rfl⟩ := Op.step_cases hs
  · rw [sound_iff, hcore]
    have hinitialized (k : String) : d'.Initialized k ↔ d.Initialized k := by
      unfold Initialized
      rw [hinit]
    constructor
    · rw [Function.forall_update_iff d.core (p := fun k o => ∀ st ∈ o, st.Sound k)]
      refine ⟨?_, fun k _ => hd.1 k⟩
      rintro _ ⟨⟩
      refine (h.states name).sameEvent hsame fun ha => ?_
      rcases hactive ha with hactive | hstateful
      · exact (h.states name).stateful_of_active hactive
      · exact hsame.stateful.symm.trans hstateful
    · simp only [hinitialized]
      rw [Function.forall_update_iff d.core (p := fun k o => o.any EventState.attached = true ↔ d.Initialized k)]
      refine ⟨?_, fun k _ => hd.2 k⟩
      rw [Option.any_some, hsame.attached]
      exact h.attached_iff name
  · rw [sound_iff, hcore]
    unfold Initialized
    rw [hinit]
    exact hd
  · exact sound_initEventsStates hkeys events

/-! ### What later operations rely on -/

/-- An event that is stateful stays so. -/
theorem Op.step_stateful {k : String} (hs : op.step d = some d') (h : (d.state k).stateful = true) :
    (d'.state k).stateful = true := by
  have hmem := mem_of_stateful h
  have hstays (hcore : d'.core k = d.core k) : (d'.state k).stateful = true := by
    rw [core_of_mem hmem] at hcore
    exact (stateful_state hcore).trans h
  obtain ⟨name, st, -, hcore, hsame, -⟩ | ⟨-, hcore⟩ | ⟨hkeys, -⟩ := step_cases hs
  · by_cases hk : k = name
    · subst hk
      have hst : d'.core k = some st := by rw [hcore, Function.update_self]
      rw [stateful_state hst, hsame.stateful, h]
    · exact hstays (by rw [hcore, Function.update_of_ne hk])
  · exact hstays (congrFun hcore k)
  · have hk := AList.mem_keys.mp hmem
    rw [hkeys] at hk
    cases hk

/-- A condition on the starts alone. -/
def Op.Starts (P : Delivery → String → StreamDeliveryMode → EventObject → Prop) (d : Delivery) : Op → Prop
  | .start _ _ name mode event _ _ _ _ => P d name mode event
  | _ => True

variable {P : Delivery → String → StreamDeliveryMode → EventObject → Prop} {now time : Time} {name : String}
  {mode : StreamDeliveryMode}

theorem leads_stop (h : (d.state name).stateful = true) :
    Leads Op.step (Op.Starts P) d True (d.stop now name time) :=
  Leads.one (a := Op.stop now name time) (if_pos h)

theorem leads_updateDeliveryMode {segProvider : Option String}
    (h : ((d.state name).stateful && ((d.state name).active || mode = .none)) = true) :
    Leads Op.step (Op.Starts P) d True (d.updateDeliveryMode now name mode segProvider) :=
  Leads.one (a := Op.updateDeliveryMode now name mode segProvider) (if_pos h)

theorem leads_stopAll (now : Time) (d : Delivery) : Leads Op.step (Op.Starts P) d True (d.stopAll now) := by
  refine Leads.foldl fun d name _ => ?_
  split_ifs with h
  · simp only [isOngoing, Bool.and_eq_true] at h
    exact leads_stop h.1.1
  · exact .refl d

theorem leads_switchAll (now : Time) (mode : StreamDeliveryMode) (segProvider : Option String) (d : Delivery) :
    Leads Op.step (Op.Starts P) d True (d.switchAll now mode segProvider) := by
  refine Leads.foldl fun d name _ => ?_
  split_ifs with h
  · simp only [isOngoing, Bool.and_eq_true] at h
    exact leads_updateDeliveryMode (by simp [h.1])
  · exact .refl d

theorem touch_touch (d : Delivery) (name : String) : (d.touch name).touch name = d.touch name :=
  touch_of_mem (mem_touch d name)

/-- Starting or stopping an event creates its state first. -/
theorem start_touch (dev : Device) (now : Time) (name : String) (mode : StreamDeliveryMode) (event : EventObject)
    (pre post : Duration) (segProvider : Option String) (uploadToken : String) (d : Delivery) :
    (d.touch name).start dev now name mode event pre post segProvider uploadToken =
      d.start dev now name mode event pre post segProvider uploadToken := by
  unfold start
  rw [touch_touch]

theorem stop_touch (now : Time) (name : String) (time : Time) (d : Delivery) :
    (d.touch name).stop now name time = d.stop now name time := by
  unfold stop
  rw [touch_touch]

end Delivery
end CloudAgent.Control
