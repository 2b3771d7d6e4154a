import CloudAgent.Control.Events
import CloudAgent.Lib.Transition

/-! What a sequence of `set_cam_events` commands leaves in the stored configurations: which events they
name, and with which settings. -/
namespace CloudAgent.Control
open Proto Transition

/-- A loop whose rounds each add a condition to a test adds all of them. -/
theorem foldl_or {α β : Type*} {f : α → β → α} (test : α → Bool) (adds : β → Bool)
    (h : ∀ a b, test (f a b) = (test a || adds b)) (bs : List β) (a : α) :
    test (bs.foldl f a) = (test a || bs.any adds) := by
  induction bs generalizing a with
  | nil => simp
  | cons b bs ih => rw [List.foldl_cons, ih, h, List.any_cons, Bool.or_assoc]

/-! ### Configurations of the same event -/

variable {c d new old : EventConfig} {dest news : List EventConfig}

theorem nameEq_iff : c.nameEq d = true ↔ c.event = d.event ∧ c.customEventName = d.customEventName := by
  simp [EventConfig.nameEq]

@[simp] theorem nameEq_refl (c : EventConfig) : c.nameEq c = true := by simp [nameEq_iff]

theorem nameEq_comm (c d : EventConfig) : c.nameEq d = d.nameEq c := by
  simp only [EventConfig.nameEq, eq_comm]

/-- Configurations of one event are of the same event as any other. -/
theorem nameEq_congr (h : c.nameEq d = true) : c.nameEq = d.nameEq := by
  obtain ⟨he, hn⟩ := nameEq_iff.mp h
  funext e
  simp only [EventConfig.nameEq, he, hn]

theorem nameEq_of_nameEq (c : EventConfig) (h : new.nameEq old = true) : c.nameEq old = c.nameEq new := by
  rw [nameEq_comm c old, nameEq_comm c new, nameEq_congr h]

@[simp] theorem nameEq_applySettings (c new old : EventConfig) :
    c.nameEq (applySettings new old) = c.nameEq old := rfl

/-- The capabilities are never found to differ, so no update is refused. -/
@[simp] theorem updateEventConfig_fst (new : EventConfig) (dest : List EventConfig) :
    (updateEventConfig new dest).1 = true := by
  induction dest with
  | nil => rfl
  | cons old dest ih =>
    by_cases h : new.nameEq old
    · have hc : new.capsEq old = true := h
      simp [updateEventConfig, h, hc]
    · simpa [updateEventConfig, h] using ih

/-- What an update leaves under an event: the stored configuration with the new settings, or the new
one where the event was not stored. -/
theorem find_updateEventConfig (c new : EventConfig) (dest : List EventConfig) :
    (updateEventConfig new dest).2.find? c.nameEq =
      if c.nameEq new then
        match dest.find? c.nameEq with
        | some old => some (applySettings new old)
        | none => some new
      else dest.find? c.nameEq := by
  induction dest with
  | nil => by_cases h : c.nameEq new <;> simp [updateEventConfig, h]
  | cons old dest ih =>
    by_cases h : new.nameEq old
    · have hc : new.capsEq old = true := h
      have hiff := nameEq_of_nameEq c h
      by_cases hn : c.nameEq new <;> simp [updateEventConfig, h, hc, hiff, hn]
    · by_cases ho : c.nameEq old
      · have hn : c.nameEq new = false := by
          rw [nameEq_congr ho, nameEq_comm]
          simpa using h
        simp [updateEventConfig, h, ho, hn]
      · simpa [updateEventConfig, h, ho] using ih

theorem updateEventsConfigs_eq (news dest : List EventConfig) :
    updateEventsConfigs news dest = (true, news.foldl (fun dest new => (updateEventConfig new dest).2) dest) := by
  induction news generalizing dest with
  | nil => rfl
  | cons new news ih =>
    have h : updateEventConfig new dest = (true, (updateEventConfig new dest).2) :=
      Prod.ext (updateEventConfig_fst new dest) rfl
    rw [updateEventsConfigs, h]
    exact ih _

@[simp] theorem updateEventsConfigs_fst (news dest : List EventConfig) :
    (updateEventsConfigs news dest).1 = true := by rw [updateEventsConfigs_eq]

/-- A list of updates applies to a stored event all the updates that mention it, in their order. -/
theorem find_updateEventsConfigs (news : List EventConfig) (h : dest.find? c.nameEq = some old) :
    (updateEventsConfigs news dest).2.find? c.nameEq =
      some ((news.filter c.nameEq).foldl (fun old new => applySettings new old) old) := by
  simp only [updateEventsConfigs_eq]
  induction news generalizing dest old with
  | nil => simpa using h
  | cons new news ih =>
    have hfind := find_updateEventConfig c new dest
    by_cases hn : c.nameEq new
    · rw [if_pos hn, h] at hfind
      simpa [hn] using ih hfind
    · rw [if_neg hn, h] at hfind
      simpa [hn] using ih hfind

theorem any_updateEventConfig (c new : EventConfig) (dest : List EventConfig) :
    (updateEventConfig new dest).2.any c.nameEq = (dest.any c.nameEq || c.nameEq new) := by
  induction dest with
  | nil => simp [updateEventConfig]
  | cons old dest ih =>
    by_cases h : new.nameEq old
    · have hc : new.capsEq old = true := h
      have hiff := nameEq_of_nameEq c h
      simpa [updateEventConfig, h, hc, hiff] using fun hn => Or.inl hn
    · simp [updateEventConfig, h, ih, Bool.or_assoc]

/-- The events stored after a list of updates are those stored before and those it mentions. -/
theorem any_updateEventsConfigs (c : EventConfig) (news dest : List EventConfig) :
    (updateEventsConfigs news dest).2.any c.nameEq = (dest.any c.nameEq || news.any c.nameEq) := by
  rw [updateEventsConfigs_eq]
  exact foldl_or (·.any c.nameEq) c.nameEq (fun dest new => any_updateEventConfig c new dest) news dest

/-- The settings after a sequence of updates: those of the last one, with the flags that every update
and the stored configuration had set. -/
theorem foldl_applySettings (earlier : List EventConfig) (last old : EventConfig) :
    (earlier ++ [last]).foldl (fun old new => applySettings new old) old =
      { old with
        active := last.active
        period := last.period
        snapshot := last.snapshot && (old.snapshot && earlier.all (·.snapshot))
        stream := last.stream && (old.stream && earlier.all (·.stream)) } := by
  induction earlier generalizing old with
  | nil => simp [applySettings]
  | cons new earlier ih =>
    rw [List.cons_append, List.foldl_cons, ih]
    simp only [applySettings, List.all_cons, EventConfig.mk.injEq, true_and, and_true]
    constructor <;> ac_rfl

/-! ### Sequences of `set_cam_events` -/

namespace EventsControl
variable {dev : Device} {e : EventsControl} {reported : Option EventsConfig} {config : EventsConfig}

@[simp] theorem toStoredConfigs_onSetCamEventsConfig :
    (e.onSetCamEventsConfig dev reported config).toStoredConfigs =
      (e.toStoredConfigs.ensureLoaded dev reported).applyConfig dev config := by
  simp only [onSetCamEventsConfig, schedulePeriodicEvents]
  split <;> rfl

/-- Once events are stored, a `set_cam_events` only merges its settings into them. -/
theorem events_onSetCamEventsConfig (h : e.eventsConfig.events ≠ []) :
    (e.onSetCamEventsConfig dev reported config).eventsConfig.events =
      (updateEventsConfigs config.events e.eventsConfig.events).2 := by
  rw [toStoredConfigs_onSetCamEventsConfig, StoredConfigs.ensureLoaded, if_neg h]
  rfl

/-- A sequence of `set_cam_events`, each with what the common callback would report. -/
def setCamEvents (dev : Device) (calls : List (Option EventsConfig × EventsConfig)) (e : EventsControl) :
    EventsControl :=
  calls.foldl (fun e call => e.onSetCamEventsConfig dev call.1 call.2) e

/-- The configurations that a sequence of `set_cam_events` has for the event of `c`. -/
def mentions (c : EventConfig) (calls : List (Option EventsConfig × EventsConfig)) : List EventConfig :=
  (calls.flatMap fun call => call.2.events).filter c.nameEq

theorem find_setCamEvents {c old : EventConfig} (calls : List (Option EventsConfig × EventsConfig))
    (h : e.eventsConfig.events.find? c.nameEq = some old) :
    (e.setCamEvents dev calls).eventsConfig.events.find? c.nameEq =
      some ((mentions c calls).foldl (fun old new => applySettings new old) old) := by
  induction calls generalizing e old with
  | nil => simpa [setCamEvents, mentions] using h
  | cons call calls ih =>
    have hne : e.eventsConfig.events ≠ [] := by
      rintro hnil
      simp [hnil] at h
    have hfind := find_updateEventsConfigs call.2.events h
    have hcall : (e.onSetCamEventsConfig dev call.1 call.2).eventsConfig.events = _ :=
      events_onSetCamEventsConfig hne
    rw [← hcall] at hfind
    have hrest := ih hfind
    simpa only [setCamEvents, mentions, List.foldl_cons, List.flatMap_cons, List.filter_append,
      List.foldl_append] using hrest

/-- What the last request for an event should leave, whatever came before. -/
def LastRequestHolds (old last stored : EventConfig) : Prop :=
  stored.active = last.active ∧ stored.period = last.period ∧
    stored.snapshot = (last.snapshot && old.caps.snapshot) ∧
    stored.stream = (last.stream && old.caps.stream) ∧ stored.caps = old.caps

/-- A flag that the last request sets was stored and requested all along, unless the capabilities
rule it out and it was not. -/
def FlagsKept (old : EventConfig) (earlier : List EventConfig) (last : EventConfig) : Prop :=
  (last.snapshot = true → (old.snapshot && earlier.all (·.snapshot)) = old.caps.snapshot) ∧
    (last.stream = true → (old.stream && earlier.all (·.stream)) = old.caps.stream)

/-- After any sequence of `set_cam_events` a known event has the settings of the last request for it
exactly when that request sets no flag that was lost on the way. -/
theorem setCamEvents_last_request (dev : Device) (e : EventsControl)
    (calls : List (Option EventsConfig × EventsConfig)) {c old last : EventConfig}
    {earlier : List EventConfig} (hknown : e.eventsConfig.events.find? c.nameEq = some old)
    (hmentions : mentions c calls = earlier ++ [last]) :
    ∃ stored, (e.setCamEvents dev calls).eventsConfig.events.find? c.nameEq = some stored ∧
      (LastRequestHolds old last stored ↔ FlagsKept old earlier last) := by
  refine ⟨_, find_setCamEvents calls hknown, ?_⟩
  rw [hmentions, foldl_applySettings]
  cases hsnapshot : last.snapshot <;> cases hstream : last.stream <;>
    simp [LastRequestHolds, FlagsKept, hsnapshot, hstream]

/-- A device without streams, whose common callback reports the events. -/
def callbackOnly : Device where
  streams := []
  eventStreams := []
  eventStreams_nodup := by simp

/-- The motion event of a device that can attach a snapshot. -/
def motionWithSnapshot (active snapshot : Bool) : EventConfig :=
  { event := .motion, active := active, snapshot := snapshot, period := 0, caps := { snapshot := true } }

theorem setCamEvents_last_request_motion :
    ∃ stored, (EventsControl.setCamEvents callbackOnly
        [(none, ⟨true, [motionWithSnapshot false true]⟩), (none, ⟨true, [motionWithSnapshot true false]⟩)]
        { start with eventsConfig := ⟨true, [motionWithSnapshot true true]⟩ }).eventsConfig.events.find?
          (motionWithSnapshot true true).nameEq = some stored ∧
      (LastRequestHolds (motionWithSnapshot true true) (motionWithSnapshot true false) stored ↔
        FlagsKept (motionWithSnapshot true true) [motionWithSnapshot false true]
          (motionWithSnapshot true false)) :=
  setCamEvents_last_request _ _ _ (by decide) (by decide)

/-- A snapshot flag that was turned off once stays off when the cloud turns it on again. -/
theorem setCamEvents_loses_snapshot :
    ∃ stored, (EventsControl.setCamEvents callbackOnly
        [(none, ⟨true, [motionWithSnapshot true false]⟩), (none, ⟨true, [motionWithSnapshot true true]⟩)]
        { start with eventsConfig := ⟨true, [motionWithSnapshot true true]⟩ }).eventsConfig.events.find?
          (motionWithSnapshot true true).nameEq = some stored ∧
      ¬ LastRequestHolds (motionWithSnapshot true true) (motionWithSnapshot true true) stored := by
  refine ⟨motionWithSnapshot true false, by decide +kernel, ?_⟩
  simp [LastRequestHolds, motionWithSnapshot]

end EventsControl
end CloudAgent.Control
