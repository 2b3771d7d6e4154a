import CloudAgent.Control.Events.Settings

/-! The timers of the periodic events. A firing timer schedules itself again, while commands cancel and
reschedule; the table of timers and the stored configurations agree with what is pending throughout. -/
namespace CloudAgent.Control
open Proto Transition Net

namespace PeriodicEvents
variable {p : PeriodicEvents} {conf c : EventConfig} {events : List EventConfig} {t : ℕ} {cb : TransportCb}

/-! ### What is pending after each operation -/

theorem pending_cancelPeriodicEvent (p : PeriodicEvents) (conf : EventConfig) (t : ℕ) (cb : TransportCb) :
    (p.cancelPeriodicEvent conf).transport.Pending t cb ↔
      p.periodicEvents.lookup conf.name ≠ some t ∧ p.transport.Pending t cb := by
  unfold cancelPeriodicEvent
  cases h : p.periodicEvents.lookup conf.name with
  | none => simp
  | some old =>
    simp only [LwsCommon.pending_cancelTimedCb, ne_eq, Option.some.injEq]
    exact and_congr_left' ⟨fun h he => h he.symm, fun h he => h he.symm⟩

theorem lookup_cancelPeriodicEvent (p : PeriodicEvents) (conf : EventConfig) (n : String) :
    (p.cancelPeriodicEvent conf).periodicEvents.lookup n =
      if n = conf.name then none else p.periodicEvents.lookup n := by
  unfold cancelPeriodicEvent
  by_cases hn : n = conf.name
  · subst hn
    cases h : p.periodicEvents.lookup conf.name <;> simp [h]
  · cases h : p.periodicEvents.lookup conf.name <;> simp [hn, AList.lookup_erase_ne hn]

@[simp] theorem nextId_cancelPeriodicEvent (p : PeriodicEvents) (conf : EventConfig) :
    (p.cancelPeriodicEvent conf).transport.nextId = p.transport.nextId := by
  unfold cancelPeriodicEvent
  split <;> rfl

/-- The configuration of an event that is produced periodically. -/
def Runs (conf : EventConfig) : Prop := conf.caps.periodic = true ∧ conf.active = true ∧ periodSeconds conf ≠ 0

instance (conf : EventConfig) : Decidable (Runs conf) := by unfold Runs; infer_instance

theorem schedulePeriodicEvent_of_not_runs (p : PeriodicEvents) (h : ¬ Runs conf) :
    p.schedulePeriodicEvent conf = p := by
  unfold schedulePeriodicEvent
  split
  · rename_i hc
    obtain ⟨hp, ha⟩ := Bool.and_eq_true_iff.mp hc
    split
    · rfl
    · exact absurd ⟨hp, ha, ‹_›⟩ h
  · rfl

/-- A timer that runs replaces the one that was stored under its name. -/
theorem pending_schedulePeriodicEvent (p : PeriodicEvents) (h : Runs conf) (t : ℕ) (cb : TransportCb) :
    (p.schedulePeriodicEvent conf).transport.Pending t cb ↔
      p.periodicEvents.lookup conf.name ≠ some t ∧
        (p.transport.Pending t cb ∨ (t = p.transport.nextId ∧ cb = .triggerPeriodicEvent conf)) := by
  obtain ⟨hp, ha, hs⟩ := h
  simp only [schedulePeriodicEvent, hp, ha, Bool.and_self, if_true, hs, if_false]
  cases hl : p.periodicEvents.lookup conf.name with
  | none => simp [LwsCommon.pending_scheduleTimedCb]
  | some old =>
    simp only [LwsCommon.pending_cancelTimedCb, LwsCommon.pending_scheduleTimedCb, ne_eq, Option.some.injEq]
    exact and_congr_left' ⟨fun h he => h he.symm, fun h he => h he.symm⟩

theorem periodicEvents_schedulePeriodicEvent (p : PeriodicEvents) (h : Runs conf) :
    (p.schedulePeriodicEvent conf).periodicEvents = p.periodicEvents.insert conf.name p.transport.nextId := by
  obtain ⟨hp, ha, hs⟩ := h
  simp [schedulePeriodicEvent, hp, ha, hs, LwsCommon.scheduleTimedCb]

theorem nextId_schedulePeriodicEvent (p : PeriodicEvents) (h : Runs conf) :
    (p.schedulePeriodicEvent conf).transport.nextId = p.transport.nextId + 1 := by
  obtain ⟨hp, ha, hs⟩ := h
  simp only [schedulePeriodicEvent, hp, ha, Bool.and_self, if_true, hs, if_false]
  split <;> rfl

/-- Neither operation on the periodic events makes another callback pending. -/
theorem startProviders_of_cancelPeriodicEvents (p : PeriodicEvents) (events : List EventConfig)
    (h : (p.cancelPeriodicEvents events).transport.Pending t .startProviders) :
    p.transport.Pending t .startProviders := by
  induction events generalizing p with
  | nil => exact h
  | cons conf events ih => exact ((pending_cancelPeriodicEvent p conf t _).mp (ih _ h)).2

theorem startProviders_of_schedulePeriodicEvent (p : PeriodicEvents) (conf : EventConfig)
    (h : (p.schedulePeriodicEvent conf).transport.Pending t .startProviders) :
    p.transport.Pending t .startProviders := by
  by_cases hr : Runs conf
  · simpa using ((pending_schedulePeriodicEvent p hr t _).mp h).2
  · rwa [schedulePeriodicEvent_of_not_runs p hr] at h

theorem startProviders_of_schedulePeriodicEvents (p : PeriodicEvents) (events : List EventConfig)
    (h : (p.schedulePeriodicEvents events).transport.Pending t .startProviders) :
    p.transport.Pending t .startProviders := by
  induction events generalizing p with
  | nil => exact h
  | cons conf events ih =>
    have hone := ih _ h
    change (if conf.caps.periodic then p.schedulePeriodicEvent conf else p).transport.Pending t _ at hone
    split at hone
    · exact startProviders_of_schedulePeriodicEvent p conf hone
    · exact hone

/-! ### The table of timers -/

/-- A pending timer of a periodic event is the one stored under its name. -/
structure Wired (p : PeriodicEvents) : Prop where
  stored : ∀ t c, p.transport.Pending t (.triggerPeriodicEvent c) → p.periodicEvents.lookup c.name = some t
  lt : ∀ n t, p.periodicEvents.lookup n = some t → t < p.transport.nextId

theorem Wired.cancelPeriodicEvent (h : p.Wired) (conf : EventConfig) : (p.cancelPeriodicEvent conf).Wired where
  stored t c hp := by
    obtain ⟨hne, hp⟩ := (pending_cancelPeriodicEvent p conf t _).mp hp
    have hl := h.stored t c hp
    rw [lookup_cancelPeriodicEvent, if_neg, hl]
    intro hn
    exact hne (hn ▸ hl)
  lt n t hl := by
    rw [lookup_cancelPeriodicEvent] at hl
    rw [nextId_cancelPeriodicEvent]
    split at hl
    · exact absurd hl (by simp)
    · exact h.lt n t hl

/-- After all stored events are canceled, only the timers of other events are pending. -/
theorem Wired.cancelPeriodicEvents (h : p.Wired) (events : List EventConfig) :
    (p.cancelPeriodicEvents events).Wired ∧
      ∀ t c, (p.cancelPeriodicEvents events).transport.Pending t (.triggerPeriodicEvent c) →
        p.transport.Pending t (.triggerPeriodicEvent c) ∧ ∀ conf ∈ events, conf.name ≠ c.name := by
  induction events generalizing p with
  | nil => exact ⟨h, fun t c hp => ⟨hp, by simp⟩⟩
  | cons conf events ih =>
    obtain ⟨hw, hrest⟩ := ih (h.cancelPeriodicEvent conf)
    refine ⟨hw, fun t c hp => ?_⟩
    obtain ⟨hp, hother⟩ := hrest t c hp
    obtain ⟨hne, hp⟩ := (pending_cancelPeriodicEvent p conf t _).mp hp
    refine ⟨hp, List.forall_mem_cons.mpr ⟨fun hn => hne ?_, hother⟩⟩
    rw [hn]
    exact h.stored t c hp

/-- A new timer takes the place of the one stored under its name. -/
theorem Wired.insert (h : p.Wired) {q : PeriodicEvents} {conf : EventConfig}
    (hpending : ∀ t c, q.transport.Pending t (.triggerPeriodicEvent c) →
      (p.periodicEvents.lookup conf.name ≠ some t ∧ p.transport.Pending t (.triggerPeriodicEvent c)) ∨
        (t = p.transport.nextId ∧ c = conf))
    (htable : q.periodicEvents = p.periodicEvents.insert conf.name p.transport.nextId)
    (hnext : q.transport.nextId = p.transport.nextId + 1) : q.Wired where
  stored t c hp := by
    rw [htable]
    rcases hpending t c hp with ⟨hne, hp⟩ | ⟨rfl, rfl⟩
    · have hl := h.stored t c hp
      have hn : c.name ≠ conf.name := fun hn => hne (hn ▸ hl)
      rw [AList.lookup_insert_ne hn, hl]
    · exact AList.lookup_insert _
  lt n t hl := by
    rw [htable] at hl
    rw [hnext]
    by_cases hn : n = conf.name
    · subst hn
      rw [AList.lookup_insert] at hl
      have := Option.some.inj hl
      omega
    · rw [AList.lookup_insert_ne hn] at hl
      have := h.lt n t hl
      omega

/-- What is pending for periodic events follows the stored configurations. -/
structure Follows (p : PeriodicEvents) (events : List EventConfig) : Prop extends Wired p where
  runs : ∀ t c, p.transport.Pending t (.triggerPeriodicEvent c) → c ∈ events ∧ Runs c

/-- Before the stored configurations change, all their timers are canceled. -/
theorem Follows.cancelPeriodicEvents (h : p.Follows events) (events' : List EventConfig) :
    (p.cancelPeriodicEvents events).Follows events' := by
  obtain ⟨hw, hrest⟩ := h.toWired.cancelPeriodicEvents events
  refine ⟨hw, fun t c hp => ?_⟩
  obtain ⟨hp, hother⟩ := hrest t c hp
  exact absurd rfl (hother c (h.runs t c hp).1)

theorem Follows.schedulePeriodicEvent (h : p.Follows events) (hc : conf ∈ events) :
    (p.schedulePeriodicEvent conf).Follows events := by
  by_cases hr : Runs conf
  · have hpending : ∀ t c, (p.schedulePeriodicEvent conf).transport.Pending t (.triggerPeriodicEvent c) →
        (p.periodicEvents.lookup conf.name ≠ some t ∧ p.transport.Pending t (.triggerPeriodicEvent c)) ∨
          (t = p.transport.nextId ∧ c = conf) := by
      intro t c hp
      obtain ⟨hne, hp | ⟨ht, hc⟩⟩ := (pending_schedulePeriodicEvent p hr t _).mp hp
      · exact Or.inl ⟨hne, hp⟩
      · exact Or.inr ⟨ht, by simpa using hc⟩
    refine ⟨h.toWired.insert hpending (periodicEvents_schedulePeriodicEvent p hr)
      (nextId_schedulePeriodicEvent p hr), fun t c hp => ?_⟩
    rcases hpending t c hp with ⟨-, hp⟩ | ⟨-, rfl⟩
    · exact h.runs t c hp
    · exact ⟨hc, hr⟩
  · rwa [schedulePeriodicEvent_of_not_runs p hr]

theorem Follows.schedulePeriodicEvents (h : p.Follows events) {confs : List EventConfig}
    (hconfs : ∀ c ∈ confs, c ∈ events) : (p.schedulePeriodicEvents confs).Follows events := by
  induction confs generalizing p with
  | nil => exact h
  | cons conf confs ih =>
    obtain ⟨hc, hconfs⟩ := List.forall_mem_cons.mp hconfs
    refine ih ?_ hconfs
    change Follows (if conf.caps.periodic then p.schedulePeriodicEvent conf else p) events
    split
    · exact h.schedulePeriodicEvent hc
    · exact h

/-- The timer that has just fired was the one stored under its name, so the new one is alone. -/
theorem Follows.triggerPeriodicEvent (h : p.Follows events) {transport : LwsCommon TransportCb}
    (hf : p.transport.sulCb t = some (.triggerPeriodicEvent conf, transport)) :
    ({ p with transport }.triggerPeriodicEvent conf).Follows events := by
  obtain ⟨hp, hnext, hrest⟩ := LwsCommon.sulCb_eq_some hf
  obtain ⟨hc, hr⟩ := h.runs t conf hp
  have hl := h.stored t conf hp
  have hpending : ∀ j c,
      ({ p with transport }.triggerPeriodicEvent conf).transport.Pending j (.triggerPeriodicEvent c) →
        (p.periodicEvents.lookup conf.name ≠ some j ∧ p.transport.Pending j (.triggerPeriodicEvent c)) ∨
          (j = p.transport.nextId ∧ c = conf) := by
    intro j c hj
    simp only [PeriodicEvents.triggerPeriodicEvent, hr.1, if_true, LwsCommon.pending_scheduleTimedCb,
      TransportCb.triggerPeriodicEvent.injEq] at hj
    rcases hj with hj | ⟨hj, hc⟩
    · obtain ⟨hne, hj⟩ := (hrest j _).mp hj
      refine Or.inl ⟨fun he => hne ?_, hj⟩
      exact (Option.some.inj (hl.symm.trans he)).symm
    · exact Or.inr ⟨hj.trans hnext, hc⟩
  refine ⟨h.toWired.insert hpending ?_ ?_, fun j c hj => ?_⟩
  · simp [PeriodicEvents.triggerPeriodicEvent, hr.1, LwsCommon.scheduleTimedCb, hnext]
  · simp [PeriodicEvents.triggerPeriodicEvent, hr.1, LwsCommon.scheduleTimedCb, hnext]
  · rcases hpending j c hj with ⟨-, hj⟩ | ⟨-, rfl⟩
    · exact h.runs j c hj
    · exact ⟨hc, hr⟩

/-- The postponed start has nothing to do with the periodic events. -/
theorem Follows.scheduleStartProviders (h : p.Follows events) (ms : ℕ) :
    Follows { p with transport := (p.transport.scheduleTimedCb .startProviders ms).2 } events := by
  have hpending : ∀ t c, (p.transport.scheduleTimedCb .startProviders ms).2.Pending t
      (.triggerPeriodicEvent c) → p.transport.Pending t (.triggerPeriodicEvent c) := by
    intro t c hp
    simpa [LwsCommon.pending_scheduleTimedCb] using hp
  exact ⟨⟨fun t c hp => h.stored t c (hpending t c hp), fun n t hl => Nat.lt_succ_of_lt (h.lt n t hl)⟩,
    fun t c hp => h.runs t c (hpending t c hp)⟩

/-- A timer has fired that is not of a periodic event. -/
theorem Follows.sulCb (h : p.Follows events) {transport : LwsCommon TransportCb}
    (hf : p.transport.sulCb t = some (cb, transport)) : Follows { p with transport } events := by
  obtain ⟨-, hnext, hrest⟩ := LwsCommon.sulCb_eq_some hf
  exact ⟨⟨fun j c hj => h.stored j c ((hrest j _).mp hj).2, fun n j hl => hnext ▸ h.lt n j hl⟩,
    fun j c hj => h.runs j c ((hrest j _).mp hj).2⟩

end PeriodicEvents

/-! ### Runs of the events side -/

namespace EventsControl
variable {dev : Device} {e e' : EventsControl} {a : Action} {as : List Action}

def PeriodicFollows (e : EventsControl) : Prop := e.periodic.Follows e.eventsConfig.events

theorem PeriodicFollows.step (h : e.PeriodicFollows) (hs : e.step dev a = some e') : e'.PeriodicFollows := by
  cases a with
  | getCamEvents reported =>
    obtain rfl := Option.some.inj hs
    exact (h.cancelPeriodicEvents _).scheduleStartProviders 1000
  | setCamEvents reported config =>
    obtain rfl := Option.some.inj hs
    simp only [onSetCamEventsConfig]
    split
    · exact (h.cancelPeriodicEvents _).schedulePeriodicEvents fun c hc => hc
    · exact (h.cancelPeriodicEvents _).schedulePeriodicEvents fun c hc => hc
  | fireTransportTimer t =>
    obtain ⟨⟨cb, transport⟩, hf, rfl⟩ := Option.map_eq_some_iff.mp hs
    cases cb with
    | triggerPeriodicEvent conf => exact PeriodicEvents.Follows.triggerPeriodicEvent h hf
    | startProviders =>
      have hfired := PeriodicEvents.Follows.sulCb h hf
      simp only [runTransportCb, startProviders]
      split
      · exact hfired.schedulePeriodicEvents fun c hc => hc
      · exact hfired.schedulePeriodicEvents fun c hc => hc
  | closed =>
    obtain rfl := Option.some.inj hs
    exact h

theorem start_periodicFollows : start.PeriodicFollows := by
  constructor
  · constructor <;> simp [start]
  · simp [start]

theorem PeriodicFollows.exec (he : exec (EventsControl.step dev) start as = some e) : e.PeriodicFollows :=
  run_invariant (fun _ _ _ h hs => h.step hs) start_periodicFollows he

/-- In every run a pending timer of a periodic event is the one stored under its name, so there is at
most one for a name, and the configuration it captured is stored, active and has a period; a name
whose stored configurations are inactive or have period 0 has no timer. -/
theorem one_timer_per_periodic_event (he : Transition.exec (step dev) start as = some e) :
    (∀ t c, e.periodic.transport.Pending t (.triggerPeriodicEvent c) →
        e.periodic.periodicEvents.lookup c.name = some t) ∧
      (∀ i j c d, e.periodic.transport.Pending i (.triggerPeriodicEvent c) →
        e.periodic.transport.Pending j (.triggerPeriodicEvent d) → c.name = d.name → i = j) ∧
      (∀ t c, e.periodic.transport.Pending t (.triggerPeriodicEvent c) →
        c ∈ e.eventsConfig.events ∧ c.active = true ∧ c.period ≠ 0) ∧
      ∀ name, (∀ c ∈ e.eventsConfig.events, c.name = name → c.active = false ∨ c.period = 0) →
        ∀ t c, c.name = name → ¬ e.periodic.transport.Pending t (.triggerPeriodicEvent c) := by
  have h : e.PeriodicFollows := PeriodicFollows.exec he
  have hruns : ∀ t c, e.periodic.transport.Pending t (.triggerPeriodicEvent c) →
      c ∈ e.eventsConfig.events ∧ c.active = true ∧ c.period ≠ 0 := by
    intro t c hp
    obtain ⟨hc, -, hactive, hperiod⟩ := h.runs t c hp
    refine ⟨hc, hactive, ?_⟩
    rintro hzero
    exact hperiod (by simp [periodSeconds, hzero])
  refine ⟨h.stored, fun i j c d hi hj hn => ?_, hruns, fun name hoff t c hn hp => ?_⟩
  · have hl := h.stored i c hi
    rw [hn, h.stored j d hj] at hl
    exact (Option.some.inj hl).symm
  · obtain ⟨hc, hactive, hperiod⟩ := hruns t c hp
    rcases hoff c hc hn with h | h
    · exact Bool.noConfusion (hactive.symm.trans h)
    · exact hperiod h

/-- An event that is produced every ten seconds. -/
def heartbeat (active : Bool) : EventConfig :=
  { event := .custom, customEventName := "heartbeat", active, period := 10, caps := { periodic := true } }

/-- The postponed start schedules the heartbeat, its timer fires once, and the cloud turns it off. -/
theorem one_timer_per_periodic_event_off :
    ∃ e, Transition.exec (step callbackOnly) start
        [.getCamEvents (some ⟨true, [heartbeat true]⟩), .fireTransportTimer 0, .fireTransportTimer 1,
          .setCamEvents none ⟨true, [heartbeat false]⟩] = some e ∧
      ∀ t c, c.name = "heartbeat" → ¬ e.periodic.transport.Pending t (.triggerPeriodicEvent c) := by
  have hrun : ∃ e ∈ Transition.exec (step callbackOnly) start
      [.getCamEvents (some ⟨true, [heartbeat true]⟩), .fireTransportTimer 0, .fireTransportTimer 1,
        .setCamEvents none ⟨true, [heartbeat false]⟩],
      ∀ c ∈ e.eventsConfig.events, c.name = "heartbeat" → c.active = false ∨ c.period = 0 := by
    decide +kernel
  obtain ⟨e, he, hoff⟩ := hrun
  exact ⟨e, he, (one_timer_per_periodic_event he).2.2.2 "heartbeat" hoff⟩

end EventsControl
end CloudAgent.Control
