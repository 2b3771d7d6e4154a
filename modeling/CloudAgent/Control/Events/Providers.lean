import CloudAgent.Control.Events.Periodic

/-! The order in which event streams are started and stopped. A `get_cam_events` stops them and starts
them a second later from a timer that nothing cancels. -/
namespace CloudAgent.Control
open Proto Transition Net

/-! ### Histories, the latest first -/

/-- The event stream was started and not stopped since. -/
def started (name : String) : List ProviderOp → Bool
  | [] => false
  | .start n :: ops => n = name || started name ops
  | .stop n :: ops => n ≠ name && started name ops
  | .command :: ops | .closed :: ops => started name ops

/-- The connection was closed and no command that configures events was handled since. -/
def closedSince : List ProviderOp → Bool
  | [] | .command :: _ => false
  | .closed :: _ => true
  | .start _ :: ops | .stop _ :: ops => closedSince ops

/-- No event stream was started twice in a row, nor between a closure and the next command. -/
def Ordered : List ProviderOp → Prop
  | [] => True
  | .start n :: ops => started n ops = false ∧ closedSince ops = false ∧ Ordered ops
  | .stop _ :: ops | .command :: ops | .closed :: ops => Ordered ops

/-- Since a command that configures events was handled, event streams were only stopped. -/
def readyToStart : List ProviderOp → Bool
  | .command :: _ => true
  | .stop _ :: ops => readyToStart ops
  | [] | .start _ :: _ | .closed :: _ => false

theorem history_cons (op : String → ProviderOp) (n : String) (ns : List String) (ops : List ProviderOp) :
    ((n :: ns).map op).reverse ++ ops = (ns.map op).reverse ++ (op n :: ops) := by simp

theorem started_stops (ns : List String) (ops : List ProviderOp) (name : String) :
    started name ((ns.map .stop).reverse ++ ops) = (decide (name ∉ ns) && started name ops) := by
  induction ns generalizing ops with
  | nil => simp
  | cons n ns ih =>
    rw [history_cons, ih]
    by_cases h : name = n
    · simp [started, h]
    · simp [started, h, Ne.symm h]

theorem started_starts (ns : List String) (ops : List ProviderOp) (name : String) :
    started name ((ns.map .start).reverse ++ ops) = (decide (name ∈ ns) || started name ops) := by
  induction ns generalizing ops with
  | nil => simp
  | cons n ns ih =>
    rw [history_cons, ih]
    by_cases h : name = n
    · simp [started, h]
    · simp [started, h, Ne.symm h]

@[simp] theorem closedSince_stops (ns : List String) (ops : List ProviderOp) :
    closedSince ((ns.map .stop).reverse ++ ops) = closedSince ops := by
  induction ns generalizing ops with
  | nil => rfl
  | cons n ns ih => simpa [closedSince] using ih (.stop n :: ops)

@[simp] theorem closedSince_starts (ns : List String) (ops : List ProviderOp) :
    closedSince ((ns.map .start).reverse ++ ops) = closedSince ops := by
  induction ns generalizing ops with
  | nil => rfl
  | cons n ns ih => simpa [closedSince] using ih (.start n :: ops)

@[simp] theorem ordered_stops (ns : List String) (ops : List ProviderOp) :
    Ordered ((ns.map .stop).reverse ++ ops) ↔ Ordered ops := by
  induction ns generalizing ops with
  | nil => rfl
  | cons n ns ih => simpa [Ordered] using ih (.stop n :: ops)

/-- Starting several event streams in a row is in order if it is for each of them. -/
theorem ordered_starts {ns : List String} (hns : ns.Nodup) (hne : ns ≠ []) (ops : List ProviderOp) :
    Ordered ((ns.map .start).reverse ++ ops) ↔
      Ordered ops ∧ closedSince ops = false ∧ ∀ n ∈ ns, started n ops = false := by
  induction ns generalizing ops with
  | nil => exact absurd rfl hne
  | cons n ns ih =>
    obtain ⟨hn, hns⟩ := List.nodup_cons.mp hns
    rw [history_cons]
    by_cases hnil : ns = []
    · subst hnil
      simp only [List.map_nil, List.reverse_nil, List.nil_append, Ordered, List.mem_singleton, forall_eq]
      tauto
    · have hother : ∀ m ∈ ns, started m (.start n :: ops) = started m ops := by
        rintro m hm
        have hne : n ≠ m := by
          rintro rfl
          exact hn hm
        simp [started, hne]
      rw [ih hns hnil, forall₂_congr fun m hm => by rw [hother m hm]]
      simp only [Ordered, closedSince, List.forall_mem_cons]
      tauto

@[simp] theorem readyToStart_stops (ns : List String) (ops : List ProviderOp) :
    readyToStart ((ns.map .stop).reverse ++ ops) = readyToStart ops := by
  induction ns generalizing ops with
  | nil => rfl
  | cons n ns ih => simpa [readyToStart] using ih (.stop n :: ops)

theorem readyToStart_starts {ns : List String} (hne : ns ≠ []) (ops : List ProviderOp) :
    readyToStart ((ns.map .start).reverse ++ ops) = false := by
  induction ns generalizing ops with
  | nil => exact absurd rfl hne
  | cons n ns ih =>
    rw [history_cons]
    by_cases hnil : ns = []
    · subst hnil
      rfl
    · exact ih hnil _

/-! ### Runs of the events side -/

namespace EventsControl

/-- A device with one event stream. -/
def cameraEvents : Device where
  streams := []
  eventStreams := [⟨"camera", some [{ event := .motion, active := true }]⟩]
  eventStreams_nodup := by decide

variable {dev : Device} {e e' : EventsControl} {a : Action} {as : List Action}

def streamNames (dev : Device) : List String := dev.eventStreams.map EventStream.name

theorem streamNames_eq_nil (dev : Device) : streamNames dev = [] ↔ dev.eventStreams = [] := List.map_eq_nil_iff

theorem providers_stopEventStreams (e : EventsControl) :
    (e.stopEventStreams dev).providers = ((streamNames dev).map .stop).reverse ++ e.providers := by
  simp [stopEventStreams, record, streamNames]

theorem providers_startEventStreams (e : EventsControl) :
    (e.startEventStreams dev).providers = ((streamNames dev).map .start).reverse ++ e.providers := by
  simp [startEventStreams, record, streamNames]

/-- The callback that a firing timer of the transport runs. -/
def firing (e : EventsControl) : Action → Option TransportCb
  | .fireTransportTimer t => e.periodic.transport.pendingCb t
  | .getCamEvents _ | .setCamEvents _ _ | .closed => none

def stops (dev : Device) : List ProviderOp := ((streamNames dev).map .stop).reverse

def starts (dev : Device) : List ProviderOp := ((streamNames dev).map .start).reverse

/-- What an action adds to the history of the event streams: a command or a closure stops all of them,
and a `set_cam_events` that enables events starts them again; a postponed start only starts them. -/
def history (dev : Device) (e : EventsControl) : Action → List ProviderOp
  | .getCamEvents _ => stops dev ++ [.command]
  | .setCamEvents _ config => (if config.enabled then starts dev else []) ++ (stops dev ++ [.command])
  | .fireTransportTimer t =>
    if e.firing (.fireTransportTimer t) = some .startProviders ∧ e.eventsConfig.enabled = true then starts dev
    else []
  | .closed => stops dev ++ [.closed]

theorem providers_step (hs : e.step dev a = some e') : e'.providers = e.history dev a ++ e.providers := by
  cases a with
  | getCamEvents reported =>
    obtain rfl := Option.some.inj hs
    simp [onGetCamEventsConfig, providers_stopEventStreams, cancelPeriodicEvents, record, history, stops]
  | setCamEvents reported config =>
    obtain rfl := Option.some.inj hs
    by_cases h : config.enabled
    · simp [onSetCamEventsConfig, schedulePeriodicEvents, h, providers_startEventStreams,
        providers_stopEventStreams, cancelPeriodicEvents, record, history, starts, stops]
    · simp [onSetCamEventsConfig, schedulePeriodicEvents, h, providers_stopEventStreams,
        cancelPeriodicEvents, record, history, stops]
  | fireTransportTimer t =>
    obtain ⟨⟨cb, transport⟩, hf, rfl⟩ := Option.map_eq_some_iff.mp hs
    have hcb : e.firing (.fireTransportTimer t) = some cb :=
      LwsCommon.pendingCb_eq_some.mpr (LwsCommon.sulCb_eq_some hf).1
    cases cb with
    | triggerPeriodicEvent conf => simp [hcb, runTransportCb, history]
    | startProviders =>
      by_cases h : e.eventsConfig.enabled
      · simp [hcb, h, runTransportCb, startProviders, schedulePeriodicEvents, providers_startEventStreams,
          history, starts]
      · simp [hcb, h, runTransportCb, startProviders, schedulePeriodicEvents, history]
  | closed =>
    obtain rfl := Option.some.inj hs
    simp [onClosed, providers_stopEventStreams, record, history, stops]

/-- A postponed start is only pending once a command has been handled. -/
theorem startProviders_step (hs : e.step dev a = some e') {t : ℕ}
    (h : e'.periodic.transport.Pending t .startProviders) :
    e.periodic.transport.Pending t .startProviders ∨ ∃ reported, a = .getCamEvents reported := by
  cases a with
  | getCamEvents reported => exact Or.inr ⟨reported, rfl⟩
  | setCamEvents reported config =>
    obtain rfl := Option.some.inj hs
    have hcancel : ∀ events, ((e.periodic.cancelPeriodicEvents e.eventsConfig.events).schedulePeriodicEvents
        events).transport.Pending t .startProviders → e.periodic.transport.Pending t .startProviders :=
      fun events hp => PeriodicEvents.startProviders_of_cancelPeriodicEvents _ _
        (PeriodicEvents.startProviders_of_schedulePeriodicEvents _ events hp)
    simp only [onSetCamEventsConfig] at h
    split at h
    · exact Or.inl (hcancel _ h)
    · exact Or.inl (hcancel _ h)
  | fireTransportTimer t =>
    obtain ⟨⟨cb, transport⟩, hf, rfl⟩ := Option.map_eq_some_iff.mp hs
    obtain ⟨-, -, hrest⟩ := LwsCommon.sulCb_eq_some hf
    refine Or.inl ((hrest _ _).mp ?_).2
    cases cb with
    | triggerPeriodicEvent conf =>
      simp only [runTransportCb, PeriodicEvents.triggerPeriodicEvent] at h
      split at h
      · simpa [LwsCommon.pending_scheduleTimedCb] using h
      · exact h
    | startProviders =>
      simp only [runTransportCb, startProviders] at h
      refine PeriodicEvents.startProviders_of_schedulePeriodicEvents
        { e.periodic with transport } e.eventsConfig.events ?_
      split at h <;> exact h
  | closed =>
    obtain rfl := Option.some.inj hs
    exact Or.inl h

/-- A postponed start finds the event streams stopped by the last command, where it would start any. -/
def StartsWhenReady (dev : Device) (e : EventsControl) (a : Action) : Prop :=
  e.firing a = some .startProviders → e.eventsConfig.enabled = true → dev.eventStreams ≠ [] →
    readyToStart e.providers = true

instance (dev : Device) (e : EventsControl) (a : Action) : Decidable (StartsWhenReady dev e a) := by
  unfold StartsWhenReady
  have : Decidable (dev.eventStreams ≠ []) := decidable_of_iff (streamNames dev ≠ [])
    (not_congr (streamNames_eq_nil dev))
  infer_instance

/-- What the history says about the event streams, as long as every postponed start was in order. -/
structure Tracked (dev : Device) (e : EventsControl) : Prop where
  ordered : Ordered e.providers
  ready : readyToStart e.providers = true →
    closedSince e.providers = false ∧ ∀ n ∈ streamNames dev, started n e.providers = false
  notReady : readyToStart e.providers = false → streamNames dev ≠ [] →
    e.providers = [] ∨ closedSince e.providers = true ∨ ∀ n ∈ streamNames dev, started n e.providers = true

theorem start_tracked (dev : Device) : Tracked dev start := by
  constructor <;> simp [start, Ordered, readyToStart]

theorem streamNames_nodup (dev : Device) : (streamNames dev).Nodup := dev.eventStreams_nodup

/-- Stopping every event stream after a command leaves them ready to start. -/
theorem tracked_command (h : Ordered e.providers) (he : e'.providers = stops dev ++ .command :: e.providers) :
    Tracked dev e' where
  ordered := by rw [he, stops, ordered_stops]; exact h
  ready _ := by
    rw [he, stops, closedSince_stops]
    refine ⟨rfl, fun n hn => ?_⟩
    rw [started_stops, decide_eq_false (not_not.mpr hn), Bool.false_and]
  notReady hr := by
    rw [he, stops, readyToStart_stops] at hr
    exact Bool.noConfusion hr

/-- Starting event streams that are ready is in order and leaves them running. -/
theorem tracked_starts (h : Tracked dev e) (hr : streamNames dev ≠ [] → readyToStart e.providers = true)
    (he : e'.providers = starts dev ++ e.providers) : Tracked dev e' := by
  by_cases hne : streamNames dev = []
  · have hsame : e'.providers = e.providers := by simpa [starts, hne] using he
    exact ⟨hsame ▸ h.ordered, hsame ▸ h.ready, hsame ▸ h.notReady⟩
  · obtain ⟨hclosed, hstarted⟩ := h.ready (hr hne)
    refine ⟨?_, fun h => ?_, fun _ _ => Or.inr (Or.inr fun n hn => ?_)⟩
    · rw [he]
      exact (ordered_starts (streamNames_nodup dev) hne _).mpr ⟨h.ordered, hclosed, hstarted⟩
    · rw [he, starts, readyToStart_starts hne] at h
      exact Bool.noConfusion h
    · rw [he, starts, started_starts, decide_eq_true hn, Bool.true_or]

theorem Tracked.step (h : Tracked dev e) (hok : StartsWhenReady dev e a) (hs : e.step dev a = some e') :
    Tracked dev e' := by
  have hp := providers_step hs
  cases a with
  | getCamEvents reported => exact tracked_command h.ordered (by simpa [history] using hp)
  | setCamEvents reported config =>
    have hstopped : Tracked dev { e with providers := stops dev ++ .command :: e.providers } :=
      tracked_command h.ordered rfl
    by_cases hc : config.enabled
    · exact tracked_starts hstopped (fun _ => readyToStart_stops _ _) (by simpa [history, hc] using hp)
    · exact tracked_command h.ordered (by simpa [history, hc] using hp)
  | fireTransportTimer t =>
    rw [history] at hp
    split at hp
    · rename_i hfire
      refine tracked_starts h (fun hne => hok hfire.1 hfire.2 ?_) hp
      exact fun hnil => hne ((streamNames_eq_nil dev).mpr hnil)
    · rw [List.nil_append] at hp
      exact ⟨hp ▸ h.ordered, hp ▸ h.ready, hp ▸ h.notReady⟩
  | closed =>
    rw [history, stops, List.append_assoc] at hp
    refine ⟨?_, fun hr => ?_, fun _ _ => Or.inr (Or.inl ?_)⟩
    · rw [hp, ordered_stops]
      exact h.ordered
    · rw [hp, readyToStart_stops] at hr
      exact Bool.noConfusion hr
    · rw [hp, closedSince_stops]
      rfl

/-- A postponed start is only pending once the event streams have a history. -/
def Postponed (e : EventsControl) : Prop :=
  ∀ t, e.periodic.transport.Pending t .startProviders → e.providers ≠ []

theorem Postponed.step (h : e.Postponed) (hs : e.step dev a = some e') : e'.Postponed := by
  intro t hp hnil
  rw [providers_step hs, List.append_eq_nil_iff] at hnil
  rcases startProviders_step hs hp with hp | ⟨reported, rfl⟩
  · exact h t hp hnil.2
  · simp [history] at hnil

/-- A postponed start that is not in order starts an event stream again, or after the closure. -/
theorem not_ordered_of_not_startsWhenReady (h : Tracked dev e) (hpost : e.Postponed)
    (hok : ¬ StartsWhenReady dev e a) (hs : e.step dev a = some e') : ¬ Ordered e'.providers := by
  simp only [StartsWhenReady, Classical.not_imp] at hok
  obtain ⟨hfire, henabled, hne, hr⟩ := hok
  have hnames : streamNames dev ≠ [] := fun hnil => hne ((streamNames_eq_nil dev).mp hnil)
  cases a with
  | fireTransportTimer t =>
    rw [providers_step hs, history, if_pos ⟨hfire, henabled⟩, starts,
      ordered_starts (streamNames_nodup dev) hnames]
    rintro ⟨-, hclosed, hstarted⟩
    rcases h.notReady (Bool.eq_false_iff.mpr hr) hnames with hnil | hc | hall
    · exact hpost t (LwsCommon.pendingCb_eq_some.mp hfire) hnil
    · exact Bool.noConfusion (hclosed.symm.trans hc)
    · obtain ⟨n, hn⟩ := List.exists_mem_of_ne_nil _ hnames
      exact Bool.noConfusion ((hstarted n hn).symm.trans (hall n hn))
  | getCamEvents | setCamEvents | closed => cases hfire

/-- The history only grows, so what is out of order stays so. -/
theorem ordered_of_step (hs : e.step dev a = some e') (h : Ordered e'.providers) : Ordered e.providers := by
  have hstarts : ∀ ops : List ProviderOp, Ordered (starts dev ++ ops) → Ordered ops := by
    intro ops ho
    by_cases hne : streamNames dev = []
    · simpa [starts, hne] using ho
    · exact ((ordered_starts (streamNames_nodup dev) hne ops).mp ho).1
  have hstops : ∀ op, (op = .command ∨ op = .closed) →
      Ordered (stops dev ++ [op] ++ e.providers) → Ordered e.providers := by
    rintro op (rfl | rfl) ho <;> simpa [stops, Ordered] using ho
  rw [providers_step hs] at h
  cases a with
  | getCamEvents reported => exact hstops .command (Or.inl rfl) h
  | setCamEvents reported config =>
    rw [history, List.append_assoc] at h
    split at h
    · exact hstops .command (Or.inl rfl) (hstarts _ h)
    · exact hstops .command (Or.inl rfl) h
  | fireTransportTimer t =>
    rw [history] at h
    split at h
    · exact hstarts _ h
    · exact h
  | closed => exact hstops .closed (Or.inr rfl) h

/-- In a run of the events side the event streams are started in order exactly when every postponed
start finds them stopped by the command that was handled last. -/
theorem providers_ordered_iff (he : exec (step dev) start as = some e) :
    Ordered e.providers ↔ Meets (step dev) (StartsWhenReady dev) start as :=
  good_iff_meets (I := fun u => Tracked dev u ∧ u.Postponed) (B := fun _ => True)
    (fun _ _ _ _ _ => trivial)
    (fun _ _ _ _ h hok hs => ⟨h.1.step hok hs, h.2.step hs⟩)
    (fun _ h => h.1.ordered)
    (fun _ _ _ h hok hs => not_ordered_of_not_startsWhenReady h.1 h.2 hok hs)
    (fun _ _ _ _ hs => ordered_of_step hs)
    trivial ⟨start_tracked dev, by simp [Postponed, start]⟩ he

/-- The cloud reads the configuration, waits for the event streams to start, and turns events on. -/
theorem providers_ordered_get_then_set :
    ∃ e, exec (step cameraEvents) start [.getCamEvents (some ⟨true, []⟩), .fireTransportTimer 0,
        .setCamEvents none ⟨true, []⟩, .closed] = some e ∧ Ordered e.providers := by
  have hrun : ∃ e, exec (step cameraEvents) start [.getCamEvents (some ⟨true, []⟩), .fireTransportTimer 0,
      .setCamEvents none ⟨true, []⟩, .closed] = some e := ⟨_, rfl⟩
  obtain ⟨e, he⟩ := hrun
  exact ⟨e, he, (providers_ordered_iff he).mpr (by decide +kernel)⟩

/-- A `set_cam_events` comes within the second of a `get_cam_events`: the event stream is started twice.
A closure comes within that second: the event stream is started while there is no connection. -/
theorem provider_started_twice :
    (∃ e, exec (step cameraEvents) start [.getCamEvents (some ⟨true, []⟩), .setCamEvents none ⟨true, []⟩,
        .fireTransportTimer 0] = some e ∧ ¬ Ordered e.providers) ∧
      ∃ e, exec (step cameraEvents) start [.getCamEvents (some ⟨true, []⟩), .closed,
        .fireTransportTimer 0] = some e ∧ ¬ Ordered e.providers := by
  refine ⟨⟨_, rfl, ?_⟩, ⟨_, rfl, ?_⟩⟩
  · rintro ⟨hstarted, -⟩
    exact Bool.noConfusion hstarted
  · rintro ⟨-, hclosed, -⟩
    exact Bool.noConfusion hclosed

end EventsControl
end CloudAgent.Control
