import CloudAgent.Control.Events.Settings

/-! Which events are stored for which event stream, and where a triggered event goes in consequence. -/
namespace CloudAgent.Control
open Proto Transition

/-- The event stream reports this event. -/
def EventStream.provides (es : EventStream) (c : EventConfig) : Bool := (es.events.getD []).any c.nameEq

/-- The list stored for the event stream `k` has this event. -/
def storesEvent (m : StdMap (List EventConfig)) (k : String) (c : EventConfig) : Bool :=
  ((m.lookup k).getD []).any c.nameEq

variable {dev : Device} {k : String} {c d : EventConfig}

@[simp] theorem storesEvent_empty (k : String) (c : EventConfig) : storesEvent ∅ k c = false := rfl

theorem EventStream.provides_congr (es : EventStream) (h : c.nameEq d = true) : es.provides c = es.provides d := by
  rw [provides, provides, nameEq_congr h]

@[simp] theorem updateEventStreamConfigs_fst (name : String) (news : List EventConfig)
    (m : StdMap (List EventConfig)) : (updateEventStreamConfigs name news m).1 = true := by
  unfold updateEventStreamConfigs
  split
  · rfl
  · exact updateEventsConfigs_fst _ _

theorem storesEvent_updateEventStreamConfigs (name : String) (news : List EventConfig)
    (m : StdMap (List EventConfig)) (k : String) (c : EventConfig) :
    storesEvent (updateEventStreamConfigs name news m).2 k c =
      (storesEvent m k c || (decide (name = k) && news.any c.nameEq)) := by
  unfold updateEventStreamConfigs storesEvent
  by_cases hk : name = k
  · subst hk
    cases hm : m.lookup name with
    | none => simp
    | some dest => simp [any_updateEventsConfigs]
  · cases hm : m.lookup name <;> simp [hk, AList.lookup_insert_ne (Ne.symm hk)]

namespace StoredConfigs

theorem storesEvent_loadEventStream (s : StoredConfigs) (es : EventStream) (k : String) (c : EventConfig) :
    storesEvent (s.loadEventStream es).eventStreamsConfigs k c =
      (storesEvent s.eventStreamsConfigs k c || (decide (es.name = k) && es.provides c)) := by
  unfold loadEventStream EventStream.provides
  cases he : es.events with
  | none => simp
  | some news =>
    have hpair : updateEventStreamConfigs es.name news s.eventStreamsConfigs =
        (true, (updateEventStreamConfigs es.name news s.eventStreamsConfigs).2) :=
      Prod.ext (updateEventStreamConfigs_fst _ _ _) rfl
    simp only [Option.getD_some]
    rw [hpair]
    exact storesEvent_updateEventStreamConfigs _ _ _ _ _

/-- Loading adds to the list of each event stream what it reports. -/
theorem storesEvent_loadEventsConfigs (s : StoredConfigs) (reported : Option EventsConfig) (k : String)
    (c : EventConfig) :
    storesEvent (s.loadEventsConfigs dev reported).eventStreamsConfigs k c =
      (storesEvent s.eventStreamsConfigs k c ||
        dev.eventStreams.any fun es => decide (es.name = k) && es.provides c) := by
  exact foldl_or (fun s : StoredConfigs => storesEvent s.eventStreamsConfigs k c) _
    (fun s es => storesEvent_loadEventStream s es k c) dev.eventStreams _

/-- Settings of the cloud are added to the list of every event stream. -/
theorem storesEvent_applyConfig (s : StoredConfigs) (config : EventsConfig) (k : String) (c : EventConfig) :
    storesEvent (s.applyConfig dev config).eventStreamsConfigs k c =
      (storesEvent s.eventStreamsConfigs k c ||
        dev.eventStreams.any fun es => decide (es.name = k) && config.events.any c.nameEq) := by
  exact foldl_or (storesEvent · k c) _
    (fun m es => storesEvent_updateEventStreamConfigs es.name config.events m k c) dev.eventStreams _

end StoredConfigs

/-! ### Runs of the events side -/

namespace EventsControl

/-- A command that configures events. -/
def Action.isCommand : Action → Bool
  | .getCamEvents _ | .setCamEvents _ _ => true
  | .fireTransportTimer _ | .closed => false

/-- The configurations that the cloud sends with an action. -/
def Action.requested : Action → List EventConfig
  | .setCamEvents _ config => config.events
  | .getCamEvents _ | .fireTransportTimer _ | .closed => []

/-- Whether an action loads the configurations of the device first. -/
def Action.loads (s : StoredConfigs) (a : Action) : Bool := a.isCommand && s.eventsConfig.events = []

variable {e e' : EventsControl} {a : Action} {as : List Action}

/-- All that an action does to the stored configurations. -/
def Action.configs (dev : Device) (s : StoredConfigs) : Action → StoredConfigs
  | .getCamEvents reported => s.ensureLoaded dev reported
  | .setCamEvents reported config => (s.ensureLoaded dev reported).applyConfig dev config
  | .fireTransportTimer _ | .closed => s

theorem toStoredConfigs_step (hs : e.step dev a = some e') :
    e'.toStoredConfigs = a.configs dev e.toStoredConfigs := by
  cases a with
  | getCamEvents reported =>
    obtain rfl := Option.some.inj hs
    rfl
  | setCamEvents reported config =>
    obtain rfl := Option.some.inj hs
    exact toStoredConfigs_onSetCamEventsConfig
  | fireTransportTimer t =>
    obtain ⟨⟨cb, transport⟩, -, rfl⟩ := Option.map_eq_some_iff.mp hs
    cases cb with
    | triggerPeriodicEvent conf => rfl
    | startProviders =>
      simp only [runTransportCb, startProviders]
      split <;> rfl
  | closed =>
    obtain rfl := Option.some.inj hs
    rfl

/-- What a step adds to the lists of the event streams. -/
theorem storesEvent_step (hs : e.step dev a = some e') (k : String) (c : EventConfig) :
    storesEvent e'.eventStreamsConfigs k c =
      (storesEvent e.eventStreamsConfigs k c ||
        dev.eventStreams.any fun es => decide (es.name = k) &&
          (a.loads e.toStoredConfigs && es.provides c || a.requested.any c.nameEq)) := by
  rw [toStoredConfigs_step hs]
  cases a with
  | getCamEvents reported =>
    by_cases h : e.eventsConfig.events = []
    · simp [Action.configs, Action.loads, Action.isCommand, Action.requested, StoredConfigs.ensureLoaded, h,
        StoredConfigs.storesEvent_loadEventsConfigs]
    · simp [Action.configs, Action.loads, Action.requested, StoredConfigs.ensureLoaded, h]
  | setCamEvents reported config =>
    rw [Action.configs, StoredConfigs.storesEvent_applyConfig]
    by_cases h : e.eventsConfig.events = []
    · rw [StoredConfigs.ensureLoaded, if_pos h, StoredConfigs.storesEvent_loadEventsConfigs, Bool.or_assoc]
      simp only [Action.loads, Action.isCommand, Action.requested, h, decide_true, Bool.true_and]
      rw [Bool.eq_iff_iff]
      simp only [Bool.or_eq_true, List.any_eq_true, Bool.and_eq_true]
      grind
    · simp [Action.loads, Action.requested, StoredConfigs.ensureLoaded, h]
  | fireTransportTimer t => simp [Action.configs, Action.loads, Action.isCommand, Action.requested]
  | closed => simp [Action.configs, Action.loads, Action.isCommand, Action.requested]

/-- The configurations that the cloud sends in a run. -/
def requestedIn (as : List Action) : List EventConfig := as.flatMap Action.requested

/-- A list only has what was in it, what its event stream reports, and what the cloud sent. -/
theorem storesEvent_of_exec (he : exec (step dev) e as = some e') {k : String} {c : EventConfig}
    (h : storesEvent e'.eventStreamsConfigs k c = true) :
    storesEvent e.eventStreamsConfigs k c = true ∨
      ∃ es ∈ dev.eventStreams, es.name = k ∧
        (es.provides c = true ∨ (requestedIn as).any c.nameEq = true) := by
  induction as generalizing e with
  | nil =>
    obtain rfl : e = e' := by simpa using he
    exact Or.inl h
  | cons a as ih =>
    obtain ⟨u, hu, he⟩ := exec_cons_eq_some.mp he
    rcases ih he with h | ⟨es, hes, hk, h⟩
    · rw [storesEvent_step hu] at h
      simp only [Bool.or_eq_true, List.any_eq_true, Bool.and_eq_true, decide_eq_true_eq] at h
      rcases h with h | ⟨es, hes, hk, h⟩
      · exact Or.inl h
      · refine Or.inr ⟨es, hes, hk, h.imp And.right fun h => ?_⟩
        simp only [requestedIn, List.flatMap_cons, List.any_append, Bool.or_eq_true, List.any_eq_true]
        exact Or.inl h
    · refine Or.inr ⟨es, hes, hk, h.imp_right fun h => ?_⟩
      simp only [requestedIn, List.flatMap_cons, List.any_append, Bool.or_eq_true] at h ⊢
      exact Or.inr h

/-- Nothing leaves a list, and every list gets all that the cloud sends. -/
theorem storesEvent_exec (he : exec (step dev) e as = some e') {es : EventStream}
    (hes : es ∈ dev.eventStreams) {c : EventConfig}
    (h : storesEvent e.eventStreamsConfigs es.name c = true ∨ (requestedIn as).any c.nameEq = true) :
    storesEvent e'.eventStreamsConfigs es.name c = true := by
  induction as generalizing e with
  | nil =>
    obtain rfl : e = e' := by simpa using he
    simpa [requestedIn] using h
  | cons a as ih =>
    obtain ⟨u, hu, he⟩ := exec_cons_eq_some.mp he
    refine ih he ?_
    rw [storesEvent_step hu]
    simp only [requestedIn, List.flatMap_cons, List.any_append, Bool.or_eq_true] at h
    simp only [Bool.or_eq_true, List.any_eq_true (p := fun es : EventStream => _), Bool.and_eq_true,
      decide_eq_true_eq]
    rcases h with h | h | h
    · exact Or.inl (Or.inl h)
    · exact Or.inl (Or.inr ⟨es, hes, rfl, Or.inr h⟩)
    · exact Or.inr h

/-- Every event stream's list has the events that it reports. -/
def Loaded (dev : Device) (s : StoredConfigs) : Prop :=
  ∀ es ∈ dev.eventStreams, ∀ c, es.provides c = true → storesEvent s.eventStreamsConfigs es.name c = true

/-- The first command that configures events loads what the device reports. -/
theorem loaded_step (h : e.eventsConfig.events = [] ∨ Loaded dev e.toStoredConfigs)
    (hs : e.step dev a = some e') :
    (e'.eventsConfig.events = [] ∨ Loaded dev e'.toStoredConfigs) ∧
      (a.isCommand = true → Loaded dev e'.toStoredConfigs) := by
  have hkeep : Loaded dev e.toStoredConfigs → Loaded dev e'.toStoredConfigs := fun h es hes c hc => by
    rw [storesEvent_step hs, h es hes c hc, Bool.true_or]
  rcases h with h | h
  · by_cases hc : a.isCommand = true
    · have hl : Loaded dev e'.toStoredConfigs := fun es hes c hp => by
        rw [storesEvent_step hs, Bool.or_eq_true, List.any_eq_true]
        exact Or.inr ⟨es, hes, by simp [Action.loads, hc, h, hp]⟩
      exact ⟨Or.inr hl, fun _ => hl⟩
    · have hsame : e'.toStoredConfigs = e.toStoredConfigs := by
        rw [toStoredConfigs_step hs]
        cases a <;> first | rfl | exact absurd rfl hc
      exact ⟨Or.inl (hsame ▸ h), fun h => absurd h hc⟩
  · exact ⟨Or.inr (hkeep h), fun _ => hkeep h⟩

theorem loaded_exec (h : e.eventsConfig.events = [] ∨ Loaded dev e.toStoredConfigs)
    (he : exec (step dev) e as = some e')
    (hcmd : Loaded dev e.toStoredConfigs ∨ ∃ a ∈ as, a.isCommand = true) : Loaded dev e'.toStoredConfigs := by
  induction as generalizing e with
  | nil =>
    obtain rfl : e = e' := by simpa using he
    simpa using hcmd
  | cons a as ih =>
    obtain ⟨u, hu, he⟩ := exec_cons_eq_some.mp he
    obtain ⟨hready, hloaded⟩ := loaded_step h hu
    refine ih hready he ?_
    rcases hcmd with hl | ⟨b, hb, hc⟩
    · refine Or.inl fun es hes c hc => ?_
      rw [storesEvent_step hu, hl es hes c hc, Bool.true_or]
    · rcases List.mem_cons.mp hb with rfl | hb
      · exact Or.inl (hloaded hc)
      · exact Or.inr ⟨b, hb, hc⟩

/-- The events stored for each event stream are those that it reports. -/
def KeepsItsEvents (dev : Device) (e : EventsControl) : Prop :=
  ∀ es ∈ dev.eventStreams, ∀ c, storesEvent e.eventStreamsConfigs es.name c = es.provides c

/-- The event that a text names, as a configuration without settings. -/
def namedEvent (event : String) : EventConfig :=
  { event := (EventObject.ofJson event).event
    customEventName := (EventObject.ofJson event).customEventName }

/-- A triggerable event goes to the event stream that reports it, and to the common callback where
there is none. -/
def RoutesToProvider (dev : Device) (e : EventsControl) : Prop :=
  ∀ event conf, e.eventsConfig.getEventConfig (EventObject.ofJson event) = some conf →
    conf.caps.trigger = true → conf.active = true →
      (∀ es ∈ dev.eventStreams, es.provides (namedEvent event) = true →
          e.onTriggerEvent dev event = .eventStream es.name) ∧
        ((∀ es ∈ dev.eventStreams, es.provides (namedEvent event) = false) →
          e.onTriggerEvent dev event = .callback)

theorem lookupEventStreamByEvent_eq (e : EventsControl) (event : String) :
    e.lookupEventStreamByEvent dev (EventObject.ofJson event) =
      (e.eventStreamsConfigs.findKey fun configs => configs.any (namedEvent event).nameEq).bind
        dev.lookupEventStream := rfl

theorem any_lookup (m : StdMap (List EventConfig)) (k : String) (c : EventConfig) :
    (m.lookup k).any (fun configs => configs.any c.nameEq) = storesEvent m k c := by
  cases h : m.lookup k <;> simp [storesEvent, h]

/-- No event is reported by two event streams. -/
def DisjointEvents (dev : Device) : Prop :=
  dev.eventStreams.Pairwise fun a b => ∀ c ∈ a.events.getD [], b.provides c = false

instance (dev : Device) : Decidable (DisjointEvents dev) := by unfold DisjointEvents; infer_instance

theorem DisjointEvents.unique (h : DisjointEvents dev) {es es' : EventStream} (hes : es ∈ dev.eventStreams)
    (hes' : es' ∈ dev.eventStreams) {c : EventConfig} (hc : es.provides c = true)
    (hc' : es'.provides c = true) : es = es' := by
  by_contra hne
  have hsymm : Std.Symm fun a b : EventStream => ∀ c, ¬ (a.provides c = true ∧ b.provides c = true) :=
    ⟨fun a b hab c hc => hab c hc.symm⟩
  have hpair : dev.eventStreams.Pairwise fun a b => ∀ c, ¬ (a.provides c = true ∧ b.provides c = true) := by
    refine h.imp fun {a b} hab c hc => ?_
    obtain ⟨d, hd, hcd⟩ := List.any_eq_true.mp hc.1
    have hb := hab d hd
    rw [← b.provides_congr hcd, hc.2] at hb
    exact Bool.noConfusion hb
  exact hpair.forall hes hes' hne c ⟨hc, hc'⟩

/-- Where the lists are what the event streams report, a trigger finds the stream of its event. -/
theorem routesToProvider (hdisj : DisjointEvents dev)
    (hstored : ∀ k c, storesEvent e.eventStreamsConfigs k c = true →
      ∃ es ∈ dev.eventStreams, es.name = k ∧ es.provides c = true)
    (hkeep : KeepsItsEvents dev e) : RoutesToProvider dev e := by
  intro event conf hconf htrigger hactive
  refine ⟨fun es hes hp => ?_, fun hnone => ?_⟩
  · have hfind : (e.eventStreamsConfigs.findKey fun configs => configs.any (namedEvent event).nameEq) =
        some es.name := by
      refine StdMap.findKey_eq_some ?_ fun j hj => ?_
      · rw [any_lookup, hkeep es hes, hp]
      · rw [any_lookup] at hj
        obtain ⟨es', hes', rfl, hp'⟩ := hstored j _ hj
        rw [hdisj.unique hes' hes hp' hp]
    have hname : ∃ es', dev.lookupEventStream es.name = some es' ∧ es'.name = es.name := by
      cases hl : dev.lookupEventStream es.name with
      | none => simpa using List.find?_eq_none.mp hl es hes
      | some es' => exact ⟨es', rfl, by simpa using List.find?_some hl⟩
    obtain ⟨es', hl, hn⟩ := hname
    simp only [onTriggerEvent, hconf, htrigger, hactive, Bool.and_self, if_true]
    rw [lookupEventStreamByEvent_eq, hfind, Option.bind_some, hl, ← hn]
  · have hfind : (e.eventStreamsConfigs.findKey fun configs => configs.any (namedEvent event).nameEq) =
        none := by
      refine StdMap.findKey_eq_none.mpr fun k => ?_
      rw [any_lookup]
      by_contra hs
      obtain ⟨es, hes, -, hp⟩ := hstored k _ (by simpa using hs)
      rw [hnone es hes] at hp
      exact Bool.noConfusion hp
    simp only [onTriggerEvent, hconf, htrigger, hactive, Bool.and_self, if_true]
    rw [lookupEventStreamByEvent_eq, hfind, Option.bind_none]

/-- Once a command has configured events, the stored lists are the reported ones and triggers go to the
provider exactly when every event that the cloud ever sent is reported by every event stream. -/
theorem events_stay_with_their_streams (hdisj : DisjointEvents dev)
    (he : exec (step dev) start as = some e) (hcmd : ∃ a ∈ as, a.isCommand = true) :
    (KeepsItsEvents dev e ∧ RoutesToProvider dev e) ↔
      ∀ c ∈ requestedIn as, ∀ es ∈ dev.eventStreams, es.provides c = true := by
  constructor
  · rintro ⟨hkeep, -⟩ c hc es hes
    rw [← hkeep es hes c]
    exact storesEvent_exec he hes (Or.inr (List.any_eq_true.mpr ⟨c, hc, nameEq_refl c⟩))
  · intro hreq
    have hreq' : ∀ c, (requestedIn as).any c.nameEq = true → ∀ es ∈ dev.eventStreams,
        es.provides c = true := by
      intro c hc es hes
      obtain ⟨d, hd, hcd⟩ := List.any_eq_true.mp hc
      rw [es.provides_congr hcd]
      exact hreq d hd es hes
    have hstored : ∀ k c, storesEvent e.eventStreamsConfigs k c = true →
        ∃ es ∈ dev.eventStreams, es.name = k ∧ es.provides c = true := by
      intro k c hs
      rcases storesEvent_of_exec he hs with h | ⟨es, hes, hk, h⟩
      · simp [start] at h
      · exact ⟨es, hes, hk, h.elim id fun h => hreq' c h es hes⟩
    have hkeep : KeepsItsEvents dev e := by
      intro es hes c
      rw [Bool.eq_iff_iff]
      constructor
      · intro hs
        obtain ⟨es', hes', hk, hp⟩ := hstored _ _ hs
        rwa [← List.inj_on_of_nodup_map dev.eventStreams_nodup hes' hes hk]
      · exact loaded_exec (Or.inl rfl) he (Or.inr hcmd) es hes c
    exact ⟨hkeep, routesToProvider hdisj hstored hkeep⟩

/-- A triggerable event that a device reports. -/
def triggerable (event : EventType) (customEventName : String) : EventConfig :=
  { event, customEventName, active := true, caps := { trigger := true } }

def camera : EventStream := ⟨"camera", some [triggerable .motion unsetString]⟩

def door : EventStream := ⟨"door", some [triggerable .custom "bell"]⟩

def doorAndCamera : Device where
  streams := []
  eventStreams := [camera, door]
  eventStreams_nodup := by decide

def cameraOnly : Device where
  streams := []
  eventStreams := [camera]
  eventStreams_nodup := by decide

/-- With one event stream the cloud may change the settings of its events. -/
theorem events_stay_with_their_streams_camera :
    ∃ e, exec (step cameraOnly) start
        [.getCamEvents none, .setCamEvents none ⟨true, [triggerable .motion unsetString]⟩] = some e ∧
      KeepsItsEvents cameraOnly e ∧ RoutesToProvider cameraOnly e := by
  obtain ⟨e, he⟩ : ∃ e, exec (step cameraOnly) start
      [.getCamEvents none, .setCamEvents none ⟨true, [triggerable .motion unsetString]⟩] = some e := ⟨_, rfl⟩
  exact ⟨e, he, (events_stay_with_their_streams (by decide) he ⟨_, List.mem_cons_self, rfl⟩).mpr (by decide)⟩

/-- The cloud turns the bell off and on again: the bell is then stored for the camera as well, and a
triggered bell rings at the camera. -/
theorem trigger_goes_to_another_stream :
    ∃ e, exec (step doorAndCamera) start
        [.getCamEvents none, .setCamEvents none ⟨true, [triggerable .custom "bell"]⟩] = some e ∧
      DisjointEvents doorAndCamera ∧ ¬ KeepsItsEvents doorAndCamera e ∧
      e.onTriggerEvent doorAndCamera "bell" = .eventStream "camera" ∧ ¬ RoutesToProvider doorAndCamera e := by
  refine ⟨_, rfl, by decide, fun h => ?_, by decide +kernel, fun h => ?_⟩
  · have hcamera := h camera (by simp [doorAndCamera]) (triggerable .custom "bell")
    revert hcamera
    decide +kernel
  · have hbell := (h "bell" (triggerable .custom "bell") (by decide +kernel) rfl rfl).1 door
      (by simp [doorAndCamera]) (by decide +kernel)
    revert hbell
    decide +kernel

end EventsControl
end CloudAgent.Control
