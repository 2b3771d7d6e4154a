import CloudAgent.Control.Events
import CloudAgent.Control.Media
import CloudAgent.Lib.Transition

/-! The control side of the manager as one system: commands of the cloud, notified events, timers of
both transports and tasks of the receive thread, handled one at a time. -/
namespace CloudAgent.Control
open Proto Net

/-- The control side of `manager`. -/
structure Manager where
  registered : Bool
  events : EventsControl
  media : Media

namespace Manager

/-- The configuration that `notify_event` finds for an event; while the camera is not registered it does
not look. -/
def lookup (registered : Bool) (events : EventsControl) (event : EventObject) : Option EventConfig :=
  if registered then events.eventsConfig.getEventConfig event else none

/-- Everything that can happen to the control side. `fireTransportTimer` and `fireHttpTimer` are timers
of the two transports, `runRxTask` the next task of the receive thread. -/
inductive Action
  | setRegistered (registered : Bool)
  | streamStart (env : Env) (streamId : String) (reason : StreamReason)
  | streamStop (env : Env) (streamId : String) (reason : StreamReason)
  | setStreamByEvent (streamId : String) (preEvent postEvent : ℤ)
  | memorycardRecording (env : Env) (streamId : String) (enabled : Bool)
  | memorycardSynchronize (env : Env) (requestId : String) (start stop : Time)
  | getCamEvents (env : Env) (reported : Option EventsConfig)
  | setCamEvents (env : Env) (reported : Option EventsConfig) (config : EventsConfig)
  | notifyEvent (env : Env) (event : EventObject)
  | fireTransportTimer (env : Env) (t : ℕ)
  | fireHttpTimer (t : ℕ)
  | runRxTask (env : Env)
  | closed (env : Env)

/-- What loading the configurations does to the event states. -/
def initLoaded (dev : Device) (reported : Option EventsConfig) (events : EventsControl) (m : Media) : Media :=
  if events.eventsConfig.events = [] then
    { m with delivery :=
        m.delivery.initEventsStates (events.toStoredConfigs.ensureLoaded dev reported).eventsConfig.events }
  else m

/-- `on_get_cam_events_config`. -/
def onGetCamEventsConfig (dev : Device) (env : Env) (reported : Option EventsConfig) (c : Manager) : Manager :=
  { c with
    events := c.events.onGetCamEventsConfig dev reported
    media := initLoaded dev reported c.events (c.media.stopEvents env) }

/-- `on_set_cam_events_config`. -/
def onSetCamEventsConfig (dev : Device) (env : Env) (reported : Option EventsConfig) (config : EventsConfig)
    (c : Manager) : Manager :=
  let events := c.events.onSetCamEventsConfig dev reported config
  let m := initLoaded dev reported c.events (c.media.stopEvents env)
  let (_, m) := m.updateStorageStatus dev env (lookup c.registered events)
  { c with
    events
    media := { m with delivery := m.delivery.initEventsStates events.eventsConfig.events } }

/-- The event that `__trigger_periodic_event` notifies. -/
def periodicEvent (env : Env) (conf : EventConfig) : EventObject :=
  { event := conf.event, customEventName := conf.customEventName, time := env.nowTimeUTC }

/-- What a callback of the transport does to the media side. -/
def runTransportCb (dev : Device) (env : Env) (lookup : EventObject → Option EventConfig) (m : Media) :
    TransportCb → Media
  | .triggerPeriodicEvent conf => m.notifyEvent dev env lookup (periodicEvent env conf)
  | .startProviders => (m.updateStorageStatus dev env lookup).2

/-- `on_closed`, after the camera is no longer registered. -/
def onClosed (dev : Device) (env : Env) (c : Manager) : Manager where
  registered := false
  events := c.events.onClosed dev
  media := (c.media.stopAllStreams dev).stopEvents env

/-- One atomic step of the system; a crash ends it. -/
def step (dev : Device) (c : Manager) (a : Action) : Option Manager :=
  if c.media.delivery.crashed then none
  else
    match a with
    | .setRegistered registered => some { c with registered }
    | .streamStart env streamId reason =>
      some { c with
        media := (c.media.onStreamStart dev env (lookup c.registered c.events) streamId reason).2 }
    | .streamStop env streamId reason => some { c with media := c.media.onStreamStop dev env streamId reason }
    | .setStreamByEvent streamId preEvent postEvent =>
      some { c with media := c.media.onSetStreamByEvent dev streamId preEvent postEvent }
    | .memorycardRecording env streamId enabled =>
      some { c with media := c.media.onCamMemorycardRecording dev env streamId enabled }
    | .memorycardSynchronize env requestId start stop =>
      some { c with media := c.media.onCamMemorycardSynchronize dev env requestId start stop }
    | .getCamEvents env reported => some (c.onGetCamEventsConfig dev env reported)
    | .setCamEvents env reported config => some (c.onSetCamEventsConfig dev env reported config)
    | .notifyEvent env event =>
      some { c with media := c.media.notifyEvent dev env (lookup c.registered c.events) event }
    | .fireTransportTimer env t =>
      (c.events.periodic.transport.sulCb t).map fun (cb, transport) =>
        { c with
          events := { c.events with periodic.transport := transport }.runTransportCb dev cb
          media := runTransportCb dev env (lookup c.registered c.events) c.media cb }
    | .fireHttpTimer t =>
      (c.media.delivery.http.sulCb t).map fun (cb, http) =>
        let (task, delivery) := { c.media.delivery with http }.runHttpCb cb
        { c with media := { c.media with delivery, rxTasks := c.media.rxTasks ++ [task] } }
    | .runRxTask env =>
      match c.media.rxTasks with
      | [] => none
      | task :: rxTasks =>
        some { c with
          media := { c.media with rxTasks }.runRxTask dev env (lookup c.registered c.events) task }
    | .closed env => some (c.onClosed dev env)

/-- The control side once the manager is started. -/
def start (dev : Device) : Manager where
  registered := false
  events := EventsControl.start
  media := Media.start dev

/-- Everything that an action can do to the media side. -/
inductive MediaStep (dev : Device) (c : Manager) : Action → Media → Prop
  | setRegistered (registered) : MediaStep dev c (.setRegistered registered) c.media
  | streamStart (env streamId reason) :
    MediaStep dev c (.streamStart env streamId reason)
      (c.media.onStreamStart dev env (lookup c.registered c.events) streamId reason).2
  | streamStop (env streamId reason) :
    MediaStep dev c (.streamStop env streamId reason) (c.media.onStreamStop dev env streamId reason)
  | setStreamByEvent (streamId preEvent postEvent) :
    MediaStep dev c (.setStreamByEvent streamId preEvent postEvent)
      (c.media.onSetStreamByEvent dev streamId preEvent postEvent)
  | memorycardRecording (env streamId enabled) :
    MediaStep dev c (.memorycardRecording env streamId enabled)
      (c.media.onCamMemorycardRecording dev env streamId enabled)
  | memorycardSynchronize (env requestId start stop) :
    MediaStep dev c (.memorycardSynchronize env requestId start stop)
      (c.media.onCamMemorycardSynchronize dev env requestId start stop)
  | getCamEvents (env reported) :
    MediaStep dev c (.getCamEvents env reported) (c.onGetCamEventsConfig dev env reported).media
  | setCamEvents (env reported config) :
    MediaStep dev c (.setCamEvents env reported config) (c.onSetCamEventsConfig dev env reported config).media
  | notifyEvent (env event) :
    MediaStep dev c (.notifyEvent env event)
      (c.media.notifyEvent dev env (lookup c.registered c.events) event)
  | transportTimer (env t cb) (pending : (c.events.periodic.transport.sulCb t).any (·.1 = cb)) :
    MediaStep dev c (.fireTransportTimer env t)
      (runTransportCb dev env (lookup c.registered c.events) c.media cb)
  | httpTimer (t cb http) :
    MediaStep dev c (.fireHttpTimer t)
      { c.media with
        delivery := ({ c.media.delivery with http }.runHttpCb cb).2
        rxTasks := c.media.rxTasks ++ [({ c.media.delivery with http }.runHttpCb cb).1] }
  | rxTask (env task rxTasks) (next : c.media.rxTasks = task :: rxTasks) :
    MediaStep dev c (.runRxTask env)
      ({ c.media with rxTasks }.runRxTask dev env (lookup c.registered c.events) task)
  | closed (env) : MediaStep dev c (.closed env) (c.onClosed dev env).media

theorem mediaStep_of_step {dev : Device} {c c' : Manager} {a : Action} (h : c.step dev a = some c') :
    c.media.delivery.crashed = false ∧ MediaStep dev c a c'.media := by
  unfold step at h
  split_ifs at h with hcrash
  refine ⟨by simpa using hcrash, ?_⟩
  cases a with
  | setRegistered registered =>
    obtain rfl := Option.some.inj h
    exact .setRegistered registered
  | streamStart env streamId reason =>
    obtain rfl := Option.some.inj h
    exact .streamStart env streamId reason
  | streamStop env streamId reason =>
    obtain rfl := Option.some.inj h
    exact .streamStop env streamId reason
  | setStreamByEvent streamId preEvent postEvent =>
    obtain rfl := Option.some.inj h
    exact .setStreamByEvent streamId preEvent postEvent
  | memorycardRecording env streamId enabled =>
    obtain rfl := Option.some.inj h
    exact .memorycardRecording env streamId enabled
  | memorycardSynchronize env requestId start stop =>
    obtain rfl := Option.some.inj h
    exact .memorycardSynchronize env requestId start stop
  | getCamEvents env reported =>
    obtain rfl := Option.some.inj h
    exact .getCamEvents env reported
  | setCamEvents env reported config =>
    obtain rfl := Option.some.inj h
    exact .setCamEvents env reported config
  | notifyEvent env event =>
    obtain rfl := Option.some.inj h
    exact .notifyEvent env event
  | fireTransportTimer env t =>
    obtain ⟨⟨cb, transport⟩, hcb, rfl⟩ := Option.map_eq_some_iff.mp h
    exact .transportTimer env t cb (by simp [hcb])
  | fireHttpTimer t =>
    obtain ⟨⟨cb, http⟩, -, rfl⟩ := Option.map_eq_some_iff.mp h
    exact .httpTimer t cb http
  | runRxTask env =>
    dsimp only at h
    split at h
    · cases h
    · rename_i task rxTasks hnext
      obtain rfl := Option.some.inj h
      exact .rxTask env task rxTasks hnext
  | closed env =>
    obtain rfl := Option.some.inj h
    exact .closed env

end Manager
end CloudAgent.Control
