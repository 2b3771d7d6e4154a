import CloudAgent.Control.Device
import CloudAgent.Lib.StdMap
import CloudAgent.Net.LwsCommon
import Mathlib.Algebra.Group.Nat.Defs

/-! The events side of the manager: the event configurations that the device and the cloud agree on,
the timers of the periodic events, and the event streams that produce the others. -/
namespace CloudAgent.Control
open Proto Net

/-- The callbacks that the events side hands to the transport's timers. `startProviders` is the one
that `on_get_cam_events_config` postpones by a second. -/
inductive TransportCb
  | triggerPeriodicEvent (conf : EventConfig)
  | startProviders
  deriving DecidableEq

/-- What happens to the event streams, and the moments that say when they may be started: a command
that configures events is handled, the connection is closed. -/
inductive ProviderOp
  | start (name : String)
  | stop (name : String)
  | command
  | closed
  deriving DecidableEq

/-- `periodic_events_` and the timers of the transport that hold callbacks of the events side. -/
structure PeriodicEvents where
  periodicEvents : StdMap ℕ
  transport : LwsCommon TransportCb

/-- The configurations of all events, and for each event stream of those that it provides. -/
structure StoredConfigs where
  eventsConfig : EventsConfig
  eventStreamsConfigs : StdMap (List EventConfig)

/-- `providers` records, the latest first, what happened to the event streams. -/
structure EventsControl extends StoredConfigs where
  periodic : PeriodicEvents
  providers : List ProviderOp

/-! ### Merging configurations -/

/-- The settings of a stored configuration after an update; its capabilities stay. -/
def applySettings (new old : EventConfig) : EventConfig :=
  { old with
    active := new.active
    period := new.period
    snapshot := new.snapshot && old.snapshot
    stream := new.stream && old.stream }

/-- One round of the loop of `_update_events_configs`: the first stored configuration of this event
is updated, or the new one is appended. `false` is the early return. -/
def updateEventConfig (new : EventConfig) : List EventConfig → Bool × List EventConfig
  | [] => (true, [new])
  | old :: dest =>
    if new.nameEq old then
      if new.capsEq old then (true, applySettings new old :: dest)
      else (false, { old with active := new.active } :: dest)
    else
      let (ok, dest) := updateEventConfig new dest
      (ok, old :: dest)

/-- `_update_events_configs`. -/
def updateEventsConfigs : List EventConfig → List EventConfig → Bool × List EventConfig
  | [], dest => (true, dest)
  | new :: news, dest =>
    match updateEventConfig new dest with
    | (true, dest) => updateEventsConfigs news dest
    | (false, dest) => (false, dest)

/-- `_update_event_stream_configs`. -/
def updateEventStreamConfigs (streamName : String) (news : List EventConfig)
    (m : StdMap (List EventConfig)) : Bool × StdMap (List EventConfig) :=
  match m.lookup streamName with
  | none => (true, m.insert streamName news)
  | some dest =>
    let (ok, dest) := updateEventsConfigs news dest
    (ok, m.insert streamName dest)

/-- The report of the connection quality, sent as an event of its own. -/
def qosEventConfig (period : ℤ) : EventConfig where
  event := .custom
  customEventName := "qos-report"
  active := true
  period := period
  caps := { periodic := true }

/-- `_append_internal_custom_events`. -/
def appendInternalCustomEvents (dev : Device) (events : List EventConfig) : List EventConfig :=
  match dev.qosReportPeriod with
  | none => events
  | some period =>
    if events.any (qosEventConfig period).nameEq then (updateEventsConfigs [qosEventConfig period] events).2
    else events ++ [qosEventConfig period]

namespace StoredConfigs

/-- One round of the loop of `_load_events_configs` over the event streams. The configuration of the
event stream is refused before that of the manager is touched. -/
def loadEventStream (c : StoredConfigs) (es : EventStream) : StoredConfigs :=
  match es.events with
  | none => c
  | some streamEvents =>
    match updateEventStreamConfigs es.name streamEvents c.eventStreamsConfigs with
    | (false, eventStreamsConfigs) => { c with eventStreamsConfigs }
    | (true, eventStreamsConfigs) =>
      { c with
        eventStreamsConfigs
        eventsConfig.events := (updateEventsConfigs streamEvents c.eventsConfig.events).2 }

/-- `_load_events_configs` without the event states. `reported` is what the common callback made of
the configuration, if it returned true. -/
def loadEventsConfigs (dev : Device) (reported : Option EventsConfig) (c : StoredConfigs) : StoredConfigs :=
  let config := reported.getD {}
  let config := { config with events := appendInternalCustomEvents dev config.events }
  dev.eventStreams.foldl loadEventStream { c with eventsConfig := config }

/-- The configuration is loaded before the settings of the cloud are looked at. -/
def ensureLoaded (dev : Device) (reported : Option EventsConfig) (c : StoredConfigs) : StoredConfigs :=
  if c.eventsConfig.events = [] then c.loadEventsConfigs dev reported else c

/-- The settings of the cloud are merged into the list of every event stream, then into that of the
manager. -/
def applyConfig (dev : Device) (config : EventsConfig) (c : StoredConfigs) : StoredConfigs :=
  { eventStreamsConfigs := dev.eventStreams.foldl
      (fun m es => (updateEventStreamConfigs es.name config.events m).2) c.eventStreamsConfigs
    eventsConfig :=
      { enabled := config.enabled
        events := (updateEventsConfigs config.events c.eventsConfig.events).2 } }

end StoredConfigs

/-! ### Periodic events -/

/-- A number of seconds in a `size_t`. -/
def periodSeconds (conf : EventConfig) : ℕ := (conf.period % 2 ^ 64).toNat

namespace PeriodicEvents

/-- `_cancel_periodic_event`. -/
def cancelPeriodicEvent (p : PeriodicEvents) (conf : EventConfig) : PeriodicEvents :=
  match p.periodicEvents.lookup conf.name with
  | none => p
  | some t =>
    { transport := p.transport.cancelTimedCb t, periodicEvents := p.periodicEvents.erase conf.name }

/-- `_cancel_periodic_events`. -/
def cancelPeriodicEvents (p : PeriodicEvents) (events : List EventConfig) : PeriodicEvents :=
  events.foldl cancelPeriodicEvent p

/-- `_schedule_periodic_event`: the new timer is scheduled before the old one is canceled. -/
def schedulePeriodicEvent (p : PeriodicEvents) (conf : EventConfig) : PeriodicEvents :=
  if conf.caps.periodic && conf.active then
    if periodSeconds conf = 0 then p
    else
      let (t, transport) :=
        p.transport.scheduleTimedCb (.triggerPeriodicEvent conf) (periodSeconds conf * 1000 % 2 ^ 64)
      let transport := match p.periodicEvents.lookup conf.name with
        | none => transport
        | some old => transport.cancelTimedCb old
      { transport, periodicEvents := p.periodicEvents.insert conf.name t }
  else p

/-- `_schedule_periodic_events`. -/
def schedulePeriodicEvents (p : PeriodicEvents) (events : List EventConfig) : PeriodicEvents :=
  events.foldl (fun p conf => if conf.caps.periodic then p.schedulePeriodicEvent conf else p) p

/-- The end of `__trigger_periodic_event`: the event is scheduled again as it was captured, for a
delay computed in an `int`. -/
def triggerPeriodicEvent (p : PeriodicEvents) (conf : EventConfig) : PeriodicEvents :=
  if conf.caps.periodic then
    let (t, transport) := p.transport.scheduleTimedCb (.triggerPeriodicEvent conf)
      (Int.bmod (conf.period * 1000) (2 ^ 32) % 2 ^ 64).toNat
    { transport, periodicEvents := p.periodicEvents.insert conf.name t }
  else p

end PeriodicEvents

namespace EventsControl

/-- `_cancel_periodic_events` of the stored configuration. -/
def cancelPeriodicEvents (e : EventsControl) : EventsControl :=
  { e with periodic := e.periodic.cancelPeriodicEvents e.eventsConfig.events }

/-- `_schedule_periodic_events` of the stored configuration. -/
def schedulePeriodicEvents (e : EventsControl) : EventsControl :=
  { e with periodic := e.periodic.schedulePeriodicEvents e.eventsConfig.events }

/-! ### Commands and callbacks -/

/-- Record what happens, in this order. -/
def record (ops : List ProviderOp) (e : EventsControl) : EventsControl :=
  { e with providers := ops.reverse ++ e.providers }

def startEventStreams (dev : Device) (e : EventsControl) : EventsControl :=
  e.record (dev.eventStreams.map fun es => .start es.name)

/-- The loop of `_stop_all_event_streams` over the event streams. -/
def stopEventStreams (dev : Device) (e : EventsControl) : EventsControl :=
  e.record (dev.eventStreams.map fun es => .stop es.name)

/-- `on_get_cam_events_config`. -/
def onGetCamEventsConfig (dev : Device) (reported : Option EventsConfig) (e : EventsControl) :
    EventsControl :=
  let e := ((e.record [.command]).cancelPeriodicEvents).stopEventStreams dev
  let e := { e with toStoredConfigs := e.ensureLoaded dev reported }
  { e with periodic.transport := (e.periodic.transport.scheduleTimedCb .startProviders 1000).2 }

/-- `on_set_cam_events_config`. -/
def onSetCamEventsConfig (dev : Device) (reported : Option EventsConfig) (config : EventsConfig)
    (e : EventsControl) : EventsControl :=
  let e := ((e.record [.command]).cancelPeriodicEvents).stopEventStreams dev
  let e := { e with toStoredConfigs := (e.ensureLoaded dev reported).applyConfig dev config }
  let e := if config.enabled then e.startEventStreams dev else e
  e.schedulePeriodicEvents

/-- The callback that `on_get_cam_events_config` postpones. -/
def startProviders (dev : Device) (e : EventsControl) : EventsControl :=
  let e := e.schedulePeriodicEvents
  if e.eventsConfig.enabled then e.startEventStreams dev else e

/-- Run a callback of a timer that has just fired. -/
def runTransportCb (dev : Device) (e : EventsControl) : TransportCb → EventsControl
  | .triggerPeriodicEvent conf => { e with periodic := e.periodic.triggerPeriodicEvent conf }
  | .startProviders => e.startProviders dev

/-- `on_closed`, as far as the event streams are concerned. -/
def onClosed (dev : Device) (e : EventsControl) : EventsControl := (e.record [.closed]).stopEventStreams dev

/-- `_lookup_event_stream_by_event`: the first list, in the order of the names, that has the event, and
the event stream of that name. -/
def lookupEventStreamByEvent (dev : Device) (e : EventsControl) (event : EventObject) : Option EventStream :=
  (e.eventStreamsConfigs.findKey fun configs =>
      configs.any fun ec => event.event = ec.event && event.customEventName = ec.customEventName).bind
    dev.lookupEventStream

/-- Where `on_trigger_event` takes a triggered event. -/
inductive Trigger
  | eventStream (name : String)
  | callback
  | refused
  deriving DecidableEq

/-- `on_trigger_event`, for the text that names the event. -/
def onTriggerEvent (dev : Device) (e : EventsControl) (event : String) : Trigger :=
  let triggeredEvent := EventObject.ofJson event
  match e.eventsConfig.getEventConfig triggeredEvent with
  | none => .refused
  | some conf =>
    if conf.caps.trigger && conf.active then
      match e.lookupEventStreamByEvent dev triggeredEvent with
      | some es => .eventStream es.name
      | none => .callback
    else .refused

/-- The events side before the first command. -/
def start : EventsControl where
  eventsConfig := {}
  eventStreamsConfigs := ∅
  periodic := ⟨∅, .empty⟩
  providers := []

/-- What can happen to the events side. -/
inductive Action
  | getCamEvents (reported : Option EventsConfig)
  | setCamEvents (reported : Option EventsConfig) (config : EventsConfig)
  | fireTransportTimer (t : ℕ)
  | closed

def step (dev : Device) (e : EventsControl) : Action → Option EventsControl
  | .getCamEvents reported => some (e.onGetCamEventsConfig dev reported)
  | .setCamEvents reported config => some (e.onSetCamEventsConfig dev reported config)
  | .fireTransportTimer t =>
    (e.periodic.transport.sulCb t).map fun (cb, transport) =>
      { e with periodic.transport := transport }.runTransportCb dev cb
  | .closed => some (e.onClosed dev)

end EventsControl
end CloudAgent.Control
