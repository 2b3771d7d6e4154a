import CloudAgent.Agent.Segmenter
import CloudAgent.Control.Device
import CloudAgent.Lib.StdMap
import CloudAgent.Net.LwsCommon
import Mathlib.Logic.Function.Basic

/-! The event states: for each event, how its video is delivered while it lasts. The map of states
creates a default state for a name that it does not have, and such a state has no uploader. -/
namespace CloudAgent.Control
open Proto Net Utils

/-- `stream_delivery_mode`. -/
inductive StreamDeliveryMode
  | none | upload | stream
  deriving DecidableEq, Repr

/-- `event_state`. `attached` says that the uploader and the transport were given to its constructor,
`streamCbs` that the callbacks which start and stop a stream were; `segmenter` is the identity of a
shared segmenter. -/
structure EventState where
  stateful : Bool := false
  needClip : Bool := false
  attached : Bool := false
  streamCbs : Bool := false
  active : Bool := false
  startTime : Time := Time.null
  stopTime : Time := Time.max
  deliveryMode : StreamDeliveryMode := .none
  postRecordTime : Duration := seconds 5
  segmenter : ℕ
  stopPendingTimer : Option ℕ := none
  deriving DecidableEq

/-- A task for the transport's receive thread: a stream is started or stopped for a record, or stopped
for every reason. -/
inductive RxTask
  | startRecord (streamId : String)
  | stopRecord (streamId : String)
  | stopStream (streamId : String)
  deriving DecidableEq

/-- The callbacks that event states hand to the timers of the HTTP transport. The one that stops a
stream looks at its event state again when it runs. -/
inductive HttpCb
  | startStream (streamId : String)
  | stopStream (stateName : String)
  deriving DecidableEq

/-- The event states with their segmenters and timers. `initialized` records the events that
`_init_events_states` built states for, `scheduledOpen` and `finalized` the segmenters handed to the
uploader's `schedule_upload` while open and to its `finalize_upload`, `delivered` each start or stop of
a delivery with whether its state was attached. `crashed`: a null uploader was called. -/
structure Delivery where
  eventsStates : StdMap EventState
  segmenters : ℕ → Agent.Segmenter
  nextSegmenter : ℕ
  http : LwsCommon HttpCb
  initialized : Option (List String)
  scheduledOpen : List ℕ
  finalized : List ℕ
  delivered : List (String × Bool)
  crashed : Bool

/-- A segmenter as `segment_reset` makes it. -/
def newSegmenter : Agent.Segmenter where
  beginTime := Time.null
  endTime := Time.max
  curSegStart := Time.null
  curSegStop := Time.null
  pre := 0
  post := 0
  step := 0

namespace Delivery

/-! ### The map of event states -/

/-- The state under a name; a default state where there is none. -/
def state (d : Delivery) (name : String) : EventState :=
  (d.eventsStates.lookup name).getD { segmenter := d.nextSegmenter }

def setState (d : Delivery) (name : String) (st : EventState) : Delivery :=
  { d with eventsStates := d.eventsStates.insert name st }

/-- A new segmenter object, under the identity `d.nextSegmenter`. -/
def addSegmenter (d : Delivery) (s : Agent.Segmenter) : Delivery :=
  { d with
    segmenters := Function.update d.segmenters d.nextSegmenter s
    nextSegmenter := d.nextSegmenter + 1 }

def setSegmenter (d : Delivery) (id : ℕ) (s : Agent.Segmenter) : Delivery :=
  { d with segmenters := Function.update d.segmenters id s }

/-- A state is put into the map with a segmenter of its own. -/
def addState (d : Delivery) (name : String) (st : EventState) : Delivery :=
  (d.addSegmenter newSegmenter).setState name { st with segmenter := d.nextSegmenter }

/-- `events_states_[name]` creates what it does not find. -/
def touch (d : Delivery) (name : String) : Delivery :=
  if name ∈ d.eventsStates then d else d.addState name { segmenter := d.nextSegmenter }

/-! ### Starting and stopping a delivery -/

def startUploadDelivery (d : Delivery) (name : String) : Delivery :=
  let st := d.state name
  if st.attached then
    if (d.segmenters st.segmenter).isOpen then { d with scheduledOpen := st.segmenter :: d.scheduledOpen }
    else d
  else { d with crashed := true }

def stopUploadDelivery (d : Delivery) (now : Time) (name : String) : Delivery :=
  let st := d.state name
  if st.attached then
    { d.setState name { st with stopTime := if st.stopTime = Time.null then now else st.stopTime } with
      finalized := st.segmenter :: d.finalized }
  else { d with crashed := true }

def startStreamDelivery (d : Delivery) (name : String) : Delivery :=
  let st := d.state name
  if st.streamCbs then
    { d with http := (d.http.scheduleTimedCb (.startStream (d.segmenters st.segmenter).segProvider) 0).2 }
  else d

def stopStreamDelivery (d : Delivery) (name : String) : Delivery :=
  let st := d.state name
  if st.streamCbs && (d.segmenters st.segmenter).segProvider ≠ "" then
    let (t, http) := d.http.scheduleTimedCb (.stopStream name) st.postRecordTime.toTimeout
    { d with http }.setState name { st with stopPendingTimer := some t }
  else d

/-- Record that the state `name` starts or stops a delivery. -/
def recordDelivery (d : Delivery) (name : String) : Delivery :=
  { d with delivered := (name, (d.state name).attached) :: d.delivered }

/-- `_start_delivery`. -/
def startDelivery (d : Delivery) (name : String) : Delivery :=
  match (d.state name).deliveryMode with
  | .upload => (d.recordDelivery name).startUploadDelivery name
  | .stream => (d.recordDelivery name).startStreamDelivery name
  | .none => d

/-- `_stop_delivery`. -/
def stopDelivery (d : Delivery) (now : Time) (name : String) : Delivery :=
  match (d.state name).deliveryMode with
  | .upload => (d.recordDelivery name).stopUploadDelivery now name
  | .stream => (d.recordDelivery name).stopStreamDelivery name
  | .none => d

/-- `event_state::start` on `events_states_[name]`, except for the dummy events of a stateful event,
which are notified like others. A missing provider has the empty name. -/
def start (dev : Device) (now : Time) (name : String) (mode : StreamDeliveryMode) (event : EventObject)
    (pre post : Duration) (segProvider : Option String) (uploadToken : String) (d : Delivery) : Delivery :=
  let d := d.touch name
  let st := d.state name
  let s := Agent.Segmenter.eventStateStart st.stateful event.time event.timeEnd pre post
    dev.recordByEventUploadStep dev.delayBetweenEventAndRecordsUploadStart (segProvider.getD "")
    uploadToken now
  let st := { st with
    active := st.stateful || st.active
    startTime := event.time
    stopTime := s.endTime
    deliveryMode := mode
    postRecordTime := post
    segmenter := d.nextSegmenter }
  ((d.addSegmenter s).setState name st).startDelivery name

/-- `event_state::stop` on `events_states_[name]`. -/
def stop (now : Time) (name : String) (time : Time) (d : Delivery) : Delivery :=
  let d := d.touch name
  let st := d.state name
  let d := if st.stateful then d.setState name { st with stopTime := time, active := false } else d
  let s := d.segmenters st.segmenter
  let d := if s.isOpen then d.setSegmenter st.segmenter { s with endTime := time } else d
  d.stopDelivery now name

/-- `event_state::update_delivery_mode`. -/
def updateDeliveryMode (now : Time) (name : String) (mode : StreamDeliveryMode)
    (segProvider : Option String) (d : Delivery) : Delivery :=
  if mode = (d.state name).deliveryMode then d
  else
    let d := d.stopDelivery now name
    let st := d.state name
    let s := { d.segmenters st.segmenter with
      segProvider := segProvider.getD "", beginTime := now, curSegStart := now }
    let d := { d.setSegmenter st.segmenter s with
      http := match st.stopPendingTimer with
        | none => d.http
        | some t => d.http.cancelTimedCb t }
    (d.setState name { st with deliveryMode := mode, stopPendingTimer := none }).startDelivery name

/-! ### All states -/

/-- The test of the loops over the states: a stateful event with video that is going on. -/
def isOngoing (d : Delivery) (name : String) : Bool :=
  let st := d.state name
  st.stateful && st.active && st.needClip

/-- The loop of `_stop_all_event_streams` over the event states. -/
def stopAll (now : Time) (d : Delivery) : Delivery :=
  d.eventsStates.order.foldl (fun d name => if d.isOngoing name then d.stop now name now else d) d

/-- The loop of `on_stream_start` over the event states. -/
def switchAll (now : Time) (mode : StreamDeliveryMode) (segProvider : Option String) (d : Delivery) :
    Delivery :=
  d.eventsStates.order.foldl
    (fun d name => if d.isOngoing name then d.updateDeliveryMode now name mode segProvider else d) d

/-- The state that `_init_events_states` builds for an event. -/
def ofConfig (conf : EventConfig) (segmenter : ℕ) : EventState :=
  { stateful := conf.caps.statefull, needClip := conf.caps.stream, attached := true, streamCbs := true, segmenter }

/-- The states that are hidden from the cloud. They cannot start a stream. -/
def internalStates (segmenter : ℕ) : List (String × EventState) :=
  [("timeline-sync", { needClip := true, attached := true, segmenter }),
    ("direct-upload-recording", { stateful := true, needClip := true, attached := true, segmenter })]

/-- `_init_events_states`, which its callers skip where there are states already. -/
def initEventsStates (events : List EventConfig) (d : Delivery) : Delivery :=
  if d.eventsStates.keys = [] then
    let states := (events.map fun conf => (conf.name, ofConfig conf 0)) ++ internalStates 0
    { states.foldl (fun d p => d.addState p.1 p.2) d with initialized := some (events.map EventConfig.name) }
  else d

/-- Run a callback of a timer of the HTTP transport that has just fired: it hands a task to the receive
thread. -/
def runHttpCb (d : Delivery) : HttpCb → RxTask × Delivery
  | .startStream streamId => (.startRecord streamId, d)
  | .stopStream stateName =>
    let st := d.state stateName
    (.stopRecord (d.segmenters st.segmenter).segProvider,
      d.setState stateName { st with stopPendingTimer := none })

/-- No event has happened yet. -/
def empty : Delivery where
  eventsStates := ∅
  segmenters := fun _ => newSegmenter
  nextSegmenter := 0
  http := .empty
  initialized := none
  scheduledOpen := []
  finalized := []
  delivered := []
  crashed := false

end Delivery
end CloudAgent.Control
