import CloudAgent.Control.Delivery
import Mathlib.Data.Finset.Basic

/-! The media side of the manager: which streams publish, which record, and why. The cloud starts and
stops streams for several reasons; events start and stop the delivery of video. -/
namespace CloudAgent.Control
open Proto Net Utils

/-- What the surroundings answer while an action runs: the clock, whether a source, a sink or a
recording can be started, and what `on_get_memorycard_info` reports if it returns true. -/
structure Env where
  now : Time
  startSource : String → Bool
  startSink : String → Bool
  startRecord : String → Bool
  memorycardInfo : Option MemorycardInfo

/-- `now_time_UTC`, in whole seconds. -/
def Env.nowTimeUTC (env : Env) : Time := seconds (env.now / 1000000000)

/-! ### Publishing -/

/-- The sources and sinks of the streams, with the one counter of the manager for all sinks. -/
structure Publisher where
  activeSinks : ℕ
  sourceStarted : Finset String
  sinkStarted : Finset String

namespace Publisher

/-- `stream::start`. -/
def startSource (env : Env) (s : String) (p : Publisher) : Bool × Publisher :=
  if s ∈ p.sourceStarted then (true, p)
  else if env.startSource s then (true, { p with sourceStarted := insert s p.sourceStarted })
  else (false, p)

/-- `stream::start_sink`. -/
def startSink (env : Env) (s : String) (p : Publisher) : Bool × Publisher :=
  if s ∈ p.sinkStarted then (true, p)
  else if env.startSink s then (true, { p with sinkStarted := insert s p.sinkStarted })
  else (false, p)

/-- How `on_stream_start` publishes a stream: only if no sink was already started. -/
def publish (env : Env) (s : String) (p : Publisher) : Bool × Publisher :=
  if p.activeSinks = 0 then
    let (result, p) := p.startSink env s
    (result, { p with activeSinks := p.activeSinks + result.toNat })
  else (true, p)

/-- How `on_stream_stop` stops publishing a stream: its sink is stopped with the last of all. -/
def unpublish (s : String) (p : Publisher) : Publisher :=
  if p.activeSinks = 0 then p
  else
    let p := { p with activeSinks := p.activeSinks - 1 }
    if p.activeSinks = 0 then { p with sinkStarted := p.sinkStarted.erase s } else p

/-- `stream::stop`. -/
def stopSource (s : String) (p : Publisher) : Publisher :=
  { p with sourceStarted := p.sourceStarted.erase s }

end Publisher

/-! ### Recording to the memory card -/

/-- `recording_status`. -/
structure RecordingStatus where
  permanent : Bool := false
  byEvent : Bool := false
  directUpload : Bool := false
  started : Bool := false
  deriving DecidableEq

/-- `recording_status::enabled`. -/
def RecordingStatus.enabled (r : RecordingStatus) : Bool := r.permanent || r.byEvent || r.directUpload

/-- The status of each stream, what was last heard of the memory card, and which streams were told
to record. -/
structure Recorder where
  recordingStatus : String → RecordingStatus
  memorycardInfo : MemorycardInfo
  recording : Finset String

namespace Recorder

def setStatus (s : String) (f : RecordingStatus → RecordingStatus) (r : Recorder) : Recorder :=
  { r with recordingStatus := Function.update r.recordingStatus s (f (r.recordingStatus s)) }

/-- `_start_recording`. -/
def startRecording (env : Env) (s : String) (r : Recorder) : Recorder :=
  if r.memorycardInfo.status ≠ .normal then r
  else if (r.recordingStatus s).enabled && !(r.recordingStatus s).started then
    { r.setStatus s fun st => { st with started := st.started || env.startRecord s } with
      recording := if env.startRecord s then insert s r.recording else r.recording }
  else r

/-- `_stop_recording`. -/
def stopRecording (force : Bool) (s : String) (r : Recorder) : Recorder :=
  if (!(r.recordingStatus s).enabled && (r.recordingStatus s).started) || force then
    { r.setStatus s fun st => { st with started := false } with recording := r.recording.erase s }
  else r

/-- What the report of the memory card says about the recording of the stream `s`. -/
def reported (info : MemorycardInfo) (s : String) (r : Recorder) : Recorder :=
  r.setStatus s fun st => { st with started := info.recordingStatus.toBool }

/-- How `notify_event` follows a memory card event: a recording that was stopped from outside is stopped
inside as well, and one that is wanted is started. An event without a status asks for one. -/
def memorycardEvent (env : Env) (recordStream : Option String) (info : MemorycardInfo) (r : Recorder) :
    Recorder :=
  let ask := if info.status = .invalid then env.memorycardInfo else none
  let r := { r with memorycardInfo := ask.getD r.memorycardInfo }
  let info := ask.getD info
  match recordStream with
  | none => r
  | some s =>
    if info.status = .normal && info.recordingStatus.neInvalid then
      let forceStop := (r.recordingStatus s).started && !info.recordingStatus.toBool
      let r := r.reported info s
      let r := if forceStop then r.stopRecording true s else r
      r.startRecording env s
    else r

end Recorder

/-! ### The media side -/

/-- `recordEvents` lists the record events that were sent, the latest first, each with its stream and
whether it is on. -/
structure Media where
  delivery : Delivery
  publisher : Publisher
  recorder : Recorder
  recordEventDepth : ℕ
  recordEvents : List (String × Bool)
  recordByEvent : Bool
  streamByEvent : Bool
  continuosDirectRecord : Bool
  recordStream : Option String
  preRecordTime : Duration
  postRecordTime : Duration
  rxTasks : List RxTask

namespace Media

/-- `__notify_record_event`: only the first start and the last stop are sent. -/
def notifyRecordEvent (streamId : String) (on : Bool) (m : Media) : Media :=
  if !on && m.recordEventDepth = 0 then m
  else
    let depth := if on then m.recordEventDepth + 1 else m.recordEventDepth - 1
    let m := { m with recordEventDepth := depth }
    if (on && depth = 1) || (!on && depth = 0) then
      { m with recordEvents := (streamId, on) :: m.recordEvents }
    else m

/-- The depth after a start or a stop of a record. -/
def depthAfter (on : Bool) (depth : ℕ) : ℕ := if on then depth + 1 else depth - 1

/-- The start or stop of a record is sent to the cloud: the depth leaves zero or comes back to it. -/
def isSent (on : Bool) (depth : ℕ) : Bool := depth = if on then 0 else 1

/-- Nothing but the depth and the record events changes. -/
theorem notifyRecordEvent_eq (streamId : String) (on : Bool) (m : Media) :
    m.notifyRecordEvent streamId on =
      { m with
        recordEventDepth := depthAfter on m.recordEventDepth
        recordEvents := if isSent on m.recordEventDepth then (streamId, on) :: m.recordEvents else m.recordEvents } := by
  unfold notifyRecordEvent depthAfter isSent
  cases on
  · obtain h | h | h : m.recordEventDepth = 0 ∨ m.recordEventDepth = 1 ∨ 1 < m.recordEventDepth := by omega
    · cases m
      simp_all
    · simp [h]
    · have hne : m.recordEventDepth ≠ 0 := by omega
      have hne' : m.recordEventDepth ≠ 1 := by omega
      have hsub : m.recordEventDepth - 1 ≠ 0 := by omega
      simp [hne, hne', hsub]
  · by_cases h : m.recordEventDepth = 0 <;> simp [h]

/-- `_current_delivery_mode`. -/
def currentDeliveryMode (m : Media) : StreamDeliveryMode :=
  if m.recordByEvent && m.recordStream.isSome then .upload
  else if m.streamByEvent && m.recordStream.isSome then .stream
  else .none

/-! ### Events -/

/-- `_handle_stream_stateful_event`: an event that changes nothing, or without a time, is skipped. -/
def handleStreamStatefulEvent (dev : Device) (env : Env) (event : EventObject) (mode : StreamDeliveryMode)
    (m : Media) : Media :=
  let d := m.delivery.touch event.name
  let st := d.state event.name
  if event.active = st.active then { m with delivery := d }
  else if !st.active && st.startTime = event.time then { m with delivery := d }
  else if event.time = Time.null then { m with delivery := d }
  else if event.active then
    { m with
      delivery := d.start dev env.now event.name mode event m.preRecordTime m.postRecordTime m.recordStream
        "" }
  else { m with delivery := d.stop env.now event.name event.time }

/-- `_handle_stream_stateless_event`. -/
def handleStreamStatelessEvent (dev : Device) (env : Env) (event : EventObject) (mode : StreamDeliveryMode)
    (m : Media) : Media :=
  if event.time = Time.null then m
  else
    { m with
      delivery := m.delivery.start dev env.now event.name mode event m.preRecordTime m.postRecordTime
        m.recordStream event.uploadToken }

/-- The configuration of an event that `notify_event` goes on with. -/
def acceptedConfig (lookup : EventObject → Option EventConfig) (event : EventObject) : Option EventConfig :=
  (lookup event).filter fun conf =>
    (conf.active || event.stateDummy) && (event.event ≠ .wifi || event.wifiComplete)

/-- The video of an event with this configuration is delivered. -/
def delivers (conf : EventConfig) (event : EventObject) : Bool :=
  conf.caps.stream && conf.stream && !event.stateDummy

/-- `notify_event`, as far as the media side is concerned. `lookup` finds the configuration of an event
while the camera is registered. -/
def notifyEvent (dev : Device) (env : Env) (lookup : EventObject → Option EventConfig) (event : EventObject)
    (m : Media) : Media :=
  match acceptedConfig lookup event with
  | none => m
  | some conf =>
    let m :=
      if event.event = .memorycard then
        { m with recorder := m.recorder.memorycardEvent env m.recordStream event.memorycardInfo }
      else m
    if delivers conf event then
      if conf.caps.statefull then m.handleStreamStatefulEvent dev env event m.currentDeliveryMode
      else m.handleStreamStatelessEvent dev env event m.currentDeliveryMode
    else m

/-- The event that `_update_storage_status` notifies. -/
def memorycardEvent (env : Env) (info : MemorycardInfo) : EventObject :=
  { event := .memorycard, time := env.nowTimeUTC, memorycardInfo := info }

/-- `_update_storage_status`. -/
def updateStorageStatus (dev : Device) (env : Env) (lookup : EventObject → Option EventConfig) (m : Media) :
    Bool × Media :=
  match env.memorycardInfo with
  | none => (false, m)
  | some info =>
    let r := { m.recorder with memorycardInfo := info }
    let r := match m.recordStream with
      | none => r
      | some s => if info.recordingStatus.neInvalid then r.reported info s else r
    let m := { m with recorder := r }
    (info.status = .normal, m.notifyEvent dev env lookup (memorycardEvent env info))

/-! ### Starting streams -/

/-- `on_stream_start` with the reason `SR_LIVE`. -/
def startLive (env : Env) (s : String) (m : Media) : Bool × Media :=
  let (started, p) := m.publisher.startSource env s
  if started then
    let (result, p) := p.publish env s
    (result, { m with publisher := p })
  else (false, { m with publisher := p })

/-- `on_stream_start` with the reason `SR_RECORD`. -/
def startRecord (env : Env) (s : String) (m : Media) : Bool × Media :=
  let (started, p) := m.publisher.startSource env s
  let m := { m with publisher := p }
  if started then
    let m := if m.streamByEvent then m.notifyRecordEvent s true else m
    let (result, p) := m.publisher.publish env s
    (result, { m with publisher := p, recordStream := if result then some s else m.recordStream })
  else (false, m)

/-- The last loop of `on_stream_start` with the reason `SR_RECORD_BY_EVENT`. -/
def switchDelivery (env : Env) (m : Media) : Media :=
  { m with delivery := m.delivery.switchAll env.now m.currentDeliveryMode m.recordStream }

/-- `on_stream_start` with the reason `SR_RECORD_BY_EVENT`. -/
def startRecordByEvent (dev : Device) (env : Env) (lookup : EventObject → Option EventConfig) (s : String)
    (m : Media) : Bool × Media :=
  let (storageOk, m) := m.updateStorageStatus dev env lookup
  let m := { m with recorder := m.recorder.setStatus s fun st => { st with byEvent := true } }
  if storageOk then
    let (started, p) := if dev.recordNeedsSource s then m.publisher.startSource env s else (true, m.publisher)
    let m := { m with publisher := p }
    if started then
      let m := { m with
        recorder := m.recorder.startRecording env s, recordStream := some s, recordByEvent := true }
      (true, m.switchDelivery env)
    else (false, m)
  else
    let m := { m with streamByEvent := true, recordStream := some s }
    (true, m.switchDelivery env)

/-- The event that stands for a storage-direct recording. -/
def directUploadRecording (env : Env) : EventObject :=
  { event := .custom, customEventName := "direct-upload-recording", time := env.now }

/-- `on_stream_start` with the reason `SR_RECORD_DIRECT`. -/
def startRecordDirect (dev : Device) (env : Env) (lookup : EventObject → Option EventConfig) (s : String)
    (m : Media) : Bool × Media :=
  let (storageOk, m) := m.updateStorageStatus dev env lookup
  if storageOk then
    let r := m.recorder.setStatus s fun st => { st with directUpload := true }
    (true,
      { m with
        continuosDirectRecord := true
        recordStream := some s
        recorder := r.startRecording env s
        delivery := m.delivery.start dev env.now "direct-upload-recording" .upload (directUploadRecording env)
          0 0 (some s) "" })
  else m.startRecord env s

/-- `on_stream_start`. -/
def onStreamStart (dev : Device) (env : Env) (lookup : EventObject → Option EventConfig) (streamId : String)
    (reason : StreamReason) (m : Media) : Bool × Media :=
  match dev.lookupStream streamId with
  | none => (false, m)
  | some stream =>
    let s := stream.cloudName
    match reason with
    | .live => m.startLive env s
    | .serverByEvent => if dev.eventStreams.isEmpty then (false, m) else m.startRecord env s
    | .record => m.startRecord env s
    | .recordByEvent =>
      if dev.eventStreams.isEmpty then (false, m) else m.startRecordByEvent dev env lookup s
    | .recordDirect => m.startRecordDirect dev env lookup s
    | .invalid => (false, m)

/-! ### Stopping streams -/

/-- The end of `on_stream_stop`: the source is stopped when neither a sink nor a recording needs it. -/
def stopIdleSource (dev : Device) (s : String) (m : Media) : Media :=
  if m.publisher.activeSinks = 0 &&
      (!m.recordByEvent || m.recordStream.any fun r => !dev.recordNeedsSource r) then
    { m with publisher := m.publisher.stopSource s }
  else m

/-- `on_stream_stop` with the reason `SR_SERVER_BY_EVENT`. -/
def stopServerByEvent (dev : Device) (s : String) (m : Media) : Media :=
  let m := if m.streamByEvent then m.notifyRecordEvent s false else m
  { m with publisher := m.publisher.unpublish s }.stopIdleSource dev s

/-- `on_stream_stop` with the reason `SR_RECORD`: a storage-direct recording ends, whichever stream it
is of. -/
def stopRecord (dev : Device) (env : Env) (s : String) (m : Media) : Media :=
  if m.continuosDirectRecord then
    let r := m.recorder.setStatus s fun st => { st with directUpload := false }
    { m with
      delivery := m.delivery.stop env.now "direct-upload-recording" env.now
      continuosDirectRecord := false
      recorder := r.stopRecording false s }.stopIdleSource dev s
  else m.stopServerByEvent dev s

/-- The test of the loop of `on_stream_stop`: an event is going on, or its stream is about to be
stopped. -/
def isStreaming (m : Media) (name : String) : Bool :=
  let st := m.delivery.state name
  st.stateful && (st.active || st.stopPendingTimer.isSome) && st.needClip

/-- The loop of `on_stream_stop` with the reason `SR_RECORD_BY_EVENT` over the event states. -/
def stopDelivery (dev : Device) (env : Env) (s : String) (m : Media) : Media :=
  m.delivery.eventsStates.order.foldl
    (fun m name =>
      if m.isStreaming name then
        { m with delivery := m.delivery.updateDeliveryMode env.now name .none m.recordStream }.stopRecord
          dev env s
      else m)
    m

/-- `on_stream_stop` with the reason `SR_RECORD_BY_EVENT`. -/
def stopRecordByEvent (dev : Device) (env : Env) (s : String) (m : Media) : Media :=
  if !m.recordByEvent && !m.streamByEvent then m.stopIdleSource dev s
  else if m.recordStream = some s then
    let m := if m.streamByEvent then m.stopDelivery dev env s else m
    let m := if m.recordEventDepth ≠ 0 then { m with recordEventDepth := 1 }.stopRecord dev env s else m
    let r := m.recorder.setStatus s fun st => { st with byEvent := false }
    { m with
      recordByEvent := false
      streamByEvent := false
      recorder := r.stopRecording false s }.stopIdleSource dev s
  else m.stopIdleSource dev s

/-- `on_stream_stop` with the reason `SR_LIVE`. -/
def stopLive (dev : Device) (s : String) (m : Media) : Media :=
  { m with publisher := m.publisher.unpublish s }.stopIdleSource dev s

/-- `on_stream_stop`. -/
def onStreamStop (dev : Device) (env : Env) (streamId : String) (reason : StreamReason) (m : Media) : Media :=
  match dev.lookupStream streamId with
  | none => m
  | some stream =>
    let s := stream.cloudName
    match reason with
    | .live => m.stopLive dev s
    | .record => m.stopRecord dev env s
    | .serverByEvent => m.stopServerByEvent dev s
    | .recordByEvent => m.stopRecordByEvent dev env s
    | .recordDirect | .invalid => m

/-! ### Other commands -/

/-- `on_set_stream_by_event`, with its times in milliseconds. -/
def onSetStreamByEvent (dev : Device) (streamId : String) (preEvent postEvent : ℤ) (m : Media) : Media :=
  let m := { m with preRecordTime := preEvent * 1000000, postRecordTime := postEvent * 1000000 }
  match dev.lookupStream streamId with
  | none => m
  | some stream => { m with recordStream := some stream.cloudName }

/-- `on_cam_memorycard_recording`. -/
def onCamMemorycardRecording (dev : Device) (env : Env) (streamId : String) (enabled : Bool) (m : Media) :
    Media :=
  match dev.lookupStream streamId with
  | none => m
  | some stream =>
    let s := stream.cloudName
    let r := m.recorder.setStatus s fun st => { st with permanent := enabled }
    { m with recorder := if enabled then r.startRecording env s else r.stopRecording false s }

/-- The event that stands for the synchronization of a period. -/
def timelineSyncRequest (requestId : String) (start stop : Time) : EventObject :=
  { event := .custom, customEventName := "timeline-sync", time := start, timeEnd := stop, uploadToken := requestId }

/-- `on_cam_memorycard_synchronize`. -/
def onCamMemorycardSynchronize (dev : Device) (env : Env) (requestId : String) (start stop : Time) (m : Media) :
    Media :=
  { m with
    delivery := m.delivery.start dev env.now "timeline-sync" .upload
      (timelineSyncRequest requestId start stop) 0 0 m.recordStream requestId }

/-- `_stop_all_streams`: the streams are stopped later, on the receive thread. -/
def stopAllStreams (dev : Device) (m : Media) : Media :=
  let m := match m.recordStream with
    | none => m
    | some s =>
      let r := m.recorder.setStatus s fun st => { st with byEvent := false }
      { m with recorder := r.stopRecording false s }
  { m with rxTasks := m.rxTasks ++ dev.streams.map fun stream => .stopStream stream.cloudName }

/-- The loop of `_stop_all_event_streams` over the event states. -/
def stopEvents (env : Env) (m : Media) : Media := { m with delivery := m.delivery.stopAll env.now }

/-- Run a task of the receive thread. -/
def runRxTask (dev : Device) (env : Env) (lookup : EventObject → Option EventConfig) (m : Media) :
    RxTask → Media
  | .startRecord streamId => (m.onStreamStart dev env lookup streamId .record).2
  | .stopRecord streamId => m.onStreamStop dev env streamId .record
  | .stopStream streamId =>
    [StreamReason.live, .record, .recordByEvent, .serverByEvent].foldl
      (fun m reason => m.onStreamStop dev env streamId reason) m

/-- The media side once the manager is started. -/
def start (dev : Device) : Media where
  delivery := .empty
  publisher := ⟨0, ∅, ∅⟩
  recorder := ⟨fun _ => {}, {}, ∅⟩
  recordEventDepth := 0
  recordEvents := []
  recordByEvent := false
  streamByEvent := false
  continuosDirectRecord := false
  recordStream := dev.streams.head?.map MediaStream.cloudName
  preRecordTime := dev.defaultPreRecordTime
  postRecordTime := dev.defaultPostRecordTime
  rxTasks := []

end Media
end CloudAgent.Control
