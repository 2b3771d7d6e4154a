import CloudAgent.Agent.Segmenter
import CloudAgent.Proto.CommandHandler
import CloudAgent.Proto.DirectUpload
import Mathlib.Data.List.AList

/-! The upload side of the manager. A planned upload goes through a timer, a queue, the ack table and
an HTTP request; the payload of a command waits in one of three maps for the URL that the cloud
replies with. Timers, replies and HTTP responses are handled one at a time. -/
namespace CloudAgent.Agent
open Utils Proto

/-- The settings of `profile::global` that limit uploads. They do not change while the agent runs. -/
structure Profile where
  maxConcurentVideoUploads : ℕ := 2
  maxConcurentSnapshotUploads : ℕ := 4
  maxConcurentFileMetaUploads : ℕ := 6
  maxVideoUploadsQueueLateness : Duration := minutes 30
  statefulEventContinuationKickSnapshot : Bool := true

/-- `event_object::snapshot_info_object`, without its dimensions. -/
structure SnapshotInfo where
  size : ℤ := unsetInt
  imageData : List UInt8 := []
  deriving DecidableEq, Repr

/-- `event_object::file_meta_info_object`. Its size is the size of its data. -/
structure FileMetaInfo where
  data : List UInt8
  deriving DecidableEq, Repr

inductive WifiNetworkState
  | unknown | initialize0 | initialize1 | tryConnect | receivingIp | connected | invalid
  deriving DecidableEq, Repr

inductive WifiEncryption
  | open | wep | wpa | wpa2 | wpaEnterprise | wpa2Enterprise | invalid
  deriving DecidableEq, Repr

structure WifiInfo where
  state : WifiNetworkState
  ssid : String
  encryption : WifiEncryption
  encryptionCaps : List WifiEncryption
  deriving DecidableEq, Repr

/-- `event_object`. A meta file that is unset is `none`, and `wifiInfo` is given for `ET_WIFI` only. -/
structure EventObject where
  active : Bool := false
  stateDummy : Bool := false
  uploadCanceler : Bool := false
  uploadToken : String := ""
  snapshotInfo : SnapshotInfo := {}
  metaFile : Option (List UInt8) := none
  wifiInfo : Option WifiInfo := none

/-- `event_config` with its capabilities. -/
structure EventConfig where
  active : Bool := true
  stream : Bool := false
  snapshot : Bool := false
  capsStatefull : Bool := false
  capsStream : Bool := false
  capsInternalHidden : Bool := false

/-- What the rest of the agent answers while an event is notified: `get_event_config`,
`_handle_stream_stateful_event`, and the `get_snapshot` of the snapshot stream, if there is one. -/
structure NotifyEnv where
  config : Option EventConfig
  statefulEventHandled : Bool
  snapshotStream : Option (SnapshotInfo → Option SnapshotInfo)

/-- What the surroundings answer while the upload timer runs a callback: the clock, the `is_canceled`
callbacks, and the `record_export` of the stream that `lookup_stream` finds. -/
structure UploadEnv where
  now : Time
  isCanceled : ℤ → Bool
  lookupStream : String → Option (Time → Time → VideoClipInfo)

/-- What an acknowledgement callback captures. -/
inductive AckBody
  | directUpload (r : GetDirectUploadUrl)
  | camEvent (needSnapshot needMeta : Bool)
  deriving DecidableEq, Repr

/-- The callbacks of the upload timer. -/
inductive DirectUploadCb
  | directUploadSyncCb
  | enqueue (r : GetDirectUploadUrl)
  | cancelByTicket (ticket : String)
  deriving DecidableEq, Repr

/-- An HTTP upload whose response has not come yet. `initiator` is the planned upload whose
`on_finished` the response calls, if any. -/
structure UploadRequestHttp where
  refid : ℤ
  mediaType : MediaType
  url : String
  headers : List (String × String)
  data : List UInt8
  initiator : Option ℤ
  deriving DecidableEq, Repr

/-- `accepted`, `notified`, `sent`, `settled` and `finished` record the planned uploads that were
accepted, the msgids of notified events, the commands that were sent, the commands whose reply or
timeout has been handled, and the calls of `on_finished`. -/
structure Manager where
  camId : ℤ
  msgid : ℤ
  registered : Bool
  commands : CommandHandler AckBody
  directUploadTimer : Net.LwsCommon DirectUploadCb
  directUploadVideoQ : List GetDirectUploadUrl
  directUploadSnapshotQ : List GetDirectUploadUrl
  snapshots : AList fun _ : ℤ => SnapshotInfo
  records : AList fun _ : ℤ => VideoClipInfo
  metaFiles : AList fun _ : ℤ => FileMetaInfo
  snapshotsUploading : ℕ
  recordsUploading : ℕ
  fileMetaUploading : ℕ
  http : List UploadRequestHttp
  accepted : List GetDirectUploadUrl
  notified : List ℤ
  sent : List ℤ
  settled : List ℤ
  finished : List (ℤ × Bool)

namespace Manager

/-- `on_finished` of a planned upload; the default callback does nothing. -/
def onFinished (m : Manager) (initiator : Option ℤ) (ok : Bool) : Manager :=
  { m with finished := m.finished ++ (initiator.map fun i => (i, ok)).toList }

/-! ### The three payload maps -/

def holds (m : Manager) (i : ℤ) : MediaType → Bool
  | .snapshot => (m.snapshots.lookup i).isSome
  | .record => (m.records.lookup i).isSome
  | .metaFile => (m.metaFiles.lookup i).isSome

/-- The size of a payload map. -/
def pending (m : Manager) : MediaType → ℕ
  | .snapshot => m.snapshots.keys.length
  | .record => m.records.keys.length
  | .metaFile => m.metaFiles.keys.length

def uploading (m : Manager) : MediaType → ℕ
  | .snapshot => m.snapshotsUploading
  | .record => m.recordsUploading
  | .metaFile => m.fileMetaUploading

def limit (p : Profile) : MediaType → ℕ
  | .snapshot => p.maxConcurentSnapshotUploads
  | .record => p.maxConcurentVideoUploads
  | .metaFile => p.maxConcurentFileMetaUploads

/-- The bytes of a payload; the lookup of a missing one creates an empty value. -/
def payloadData (m : Manager) (i : ℤ) : MediaType → List UInt8
  | .snapshot => ((m.snapshots.lookup i).map SnapshotInfo.imageData).getD []
  | .record => ((m.records.lookup i).map VideoClipInfo.data).getD []
  | .metaFile => ((m.metaFiles.lookup i).map FileMetaInfo.data).getD []

def erasePayload (m : Manager) (i : ℤ) : MediaType → Manager
  | .snapshot => { m with snapshots := m.snapshots.erase i }
  | .record => { m with records := m.records.erase i }
  | .metaFile => { m with metaFiles := m.metaFiles.erase i }

/-- Apply `f` to the counter of running uploads. -/
def countUploading (m : Manager) (f : ℕ → ℕ) : MediaType → Manager
  | .snapshot => { m with snapshotsUploading := f m.snapshotsUploading }
  | .record => { m with recordsUploading := f m.recordsUploading }
  | .metaFile => { m with fileMetaUploading := f m.fileMetaUploading }

/-! ### Planned record uploads -/

/-- `_request_direct_upload_video`: export the record and ask for an URL. -/
def requestDirectUploadVideo (env : UploadEnv) (m : Manager) (r : GetDirectUploadUrl) : Bool × Manager :=
  match env.lookupStream r.streamId with
  | none => (false, m.onFinished r.msgid false)
  | some recordExport =>
    let duration := if r.durationUs = 0 then r.duration * 1000000 else r.durationUs
    let clip := recordExport r.fileTime (r.fileTime + duration)
    if clip.data ≠ [] && clip.valid then
      (true,
        { m with
          records := m.records.insert r.msgid clip
          commands := m.commands.sendCommandWaitAck r.msgid (.directUpload r) 20
          sent := m.sent ++ [r.msgid] })
    else (false, m.onFinished r.msgid false)

/-- The test for a planned upload that is too old for `_update_direct_upload_queue_latency`. -/
def isLate (p : Profile) (env : UploadEnv) (r : GetDirectUploadUrl) : Bool :=
  r.fileTime < env.now - p.maxVideoUploadsQueueLateness && r.memorycardSyncTicket = ""

/-- `_update_direct_upload_queue_latency`. -/
def updateDirectUploadQueueLatency (p : Profile) (env : UploadEnv) (m : Manager) : Manager :=
  { m with
    directUploadVideoQ := m.directUploadVideoQ.filter fun r => !isLate p env r
    finished := m.finished ++ (m.directUploadVideoQ.filter (isLate p env)).map fun r => (r.msgid, false) }

/-- The loop of `direct_upload_sync_cb` over the queue, which ends with the first record that is
exported. A canceled upload is dropped. -/
def requestQueued (p : Profile) (env : UploadEnv) : List GetDirectUploadUrl → Manager → Manager
  | [], m => m
  | r :: q, m =>
    if m.recordsUploading < p.maxConcurentVideoUploads &&
        m.pending .record < p.maxConcurentVideoUploads then
      let m := { m with directUploadVideoQ := q }
      if env.isCanceled r.msgid then requestQueued p env q m
      else if r.category = .record then
        match m.requestDirectUploadVideo env r with
        | (true, m) => m
        | (false, m) => requestQueued p env q m
      else requestQueued p env q m
    else m

/-- `direct_upload_sync_cb`, which schedules itself again. -/
def directUploadSyncCb (p : Profile) (env : UploadEnv) (m : Manager) : Manager :=
  let m := m.updateDirectUploadQueueLatency p env
  let m := if m.registered then m.requestQueued p env m.directUploadVideoQ else m
  { m with directUploadTimer := (m.directUploadTimer.scheduleTimedCb .directUploadSyncCb 1000).2 }

/-- `_schedule_direct_upload` of a new request, whose constructor draws the next msgid. -/
def scheduleDirectUpload (m : Manager) (r : GetDirectUploadUrl) (isCanceled : Bool) : Manager :=
  let r := { r with msgid := m.msgid + 1 }
  let m := { m with msgid := m.msgid + 1 }
  if isCanceled then m
  else
    { m with
      directUploadTimer := (m.directUploadTimer.scheduleTimedCb (.enqueue r) 1).2
      accepted := m.accepted ++ [r] }

/-- The callback that `_schedule_direct_upload` schedules. -/
def enqueue (m : Manager) (r : GetDirectUploadUrl) : Manager :=
  if r.category = .record then { m with directUploadVideoQ := m.directUploadVideoQ ++ [r] }
  else if r.category = .snapshot then
    { m with directUploadSnapshotQ := m.directUploadSnapshotQ ++ [r] }
  else m

/-- `_cancel_direct_uploads_by_ticket`. -/
def cancelDirectUploadsByTicket (m : Manager) (ticket : String) : Manager :=
  { m with directUploadTimer := (m.directUploadTimer.scheduleTimedCb (.cancelByTicket ticket) 1).2 }

/-- The test of the callback that `_cancel_direct_uploads_by_ticket` schedules. -/
def isOfTicket (ticket : String) (r : GetDirectUploadUrl) : Bool :=
  r.memorycardSyncTicket ≠ "" && ticket = r.memorycardSyncTicket

/-- The callback that `_cancel_direct_uploads_by_ticket` schedules. -/
def cancelByTicket (m : Manager) (ticket : String) : Manager :=
  { m with directUploadVideoQ := m.directUploadVideoQ.filter fun r => !isOfTicket ticket r }

/-- Run a callback of the upload timer that has just fired. -/
def runUploadCb (p : Profile) (env : UploadEnv) (m : Manager) : DirectUploadCb → Manager
  | .directUploadSyncCb => m.directUploadSyncCb p env
  | .enqueue r => m.enqueue r
  | .cancelByTicket ticket => m.cancelByTicket ticket

/-! ### Replies, timeouts and HTTP responses -/

/-- The payload that an URL is for: the first one that is held under the msgid and allowed. -/
def payloadKind (m : Manager) (d : DirectUploadUrlBase) (refid : ℤ) : Option MediaType :=
  [.snapshot, .record, .metaFile].find? fun kind => m.holds refid kind && d.allows kind

/-- `on_direct_upload_url`, for an URL with the callbacks of `initiator`. Only the counter of records
looks at the cancellation. -/
def onDirectUploadUrl (isCanceled : ℤ → Bool) (m : Manager) (d : DirectUploadUrlBase)
    (initiator : Option ℤ) (refid : ℤ) : Manager :=
  let canceled := initiator.any isCanceled
  match m.payloadKind d refid with
  | none => m.onFinished initiator false
  | some kind =>
    let data := m.payloadData refid kind
    let m := if data ≠ [] && (kind ≠ .record || !canceled) then m.countUploading (· + 1) kind else m
    let m := m.erasePayload refid kind
    if data ≠ [] && !canceled then
      { m with
        http := m.http ++
          [⟨refid, kind, d.url, d.headers.filter (·.1 ≠ "Content-Length"), data, initiator⟩] }
    else m.onFinished initiator false

/-- `handle_direct_upload_url`. The extra URLs have the default callbacks. -/
def handleDirectUploadUrl (isCanceled : ℤ → Bool) (m : Manager) (msg : DirectUploadUrl)
    (initiator : Option ℤ) : Manager :=
  if msg.valid then
    let m := m.onDirectUploadUrl isCanceled msg.toDirectUploadUrlBase initiator msg.refid
    (msg.extra.filter (·.status = "OK")).foldl
      (fun m d => m.onDirectUploadUrl isCanceled d none msg.refid) m
  else m

/-- An acknowledgement callback runs for a reply: a planned upload gives the reply its callbacks, or
fails with it. -/
def ackReplied (m : Manager) (msg : DirectUploadUrl) (cb : AckCb AckBody) : Option ℤ × Manager :=
  match cb.run with
  | .directUpload r => if msg.status = "OK" then (some r.msgid, m) else (none, m.onFinished r.msgid false)
  | .camEvent _ _ => (none, m)

/-- An acknowledgement callback runs for its timeout. -/
def ackTimedOut (m : Manager) (cb : AckCb AckBody) : Manager :=
  let m := { m with settled := m.settled ++ [cb.msgid] }
  match cb.run with
  | .directUpload r => (m.onFinished r.msgid false).erasePayload r.msgid .record
  | .camEvent needSnapshot needMeta =>
    let m := if needSnapshot then m.erasePayload cb.msgid .snapshot else m
    if needMeta then m.erasePayload cb.msgid .metaFile else m

/-- A message for another camera is refused before anything else looks at it. -/
def refuses (m : Manager) (msg : DirectUploadUrl) : Bool :=
  msg.camId ≠ unsetInt && m.camId ≠ 0 && msg.camId ≠ m.camId

/-- `handleMessage` for a `direct_upload_url`. -/
def handleMessage (isCanceled : ℤ → Bool) (m : Manager) (msg : DirectUploadUrl) : Manager :=
  if m.refuses msg then m
  else
    match m.commands.handleCommandAck msg.refid with
    | (none, commands) => { m with commands }.handleDirectUploadUrl isCanceled msg none
    | (some cb, commands) =>
      let (initiator, m) := { m with commands }.ackReplied msg cb
      let m := m.handleDirectUploadUrl isCanceled msg initiator
      { m with settled := m.settled ++ [msg.refid] }

/-- The response callback of an HTTP upload. -/
def httpFinished (m : Manager) (req : UploadRequestHttp) (code : ℤ) : Manager :=
  (m.onFinished req.initiator (code = 200)).countUploading (· - 1) req.mediaType

/-! ### Events with payloads -/

/-- The tests of an `ET_WIFI` event. -/
def wifiReported (ev : EventObject) : Bool :=
  ev.wifiInfo.all fun w =>
    w.state ≠ .invalid && w.ssid ≠ unsetString && w.encryptionCaps.contains w.encryption

/-- `handle_event_snapshot`: the snapshot that the event is sent with. -/
def handleEventSnapshot (p : Profile) (env : NotifyEnv) (m : Manager) (ev : EventObject) :
    Option SnapshotInfo :=
  if m.snapshotsUploading ≥ p.maxConcurentSnapshotUploads ||
      m.pending .snapshot > p.maxConcurentSnapshotUploads then none
  else if ev.snapshotInfo.size = unsetInt || ev.snapshotInfo.imageData = [] then
    env.snapshotStream.bind fun getSnapshot => getSnapshot ev.snapshotInfo
  else none

/-- `handle_event_meta_file`: the meta file that the event is sent with. -/
def handleEventMetaFile (p : Profile) (m : Manager) (ev : EventObject) : Option FileMetaInfo :=
  if m.fileMetaUploading ≥ p.maxConcurentFileMetaUploads ||
      m.pending .metaFile > p.maxConcurentFileMetaUploads then none
  else ev.metaFile.map FileMetaInfo.mk

def needSnapshot (p : Profile) (config : EventConfig) (ev : EventObject) : Bool :=
  config.snapshot && ((config.capsStatefull && ev.active) || !config.capsStatefull ||
    (p.statefulEventContinuationKickSnapshot && ev.stateDummy))

/-- The snapshot that `notify_event` puts aside. -/
def eventSnapshot (p : Profile) (env : NotifyEnv) (config : EventConfig) (m : Manager)
    (ev : EventObject) : Option SnapshotInfo :=
  if needSnapshot p config ev then m.handleEventSnapshot p env ev else none

/-- The meta file that `notify_event` puts aside. -/
def eventMetaFile (p : Profile) (m : Manager) (ev : EventObject) : Option FileMetaInfo :=
  if ev.stateDummy then none else m.handleEventMetaFile p ev

/-- Put a payload aside under a msgid. -/
def storePayload {β : Type} (i : ℤ) (payload : Option β) (s : AList fun _ : ℤ => β) :
    AList fun _ : ℤ => β :=
  match payload with
  | some b => s.insert i b
  | none => s

/-- The end of `notify_event`: payloads are put aside before a hidden event is left unsent. -/
def sendEvent (p : Profile) (env : NotifyEnv) (config : EventConfig) (msgid : ℤ) (m : Manager) (ev : EventObject) :
    Manager :=
  let snapshot := m.eventSnapshot p env config ev
  let metaFile := m.eventMetaFile p ev
  let m := { m with
    snapshots := storePayload msgid snapshot m.snapshots
    metaFiles := storePayload msgid metaFile m.metaFiles }
  if config.capsInternalHidden then m
  else if snapshot.isSome || metaFile.isSome then
    { m with
      commands :=
        m.commands.sendCommandWaitAck msgid (.camEvent snapshot.isSome metaFile.isSome) 20
      sent := m.sent ++ [msgid] }
  else { m with sent := m.sent ++ [msgid] }

/-- The configuration of an event that passes the first tests of `notify_event`. -/
def eventConfig (env : NotifyEnv) (m : Manager) (ev : EventObject) : Option EventConfig :=
  if m.registered then
    env.config.filter fun config => (config.active || ev.stateDummy) && wifiReported ev
  else none

/-- The stream event was not handled, or a stateful event has stopped: nothing more is sent. -/
def streamOnly (env : NotifyEnv) (config : EventConfig) (ev : EventObject) : Bool :=
  config.capsStream && config.stream && !ev.stateDummy && config.capsStatefull &&
    (!env.statefulEventHandled || !ev.active)

/-- An upload canceler cancels the uploads with its token. -/
def cancelUploads (m : Manager) (ev : EventObject) : Manager :=
  if ev.uploadCanceler && ev.uploadToken ≠ "" then m.cancelDirectUploadsByTicket ev.uploadToken else m

/-- `factory::create` for the command of an event: two commands are constructed, each of which draws a msgid, and the
second one gets that of the first. -/
def createEvent (m : Manager) : Manager :=
  { m with msgid := m.msgid + 2, notified := m.notified ++ [m.msgid + 1] }

/-- `notify_event`. -/
def notifyEvent (p : Profile) (env : NotifyEnv) (m : Manager) (ev : EventObject) : Manager :=
  let msgid := m.msgid + 1
  let m := m.createEvent
  match m.eventConfig env ev with
  | none => m
  | some config =>
    let m := m.cancelUploads ev
    if streamOnly env config ev then m else m.sendEvent p env config msgid ev

/-! ### Runs -/

/-- The manager once it is started. -/
def start (camId : ℤ) : Manager where
  camId := camId
  msgid := 0
  registered := false
  commands := .empty
  directUploadTimer := (Net.LwsCommon.empty.scheduleTimedCb .directUploadSyncCb 10000).2
  directUploadVideoQ := []
  directUploadSnapshotQ := []
  snapshots := ∅
  records := ∅
  metaFiles := ∅
  snapshotsUploading := 0
  recordsUploading := 0
  fileMetaUploading := 0
  http := []
  accepted := []
  notified := []
  sent := []
  settled := []
  finished := []

/-- Everything that can happen to the upload side. `fireUploadTimer` and `fireAckTimer` are timers of
the upload timer service and of the transport, `httpFinished k` the response of the `k`-th running
upload, `directUploadUrl` a reply from the cloud. -/
inductive Action
  | setRegistered (registered : Bool)
  | scheduleDirectUpload (r : GetDirectUploadUrl) (isCanceled : Bool)
  | cancelDirectUploadsByTicket (ticket : String)
  | fireUploadTimer (t : ℕ) (env : UploadEnv)
  | fireAckTimer (t : ℕ)
  | directUploadUrl (msg : DirectUploadUrl) (isCanceled : ℤ → Bool)
  | httpFinished (k : ℕ) (code : ℤ)
  | notifyEvent (ev : EventObject) (env : NotifyEnv)

/-- One atomic step of the system. -/
def step (p : Profile) (m : Manager) : Action → Option Manager
  | .setRegistered registered => some { m with registered }
  | .scheduleDirectUpload r isCanceled => some (m.scheduleDirectUpload r isCanceled)
  | .cancelDirectUploadsByTicket ticket => some (m.cancelDirectUploadsByTicket ticket)
  | .fireUploadTimer t env =>
    (m.directUploadTimer.sulCb t).map fun (cb, directUploadTimer) =>
      { m with directUploadTimer }.runUploadCb p env cb
  | .fireAckTimer t => (m.commands.timedOut t).map fun (cb, commands) => { m with commands }.ackTimedOut cb
  | .directUploadUrl msg isCanceled => some (m.handleMessage isCanceled msg)
  | .httpFinished k code =>
    m.http[k]?.map fun req => { m with http := m.http.eraseIdx k }.httpFinished req code
  | .notifyEvent ev env => some (m.notifyEvent p env ev)

end Manager
end CloudAgent.Agent
