import CloudAgent.Proto.Callbacks

/-! The handlers of received commands, and the replies that they make. -/
namespace CloudAgent.Proto.Handlers
open Wire

/-! ### Replies -/

section replies
variable (id : Int32) (c : Command)

/-- `json(*factory::done(command, status))`. -/
def done (status : DoneStatus) : Json :=
  Command.toJson ⟨.done, id, c.camId, c.msgid, c.type.name, (status, ())⟩

/-- The types that `factory::reply` has a row for. -/
def replyTable : List CommandType :=
  CommandType.parseTable.filter fun t => t ∉ [.rawMessageClientConnected, .rawMessageClientDisconnected]

/-- `factory::reply`. Its row for `cam_register` makes a `register_cmd`. -/
def reply (t : CommandType) : Option Command :=
  if t ∈ replyTable then
    some { Command.read (if t = .camRegister then .registerCmd else t) id .null with
      camId := c.camId, refid := c.msgid, origCmd := c.type.name }
  else none

/-- A reply of the type, cast and filled in. The cast of another type is a null pointer. -/
def answer (t : CommandType) (payload : t.payload.Value) : Except Fault Json :=
  match reply id c t with
  | none => .error .null
  | some r =>
    if r.type = t then .ok (Command.toJson ⟨t, r.msgid, r.camId, r.refid, r.origCmd, payload⟩) else .error .null

/-- The reply with what a function has filled in, or an error. -/
def fillIn (err : DoneStatus) (t : CommandType) : Option t.payload.Value → Except Fault Json
  | none => .ok (done id c err)
  | some conf => answer id c t conf

def acknowledge (err : DoneStatus) (ok : Bool) : Json := if ok then done id c .ok else done id c err

end replies

/-- One call after the other, until one does not return. -/
def callAll (cb : Callbacks) : List Call → Except Fault Unit
  | [] => .ok ()
  | call :: calls =>
    match cb call with
    | .ok _ => callAll cb calls
    | .error fault => .error fault

/-- The result, or another one if it is an exception that is caught. -/
def catching {α : Type} (recover : α) : Except Fault α → Except Fault α
  | .error .exception => .ok recover
  | x => x

/-! ### Registration -/

def ifSet (v old : String) : String := if v = unsetString then old else v

def ifSetInt (v old : Int32) : Int32 := if v = unsetInt32 then old else v

section registration
variable (cb : Callbacks) (accepts : Json → Bool) (id id' : Int32)

/-- The command that `do_cam_register` sends. -/
def camRegisterJson (config : ManagerConfig) : Json :=
  Command.toJson ⟨.camRegister, id', unsetInt32, unsetInt32, unsetString,
    (config.deviceIpaddr, config.uuid, config.deviceBrand, config.deviceModel, config.deviceSerial,
      config.rawMessaging, config.deviceFwVersion, config.deviceType, ())⟩

/-- `do_cam_register`, with what it sends. -/
def doCamRegister (h : Handler) : Except Fault (Handler × List Json) :=
  if h.registered then .ok (h, [])
  else
    (cb (.onRegistered h.config.sid)).map fun _ =>
      ({ h with registered := accepts (camRegisterJson id' h.config) }, [camRegisterJson id' h.config])

def hello.store (p : hello.Value) (config : ManagerConfig) : ManagerConfig :=
  let (ca, sid, uploadUri, uploadUrl, mediaServer, connid, _) := p
  { config with
    ca := ifSet ca config.ca
    sid := ifSet sid config.sid
    uploadUrl := ifSet uploadUri (ifSet uploadUrl config.uploadUrl)
    mediaServer := ifSet mediaServer config.mediaServer
    connId := ifSet connid config.connId }

def handleHello (h : Handler) (c : Command) (p : hello.Value) : Except Fault (Handler × List Json × Json) :=
  let h := { h with config := hello.store p h.config }
  catching (h, [], done id c .missedParam)
    ((doCamRegister cb accepts id' h).map fun (h, sent) => (h, sent, done id c .ok))

def setTimezone (tz : String) : List Call := if tz = unsetString then [] else [.onSetTimezone tz]

def handleConfigure (h : Handler) (c : Command) (p : configure.Value) : Except Fault (Handler × List Json × Json) :=
  let (pwd, uuid, connid, tz, server, _) := p
  let config := { h.config with
    pwd := ifSet pwd h.config.pwd, uuid := ifSet uuid h.config.uuid, connId := ifSet connid h.config.connId }
  let config := { config with timezone := ifSet tz config.timezone }
  let config' := { config with reconnectServerAddress := ifSet server config.reconnectServerAddress }
  catching ({ h with config }, [], done id c .missedParam)
    ((callAll cb (setTimezone tz)).map fun _ => ({ h with config := config' }, [], done id c .ok))

def camHello.store (p : camHello.Value) (camId : Int32) (config : ManagerConfig) : ManagerConfig :=
  let (path, mediaUri, _, _, activity, _) := p
  { config with
    camId := if camId = unsetInt32 then config.camId else camId.toInt
    mediaServer := ifSet mediaUri config.mediaServer
    camPath := ifSet path config.camPath
    activity }

def handleCamHello (h : Handler) (c : Command) (p : camHello.Value) : Except Fault (Handler × List Json × Json) :=
  let h := { h with config := camHello.store p c.camId h.config, helloReceived := true }
  (callAll cb [.onSetActivity h.config.activity, .onPrepared]).map fun _ => (h, [], done id c .ok)

def handleBye (h : Handler) (p : bye.Value) : Handler :=
  let (reason, retry, _) := p
  { h with byeReason := reason, byeRetry := (ifSetInt retry 0).toInt, helloReceived := false }

end registration

/-! ### Streams -/

section handlers
variable (cb : Callbacks) (id : Int32) (c : Command)

def handleGetCamStatus (config : ManagerConfig) : Except Fault Json :=
  answer id c .camStatus (config.deviceIpaddr, config.activity, config.streaming, false, ())

def handleGetSupportedStreams : Except Fault Json :=
  (cb .onGetSupportedStreams).bind (fillIn id c .cmError .supportedStreams)

/-- A continuous recording may be asked for directly to the storage. -/
def startReason (reason : StreamReason) (storageDirectRecording : AlterBool) : StreamReason :=
  if reason = .record ∧ storageDirectRecording = .bTrue then .recordDirect else reason

def streamStart.call (p : streamStart.Value) : Call :=
  let (reason, streamId, publishSessionId, storageDirectRecording, _) := p
  .onStreamStart (ifSet streamId "") (ifSetInt publishSessionId (-1)) (startReason reason storageDirectRecording)

def handleStreamStart (p : streamStart.Value) : Except Fault Json :=
  (cb (streamStart.call p)).map (acknowledge id c .cmError)

def streamStop.call (p : streamStop.Value) : Call :=
  let (reason, streamId, _) := p
  .onStreamStop (ifSet streamId "") reason

def handleStreamStop (p : streamStop.Value) : Except Fault Json :=
  (cb (streamStop.call p)).map (acknowledge id c .cmError)

def handleGetStreamByEvent : Except Fault Json :=
  (cb .onGetStreamByEvent).bind (fillIn id c .cmError .streamByEventConf)

def handleSetStreamByEvent (p : streamByEventConfig.Value) : Except Fault Json :=
  (cb (.onSetStreamByEvent p)).map (acknowledge id c .cmError)

/-- The capabilities that are asked for: one object for each elementary stream. -/
def elementaryStreams.caps (p : elementaryStreams.Value) : streamCaps.Value :=
  let (videoEs, audioEs, _) := p
  (videoEs.map fun vs => ([vs], (capsVideoObject.part.read .null).2),
    audioEs.map fun as => ([as], (capsAudioObject.part.read .null).2), ())

def handleGetStreamCaps (p : elementaryStreams.Value) : Except Fault Json :=
  (cb (.onGetStreamCaps (elementaryStreams.caps p))).bind (fillIn id c .cmError .streamCaps)

/-- The settings that are asked for: one object for each elementary stream. -/
def elementaryStreams.config (p : elementaryStreams.Value) : streamConfig.Value :=
  let (videoEs, audioEs, _) := p
  (videoEs.map fun vs => (vs, (videoStreamConfig.part.read .null).2),
    audioEs.map fun as => (as, (audioStreamConfig.part.read .null).2), ())

def handleGetStreamConfig (p : elementaryStreams.Value) : Except Fault Json :=
  (cb (.onGetStreamConfig (elementaryStreams.config p))).bind (fillIn id c .systemError .streamConfig)

def handleSetStreamConfig (p : streamConfig.Value) : Except Fault Json :=
  (cb (.onSetStreamConfig p)).map (acknowledge id c .invalidParam)

/-! ### Events and uploads -/

def handleGetCamEvents : Except Fault Json :=
  (cb .onGetCamEventsConfig).bind (fillIn id c .cmError .camEventsConf)

def handleSetCamEvents (p : eventsConfig.Value) : Except Fault Json :=
  (cb (.onSetCamEventsConfig p)).map (acknowledge id c .cmError)

/-- Whether there is an url to upload to. -/
def uploadable (status url : String) : Bool := status ≠ unsetString ∧ url ≠ unsetString ∧ status = "OK"

/-- The upload itself, and the ones besides it whose status is in order. -/
def directUploadUrl.calls (refid : Int32) (p : directUploadUrl.Value) : List Call :=
  let (category, status, url, expire, headers, eventId, extra, _) := p
  Call.onDirectUploadUrl (category, status, url, expire, headers, ()) eventId refid ::
    (extra.filter fun d => "OK" = d.2.1).map fun d => .onDirectUploadUrl d eventId refid

def handleDirectUploadUrl (p : directUploadUrl.Value) : Except Fault Json :=
  if uploadable p.2.1 p.2.2.1 then (callAll cb (directUploadUrl.calls c.refid p)).map fun _ => done id c .ok
  else .ok (done id c .missedParam)

/-- The name, the metadata and the time of an event that is triggered. -/
def triggered (event : String) (time : ℚ) (info : Json) : Call :=
  .onTriggerEvent event (if isUnsetJson info then .null else info) (if time = unsetDouble then 0 else time)

def handleCamTriggerEvent (p : camTriggerEvent.Value) : Except Fault Json :=
  let (event, time, info, _) := p
  if ifSet event "" = "" then .ok (done id c .invalidParam)
  else (cb (triggered event time info)).map (acknowledge id c .invalidParam)

def handleCamUpdatePreview (config : ManagerConfig) : Except Fault Json :=
  (cb (.onUpdatePreview config)).map (acknowledge id c .cmError)

/-! ### Settings of the camera -/

def handleGetMotionDetection : Except Fault Json :=
  (cb .onGetMotionDetectionConfig).bind (fillIn id c .systemError .motionDetectionConf)

def handleSetMotionDetection (p : motionDetectionConfig.Value) : Except Fault Json :=
  (cb (.onSetMotionDetectionConfig p)).map (acknowledge id c .invalidParam)

def handleGetAudioDetection : Except Fault Json :=
  (cb .onGetAudioDetection).bind (fillIn id c .notSupported .audioDetectionConf)

def handleSetAudioDetection (p : audioDetectionConfig.Value) : Except Fault Json :=
  (cb (.onSetAudioDetection p)).map (acknowledge id c .notSupported)

def handleGetCamAudioConf : Except Fault Json :=
  (cb .onGetCamAudioConfig).bind (fillIn id c .systemError .camAudioConf)

def handleSetCamAudioConf (p : audioConfig.Value) : Except Fault Json :=
  (cb (.onSetCamAudioConfig p)).map (acknowledge id c .invalidParam)

def handleGetCamVideoConf : Except Fault Json :=
  (cb .onGetCamVideoConfig).bind (fillIn id c .systemError .camVideoConf)

def handleSetCamVideoConf (p : videoConfig.Value) : Except Fault Json :=
  (cb (.onSetCamVideoConfig p)).map (acknowledge id c .invalidParam)

def handleGetOsdConf : Except Fault Json :=
  (cb .onGetOsdConfig).bind (fillIn id c .cmError .osdConf)

def handleSetOsdConf (p : osdConfig.Value) : Except Fault Json :=
  (cb (.onSetOsdConfig p)).map (acknowledge id c .invalidParam)

def handleSetCamParameter (p : setCamParameter.Value) : Except Fault Json :=
  (cb (.onSetActivity p.2.1)).map fun _ => done id c .ok

def handleCamUpgradeFirmware (p : urlCommand.Value) : Except Fault Json :=
  (cb (.onCamUpgradeFirmware p.1)).map (acknowledge id c .cmError)

def handleCamGetLog : Except Fault Json :=
  (cb .onGetLog).map (acknowledge id c .cmError)

def handleCamListWifi : Except Fault Json :=
  (cb .onGetWifiConfig).bind (fillIn id c .systemError .camWifiList)

/-- The error for a result that is false is built, but not returned. -/
def handleCamSetCurrentWifi (p : wifiNetwork.Value) : Except Fault Json :=
  (cb (.onSetWifiConfig p)).map fun _ => done id c .ok

def handleGetPtzConf : Except Fault Json :=
  (cb .onGetPtzConfig).bind (fillIn id c .notSupported .camPtzConf)

def handleCamPtz (p : ptzCommand.Value) : Except Fault Json :=
  (cb (.onCamPtz p)).map (acknowledge id c .systemError)

/-- The reply to an operation with a preset, which the callee may have changed. -/
def presetReply : Option ptzPreset.Value → Except Fault Json
  | none => .ok (done id c .systemError)
  | some (token, _, action, _) =>
    if (action matches .create) && !text.unset token then answer id c .camPtzPresetCreated (token, ())
    else .ok (done id c .ok)

def handleCamPtzPreset (p : ptzPreset.Value) : Except Fault Json :=
  (cb (.onCamPtzPreset p)).bind (presetReply id c)

/-! ### Audio and messages -/

def handleBackwardStart (p : urlCommand.Value) : Except Fault Json :=
  if text.unset p.1 then .ok (done id c .missedParam)
  else (cb (.onStartBackward p.1)).map (acknowledge id c .systemError)

/-- The result is not looked at. -/
def handleBackwardStop (p : backwardStop.Value) : Except Fault Json :=
  (cb (.onStopBackward p.1)).map fun _ => done id c .ok

def handleAudioFilePlay (p : urlCommand.Value) : Except Fault Json :=
  if text.unset p.1 then .ok (done id c .missedParam)
  else (cb (.onAudioFilePlay p.1)).map (acknowledge id c .systemError)

/-- The message that is sent back, besides the reply. -/
def rawMessageReply (id' : Int32) (clientId : String) : Option String → List Json
  | some message =>
    if message = "" then []
    else [Command.toJson ⟨.rawMessage, id', unsetInt32, unsetInt32, unsetString, (clientId, message, ())⟩]
  | none => []

def handleRawMessage (id' : Int32) (p : rawMessage.Value) : Except Fault (List Json × Json) :=
  let (clientId, message, _) := p
  if text.unset message then .ok ([], done id c .ok)
  else (cb (.onRawMessage clientId message)).map fun r => (rawMessageReply id' clientId r, done id c .ok)

/-- `handle_raw_message_client_connected` and `handle_raw_message_client_disconnected`. -/
def handleRawMessageClient : Except Fault Json := .ok (done id c .ok)

/-! ### Memory card -/

def handleGetCamMemorycardTimeline (p : getCamMemorycardTimeline.Value) : Except Fault Json :=
  let (requestId, start, stop, _) := p
  (cb (.onGetCamMemorycardTimeline (requestId, [], start, stop, ()))).bind
    (fillIn id c .cmError .camMemorycardTimeline)

/-- The status that a synchronization starts with. -/
def syncStatus (requestId : String) : camMemorycardSynchronizeStatus.Value :=
  (requestId, unsetInt32, MemorycardSyncStatus.invalid, ())

/-- The reply to a synchronization, whose status the callee may have changed. -/
def syncReply : Option camMemorycardSynchronizeStatus.Value → Except Fault Json
  | none => .ok (done id c .cmError)
  | some (requestId, progress, _) =>
    answer id c .camMemorycardSynchronizeStatus (requestId, progress, MemorycardSyncStatus.pending, ())

def handleCamMemorycardSynchronize (p : camMemorycardSynchronize.Value) : Except Fault Json :=
  let (requestId, start, stop, _, cancelRequests, _) := p
  (callAll cb (cancelRequests.map .onCamMemorycardSynchronizeCancel)).bind fun _ =>
    (cb (.onCamMemorycardSynchronize (syncStatus requestId) start stop)).bind (syncReply id c)

/-- A status is made and not sent. -/
def handleCamMemorycardSynchronizeCancel (p : camMemorycardSynchronizeCancel.Value) : Except Fault Json :=
  (answer id c .camMemorycardSynchronizeStatus (p.1, unsetInt32, MemorycardSyncStatus.canceled, ())).bind fun _ =>
    (cb (.onCamMemorycardSynchronizeCancel p.1)).map fun _ => done id c .ok

def handleCamMemorycardRecording (p : camMemorycardRecording.Value) : Except Fault Json :=
  let (streamId, enabled, _) := p
  (cb (.onCamMemorycardRecording streamId (enabled matches .bTrue))).map fun _ => done id c .ok

end handlers

/-! ### Received messages -/

section message
variable (cb : Callbacks) (accepts : Json → Bool) (id id' : Int32)

/-- The handler of a type, for the types whose handlers change nothing of the state and send nothing themselves. A type
without a handler is not answered. -/
def respond (config : ManagerConfig) (c : Command) : (t : CommandType) → t.payload.Value → Except Fault Json
  | .getCamStatus, _ => handleGetCamStatus id c config
  | .getSupportedStreams, _ => handleGetSupportedStreams cb id c
  | .streamStart, p => handleStreamStart cb id c p
  | .streamStop, p => handleStreamStop cb id c p
  | .camUpdatePreview, _ => handleCamUpdatePreview cb id c config
  | .camUpgradeFirmware, p => handleCamUpgradeFirmware cb id c p
  | .getAudioDetection, _ => handleGetAudioDetection cb id c
  | .setAudioDetection, p => handleSetAudioDetection cb id c p
  | .getCamAudioConf, _ => handleGetCamAudioConf cb id c
  | .getCamEvents, _ => handleGetCamEvents cb id c
  | .getCamVideoConf, _ => handleGetCamVideoConf cb id c
  | .directUploadUrl, p => handleDirectUploadUrl cb id c p
  | .getMotionDetection, _ => handleGetMotionDetection cb id c
  | .getStreamByEvent, _ => handleGetStreamByEvent cb id c
  | .setStreamByEvent, p => handleSetStreamByEvent cb id c p
  | .getStreamCaps, p => handleGetStreamCaps cb id c p
  | .getStreamConfig, p => handleGetStreamConfig cb id c p
  | .setCamAudioConf, p => handleSetCamAudioConf cb id c p
  | .setCamEvents, p => handleSetCamEvents cb id c p
  | .setCamVideoConf, p => handleSetCamVideoConf cb id c p
  | .setMotionDetection, p => handleSetMotionDetection cb id c p
  | .setStreamConfig, p => handleSetStreamConfig cb id c p
  | .getPtzConf, _ => handleGetPtzConf cb id c
  | .camPtz, p => handleCamPtz cb id c p
  | .camPtzPreset, p => handleCamPtzPreset cb id c p
  | .rawMessageClientConnected, _ | .rawMessageClientDisconnected, _ => handleRawMessageClient id c
  | .camGetLog, _ => handleCamGetLog cb id c
  | .getOsdConf, _ => handleGetOsdConf cb id c
  | .setOsdConf, p => handleSetOsdConf cb id c p
  | .setCamParameter, p => handleSetCamParameter cb id c p
  | .camTriggerEvent, p => handleCamTriggerEvent cb id c p
  | .backwardStart, p => handleBackwardStart cb id c p
  | .backwardStop, p => handleBackwardStop cb id c p
  | .camSetCurrentWifi, p => handleCamSetCurrentWifi cb id c p
  | .camListWifi, _ => handleCamListWifi cb id c
  | .audioFilePlay, p => (handleAudioFilePlay cb id c p).map fun _ => .null
  | .getCamMemorycardTimeline, p => handleGetCamMemorycardTimeline cb id c p
  | .camMemorycardSynchronize, p => handleCamMemorycardSynchronize cb id c p
  | .camMemorycardSynchronizeCancel, p => handleCamMemorycardSynchronizeCancel cb id c p
  | .camMemorycardRecording, p => handleCamMemorycardRecording cb id c p
  | _, _ => .ok .null

/-- The dispatch of `handleMessage`: the new state, what the handler sends by itself, and its reply. -/
def dispatch (h : Handler) (c : Command) :
    (t : CommandType) → t.payload.Value → Except Fault (Handler × List Json × Json)
  | .hello, p => handleHello cb accepts id id' h c p
  | .configure, p => handleConfigure cb id h c p
  | .camHello, p => handleCamHello cb id h c p
  | .bye, p => .ok (handleBye h p, [], .null)
  | .rawMessage, p => (handleRawMessage cb id c id' p).map fun r => (h, r)
  | t, p => (respond cb id h.config c t p).map fun r => (h, [], r)

/-- Whether the command is for another camera. -/
def rejects (h : Handler) (c : Command) : Bool :=
  c.camId ≠ unsetInt32 ∧ h.config.camId ≠ 0 ∧ c.camId.toInt ≠ h.config.camId

/-- An acknowledgement runs with the command. That of a record casts the command to an upload url and uses what
it gets. -/
def AckRun.run (c : Command) : AckRun → Except Fault Unit
  | .directUploadVideo => if c.type = .directUploadUrl then .ok () else .error .null
  | .event => .ok ()

/-- `_handle_command_ack`. -/
def handleCommandAck (h : Handler) (c : Command) : Except Fault Handler :=
  match h.commands.handleCommandAck c.refid.toInt with
  | (none, commands) => .ok { h with commands }
  | (some ack, commands) => (ack.run.run c).map fun _ => { h with commands }

/-- `send_command` of a JSON value, which sends nothing that is empty. -/
def sendCommand : Json → List Json
  | .null | .arr [] | .obj [] => []
  | j => [j]

/-- `handleMessage` of a parsed command: the new state, and what is sent. -/
def handleCommand (h : Handler) (c : Command) : Except Fault (Handler × List Json) :=
  if rejects h c then .ok (h, sendCommand (done id c .cmError))
  else
    (handleCommandAck h c).bind fun h =>
      (dispatch cb accepts id id' h c c.type c.payload).map fun (h, sent, r) => (h, sent ++ sendCommand r)

/-- `handleMessage`. The message ids are those that the parsed command gets by itself, the reply, and a command that
is sent besides the reply. -/
def handleMessage (ids : Int32 × Int32 × Int32) (h : Handler) (message : Json) :
    Except Fault (Handler × List Json) :=
  match Command.parse ids.1 message with
  | none => .error .exception
  | some none => .ok (h, [])
  | some (some c) => handleCommand cb accepts ids.2.1 ids.2.2 h c

end message
end CloudAgent.Proto.Handlers
