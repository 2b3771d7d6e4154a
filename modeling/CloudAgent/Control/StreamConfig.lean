import CloudAgent.Control.Media
import CloudAgent.Proto.Completes

/-! The settings of streams: how the manager reads them from its streams and applies new ones, and which replies say
that an operation went well. -/
namespace CloudAgent.Control
open Proto Wire Handlers

/-- What a stream answers while one command is handled. The functions that fill an object in give it back as they
leave it, with what they return. -/
structure ConfigStream extends MediaStream where
  getSupportedStream : supportedStreamConfig.Value → Bool × supportedStreamConfig.Value
  getStreamConfig : streamConfig.Value → Bool × streamConfig.Value
  setStreamConfig : streamConfig.Value → Bool
  getStreamCaps : streamCaps.Value → Bool × streamCaps.Value

/-! ### Reading -/

section fill
variable {α : Type} (fill : ConfigStream → α → Bool × α)

/-- The loop of `on_get_stream_config` and of `on_get_stream_caps`: each stream in turn fills the object in. -/
def fillAll (streams : List ConfigStream) (conf : α) : Bool × α :=
  streams.foldl (fun (result, conf) s => (result || (fill s conf).1, (fill s conf).2)) (true, conf)

/-- What the streams return in that loop. -/
def fillResults : List ConfigStream → α → List Bool
  | [], _ => []
  | s :: streams, conf => (fill s conf).1 :: fillResults streams (fill s conf).2

/-- The result is the one that the loop starts with, or that of any stream. -/
theorem foldl_fill (streams : List ConfigStream) (result : Bool) (conf : α) :
    (streams.foldl (fun (result, conf) s => (result || (fill s conf).1, (fill s conf).2)) (result, conf)).1 =
      (result || (fillResults fill streams conf).any id) := by
  induction streams generalizing result conf with
  | nil => simp [fillResults]
  | cons s streams ih =>
    rw [List.foldl_cons, ih, fillResults, List.any_cons, id, Bool.or_assoc]

/-- It starts with true. -/
theorem fillAll_fst (streams : List ConfigStream) (conf : α) : (fillAll fill streams conf).1 = true := by
  rw [fillAll, foldl_fill, Bool.true_or]

/-- The object, if the result is true. -/
def filled : Bool × α → Option α
  | (true, conf) => some conf
  | (false, _) => none

theorem filled_fillAll (streams : List ConfigStream) (conf : α) :
    filled (fillAll fill streams conf) = some (fillAll fill streams conf).2 := by
  have hresult := fillAll_fst fill streams conf
  cases hfill : fillAll fill streams conf with
  | mk result conf' =>
    rw [hfill] at hresult
    obtain rfl : result = true := hresult
    rfl

end fill

def onGetStreamConfig (streams : List ConfigStream) : streamConfig.Value → Bool × streamConfig.Value :=
  fillAll ConfigStream.getStreamConfig streams

def onGetStreamCaps (streams : List ConfigStream) : streamCaps.Value → Bool × streamCaps.Value :=
  fillAll ConfigStream.getStreamCaps streams

/-! ### Settings that change -/

/-- The comparison of one member: a member that is not set is equal to any other. -/
def agree {α : Type} [DecidableEq α] (unset : α → Bool) (a b : α) : Bool := a = b || (unset a || unset b)

/-- `operator==` of `video_stream_config`, which compares neither the quality nor the smoothing. -/
def sameVideo (v w : videoStreamConfig.Value) : Bool :=
  let (stream, format, profile, horz, vert, fps, vbr, _, gop, brt, vbrBrt, _) := v
  let (stream', format', profile', horz', vert', fps', vbr', _, gop', brt', vbrBrt', _) := w
  agree text.unset stream stream' && agree text.unset profile profile' && agree int.unset brt brt' &&
    agree videoFormat.codec.unset format format' && agree double.unset fps fps' && agree int.unset gop gop' &&
    agree int.unset horz horz' && agree int.unset vert vert' && agree flag.unset vbr vbr' &&
    agree int.unset vbrBrt vbrBrt'

/-- `operator==` of `audio_stream_config`. -/
def sameAudio (v w : audioStreamConfig.Value) : Bool :=
  let (stream, format, brt, srt, _) := v
  let (stream', format', brt', srt', _) := w
  agree text.unset stream stream' && agree audioFormat.codec.unset format format' && agree int.unset brt brt' &&
    agree double.unset srt srt'

def unsetVideo : videoStreamConfig.Value := videoStreamConfig.part.read .null

def unsetAudio : audioStreamConfig.Value := audioStreamConfig.part.read .null

/-- `es_streams` and `current_stream_conf` of a stream. A stream that describes nothing has no current settings, but may
have changed the description. -/
def currentConfig (s : ConfigStream) : supportedStreamConfig.Value × streamConfig.Value :=
  let (supported, id, video, audio, u) := s.getSupportedStream (unsetString, unsetString, unsetString, ())
  if supported then
    let asked : streamConfig.Value :=
      (if text.unset video then [] else [(video, unsetVideo.2)],
        if text.unset audio then [] else [(audio, unsetAudio.2)], ())
    ((id, video, audio, u), (s.getStreamConfig asked).2)
  else ((id, video, audio, u), ([], [], ()))

/-- The settings are for the elementary stream `es`, and one of them is not its current setting: the last of the current
ones with its name, or the one that is not set. -/
def changes {α : Type} (stream : α → String) (same : α → α → Bool) (unset : α) (current : List α)
    (es : String) (config : List α) : Bool :=
  config.any fun v =>
    let vc := current.foldl (fun vc c => if stream c = stream v then c else vc) unset
    es = stream v && !same v vc

/-- `apply` of `on_set_stream_config`: the settings change those of the stream. -/
def ConfigStream.applies (s : ConfigStream) (config : streamConfig.Value) : Bool :=
  let ((_, video, audio, _), current) := currentConfig s
  changes (fun v => v.1) sameVideo unsetVideo current.1 video config.1 ||
    changes (fun a => a.1) sameAudio unsetAudio current.2.1 audio config.2.1

/-! ### Applying settings -/

/-- What is left to the receive thread. -/
inductive RestartTask
  | stopStream (streamId : String)
  | startRecordByEvent (streamId : String)
  deriving DecidableEq, Repr

section apply
variable (env : Env) (m : Media)

/-- The recording is stopped and started again, if it is wanted for good. -/
def restartRecording (s : String) (r : Recorder) : Recorder :=
  let permanent := (r.recordingStatus s).permanent
  let r := (r.setStatus s fun st => { st with byEvent := false, permanent := false }).stopRecording false s
  (r.setStatus s fun st => { st with permanent }).startRecording env s

/-- The end of a pass of `on_set_stream_config`: the stream is stopped, and the cloud starts it again. -/
def restart (s : String) (r : Recorder × List RestartTask) : Recorder × List RestartTask :=
  let restartByEvent := m.recordStream = some s && (m.recordByEvent || m.streamByEvent)
  (if m.recordStream = some s then restartRecording env s r.1 else r.1,
    r.2 ++ .stopStream s :: if restartByEvent then [.startRecordByEvent s] else [])

/-- One pass of `on_set_stream_config`. -/
def setOne (config : streamConfig.Value) (r : Bool × Recorder × List RestartTask) (s : ConfigStream) :
    Bool × Recorder × List RestartTask :=
  if s.applies config then
    let result := r.1 || s.setStreamConfig config
    (result, if result then restart env m s.cloudName r.2 else r.2)
  else r

/-- `on_set_stream_config`. -/
def onSetStreamConfig (streams : List ConfigStream) (config : streamConfig.Value) :
    Bool × Recorder × List RestartTask :=
  streams.foldl (setOne env m config) (true, m.recorder, [])

theorem setOne_true (config : streamConfig.Value) (r : Recorder × List RestartTask) (s : ConfigStream) :
    setOne env m config (true, r) s = (true, if s.applies config then restart env m s.cloudName r else r) := by
  cases happlies : s.applies config <;> simp [setOne, happlies]

/-- The result is true, and every stream that the settings are applied to is restarted, whatever it returns. -/
theorem onSetStreamConfig_eq (streams : List ConfigStream) (config : streamConfig.Value) :
    onSetStreamConfig env m streams config =
      (true, (streams.filter fun s => s.applies config).foldl (fun r s => restart env m s.cloudName r)
        (m.recorder, [])) := by
  rw [onSetStreamConfig]
  generalize (m.recorder, ([] : List RestartTask)) = r
  induction streams generalizing r with
  | nil => rfl
  | cons s streams ih =>
    rw [List.foldl_cons, setOne_true, ih, List.filter_cons]
    cases s.applies config <;> rfl

theorem restart_stops (s n : String) (r : Recorder × List RestartTask) :
    .stopStream n ∈ (restart env m s r).2 ↔ .stopStream n ∈ r.2 ∨ s = n := by
  simp only [restart]
  split <;> simp [eq_comm]

theorem foldl_restart_stops (streams : List ConfigStream) (n : String) (r : Recorder × List RestartTask) :
    .stopStream n ∈ (streams.foldl (fun r s => restart env m s.cloudName r) r).2 ↔
      .stopStream n ∈ r.2 ∨ ∃ s ∈ streams, s.cloudName = n := by
  induction streams generalizing r with
  | nil => simp
  | cons s streams ih =>
    rw [List.foldl_cons, ih, restart_stops, or_assoc]
    simp

/-- The streams that are stopped are those that the settings are applied to. -/
theorem onSetStreamConfig_stops (streams : List ConfigStream) (config : streamConfig.Value) (n : String) :
    .stopStream n ∈ (onSetStreamConfig env m streams config).2.2 ↔
      ∃ s ∈ streams, s.applies config = true ∧ s.cloudName = n := by
  rw [onSetStreamConfig_eq, foldl_restart_stops]
  simp [and_assoc]

end apply

/-! ### Replies -/

/-- The manager's functions for its streams; the others do what they do. -/
def managerCallbacks (env : Env) (m : Media) (streams : List ConfigStream) (cb : Callbacks) : Callbacks
  | .onGetStreamConfig config => .ok (filled (onGetStreamConfig streams config))
  | .onSetStreamConfig config => .ok (onSetStreamConfig env m streams config).1
  | .onGetStreamCaps caps => .ok (filled (onGetStreamCaps streams caps))
  | call => cb call

/-- The reply is `done` with the status. -/
def IsDone (status : DoneStatus) (j : Json) : Prop :=
  j.at? "cmd" = some (.str "done") ∧ j.at? "status" = some (doneStatus.toJson status)

section replies
variable (id : Int32) (c : Command)

theorem done_ok_isDone : IsDone .ok (Handlers.done id c .ok) := by
  refine ⟨Command.at?_toJson_cmd _, ?_⟩
  exact Json.at?_set_self ..

theorem not_isDone_answer (status : DoneStatus) (t : CommandType) (ht : t.name ≠ "done") (p : t.payload.Value) :
    ¬ IsDone status (Command.toJson ⟨t, id, c.camId, c.msgid, c.type.name, p⟩) := by
  rintro ⟨hcmd, -⟩
  rw [Command.at?_toJson_cmd] at hcmd
  exact ht (Json.str.inj (Option.some.inj hcmd))

/-- A reply with what the streams have filled in, whatever they return. -/
theorem fillIn_fillAll (err : DoneStatus) (t : CommandType) (ht : t ∈ replyTable) (hr : t ≠ .camRegister)
    (fill : ConfigStream → t.payload.Value → Bool × t.payload.Value) (streams : List ConfigStream)
    (conf : t.payload.Value) :
    fillIn id c err t (filled (fillAll fill streams conf)) =
      .ok (Command.toJson ⟨t, id, c.camId, c.msgid, c.type.name, (fillAll fill streams conf).2⟩) := by
  rw [filled_fillAll]
  exact answer_eq id c ht hr _

end replies

section reports
variable (env : Env) (m : Media) (streams : List ConfigStream) (cb : Callbacks)

/-- The operation that a command asks for has failed: the settings are applied to a stream that refuses them, no stream
fills the object in, or the device answers with false. -/
def Fails : (t : CommandType) → t.payload.Value → Prop
  | .setStreamConfig, p => ∃ s ∈ streams, s.applies p = true ∧ s.setStreamConfig p = false
  | .getStreamConfig, p =>
    ∀ ok ∈ fillResults ConfigStream.getStreamConfig streams (elementaryStreams.config p), ok = false
  | .getStreamCaps, p =>
    ∀ ok ∈ fillResults ConfigStream.getStreamCaps streams (elementaryStreams.caps p), ok = false
  | .camSetCurrentWifi, p => cb (.onSetWifiConfig p) = .ok false
  | .backwardStop, p => cb (.onStopBackward p.1) = .ok false
  | _, _ => False

/-- What the replies, and the manager, should do if the operation has failed: what no stream fills in is answered
with an error, and the others are not acknowledged. A stream that refuses settings is not stopped. -/
def Reported (reply : Json → Prop) : (t : CommandType) → t.payload.Value → Prop
  | .setStreamConfig, p =>
    (∀ j, reply j → ¬ IsDone .ok j) ∧
      ∀ s ∈ streams, s.applies p = true → s.setStreamConfig p = false →
        .stopStream s.cloudName ∉ (onSetStreamConfig env m streams p).2.2
  | .getStreamConfig, _ | .getStreamCaps, _ => ∀ j, reply j → ∃ status ≠ .ok, IsDone status j
  | .camSetCurrentWifi, _ | .backwardStop, _ => ∀ j, reply j → ¬ IsDone .ok j
  | _, _ => True

variable (id : Int32) (config : ManagerConfig) (c : Command)

/-- The reply of the handler with these streams and this device. -/
def replies (t : CommandType) (p : t.payload.Value) (j : Json) : Prop :=
  respond (managerCallbacks env m streams cb) id config c t p = .ok j

/-- Settings are acknowledged, whatever the streams return. -/
theorem setStreamConfig_replies (p : streamConfig.Value) :
    replies env m streams cb id config c .setStreamConfig p (Handlers.done id c .ok) := by
  change Except.ok (acknowledge id c .invalidParam (onSetStreamConfig env m streams p).1) = _
  rw [onSetStreamConfig_eq]
  rfl

theorem getStreamConfig_replies (p : elementaryStreams.Value) :
    ∃ conf, replies env m streams cb id config c .getStreamConfig p
      (Command.toJson ⟨.streamConfig, id, c.camId, c.msgid, c.type.name, conf⟩) := by
  exact ⟨_, fillIn_fillAll id c .systemError .streamConfig (by decide) (by decide)
    ConfigStream.getStreamConfig streams (elementaryStreams.config p)⟩

theorem getStreamCaps_replies (p : elementaryStreams.Value) :
    ∃ caps, replies env m streams cb id config c .getStreamCaps p
      (Command.toJson ⟨.streamCaps, id, c.camId, c.msgid, c.type.name, caps⟩) := by
  exact ⟨_, fillIn_fillAll id c .cmError .streamCaps (by decide) (by decide)
    ConfigStream.getStreamCaps streams (elementaryStreams.caps p)⟩

theorem camSetCurrentWifi_replies (p : wifiNetwork.Value) {ok : Bool} (hcb : cb (.onSetWifiConfig p) = .ok ok) :
    replies env m streams cb id config c .camSetCurrentWifi p (Handlers.done id c .ok) := by
  change (cb (.onSetWifiConfig p)).map _ = _
  rw [hcb]
  rfl

theorem backwardStop_replies (p : backwardStop.Value) {ok : Bool} (hcb : cb (.onStopBackward p.1) = .ok ok) :
    replies env m streams cb id config c .backwardStop p (Handlers.done id c .ok) := by
  change (cb (.onStopBackward p.1)).map _ = _
  rw [hcb]
  rfl

/-- None of these failures is reported: an operation does as it should just if it does not fail. -/
theorem respond_reports_iff (t : CommandType) (p : t.payload.Value) :
    (Fails streams cb t p → Reported env m streams (replies env m streams cb id config c t p) t p) ↔
      ¬ Fails streams cb t p := by
  refine ⟨fun h hfails => ?_, fun h hfails => absurd hfails h⟩
  have hreported := h hfails
  cases t with
  | setStreamConfig =>
    have hreply := setStreamConfig_replies env m streams cb id config c p
    exact hreported.1 _ hreply (done_ok_isDone id c)
  | getStreamConfig =>
    obtain ⟨conf, hreply⟩ := getStreamConfig_replies env m streams cb id config c p
    obtain ⟨status, -, hdone⟩ := hreported _ hreply
    exact not_isDone_answer id c status .streamConfig (by decide) conf hdone
  | getStreamCaps =>
    obtain ⟨caps, hreply⟩ := getStreamCaps_replies env m streams cb id config c p
    obtain ⟨status, -, hdone⟩ := hreported _ hreply
    exact not_isDone_answer id c status .streamCaps (by decide) caps hdone
  | camSetCurrentWifi =>
    exact hreported _ (camSetCurrentWifi_replies env m streams cb id config c p hfails) (done_ok_isDone id c)
  | backwardStop =>
    exact hreported _ (backwardStop_replies env m streams cb id config c p hfails) (done_ok_isDone id c)
  | _ => exact hfails

end reports

/-- Settings of a video, of which only the bitrate is given. -/
def video0 (brt : Int32) : videoStreamConfig.Value :=
  ("Video0", VideoFormat.invalid, unsetString, unsetInt32, unsetInt32, unsetDouble, false, unsetInt32, unsetInt32, brt,
    unsetInt32, unsetInt32, ())

/-- A stream with one video, sent at 1000 kbit/s, that takes no settings. -/
def fixedStream : ConfigStream where
  cloudName := "Main"
  recordNeedsSource := true
  named := by decide
  getSupportedStream _ := (true, "Main", "Video0", unsetString, ())
  getStreamConfig _ := (true, [video0 1000], [], ())
  setStreamConfig _ := false
  getStreamCaps caps := (false, caps)

def fixedDevice : Device where
  streams := [fixedStream.toMediaStream]
  eventStreams := []
  eventStreams_nodup := List.nodup_nil

/-- A request for another bitrate. -/
def faster : streamConfig.Value := ([video0 2000], [], ())

/-- Everything can be started, and nothing is heard of a memory card. -/
def Env.idle : Env := ⟨0, fun _ => true, fun _ => true, fun _ => true, none⟩

/-- The stream refuses the bitrate. It is acknowledged, and the stream is stopped. -/
theorem faster_fails_unreported :
    Fails [fixedStream] refusing .setStreamConfig faster ∧
      ¬ Reported .idle (Media.start fixedDevice) [fixedStream]
        (replies .idle (Media.start fixedDevice) [fixedStream] refusing 101 waiting.config
          (Command.read .setStreamConfig 100 .null) .setStreamConfig faster) .setStreamConfig faster := by
  have happlies : fixedStream.applies faster = true := by decide +kernel
  refine ⟨⟨fixedStream, List.mem_singleton_self _, happlies, rfl⟩, ?_⟩
  rintro ⟨-, hstopped⟩
  refine hstopped fixedStream (List.mem_singleton_self _) happlies rfl ?_
  exact (onSetStreamConfig_stops ..).mpr ⟨fixedStream, List.mem_singleton_self _, happlies, rfl⟩

end CloudAgent.Control
