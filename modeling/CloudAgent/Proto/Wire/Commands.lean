import CloudAgent.Proto.Wire.Event

/-! The commands of the protocol: their types with the members of each, and how `factory` tells the type
of a received one. -/
namespace CloudAgent.Proto.Wire

/-! ### The members of the commands -/

def noMembers : Schema where
  fields := []
  distinct := by decide

def registerCmd : Schema where
  fields := [str "ver", str "tz", str "vendor", str "pwd", str "prev_sid", str "reg_token",
    many "media_protocols" text]
  distinct := by decide

def camRegister : Schema where
  fields := [str "ip", str "uuid", str "brand", str "model", str "sn", bool "raw_messaging", str "version",
    str "type" ""]
  distinct := by decide

/-- `status` is not part of the protocol. -/
def hello : Schema where
  fields := [str "ca", str "sid", str "upload_uri", str "upload_url", str "media_server", str "connid"]
  distinct := by decide

def configure : Schema where
  fields := [str "pwd", str "uuid", str "connid", str "tz", str "server"]
  distinct := by decide

/-- `activity` is documented and not listed. -/
def camHello : Schema where
  fields := [str "path", str "media_uri", str "backward_uri", str "mode", ⟨.unlisted false⟩]
  distinct := by decide

def streamStart : Schema where
  fields := [enum "reason" streamReason .invalid, str "stream_id", num "publish_session_id",
    alter "storage_direct_recording"]
  distinct := by decide

def streamStop : Schema where
  fields := [enum "reason" streamReason .invalid, str "stream_id"]
  distinct := by decide

/-- A command with an `url` that is empty at first. -/
def urlCommand : Schema where
  fields := [str "url" ""]
  distinct := by decide

def backwardStop : Schema where
  fields := [str "url"]
  distinct := by decide

/-- `event_id` is declared and not listed. -/
def directUploadUrl : Schema where
  fields := directUploadUrlBase.fields ++ [⟨.unlisted unsetInt32⟩, many "extra" directUploadUrlBase.codec]
  distinct := by decide

/-- What the source marks as internal is not part of the protocol. -/
def getDirectUploadUrl : Schema where
  fields := [enum "category" uploadCategory .invalid uploadCategory_null, enum "type" mediaType .invalid, str "stream_id",
    str "file_time", num "duration", num "size", num "width", num "height"]
  distinct := by decide

/-- Both lists are unset at first, which means all streams. -/
def elementaryStreams : Schema where
  fields := [many "video_es" text [unsetString], many "audio_es" text [unsetString]]
  distinct := by decide

def camPtzPresetCreated : Schema where
  fields := [str "token"]
  distinct := by decide

def rawMessage : Schema where
  fields := [str "client_id", str "message"]
  distinct := by decide

/-- `raw_message_client_connected` and `raw_message_client_disconnected`. -/
def rawMessageClient : Schema where
  fields := [str "client_id"]
  distinct := by decide

def setCamParameter : Schema where
  fields := [bool "status_led", bool "activity"]
  distinct := by decide

def camTriggerEvent : Schema where
  fields := [str "event", real "time", anyJson "meta"]
  distinct := by decide

def bye : Schema where
  fields := [enum "reason" byeReason .invalid, num "retry"]
  distinct := by decide

def reportProblem : Schema where
  fields := [str "reason" ""]
  distinct := by decide

def camStatus : Schema where
  fields := [str "ip", bool "activity", bool "streaming", bool "status_led"]
  distinct := by decide

def getCamMemorycardTimeline : Schema where
  fields := [str "request_id", str "start", str "end"]
  distinct := by decide

def camMemorycardTimeline : Schema where
  fields := [str "request_id", many "data" memorycardTimelineData.codec, str "start", str "end"]
  distinct := by decide

def camMemorycardSynchronize : Schema where
  fields := [str "request_id", str "start", str "end", alter "exclude_overlap", many "cancel_requests" text]
  distinct := by decide

def camMemorycardSynchronizeStatus : Schema where
  fields := [str "request_id", num "progress", enum "status" memorycardSyncStatus .invalid]
  distinct := by decide

def camMemorycardSynchronizeCancel : Schema where
  fields := [str "request_id"]
  distinct := by decide

def camMemorycardRecording : Schema where
  fields := [str "stream_id", alter "enabled"]
  distinct := by decide

def done : Schema where
  fields := [enum "status" doneStatus .invalid]
  distinct := by decide

/-! ### The types of commands -/

inductive CommandType
  | registerCmd | camRegister | hello | configure | getCamStatus | getSupportedStreams | supportedStreams
  | camHello | streamStart | streamStop | camUpdatePreview | camUpgradeFirmware | getAudioDetection
  | setAudioDetection | audioDetectionConf | getCamAudioConf | getCamEvents | setCamEvents | camEventsConf
  | camEvent | getCamVideoConf | camVideoConf | directUploadUrl | getDirectUploadUrl | getMotionDetection
  | motionDetectionConf | getStreamByEvent | streamByEventConf | setStreamByEvent | getStreamCaps | streamCaps
  | getStreamConfig | streamConfig | setCamAudioConf | camAudioConf | setCamVideoConf | setMotionDetection
  | setStreamConfig | getPtzConf | camPtzConf | camPtz | camPtzPreset | camPtzPresetCreated | rawMessage
  | rawMessageClientConnected | rawMessageClientDisconnected | camGetLog | getOsdConf | osdConf | setOsdConf
  | setCamParameter | camTriggerEvent | backwardStart | backwardStop | camSetCurrentWifi | camListWifi
  | camWifiList | bye | reportProblem | camStatus | audioFilePlay | getCamMemorycardTimeline
  | camMemorycardTimeline | camMemorycardSynchronize | camMemorycardSynchronizeStatus
  | camMemorycardSynchronizeCancel | camMemorycardRecording | done
  deriving DecidableEq, Repr

namespace CommandType

/-- The value of `cmd`. -/
def name : CommandType → String
  | .registerCmd => "register"
  | .camRegister => "cam_register"
  | .hello => "hello"
  | .configure => "configure"
  | .getCamStatus => "get_cam_status"
  | .getSupportedStreams => "get_supported_streams"
  | .supportedStreams => "supported_streams"
  | .camHello => "cam_hello"
  | .streamStart => "stream_start"
  | .streamStop => "stream_stop"
  | .camUpdatePreview => "cam_update_preview"
  | .camUpgradeFirmware => "cam_upgrade_firmware"
  | .getAudioDetection => "get_audio_detection"
  | .setAudioDetection => "set_audio_detection"
  | .audioDetectionConf => "audio_detection_conf"
  | .getCamAudioConf => "get_cam_audio_conf"
  | .getCamEvents => "get_cam_events"
  | .setCamEvents => "set_cam_events"
  | .camEventsConf => "cam_events_conf"
  | .camEvent => "cam_event"
  | .getCamVideoConf => "get_cam_video_conf"
  | .camVideoConf => "cam_video_conf"
  | .directUploadUrl => "direct_upload_url"
  | .getDirectUploadUrl => "get_direct_upload_url"
  | .getMotionDetection => "get_motion_detection"
  | .motionDetectionConf => "motion_detection_conf"
  | .getStreamByEvent => "get_stream_by_event"
  | .streamByEventConf => "stream_by_event_conf"
  | .setStreamByEvent => "set_stream_by_event"
  | .getStreamCaps => "get_stream_caps"
  | .streamCaps => "stream_caps"
  | .getStreamConfig => "get_stream_config"
  | .streamConfig => "stream_config"
  | .setCamAudioConf => "set_cam_audio_conf"
  | .camAudioConf => "cam_audio_conf"
  | .setCamVideoConf => "set_cam_video_conf"
  | .setMotionDetection => "set_motion_detection"
  | .setStreamConfig => "set_stream_config"
  | .getPtzConf => "get_ptz_conf"
  | .camPtzConf => "cam_ptz_conf"
  | .camPtz => "cam_ptz"
  | .camPtzPreset => "cam_ptz_preset"
  | .camPtzPresetCreated => "cam_ptz_preset_created"
  | .rawMessage => "raw_message"
  | .rawMessageClientConnected => "raw_message_client_connected"
  | .rawMessageClientDisconnected => "raw_message_client_disconnected"
  | .camGetLog => "cam_get_log"
  | .getOsdConf => "get_osd_conf"
  | .osdConf => "osd_conf"
  | .setOsdConf => "set_osd_conf"
  | .setCamParameter => "set_cam_parameter"
  | .camTriggerEvent => "cam_trigger_event"
  | .backwardStart => "backward_start"
  | .backwardStop => "backward_stop"
  | .camSetCurrentWifi => "cam_set_current_wifi"
  | .camListWifi => "cam_list_wifi"
  | .camWifiList => "cam_wifi_list"
  | .bye => "bye"
  | .reportProblem => "report_problem"
  | .camStatus => "cam_status"
  | .audioFilePlay => "audio_file_play"
  | .getCamMemorycardTimeline => "get_cam_memorycard_timeline"
  | .camMemorycardTimeline => "cam_memorycard_timeline"
  | .camMemorycardSynchronize => "cam_memorycard_synchronize"
  | .camMemorycardSynchronizeStatus => "cam_memorycard_synchronize_status"
  | .camMemorycardSynchronizeCancel => "cam_memorycard_synchronize_cancel"
  | .camMemorycardRecording => "cam_memorycard_recording"
  | .done => "done"

/-- The members of a command besides those of `base_command`. -/
def payload : CommandType → Schema
  | .registerCmd => Wire.registerCmd
  | .camRegister => Wire.camRegister
  | .hello => Wire.hello
  | .configure => Wire.configure
  | .getCamStatus | .getSupportedStreams | .camUpdatePreview | .getAudioDetection | .getCamAudioConf
  | .getCamEvents | .getCamVideoConf | .getMotionDetection | .getStreamByEvent | .getPtzConf | .camGetLog
  | .getOsdConf | .camListWifi => noMembers
  | .supportedStreams => supportedStreamsConfig
  | .camHello => Wire.camHello
  | .streamStart => Wire.streamStart
  | .streamStop => Wire.streamStop
  | .camUpgradeFirmware | .backwardStart | .audioFilePlay => urlCommand
  | .setAudioDetection | .audioDetectionConf => audioDetectionConfig
  | .setCamEvents | .camEventsConf => eventsConfig
  | .camEvent => eventObject
  | .camVideoConf | .setCamVideoConf => videoConfig
  | .directUploadUrl => Wire.directUploadUrl
  | .getDirectUploadUrl => Wire.getDirectUploadUrl
  | .motionDetectionConf | .setMotionDetection => motionDetectionConfig
  | .streamByEventConf | .setStreamByEvent => streamByEventConfig
  | .getStreamCaps | .getStreamConfig => elementaryStreams
  | .streamCaps => Wire.streamCaps
  | .streamConfig | .setStreamConfig => Wire.streamConfig
  | .setCamAudioConf | .camAudioConf => audioConfig
  | .camPtzConf => ptzConfig
  | .camPtz => ptzCommand
  | .camPtzPreset => ptzPreset
  | .camPtzPresetCreated => Wire.camPtzPresetCreated
  | .rawMessage => Wire.rawMessage
  | .rawMessageClientConnected | .rawMessageClientDisconnected => rawMessageClient
  | .osdConf | .setOsdConf => osdConfig
  | .setCamParameter => Wire.setCamParameter
  | .camTriggerEvent => Wire.camTriggerEvent
  | .backwardStop => Wire.backwardStop
  | .camSetCurrentWifi => wifiNetwork
  | .camWifiList => wifiConfig
  | .bye => Wire.bye
  | .reportProblem => Wire.reportProblem
  | .camStatus => Wire.camStatus
  | .getCamMemorycardTimeline => Wire.getCamMemorycardTimeline
  | .camMemorycardTimeline => Wire.camMemorycardTimeline
  | .camMemorycardSynchronize => Wire.camMemorycardSynchronize
  | .camMemorycardSynchronizeStatus => Wire.camMemorycardSynchronizeStatus
  | .camMemorycardSynchronizeCancel => Wire.camMemorycardSynchronizeCancel
  | .camMemorycardRecording => Wire.camMemorycardRecording
  | .done => Wire.done

/-- The types that `factory::parse` tells apart. -/
def parseTable : List CommandType :=
  [.registerCmd, .camRegister, .hello, .configure, .getCamStatus, .getSupportedStreams, .supportedStreams,
    .camHello, .streamStart, .streamStop, .camUpdatePreview, .camUpgradeFirmware, .getAudioDetection,
    .setAudioDetection, .audioDetectionConf, .getCamAudioConf, .getCamEvents, .setCamEvents, .camEventsConf,
    .camEvent, .getCamVideoConf, .camVideoConf, .directUploadUrl, .getDirectUploadUrl, .getMotionDetection,
    .motionDetectionConf, .getStreamByEvent, .streamByEventConf, .setStreamByEvent, .getStreamCaps, .streamCaps,
    .getStreamConfig, .streamConfig, .setCamAudioConf, .camAudioConf, .setCamVideoConf, .setMotionDetection,
    .setStreamConfig, .getPtzConf, .camPtzConf, .camPtz, .camPtzPreset, .camPtzPresetCreated, .rawMessage,
    .rawMessageClientConnected, .rawMessageClientDisconnected, .camGetLog, .getOsdConf, .osdConf, .setOsdConf,
    .setCamParameter, .camTriggerEvent, .backwardStart, .backwardStop, .camSetCurrentWifi, .camListWifi,
    .camWifiList, .bye, .reportProblem, .camStatus, .audioFilePlay, .getCamMemorycardTimeline,
    .camMemorycardTimeline, .camMemorycardSynchronize, .camMemorycardSynchronizeStatus,
    .camMemorycardSynchronizeCancel, .camMemorycardRecording]

def ofName (s : String) : Option CommandType := parseTable.find? fun t => t.name = s

/-- Only a `done` is not told from its name. -/
theorem ofName_name (t : CommandType) : ofName t.name = if t = .done then none else some t := by
  cases t <;> decide

theorem name_ne_unset (t : CommandType) : t.name ≠ unsetString := by
  cases t <;> decide

end CommandType

/-! ### Commands -/

/-- The members of `base_command` in a command of the type; `id` is the message id of a new one. -/
def base (t : CommandType) (id : Int32) : Schema where
  fields := [str "cmd" t.name, num "msgid" id, num "cam_id", num "refid", str "orig_cmd"]
  distinct := show ["cmd", "msgid", "cam_id", "refid", "orig_cmd"].Nodup by decide

theorem base_disjoint (t : CommandType) (id : Int32) : ∀ k ∈ (base t id).part.keys, k ∉ t.payload.part.keys := by
  rw [Schema.keys_part, Schema.keys_part]
  change ∀ k ∈ ["cmd", "msgid", "cam_id", "refid", "orig_cmd"], k ∉ Field.keys t.payload.fields
  cases t <;> decide

/-- A command, as an object of its class. -/
structure Command where
  type : CommandType
  msgid : Int32
  camId : Int32
  refid : Int32
  origCmd : String
  payload : type.payload.Value

namespace Command

def part (t : CommandType) (id : Int32) : Part ((base t id).Value × t.payload.Value) :=
  (base t id).part.append t.payload.part (base_disjoint t id)

def header (c : Command) (id : Int32) : (base c.type id).Value :=
  (c.type.name, c.msgid, c.camId, c.refid, c.origCmd, ())

/-- `json(c)`. -/
def toJson (c : Command) : Json := (part c.type 0).write (c.header 0, c.payload) .null

def ofParts (t : CommandType) (id : Int32) : (base t id).Value × t.payload.Value → Command :=
  fun ((_, msgid, camId, refid, origCmd, _), payload) => ⟨t, msgid, camId, refid, origCmd, payload⟩

/-- A new command of the type, its members read from the object. -/
def read (t : CommandType) (id : Int32) (j : Json) : Command := ofParts t id ((part t id).read j)

/-- `factory::parse`, with the message id that a new command gets. The outer `none` is the exception of a
`cmd` that is no string, the inner one a command that is not known. -/
def parse (id : Int32) (j : Json) : Option (Option Command) :=
  match j.at? "cmd" with
  | none => some none
  | some cmd => (toText cmd).map fun s => (CommandType.ofName s).map fun t => read t id j

/-- The members of `base_command` are those that its own part has written. -/
theorem at?_toJson_base (c : Command) {k : String} (hk : k ∈ ["cmd", "msgid", "cam_id", "refid", "orig_cmd"]) :
    c.toJson.at? k =
      ((str "orig_cmd").part.write c.origCmd ((num "refid").part.write c.refid ((num "cam_id").part.write c.camId
        ((num "msgid" 0).part.write c.msgid ((str "cmd" c.type.name).part.write c.type.name .null))))).at? k := by
  have hbase : k ∈ (base c.type 0).part.keys := by
    rw [Schema.keys_part]
    exact hk
  exact c.type.payload.part.frame _ _ _ (base_disjoint c.type 0 k hbase)

theorem at?_toJson_cmd (c : Command) : c.toJson.at? "cmd" = some (.str c.type.name) := by
  simp [at?_toJson_base, at?_write_str, at?_write_num, c.type.name_ne_unset]

theorem at?_toJson_camId (c : Command) :
    c.toJson.at? "cam_id" = if c.camId = unsetInt32 then none else some (.int c.camId.toInt) := by
  simp [at?_toJson_base, at?_write_str, at?_write_num]

theorem at?_toJson_refid (c : Command) :
    c.toJson.at? "refid" = if c.refid = unsetInt32 then none else some (.int c.refid.toInt) := by
  simp [at?_toJson_base, at?_write_str, at?_write_num]

theorem at?_toJson_origCmd (c : Command) :
    c.toJson.at? "orig_cmd" = if c.origCmd = unsetString then none else some (.str c.origCmd) := by
  simp [at?_toJson_base, at?_write_str, at?_write_num]

/-- The command as it is on the wire. -/
def wire (c : Command) : Command := { c with payload := c.type.payload.part.wire c.payload }

end Command
end CloudAgent.Proto.Wire
