import CloudAgent.Proto.Wire.Commands
import CloudAgent.Proto.CommandHandler

/-! What the command handler knows, and the functions of its manager that it calls. -/
namespace CloudAgent.Proto.Handlers
open Wire

/-- How a function ends that does not return: by an exception, or by using a null pointer. -/
inductive Fault
  | exception | null
  deriving DecidableEq, Repr

/-- The part of `manager_config` that the handlers read and write. -/
structure ManagerConfig where
  uploadUrl : String
  mediaServer : String
  camPath : String
  ca : String
  sid : String
  pwd : String
  uuid : String
  connId : String
  camId : ℤ
  activity : Bool
  streaming : Bool
  deviceIpaddr : String
  deviceBrand : String
  deviceModel : String
  deviceSerial : String
  deviceFwVersion : String
  timezone : String
  deviceType : String
  reconnectServerAddress : String
  /-- From the global profile. -/
  rawMessaging : Bool
  deriving DecidableEq, Repr

/-- What an acknowledgement runs: the callback of `_request_direct_upload_video`, or that of an event. -/
inductive AckRun
  | directUploadVideo | event
  deriving DecidableEq, Repr

/-- `command_handler`. -/
structure Handler where
  config : ManagerConfig
  registered : Bool
  helloReceived : Bool
  byeReason : ByeReason
  byeRetry : ℤ
  commands : CommandHandler AckRun

/-- The virtual functions of `command_handler`, with their arguments. Times are as the handler gets them:
in seconds, or as texts. -/
inductive Call
  | onRegistered (sid : String)
  | onSetTimezone (timezone : String)
  | onGetSupportedStreams
  | onSetActivity (enable : Bool)
  | onPrepared
  | onStreamStart (streamId : String) (publishSessionId : Int32) (reason : StreamReason)
  | onStreamStop (streamId : String) (reason : StreamReason)
  | onGetCamEventsConfig
  | onSetCamEventsConfig (config : eventsConfig.Value)
  | onDirectUploadUrl (directUpload : directUploadUrlBase.Value) (eventId : Int32) (refid : Int32)
  | onGetMotionDetectionConfig
  | onSetMotionDetectionConfig (config : motionDetectionConfig.Value)
  | onGetStreamCaps (caps : streamCaps.Value)
  /-- The url is built from the configuration. -/
  | onUpdatePreview (config : ManagerConfig)
  | onCamUpgradeFirmware (url : String)
  | onGetAudioDetection
  | onSetAudioDetection (conf : audioDetectionConfig.Value)
  | onGetStreamByEvent
  | onSetStreamByEvent (conf : streamByEventConfig.Value)
  | onGetStreamConfig (config : streamConfig.Value)
  | onSetStreamConfig (config : streamConfig.Value)
  | onGetCamAudioConfig
  | onSetCamAudioConfig (config : audioConfig.Value)
  | onGetCamVideoConfig
  | onSetCamVideoConfig (config : videoConfig.Value)
  | onGetPtzConfig
  | onCamPtz (command : ptzCommand.Value)
  | onCamPtzPreset (preset : ptzPreset.Value)
  | onRawMessage (clientId message : String)
  | onGetLog
  | onGetOsdConfig
  | onSetOsdConfig (config : osdConfig.Value)
  | onTriggerEvent (event : String) (info : Json) (time : ℚ)
  | onStartBackward (url : String)
  | onStopBackward (url : String)
  | onGetWifiConfig
  | onSetWifiConfig (config : wifiNetwork.Value)
  | onAudioFilePlay (url : String)
  | onGetCamMemorycardTimeline (timeline : camMemorycardTimeline.Value)
  | onCamMemorycardSynchronize (status : camMemorycardSynchronizeStatus.Value) (start stop : String)
  | onCamMemorycardSynchronizeCancel (requestId : String)
  | onCamMemorycardRecording (streamId : String) (enabled : Bool)

/-- What a call returns. A function that fills an object in returns the object, or nothing for `false`. -/
def Call.Result : Call → Type
  | .onGetSupportedStreams => Option supportedStreamsConfig.Value
  | .onGetCamEventsConfig => Option eventsConfig.Value
  | .onGetMotionDetectionConfig => Option motionDetectionConfig.Value
  | .onGetStreamCaps _ => Option streamCaps.Value
  | .onGetAudioDetection => Option audioDetectionConfig.Value
  | .onGetStreamByEvent => Option streamByEventConfig.Value
  | .onGetStreamConfig _ => Option streamConfig.Value
  | .onGetCamAudioConfig => Option audioConfig.Value
  | .onGetCamVideoConfig => Option videoConfig.Value
  | .onGetPtzConfig => Option ptzConfig.Value
  | .onCamPtzPreset _ => Option ptzPreset.Value
  | .onRawMessage _ _ => Option String
  | .onGetOsdConfig => Option osdConfig.Value
  | .onGetWifiConfig => Option wifiConfig.Value
  | .onGetCamMemorycardTimeline _ => Option camMemorycardTimeline.Value
  | .onCamMemorycardSynchronize _ _ _ => Option camMemorycardSynchronizeStatus.Value
  | .onRegistered _ | .onPrepared => Unit
  | _ => Bool

/-- How the functions end and what they return. -/
abbrev Callbacks := (call : Call) → Except Fault call.Result

end CloudAgent.Proto.Handlers
