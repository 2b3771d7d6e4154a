import CloudAgent.Lib.Codec
import CloudAgent.Proto.Objects

/-! The values in the members of the protocol's JSON objects: numbers, texts and the enumerations with
the tables they are written and read by. -/
namespace CloudAgent.Proto.Wire

/-! ### Numbers and texts -/

/-- A floating-point number as an integer, the fraction dropped. -/
def truncate (q : ℚ) : ℤ := q.num.tdiv q.den

/-- Read an `int` from any number or truth value. -/
def toInt32 : Json → Option Int32
  | .int n => some (Int32.ofInt n)
  | .float q => some (Int32.ofInt (truncate q))
  | .bool b => some (if b then 1 else 0)
  | _ => none

def toInt64 : Json → Option Int64
  | .int n => some (Int64.ofInt n)
  | .float q => some (Int64.ofInt (truncate q))
  | _ => none

def toUInt64 : Json → Option UInt64
  | .int n => some (UInt64.ofNat (n % 2 ^ 64).toNat)
  | .float q => some (UInt64.ofNat (truncate q % 2 ^ 64).toNat)
  | _ => none

def toDouble : Json → Option ℚ
  | .int n => some n
  | .float q => some q
  | _ => none

def toBool : Json → Option Bool
  | .bool b => some b
  | _ => none

def toText : Json → Option String
  | .str s => some s
  | _ => none

/-- `alter_bool::from_json` throws at nothing. -/
def toAlterBool : Json → AlterBool
  | .bool true => .bTrue
  | .bool false => .bFalse
  | _ => .bInvalid

/-- `UnsetInt` of the type that is written. -/
def unsetInt32 : Int32 := Int32.minValue

/-- `UnsetDouble`, the smallest positive normal number. -/
def unsetDouble : ℚ := 1 / 2 ^ 1022

/-- `__is_unset` of a `json`. -/
def isUnsetJson : Json → Bool
  | .null | .arr [] => true
  | _ => false

theorem isUnsetJson_iff {j : Json} : isUnsetJson j = true ↔ j = .null ∨ j = .arr [] := by
  cases j with
  | arr xs => cases xs <;> simp [isUnsetJson]
  | _ => simp [isUnsetJson]

def int : Codec Int32 :=
  .exact (fun v => .int v.toInt) toInt32 (· = unsetInt32) fun v => congrArg some (Int32.ofInt_toInt v)

/-- `__is_unset` is not specialized for this type, nor for the next one. -/
def int64 : Codec Int64 :=
  .exact (fun v => .int v.toInt) toInt64 (fun _ => false) fun v => congrArg some (Int64.ofInt_toInt v)

def uint64 : Codec UInt64 :=
  .exact (fun v => .int v.toNat) toUInt64 (fun _ => false) fun v => by
    have hlt := v.toNat_lt
    have hmod : ((v.toNat : ℤ) % 2 ^ 64).toNat = v.toNat := by omega
    rw [toUInt64, hmod, UInt64.ofNat_toNat]

/-- A double is taken for the rational number that it is. -/
def double : Codec ℚ := .exact .float toDouble (· = unsetDouble) fun _ => rfl

def flag : Codec Bool := .exact .bool toBool (fun _ => false) fun _ => rfl

def text : Codec String := .exact .str toText (· = unsetString) fun _ => rfl

def alterBool : Codec AlterBool where
  enc
    | .bTrue => .bool true
    | _ => .bool false
  dec j := some (toAlterBool j)
  unset v := v = .bInvalid
  wire := id
  Kept v := v ≠ .bInvalid
  law v := ⟨_, rfl, by cases v <;> simp [toAlterBool]⟩

def json : Codec Json := .exact id some isUnsetJson fun _ => rfl

/-- `std::map<std::string, std::string>`, in the order of its keys. -/
def textMap : Codec (List (String × String)) :=
  .exact (fun m => .obj (m.map fun e => (e.1, .str e.2)))
    (fun
      | .obj members => members.mapM fun m => (toText m.2).map fun s => (m.1, s)
      | _ => none)
    (fun _ => false) fun m => by
      dsimp only
      induction m with
      | nil => rfl
      | cons e m ih =>
        rw [List.map_cons, List.mapM_cons, ih]
        rfl

/-! ### Enumerations -/

/-- `done_status`. -/
inductive DoneStatus
  | ok | cmError | systemError | notSupported | invalidParam | missedParam | tooMany | retry | invalid
  deriving DecidableEq, Repr

def doneStatus : EnumTable DoneStatus :=
  ⟨(.ok, some "OK"), [(.cmError, some "CM_ERROR"), (.systemError, some "SYSTEM_ERROR"),
    (.notSupported, some "NOT_SUPPORTED"), (.invalidParam, some "INVALID_PARAM"),
    (.missedParam, some "MISSED_PARAM"), (.tooMany, some "TOO_MANY"), (.retry, some "RETRY"), (.invalid, none)]⟩

/-- The table of `bye_reason`. -/
def byeReason : EnumTable ByeReason :=
  ⟨(.error, some "ERROR"), [(.systemError, some "SYSTEM_ERROR"), (.invalidUser, some "INVALID_USER"),
    (.authFailure, some "AUTH_FAILURE"), (.connConflict, some "CONN_CONFLICT"), (.reconnect, some "RECONNECT"),
    (.shutdown, some "SHUTDOWN"), (.deleted, some "DELETED"), (.connClose, some "CONN_CLOSE"),
    (.invalid, none)]⟩

/-- `memorycard_sync_status`. -/
inductive MemorycardSyncStatus
  | invalid | done | pending | error | canceled | tooManyRequests
  deriving DecidableEq, Repr

def memorycardSyncStatus : EnumTable MemorycardSyncStatus :=
  ⟨(.invalid, none), [(.done, some "done"), (.pending, some "pending"), (.error, some "error"),
    (.canceled, some "canceled"), (.tooManyRequests, some "too_many_requests")]⟩

/-- The table of `upload_category`. -/
def uploadCategory : EnumTable UploadCategory :=
  ⟨(.record, some "record"), [(.snapshot, some "snapshot"), (.fileMeta, some "file_meta"), (.invalid, none)]⟩

theorem uploadCategory_null : uploadCategory.ofJson .null = .invalid := by decide

/-- `media_type`. -/
inductive MediaType
  | mp4 | jpeg | invalid
  deriving DecidableEq, Repr

def mediaType : EnumTable MediaType :=
  ⟨(.mp4, some "mp4"), [(.jpeg, some "jpg"), (.invalid, none)]⟩

/-- `mode`. -/
inductive Mode
  | invalid | off | on | auto
  deriving DecidableEq, Repr

def mode : EnumTable Mode :=
  ⟨(.invalid, none), [(.off, some "off"), (.on, some "on"), (.auto, some "auto")]⟩

/-- The table of `stream_reason`, which has no row for `SR_SERVER_BY_EVENT`. -/
def streamReason : EnumTable StreamReason :=
  ⟨(.invalid, none), [(.record, some "record"), (.recordByEvent, some "record_by_event"),
    (.recordByEvent, some "server_by_event"), (.live, some "live"),
    (.recordDirect, some "storage_direct_recording")]⟩

/-- `video_format`. -/
inductive VideoFormat
  | invalid | h264 | h265 | mjpeg
  deriving DecidableEq, Repr

def videoFormat : EnumTable VideoFormat :=
  ⟨(.invalid, none), [(.h264, some "H.264"), (.h265, some "H.265"), (.mjpeg, some "MJPEG")]⟩

/-- `audio_format`. -/
inductive AudioFormat
  | invalid | raw | adpcm | mp3 | nelly8 | nelly16 | nelly | speex | opus | g711u | g711a | aac
  deriving DecidableEq, Repr

def audioFormat : EnumTable AudioFormat :=
  ⟨(.invalid, none), [(.raw, some "RAW"), (.adpcm, some "ADPCM"), (.mp3, some "MP3"), (.nelly8, some "NELLY8"),
    (.nelly16, some "NELLY16"), (.nelly, some "NELLY"), (.speex, some "SPEEX"), (.opus, some "OPUS"),
    (.g711u, some "G711U"), (.g711a, some "G711A"), (.aac, some "AAC")]⟩

/-- `audio_file_format`. -/
inductive AudioFileFormat
  | invalid | auG711u | mp3 | wavPcm
  deriving DecidableEq, Repr

def audioFileFormat : EnumTable AudioFileFormat :=
  ⟨(.invalid, none), [(.auG711u, some "AU_G711U"), (.mp3, some "MP3"), (.wavPcm, some "WAV_PCM")]⟩

/-- `motion_sensitivity`. -/
inductive MotionSensitivity
  | invalid | frame | region
  deriving DecidableEq, Repr

def motionSensitivity : EnumTable MotionSensitivity :=
  ⟨(.invalid, none), [(.frame, some "frame"), (.region, some "region")]⟩

/-- `motion_region_shape`. -/
inductive MotionRegionShape
  | invalid | rectangle | any
  deriving DecidableEq, Repr

def motionRegionShape : EnumTable MotionRegionShape :=
  ⟨(.invalid, none), [(.rectangle, some "rect"), (.any, some "any")]⟩

/-- `ptz_action`. -/
inductive PtzAction
  | invalid | left | right | top | bottom | zoomIn | zoomOut | stop
  deriving DecidableEq, Repr

def ptzAction : EnumTable PtzAction :=
  ⟨(.invalid, none), [(.left, some "left"), (.right, some "right"), (.top, some "top"),
    (.bottom, some "bottom"), (.zoomIn, some "zoom_in"), (.zoomOut, some "zoom_out"), (.stop, some "stop")]⟩

/-- `ptz_preset_action`. -/
inductive PtzPresetAction
  | invalid | create | delete | goto | update
  deriving DecidableEq, Repr

def ptzPresetAction : EnumTable PtzPresetAction :=
  ⟨(.invalid, none), [(.create, some "create"), (.delete, some "delete"), (.goto, some "goto"),
    (.update, some "update")]⟩

/-- `time_format_n`. -/
inductive TimeFormat
  | invalid | tf12h | tf24h
  deriving DecidableEq, Repr

def timeFormat : EnumTable TimeFormat :=
  ⟨(.invalid, none), [(.tf12h, some "12h"), (.tf24h, some "24h")]⟩

/-- `event_status`. -/
inductive EventStatus
  | invalid | ok | error
  deriving DecidableEq, Repr

def eventStatus : EnumTable EventStatus :=
  ⟨(.invalid, none), [(.ok, some "OK"), (.error, some "ERROR")]⟩

/-- `event_type`. -/
inductive EventType
  | invalid | motion | sound | net | record | memorycard | wifi | custom
  deriving DecidableEq, Repr

def eventType : EnumTable EventType :=
  ⟨(.invalid, none), [(.motion, some "motion"), (.sound, some "sound"), (.net, some "net"),
    (.record, some "record"), (.memorycard, some "memorycard"), (.wifi, some "wifi"), (.custom, some "custom")]⟩

/-- The table of `memorycard_status`. -/
def memorycardStatus : EnumTable MemorycardStatus :=
  ⟨(.invalid, none), [(.none, some "none"), (.normal, some "normal"), (.needFormat, some "need-format"),
    (.formatting, some "formatting"), (.initialization, some "initialization")]⟩

/-- `wifi_encryption`. -/
inductive WifiEncryption
  | invalid | open' | wep | wpa | wpa2 | wpaEnterprise | wpa2Enterprise
  deriving DecidableEq, Repr

def wifiEncryption : EnumTable WifiEncryption :=
  ⟨(.invalid, none), [(.open', some "open"), (.wep, some "WEP"), (.wpa, some "WPA"), (.wpa2, some "WPA2"),
    (.wpaEnterprise, some "WPA_enterprise"), (.wpa2Enterprise, some "WPA2_enterprise")]⟩

/-- `wifi_network_state`. -/
inductive WifiNetworkState
  | unknown | initialize0 | initialize1 | tryConnect | receivingIp | connected | invalid
  deriving DecidableEq, Repr

def wifiNetworkState : EnumTable WifiNetworkState :=
  ⟨(.unknown, some "unknown"), [(.initialize0, some "initialize_0"), (.initialize1, some "initialize_1"),
    (.tryConnect, some "try_connect"), (.receivingIp, some "receiving_ip"), (.connected, some "connected"),
    (.invalid, none)]⟩

/-! ### What loses nothing -/

@[simp] theorem text_lossless : text.Lossless := fun _ => trivial

@[simp] theorem int_lossless : int.Lossless := fun _ => trivial

@[simp] theorem double_lossless : double.Lossless := fun _ => trivial

@[simp] theorem doneStatus_lossless : doneStatus.codec.Lossless := fun e => by cases e <;> rfl

@[simp] theorem byeReason_lossless : byeReason.codec.Lossless := fun e => by cases e <;> rfl

@[simp] theorem memorycardSyncStatus_lossless : memorycardSyncStatus.codec.Lossless := fun e => by cases e <;> rfl

@[simp] theorem uploadCategory_lossless : uploadCategory.codec.Lossless := fun e => by cases e <;> rfl

@[simp] theorem mediaType_lossless : mediaType.codec.Lossless := fun e => by cases e <;> rfl

@[simp] theorem mode_lossless : mode.codec.Lossless := fun e => by cases e <;> rfl

@[simp] theorem videoFormat_lossless : videoFormat.codec.Lossless := fun e => by cases e <;> rfl

@[simp] theorem audioFormat_lossless : audioFormat.codec.Lossless := fun e => by cases e <;> rfl

@[simp] theorem audioFileFormat_lossless : audioFileFormat.codec.Lossless := fun e => by cases e <;> rfl

@[simp] theorem motionSensitivity_lossless : motionSensitivity.codec.Lossless := fun e => by cases e <;> rfl

@[simp] theorem motionRegionShape_lossless : motionRegionShape.codec.Lossless := fun e => by cases e <;> rfl

@[simp] theorem ptzAction_lossless : ptzAction.codec.Lossless := fun e => by cases e <;> rfl

@[simp] theorem ptzPresetAction_lossless : ptzPresetAction.codec.Lossless := fun e => by cases e <;> rfl

@[simp] theorem timeFormat_lossless : timeFormat.codec.Lossless := fun e => by cases e <;> rfl

@[simp] theorem eventStatus_lossless : eventStatus.codec.Lossless := fun e => by cases e <;> rfl

@[simp] theorem eventType_lossless : eventType.codec.Lossless := fun e => by cases e <;> rfl

@[simp] theorem memorycardStatus_lossless : memorycardStatus.codec.Lossless := fun e => by cases e <;> rfl

@[simp] theorem wifiEncryption_lossless : wifiEncryption.codec.Lossless := fun e => by cases e <;> rfl

@[simp] theorem wifiNetworkState_lossless : wifiNetworkState.codec.Lossless := fun e => by cases e <;> rfl

/-- A reason without a row is written as no reason. -/
@[simp] theorem streamReason_kept (e : StreamReason) : streamReason.codec.Kept e ↔ e ≠ .serverByEvent := by
  change streamReason.ofJson (streamReason.toJson e) = e ↔ e ≠ .serverByEvent
  cases e <;> decide

end CloudAgent.Proto.Wire
