import CloudAgent.Utils.Time
import Mathlib.Data.List.Basic

/-! The commands of a direct upload: the request for an upload URL and the reply that carries it. -/
namespace CloudAgent.Proto

/-- `UnsetString`, the text of a field that the JSON object did not have. -/
def unsetString : String := "__unset__"

/-- `UnsetInt`. -/
def unsetInt : ℤ := -2147483648

inductive UploadCategory
  | record | snapshot | fileMeta | invalid
  deriving DecidableEq, Repr

/-- `get_direct_upload_url`. Its `file_time` is read back from the text form; its callbacks
`on_finished` and `is_canceled` are known by the msgid. -/
structure GetDirectUploadUrl where
  msgid : ℤ
  category : UploadCategory
  streamId : String
  fileTime : Time
  duration : ℤ
  durationUs : Duration
  memorycardSyncTicket : String
  deriving DecidableEq, Repr

/-- `direct_upload_url_base`. -/
structure DirectUploadUrlBase where
  category : UploadCategory
  status : String
  url : String
  headers : List (String × String)
  deriving DecidableEq, Repr

/-- `direct_upload_url`. -/
structure DirectUploadUrl extends DirectUploadUrlBase where
  camId : ℤ
  refid : ℤ
  extra : List DirectUploadUrlBase
  deriving DecidableEq, Repr

/-- The test of `handle_direct_upload_url`: anything else is answered with `DS_MISSED_PARAM`. The
headers are of a type for which `__is_unset` never holds. -/
def DirectUploadUrl.valid (msg : DirectUploadUrl) : Bool :=
  msg.status ≠ unsetString && msg.url ≠ unsetString && msg.status = "OK"

/-- The URLs of a valid reply in the order in which they are used. -/
def DirectUploadUrl.urls (msg : DirectUploadUrl) : List DirectUploadUrlBase :=
  msg.toDirectUploadUrlBase :: msg.extra.filter (·.status = "OK")

/-- `media_type` of `on_direct_upload_url`. -/
inductive MediaType
  | snapshot | record | metaFile
  deriving DecidableEq, Repr

/-- A URL without a category is for any kind of payload. -/
def DirectUploadUrlBase.allows (d : DirectUploadUrlBase) : MediaType → Bool
  | .snapshot => d.category = .invalid || d.category = .snapshot
  | .record => d.category = .invalid || d.category = .record
  | .metaFile => d.category = .invalid || d.category = .fileMeta

end CloudAgent.Proto
