import CloudAgent.Proto.DirectUpload

/-! The objects of the protocol that configure and describe events and streams. -/
namespace CloudAgent.Proto

/-- `bye_reason`. -/
inductive ByeReason
  | error | systemError | invalidUser | authFailure | connConflict | reconnect | shutdown | deleted
  | connClose | invalid
  deriving DecidableEq, Repr

/-- `event_type`. -/
inductive EventType
  | motion | sound | net | record | memorycard | wifi | custom
  deriving DecidableEq, Repr

/-- The text of an event type in a JSON object. -/
def EventType.json : EventType → String
  | .motion => "motion"
  | .sound => "sound"
  | .net => "net"
  | .record => "record"
  | .memorycard => "memorycard"
  | .wifi => "wifi"
  | .custom => "custom"

/-- `event_caps`. -/
structure EventCaps where
  stream : Bool := false
  snapshot : Bool := false
  periodic : Bool := false
  trigger : Bool := false
  statefull : Bool := false
  internalHidden : Bool := false
  deriving DecidableEq, Repr

/-- `event_config`. -/
structure EventConfig where
  event : EventType
  customEventName : String := unsetString
  active : Bool := false
  stream : Bool := false
  snapshot : Bool := false
  period : ℤ := unsetInt
  caps : EventCaps := {}
  deriving DecidableEq, Repr

namespace EventConfig

/-- `name_eq`: events are told apart by both fields, whatever the type is. -/
def nameEq (c r : EventConfig) : Bool := c.event = r.event && c.customEventName = r.customEventName

/-- `caps_eq`. The source compares the names once more, not the capabilities. -/
def capsEq (c r : EventConfig) : Bool := c.event = r.event && c.customEventName = r.customEventName

/-- `event_config::name`. -/
def name (c : EventConfig) : String :=
  if c.event = .custom then c.customEventName else c.event.json

end EventConfig

/-- `memorycard_status`. -/
inductive MemorycardStatus
  | none | normal | needFormat | formatting | initialization | invalid
  deriving DecidableEq, Repr

/-- `alter_bool`, a boolean that may be missing. -/
inductive AlterBool
  | bFalse | bTrue | bInvalid
  deriving DecidableEq, Repr

namespace AlterBool

/-- `operator bool`. -/
def toBool : AlterBool → Bool
  | .bTrue => true
  | .bFalse | .bInvalid => false

/-- `x != alter_bool::B_INVALID`. The type has no comparison of its own, so `operator bool` is what
is compared with the number of `B_INVALID`. -/
def neInvalid (x : AlterBool) : Bool := (x.toBool.toNat : ℤ) ≠ -1

/-- A missing value is taken for a value. -/
@[simp] theorem neInvalid_eq_true (x : AlterBool) : x.neInvalid = true := by cases x <;> rfl

end AlterBool

/-- `event_object::memorycard_info_object`, without its sizes. -/
structure MemorycardInfo where
  status : MemorycardStatus := .invalid
  recordingStatus : AlterBool := .bInvalid
  deriving DecidableEq, Repr

/-- `event_object`: what the delivery of an event to the storage or to a live stream reads.
`wifiComplete` stands for the tests that `notify_event` makes on `wifi_info`. -/
structure EventObject where
  event : EventType
  customEventName : String := unsetString
  active : Bool := false
  stateDummy : Bool := false
  time : Time := Utils.Time.null
  timeEnd : Time := Utils.Time.null
  uploadToken : String := ""
  memorycardInfo : MemorycardInfo := {}
  wifiComplete : Bool := true
  deriving DecidableEq, Repr

/-- `event_object::name`. -/
def EventObject.name (e : EventObject) : String :=
  if e.event = .custom then e.customEventName else e.event.json

/-- The event that `from_json` makes of a name: a text that is no event type names a custom event. -/
def EventObject.ofJson (name : String) : EventObject :=
  match [EventType.motion, .sound, .net, .record, .memorycard, .wifi, .custom].find? (·.json = name) with
  | some event => { event }
  | none => { event := .custom, customEventName := name }

/-- `events_config`. -/
structure EventsConfig where
  enabled : Bool := false
  events : List EventConfig := []
  deriving DecidableEq, Repr

/-- `get_event_config`: custom events are looked up by their custom name alone, the others by type. -/
def EventsConfig.getEventConfig (c : EventsConfig) (e : EventObject) : Option EventConfig :=
  c.events.find? fun conf =>
    if e.event = .custom then conf.customEventName = e.customEventName else conf.event = e.event

/-- `stream_reason`. -/
inductive StreamReason
  | record | recordByEvent | serverByEvent | live | recordDirect | invalid
  deriving DecidableEq, Repr

end CloudAgent.Proto
