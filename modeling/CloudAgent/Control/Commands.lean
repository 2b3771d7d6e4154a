import CloudAgent.Cloud.Uri
import CloudAgent.Control.Manager.Running
import CloudAgent.Control.Media.Sinks
import CloudAgent.Proto.Completes
import CloudAgent.Utils.Date.Reference

/-! The manager behind the command handler: what its functions do with a received command, and when no message
that is received crashes the agent. -/
namespace CloudAgent.Proto

/-! ### Configurations as they are received -/

/-- What is read is never the invalid type. -/
def EventType.ofWire : Wire.EventType → EventType
  | .motion => .motion
  | .sound => .sound
  | .net => .net
  | .record => .record
  | .memorycard => .memorycard
  | .wifi => .wifi
  | .custom | .invalid => .custom

def EventConfig.ofWire (v : Wire.eventConfig.Value) : EventConfig :=
  let ((event, customEventName), active, stream, snapshot, period, caps, _) := v
  let (capsStream, capsSnapshot, capsPeriodic, capsTrigger, _) := caps
  { event := .ofWire event
    customEventName
    active
    stream
    snapshot
    period := period.toInt
    caps := { stream := capsStream, snapshot := capsSnapshot, periodic := capsPeriodic, trigger := capsTrigger } }

def EventsConfig.ofWire (v : Wire.eventsConfig.Value) : EventsConfig :=
  let (enabled, events, _) := v
  { enabled, events := events.map .ofWire }

end CloudAgent.Proto

namespace CloudAgent.Control
open Proto Proto.Handlers StdString Transition Utils

/-- What the code of the device answers while a message is handled: the streams and the memory card, the
configuration that the common callback reports, and the event, if any, that it makes of a triggered one. `result` is
what the functions of the manager return, if they do. -/
structure Answers where
  env : Env
  reported : Option EventsConfig
  onTriggerEvent : EventObject → Option EventObject
  result : (call : Call) → call.Result

/-- The characters of a text in a JSON value. -/
def utf8 (s : String) : List Int8 := s.toUTF8.toList.map UInt8.toInt8

def isAudioFile (url : List Int8) : Bool :=
  (bytesOf ".au").isSuffixOf url || (bytesOf ".wav").isSuffixOf url || (bytesOf ".mp3").isSuffixOf url

/-- How `on_audio_file_play` ends before it asks for the file. `Uri::Parse` comes first, also where the url names
no audio file; then the last piece of the path is taken, and an empty path has none. -/
def audioFilePlayFault (url : List Int8) : Option Fault :=
  match Cloud.Uri.parse url with
  | none => some .exception
  | some uri => if isAudioFile url && uri.path = [] then some .null else none

/-- The url is cut without an inverted range, and an audio file has a path. -/
structure Playable (url : List Int8) : Prop where
  ordered : Cloud.Uri.Ordered url
  path : isAudioFile url = true → byteOf '/' ∈ url.drop (Cloud.Uri.hostStart url)

theorem audioFilePlayFault_eq_none_iff (url : List Int8) : audioFilePlayFault url = none ↔ Playable url := by
  rw [audioFilePlayFault]
  cases hparse : Cloud.Uri.parse url with
  | none =>
    apply iff_of_false nofun
    intro h
    obtain ⟨uri, huri⟩ := Cloud.Uri.parse_of_ordered h.ordered
    rw [hparse] at huri
    cases huri
  | some uri =>
    have hpath := Cloud.Uri.path_eq_nil_iff hparse
    have hordered := Cloud.Uri.ordered_of_parse hparse
    constructor
    · intro h
      refine ⟨hordered, fun haudio => ?_⟩
      by_contra hmem
      simp [haudio, hpath.mpr hmem] at h
    · intro h
      apply if_neg
      intro hbad
      obtain ⟨haudio, hnil⟩ := Bool.and_eq_true_iff.mp hbad
      exact hpath.mp (of_decide_eq_true hnil) (h.path haudio)

namespace Manager
variable (dev : Device) (date : DateLibrary) (a : Answers) (c : Manager) {as : List Action}

/-- The step of the control side that a function of the manager takes. The others call code of the device or ask for
a file: they change nothing here. -/
def action : Call → Option Action
  | .onStreamStart streamId _ reason => some (.streamStart a.env streamId reason)
  | .onStreamStop streamId reason => some (.streamStop a.env streamId reason)
  | .onGetCamEventsConfig => some (.getCamEvents a.env a.reported)
  | .onSetCamEventsConfig config => some (.setCamEvents a.env a.reported (.ofWire config))
  | .onSetStreamByEvent (streamId, preEvent, postEvent, _) =>
    some (.setStreamByEvent streamId preEvent.toInt postEvent.toInt)
  | .onTriggerEvent event _ time =>
    match c.events.onTriggerEvent dev event with
    | .callback =>
      (a.onTriggerEvent { EventObject.ofJson event with time := Time.fromDouble time }).map (.notifyEvent a.env)
    | .eventStream _ | .refused => none
  | .onCamMemorycardSynchronize (requestId, _) start stop =>
    some (.memorycardSynchronize a.env requestId (Time.fromIsoPacked date start.toList)
      (Time.fromIsoPacked date stop.toList))
  | .onCamMemorycardRecording streamId enabled => some (.memorycardRecording a.env streamId enabled)
  | _ => none

/-- The step leads to the use of an uploader that is not there. -/
def crashes (act : Action) : Bool := (c.step dev act).any (·.media.delivery.crashed)

/-- How a function of the manager ends that does not return. -/
def fault : Call → Option Fault
  | .onAudioFilePlay url => audioFilePlayFault (utf8 url)
  | call => if (c.action dev date a call).any (c.crashes dev) then some .null else none

/-- The functions of the manager that the command handler calls. -/
def callbacks : Callbacks := fun call =>
  match c.fault dev date a call with
  | none => .ok (a.result call)
  | some fault => .error fault

/-- What a function of the manager must find: an url that can be cut, and a state that was built for each upload that
it starts. -/
def CallSafe : Call → Prop
  | .onAudioFilePlay url => Playable (utf8 url)
  | call => ∀ act ∈ c.action dev date a call, c.StartsWell Delivery.UploadsBuilt dev act

variable {dev date a c} {call : Call} {act : Action}

/-- While nothing has crashed, a command can always be handled. -/
theorem exists_step (hrunning : c.media.delivery.crashed = false) (hact : act ∈ c.action dev date a call) :
    ∃ c', c.step dev act = some c' := by
  unfold step
  rw [hrunning]
  cases call with
  | onTriggerEvent event info time =>
    simp only [action] at hact
    cases hcase : c.events.onTriggerEvent dev event with
    | callback =>
      rw [hcase] at hact
      obtain ⟨e, -, rfl⟩ := Option.map_eq_some_iff.mp hact
      exact ⟨_, rfl⟩
    | eventStream name =>
      rw [hcase] at hact
      cases hact
    | refused =>
      rw [hcase] at hact
      cases hact
  | _ =>
    first
    | obtain rfl := Option.some.inj hact
      exact ⟨_, rfl⟩
    | cases hact

theorem crashes_eq_false_iff (h : c.Sound) (hrunning : c.media.delivery.crashed = false)
    (hact : act ∈ c.action dev date a call) :
    c.crashes dev act = false ↔ c.StartsWell Delivery.UploadsBuilt dev act := by
  obtain ⟨c', hs⟩ := exists_step hrunning hact
  rw [crashes, hs, Option.any_some]
  exact running_step h hs

theorem fault_eq_none_iff (h : c.Sound) (hrunning : c.media.delivery.crashed = false) (call : Call) :
    c.fault dev date a call = none ↔ c.CallSafe dev date a call := by
  by_cases hplay : ∃ url, call = .onAudioFilePlay url
  · obtain ⟨url, rfl⟩ := hplay
    exact audioFilePlayFault_eq_none_iff (utf8 url)
  · have hfault : c.fault dev date a call =
        if (c.action dev date a call).any (c.crashes dev) then some .null else none := by
      cases call <;> first | rfl | exact absurd ⟨_, rfl⟩ hplay
    have hsafe : c.CallSafe dev date a call ↔
        ∀ act ∈ c.action dev date a call, c.StartsWell Delivery.UploadsBuilt dev act := by
      cases call <;> first | exact Iff.rfl | exact absurd ⟨_, rfl⟩ hplay
    rw [hfault, hsafe]
    cases hact : c.action dev date a call with
    | none => simp
    | some act => simp [← crashes_eq_false_iff h hrunning hact]

theorem returns_iff (h : c.Sound) (hrunning : c.media.delivery.crashed = false) (call : Call) :
    Returns (c.callbacks dev date a) call ↔ c.CallSafe dev date a call := by
  rw [← fault_eq_none_iff h hrunning, Returns, callbacks]
  cases c.fault dev date a call <;> simp

/-- The handlers that catch exceptions call only what always returns. -/
theorem harmless_iff_callSafe (h : c.Sound) (hrunning : c.media.delivery.crashed = false) {handler : Handler}
    {cmd : Wire.Command} {t : Wire.CommandType} {p : t.payload.Value} (hcall : call ∈ calls handler cmd t p) :
    Harmless (c.callbacks dev date a) t call ↔ c.CallSafe dev date a call := by
  rw [← returns_iff h hrunning]
  cases hcatches : catches t with
  | false => exact harmless_iff _ hcatches call
  | true =>
    have hreturns : Returns (c.callbacks dev date a) call := by
      cases t with
      | hello =>
        simp only [calls] at hcall
        split at hcall
        · cases hcall
        · rw [List.mem_singleton.mp hcall]
          exact ⟨_, rfl⟩
      | configure =>
        simp only [calls, setTimezone] at hcall
        split at hcall
        · cases hcall
        · rw [List.mem_singleton.mp hcall]
          exact ⟨_, rfl⟩
      | _ => cases hcatches
    exact iff_of_true (.inl hreturns) hreturns

/-- In every state that the control side reaches without a crash, a message is handled to its end just if its `cmd` is
text, and the command that it gives is for another camera or meets no acknowledgement of another type, no url that
cannot be cut and no upload of an event whose state was not built. -/
theorem handleMessage_completes_iff (he : exec (step dev) (start dev) as = some c)
    (hrunning : c.media.delivery.crashed = false) (date : DateLibrary) (a : Answers) (accepts : Json → Bool)
    (ids : Int32 × Int32 × Int32) (handler : Handler) (message : Json) :
    (∃ r, handleMessage (c.callbacks dev date a) accepts ids handler message = .ok r) ↔
      Named message ∧ ∀ cmd, Wire.Command.parse ids.1 message = some (some cmd) → rejects handler cmd = false →
        AckSafe handler cmd ∧ ∀ call ∈ calls handler cmd cmd.type cmd.payload, c.CallSafe dev date a call := by
  have h : c.Sound := sound_of_exec he
  rw [handleMessage_ok_iff]
  refine and_congr_right fun _ => forall₃_congr fun cmd _ _ => ?_
  constructor
  · rintro ⟨hack, hcalls⟩
    exact ⟨hack, fun call hcall => (harmless_iff_callSafe h hrunning hcall).mp (hcalls call hcall)⟩
  · rintro ⟨hack, hcalls⟩
    exact ⟨hack, fun call hcall => (harmless_iff_callSafe h hrunning hcall).mpr (hcalls call hcall)⟩

/-- A device on which everything starts, with an empty configuration of its own. -/
def plainAnswers : Answers where
  env := .working
  reported := some {}
  onTriggerEvent := some
  result := Call.refused

/-- A `cam_memorycard_synchronize` with the members that the handler reads. -/
def synchronizeRequest : Json :=
  .obj [("cmd", .str "cam_memorycard_synchronize"), ("msgid", .int 1), ("cam_id", .int 5),
    ("request_id", .str "request"), ("start", .str "20210601T000000.000000"), ("end", .str "20210601T000100.000000")]

def playRequest (url : String) : Json :=
  .obj [("cmd", .str "audio_file_play"), ("msgid", .int 1), ("cam_id", .int 5), ("url", .str url)]

/-- Once the configurations are loaded, a period is synchronized. -/
theorem synchronizeRequest_completes : ∃ v,
    exec (step twoStreams) (start twoStreams) [.getCamEvents .working (some {})] = some v ∧
      ∃ r, handleMessage (v.callbacks twoStreams .reference plainAnswers) (fun _ => true) (100, 101, 102) waiting
        synchronizeRequest = .ok r := by
  obtain ⟨v, hv⟩ : ∃ v, exec (step twoStreams) (start twoStreams) [.getCamEvents .working (some {})] = some v :=
    ⟨_, rfl⟩
  have hend : ∀ w ∈ exec (step twoStreams) (start twoStreams) [.getCamEvents .working (some {})],
      w.media.delivery.crashed = false ∧ w.media.delivery.initialized = some [] := by decide +kernel
  obtain ⟨hrunning, hinitialized⟩ := hend v hv
  refine ⟨v, hv, (handleMessage_completes_iff hv hrunning _ _ _ _ _ _).mpr ⟨?_, ?_⟩⟩
  · rintro cmd hcmd
    exact ⟨_, (Option.some.inj hcmd).symm⟩
  · intro cmd hcmd _
    obtain rfl : Wire.Command.read .camMemorycardSynchronize 100 synchronizeRequest = cmd :=
      Option.some.inj (Option.some.inj hcmd)
    refine ⟨fun ack hack => absurd (show none = some ack from hack) nofun, ?_⟩
    intro call hcall
    obtain rfl := List.mem_singleton.mp hcall
    rintro act hact
    obtain rfl := Option.some.inj hact
    intro _
    exact ⟨[], hinitialized, by decide⟩

/-- A message that comes before the configurations are loaded. -/
def handleFirst (message : Json) : Except Fault (Handler × List Json) :=
  handleMessage ((start twoStreams).callbacks twoStreams .reference plainAnswers) (fun _ => true) (100, 101, 102) waiting
    message

theorem not_ok_of_toOption {α : Type} {x : Except Fault α} (hx : x.toOption.isNone = true) : ¬ ∃ r, x = .ok r := by
  rintro ⟨r, rfl⟩
  cases hx

/-- A `cmd` that is no text, an acknowledgement of another type, an upload for an event whose state was not built, an
url with its '?' in front of the first '/', and an audio file without a path. -/
theorem messages_crash :
    (¬ ∃ r, handleFirst (.obj [("cmd", .int 5)]) = .ok r) ∧ (¬ ∃ r, handleFirst strayHello = .ok r) ∧
      (¬ ∃ r, handleFirst synchronizeRequest = .ok r) ∧
      (¬ ∃ r, handleFirst (playRequest "http://camera?file=/a") = .ok r) ∧
      ¬ ∃ r, handleFirst (playRequest "http://camera.mp3") = .ok r := by
  refine ⟨?_, ?_, ?_, ?_, ?_⟩ <;>
    · apply not_ok_of_toOption
      decide +kernel

end Manager
end CloudAgent.Control
