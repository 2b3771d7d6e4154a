import CloudAgent.Lib.Transition
import CloudAgent.Streamer.BaseStreamer
import CloudAgent.Utils.Date.Reference

/-! ONVIF metadata: packets are put together until they are a document, from which an event is read. -/
namespace CloudAgent.Streamer.Onvif
open Transition

/-- `simple_item`. -/
structure SimpleItem where
  name : String
  value : String
  deriving DecidableEq

/-- `onvif::event`. -/
structure Event where
  rawBody : List Char
  topic : String := ""
  time : Time := Utils.Time.null
  propOp : String := ""
  sourceItems : List SimpleItem := []
  dataItems : List SimpleItem := []
  deriving DecidableEq

/-- What the code calls of the XML parser, whose nodes are `ν`: whether `parse<parse_non_destructive>` goes through,
what `parse<0>` returns unless it throws, and how the nodes are read. -/
structure RapidXml (ν : Type*) where
  validate : List Char → Bool
  parse : List Char → Option ν
  firstNode : ν → String → Option String → Option ν
  children : ν → List ν
  value : ν → String
  firstAttribute : ν → String → Option String

namespace RapidXml
variable {ν : Type*}

def schema : String := "http://www.onvif.org/ver10/schema"

def wsn : String := "http://docs.oasis-open.org/wsn/b-2"

/-- MetadataStream, Event, NotificationMessage. -/
def notificationMessage (x : RapidXml ν) (doc : ν) : Option ν :=
  (x.firstNode doc "MetadataStream" schema).bind fun node => (x.firstNode node "Event" none).bind fun node =>
    x.firstNode node "NotificationMessage" wsn

/-- `_parse_simple_items`. -/
def parseSimpleItems (x : RapidXml ν) : Option ν → List SimpleItem
  | none => []
  | some node =>
    (x.children node).map fun item =>
      ⟨(x.firstAttribute item "Name").getD "", (x.firstAttribute item "Value").getD ""⟩

/-- Message/Message with its times and items. -/
def parseMessage (x : RapidXml ν) (date : Utils.DateLibrary) (message : ν) (event : Event) : Event :=
  { event with
    time := ((x.firstAttribute message "UtcTime").map fun t => Utils.Time.fromIso date t.toList).getD event.time
    propOp := (x.firstAttribute message "PropertyOperation").getD event.propOp
    sourceItems := x.parseSimpleItems (x.firstNode message "Source" none)
    dataItems := x.parseSimpleItems (x.firstNode message "Data" none) }

/-- What takes the process down: an exception of `parse<0>`, or `value()` of a topic that is not there. -/
inductive Crash
  | parseError | nullTopic
  deriving DecidableEq

/-- `_parse_aggregated_event`. -/
def parseAggregatedEvent (x : RapidXml ν) (date : Utils.DateLibrary) (text : List Char) : Except Crash Event :=
  match x.parse text with
  | none => .error .parseError
  | some doc =>
    match x.notificationMessage doc with
    | none => .ok { rawBody := text }
    | some node =>
      match x.firstNode node "Topic" none with
      | none => .error .nullTopic
      | some topicNode =>
        let event : Event := { rawBody := text, topic := x.value topicNode }
        match (x.firstNode node "Message" none).bind fun message => x.firstNode message "Message" schema with
        | none => .ok event
        | some message => .ok (x.parseMessage date message event)

/-- A text that `parse<0>` accepts, with a topic where there is a notification. -/
def Parsable (x : RapidXml ν) (text : List Char) : Prop :=
  ∃ doc, x.parse text = some doc ∧ ∀ node ∈ x.notificationMessage doc, x.firstNode node "Topic" none ≠ none

variable {x : RapidXml ν} {date : Utils.DateLibrary} {text : List Char} {event : Event}

theorem parseAggregatedEvent_rawBody (h : x.parseAggregatedEvent date text = .ok event) : event.rawBody = text := by
  rw [parseAggregatedEvent] at h
  split at h
  · cases h
  split at h
  · cases h
    rfl
  split at h
  · cases h
  dsimp only at h
  split at h
  · cases h
    rfl
  · cases h
    rfl

/-- An event is read exactly from such texts. -/
theorem exists_parseAggregatedEvent_iff (x : RapidXml ν) (date : Utils.DateLibrary) (text : List Char) :
    (∃ event, x.parseAggregatedEvent date text = .ok event) ↔ x.Parsable text := by
  rw [parseAggregatedEvent, Parsable]
  cases x.parse text with
  | none => simp
  | some doc =>
    cases hn : x.notificationMessage doc with
    | none => simp [hn]
    | some node =>
      cases ht : x.firstNode node "Topic" none with
      | none => simp [hn, ht]
      | some topicNode =>
        refine iff_of_true ?_ ⟨doc, rfl, fun m hm => ?_⟩
        · simp only [hn, ht]
          cases (x.firstNode node "Message" none).bind fun message => x.firstNode message "Message" schema with
          | none => exact ⟨_, rfl⟩
          | some message => exact ⟨_, rfl⟩
        · obtain rfl : node = m := Option.some.inj (hn.symm.trans hm)
          simp [ht]

end RapidXml

/-! ### The sink -/

/-- `metadata_sink`. -/
structure MetadataSink where
  aggregatedData : List Char := []
  numAggregatedPackets : ℕ := 0
  deriving DecidableEq

namespace MetadataSink
variable {ν : Type*}

def maxAggregatedPackets : ℕ := 3

def cleared : MetadataSink := { }

/-- `_add_aggregated`. -/
def addAggregated (s : MetadataSink) (data : List Char) : MetadataSink :=
  ⟨s.aggregatedData ++ data, s.numAggregatedPackets + 1⟩

/-- `_validate_aggregated`. -/
def validateAggregated (x : RapidXml ν) (s : MetadataSink) : Bool × MetadataSink :=
  if x.validate s.aggregatedData then (true, s)
  else (false, if maxAggregatedPackets < s.numAggregatedPackets then cleared else s)

/-- `_aggregate_check_data`. -/
def aggregateCheckData (x : RapidXml ν) (s : MetadataSink) (newData : List Char) : Bool × MetadataSink :=
  (s.addAggregated newData).validateAggregated x

/-- A frame: its type and its bytes. -/
abbrev Metadata := MediaType × List Char

/-- `process`, with the event for the callback where there is one; `cb` tells whether the sink has a callback. -/
def process (x : RapidXml ν) (date : Utils.DateLibrary) (cb : Bool) (s : MetadataSink) (metadata : Metadata) :
    Except RapidXml.Crash (MetadataSink × Option Event) :=
  if metadata.1 = .data then
    match s.aggregateCheckData x metadata.2 with
    | (true, t) =>
      if cb then (x.parseAggregatedEvent date t.aggregatedData).map fun event => (cleared, some event)
      else .ok (t, none)
    | (false, t) => .ok (t, none)
  else .ok (s, none)

/-- The sink and the events that the callback was given, the last one at the end; a crash ends the run. -/
def step (x : RapidXml ν) (date : Utils.DateLibrary) (cb : Bool) (u : MetadataSink × List Event) (metadata : Metadata) :
    Option (MetadataSink × List Event) :=
  match process x date cb u.1 metadata with
  | .error _ => none
  | .ok (t, event) => some (t, u.2 ++ event.toList)

/-- A packet that completes a text for the callback completes one that an event can be read from. -/
def Harmless (x : RapidXml ν) (cb : Bool) (u : MetadataSink × List Event) (metadata : Metadata) : Prop :=
  metadata.1 = .data → cb = true → x.validate (u.1.aggregatedData ++ metadata.2) = true →
    x.Parsable (u.1.aggregatedData ++ metadata.2)

variable {x : RapidXml ν} {date : Utils.DateLibrary} {cb : Bool} {u v : MetadataSink × List Event} {metadata : Metadata}
  {d D text : List Char} {n : ℕ} {events : List Event}

/-! ### What one packet does -/

theorem step_of_ne_data (h : metadata.1 ≠ .data) : step x date cb u metadata = some u := by
  rw [step, process, if_neg h]
  simp

theorem step_of_invalid (date : Utils.DateLibrary) (cb : Bool) (n : ℕ) (events : List Event)
    (h : x.validate (text ++ d) = false) :
    step x date cb (⟨text, n⟩, events) (.data, d) =
      some (if maxAggregatedPackets < n + 1 then cleared else ⟨text ++ d, n + 1⟩, events) := by
  simp only [step, process, aggregateCheckData, addAggregated, validateAggregated, h, if_true, Bool.false_eq_true,
    if_false, Option.toList_none, List.append_nil]
  rfl

theorem step_of_no_callback (h : x.validate (text ++ d) = true) :
    step x date false (⟨text, n⟩, events) (.data, d) = some (⟨text ++ d, n + 1⟩, events) := by
  simp [step, process, aggregateCheckData, addAggregated, validateAggregated, h]

theorem step_of_valid (h : x.validate (text ++ d) = true) :
    step x date true (⟨text, n⟩, events) (.data, d) =
      (x.parseAggregatedEvent date (text ++ d)).toOption.map fun event => (cleared, events ++ [event]) := by
  simp only [step, process, aggregateCheckData, addAggregated, validateAggregated, h, if_true]
  cases x.parseAggregatedEvent date (text ++ d) <;> rfl

/-- An event that can be read is handed over, and the sink is cleared. -/
theorem step_of_parsable (date : Utils.DateLibrary) (n : ℕ) (events : List Event)
    (h : x.validate (text ++ d) = true) (hp : x.Parsable (text ++ d)) :
    ∃ event, event.rawBody = text ++ d ∧
      step x date true (⟨text, n⟩, events) (.data, d) = some (cleared, events ++ [event]) := by
  obtain ⟨event, hevent⟩ := (x.exists_parseAggregatedEvent_iff date (text ++ d)).mpr hp
  refine ⟨event, RapidXml.parseAggregatedEvent_rawBody hevent, ?_⟩
  rw [step_of_valid h, hevent]
  rfl

theorem step_cleared (date : Utils.DateLibrary) (events : List Event) (h : x.validate d = true) (hp : x.Parsable d) :
    ∃ event, event.rawBody = d ∧
      step x date true (cleared, events) (.data, d) = some (cleared, events ++ [event]) := by
  have hnil : x.validate ([] ++ d) = true := h
  exact step_of_parsable date 0 events hnil hp

/-- A packet crashes the process exactly if it is not harmless. -/
theorem step_isSome_iff (u : MetadataSink × List Event) (metadata : Metadata) :
    (step x date cb u metadata).isSome = true ↔ Harmless x cb u metadata := by
  obtain ⟨⟨text, n⟩, events⟩ := u
  obtain ⟨type, d⟩ := metadata
  by_cases htype : type = .data
  · subst htype
    cases hv : x.validate (text ++ d) with
    | false =>
      rw [step_of_invalid date cb n events hv]
      simp [Harmless, hv]
    | true =>
      cases cb with
      | false =>
        rw [step_of_no_callback hv]
        simp [Harmless]
      | true =>
        rw [step_of_valid hv, Option.isSome_map]
        simp only [Harmless, hv, forall_const]
        rw [← x.exists_parseAggregatedEvent_iff date]
        cases x.parseAggregatedEvent date (text ++ d) <;> simp [Except.toOption]
  · rw [step_of_ne_data htype]
    simp [Harmless, htype]

/-- No packet of a run crashes the process exactly if all of them are harmless: whenever the text is one that
`parse<parse_non_destructive>` accepts, `parse<0>` does too, and a notification in it has a topic. -/
theorem no_crash_iff (x : RapidXml ν) (date : Utils.DateLibrary) (cb : Bool) (u : MetadataSink × List Event)
    (packets : List Metadata) :
    (exec (step x date cb) u packets).isSome = true ↔ Meets (step x date cb) (Harmless x cb) u packets :=
  exec_isSome_iff step_isSome_iff

/-- A document with one notification, node 3, and its topic, if it has one. -/
def oneNotification (text : List Char) (topic : Option ℕ) : RapidXml ℕ where
  validate t := t = [] ∨ t = text
  parse t := if t = text then some 0 else if t = [] then some 5 else none
  firstNode node name xmlns :=
    if (node, name, xmlns) = (0, "MetadataStream", some RapidXml.schema) then some 1
    else if (node, name, xmlns) = (1, "Event", none) then some 2
    else if (node, name, xmlns) = (2, "NotificationMessage", some RapidXml.wsn) then some 3
    else if (node, name, xmlns) = (3, "Topic", none) then topic
    else none
  children := fun
    | 0 => [1]
    | 1 => [2]
    | 2 => [3]
    | 3 => topic.toList
    | _ => []
  value node := if topic = some node then "tns1:VideoSource/MotionAlarm" else ""
  firstAttribute _ _ := none

def metadataStream (notification : String) : List Char :=
  ("<tt:MetadataStream xmlns:tt=\"http://www.onvif.org/ver10/schema\"><tt:Event>" ++ notification ++
    "</tt:Event></tt:MetadataStream>").toList

def noTopic : List Char :=
  metadataStream "<wsnt:NotificationMessage xmlns:wsnt=\"http://docs.oasis-open.org/wsn/b-2\"/>"

theorem validate_oneNotification (text : List Char) (topic : Option ℕ) :
    (oneNotification text topic).validate text = true := by
  simp [oneNotification]

theorem notificationMessage_oneNotification (text : List Char) (topic : Option ℕ) :
    (oneNotification text topic).notificationMessage 0 = some 3 := by
  simp [RapidXml.notificationMessage, oneNotification]

theorem parsable_oneNotification (text : List Char) (topic : Option ℕ) :
    (oneNotification text topic).Parsable text ↔ topic ≠ none := by
  have hparse : (oneNotification text topic).parse text = some 0 := by simp [oneNotification]
  have htopic : (oneNotification text topic).firstNode 3 "Topic" none = topic := by simp [oneNotification]
  simp [RapidXml.Parsable, hparse, notificationMessage_oneNotification, htopic]

theorem crash_of_no_topic (date : Utils.DateLibrary) (text : List Char) :
    ¬ (exec (step (oneNotification text none) date true) (cleared, []) [(.data, text)]).isSome = true := by
  rw [exec_isSome_iff step_isSome_iff]
  intro hmeets
  have hparsable : (oneNotification text none).Parsable text := hmeets.1 rfl rfl (validate_oneNotification text none)
  exact (parsable_oneNotification text none).mp hparsable rfl

theorem crash_without_topic :
    ¬ (exec (step (oneNotification noTopic none) Utils.DateLibrary.reference true) (cleared, [])
      [(.data, noTopic)]).isSome = true :=
  crash_of_no_topic .reference noTopic

end MetadataSink
end CloudAgent.Streamer.Onvif
