import CloudAgent.Proto.Wire.Objects

/-! Events and their settings, which the source writes and reads by hand. -/
namespace CloudAgent.Proto.Wire

/-! ### What an event carries -/

/-- `image_data` is not part of the protocol. -/
def snapshotInfo : Schema where
  fields := [str "image_time", num "width", num "height", num "size"]
  distinct := by decide

def motionInfo : Schema where
  fields := [str "map", many "regions" text]
  distinct := by decide

def recordInfo : Schema where
  fields := [alter "on", str "stream_id" ""]
  distinct := by decide

def recordInfo.on (v : recordInfo.Value) : AlterBool := v.1

def recordInfo.streamId (v : recordInfo.Value) : String := v.2.1

def memorycardInfo : Schema where
  fields := [enum "status" memorycardStatus .invalid, size "size", size "free", num "max_sync_duration",
    alter "recording_status"]
  distinct := by decide

/-- `data` is not part of the protocol. -/
def fileMetaInfo : Schema where
  fields := [num "size"]
  distinct := by decide

def wifiInfo : Schema where
  fields := wifiNetwork.fields ++ [enum "state" wifiNetworkState .invalid]
  distinct := by decide

/-- The texts of the types of events. -/
def eventTexts : List String := ["motion", "sound", "net", "record", "memorycard", "wifi", "custom"]

theorem eventType_ofJson_eq_invalid {s : String} : eventType.ofJson (.str s) = .invalid ↔ s ∉ eventTexts := by
  constructor
  · intro h hs
    simp only [eventTexts, List.mem_cons, List.not_mem_nil, or_false] at hs
    obtain rfl | rfl | rfl | rfl | rfl | rfl | rfl := hs <;> exact absurd h (by decide)
  · intro hs
    simp only [eventTexts, List.mem_cons, List.not_mem_nil, or_false, not_or] at hs
    obtain ⟨h1, h2, h3, h4, h5, h6, h7⟩ := hs
    simp [EnumTable.ofJson, EnumTable.rows, eventType, EnumTable.isText, Ne.symm h1, Ne.symm h2, Ne.symm h3,
      Ne.symm h4, Ne.symm h5, Ne.symm h6, Ne.symm h7]

theorem eventType_ofJson_eq_custom {s : String} (h : eventType.ofJson (.str s) = .custom) : s = "custom" := by
  by_cases hs : s ∈ eventTexts
  · simp only [eventTexts, List.mem_cons, List.not_mem_nil, or_false] at hs
    obtain rfl | rfl | rfl | rfl | rfl | rfl | rfl := hs <;> first | rfl | exact absurd h (by decide)
  · rw [eventType_ofJson_eq_invalid.mpr hs] at h
    exact absurd h (by decide)

/-- The type of an event, and what is written for that type only. -/
structure EventKind where
  event : EventType
  customEventName : String
  motionInfo : Wire.motionInfo.Value
  memorycardInfo : Wire.memorycardInfo.Value
  recordInfo : Wire.recordInfo.Value
  wifiInfo : Wire.wifiInfo.Value

namespace EventKind

/-- The members that a new event has. -/
def new (event : EventType) (customEventName : String) : EventKind :=
  ⟨event, customEventName, Wire.motionInfo.part.read .null, Wire.memorycardInfo.part.read .null,
    Wire.recordInfo.part.read .null, Wire.wifiInfo.part.read .null⟩

/-- The end of `to_json`, from the update of `event` on. -/
def write (v : EventKind) (j : Json) : Json :=
  let j := j.set "event" (eventType.toJson v.event)
  match v.event with
  | .motion => j.set "motion_info" (Wire.motionInfo.codec.enc v.motionInfo)
  | .memorycard => j.set "memorycard_info" (Wire.memorycardInfo.codec.enc v.memorycardInfo)
  | .record =>
    if recordInfo.on v.recordInfo = .bInvalid then j else j.set "record_info" (Wire.recordInfo.codec.enc v.recordInfo)
  | .wifi => j.set "wifi_info" (Wire.wifiInfo.codec.enc v.wifiInfo)
  | .custom => j.set "event" (.str v.customEventName)
  | .sound | .net | .invalid => j

/-- The type that a name is read as, and the custom name. -/
def readName (j : Json) : EventType × String :=
  let event := ((j.at? "event").map eventType.ofJson).getD .invalid
  if event = .invalid then (.custom, ((j.at? "event").bind toText).getD unsetString) else (event, unsetString)

def read (j : Json) : EventKind where
  event := (readName j).1
  customEventName := (readName j).2
  motionInfo := ((j.at? "motion_info").bind Wire.motionInfo.codec.dec).getD (Wire.motionInfo.part.read .null)
  memorycardInfo :=
    ((j.at? "memorycard_info").bind Wire.memorycardInfo.codec.dec).getD (Wire.memorycardInfo.part.read .null)
  recordInfo := ((j.at? "record_info").bind Wire.recordInfo.codec.dec).getD (Wire.recordInfo.part.read .null)
  wifiInfo := ((j.at? "wifi_info").bind Wire.wifiInfo.codec.dec).getD (Wire.wifiInfo.part.read .null)

/-- What belongs to other types of events is not on the wire. -/
def wire (v : EventKind) : EventKind :=
  match v.event with
  | .motion => { new .motion unsetString with motionInfo := Wire.motionInfo.part.wire v.motionInfo }
  | .memorycard =>
    { new .memorycard unsetString with memorycardInfo := Wire.memorycardInfo.part.wire v.memorycardInfo }
  | .record => { new .record unsetString with recordInfo := Wire.recordInfo.part.wire v.recordInfo }
  | .wifi => { new .wifi unsetString with wifiInfo := Wire.wifiInfo.part.wire v.wifiInfo }
  | .custom => new .custom v.customEventName
  | e => new e unsetString

/-- Which types come back: not the invalid one, a custom one if its name is no other type's text. -/
def Kept (v : EventKind) : Prop :=
  match v.event with
  | .motion => Wire.motionInfo.part.Kept v.motionInfo
  | .memorycard => Wire.memorycardInfo.part.Kept v.memorycardInfo
  | .record =>
    if recordInfo.on v.recordInfo = .bInvalid then
      Wire.recordInfo.part.wire (Wire.recordInfo.part.read .null) = Wire.recordInfo.part.wire v.recordInfo
    else Wire.recordInfo.part.Kept v.recordInfo
  | .wifi => Wire.wifiInfo.part.Kept v.wifiInfo
  | .custom => v.customEventName ∉ eventTexts
  | .sound | .net => True
  | .invalid => False

/-- The name as one JSON value, as an event and as its settings have it. -/
def nameJson (event : EventType) (customEventName : String) : Json :=
  if event = .custom then .str customEventName else eventType.toJson event

theorem at?_write_event (v : EventKind) (j : Json) :
    (v.write j).at? "event" = some (nameJson v.event v.customEventName) := by
  cases he : v.event <;> simp [write, nameJson, he]
  split <;> simp

theorem at?_write_ne (v : EventKind) (j : Json) {k : String}
    (hk : k ∉ ["event", "motion_info", "memorycard_info", "record_info", "wifi_info"]) :
    (v.write j).at? k = j.at? k := by
  simp only [List.mem_cons, List.not_mem_nil, or_false, not_or] at hk
  obtain ⟨he, hm, hc, hr, hw⟩ := hk
  cases h : v.event <;> simp [write, h, he, hm, hc, hw]
  split <;> simp [he, hr]

/-- A custom name that is the text of a type is read as that type. -/
theorem readName_write {j : Json} {event : EventType} {name : String} (h : j.at? "event" = some (nameJson event name)) :
    readName j =
      if event = .custom ∧ eventType.ofJson (.str name) ≠ .invalid then (eventType.ofJson (.str name), unsetString)
      else if event = .custom then (.custom, name)
      else if event = .invalid then (.custom, unsetString) else (event, unsetString) := by
  by_cases hc : event = .custom
  · subst hc
    have hname : nameJson .custom name = .str name := rfl
    by_cases hi : eventType.ofJson (.str name) = .invalid <;> simp [readName, h, hname, hi, toText]
  · have hname : nameJson event name = eventType.toJson event := if_neg hc
    have hback : eventType.ofJson (eventType.toJson event) = event := eventType_lossless event
    by_cases hi : event = .invalid
    · subst hi
      simp [readName, h, hname, hback]
      rfl
    · simp [readName, h, hname, hback, hc, hi]

@[simp] theorem wire_event (v : EventKind) : v.wire.event = v.event := by
  cases h : v.event <;> simp [wire, h, new]

@[simp] theorem wire_name (v : EventKind) :
    v.wire.customEventName = if v.event = .custom then v.customEventName else unsetString := by
  cases h : v.event <;> simp [wire, h, new]

/-- Reading the one member that belongs to the type. -/
theorem read_member {s : Schema} {j : Json} {k : String} {v : s.Value} (h : j.at? k = some (s.codec.enc v)) :
    s.part.wire (((j.at? k).bind s.codec.dec).getD (s.part.read .null)) = s.part.wire v ↔ s.part.Kept v := by
  obtain ⟨v', hv, hiff⟩ := s.codec.law v
  rw [h, Option.bind_some, hv]
  exact hiff

theorem wire_read_write (v : EventKind) (j : Json)
    (hj : ∀ k ∈ ["event", "motion_info", "memorycard_info", "record_info", "wifi_info"], j.at? k = none) :
    wire (read (v.write j)) = v.wire ↔ v.Kept := by
  have hname := readName_write (v.at?_write_event j)
  cases he : v.event with
  | motion =>
    have hm : (v.write j).at? "motion_info" = some (Wire.motionInfo.codec.enc v.motionInfo) := by simp [write, he]
    have hread : (read (v.write j)).event = .motion := by simp [read, hname, he]
    rw [Kept, wire, wire, hread, he]
    dsimp only
    rw [← read_member hm]
    simp [read, EventKind.mk.injEq]
  | sound => simp [wire, read, hname, he, Kept]
  | net => simp [wire, read, hname, he, Kept]
  | memorycard =>
    have hm : (v.write j).at? "memorycard_info" = some (Wire.memorycardInfo.codec.enc v.memorycardInfo) := by
      simp [write, he]
    have hread : (read (v.write j)).event = .memorycard := by simp [read, hname, he]
    rw [Kept, wire, wire, hread, he]
    dsimp only
    rw [← read_member hm]
    simp [read, EventKind.mk.injEq]
  | wifi =>
    have hm : (v.write j).at? "wifi_info" = some (Wire.wifiInfo.codec.enc v.wifiInfo) := by simp [write, he]
    have hread : (read (v.write j)).event = .wifi := by simp [read, hname, he]
    rw [Kept, wire, wire, hread, he]
    dsimp only
    rw [← read_member hm]
    simp [read, EventKind.mk.injEq]
  | record =>
    have hread : (read (v.write j)).event = .record := by simp [read, hname, he]
    rw [Kept, wire, wire, hread, he]
    dsimp only
    by_cases hon : recordInfo.on v.recordInfo = .bInvalid
    · have hm : (v.write j).at? "record_info" = none := by
        simp [write, he, hon, hj "record_info" (by simp)]
      rw [if_pos hon]
      simp [read, hm, EventKind.mk.injEq]
    · have hm : (v.write j).at? "record_info" = some (Wire.recordInfo.codec.enc v.recordInfo) := by
        simp [write, he, hon]
      rw [if_neg hon, ← read_member hm]
      simp [read, EventKind.mk.injEq]
  | custom =>
    rw [he] at hname
    by_cases hi : eventType.ofJson (.str v.customEventName) = .invalid
    · have hread : (read (v.write j)).event = .custom ∧
          (read (v.write j)).customEventName = v.customEventName := by simp [read, hname, hi]
      simp [Kept, wire, he, hread, eventType_ofJson_eq_invalid.mp hi]
    · have hread : (read (v.write j)).event = eventType.ofJson (.str v.customEventName) ∧
          (read (v.write j)).customEventName = unsetString := by simp [read, hname, hi]
      have hne : wire (read (v.write j)) ≠ v.wire := by
        intro h
        have hev := congrArg EventKind.event h
        rw [wire_event, wire_event, hread.1, he] at hev
        have hcn := congrArg EventKind.customEventName h
        rw [wire_name, wire_name, hread.1, hread.2, he, hev, if_pos rfl, if_pos rfl,
          eventType_ofJson_eq_custom hev] at hcn
        exact absurd hcn (by decide)
      simp [Kept, he, hne, ← eventType_ofJson_eq_invalid, hi]
  | invalid =>
    have hread : (read (v.write j)).event = .custom := by simp [read, hname, he]
    have hne : wire (read (v.write j)) ≠ v.wire := by
      intro h
      have hev := congrArg EventKind.event h
      simp [hread, he] at hev
    simp [Kept, he, hne]

def part : Part EventKind where
  keys := ["event", "motion_info", "memorycard_info", "record_info", "wifi_info"]
  write := write
  read := read
  wire := wire
  Kept := Kept
  frame v j _ hk := v.at?_write_ne j hk
  congr j j' hj := by
    simp only [List.forall_mem_cons] at hj
    simp only [read, readName, hj]
  law := wire_read_write

end EventKind

/-! ### Events and their settings -/

/-- `event_object`. `active` and what the source marks as internal is not part of the protocol. -/
def eventObject : Schema where
  fields :=
    [⟨.update "time" double (fun _ => true) unsetDouble⟩, ⟨.update "mediatm" uint64 (fun v => !uint64.unset v) 0⟩,
      ⟨.update "status" eventStatus.codec (fun v => !eventStatus.codec.unset v) .invalid⟩,
      ⟨.update "meta" json (fun v => !isUnsetJson v) .null⟩,
      ⟨.update "snapshot_info" snapshotInfo.codec (fun v => !text.unset v.1) (snapshotInfo.part.read .null)⟩,
      ⟨.update "file_meta_info" fileMetaInfo.codec (fun v => !int.unset v.1) (fileMetaInfo.part.read .null)⟩,
      ⟨EventKind.part⟩]
  distinct := by decide

/-- The member `event` of an event's settings. -/
def eventName : Part (EventType × String) where
  keys := ["event"]
  write v j := j.set "event" (EventKind.nameJson v.1 v.2)
  read := EventKind.readName
  wire v := if v.1 = .custom then v else (v.1, unsetString)
  Kept v := if v.1 = .custom then v.2 ∉ eventTexts else v.1 ≠ .invalid
  frame v j k hk := Json.at?_set_ne j _ (by simpa using hk)
  congr j j' hj := by simp only [EventKind.readName, hj "event" (by simp)]
  law v j _ := by
    obtain ⟨event, name⟩ := v
    rw [EventKind.readName_write (Json.at?_set_self j "event" _)]
    by_cases hc : event = .custom
    · subst hc
      by_cases hi : eventType.ofJson (.str name) = .invalid
      · simp [hi, ← eventType_ofJson_eq_invalid]
      · have hne : (eventType.ofJson (.str name), unsetString) ≠ (EventType.custom, name) := by
          intro h
          obtain ⟨hev, hname⟩ := Prod.mk.inj h
          rw [eventType_ofJson_eq_custom hev] at hname
          exact absurd hname (by decide)
        simp only [hi, ne_eq, not_false_eq_true, and_self, if_true, ite_self, ← eventType_ofJson_eq_invalid]
        exact iff_of_false hne not_false
    · by_cases hi : event = .invalid <;> simp [hc, hi]

/-- `event_config`. -/
def eventConfig : Schema where
  fields :=
    [⟨eventName⟩, ⟨.update "active" flag (fun _ => true) false⟩, ⟨.update "stream" flag (fun _ => true) false⟩,
      ⟨.update "snapshot" flag (fun _ => true) false⟩, ⟨.update "period" int (fun v => !int.unset v) unsetInt32⟩,
      ⟨.update "caps" eventCaps.codec (fun _ => true) (eventCaps.part.read .null)⟩]
  distinct := by decide

def eventsConfig : Schema where
  fields := [bool "enabled", many "events" eventConfig.codec]
  distinct := by decide

end CloudAgent.Proto.Wire
