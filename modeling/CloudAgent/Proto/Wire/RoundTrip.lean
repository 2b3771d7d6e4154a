import CloudAgent.Proto.Wire.Commands

/-! Which commands come back from `factory::parse` as they were written. -/
namespace CloudAgent.Proto.Wire

/-! ### Members that decide it -/

def camRegister.type : camRegister.Value → String := fun (_, _, _, _, _, _, _, type, _) => type

def camHello.activity : camHello.Value → Bool := fun (_, _, _, _, activity, _) => activity

def streamStart.reason : streamStart.Value → StreamReason := fun (reason, _) => reason

def streamStop.reason : streamStop.Value → StreamReason := fun (reason, _) => reason

def urlCommand.url : urlCommand.Value → String := fun (url, _) => url

def reportProblem.reason : reportProblem.Value → String := fun (reason, _) => reason

def camTriggerEvent.meta : camTriggerEvent.Value → Json := fun (_, _, v, _) => v

def directUploadUrl.eventId : directUploadUrl.Value → Int32 := fun (_, _, _, _, _, eventId, _) => eventId

def eventObject.meta : eventObject.Value → Json := fun (_, _, _, v, _) => v

def eventObject.imageTime : eventObject.Value → String := fun (_, _, _, _, snapshotInfo, _) => snapshotInfo.1

def eventObject.fileMetaSize : eventObject.Value → Int32 := fun (_, _, _, _, _, fileMetaInfo, _) => fileMetaInfo.1

def eventObject.kind : eventObject.Value → EventKind := fun (_, _, _, _, _, _, kind, _) => kind

def eventConfig.name : eventConfig.Value → EventType × String := fun (name, _) => name

def eventConfig.period : eventConfig.Value → Int32 := fun (_, _, _, _, period, _) => period

def eventsConfig.events : eventsConfig.Value → List eventConfig.Value := fun (_, events, _) => events

/-! ### What is given, and what is kept -/

/-- The members that `unset` would leave out and whose default is something else are set. -/
def CommandType.Given : (t : CommandType) → t.payload.Value → Prop
  | .camRegister, v => camRegister.type v ≠ unsetString
  | .camUpgradeFirmware, v | .backwardStart, v | .audioFilePlay, v => urlCommand.url v ≠ unsetString
  | .reportProblem, v => reportProblem.reason v ≠ unsetString
  | .camTriggerEvent, v => camTriggerEvent.meta v ≠ .arr []
  | .camEvent, v => eventObject.meta v ≠ .arr [] ∧ eventObject.imageTime v ≠ unsetString ∧
      (eventObject.kind v).event ≠ .invalid ∧
      ((eventObject.kind v).event = .record → recordInfo.on (eventObject.kind v).recordInfo ≠ .bInvalid ∧
        recordInfo.streamId (eventObject.kind v).recordInfo ≠ unsetString)
  | .setCamEvents, v | .camEventsConf, v => ∀ e ∈ eventsConfig.events v, (eventConfig.name e).1 ≠ .invalid
  | _, _ => True

/-- A command that comes back: no `done`, no member that is not listed, no reason without a row, no custom event
with the name of another type. -/
def CommandType.ComesBack : (t : CommandType) → t.payload.Value → Prop
  | .done, _ => False
  | .directUploadUrl, v => directUploadUrl.eventId v = unsetInt32
  | .camHello, v => camHello.activity v = false
  | .streamStart, v => streamStart.reason v ≠ .serverByEvent
  | .streamStop, v => streamStop.reason v ≠ .serverByEvent
  | .camEvent, v => (eventObject.kind v).event = .custom → (eventObject.kind v).customEventName ∉ eventTexts
  | .setCamEvents, v | .camEventsConf, v =>
    ∀ e ∈ eventsConfig.events v, (eventConfig.name e).1 = .custom → (eventConfig.name e).2 ∉ eventTexts
  | _, _ => True

/-! ### Objects that keep some values -/

theorem camRegister_kept {v : camRegister.Value} (h : camRegister.type v ≠ unsetString) : camRegister.part.Kept v :=
  ⟨str_lossless "ip" _, str_lossless "uuid" _, str_lossless "brand" _, str_lossless "model" _, str_lossless "sn" _,
    bool_lossless "raw_messaging" _, str_lossless "version" _, str_kept "type" "" _ h, trivial⟩

theorem urlCommand_kept {v : urlCommand.Value} (h : urlCommand.url v ≠ unsetString) : urlCommand.part.Kept v :=
  ⟨str_kept "url" "" _ h, trivial⟩

theorem reportProblem_kept {v : reportProblem.Value} (h : reportProblem.reason v ≠ unsetString) :
    reportProblem.part.Kept v :=
  ⟨str_kept "reason" "" _ h, trivial⟩

theorem camTriggerEvent_kept {v : camTriggerEvent.Value} (h : camTriggerEvent.meta v ≠ .arr []) :
    camTriggerEvent.part.Kept v :=
  ⟨str_lossless "event" _, real_lossless "time" _, anyJson_kept "meta" _ h, trivial⟩

theorem camHello_kept (v : camHello.Value) : camHello.part.Kept v ↔ camHello.activity v = false := by
  constructor
  · rintro ⟨-, -, -, -, h, -⟩
    exact h
  · intro h
    exact ⟨str_lossless "path" _, str_lossless "media_uri" _, str_lossless "backward_uri" _, str_lossless "mode" _, h,
      trivial⟩

theorem directUploadUrl_kept (v : directUploadUrl.Value) :
    directUploadUrl.part.Kept v ↔ directUploadUrl.eventId v = unsetInt32 := by
  constructor
  · rintro ⟨-, -, -, -, -, h, -⟩
    exact h
  · intro h
    exact ⟨enum_lossless "category" uploadCategory_lossless _, str_lossless "status" _, str_lossless "url" _,
      str_lossless "expire" _, texts_lossless "headers" _, h, many_lossless "extra" directUploadUrlBase_lossless _,
      trivial⟩

/-- The member `reason` of the next two. -/
theorem reason_kept (e : StreamReason) : (enum "reason" streamReason .invalid).part.Kept e ↔ e ≠ .serverByEvent :=
  streamReason_kept e

theorem streamStart_kept (v : streamStart.Value) :
    streamStart.part.Kept v ↔ streamStart.reason v ≠ .serverByEvent := by
  constructor
  · rintro ⟨h, -⟩
    exact (reason_kept _).mp h
  · intro h
    exact ⟨(reason_kept _).mpr h, str_lossless "stream_id" _, num_lossless "publish_session_id" _,
      alter_lossless "storage_direct_recording" _, trivial⟩

theorem streamStop_kept (v : streamStop.Value) : streamStop.part.Kept v ↔ streamStop.reason v ≠ .serverByEvent := by
  constructor
  · rintro ⟨h, -⟩
    exact (reason_kept _).mp h
  · intro h
    exact ⟨(reason_kept _).mpr h, str_lossless "stream_id" _, trivial⟩

theorem snapshotInfo_lossless : snapshotInfo.codec.Lossless := Schema.lossless (by simp [snapshotInfo])

theorem motionInfo_lossless : motionInfo.codec.Lossless := Schema.lossless (by simp [motionInfo])

theorem memorycardInfo_lossless : memorycardInfo.codec.Lossless := Schema.lossless (by simp [memorycardInfo])

theorem fileMetaInfo_lossless : fileMetaInfo.codec.Lossless := Schema.lossless (by simp [fileMetaInfo])

theorem wifiInfo_lossless : wifiInfo.codec.Lossless := Schema.lossless (by simp [wifiInfo, wifiNetwork])

theorem recordInfo_kept {v : recordInfo.Value} (h : recordInfo.streamId v ≠ unsetString) : recordInfo.part.Kept v :=
  ⟨alter_lossless "on" _, str_kept "stream_id" "" _ h, trivial⟩

theorem eventKind_kept {v : EventKind} (hi : v.event ≠ .invalid)
    (hr : v.event = .record →
      recordInfo.on v.recordInfo ≠ .bInvalid ∧ recordInfo.streamId v.recordInfo ≠ unsetString) :
    v.Kept ↔ (v.event = .custom → v.customEventName ∉ eventTexts) := by
  cases he : v.event with
  | motion => simpa [EventKind.Kept, he] using (show motionInfo.part.Kept v.motionInfo from motionInfo_lossless _)
  | memorycard =>
    have hkept : memorycardInfo.part.Kept v.memorycardInfo := memorycardInfo_lossless _
    simpa [EventKind.Kept, he] using hkept
  | wifi => simpa [EventKind.Kept, he] using (show wifiInfo.part.Kept v.wifiInfo from wifiInfo_lossless _)
  | record =>
    obtain ⟨hon, hid⟩ := hr he
    simpa [EventKind.Kept, he, hon] using recordInfo_kept hid
  | custom => simp [EventKind.Kept, he]
  | sound | net => simp [EventKind.Kept, he]
  | invalid => exact absurd he hi

theorem eventObject_kept {v : eventObject.Value} (hm : eventObject.meta v ≠ .arr [])
    (ht : eventObject.imageTime v ≠ unsetString) : eventObject.part.Kept v ↔ (eventObject.kind v).Kept := by
  constructor
  · rintro ⟨-, -, -, -, -, -, h, -⟩
    exact h
  · intro h
    refine ⟨Part.update_kept (fun _ => trivial) (fun hu => nomatch (show true = false from hu)),
      Part.update_kept (fun _ => trivial) (fun hu => nomatch (show true = false from hu)),
      Part.update_kept (fun _ => eventStatus_lossless _) (fun hu => nomatch (show true = false from hu)),
      Part.update_kept (fun _ => trivial) fun hu => ?_,
      Part.update_kept (fun _ => snapshotInfo_lossless _) fun hu => ?_,
      Part.update_kept (fun _ => fileMetaInfo_lossless _) fun hu => ?_, h, trivial⟩
    · have hunset : isUnsetJson (eventObject.meta v) = true := by
        have hnot : (!isUnsetJson (eventObject.meta v)) = false := hu
        simpa using hnot
      exact ((isUnsetJson_iff.mp hunset).resolve_right hm).symm
    · have hset : (!decide (eventObject.imageTime v = unsetString)) = false := hu
      exact absurd (by simpa using hset) ht
    · -- a size that is unset is the default
      have hsize : (!decide (eventObject.fileMetaSize v = unsetInt32)) = false := hu
      have heq : eventObject.fileMetaSize v = unsetInt32 := by simpa using hsize
      exact congrArg (fun size => fileMetaInfo.part.wire (size, ())) heq.symm

theorem eventConfig_kept (v : eventConfig.Value) :
    eventConfig.part.Kept v ↔ eventName.Kept (eventConfig.name v) := by
  constructor
  · rintro ⟨h, -⟩
    exact h
  · intro h
    refine ⟨h, Part.update_kept (fun _ => trivial) (fun hu => nomatch (show true = false from hu)),
      Part.update_kept (fun _ => trivial) (fun hu => nomatch (show true = false from hu)),
      Part.update_kept (fun _ => trivial) (fun hu => nomatch (show true = false from hu)),
      Part.update_kept (fun _ => trivial) (fun hu => ?_),
      Part.update_kept (fun _ => eventCaps_lossless _) (fun hu => nomatch (show true = false from hu)), trivial⟩
    have hperiod : (!decide (eventConfig.period v = unsetInt32)) = false := hu
    have heq : eventConfig.period v = unsetInt32 := by simpa using hperiod
    exact heq.symm

theorem eventsConfig_kept (v : eventsConfig.Value) :
    eventsConfig.part.Kept v ↔ ∀ e ∈ eventsConfig.events v, eventName.Kept (eventConfig.name e) := by
  constructor
  · rintro ⟨-, h, -⟩ e he
    exact (eventConfig_kept e).mp (h e he)
  · intro h
    exact ⟨bool_lossless "enabled" _, fun e he => (eventConfig_kept e).mpr (h e he), trivial⟩

theorem eventName_kept {v : EventType × String} (h : v.1 ≠ .invalid) :
    eventName.Kept v ↔ (v.1 = .custom → v.2 ∉ eventTexts) := by
  change (if v.1 = .custom then v.2 ∉ eventTexts else v.1 ≠ .invalid) ↔ _
  split
  · exact ⟨fun hk _ => hk, fun hk => hk ‹_›⟩
  · exact ⟨fun _ hc => absurd hc ‹_›, fun _ => h⟩

theorem eventsConfig_kept_given {v : eventsConfig.Value}
    (h : ∀ e ∈ eventsConfig.events v, (eventConfig.name e).1 ≠ .invalid) :
    eventsConfig.part.Kept v ↔
      ∀ e ∈ eventsConfig.events v, (eventConfig.name e).1 = .custom → (eventConfig.name e).2 ∉ eventTexts := by
  rw [eventsConfig_kept]
  exact forall₂_congr fun e he => eventName_kept (h e he)

/-! ### Commands -/

/-- Of every other type, what comes back is what the payload keeps. -/
theorem payload_kept {t : CommandType} {v : t.payload.Value} (hd : t ≠ .done) (h : t.Given v) :
    t.payload.part.Kept v ↔ t.ComesBack v := by
  cases t with
  | done => exact absurd rfl hd
  | camRegister => exact iff_of_true (camRegister_kept h) trivial
  | camUpgradeFirmware | backwardStart | audioFilePlay => exact iff_of_true (urlCommand_kept h) trivial
  | reportProblem => exact iff_of_true (reportProblem_kept h) trivial
  | camTriggerEvent => exact iff_of_true (camTriggerEvent_kept h) trivial
  | camHello => exact camHello_kept v
  | directUploadUrl => exact directUploadUrl_kept v
  | streamStart => exact streamStart_kept v
  | streamStop => exact streamStop_kept v
  | camEvent =>
    obtain ⟨hm, ht, hi, hr⟩ := h
    exact (eventObject_kept hm ht).trans (eventKind_kept hi hr)
  | setCamEvents | camEventsConf => exact eventsConfig_kept_given h
  | camPtzConf => exact iff_of_true (ptzConfig_lossless v) trivial
  | camPtzPreset => exact iff_of_true (ptzPreset_lossless v) trivial
  | camWifiList => exact iff_of_true (wifiConfig_lossless v) trivial
  | camSetCurrentWifi => exact iff_of_true (wifiNetwork_lossless v) trivial
  | _ =>
    exact iff_of_true (Schema.lossless (by simp [CommandType.payload, noMembers, registerCmd, hello, configure,
      getDirectUploadUrl, elementaryStreams, backwardStop, camPtzPresetCreated, rawMessage, rawMessageClient,
      setCamParameter, bye, camStatus, getCamMemorycardTimeline, camMemorycardTimeline, camMemorycardSynchronize,
      camMemorycardSynchronizeStatus, camMemorycardSynchronizeCancel, camMemorycardRecording, supportedStreamsConfig,
      audioDetectionConfig, videoConfig, motionDetectionConfig, streamByEventConfig, streamCaps, streamConfig,
      audioConfig, ptzCommand, osdConfig]) v) trivial

namespace Command

/-- The members of `base_command` come back with any message id. -/
theorem header_kept {c : Command} (id : Int32) (h : c.msgid ≠ unsetInt32) :
    (base c.type id).part.Kept (c.header id) :=
  ⟨str_kept "cmd" _ _ c.type.name_ne_unset, num_kept "msgid" _ _ h, num_lossless "cam_id" _, num_lossless "refid" _,
    str_lossless "orig_cmd" _, trivial⟩

theorem parse_toJson (c : Command) (id : Int32) :
    parse id c.toJson = some (if c.type = .done then none else some (read c.type id c.toJson)) := by
  rw [parse, at?_toJson_cmd]
  simp only [toText, Option.map_some, CommandType.ofName_name]
  split <;> rfl

theorem ofParts_payload {t : CommandType} {id : Int32} {v v' : (base t id).Value × t.payload.Value}
    (h : ofParts t id v = ofParts t id v') : v.2 = v'.2 := by
  obtain ⟨-, -, -, -, -, hpayload⟩ := Command.mk.inj h
  exact eq_of_heq hpayload

/-- What comes back is on the wire what was written, if the payload is kept. -/
theorem wire_read_toJson {c : Command} (id : Int32) (h : c.msgid ≠ unsetInt32) :
    (read c.type id c.toJson).wire = c.wire ↔ c.type.payload.part.Kept c.payload := by
  have hread : (read c.type id c.toJson).wire =
      ofParts c.type id ((part c.type id).wire ((part c.type id).read c.toJson)) := rfl
  have hwrite : c.wire = ofParts c.type id ((part c.type id).wire (c.header id, c.payload)) := rfl
  rw [hread, hwrite]
  constructor
  · intro heq
    have hnone : ∀ k ∈ c.type.payload.part.keys,
        ((base c.type id).part.write (c.header id) .null).at? k = none := by
      intro k hk
      exact (base c.type id).part.frame _ _ _ fun hb => base_disjoint c.type id k hb hk
    apply (c.type.payload.part.law c.payload _ hnone).mp
    exact ofParts_payload heq
  · intro hk
    apply congrArg (ofParts c.type id)
    exact ((part c.type id).law (c.header id, c.payload) .null fun _ _ => rfl).mpr ⟨header_kept id h, hk⟩

end Command

/-- A command is parsed as it was written just if it comes back. -/
theorem parse_toJson_iff (c : Command) (id : Int32) (hid : c.msgid ≠ unsetInt32) (h : c.type.Given c.payload) :
    (∃ c', Command.parse id c.toJson = some (some c') ∧ c'.wire = c.wire) ↔ c.type.ComesBack c.payload := by
  rw [Command.parse_toJson]
  by_cases hd : c.type = .done
  · have hnever : ¬ c.type.ComesBack c.payload := by
      obtain ⟨t, _, _, _, _, _⟩ := c
      subst hd
      exact not_false
    simp [hd, hnever]
  · simp only [hd, if_false, Option.some.injEq, exists_eq_left']
    exact (Command.wire_read_toJson id hid).trans (payload_kept hd h)

/-- The server asks for a live stream. -/
def startLive : Command where
  type := .streamStart
  msgid := 41
  camId := 5
  refid := 40
  origCmd := "cam_hello"
  payload := (StreamReason.live, "Main", (7 : Int32), AlterBool.bFalse, ())

theorem startLive_comes_back : ∃ c', Command.parse 1 startLive.toJson = some (some c') ∧ c'.wire = startLive.wire :=
  (parse_toJson_iff startLive 1 (by decide) trivial).mpr (show StreamReason.live ≠ .serverByEvent by decide)

/-- The server answers an event with the urls for its files. -/
def eventUrls : Command where
  type := .directUploadUrl
  msgid := 42
  camId := 5
  refid := 12
  origCmd := "cam_event"
  payload := (UploadCategory.snapshot, "OK", "https://storage/snapshot", "20240101T000000.000",
    [("Content-type", "image/jpeg")], (9 : Int32),
    [(UploadCategory.fileMeta, "OK", "https://storage/meta", "20240101T000000.000", [], ())], ())

theorem eventUrls_lose_event_id :
    ¬ ∃ c', Command.parse 1 eventUrls.toJson = some (some c') ∧ c'.wire = eventUrls.wire := by
  rw [Command.parse_toJson]
  rintro ⟨c', hc, hwire⟩
  obtain rfl : Command.read .directUploadUrl 1 eventUrls.toJson = c' := Option.some.inj (Option.some.inj hc)
  have hkept := (Command.wire_read_toJson (c := eventUrls) 1 (by decide)).mp hwire
  have hid : (9 : Int32) = unsetInt32 := (directUploadUrl_kept eventUrls.payload).mp hkept
  exact absurd hid (by decide)

end CloudAgent.Proto.Wire
