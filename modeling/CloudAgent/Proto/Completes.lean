import CloudAgent.Proto.Handlers

/-! When a received JSON value is handled without an exception and without using a null pointer, whatever the
functions of the manager do. -/
namespace CloudAgent.Proto.Handlers
open Wire

/-! ### Replies that are made -/

section replies
variable (id : Int32) (c : Command)

/-- A reply for each of the answers that a handler makes: from the row of the table. -/
theorem answer_eq {t : CommandType} (ht : t ∈ replyTable) (hr : t ≠ .camRegister) (payload : t.payload.Value) :
    answer id c t payload = .ok (Command.toJson ⟨t, id, c.camId, c.msgid, c.type.name, payload⟩) := by
  simp only [answer, reply, if_pos ht, if_neg hr]
  exact if_pos rfl

theorem answer_ok (t : CommandType) (ht : t ∈ replyTable) (hr : t ≠ .camRegister) (payload : t.payload.Value) :
    ∃ j, answer id c t payload = .ok j :=
  ⟨_, answer_eq id c ht hr payload⟩

end replies

/-! ### Calls that return -/

/-- The functions of the manager that the handler of a command calls. -/
def calls (h : Handler) (c : Command) : (t : CommandType) → t.payload.Value → List Call
  | .hello, p => if h.registered then [] else [.onRegistered (hello.store p h.config).sid]
  | .configure, p => setTimezone p.2.2.2.1
  | .camHello, p => [.onSetActivity (camHello.store p c.camId h.config).activity, .onPrepared]
  | .rawMessage, p => if text.unset p.2.1 then [] else [.onRawMessage p.1 p.2.1]
  | .getSupportedStreams, _ => [.onGetSupportedStreams]
  | .streamStart, p => [streamStart.call p]
  | .streamStop, p => [streamStop.call p]
  | .camUpdatePreview, _ => [.onUpdatePreview h.config]
  | .camUpgradeFirmware, p => [.onCamUpgradeFirmware p.1]
  | .getAudioDetection, _ => [.onGetAudioDetection]
  | .setAudioDetection, p => [.onSetAudioDetection p]
  | .getCamAudioConf, _ => [.onGetCamAudioConfig]
  | .getCamEvents, _ => [.onGetCamEventsConfig]
  | .getCamVideoConf, _ => [.onGetCamVideoConfig]
  | .directUploadUrl, p => if uploadable p.2.1 p.2.2.1 then directUploadUrl.calls c.refid p else []
  | .getMotionDetection, _ => [.onGetMotionDetectionConfig]
  | .getStreamByEvent, _ => [.onGetStreamByEvent]
  | .setStreamByEvent, p => [.onSetStreamByEvent p]
  | .getStreamCaps, p => [.onGetStreamCaps (elementaryStreams.caps p)]
  | .getStreamConfig, p => [.onGetStreamConfig (elementaryStreams.config p)]
  | .setCamAudioConf, p => [.onSetCamAudioConfig p]
  | .setCamEvents, p => [.onSetCamEventsConfig p]
  | .setCamVideoConf, p => [.onSetCamVideoConfig p]
  | .setMotionDetection, p => [.onSetMotionDetectionConfig p]
  | .setStreamConfig, p => [.onSetStreamConfig p]
  | .getPtzConf, _ => [.onGetPtzConfig]
  | .camPtz, p => [.onCamPtz p]
  | .camPtzPreset, p => [.onCamPtzPreset p]
  | .camGetLog, _ => [.onGetLog]
  | .getOsdConf, _ => [.onGetOsdConfig]
  | .setOsdConf, p => [.onSetOsdConfig p]
  | .setCamParameter, p => [.onSetActivity p.2.1]
  | .camTriggerEvent, p => if ifSet p.1 "" = "" then [] else [triggered p.1 p.2.1 p.2.2.1]
  | .backwardStart, p => if text.unset p.1 then [] else [.onStartBackward p.1]
  | .backwardStop, p => [.onStopBackward p.1]
  | .camSetCurrentWifi, p => [.onSetWifiConfig p]
  | .camListWifi, _ => [.onGetWifiConfig]
  | .audioFilePlay, p => if text.unset p.1 then [] else [.onAudioFilePlay p.1]
  | .getCamMemorycardTimeline, p => [.onGetCamMemorycardTimeline (p.1, [], p.2.1, p.2.2.1, ())]
  | .camMemorycardSynchronize, p =>
    p.2.2.2.2.1.map .onCamMemorycardSynchronizeCancel ++
      [.onCamMemorycardSynchronize (syncStatus p.1) p.2.1 p.2.2.1]
  | .camMemorycardSynchronizeCancel, p => [.onCamMemorycardSynchronizeCancel p.1]
  | .camMemorycardRecording, p => [.onCamMemorycardRecording p.1 (p.2.1 matches .bTrue)]
  | _, _ => []

/-- The handlers of these catch exceptions. -/
def catches : CommandType → Bool
  | .hello | .configure => true
  | _ => false

variable (cb : Callbacks)

def Returns (call : Call) : Prop := ∃ r, cb call = .ok r

/-- The call returns, or throws where exceptions are caught. -/
def Harmless (t : CommandType) (call : Call) : Prop := Returns cb call ∨ catches t ∧ cb call = .error .exception

theorem harmless_iff {t : CommandType} (ht : catches t = false) (call : Call) :
    Harmless cb t call ↔ Returns cb call := by
  simp [Harmless, ht]

theorem harmless_of_catches {t : CommandType} (ht : catches t = true) (call : Call) :
    Harmless cb t call ↔ cb call ≠ .error .null := by
  rw [Harmless, Returns, ht]
  cases cb call with
  | ok r => simp
  | error fault => cases fault <;> simp

section except
variable {cb} {α β : Type}

theorem map_ok_iff {x : Except Fault α} (f : α → β) : (∃ r, x.map f = .ok r) ↔ ∃ a, x = .ok a := by
  cases x <;> simp [Except.map]

theorem bind_ok_iff {x : Except Fault α} {f : α → Except Fault β} (hf : ∀ a, ∃ r, f a = .ok r) :
    (∃ r, x.bind f = .ok r) ↔ ∃ a, x = .ok a := by
  cases x <;> simp [Except.bind, hf]

/-- A call that a test leaves out. -/
theorem unless_ok_iff {q : Prop} [Decidable q] {x : Except Fault β} (hx : ∃ r, x = .ok r) (k : Call)
    (f : k.Result → β) :
    (∃ r, (if q then x else (cb k).map f) = .ok r) ↔ ∀ k' ∈ (if q then [] else [k]), Returns cb k' := by
  split
  · exact iff_of_true hx fun _ hk => absurd hk List.not_mem_nil
  · refine Iff.trans ?_ List.forall_mem_singleton.symm
    exact map_ok_iff f

theorem map_eq_ok {x : Except Fault α} {f : α → β} {b : β} (h : x.map f = .ok b) :
    ∃ a, x = .ok a ∧ f a = b := by
  cases x with
  | ok a => exact ⟨a, rfl, Except.ok.inj h⟩
  | error fault => simp [Except.map] at h

theorem bind_eq_ok {x : Except Fault α} {f : α → Except Fault β} {b : β} (h : x.bind f = .ok b) :
    ∃ a, x = .ok a ∧ f a = .ok b := by
  cases x with
  | ok a => exact ⟨a, rfl, h⟩
  | error fault => simp [Except.bind] at h

theorem catching_eq_ok {x : Except Fault α} {recover a : α} (h : catching recover x = .ok a) :
    x = .ok a ∨ a = recover := by
  cases x with
  | ok b => exact Or.inl h
  | error fault =>
    cases fault with
    | exception => exact Or.inr (Except.ok.inj h).symm
    | null => simp [catching] at h

theorem catching_ok_iff {x : Except Fault α} {recover : α} :
    (∃ r, catching recover x = .ok r) ↔ x ≠ .error .null := by
  cases x with
  | ok a => simp [catching]
  | error fault => cases fault <;> simp [catching]

theorem map_ne_null {x : Except Fault α} (f : α → β) : x.map f ≠ .error .null ↔ x ≠ .error .null := by
  cases x <;> simp [Except.map]

theorem callAll_ok_iff {ks : List Call} : (∃ r, callAll cb ks = .ok r) ↔ ∀ k ∈ ks, Returns cb k := by
  induction ks with
  | nil => simp [callAll]
  | cons k ks ih =>
    rw [List.forall_mem_cons, ← ih, callAll, Returns]
    cases cb k <;> simp

end except

theorem fillIn_ok (id : Int32) (c : Command) (err : DoneStatus) {t : CommandType} (ht : t ∈ replyTable)
    (hr : t ≠ .camRegister) (r : Option t.payload.Value) : ∃ j, fillIn id c err t r = .ok j := by
  cases r with
  | none => exact ⟨_, rfl⟩
  | some conf => exact answer_ok id c t ht hr conf

theorem presetReply_ok (id : Int32) (c : Command) (r : Option ptzPreset.Value) : ∃ j, presetReply id c r = .ok j := by
  cases r with
  | none => exact ⟨_, rfl⟩
  | some p =>
    obtain ⟨token, name, action, u⟩ := p
    simp only [presetReply]
    split
    · split
      · exact answer_ok id c .camPtzPresetCreated (by decide) (by decide) _
      · exact ⟨_, rfl⟩
    · exact ⟨_, rfl⟩

theorem syncReply_ok (id : Int32) (c : Command) (r : Option camMemorycardSynchronizeStatus.Value) :
    ∃ j, syncReply id c r = .ok j := by
  cases r with
  | none => exact ⟨_, rfl⟩
  | some p => exact answer_ok id c .camMemorycardSynchronizeStatus (by decide) (by decide) _

theorem respond_ok_iff (id : Int32) (h : Handler) (c : Command) (t : CommandType) (p : t.payload.Value)
    (ht : t ≠ .hello ∧ t ≠ .configure ∧ t ≠ .camHello ∧ t ≠ .rawMessage) :
    (∃ r, respond cb id h.config c t p = .ok r) ↔ ∀ k ∈ calls h c t p, Returns cb k := by
  obtain ⟨hhello, hconfigure, hcamHello, hraw⟩ := ht
  cases t with
  | hello | configure | camHello | rawMessage => contradiction
  | streamStart | streamStop | setStreamByEvent | setStreamConfig | setCamEvents | camUpdatePreview
  | setMotionDetection | setAudioDetection | setCamAudioConf | setCamVideoConf | setOsdConf | setCamParameter
  | camUpgradeFirmware | camGetLog | camSetCurrentWifi | camPtz | backwardStop | camMemorycardRecording =>
    refine Iff.trans ?_ List.forall_mem_singleton.symm
    exact map_ok_iff _
  | getSupportedStreams | getStreamByEvent | getStreamCaps | getStreamConfig | getCamEvents | getMotionDetection
  | getAudioDetection | getCamAudioConf | getCamVideoConf | getOsdConf | camListWifi | getPtzConf
  | getCamMemorycardTimeline =>
    refine Iff.trans ?_ List.forall_mem_singleton.symm
    refine bind_ok_iff fun r => ?_
    exact fillIn_ok id c _ (by decide) (by decide) _
  | camPtzPreset =>
    refine Iff.trans ?_ List.forall_mem_singleton.symm
    exact bind_ok_iff (presetReply_ok id c)
  | directUploadUrl =>
    change (∃ r, (if uploadable p.2.1 p.2.2.1 then
      (callAll cb (directUploadUrl.calls c.refid p)).map _ else _) = .ok r) ↔
      ∀ k ∈ (if uploadable p.2.1 p.2.2.1 then directUploadUrl.calls c.refid p else []), Returns cb k
    split
    · exact (map_ok_iff _).trans callAll_ok_iff
    · exact iff_of_true ⟨_, rfl⟩ fun _ hk => absurd hk List.not_mem_nil
  | camTriggerEvent =>
    exact unless_ok_iff (q := ifSet p.1 "" = "") ⟨_, rfl⟩ (triggered p.1 p.2.1 p.2.2.1) _
  | backwardStart =>
    exact unless_ok_iff (q := text.unset p.1 = true) ⟨_, rfl⟩ (.onStartBackward p.1) _
  | audioFilePlay =>
    refine Iff.trans (map_ok_iff _) ?_
    exact unless_ok_iff (q := text.unset p.1 = true) ⟨_, rfl⟩ (.onAudioFilePlay p.1) _
  | camMemorycardSynchronize =>
    refine Iff.trans ?_ List.forall_mem_append.symm
    rw [List.forall_mem_singleton, ← callAll_ok_iff]
    change (∃ r, (callAll cb (p.2.2.2.2.1.map .onCamMemorycardSynchronizeCancel)).bind _ = .ok r) ↔ _
    cases callAll cb (p.2.2.2.2.1.map .onCamMemorycardSynchronizeCancel) with
    | error fault => simp [Except.bind]
    | ok u =>
      refine Iff.trans ?_ (and_iff_right ⟨u, rfl⟩).symm
      exact bind_ok_iff (syncReply_ok id c)
  | camMemorycardSynchronizeCancel =>
    have hstatus := answer_eq id c (t := .camMemorycardSynchronizeStatus) (by decide) (by decide)
      (p.1, unsetInt32, MemorycardSyncStatus.canceled, ())
    refine Iff.trans ?_ List.forall_mem_singleton.symm
    change (∃ r, (answer id c .camMemorycardSynchronizeStatus
      (p.1, unsetInt32, MemorycardSyncStatus.canceled, ())).bind
        (fun _ => (cb (.onCamMemorycardSynchronizeCancel p.1)).map fun _ => done id c .ok) = .ok r) ↔ _
    rw [hstatus]
    exact map_ok_iff _
  | getCamStatus =>
    exact iff_of_true (answer_ok id c .camStatus (by decide) (by decide) _) fun _ hk => absurd hk List.not_mem_nil
  | _ => exact iff_of_true ⟨_, rfl⟩ (fun _ hk => absurd hk List.not_mem_nil)

/-! ### Received messages -/

section message
variable (accepts : Json → Bool) (id id' : Int32) (h : Handler) (c : Command)

theorem setTimezone_harmless (tz : String) :
    callAll cb (setTimezone tz) ≠ .error .null ↔ ∀ k ∈ setTimezone tz, Harmless cb .configure k := by
  rw [setTimezone]
  split
  · simp [callAll]
  · rw [List.forall_mem_singleton, harmless_of_catches cb rfl, callAll]
    cases cb (.onSetTimezone tz) <;> simp [callAll]

/-- The handler of a command completes just if each function that it calls does, or throws what it catches. -/
theorem dispatch_ok_iff (t : CommandType) (p : t.payload.Value) :
    (∃ r, dispatch cb accepts id id' h c t p = .ok r) ↔ ∀ k ∈ calls h c t p, Harmless cb t k := by
  have hresponds (ht : t ≠ .hello ∧ t ≠ .configure ∧ t ≠ .camHello ∧ t ≠ .rawMessage) :
      (∃ r, (respond cb id h.config c t p).map (fun r => (h, ([] : List Json), r)) = .ok r) ↔
        ∀ k ∈ calls h c t p, Harmless cb t k := by
    have hcatches : catches t = false := by
      cases t <;> simp_all [catches]
    rw [map_ok_iff, respond_ok_iff cb id h c t p ht]
    exact forall₂_congr fun k _ => (harmless_iff cb hcatches k).symm
  cases t with
  | hello =>
    refine (catching_ok_iff.trans (map_ne_null _)).trans ?_
    change (if h.registered then .ok _ else (cb (.onRegistered (hello.store p h.config).sid)).map _) ≠ _ ↔
      ∀ k ∈ (if h.registered then [] else [.onRegistered (hello.store p h.config).sid]), Harmless cb .hello k
    split
    · simp
    · rw [List.forall_mem_singleton, harmless_of_catches cb rfl]
      cases cb (.onRegistered (hello.store p h.config).sid) <;> simp [Except.map]
  | configure =>
    refine (catching_ok_iff.trans (map_ne_null _)).trans ?_
    exact setTimezone_harmless cb _
  | camHello =>
    refine ((map_ok_iff _).trans callAll_ok_iff).trans ?_
    exact forall₂_congr fun k _ => (harmless_iff cb rfl k).symm
  | rawMessage =>
    refine (map_ok_iff _).trans ?_
    change (∃ r, (if text.unset p.2.1 then _ else (cb (.onRawMessage p.1 p.2.1)).map _) = .ok r) ↔
      ∀ k ∈ (if text.unset p.2.1 then [] else [.onRawMessage p.1 p.2.1]), Harmless cb .rawMessage k
    split
    · exact iff_of_true ⟨_, rfl⟩ fun _ hk => absurd hk List.not_mem_nil
    · rw [List.forall_mem_singleton, harmless_iff cb rfl]
      exact map_ok_iff _
  | bye => exact iff_of_true ⟨_, rfl⟩ fun _ hk => absurd hk List.not_mem_nil
  | _ => exact hresponds (by decide)

/-- No acknowledgement of a record runs with a command of another type than it expects. -/
def AckSafe : Prop :=
  ∀ ack, h.commands.acks c.refid.toInt = some ack → ack.ackCb.run = .directUploadVideo → c.type = .directUploadUrl

/-- An acknowledgement changes the table of acknowledgements only. -/
theorem handleCommandAck_cases {h h' : Handler} {c : Command} (hack : handleCommandAck h c = .ok h') :
    ∃ commands, h' = { h with commands } := by
  rw [handleCommandAck] at hack
  split at hack
  · exact ⟨_, (Except.ok.inj hack).symm⟩
  · obtain ⟨_, -, rfl⟩ := map_eq_ok hack
    exact ⟨_, rfl⟩

theorem handleCommandAck_ok_iff : (∃ h', handleCommandAck h c = .ok h') ↔ AckSafe h c := by
  rw [handleCommandAck, AckSafe, CommandHandler.handleCommandAck]
  cases hack : h.commands.acks c.refid.toInt with
  | none => simp
  | some ack =>
    simp only [map_ok_iff, Option.some.injEq, forall_eq']
    cases hrun : ack.ackCb.run with
    | event => simp [AckRun.run]
    | directUploadVideo => simp [AckRun.run]

/-- What the handlers call does not depend on the acknowledgements. -/
theorem calls_commands (commands : CommandHandler AckRun) (t : CommandType) (p : t.payload.Value) :
    calls { h with commands } c t p = calls h c t p := by
  cases t <;> rfl

/-- Everything that keeps an accepted command from completing. -/
structure Safe : Prop where
  ack : AckSafe h c
  calls : ∀ k ∈ calls h c c.type c.payload, Harmless cb c.type k

theorem handleCommand_ok_iff :
    (∃ r, handleCommand cb accepts id id' h c = .ok r) ↔ (rejects h c = false → Safe cb h c) := by
  rw [handleCommand]
  cases hrejects : rejects h c with
  | true => simp
  | false =>
    simp only [Bool.false_eq_true, if_false, forall_const]
    constructor
    · rintro ⟨r, hr⟩
      obtain ⟨h', hack, hr⟩ := bind_eq_ok hr
      obtain ⟨commands, rfl⟩ := handleCommandAck_cases hack
      obtain ⟨d, hd, -⟩ := map_eq_ok hr
      refine ⟨(handleCommandAck_ok_iff h c).mp ⟨_, hack⟩, ?_⟩
      rw [← calls_commands h c commands]
      exact (dispatch_ok_iff cb accepts id id' _ c c.type c.payload).mp ⟨d, hd⟩
    · intro hsafe
      obtain ⟨h', hack⟩ := (handleCommandAck_ok_iff h c).mpr hsafe.ack
      obtain ⟨commands, rfl⟩ := handleCommandAck_cases hack
      have hcalls := hsafe.calls
      rw [← calls_commands h c commands] at hcalls
      obtain ⟨d, hd⟩ := (dispatch_ok_iff cb accepts id id' { h with commands } c c.type c.payload).mpr hcalls
      rw [hack]
      exact ⟨_, congrArg (Except.map _) hd⟩

/-- The name of a command is text, if there is one. -/
def Named (message : Json) : Prop := ∀ cmd, message.at? "cmd" = some cmd → ∃ s, cmd = .str s

theorem parse_ne_none_iff (message : Json) : Command.parse id message ≠ none ↔ Named message := by
  rw [Command.parse, Named]
  cases hcmd : message.at? "cmd" with
  | none => simp
  | some cmd => cases cmd <;> simp [toText]

/-- A message is handled to its end just if its `cmd` is text, and the command that it gives is for another camera or
meets no acknowledgement of another type, and the functions that its handler calls return. -/
theorem handleMessage_ok_iff (ids : Int32 × Int32 × Int32) (message : Json) :
    (∃ r, handleMessage cb accepts ids h message = .ok r) ↔
      Named message ∧
        ∀ c, Command.parse ids.1 message = some (some c) → rejects h c = false → Safe cb h c := by
  rw [← parse_ne_none_iff ids.1, handleMessage]
  rcases hparse : Command.parse ids.1 message with _ | _ | c
  · simp
  · simp
  · refine (handleCommand_ok_iff cb accepts ids.2.1 ids.2.2 h c).trans ?_
    simp

end message

/-- Nothing, or `false`. -/
def Call.refused (call : Call) : call.Result := by cases call <;> first | exact none | exact false | exact ()

/-- A manager all of whose functions return, and do nothing. -/
def refusing : Callbacks := fun call => .ok call.refused

/-- A camera that waits for the url of a record, which it asked for with message 7. -/
def waiting : Handler where
  config :=
    { uploadUrl := "", mediaServer := "", camPath := "", ca := "", sid := "sid", pwd := "", uuid := "", connId := ""
      camId := 5, activity := true, streaming := false, deviceIpaddr := "127.0.0.1", deviceBrand := "noname"
      deviceModel := "nomodel", deviceSerial := "1234567", deviceFwVersion := "0", timezone := "UTC"
      deviceType := "notype", reconnectServerAddress := "", rawMessaging := false }
  registered := true
  helloReceived := true
  byeReason := .invalid
  byeRetry := 0
  commands := CommandHandler.empty.sendCommandWaitAck 7 .directUploadVideo 20

/-- A `cam_hello` that refers to message 7. -/
def strayHello : Json :=
  .obj [("cmd", .str "cam_hello"), ("msgid", .int 1), ("cam_id", .int 5), ("refid", .int 7)]

end CloudAgent.Proto.Handlers
