import CloudAgent.Proto.Completes

/-! Which reply a received command gets, and that the server can tell what it replies to. -/
namespace CloudAgent.Proto.Handlers
open Wire

/-- The types that are handled with a reply. -/
def answered : CommandType → Bool
  | .hello | .configure | .getCamStatus | .getSupportedStreams | .camHello | .streamStart | .streamStop
  | .camUpdatePreview | .camUpgradeFirmware | .getAudioDetection | .setAudioDetection | .getCamAudioConf
  | .getCamEvents | .getCamVideoConf | .directUploadUrl | .getMotionDetection | .getStreamByEvent
  | .setStreamByEvent | .getStreamCaps | .getStreamConfig | .setCamAudioConf | .setCamEvents | .setCamVideoConf
  | .setMotionDetection | .setStreamConfig | .getPtzConf | .camPtz | .camPtzPreset | .rawMessage
  | .rawMessageClientConnected | .rawMessageClientDisconnected | .camGetLog | .getOsdConf | .setOsdConf
  | .setCamParameter | .camTriggerEvent | .backwardStart | .backwardStop | .camSetCurrentWifi | .camListWifi
  | .getCamMemorycardTimeline | .camMemorycardSynchronize | .camMemorycardSynchronizeCancel
  | .camMemorycardRecording => true
  | _ => false

/-- The answer to a request, besides `done`. -/
def answerType : CommandType → Option CommandType
  | .getCamStatus => some .camStatus
  | .getSupportedStreams => some .supportedStreams
  | .getAudioDetection => some .audioDetectionConf
  | .getCamAudioConf => some .camAudioConf
  | .getCamEvents => some .camEventsConf
  | .getCamVideoConf => some .camVideoConf
  | .getMotionDetection => some .motionDetectionConf
  | .getStreamByEvent => some .streamByEventConf
  | .getStreamCaps => some .streamCaps
  | .getStreamConfig => some .streamConfig
  | .getPtzConf => some .camPtzConf
  | .camPtzPreset => some .camPtzPresetCreated
  | .getOsdConf => some .osdConf
  | .camListWifi => some .camWifiList
  | .getCamMemorycardTimeline => some .camMemorycardTimeline
  | .camMemorycardSynchronize => some .camMemorycardSynchronizeStatus
  | _ => none

/-- `done`, or the answer to the type. -/
def Answers (t t' : CommandType) : Prop := t' = .done ∨ answerType t = some t'

/-- A reply of the type `t'` to the command. -/
def IsReply (id : Int32) (c : Command) (t : CommandType) (j : Json) : Prop :=
  ∃ (t' : CommandType) (p : t'.payload.Value), Answers t t' ∧
    j = Command.toJson ⟨t', id, c.camId, c.msgid, c.type.name, p⟩

section replies
variable {cb : Callbacks} {id id' : Int32} {c : Command} {j : Json} {t : CommandType}

theorem done_isReply (t : CommandType) (status : DoneStatus) : IsReply id c t (done id c status) :=
  ⟨.done, _, Or.inl rfl, rfl⟩

theorem acknowledge_isReply (t : CommandType) (err : DoneStatus) (ok : Bool) :
    IsReply id c t (acknowledge id c err ok) := by
  cases ok <;> exact done_isReply t _

theorem answer_isReply (t' : CommandType) {p : t'.payload.Value} (ht : answerType t = some t')
    (hmem : t' ∈ replyTable) (hr : t' ≠ .camRegister) (hj : answer id c t' p = .ok j) : IsReply id c t j := by
  rw [answer_eq id c hmem hr] at hj
  exact ⟨t', p, Or.inr ht, (Except.ok.inj hj).symm⟩

theorem fillIn_isReply {t' : CommandType} {err : DoneStatus} {r : Option t'.payload.Value} (ht : answerType t = some t')
    (hmem : t' ∈ replyTable) (hr : t' ≠ .camRegister) (hj : fillIn id c err t' r = .ok j) : IsReply id c t j := by
  cases r with
  | none =>
    obtain rfl := Except.ok.inj hj
    exact done_isReply t err
  | some p => exact answer_isReply t' ht hmem hr hj

theorem presetReply_isReply {r : Option ptzPreset.Value} (hj : presetReply id c r = .ok j) :
    IsReply id c .camPtzPreset j := by
  cases r with
  | none =>
    obtain rfl := Except.ok.inj hj
    exact done_isReply _ _
  | some p =>
    obtain ⟨token, name, action, u⟩ := p
    simp only [presetReply] at hj
    split at hj
    · split at hj
      · exact answer_isReply .camPtzPresetCreated rfl (by decide) (by decide) hj
      · obtain rfl := Except.ok.inj hj
        exact done_isReply _ _
    · obtain rfl := Except.ok.inj hj
      exact done_isReply _ _

theorem syncReply_isReply {r : Option camMemorycardSynchronizeStatus.Value} (hj : syncReply id c r = .ok j) :
    IsReply id c .camMemorycardSynchronize j := by
  cases r with
  | none =>
    obtain rfl := Except.ok.inj hj
    exact done_isReply _ _
  | some p => exact answer_isReply .camMemorycardSynchronizeStatus rfl (by decide) (by decide) hj

/-- What the handlers reply that change nothing of the state. -/
theorem respond_isReply {config : ManagerConfig} {p : t.payload.Value} (ht : answered t = true)
    (hs : t ≠ .hello ∧ t ≠ .configure ∧ t ≠ .camHello ∧ t ≠ .rawMessage)
    (hj : respond cb id config c t p = .ok j) : IsReply id c t j := by
  obtain ⟨hhello, hconfigure, hcamHello, hraw⟩ := hs
  cases t with
  | hello | configure | camHello | rawMessage => contradiction
  | streamStart | streamStop | setStreamByEvent | setStreamConfig | setCamEvents | camUpdatePreview
  | setMotionDetection | setAudioDetection | setCamAudioConf | setCamVideoConf | setOsdConf
  | camUpgradeFirmware | camGetLog | camPtz =>
    obtain ⟨ok, -, rfl⟩ := map_eq_ok hj
    exact acknowledge_isReply _ _ ok
  | setCamParameter | camSetCurrentWifi | backwardStop | camMemorycardRecording =>
    obtain ⟨_, -, rfl⟩ := map_eq_ok hj
    exact done_isReply _ _
  | getSupportedStreams | getStreamByEvent | getStreamCaps | getStreamConfig | getCamEvents | getMotionDetection
  | getAudioDetection | getCamAudioConf | getCamVideoConf | getOsdConf | camListWifi | getPtzConf
  | getCamMemorycardTimeline =>
    obtain ⟨r, -, hr⟩ := bind_eq_ok hj
    exact fillIn_isReply rfl (by decide) (by decide) hr
  | camPtzPreset =>
    obtain ⟨r, -, hr⟩ := bind_eq_ok hj
    exact presetReply_isReply hr
  | directUploadUrl =>
    change (if uploadable p.2.1 p.2.2.1 then
      (callAll cb (directUploadUrl.calls c.refid p)).map _ else .ok _) = .ok j at hj
    split at hj
    · obtain ⟨_, -, rfl⟩ := map_eq_ok hj
      exact done_isReply _ _
    · obtain rfl := Except.ok.inj hj
      exact done_isReply _ _
  | camTriggerEvent =>
    change (if ifSet p.1 "" = "" then .ok _ else (cb (triggered p.1 p.2.1 p.2.2.1)).map _) = .ok j at hj
    split at hj
    · obtain rfl := Except.ok.inj hj
      exact done_isReply _ _
    · obtain ⟨ok, -, rfl⟩ := map_eq_ok hj
      exact acknowledge_isReply _ _ ok
  | backwardStart =>
    change (if text.unset p.1 then .ok _ else (cb (.onStartBackward p.1)).map _) = .ok j at hj
    split at hj
    · obtain rfl := Except.ok.inj hj
      exact done_isReply _ _
    · obtain ⟨ok, -, rfl⟩ := map_eq_ok hj
      exact acknowledge_isReply _ _ ok
  | camMemorycardSynchronize =>
    obtain ⟨_, -, hsync⟩ := bind_eq_ok hj
    obtain ⟨r, -, hr⟩ := bind_eq_ok hsync
    exact syncReply_isReply hr
  | camMemorycardSynchronizeCancel =>
    change (answer id c .camMemorycardSynchronizeStatus (p.1, unsetInt32, MemorycardSyncStatus.canceled, ())).bind
      (fun _ => (cb (.onCamMemorycardSynchronizeCancel p.1)).map fun _ => done id c .ok) = .ok j at hj
    obtain ⟨_, -, hcancel⟩ := bind_eq_ok hj
    obtain ⟨_, -, rfl⟩ := map_eq_ok hcancel
    exact done_isReply _ _
  | rawMessageClientConnected | rawMessageClientDisconnected =>
    obtain rfl := Except.ok.inj hj
    exact done_isReply _ _
  | getCamStatus => exact answer_isReply .camStatus rfl (by decide) (by decide) hj
  | _ => exact absurd ht (by decide)

theorem respond_eq_null {config : ManagerConfig} {p : t.payload.Value} (ht : answered t = false)
    (hj : respond cb id config c t p = .ok j) : j = .null := by
  cases t with
  | audioFilePlay =>
    obtain ⟨_, -, rfl⟩ := map_eq_ok hj
    rfl
  | registerCmd | camRegister | supportedStreams | audioDetectionConf | camEventsConf | camEvent | camVideoConf
  | getDirectUploadUrl | motionDetectionConf | streamByEventConf | streamCaps | streamConfig | camAudioConf
  | camPtzConf | camPtzPresetCreated | osdConf | camWifiList | bye | reportProblem | camStatus
  | camMemorycardTimeline | camMemorycardSynchronizeStatus | done =>
    exact (Except.ok.inj hj).symm
  | _ => exact absurd ht (by decide)

theorem doCamRegister_sends {accepts : Json → Bool} {h : Handler} {r : Handler × List Json}
    (hr : doCamRegister cb accepts id' h = .ok r) : ∀ o ∈ r.2, o.at? "refid" = none := by
  rw [doCamRegister] at hr
  split at hr
  · obtain rfl := Except.ok.inj hr
    simp
  · obtain ⟨_, -, rfl⟩ := map_eq_ok hr
    simp [camRegisterJson, Command.at?_toJson_refid]

theorem rawMessageReply_sends (clientId : String) (r : Option String) :
    ∀ o ∈ rawMessageReply id' clientId r, o.at? "refid" = none := by
  cases r with
  | none => simp [rawMessageReply]
  | some message =>
    rw [rawMessageReply]
    split
    · simp
    · simp [Command.at?_toJson_refid]

/-- What the handler of a command sends by itself refers to nothing, and what it replies is a reply, if it replies. -/
structure Writes (id : Int32) (c : Command) (t : CommandType) (sent : List Json) (r : Json) : Prop where
  sent : ∀ o ∈ sent, o.at? "refid" = none
  reply : answered t = true → IsReply id c t r
  silent : answered t = false → r = .null

theorem writes_done (id : Int32) (c : Command) (t : CommandType) {sent : List Json} (ht : answered t = true)
    (hs : ∀ o ∈ sent, o.at? "refid" = none) (status : DoneStatus) : Writes id c t sent (done id c status) where
  sent := hs
  reply _ := done_isReply t status
  silent h := by rw [ht] at h; contradiction

theorem dispatch_writes {accepts : Json → Bool} {h : Handler} {p : t.payload.Value} {d : Handler × List Json × Json}
    (hd : dispatch cb accepts id id' h c t p = .ok d) : Writes id c t d.2.1 d.2.2 := by
  have hresponds (hs : t ≠ .hello ∧ t ≠ .configure ∧ t ≠ .camHello ∧ t ≠ .rawMessage)
      (hr : (respond cb id h.config c t p).map (fun r => (h, ([] : List Json), r)) = .ok d) :
      Writes id c t d.2.1 d.2.2 := by
    obtain ⟨j, hj, rfl⟩ := map_eq_ok hr
    exact ⟨List.forall_mem_nil _, fun ht => respond_isReply ht hs hj, fun ht => respond_eq_null ht hj⟩
  cases t with
  | hello =>
    rcases catching_eq_ok hd with hok | rfl
    · obtain ⟨⟨h', sent⟩, hr, rfl⟩ := map_eq_ok hok
      exact writes_done id c .hello rfl (doCamRegister_sends hr) .ok
    · exact writes_done id c .hello rfl (List.forall_mem_nil _) .missedParam
  | configure =>
    rcases catching_eq_ok hd with hok | rfl
    · obtain ⟨r, hr, rfl⟩ := map_eq_ok hok
      exact writes_done id c .configure rfl (List.forall_mem_nil _) .ok
    · exact writes_done id c .configure rfl (List.forall_mem_nil _) .missedParam
  | camHello =>
    obtain ⟨r, hr, rfl⟩ := map_eq_ok hd
    exact writes_done id c .camHello rfl (List.forall_mem_nil _) .ok
  | rawMessage =>
    obtain ⟨r, hr, rfl⟩ := map_eq_ok hd
    change (if text.unset p.2.1 then .ok _ else (cb (.onRawMessage p.1 p.2.1)).map _) = .ok r at hr
    split at hr
    · obtain rfl := Except.ok.inj hr
      exact writes_done id c .rawMessage rfl (List.forall_mem_nil _) .ok
    · obtain ⟨message, -, rfl⟩ := map_eq_ok hr
      exact writes_done id c .rawMessage rfl (rawMessageReply_sends _ message) .ok
  | bye =>
    obtain rfl := Except.ok.inj hd
    exact ⟨List.forall_mem_nil _, fun ht => absurd ht (by decide), fun _ => rfl⟩
  | _ => exact hresponds (by decide) hd

end replies

/-! ### What the server can tell -/

/-- The number is an `int` and not the unset one. -/
def Fits (n : ℤ) : Prop := -2 ^ 31 < n ∧ n < 2 ^ 31

instance (n : ℤ) : Decidable (Fits n) := inferInstanceAs (Decidable (_ ∧ _))

theorem fits_iff {n : ℤ} : Fits n ↔ Int32.ofInt n ≠ unsetInt32 ∧ (Int32.ofInt n).toInt = n := by
  constructor
  · rintro ⟨hmin, hmax⟩
    have hback : (Int32.ofInt n).toInt = n := Int32.toInt_ofInt_of_le hmin.le hmax
    refine ⟨fun hunset => ?_, hback⟩
    rw [hunset] at hback
    exact absurd hback hmin.ne
  · rintro ⟨hunset, hback⟩
    have hmin := Int32.le_toInt (Int32.ofInt n)
    have hmax := Int32.toInt_lt (Int32.ofInt n)
    rw [hback] at hmin hmax
    refine ⟨lt_of_le_of_ne hmin fun h => hunset ?_, hmax⟩
    rw [← h]
    rfl

/-- The JSON value refers to the message. -/
def refersTo (m : ℤ) (j : Json) : Bool :=
  match j.at? "refid" with
  | some (.int n) => n = m
  | _ => false

/-- One of the commands refers to the message, and it is for the camera and answers the type. -/
def Replied (sent : List Json) (m k : ℤ) (t : CommandType) : Prop :=
  ∃ reply, sent.filter (refersTo m) = [reply] ∧ reply.at? "cam_id" = some (.int k) ∧
    reply.at? "orig_cmd" = some (.str t.name) ∧ ∃ t', Answers t t' ∧ reply.at? "cmd" = some (.str t'.name)

theorem filter_refersTo_eq_nil {m : ℤ} {sent : List Json} (hs : ∀ o ∈ sent, o.at? "refid" = none) :
    sent.filter (refersTo m) = [] := by
  rw [List.filter_eq_nil_iff]
  intro o ho
  simp [refersTo, hs o ho]

theorem sendCommand_toJson (c : Command) : sendCommand c.toJson = [c.toJson] := by
  have hcmd := c.at?_toJson_cmd
  cases hj : c.toJson with
  | obj members =>
    cases members with
    | nil =>
      rw [hj] at hcmd
      exact absurd hcmd (by simp [Json.at?])
    | cons m members => rfl
  | null | bool | int | float | str | arr =>
    rw [hj] at hcmd
    exact absurd hcmd (by simp [Json.at?])

theorem refersTo_toJson {m : ℤ} (c : Command) :
    refersTo m c.toJson = true ↔ c.refid ≠ unsetInt32 ∧ c.refid.toInt = m := by
  rw [refersTo, Command.at?_toJson_refid]
  by_cases hunset : c.refid = unsetInt32 <;> simp [hunset]

theorem camId_toJson {k : ℤ} (c : Command) :
    c.toJson.at? "cam_id" = some (.int k) ↔ c.camId ≠ unsetInt32 ∧ c.camId.toInt = k := by
  rw [Command.at?_toJson_camId]
  by_cases hunset : c.camId = unsetInt32 <;> simp [hunset]

/-- A reply is told by its numbers just if they fit. -/
theorem replied_iff {id : Int32} {c : Command} {j : Json} {sent : List Json} {m k : ℤ}
    (hs : ∀ o ∈ sent, o.at? "refid" = none) (hj : IsReply id c c.type j) (hm : c.msgid = Int32.ofInt m)
    (hk : c.camId = Int32.ofInt k) : Replied (sent ++ sendCommand j) m k c.type ↔ Fits m ∧ Fits k := by
  obtain ⟨t', p, ht', rfl⟩ := hj
  have hrefers := refersTo_toJson (m := m) ⟨t', id, c.camId, c.msgid, c.type.name, p⟩
  have hcam := camId_toJson (k := k) ⟨t', id, c.camId, c.msgid, c.type.name, p⟩
  rw [Replied, sendCommand_toJson, List.filter_append, filter_refersTo_eq_nil hs, List.nil_append, fits_iff, fits_iff,
    ← hm, ← hk]
  constructor
  · rintro ⟨reply, hfilter, hreply, -, -⟩
    obtain ⟨hmem, hr⟩ := List.mem_filter.mp (hfilter ▸ List.mem_singleton_self reply)
    obtain rfl := List.mem_singleton.mp hmem
    exact ⟨hrefers.mp hr, hcam.mp hreply⟩
  · rintro ⟨hm', hk'⟩
    refine ⟨_, List.filter_eq_self.mpr fun a ha => ?_, hcam.mpr hk', ?_, t', ht', Command.at?_toJson_cmd _⟩
    · rw [List.mem_singleton.mp ha]
      exact hrefers.mpr hm'
    · rw [Command.at?_toJson_origCmd, if_neg c.type.name_ne_unset]

/-! ### Received messages -/

section message
variable (cb : Callbacks) (accepts : Json → Bool) (ids : Int32 × Int32 × Int32) (h : Handler)

/-- What is sent for a message. -/
def sends (message : Json) : List Json :=
  match handleMessage cb accepts ids h message with
  | .ok r => r.2
  | .error _ => []

/-- The command is for another camera, or handled with a reply. -/
def Expected (c : Command) : Prop := rejects h c = true ∨ answered c.type = true

theorem parsed {id : Int32} {message : Json} {c : Command} (hc : Command.parse id message = some (some c)) :
    c = Command.read c.type id message := by
  rw [Command.parse] at hc
  split at hc
  · simp at hc
  · obtain ⟨s, -, hs⟩ := Option.map_eq_some_iff.mp hc
    obtain ⟨t, -, rfl⟩ := Option.map_eq_some_iff.mp hs
    rfl

theorem parsed_msgid {id : Int32} {message : Json} {c : Command} {m : ℤ}
    (hc : Command.parse id message = some (some c)) (hm : message.at? "msgid" = some (.int m)) :
    c.msgid = Int32.ofInt m := by
  rw [parsed hc]
  change ((message.at? "msgid").bind toInt32).getD id = _
  rw [hm]
  rfl

theorem parsed_camId {id : Int32} {message : Json} {c : Command} {k : ℤ}
    (hc : Command.parse id message = some (some c)) (hk : message.at? "cam_id" = some (.int k)) :
    c.camId = Int32.ofInt k := by
  rw [parsed hc]
  change ((message.at? "cam_id").bind toInt32).getD unsetInt32 = _
  rw [hk]
  rfl

theorem sends_rejected {message : Json} {c : Command} (hc : Command.parse ids.1 message = some (some c))
    (hrejects : rejects h c = true) :
    sends cb accepts ids h message = [] ++ sendCommand (done ids.2.1 c .cmError) := by
  simp [sends, handleMessage, hc, handleCommand, hrejects]

/-- An accepted command that is safe: what its handler sends, and its reply. -/
theorem sends_safe {message : Json} {c : Command} (hc : Command.parse ids.1 message = some (some c))
    (hrejects : rejects h c = false) (hsafe : Safe cb h c) :
    ∃ sent j, sends cb accepts ids h message = sent ++ sendCommand j ∧ Writes ids.2.1 c c.type sent j := by
  obtain ⟨r, hr⟩ := (handleCommand_ok_iff cb accepts ids.2.1 ids.2.2 h c).mpr fun _ => hsafe
  have hsends : sends cb accepts ids h message = r.2 := by
    simp [sends, handleMessage, hc, hr]
  rw [handleCommand, hrejects] at hr
  obtain ⟨h', -, hdispatch⟩ := bind_eq_ok hr
  obtain ⟨d, hd, rfl⟩ := map_eq_ok hdispatch
  exact ⟨d.2.1, d.2.2, hsends, dispatch_writes hd⟩

/-- An acknowledgement of another type: nothing is sent. -/
theorem sends_unsafe {message : Json} {c : Command} (hc : Command.parse ids.1 message = some (some c))
    (hrejects : rejects h c = false) (hack : ¬ AckSafe h c) : sends cb accepts ids h message = [] := by
  rw [sends]
  split
  · rename_i r hr
    have hsafe := ((handleMessage_ok_iff cb accepts h ids message).mp ⟨r, hr⟩).2 c hc hrejects
    exact absurd hsafe.ack hack
  · rfl

end message

/-- Message 1 of the server, a request for the settings of events. -/
def eventsRequest : Json := .obj [("cmd", .str "get_cam_events"), ("msgid", .int 1), ("cam_id", .int 5)]

end CloudAgent.Proto.Handlers
