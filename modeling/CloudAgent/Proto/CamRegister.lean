import CloudAgent.Proto.Registration

/-! The order of a registration: `register` is the first command that is handed to the transport on a connection and is
not repeated, and a `cam_register` that was accepted for sending is not repeated either. -/
namespace CloudAgent.Proto.Handlers
open Wire Net Transition

/-- The command of that name. -/
def isCommand (name : String) (j : Json) : Bool :=
  match j.at? "cmd" with
  | some (.str s) => s = name
  | _ => false

/-- A command that belongs to no registration. -/
def Plain (j : Json) : Prop := isCommand "register" j = false ∧ isCommand "cam_register" j = false

theorem name_eq_register (t : CommandType) : t.name = "register" ↔ t = .registerCmd := by
  cases t <;> decide

theorem name_eq_camRegister (t : CommandType) : t.name = "cam_register" ↔ t = .camRegister := by
  cases t <;> decide

theorem isCommand_other {name name' : String} (hne : name ≠ name') {j : Json} (hj : isCommand name j = true) :
    isCommand name' j = false := by
  unfold isCommand at *
  split at hj
  · simp_all
  · simp at hj

theorem isCommand_toJson (name : String) (c : Command) : isCommand name c.toJson = decide (c.type.name = name) := by
  simp [isCommand, c.at?_toJson_cmd]

theorem plain_toJson {c : Command} (hr : c.type ≠ .registerCmd) (hc : c.type ≠ .camRegister) : Plain c.toJson :=
  ⟨by simp [isCommand_toJson, name_eq_register, hr], by simp [isCommand_toJson, name_eq_camRegister, hc]⟩

section sends
variable {cb : Callbacks} {accepts : Json → Bool} {id id' : Int32} {h h' : Handler} {c : Command} {t : CommandType}

theorem IsReply.plain {j : Json} (hj : IsReply id c t j) : ∀ o ∈ sendCommand j, Plain o := by
  obtain ⟨t', p, ht', rfl⟩ := hj
  have hne : t' ≠ .registerCmd ∧ t' ≠ .camRegister := by
    rcases ht' with rfl | ht'
    · decide
    · constructor <;> rintro rfl <;> cases t <;> simp [answerType] at ht'
  rw [sendCommand_toJson]
  exact fun o ho => List.mem_singleton.mp ho ▸ plain_toJson hne.1 hne.2

theorem Writes.plain {sent : List Json} {r : Json} (hw : Writes id c t sent r) : ∀ o ∈ sendCommand r, Plain o := by
  by_cases ht : answered t = true
  · exact (hw.reply ht).plain
  · rw [hw.silent (by simpa using ht)]
    exact List.forall_mem_nil _

theorem rawMessageReply_plain (clientId : String) (r : Option String) :
    ∀ o ∈ rawMessageReply id' clientId r, Plain o := by
  cases r with
  | none => exact List.forall_mem_nil _
  | some message =>
    rw [rawMessageReply]
    split
    · exact List.forall_mem_nil _
    · exact fun o ho => List.mem_singleton.mp ho ▸ plain_toJson (by simp) (by simp)

/-- What a handler sends by itself is a `cam_register` with its result kept, or belongs to no registration. -/
theorem dispatch_sends {p : t.payload.Value} {d : Handler × List Json × Json}
    (hd : dispatch cb accepts id id' h c t p = .ok d) :
    (d.1.registered = h.registered ∧ ∀ o ∈ d.2.1, Plain o) ∨
      h.registered = false ∧ ∃ register, d.2.1 = [register] ∧ isCommand "cam_register" register = true ∧
        d.1.registered = accepts register := by
  have hresponds (hr : (respond cb id h.config c t p).map (fun r => (h, ([] : List Json), r)) = .ok d) :
      d.1.registered = h.registered ∧ ∀ o ∈ d.2.1, Plain o := by
    obtain ⟨j, -, rfl⟩ := map_eq_ok hr
    exact ⟨rfl, List.forall_mem_nil _⟩
  cases t with
  | hello =>
    rcases catching_eq_ok hd with hok | rfl
    · obtain ⟨r, hr, rfl⟩ := map_eq_ok hok
      rcases doCamRegister_cases hr with ⟨-, rfl⟩ | ⟨hreg, rfl⟩
      · exact .inl ⟨rfl, List.forall_mem_nil _⟩
      · refine .inr ⟨hreg, _, rfl, ?_, rfl⟩
        simp [camRegisterJson, isCommand_toJson, name_eq_camRegister]
    · exact .inl ⟨rfl, List.forall_mem_nil _⟩
  | configure =>
    rcases catching_eq_ok hd with hok | rfl
    · obtain ⟨_, -, rfl⟩ := map_eq_ok hok
      exact .inl ⟨rfl, List.forall_mem_nil _⟩
    · exact .inl ⟨rfl, List.forall_mem_nil _⟩
  | camHello =>
    obtain ⟨_, -, rfl⟩ := map_eq_ok hd
    exact .inl ⟨rfl, List.forall_mem_nil _⟩
  | bye =>
    obtain rfl := Except.ok.inj hd
    exact .inl ⟨rfl, List.forall_mem_nil _⟩
  | rawMessage =>
    obtain ⟨r, hr, rfl⟩ := map_eq_ok hd
    change (if text.unset p.2.1 then .ok _ else (cb (.onRawMessage p.1 p.2.1)).map _) = .ok r at hr
    refine .inl ⟨rfl, ?_⟩
    split at hr
    · obtain rfl := Except.ok.inj hr
      exact List.forall_mem_nil _
    · obtain ⟨message, -, rfl⟩ := map_eq_ok hr
      exact rawMessageReply_plain p.1 message
  | _ => exact .inl (hresponds hd)

/-- A message leaves the registration as it is, or sends the `cam_register` that was missing. -/
theorem handleMessage_sends {ids : Int32 × Int32 × Int32} {message : Json} {sent : List Json}
    (hs : Handlers.handleMessage cb accepts ids h message = .ok (h', sent)) :
    (h'.registered = h.registered ∧ ∀ o ∈ sent, Plain o) ∨
      h.registered = false ∧ ∃ register rest, sent = register :: rest ∧
        isCommand "cam_register" register = true ∧ h'.registered = accepts register ∧ ∀ o ∈ rest, Plain o := by
  rw [Handlers.handleMessage] at hs
  split at hs
  · simp at hs
  · obtain ⟨rfl, rfl⟩ := Prod.mk.inj (Except.ok.inj hs)
    exact .inl ⟨rfl, List.forall_mem_nil _⟩
  · rename_i c hc
    rw [handleCommand] at hs
    split at hs
    · obtain ⟨rfl, rfl⟩ := Prod.mk.inj (Except.ok.inj hs)
      exact .inl ⟨rfl, (done_isReply c.type .cmError).plain⟩
    · obtain ⟨g, hack, hs⟩ := bind_eq_ok hs
      obtain ⟨commands, rfl⟩ := handleCommandAck_cases hack
      obtain ⟨d, hd, heq⟩ := map_eq_ok hs
      obtain ⟨rfl, rfl⟩ := Prod.mk.inj heq
      have hreply := (dispatch_writes hd).plain
      rcases dispatch_sends hd with ⟨hreg, hplain⟩ | ⟨hreg, register, hsent, hcmd, haccepted⟩
      · exact .inl ⟨hreg, fun o ho => (List.mem_append.mp ho).elim (hplain o) (hreply o)⟩
      · exact .inr ⟨hreg, register, sendCommand d.2.2, by rw [hsent]; rfl, hcmd, haccepted, hreply⟩

end sends

namespace Session
variable {s s' : Session} {e : Event}

/-- The `cam_register` commands that were accepted for sending. -/
def camRegisters (sent : List (Json × Bool)) : ℕ := sent.countP fun x => isCommand "cam_register" x.1 && x.2

/-- The event belongs to a connection: it neither opens nor closes one. -/
def Event.within : Event → Bool
  | .message .. | .fireReconnectTimer _ => true
  | .connected .. | .disconnected | .error => false

/-- Of what was handed to `send` since the connection is open, `register` is the first and no other, and `registered_`
tells whether a `cam_register` was accepted. -/
structure InOrder (s : Session) : Prop where
  register : ∃ first rest, s.sent = first :: rest ∧ isCommand "register" first.1 = true ∧
    ∀ x ∈ rest, isCommand "register" x.1 = false
  camRegister : camRegisters s.sent = if s.handler.registered then 1 else 0

theorem camRegisters_eq_zero {sent : List Json} {accepts : Json → Bool} (h : ∀ o ∈ sent, Plain o) :
    camRegisters (sent.map fun j => (j, accepts j)) = 0 := by
  apply List.countP_eq_zero.mpr
  intro x hx
  obtain ⟨o, ho, rfl⟩ := List.mem_map.mp hx
  simp [(h o ho).2]

/-- `on_connected` starts the order anew, whatever was left of the last connection. -/
theorem inOrder_onConnected (s : Session) (id : Int32) (timezone : String) (secure accepted : Bool) :
    (s.onConnected id timezone secure accepted).InOrder := by
  obtain ⟨_, _, hframe⟩ := s.reset_frame
  have hregister : ∀ u : Session, isCommand "register" (u.registerJson id secure) = true := fun u => by
    simp [registerJson, isCommand_toJson, name_eq_register]
  have hcam : ∀ u : Session, isCommand "cam_register" (u.registerJson id secure) = false := fun u =>
    isCommand_other (by decide) (hregister u)
  obtain ⟨u, hsent⟩ : ∃ u : Session, (s.onConnected id timezone secure accepted).sent =
      [(u.registerJson id secure, accepted)] :=
    ⟨{ { s.reset with handler.byeReason := .invalid } with handler.config.timezone := timezone }, by
      simp [onConnected, doRegister, hframe]⟩
  constructor
  · exact ⟨_, [], hsent, hregister u, List.forall_mem_nil _⟩
  · rw [hsent]
    simp [onConnected, doRegister, hframe, camRegisters, hcam]

theorem InOrder.step (h : s.InOrder) (he : e.within = true) (hs : s.step e = some s') : s'.InOrder := by
  cases e with
  | connected | disconnected | error => simp [Event.within] at he
  | fireReconnectTimer t =>
    obtain ⟨r, -, rfl⟩ := Option.map_eq_some_iff.mp hs
    exact ⟨h.register, h.camRegister⟩
  | message cb accepts ids message =>
    obtain ⟨handler, sent, hm, rfl⟩ := step_message hs
    have hother : ∀ x ∈ sent.map fun j => (j, accepts j), isCommand "register" x.1 = false := by
      intro x hx
      obtain ⟨o, ho, rfl⟩ := List.mem_map.mp hx
      rcases handleMessage_sends hm with ⟨-, hplain⟩ | ⟨-, register, rest, rfl, hcmd, -, hplain⟩
      · exact (hplain o ho).1
      · rcases List.mem_cons.mp ho with rfl | ho
        · exact isCommand_other (by decide) hcmd
        · exact (hplain o ho).1
    constructor
    · obtain ⟨first, rest, hsent, hfirst, hrest⟩ := h.register
      refine ⟨first, rest ++ sent.map fun j => (j, accepts j), ?_, hfirst, fun x hx => ?_⟩
      · dsimp only
        rw [hsent, List.cons_append]
      · exact (List.mem_append.mp hx).elim (hrest x) (hother x)
    · have hcount := h.camRegister
      rw [camRegisters, List.countP_append, ← camRegisters, ← camRegisters, hcount]
      rcases handleMessage_sends hm with ⟨hreg, hplain⟩ | ⟨hreg, register, rest, rfl, hcmd, haccepted, hplain⟩
      · rw [camRegisters_eq_zero hplain, hreg, Nat.add_zero]
      · rw [List.map_cons, camRegisters, List.countP_cons, ← camRegisters, camRegisters_eq_zero hplain, hreg,
          haccepted]
        simp [hcmd]

/-- Whatever came before a connection and whatever the messages on it say: of the commands that are handed to `send` from
`on_connected` on, the first is `register` and no other one is, and the number of `cam_register` commands that `send`
accepts is one if `registered_` is set and zero otherwise. -/
theorem registers_once {before after : List Event} {id : Int32} {timezone : String} {secure accepted : Bool}
    (he : exec Session.step s (before ++ .connected id timezone secure accepted :: after) = some s')
    (hafter : ∀ e ∈ after, e.within = true) :
    (∃ first rest, s'.sent = first :: rest ∧ isCommand "register" first.1 = true ∧
      ∀ x ∈ rest, isCommand "register" x.1 = false) ∧
      camRegisters s'.sent = if s'.handler.registered then 1 else 0 := by
  rw [exec_append, Option.bind_eq_some_iff] at he
  obtain ⟨u, -, he⟩ := he
  obtain ⟨v, hv, he⟩ := exec_cons_eq_some.mp he
  obtain rfl := Option.some.inj hv
  have h : s'.InOrder := by
    have hmeets : Meets Session.step (fun _ e => e.within = true) (u.onConnected id timezone secure accepted) after :=
      Meets.of_forall_mem fun e he _ => hafter e he
    exact invariant (fun _ _ _ hu he hs => hu.step he hs) (u.inOrder_onConnected id timezone secure accepted) hmeets he
  exact ⟨h.register, h.camRegister⟩

/-- The second connection of the camera, after the bye and the closure. -/
theorem registers_once_redirected :
    ∃ u, exec Session.step fresh (redirected ++ .connected 11 "UTC" true true :: redirected.tail.take 2) = some u ∧
      camRegisters u.sent = 1 ∧ u.sent.head?.any (fun x => isCommand "register" x.1) = true := by
  have hrun : (exec Session.step fresh (redirected ++ .connected 11 "UTC" true true :: redirected.tail.take 2)).map
      (·.handler.registered) = some true := by
    decide +kernel
  obtain ⟨u, hu, hregistered⟩ := Option.map_eq_some_iff.mp hrun
  obtain ⟨⟨first, rest, hsent, hfirst, -⟩, hcam⟩ := registers_once hu fun e he => by
    simp only [redirected, receives, List.tail_cons, List.take_succ_cons, List.take_zero, List.mem_cons,
      List.not_mem_nil, or_false] at he
    rcases he with rfl | rfl <;> rfl
  exact ⟨u, hu, by rw [hcam, hregistered, if_pos rfl], by rw [hsent]; exact hfirst⟩

end Session
end CloudAgent.Proto.Handlers
