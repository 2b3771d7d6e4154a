import CloudAgent.Proto.Correlates
import Mathlib.Algebra.Group.Int.Defs
import Mathlib.Algebra.Group.Nat.Defs
import Mathlib.Data.List.Basic

/-! The session of the command handler with the cloud, over all its connections: what it registers with,
which server it connects to, and what the received messages change of that. -/
namespace CloudAgent.Proto.Handlers
open Wire Net Transition

/-- A text, if it is set. -/
def setText (v : String) : Option String := if v = unsetString then none else some v

theorem ifSet_cases (v old : String) : ifSet v old = old ∨ some (ifSet v old) = setText v := by
  by_cases hv : v = unsetString
  · exact .inl (if_pos hv)
  · exact .inr (by rw [ifSet, setText, if_neg hv, if_neg hv])

theorem ifSet_eq_getD (v old : String) : ifSet v old = (setText v).getD old := by
  by_cases hv : v = unsetString <;> simp [ifSet, setText, hv]

/-- The command handler of the manager, with its reconnection. Besides what the handlers of messages know
it has the rest of what a registration says, and the session id that the global profile keeps. `attempts`
are the servers and urls of the attempts to connect, `sids` the session ids that were stored, and `sent`
what was sent since the last callback of the transport, with the results. -/
structure Session where
  handler : Handler
  transport : LwsCommon Unit
  reconnectTimer : Option ℕ
  autoReconnect : Bool
  protocol : String
  port : ℕ
  serverAddress : String
  regToken : String
  agentVersion : String
  deviceVendor : String
  profileSid : String
  attempts : List (String × String)
  sids : List String
  sent : List (Json × Bool)

namespace Session

/-- `get_address`, but for the choice of the server. -/
def url (s : Session) (address : String) : String :=
  let noPort := !address.toList.contains ':'
  let server := s.protocol ++ address ++ if noPort then ":" ++ toString s.port else ""
  if s.regToken ≠ "" then server ++ "/ctl/NEW/" ++ s.regToken ++ "/"
  else if s.handler.config.connId ≠ "" then server ++ "/ctl/" ++ s.handler.config.connId ++ "/"
  else ""

/-- The server that `get_address` takes: one that a `configure` named goes first. -/
def server (s : Session) : String :=
  if s.handler.config.reconnectServerAddress = "" then s.serverAddress
  else s.handler.config.reconnectServerAddress

/-- `try_connect`. -/
def tryConnect (s : Session) : Session := { s with attempts := s.attempts ++ [(s.server, s.url s.server)] }

/-- `_reset_reconnect_timer`. -/
def resetReconnectTimer (s : Session) : Session :=
  match s.reconnectTimer with
  | none => s
  | some t => { s with transport := s.transport.cancelTimedCb t, reconnectTimer := none }

/-- `reconnect`. -/
def reconnect (s : Session) (ms : ℕ) : Session :=
  match s.reconnectTimer with
  | some _ => s
  | none =>
    let (t, transport) := s.transport.scheduleTimedCb () ms
    { s with transport, reconnectTimer := some t }

/-- The delay that `on_closed` asks for, as the `size_t` that an `int` becomes. -/
def timeout (s : Session) (reason : ByeReason) : ℕ :=
  let timeout := if reason = .reconnect then Int.bmod (s.handler.byeRetry * 1000) (2 ^ 32) else 5000
  ((if timeout = 0 then 5000 else timeout) % 2 ^ 64).toNat

/-- `manager::on_closed`. Unless the cloud asked for the reconnection, the main server is the next one. -/
def onClosed (s : Session) (reason : ByeReason) : Session :=
  if reason ≠ .authFailure && (reason = .reconnect || s.autoReconnect) then
    let address := if reason = .reconnect then s.handler.config.reconnectServerAddress else ""
    { s with handler.config.reconnectServerAddress := address }.reconnect (s.timeout reason)
  else s

/-- The session id that `do_register` offers to go on with. -/
def prevSid (s : Session) : String :=
  if s.handler.config.sid ≠ "" then s.handler.config.sid
  else if s.profileSid ≠ "" then s.profileSid
  else unsetString

/-- The command that `do_register` sends. -/
def registerJson (s : Session) (id : Int32) (secure : Bool) : Json :=
  Command.toJson ⟨.registerCmd, id, unsetInt32, unsetInt32, unsetString,
    (s.agentVersion, s.handler.config.timezone, s.deviceVendor,
      if s.handler.config.pwd ≠ "" then s.handler.config.pwd else unsetString, s.prevSid,
      if s.regToken ≠ "" then s.regToken else unsetString, [if secure then "rtmps" else "rtmp"], ())⟩

/-- `do_register`; `timezone` is what `on_get_timezone` leaves in the configuration. -/
def doRegister (s : Session) (id : Int32) (timezone : String) (secure accepted : Bool) : Session :=
  let s := { s with handler.config.timezone := timezone }
  { s with sent := s.sent ++ [(s.registerJson id secure, accepted)] }

/-- What every callback of the transport does first. -/
def reset (s : Session) : Session :=
  { s.resetReconnectTimer with handler.helloReceived := false, handler.registered := false, sent := [] }

def onConnected (s : Session) (id : Int32) (timezone : String) (secure accepted : Bool) : Session :=
  { s.reset with handler.byeReason := .invalid }.doRegister id timezone secure accepted

def onError (s : Session) : Session := s.reset.onClosed .connClose

/-- The reason that `on_disconnected` reports. -/
def closedReason (s : Session) : ByeReason :=
  if s.handler.byeReason ≠ .invalid then s.handler.byeReason else .connClose

def onDisconnected (s : Session) : Session := s.reset.onClosed s.closedReason

/-- The session id that a message of this type stores. -/
def sidOf : (t : CommandType) → t.payload.Value → Option String
  | .hello, (_, sid, _) => setText sid
  | _, _ => none

/-- The command that is not turned down because it is for another camera. -/
def admitted (h : Handler) (id : Int32) (message : Json) : Option Command :=
  (Command.parse id message).join.filter fun c => !rejects h c

/-- `handleMessage` within the session; nothing if it does not return. -/
def handleMessage (s : Session) (cb : Callbacks) (accepts : Json → Bool) (ids : Int32 × Int32 × Int32)
    (message : Json) : Option Session :=
  match Handlers.handleMessage cb accepts ids s.handler message with
  | .error _ => none
  | .ok (handler, sent) =>
    let sid := (admitted s.handler ids.1 message).bind fun c => sidOf c.type c.payload
    some { s with
      handler
      profileSid := sid.getD s.profileSid
      sids := s.sids ++ sid.toList
      sent := s.sent ++ sent.map fun j => (j, accepts j) }

/-- The callbacks of the transport, a received message, or the firing of the reconnect timer. -/
inductive Event
  | connected (id : Int32) (timezone : String) (secure accepted : Bool)
  | message (cb : Callbacks) (accepts : Json → Bool) (ids : Int32 × Int32 × Int32) (message : Json)
  | disconnected
  | error
  | fireReconnectTimer (t : ℕ)

def step (s : Session) : Event → Option Session
  | .connected id timezone secure accepted => some (s.onConnected id timezone secure accepted)
  | .message cb accepts ids message => s.handleMessage cb accepts ids message
  | .disconnected => some s.onDisconnected
  | .error => some s.onError
  | .fireReconnectTimer t => (s.transport.sulCb t).map fun (_, transport) => { s with transport }.tryConnect

end Session

/-! ### What a message changes -/

/-- What the handler of a type does to the state. -/
def Effect (h : Handler) (c : Command) (h' : Handler) : (t : CommandType) → t.payload.Value → Prop
  | .hello, p => ∃ registered, h' = { h with config := hello.store p h.config, registered }
  | .configure, (pwd, uuid, connid, tz, server, _) =>
    ∃ address, (address = h.config.reconnectServerAddress ∨ some address = setText server) ∧
      h' = { h with
        config := { h.config with
          pwd := ifSet pwd h.config.pwd
          uuid := ifSet uuid h.config.uuid
          connId := ifSet connid h.config.connId
          timezone := ifSet tz h.config.timezone
          reconnectServerAddress := address } }
  | .camHello, p => h' = { h with config := camHello.store p c.camId h.config, helloReceived := true }
  | .bye, p => h' = handleBye h p
  | _, _ => h' = h

section effect
variable {cb : Callbacks} {accepts : Json → Bool} {id id' : Int32} {h h' : Handler} {c : Command}

theorem doCamRegister_cases {r : Handler × List Json} (hr : doCamRegister cb accepts id' h = .ok r) :
    (h.registered = true ∧ r = (h, [])) ∨
      (h.registered = false ∧ r = ({ h with registered := accepts (camRegisterJson id' h.config) },
        [camRegisterJson id' h.config])) := by
  rw [doCamRegister] at hr
  split at hr
  · exact .inl ⟨‹_›, (Except.ok.inj hr).symm⟩
  · obtain ⟨_, -, rfl⟩ := map_eq_ok hr
    exact .inr ⟨by simpa using ‹¬h.registered = true›, rfl⟩

theorem dispatch_effect {t : CommandType} {p : t.payload.Value} {d : Handler × List Json × Json}
    (hd : dispatch cb accepts id id' h c t p = .ok d) : Effect h c d.1 t p := by
  have hresponds (hr : (respond cb id h.config c t p).map (fun r => (h, ([] : List Json), r)) = .ok d) :
      d.1 = h := by
    obtain ⟨j, -, rfl⟩ := map_eq_ok hr
    rfl
  cases t with
  | hello =>
    rcases catching_eq_ok hd with hok | rfl
    · obtain ⟨r, hr, rfl⟩ := map_eq_ok hok
      rcases doCamRegister_cases hr with ⟨hreg, rfl⟩ | ⟨-, rfl⟩
      · exact ⟨h.registered, rfl⟩
      · exact ⟨_, rfl⟩
    · exact ⟨h.registered, rfl⟩
  | configure =>
    obtain ⟨pwd, uuid, connid, tz, server, _⟩ := p
    rcases catching_eq_ok hd with hok | rfl
    · obtain ⟨_, -, rfl⟩ := map_eq_ok hok
      exact ⟨_, ifSet_cases server h.config.reconnectServerAddress, rfl⟩
    · exact ⟨_, .inl rfl, rfl⟩
  | camHello =>
    obtain ⟨_, -, rfl⟩ := map_eq_ok hd
    rfl
  | bye =>
    obtain rfl := Except.ok.inj hd
    rfl
  | rawMessage =>
    obtain ⟨_, -, rfl⟩ := map_eq_ok hd
    rfl
  | _ => exact hresponds hd

/-- A message is passed over, turned down, or handled by the handler of its type. -/
theorem handleMessage_effect {ids : Int32 × Int32 × Int32} {message : Json} {sent : List Json}
    (hs : Handlers.handleMessage cb accepts ids h message = .ok (h', sent)) :
    (Session.admitted h ids.1 message = none ∧ h' = h) ∨
      ∃ c commands, Session.admitted h ids.1 message = some c ∧ rejects h c = false ∧
        Effect { h with commands } c h' c.type c.payload := by
  rw [Handlers.handleMessage] at hs
  split at hs
  · simp at hs
  · obtain ⟨rfl, -⟩ := Prod.mk.inj (Except.ok.inj hs)
    exact .inl ⟨by simp [Session.admitted, *], rfl⟩
  · rename_i c hc
    rw [handleCommand] at hs
    split at hs
    · obtain ⟨rfl, -⟩ := Prod.mk.inj (Except.ok.inj hs)
      exact .inl ⟨by simp [Session.admitted, *], rfl⟩
    · have hr : rejects h c = false := by simpa using ‹¬rejects h c = true›
      obtain ⟨g, hack, hs⟩ := bind_eq_ok hs
      obtain ⟨commands, rfl⟩ := handleCommandAck_cases hack
      obtain ⟨d, hd, heq⟩ := map_eq_ok hs
      obtain ⟨rfl, -⟩ := Prod.mk.inj heq
      exact .inr ⟨c, commands, by simp [Session.admitted, hc, hr], hr, dispatch_effect hd⟩

end effect

/-! ### What a step changes -/

namespace Session
variable {s s' : Session} {e : Event}

/-- The reason that a callback of the transport reports to `on_closed`. -/
def closed (s : Session) : Event → Option ByeReason
  | .disconnected => some s.closedReason
  | .error => some .connClose
  | .connected .. | .message .. | .fireReconnectTimer _ => none

theorem resetReconnectTimer_frame (s : Session) :
    ∃ transport reconnectTimer, s.resetReconnectTimer = { s with transport, reconnectTimer } := by
  unfold resetReconnectTimer
  split
  · exact ⟨s.transport, s.reconnectTimer, rfl⟩
  · exact ⟨_, _, rfl⟩

theorem reconnect_frame (s : Session) (ms : ℕ) :
    ∃ transport reconnectTimer, s.reconnect ms = { s with transport, reconnectTimer } := by
  unfold reconnect
  split
  · exact ⟨s.transport, s.reconnectTimer, rfl⟩
  · exact ⟨_, _, rfl⟩

theorem reset_frame (s : Session) :
    ∃ transport reconnectTimer, s.reset =
      { s with
        transport, reconnectTimer
        handler.helloReceived := false, handler.registered := false
        sent := [] } := by
  obtain ⟨transport, reconnectTimer, h⟩ := s.resetReconnectTimer_frame
  exact ⟨transport, reconnectTimer, by rw [reset, h]⟩

/-- Whether a closure for this reason leads back to the main server. -/
def fallsBack (s : Session) (reason : ByeReason) : Bool :=
  reason ≠ .reconnect && reason ≠ .authFailure && s.autoReconnect

theorem onClosed_frame (s : Session) (reason : ByeReason) :
    ∃ transport reconnectTimer, s.onClosed reason =
      { s with
        transport, reconnectTimer
        handler.config.reconnectServerAddress :=
          if s.fallsBack reason then "" else s.handler.config.reconnectServerAddress } := by
  unfold onClosed
  split
  · rename_i hr
    obtain ⟨transport, reconnectTimer, h⟩ := reconnect_frame { s with
      handler.config.reconnectServerAddress :=
        if reason = .reconnect then s.handler.config.reconnectServerAddress else "" } (s.timeout reason)
    refine ⟨transport, reconnectTimer, h.trans ?_⟩
    by_cases hreason : reason = .reconnect
    · simp [hreason, fallsBack]
    · simp_all [fallsBack]
  · rename_i hr
    have hno : s.fallsBack reason = false := by
      simp only [fallsBack] at *
      grind
    exact ⟨s.transport, s.reconnectTimer, by simp [hno]⟩

@[simp] theorem camId_onClosed (s : Session) (reason : ByeReason) :
    (s.onClosed reason).handler.config.camId = s.handler.config.camId := by
  obtain ⟨_, _, h⟩ := s.onClosed_frame reason
  rw [h]

@[simp] theorem config_reset (s : Session) : s.reset.handler.config = s.handler.config := by
  obtain ⟨_, _, h⟩ := s.reset_frame
  rw [h]

/-- The callbacks of a closure, with the reason that they report. -/
theorem step_closed {reason : ByeReason} (hc : s.closed e = some reason) :
    s.step e = some (s.reset.onClosed reason) := by
  cases e with
  | disconnected =>
    obtain rfl := Option.some.inj hc
    rfl
  | error =>
    obtain rfl := Option.some.inj hc
    rfl
  | connected | message | fireReconnectTimer => simp [closed] at hc

end Session
end CloudAgent.Proto.Handlers
