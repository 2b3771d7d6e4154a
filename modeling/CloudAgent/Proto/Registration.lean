import CloudAgent.Proto.Session

/-! What holds of the registration of a camera over all connections of a session. -/
namespace CloudAgent.Proto.Handlers
open Wire Net Transition

variable {h h' : Handler} {c : Command} {t : CommandType} {p : t.payload.Value}

/-! ### The camera id -/

/-- Only a `cam_hello` stores a camera id. -/
theorem Effect.camId (he : Effect h c h' t p) :
    h'.config.camId = h.config.camId ∨ c.camId ≠ unsetInt32 ∧ h'.config.camId = c.camId.toInt := by
  cases t with
  | hello =>
    obtain ⟨_, rfl⟩ := he
    exact .inl rfl
  | configure =>
    obtain ⟨_, -, rfl⟩ := he
    exact .inl rfl
  | camHello =>
    obtain rfl : h' = _ := he
    by_cases hc : c.camId = unsetInt32
    · exact .inl (if_pos hc)
    · exact .inr ⟨hc, if_neg hc⟩
  | bye =>
    obtain rfl : h' = _ := he
    exact .inl rfl
  | _ =>
    obtain rfl : h' = h := he
    exact .inl rfl

namespace Session
variable {s s' : Session} {e : Event}

/-- A message that is received, and handled to the end. -/
theorem step_message {cb : Callbacks} {accepts : Json → Bool} {ids : Int32 × Int32 × Int32} {message : Json}
    (hs : s.step (.message cb accepts ids message) = some s') :
    ∃ handler sent, Handlers.handleMessage cb accepts ids s.handler message = .ok (handler, sent) ∧
      s' = { s with
        handler
        profileSid := ((admitted s.handler ids.1 message).bind fun c => sidOf c.type c.payload).getD s.profileSid
        sids := s.sids ++ ((admitted s.handler ids.1 message).bind fun c => sidOf c.type c.payload).toList
        sent := s.sent ++ sent.map fun j => (j, accepts j) } := by
  cases hm : Handlers.handleMessage cb accepts ids s.handler message with
  | error fault => simp [step, handleMessage, hm] at hs
  | ok r =>
    simp only [step, handleMessage, hm, Option.some.injEq] at hs
    exact ⟨r.1, r.2, rfl, hs.symm⟩

/-- A camera id that is known is never replaced. -/
theorem step_camId (hs : s.step e = some s') (hknown : s.handler.config.camId ≠ 0) :
    s'.handler.config.camId = s.handler.config.camId := by
  cases e with
  | connected id timezone secure accepted =>
    obtain rfl := Option.some.inj hs
    simp [onConnected, doRegister]
  | disconnected | error =>
    obtain rfl := Option.some.inj hs
    simp [onDisconnected, onError]
  | fireReconnectTimer t =>
    obtain ⟨r, -, rfl⟩ := Option.map_eq_some_iff.mp hs
    rfl
  | message cb accepts ids message =>
    obtain ⟨handler, sent, hm, rfl⟩ := step_message hs
    rcases handleMessage_effect hm with ⟨-, rfl⟩ | ⟨c, commands, -, hr, he⟩
    · rfl
    · obtain hsame | ⟨hset, hcam⟩ := he.camId
      · exact hsame
      · have hr : ¬ (c.camId ≠ unsetInt32 ∧ s.handler.config.camId ≠ 0 ∧ c.camId.toInt ≠ s.handler.config.camId) := by
          simpa [rejects] using hr
        have heq : c.camId.toInt = s.handler.config.camId := by
          by_contra hne
          exact hr ⟨hset, hknown, hne⟩
        exact hcam.trans heq

/-- Once the camera id is known it stays for all connections, and whatever is for another camera is answered with
an error and has no other effect. -/
theorem camId_fixed {es : List Event} (he : exec Session.step s es = some s')
    (hknown : s.handler.config.camId ≠ 0) :
    s'.handler.config.camId = s.handler.config.camId ∧
      ∀ cb accepts ids message c, Command.parse ids.1 message = some (some c) → c.camId ≠ unsetInt32 →
        c.camId.toInt ≠ s.handler.config.camId →
        s'.handleMessage cb accepts ids message =
          some { s' with sent := s'.sent ++ [(done ids.2.1 c .cmError, accepts (done ids.2.1 c .cmError))] } := by
  have hcam : s'.handler.config.camId = s.handler.config.camId :=
    run_invariant (P := fun u => u.handler.config.camId = s.handler.config.camId)
      (fun u e v hu hs => (step_camId hs (hu ▸ hknown)).trans hu) rfl he
  refine ⟨hcam, fun cb accepts ids message c hc hset hother => ?_⟩
  have hrejects : rejects s'.handler c = true := by
    rw [← hcam] at hknown hother
    simp [rejects, hset, hknown, hother]
  have hhandled : Handlers.handleMessage cb accepts ids s'.handler message =
      .ok (s'.handler, [done ids.2.1 c .cmError]) := by
    rw [Handlers.handleMessage, hc]
    simp [handleCommand, hrejects, done, sendCommand_toJson]
  have hnone : admitted s'.handler ids.1 message = none := by simp [admitted, hc, hrejects]
  simp [handleMessage, hhandled, hnone]

/-- A session before its first connection. -/
def fresh : Session where
  handler :=
    { waiting with
      config := { waiting.config with camId := 0, sid := "" }, registered := false, helloReceived := false
      commands := .empty }
  transport := .empty
  reconnectTimer := none
  autoReconnect := true
  protocol := "wss://"
  port := 8883
  serverAddress := "cam.example"
  regToken := "token"
  agentVersion := "0"
  deviceVendor := "noname"
  profileSid := ""
  attempts := []
  sids := []
  sent := []

def receives (message : Json) : Event := .message refusing (fun _ => true) (2, 3, 4) message

/-- The camera registers, is told of another server and sent there. -/
def redirected : List Event :=
  [.connected 1 "UTC" true true,
    receives (.obj [("cmd", .str "hello"), ("msgid", .int 7), ("sid", .str "s1")]),
    receives (.obj [("cmd", .str "cam_hello"), ("msgid", .int 8), ("cam_id", .int 5)]),
    receives (.obj [("cmd", .str "configure"), ("msgid", .int 9), ("server", .str "other.example")]),
    receives (.obj [("cmd", .str "bye"), ("msgid", .int 10), ("reason", .str "RECONNECT"), ("retry", .int 1)]),
    .disconnected, .fireReconnectTimer 0]

/-- A camera with the id 5 is greeted with another id on the next connection. -/
theorem camId_fixed_other :
    ∃ u, exec Session.step { fresh with handler.config.camId := 5 } [.error, .connected 1 "UTC" true true,
        receives (.obj [("cmd", .str "cam_hello"), ("msgid", .int 8), ("cam_id", .int 9)])] = some u ∧
      u.handler.config.camId = 5 := by
  have hrun : (exec Session.step { fresh with handler.config.camId := 5 } [.error, .connected 1 "UTC" true true,
      receives (.obj [("cmd", .str "cam_hello"), ("msgid", .int 8), ("cam_id", .int 9)])]).isSome = true := by
    decide +kernel
  obtain ⟨u, hu⟩ := Option.isSome_iff_exists.mp hrun
  exact ⟨u, hu, (camId_fixed hu (by decide)).1⟩

/-! ### The session id -/

/-- The session id that the cloud gave last, or the one that the profile had before. -/
def lastSid (initial : String) (s : Session) : String := s.sids.getLast?.getD initial

/-- The configuration and the profile have the last session id; at first the configuration has none. -/
structure Resumes (initial : String) (s : Session) : Prop where
  profile : s.profileSid = s.lastSid initial
  config : s.handler.config.sid = if s.sids = [] then "" else s.lastSid initial

theorem Resumes.prevSid {initial : String} (h : s.Resumes initial) :
    s.prevSid = if s.lastSid initial = "" then unsetString else s.lastSid initial := by
  rw [Session.prevSid, h.profile, h.config]
  by_cases hs : s.sids = [] <;> by_cases hl : s.lastSid initial = "" <;> simp [hs, hl]

end Session

theorem Effect.sid (he : Effect h c h' t p) :
    h'.config.sid = (Session.sidOf t p).getD h.config.sid := by
  cases t with
  | hello =>
    obtain ⟨_, rfl⟩ := he
    exact ifSet_eq_getD _ _
  | configure =>
    obtain ⟨_, -, rfl⟩ := he
    rfl
  | camHello | bye =>
    obtain rfl : h' = _ := he
    rfl
  | _ =>
    obtain rfl : h' = h := he
    rfl

namespace Session
variable {s s' : Session} {e : Event} {initial : String}

theorem Resumes.frame (h : s.Resumes initial) (hsids : s'.sids = s.sids) (hprofile : s'.profileSid = s.profileSid)
    (hsid : s'.handler.config.sid = s.handler.config.sid) : s'.Resumes initial where
  profile := by rw [hprofile, h.profile, lastSid, lastSid, hsids]
  config := by rw [hsid, h.config, lastSid, lastSid, hsids]

theorem Resumes.onClosed (h : s.Resumes initial) (reason : ByeReason) : (s.onClosed reason).Resumes initial := by
  obtain ⟨_, _, hframe⟩ := s.onClosed_frame reason
  rw [hframe]
  exact h.frame rfl rfl rfl

theorem Resumes.reset (h : s.Resumes initial) : s.reset.Resumes initial := by
  obtain ⟨_, _, hframe⟩ := s.reset_frame
  rw [hframe]
  exact h.frame rfl rfl rfl

theorem Resumes.step (h : s.Resumes initial) (hs : s.step e = some s') : s'.Resumes initial := by
  cases e with
  | connected id timezone secure accepted =>
    obtain rfl := Option.some.inj hs
    exact h.reset.frame rfl rfl rfl
  | disconnected | error =>
    obtain rfl := Option.some.inj hs
    exact h.reset.onClosed _
  | fireReconnectTimer t =>
    obtain ⟨r, -, rfl⟩ := Option.map_eq_some_iff.mp hs
    exact h.frame rfl rfl rfl
  | message cb accepts ids message =>
    obtain ⟨handler, sent, hm, rfl⟩ := step_message hs
    rcases handleMessage_effect hm with ⟨hnone, rfl⟩ | ⟨c, commands, hc, -, he⟩
    · exact h.frame (by simp [hnone]) (by simp [hnone]) rfl
    · have hsid := he.sid
      cases hstored : sidOf c.type c.payload with
      | none => exact h.frame (by simp [hc, hstored]) (by simp [hc, hstored]) (by simpa [hstored] using hsid)
      | some sid =>
        simp only [hstored, Option.getD_some] at hsid
        exact ⟨by simp [hc, hstored, lastSid], by simp [hc, hstored, lastSid, hsid]⟩

theorem at?_registerJson_prevSid (s : Session) (id : Int32) (secure : Bool) :
    (s.registerJson id secure).at? "prev_sid" =
      if s.prevSid = unsetString then none else some (.str s.prevSid) := by
  -- the members behind `prev_sid` do not touch it, and those before are others
  refine ((many "media_protocols" text).part.frame _ _ _ (by decide)).trans ?_
  refine ((str "reg_token").part.frame _ _ _ (by decide)).trans ?_
  refine (at?_write_str "prev_sid" _ s.prevSid _ "prev_sid").trans ?_
  by_cases hp : s.prevSid = unsetString
  · rw [if_neg (by simp [hp]), if_pos hp]
    refine ((str "pwd").part.frame _ _ _ (by decide)).trans ?_
    refine ((str "vendor").part.frame _ _ _ (by decide)).trans ?_
    refine ((str "tz").part.frame _ _ _ (by decide)).trans ?_
    refine ((str "ver").part.frame _ _ _ (by decide)).trans ?_
    exact ((base .registerCmd 0).part.frame _ _ _ (by decide)).trans rfl
  · rw [if_pos ⟨rfl, hp⟩, if_neg hp]

theorem Resumes.at?_registerJson (h : s.Resumes initial) (id : Int32) (secure : Bool) :
    (s.registerJson id secure).at? "prev_sid" =
      if s.lastSid initial = "" ∨ s.lastSid initial = unsetString then none else some (.str (s.lastSid initial)) := by
  rw [at?_registerJson_prevSid, h.prevSid]
  by_cases hs : s.lastSid initial = "" <;> simp [hs]

theorem Resumes.doRegister (h : s.Resumes initial) (id : Int32) (timezone : String) (secure accepted : Bool) :
    ∃ register, (s.doRegister id timezone secure accepted).sent = s.sent ++ [(register, accepted)] ∧
      register.at? "cmd" = some (.str "register") ∧
      register.at? "prev_sid" =
        if s.lastSid initial = "" ∨ s.lastSid initial = unsetString then none else some (.str (s.lastSid initial)) :=
  have h' : Resumes initial { s with handler.config.timezone := timezone } := h.frame rfl rfl rfl
  ⟨_, rfl, Command.at?_toJson_cmd _, h'.at?_registerJson id secure⟩

/-- On every connection the camera asks to go on with the session that the cloud named last, over whatever
connections, messages and failures there were; the very first time with the one that the profile kept. -/
theorem register_resumes {es : List Event} (he : exec Session.step s es = some s') (h0 : s.sids = [])
    (hsid : s.handler.config.sid = "") (id : Int32) (timezone : String) (secure accepted : Bool) :
    ∃ u register, s'.step (.connected id timezone secure accepted) = some u ∧ u.sent = [(register, accepted)] ∧
      register.at? "cmd" = some (.str "register") ∧
      register.at? "prev_sid" =
        let sid := s'.sids.getLast?.getD s.profileSid
        if sid = "" ∨ sid = unsetString then none else some (.str sid) := by
  have h : s'.Resumes s.profileSid :=
    run_invariant (fun _ _ _ hu hs => hu.step hs) ⟨by simp [lastSid, h0], by simp [h0, hsid]⟩ he
  obtain ⟨_, _, hframe⟩ := s'.reset_frame
  have hreset : Resumes s.profileSid { s'.reset with handler.byeReason := .invalid } := h.reset.frame rfl rfl rfl
  obtain ⟨register, hsent, hcmd, hprev⟩ := hreset.doRegister id timezone secure accepted
  refine ⟨_, register, rfl, hsent.trans ?_, hcmd, hprev.trans ?_⟩
  · simp [hframe]
  · simp [hframe, lastSid]

theorem register_resumes_redirected :
    ∃ u v register, exec Session.step fresh redirected = some u ∧ u.step (.connected 11 "UTC" true true) = some v ∧
      v.sent = [(register, true)] ∧ register.at? "prev_sid" = some (.str "s1") := by
  have hrun : (exec Session.step fresh redirected).map (·.sids) = some ["s1"] := by decide +kernel
  obtain ⟨u, hu, hsids⟩ := Option.map_eq_some_iff.mp hrun
  obtain ⟨v, register, hv, hsent, -, hprev⟩ := register_resumes hu rfl rfl 11 "UTC" true true
  refine ⟨u, v, register, hu, hv, hsent, hprev.trans ?_⟩
  rw [hsids]
  exact if_neg (by decide +kernel)

/-! ### The server -/

/-- The server that a message of this type stores. -/
def serverOf : (t : CommandType) → t.payload.Value → Option String
  | .configure, (_, _, _, _, server, _) => setText server
  | _, _ => none

/-- The server that the event stores. -/
def storedServer (s : Session) : Event → Option String
  | .message _ _ ids message => (admitted s.handler ids.1 message).bind fun c => serverOf c.type c.payload
  | .connected .. | .disconnected | .error | .fireReconnectTimer _ => none

/-- The event is not a closure that leads back to the main server. -/
def KeepsServer (s : Session) (e : Event) : Prop := ∀ reason ∈ s.closed e, s.fallsBack reason = false

end Session

theorem Effect.server (he : Effect h c h' t p) :
    h'.config.reconnectServerAddress = h.config.reconnectServerAddress ∨
      Session.serverOf t p = some h'.config.reconnectServerAddress := by
  cases t with
  | hello =>
    obtain ⟨_, rfl⟩ := he
    exact .inl rfl
  | configure =>
    obtain ⟨address, haddress, rfl⟩ := he
    exact haddress.imp_right Eq.symm
  | camHello | bye =>
    obtain rfl : h' = _ := he
    exact .inl rfl
  | _ =>
    obtain rfl : h' = h := he
    exact .inl rfl

namespace Session
variable {s s' u : Session} {e : Event}

/-- A step keeps the main server, and it leaves the address as it is, forgets it or stores a new one. -/
theorem step_server (hs : s.step e = some s') :
    s'.serverAddress = s.serverAddress ∧
      (s'.handler.config.reconnectServerAddress = "" ∨
        s'.handler.config.reconnectServerAddress = s.handler.config.reconnectServerAddress ∧ s.KeepsServer e ∨
        s.storedServer e = some s'.handler.config.reconnectServerAddress) := by
  have hclosure : ∀ reason, s.closed e = some reason → s' = s.reset.onClosed reason →
      s'.serverAddress = s.serverAddress ∧
        (s'.handler.config.reconnectServerAddress = "" ∨
          s'.handler.config.reconnectServerAddress = s.handler.config.reconnectServerAddress ∧ s.KeepsServer e) := by
    rintro reason hreason rfl
    obtain ⟨_, _, hframe⟩ := s.reset_frame
    obtain ⟨_, _, hclosed⟩ := s.reset.onClosed_frame reason
    rw [hclosed, hframe]
    refine ⟨rfl, ?_⟩
    cases hfalls : s.fallsBack reason with
    | true => exact .inl (if_pos hfalls)
    | false =>
      refine .inr ⟨if_neg (by simpa [fallsBack] using hfalls), fun reason' h' => ?_⟩
      obtain rfl : reason = reason' := Option.some.inj (hreason.symm.trans h')
      exact hfalls
  cases e with
  | connected id timezone secure accepted =>
    obtain rfl := Option.some.inj hs
    obtain ⟨_, _, hframe⟩ := s.reset_frame
    simp [onConnected, doRegister, hframe, KeepsServer, closed]
  | disconnected | error =>
    obtain ⟨hmain, haddress⟩ := hclosure _ rfl (Option.some.inj hs).symm
    exact ⟨hmain, haddress.imp_right .inl⟩
  | fireReconnectTimer t =>
    obtain ⟨r, -, rfl⟩ := Option.map_eq_some_iff.mp hs
    exact ⟨rfl, .inr (.inl ⟨rfl, by simp [KeepsServer, closed]⟩)⟩
  | message cb accepts ids message =>
    have hkeeps : s.KeepsServer (.message cb accepts ids message) := by simp [KeepsServer, closed]
    obtain ⟨handler, sent, hm, rfl⟩ := step_message hs
    rcases handleMessage_effect hm with ⟨-, rfl⟩ | ⟨c, commands, hc, -, he⟩
    · exact ⟨rfl, .inr (.inl ⟨rfl, hkeeps⟩)⟩
    · refine ⟨rfl, .inr (he.server.imp (fun h => ⟨h, hkeeps⟩) fun h => ?_)⟩
      simp [storedServer, hc, h]

/-- The address was stored by an event of the run, and no closure since then led back to the main server. -/
def Named (s : Session) (es : List Event) (address : String) : Prop :=
  ∃ pre e post v v', es = pre ++ e :: post ∧ exec Session.step s pre = some v ∧ v.step e = some v' ∧
    v.storedServer e = some address ∧ Meets Session.step KeepsServer v' post

/-- The agent only ever connects to its own server, or to one that the cloud named in a `configure` since
which every closure was one that the cloud had asked to reconnect after, or a failed authentication. -/
theorem server_named {es : List Event} (he : exec Session.step s es = some u)
    (h0 : s.handler.config.reconnectServerAddress = "") :
    u.server = s.serverAddress ∨ s.Named es u.server := by
  have hrun : exec Session.step s es = some u ∧ u.serverAddress = s.serverAddress ∧
      (u.handler.config.reconnectServerAddress ≠ "" →
        s.Named es u.handler.config.reconnectServerAddress) := by
    have hall : Meets Session.step (fun _ _ => True) s es := Meets.of_forall_mem fun _ _ _ => trivial
    refine run_history
      (P := fun es u => exec Session.step s es = some u ∧ u.serverAddress = s.serverAddress ∧
        (u.handler.config.reconnectServerAddress ≠ "" → s.Named es u.handler.config.reconnectServerAddress))
      ?_ ⟨rfl, rfl, fun h => absurd h0 h⟩ hall he
    rintro bs v b w ⟨hv, hmain, hnamed⟩ - hs
    obtain ⟨hmain', haddress⟩ := step_server hs
    have hw : exec Session.step s (bs ++ [b]) = some w := by
      rw [exec_append, hv, Option.bind_some, exec_cons, hs, Option.bind_some, exec_nil]
    refine ⟨hw, hmain'.trans hmain, fun hne => ?_⟩
    obtain hnone | ⟨hsame, hkeeps⟩ | hstored := haddress
    · exact absurd hnone hne
    · rw [hsame] at hne ⊢
      obtain ⟨pre, e, post, x, x', rfl, hpre, hx, hstored, hmeets⟩ := hnamed hne
      have hpost : exec Session.step x' post = some v := by
        rwa [exec_append, hpre, Option.bind_some, exec_cons, hx, Option.bind_some] at hv
      refine ⟨pre, e, post ++ [b], x, x', by simp, hpre, hx, hstored, ?_⟩
      exact (meets_append hpost).mpr ⟨hmeets, hkeeps, fun _ _ => trivial⟩
    · exact ⟨bs, b, [], v, w, rfl, hv, hs, hstored, trivial⟩
  obtain ⟨-, hmain, hnamed⟩ := hrun
  by_cases hne : u.handler.config.reconnectServerAddress = ""
  · exact .inl ((if_pos hne).trans hmain)
  · have hserver : u.server = u.handler.config.reconnectServerAddress := if_neg hne
    exact .inr (hserver ▸ hnamed hne)

theorem server_named_redirected :
    ∃ u, exec Session.step fresh redirected = some u ∧ u.attempts.map (·.1) = ["other.example"] ∧
      fresh.Named redirected "other.example" := by
  have hrun : (exec Session.step fresh redirected).map (fun u => (u.attempts.map (·.1), u.server)) =
      some (["other.example"], "other.example") := by decide +kernel
  obtain ⟨u, hu, hvalues⟩ := Option.map_eq_some_iff.mp hrun
  obtain ⟨hattempts, hserver⟩ := Prod.mk.inj hvalues
  refine ⟨u, hu, hattempts, hserver ▸ (server_named hu rfl).resolve_left ?_⟩
  rw [hserver]
  decide

end Session
end CloudAgent.Proto.Handlers
