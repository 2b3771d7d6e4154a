import CloudAgent.Proto.Reconnect
import CloudAgent.Proto.Registration

/-! The session refines the connection: what holds of the reconnection of every run of the small model
holds of the command handler, whatever messages it handles. -/
namespace CloudAgent.Proto.Handlers
open Net Transition

namespace Session
variable {s s' : Session} {e : Event}

/-- The connection of a session; `attempts` and `timeouts` is what it did before. -/
def connection (s : Session) (attempts : ℕ) (timeouts : List ℕ) : Connection where
  transport := s.transport
  reconnectTimer := s.reconnectTimer
  byeReason := s.handler.byeReason
  byeRetry := s.handler.byeRetry
  autoReconnect := s.autoReconnect
  attempts := attempts + s.attempts.length
  timeouts := timeouts

variable (n : ℕ) (ts : List ℕ)

theorem connection_reset (s : Session) : s.reset.connection n ts = (s.connection n ts).resetReconnectTimer := by
  cases ht : s.reconnectTimer with
  | none => simp [reset, resetReconnectTimer, connection, Connection.resetReconnectTimer, ht]
  | some t => simp [reset, resetReconnectTimer, connection, Connection.resetReconnectTimer, ht]

theorem closedReason_connection (s : Session) : (s.connection n ts).closedReason = s.closedReason := rfl

theorem retryTimeout_connection (s : Session) (reason : ByeReason) :
    ((s.connection n ts).retryTimeout reason % 2 ^ 64).toNat = s.timeout reason := rfl

theorem connection_onClosed (s : Session) (reason : ByeReason) :
    ∃ ts', (s.connection n ts).onClosed reason = (s.onClosed reason).connection n ts' := by
  have hauto : (s.connection n ts).autoReconnect = s.autoReconnect := rfl
  unfold onClosed Connection.onClosed
  rw [hauto]
  by_cases hc : (reason ≠ .authFailure && (reason = .reconnect || s.autoReconnect)) = true
  · rw [if_pos hc, if_pos hc, Connection.reconnect, reconnect, retryTimeout_connection]
    cases ht : s.reconnectTimer with
    | none => exact ⟨ts ++ [s.timeout reason], by simp [connection, ht]⟩
    | some t => exact ⟨ts, by simp [connection, ht]⟩
  · rw [if_neg hc, if_neg hc]
    exact ⟨ts, rfl⟩

end Session

theorem toInt_eq_unsetInt {n : Int32} : n.toInt = unsetInt ↔ n = Wire.unsetInt32 := by
  have hunset : Wire.unsetInt32.toInt = unsetInt := by decide
  rw [← hunset, Int32.toInt_inj]

theorem toInt_ifSetInt (retry : Int32) :
    (ifSetInt retry 0).toInt = if retry.toInt = unsetInt then 0 else retry.toInt := by
  by_cases hr : retry = Wire.unsetInt32
  · rw [if_pos (toInt_eq_unsetInt.mpr hr), ifSetInt, if_pos hr, Int32.toInt_zero]
  · rw [if_neg fun h => hr (toInt_eq_unsetInt.mp h), ifSetInt, if_neg hr]

/-- A message leaves the reason of the last bye, or is a bye. -/
theorem Effect.bye {h h' : Handler} {c : Wire.Command} {t : Wire.CommandType} {p : t.payload.Value}
    (he : Effect h c h' t p) :
    (h'.byeReason = h.byeReason ∧ h'.byeRetry = h.byeRetry) ∨
      ∃ bye : Bye, h'.byeReason = bye.reason ∧
        h'.byeRetry = if bye.retry = unsetInt then 0 else bye.retry := by
  cases t with
  | hello =>
    obtain ⟨_, rfl⟩ := he
    exact .inl ⟨rfl, rfl⟩
  | configure =>
    obtain ⟨_, -, rfl⟩ := he
    exact .inl ⟨rfl, rfl⟩
  | camHello =>
    obtain rfl : h' = _ := he
    exact .inl ⟨rfl, rfl⟩
  | bye =>
    obtain ⟨reason, retry, _⟩ := p
    obtain rfl : h' = _ := he
    refine .inr ⟨⟨reason, retry.toInt⟩, rfl, ?_⟩
    exact toInt_ifSetInt retry
  | _ =>
    obtain rfl : h' = h := he
    exact .inl ⟨rfl, rfl⟩

namespace Session
variable {s s' : Session} {e : Event}

/-- Every step of the session is a step of its connection, or none. -/
theorem step_refines (hs : s.step e = some s') (n : ℕ) (ts : List ℕ) :
    ∃ as ts', exec Connection.step (s.connection n ts) as = some (s'.connection n ts') := by
  cases e with
  | connected id timezone secure accepted =>
    obtain rfl := Option.some.inj hs
    refine ⟨[.connected], ts, ?_⟩
    cases ht : s.reconnectTimer <;>
      simp [exec, Connection.step, Connection.onConnected, Connection.resetReconnectTimer, connection, onConnected,
        doRegister, reset, resetReconnectTimer, ht]
  | disconnected =>
    obtain rfl := Option.some.inj hs
    obtain ⟨ts', hclosed⟩ := connection_onClosed n ts s.reset s.closedReason
    rw [← closedReason_connection n ts, connection_reset] at hclosed
    exact ⟨[.disconnected], ts', congrArg some hclosed⟩
  | error =>
    obtain rfl := Option.some.inj hs
    obtain ⟨ts', hclosed⟩ := connection_onClosed n ts s.reset .connClose
    rw [connection_reset] at hclosed
    exact ⟨[.error], ts', congrArg some hclosed⟩
  | fireReconnectTimer t =>
    obtain ⟨⟨u, transport⟩, hfire, rfl⟩ := Option.map_eq_some_iff.mp hs
    refine ⟨[.fireReconnectTimer t], ts, ?_⟩
    simp [exec, Connection.step, hfire, Connection.tryConnect, tryConnect, connection, Nat.add_assoc]
  | message cb accepts ids message =>
    obtain ⟨handler, sent, hm, rfl⟩ := step_message hs
    rcases handleMessage_effect hm with ⟨-, rfl⟩ | ⟨c, commands, -, -, he⟩
    · exact ⟨[], ts, rfl⟩
    · obtain ⟨hreason, hretry⟩ | ⟨bye, hreason, hretry⟩ := he.bye
      · exact ⟨[], ts, by simp [connection, hreason, hretry]⟩
      · refine ⟨[.bye bye], ts, ?_⟩
        simp [exec, Connection.step, Connection.handleBye, connection, hreason, hretry]

theorem exec_refines {es : List Event} (he : exec Session.step s es = some s') (n : ℕ) (ts : List ℕ) :
    ∃ as ts', exec Connection.step (s.connection n ts) as = some (s'.connection n ts') := by
  induction es generalizing s ts with
  | nil =>
    obtain rfl : s = s' := by simpa using he
    exact ⟨[], ts, rfl⟩
  | cons e es ih =>
    obtain ⟨u, hu, he⟩ := exec_cons_eq_some.mp he
    obtain ⟨as, ts', has⟩ := step_refines hu n ts
    obtain ⟨bs, ts'', hbs⟩ := ih he ts'
    exact ⟨as ++ bs, ts'', by rw [exec_append, has, Option.bind_some, hbs]⟩

/-- Whatever messages it handles, a session does to its connection what a run of the small model does: it has at
most one reconnect timer, and exactly one right after a closure that is no authentication failure. -/
theorem session_reconnects {es : List Event} (he : exec Session.step s es = some s')
    (h0 : s.connection 1 [] = Connection.start) :
    (∃ as ts, exec Connection.step Connection.start as = some (s'.connection 1 ts)) ∧
      (∀ i j, s'.transport.Pending i () → s'.transport.Pending j () → i = j) ∧
        ∀ e reason, s'.closed e = some reason → reason ≠ .authFailure →
          ∃ v, s'.step e = some v ∧ ∃! i, v.transport.Pending i () := by
  obtain ⟨as, ts, has⟩ := exec_refines he 1 []
  rw [h0] at has
  have hd : (s'.connection 1 ts).Disciplined := Connection.start_disciplined.of_exec has
  refine ⟨⟨as, ts, has⟩, fun i j hi hj => ?_, fun e reason hreason hauth => ⟨_, step_closed hreason, ?_⟩⟩
  · exact Option.some.inj ((hd.stored i () hi).symm.trans (hd.stored j () hj))
  · obtain ⟨ts', hclosed⟩ := connection_onClosed 1 ts s'.reset reason
    rw [connection_reset] at hclosed
    have hpending := hd.pending_onClosed reason
    rw [hclosed] at hpending
    refine ⟨_, (hpending _ ()).mpr ⟨hauth, rfl⟩, fun j hj => ((hpending j ()).mp hj).2⟩

theorem session_reconnects_fresh :
    ∃ u, exec Session.step fresh redirected = some u ∧
      ∃ v, u.step .error = some v ∧ ∃! i, v.transport.Pending i () := by
  have hrun : (exec Session.step fresh redirected).isSome = true := by decide +kernel
  obtain ⟨u, hu⟩ := Option.isSome_iff_exists.mp hrun
  exact ⟨u, hu, (session_reconnects hu rfl).2.2 .error .connClose rfl (by decide)⟩

end Session
end CloudAgent.Proto.Handlers
