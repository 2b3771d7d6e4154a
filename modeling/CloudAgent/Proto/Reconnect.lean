import CloudAgent.Lib.Transition
import CloudAgent.Net.LwsCommon
import CloudAgent.Proto.Objects
import Mathlib.Algebra.Group.Nat.Defs
import Mathlib.Logic.ExistsUnique

/-! Reconnection after a closure. The transport reports a closure through either of two callbacks, or
both, and each of them replaces the timer of the next connection attempt. -/
namespace CloudAgent.Proto
open Net Transition

/-- `bye`. -/
structure Bye where
  reason : ByeReason := .invalid
  retry : ℤ := unsetInt
  deriving DecidableEq, Repr

/-- The part of `command_handler` that keeps the connection. Every timer of the transport that is
modelled here runs `try_connect`; `attempts` counts its calls and `timeouts` records the delays that
were asked for. -/
structure Connection where
  transport : LwsCommon Unit
  reconnectTimer : Option ℕ
  byeReason : ByeReason
  byeRetry : ℤ
  autoReconnect : Bool
  attempts : ℕ
  timeouts : List ℕ

namespace Connection

/-- `_reset_reconnect_timer`. -/
def resetReconnectTimer (c : Connection) : Connection :=
  match c.reconnectTimer with
  | none => c
  | some t => { c with transport := c.transport.cancelTimedCb t, reconnectTimer := none }

/-- `try_connect`. -/
def tryConnect (c : Connection) : Connection := { c with attempts := c.attempts + 1 }

/-- `reconnect`. The delay is an `int` that is passed as a `size_t`. -/
def reconnect (c : Connection) (retryTimeout : ℤ) : Connection :=
  match c.reconnectTimer with
  | some _ => c
  | none =>
    let ms := (retryTimeout % 2 ^ 64).toNat
    let (t, transport) := c.transport.scheduleTimedCb () ms
    { c with transport, reconnectTimer := some t, timeouts := c.timeouts ++ [ms] }

/-- The delay that `on_closed` computes in an `int`. -/
def retryTimeout (c : Connection) (reason : ByeReason) : ℤ :=
  let timeout := if reason = .reconnect then Int.bmod (c.byeRetry * 1000) (2 ^ 32) else 5000
  if timeout = 0 then 5000 else timeout

/-- The end of `manager::on_closed`: no new attempt after an authentication failure. -/
def onClosed (c : Connection) (reason : ByeReason) : Connection :=
  if reason ≠ .authFailure && (reason = .reconnect || c.autoReconnect) then
    c.reconnect (c.retryTimeout reason)
  else c

def onConnected (c : Connection) : Connection := { c with byeReason := .invalid }.resetReconnectTimer

def onError (c : Connection) : Connection := c.resetReconnectTimer.onClosed .connClose

/-- The reason that `on_disconnected` reports: that of the last bye since the connection was made. -/
def closedReason (c : Connection) : ByeReason :=
  if c.byeReason ≠ .invalid then c.byeReason else .connClose

def onDisconnected (c : Connection) : Connection := c.resetReconnectTimer.onClosed c.closedReason

/-- `handle_bye`. There is no unset reason, a missing one is `BR_INVALID`. -/
def handleBye (c : Connection) (bye : Bye) : Connection :=
  { c with byeReason := bye.reason, byeRetry := if bye.retry = unsetInt then 0 else bye.retry }

/-- The connection once the manager is started. -/
def start : Connection where
  transport := .empty
  reconnectTimer := none
  byeReason := .invalid
  byeRetry := 0
  autoReconnect := true
  attempts := 1
  timeouts := []

inductive Action
  | connected
  | bye (bye : Bye)
  | disconnected
  | error
  | fireReconnectTimer (t : ℕ)
  deriving DecidableEq

def step (c : Connection) : Action → Option Connection
  | .connected => some c.onConnected
  | .bye bye => some (c.handleBye bye)
  | .disconnected => some c.onDisconnected
  | .error => some c.onError
  | .fireReconnectTimer t =>
    (c.transport.sulCb t).map fun (_, transport) => { c with transport }.tryConnect

/-- The reason that a callback of the transport reports to `on_closed`. -/
def reported (c : Connection) : Action → Option ByeReason
  | .disconnected => some c.closedReason
  | .error => some .connClose
  | .connected | .bye _ | .fireReconnectTimer _ => none

/-! ### One timer -/

/-- A pending timer is the one that `reconnect_timer_` points to. -/
structure Disciplined (c : Connection) : Prop where
  stored : ∀ t u, c.transport.Pending t u → c.reconnectTimer = some t
  auto : c.autoReconnect = true

variable {c d : Connection} {t : ℕ}

theorem start_disciplined : start.Disciplined := by constructor <;> simp [start]

@[simp] theorem reconnectTimer_resetReconnectTimer (c : Connection) :
    c.resetReconnectTimer.reconnectTimer = none := by
  unfold resetReconnectTimer
  split
  · assumption
  · rfl

@[simp] theorem autoReconnect_resetReconnectTimer (c : Connection) :
    c.resetReconnectTimer.autoReconnect = c.autoReconnect := by
  unfold resetReconnectTimer
  split <;> rfl

/-- After a reset nothing is pending, whether or not the stored timer had fired. -/
theorem Disciplined.not_pending_reset (h : c.Disciplined) (t : ℕ) (u : Unit) :
    ¬ c.resetReconnectTimer.transport.Pending t u := by
  intro hp
  unfold resetReconnectTimer at hp
  split at hp
  · rename_i hnone
    exact absurd (h.stored t u hp) (by simp [hnone])
  · rename_i t' hsome
    obtain ⟨hne, hp⟩ := (LwsCommon.pending_cancelTimedCb _ _ _ _).mp hp
    exact hne (Option.some.inj ((h.stored t u hp).symm.trans hsome))

theorem Disciplined.resetReconnectTimer (h : c.Disciplined) : c.resetReconnectTimer.Disciplined where
  stored t u hp := absurd hp (h.not_pending_reset t u)
  auto := by simp [h.auto]

/-- Where no timer is stored, `reconnect` schedules one and stores it. -/
theorem pending_reconnect (hnone : c.reconnectTimer = none) (ms : ℤ) (t : ℕ) (u : Unit) :
    (c.reconnect ms).transport.Pending t u ↔ c.transport.Pending t u ∨ t = c.transport.nextId := by
  simp [reconnect, hnone, LwsCommon.pending_scheduleTimedCb]

theorem reconnectTimer_reconnect (hnone : c.reconnectTimer = none) (ms : ℤ) :
    (c.reconnect ms).reconnectTimer = some c.transport.nextId := by
  simp [reconnect, hnone, LwsCommon.scheduleTimedCb]

@[simp] theorem autoReconnect_reconnect (c : Connection) (ms : ℤ) :
    (c.reconnect ms).autoReconnect = c.autoReconnect := by
  unfold reconnect
  split <;> rfl

/-- A closure of the connection schedules one attempt, or none after an authentication failure. -/
theorem Disciplined.pending_onClosed (h : c.Disciplined) (reason : ByeReason) (t : ℕ) (u : Unit) :
    (c.resetReconnectTimer.onClosed reason).transport.Pending t u ↔
      reason ≠ .authFailure ∧ t = c.resetReconnectTimer.transport.nextId := by
  by_cases ha : reason = .authFailure
  · simp [onClosed, ha, h.not_pending_reset]
  · simp [onClosed, ha, h.auto, pending_reconnect, h.not_pending_reset]

theorem Disciplined.onClosed (h : c.Disciplined) (reason : ByeReason) :
    (c.resetReconnectTimer.onClosed reason).Disciplined where
  stored t u hp := by
    obtain ⟨ha, rfl⟩ := (h.pending_onClosed reason t u).mp hp
    simp [Connection.onClosed, ha, h.auto, reconnectTimer_reconnect]
  auto := by
    have hauto : c.resetReconnectTimer.autoReconnect = true := h.resetReconnectTimer.auto
    unfold Connection.onClosed
    split
    · rw [autoReconnect_reconnect, hauto]
    · exact hauto

theorem Disciplined.onConnected (h : c.Disciplined) : c.onConnected.Disciplined :=
  Disciplined.resetReconnectTimer ⟨h.stored, h.auto⟩

theorem Disciplined.step (h : c.Disciplined) {a : Action} (hs : c.step a = some d) : d.Disciplined := by
  cases a with
  | connected =>
    obtain rfl := Option.some.inj hs
    exact h.onConnected
  | bye bye =>
    obtain rfl := Option.some.inj hs
    exact ⟨h.stored, h.auto⟩
  | disconnected =>
    obtain rfl := Option.some.inj hs
    exact h.onClosed c.closedReason
  | error =>
    obtain rfl := Option.some.inj hs
    exact h.onClosed .connClose
  | fireReconnectTimer t =>
    obtain ⟨⟨u, transport⟩, hf, rfl⟩ := Option.map_eq_some_iff.mp hs
    obtain ⟨-, -, hrest⟩ := LwsCommon.sulCb_eq_some hf
    exact ⟨fun j v hp => h.stored j v ((hrest j v).mp hp).2, h.auto⟩

theorem Disciplined.of_exec {as : List Action} (h : c.Disciplined)
    (he : exec Connection.step c as = some d) :
    d.Disciplined :=
  run_invariant (fun _ _ _ hu hs => hu.step hs) h he

/-- A started manager has at most one reconnect timer pending, none right after `on_connected`, and
exactly one right after a closure that is not reported as an authentication failure. -/
theorem reconnect_timer_discipline {as : List Action} (he : exec step start as = some c) :
    (∀ i j, c.transport.Pending i () → c.transport.Pending j () → i = j) ∧
      (∀ d, c.step .connected = some d → ∀ i, ¬ d.transport.Pending i ()) ∧
        ∀ a reason, c.reported a = some reason → reason ≠ .authFailure →
          ∀ d, c.step a = some d → ∃! i, d.transport.Pending i () := by
  have h : c.Disciplined := start_disciplined.of_exec he
  have hclosed : ∀ reason, reason ≠ .authFailure →
      ∃! i, (c.resetReconnectTimer.onClosed reason).transport.Pending i () := by
    intro reason hr
    refine ⟨_, (h.pending_onClosed reason _ ()).mpr ⟨hr, rfl⟩, fun j hj => ?_⟩
    exact ((h.pending_onClosed reason j ()).mp hj).2
  refine ⟨fun i j hi hj => ?_, fun d hd i => ?_, fun a reason hrep hr d hd => ?_⟩
  · exact Option.some.inj ((h.stored i () hi).symm.trans (h.stored j () hj))
  · obtain rfl := Option.some.inj hd
    exact Disciplined.not_pending_reset (c := { c with byeReason := .invalid }) ⟨h.stored, h.auto⟩ i ()
  · cases a with
    | disconnected =>
      obtain rfl := Option.some.inj hrep
      obtain rfl := Option.some.inj hd
      exact hclosed _ hr
    | error =>
      obtain rfl := Option.some.inj hrep
      obtain rfl := Option.some.inj hd
      exact hclosed _ hr
    | connected | bye | fireReconnectTimer => cases hrep

/-- A failed connection is reported twice, and the attempt that follows a redirection fails again. -/
theorem reconnect_timer_discipline_example :
    ∃ c, exec step start [.error, .disconnected, .connected, .bye ⟨.reconnect, 3⟩, .disconnected,
        .fireReconnectTimer 2, .error] = some c ∧
      (∀ i j, c.transport.Pending i () → c.transport.Pending j () → i = j) ∧
        ∃ d, c.step .disconnected = some d ∧ ∃! i, d.transport.Pending i () := by
  have hrun : ∃ c ∈ exec step start [.error, .disconnected, .connected, .bye ⟨.reconnect, 3⟩,
      .disconnected, .fireReconnectTimer 2, .error], c.closedReason ≠ .authFailure := by decide +kernel
  obtain ⟨c, he, hr⟩ := hrun
  obtain ⟨hone, -, hclosed⟩ := reconnect_timer_discipline he
  exact ⟨c, he, hone, _, rfl, hclosed .disconnected _ rfl hr _ rfl⟩

end Connection
end CloudAgent.Proto
