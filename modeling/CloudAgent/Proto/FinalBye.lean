import CloudAgent.Proto.Reconnect

/-! What the final reasons of a bye do to reconnection. The reason is kept until the next connection is
made, but only a closure that `on_disconnected` reports is told about it. -/
namespace CloudAgent.Proto
open Net Transition

/-- The reasons after which the camera has to stop all attempts to connect. -/
def ByeReason.final : ByeReason → Bool
  | .authFailure | .deleted => true
  | .error | .systemError | .invalidUser | .connConflict | .reconnect | .shutdown | .connClose
  | .invalid => false

/-- A connection, whether it has handled a final bye since it was started, and how many attempts there
had been when the first closure after it was reported. -/
structure ByeSession where
  connection : Connection
  finalBye : Bool
  closedAt : Option ℕ

namespace ByeSession
open Connection

def start : ByeSession := ⟨.start, false, none⟩

/-- Whether this is the report of a closure. -/
def closes : Connection.Action → Bool
  | .disconnected | .error => true
  | .connected | .bye _ | .fireReconnectTimer _ => false

/-- Whether this is a final bye. -/
def isFinalBye : Connection.Action → Bool
  | .bye bye => bye.reason.final
  | .connected | .disconnected | .error | .fireReconnectTimer _ => false

/-- A step of the connection, noted if it is a final bye or the first closure after one. -/
def step (u : ByeSession) (a : Connection.Action) : Option ByeSession :=
  (u.connection.step a).map fun connection =>
    { connection
      finalBye := u.finalBye || isFinalBye a
      closedAt :=
        if u.finalBye && closes a && u.closedAt.isNone then some u.connection.attempts else u.closedAt }

/-- Since the closure there was no attempt to connect, and none is due. -/
def Stopped (u : ByeSession) : Prop :=
  ∀ n, u.closedAt = some n → u.connection.attempts = n ∧ ∀ t, ¬ u.connection.transport.Pending t ()

/-- After a final bye, closures are reported by `on_disconnected` only, and only while the last bye of
the connection is an authentication failure. -/
def closedByAuthFailure (u : ByeSession) : Connection.Action → Bool
  | .disconnected => !u.finalBye || u.connection.byeReason = .authFailure
  | .error => !u.finalBye
  | .connected | .bye _ | .fireReconnectTimer _ => true

variable {u v : ByeSession} {a : Connection.Action}

/-! ### What a step does to the attempts -/

theorem attempts_resetReconnectTimer (c : Connection) : c.resetReconnectTimer.attempts = c.attempts := by
  unfold resetReconnectTimer
  split <;> rfl

theorem attempts_onClosed (c : Connection) (reason : ByeReason) :
    (c.onClosed reason).attempts = c.attempts := by
  unfold Connection.onClosed reconnect
  split
  · split <;> rfl
  · rfl

/-- What holds as long as closures are reported as they should be. -/
structure Quiet (u : ByeSession) : Prop where
  disciplined : u.connection.Disciplined
  closed : u.closedAt.isSome → u.finalBye = true
  stopped : u.Stopped

theorem quiet_start : start.Quiet := by
  refine ⟨start_disciplined, ?_, ?_⟩
  · simp [start]
  · simp [Stopped, start]

/-- A closure is followed by an attempt unless it is reported as an authentication failure. -/
theorem Quiet.stopped_close_iff (h : u.Quiet) (reason : ByeReason)
    (hv : v = ⟨u.connection.resetReconnectTimer.onClosed reason, u.finalBye,
      if u.finalBye && u.closedAt.isNone then some u.connection.attempts else u.closedAt⟩) :
    v.Stopped ↔ (u.finalBye = true → reason = .authFailure) := by
  subst hv
  have hattempts : (u.connection.resetReconnectTimer.onClosed reason).attempts = u.connection.attempts := by
    rw [attempts_onClosed, attempts_resetReconnectTimer]
  constructor
  · intro hs hfinal
    by_contra hne
    have hpending := (h.disciplined.pending_onClosed reason _ ()).mpr ⟨hne, rfl⟩
    cases hc : u.closedAt with
    | none => exact (hs u.connection.attempts (by simp [hfinal, hc])).2 _ hpending
    | some n => exact (hs n (by simp [hc])).2 _ hpending
  · intro hr n hn
    have hfinal : u.finalBye = true := by
      cases hf : u.finalBye with
      | true => rfl
      | false =>
        have hclosed : u.closedAt = some n := by simpa [hf] using hn
        rw [← hf]
        exact h.closed (by simp [hclosed])
    refine ⟨?_, fun t hp => ((h.disciplined.pending_onClosed reason t ()).mp hp).1 (hr hfinal)⟩
    rw [hattempts]
    cases hc : u.closedAt with
    | none => simpa [hfinal, hc] using hn
    | some m =>
      obtain rfl : m = n := by simpa [hc] using hn
      exact (h.stopped m hc).1

theorem closedReason_eq_authFailure (c : Connection) :
    c.closedReason = .authFailure ↔ c.byeReason = .authFailure := by
  unfold closedReason
  split <;> simp_all

/-- A step keeps the attempts stopped exactly if it reports no closure, or reports it as it should. -/
theorem Quiet.stopped_step_iff (h : u.Quiet) (hs : u.step a = some v) :
    v.Stopped ↔ closedByAuthFailure u a = true := by
  obtain ⟨c, hc, rfl⟩ := Option.map_eq_some_iff.mp hs
  cases a with
  | connected =>
    obtain rfl := Option.some.inj hc
    refine iff_of_true (fun n hn => ⟨?_, fun t => ?_⟩) rfl
    · have hn : u.closedAt = some n := by simpa [closes] using hn
      exact (attempts_resetReconnectTimer _).trans (h.stopped n hn).1
    · exact Disciplined.not_pending_reset (c := { u.connection with byeReason := .invalid })
        ⟨h.disciplined.stored, h.disciplined.auto⟩ t ()
  | bye bye =>
    obtain rfl := Option.some.inj hc
    refine iff_of_true (fun n hn => ?_) rfl
    have hn : u.closedAt = some n := by simpa [closes] using hn
    exact h.stopped n hn
  | disconnected =>
    obtain rfl := Option.some.inj hc
    rw [h.stopped_close_iff u.connection.closedReason (by simp [closes, isFinalBye, onDisconnected]),
      closedReason_eq_authFailure]
    cases hf : u.finalBye <;> simp [closedByAuthFailure, hf]
  | error =>
    obtain rfl := Option.some.inj hc
    rw [h.stopped_close_iff .connClose (by simp [closes, isFinalBye, onError])]
    cases hf : u.finalBye <;> simp [closedByAuthFailure, hf]
  | fireReconnectTimer t =>
    obtain ⟨⟨w, transport⟩, hf, rfl⟩ := Option.map_eq_some_iff.mp hc
    obtain ⟨hp, -⟩ := LwsCommon.sulCb_eq_some hf
    refine iff_of_true (fun n hn => ?_) rfl
    have hn : u.closedAt = some n := by simpa [closes] using hn
    exact absurd hp ((h.stopped n hn).2 t)

theorem Quiet.step (h : u.Quiet) (hok : closedByAuthFailure u a = true) (hs : u.step a = some v) :
    v.Quiet := by
  refine ⟨?_, ?_, (h.stopped_step_iff hs).mpr hok⟩
  · obtain ⟨c, hc, rfl⟩ := Option.map_eq_some_iff.mp hs
    exact h.disciplined.step hc
  · obtain ⟨c, -, rfl⟩ := Option.map_eq_some_iff.mp hs
    intro hsome
    cases hf : u.finalBye with
    | true => simp
    | false =>
      simp only [hf, Bool.false_and, Bool.false_eq_true, if_false] at hsome
      simp [h.closed hsome] at hf

/-- Once a closure is reported after a final bye no attempt to connect is made, and none is due, in
exactly those runs where every closure after a final bye is reported as an authentication failure. -/
theorem final_bye_stops_iff (as : List Connection.Action) (he : exec step start as = some u) :
    Throughout step Stopped start as ↔
      Meets step (fun w b => closedByAuthFailure w b = true) start as :=
  throughout_iff_meets (I := Quiet) (L := fun _ => True) (fun _ _ _ hw _ hok hs => hw.step hok hs)
    (fun _ hw => hw.stopped) (fun _ _ _ hw _ hok hs => fun hst => hok ((hw.stopped_step_iff hs).mp hst))
    quiet_start (fun _ _ => trivial) he

/-- An authentication failure that `on_disconnected` reports, twice. -/
theorem final_bye_stops_authFailure :
    ∃ u, exec step start [.error, .fireReconnectTimer 0, .connected, .bye ⟨.authFailure, unsetInt⟩,
        .disconnected, .disconnected] = some u ∧ u.closedAt = some 2 ∧
      Throughout step Stopped start [.error, .fireReconnectTimer 0, .connected,
        .bye ⟨.authFailure, unsetInt⟩, .disconnected, .disconnected] := by
  have hrun : ∃ u ∈ exec step start [.error, .fireReconnectTimer 0, .connected,
      .bye ⟨.authFailure, unsetInt⟩, .disconnected, .disconnected], u.closedAt = some 2 := by
    decide +kernel
  obtain ⟨u, hu, hclosed⟩ := hrun
  exact ⟨u, hu, hclosed, (final_bye_stops_iff _ hu).mpr (by decide +kernel)⟩

/-- A deleted camera connects again. -/
theorem deleted_reconnects :
    ∃ u ∈ exec step start [.connected, .bye ⟨.deleted, unsetInt⟩, .disconnected, .fireReconnectTimer 0],
      u.closedAt = some 1 ∧ u.connection.attempts = 2 ∧ ¬ u.Stopped := by
  have hrun : ∃ u ∈ exec step start [.connected, .bye ⟨.deleted, unsetInt⟩, .disconnected,
      .fireReconnectTimer 0], u.closedAt = some 1 ∧ u.connection.attempts = 2 := by
    decide +kernel
  obtain ⟨u, hu, hclosed, hattempts⟩ := hrun
  refine ⟨u, hu, hclosed, hattempts, fun hs => ?_⟩
  have := (hs 1 hclosed).1
  omega

end ByeSession
end CloudAgent.Proto
