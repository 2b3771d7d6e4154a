import CloudAgent.Proto.Reconnect

/-! The delay that a bye asks for, on its way from the server's `int` to the timer's `size_t`. -/
namespace CloudAgent.Proto
open Net Transition

/-- The milliseconds after which the server wants to see the camera again. -/
def Bye.delay (bye : Bye) : ℕ := if 0 < bye.retry then bye.retry.toNat * 1000 else 5000

/-- A connection, and the last bye that it has handled. -/
structure RetrySession where
  connection : Connection
  lastBye : Option Bye

namespace RetrySession
open Connection

def start : RetrySession := ⟨.start, none⟩

/-- The bye of a step that handles one. -/
def handledBye : Connection.Action → Option Bye
  | .bye bye => some bye
  | .connected | .disconnected | .error | .fireReconnectTimer _ => none

def step (u : RetrySession) (a : Connection.Action) : Option RetrySession :=
  (u.connection.step a).map fun connection => { connection, lastBye := (handledBye a).or u.lastBye }

def FitsInt (n : ℤ) : Prop := -2 ^ 31 ≤ n ∧ n < 2 ^ 31

instance (n : ℤ) : Decidable (FitsInt n) := inferInstanceAs (Decidable (_ ∧ _))

/-- A closure for the reason of reconnecting is followed by an attempt after the delay that the bye asks for, which is
computed in an `int` and not negative. -/
def AsAsked (u : RetrySession) (a : Connection.Action) : Prop :=
  u.connection.reported a = some .reconnect →
    FitsInt (u.connection.byeRetry * 1000) ∧ 0 ≤ u.connection.retryTimeout .reconnect ∧
      ∃ bye ∈ u.lastBye, ∀ v, u.step a = some v → v.connection.timeouts = u.connection.timeouts ++ [bye.delay]

/-- The bye that is behind the closure gives no time, or one whose milliseconds are an `int`. -/
def RetryFits (u : RetrySession) (a : Connection.Action) : Prop :=
  u.connection.reported a = some .reconnect →
    ∀ bye ∈ u.lastBye, bye.retry = unsetInt ∨ 0 ≤ bye.retry ∧ bye.retry ≤ 2147483

variable {u v : RetrySession} {a : Connection.Action}

/-- The connection remembers what its last bye says: the reason until it is made anew, the time for good. -/
structure Remembers (u : RetrySession) : Prop where
  reason : u.connection.byeReason = .reconnect → u.lastBye.isSome
  retry : ∀ bye ∈ u.lastBye, u.connection.byeRetry = if bye.retry = unsetInt then 0 else bye.retry

theorem remembers_start : start.Remembers := by
  constructor <;> simp [start, Connection.start]

/-- A closure, or the start of a connection, leaves what the bye has said, or clears the reason. -/
theorem byes_resetReconnectTimer (c : Connection) : c.resetReconnectTimer.byeReason = c.byeReason ∧
    c.resetReconnectTimer.byeRetry = c.byeRetry ∧ c.resetReconnectTimer.timeouts = c.timeouts := by
  unfold resetReconnectTimer
  split <;> exact ⟨rfl, rfl, rfl⟩

theorem byes_reconnect (c : Connection) (ms : ℤ) :
    (c.reconnect ms).byeReason = c.byeReason ∧ (c.reconnect ms).byeRetry = c.byeRetry := by
  unfold Connection.reconnect
  split <;> exact ⟨rfl, rfl⟩

theorem byes_onClosed (c : Connection) (reason : ByeReason) :
    (c.onClosed reason).byeReason = c.byeReason ∧ (c.onClosed reason).byeRetry = c.byeRetry := by
  unfold Connection.onClosed
  split
  · exact byes_reconnect c _
  · exact ⟨rfl, rfl⟩

theorem Remembers.closed (h : u.Remembers) (reason : ByeReason) :
    Remembers ⟨u.connection.resetReconnectTimer.onClosed reason, u.lastBye⟩ := by
  obtain ⟨hreason, hretry, -⟩ := byes_resetReconnectTimer u.connection
  obtain ⟨hreason', hretry'⟩ := byes_onClosed u.connection.resetReconnectTimer reason
  refine ⟨fun heq => h.reason ?_, fun bye hbye => ?_⟩
  · rw [← hreason, ← hreason']
    exact heq
  · dsimp only
    rw [hretry', hretry, h.retry bye hbye]

theorem Remembers.step (h : u.Remembers) (hs : u.step a = some v) : v.Remembers := by
  obtain ⟨c, hc, rfl⟩ := Option.map_eq_some_iff.mp hs
  cases a with
  | connected =>
    obtain rfl := Option.some.inj hc
    obtain ⟨hreason, hretry, -⟩ := byes_resetReconnectTimer { u.connection with byeReason := .invalid }
    refine ⟨fun heq => ?_, fun bye hbye => hretry.trans (h.retry bye hbye)⟩
    have hinvalid : ByeReason.invalid = .reconnect := hreason.symm.trans heq
    cases hinvalid
  | bye bye =>
    obtain rfl := Option.some.inj hc
    refine ⟨fun _ => rfl, fun b hb => ?_⟩
    obtain rfl := Option.some.inj hb
    rfl
  | disconnected =>
    obtain rfl := Option.some.inj hc
    exact h.closed u.connection.closedReason
  | error =>
    obtain rfl := Option.some.inj hc
    exact h.closed .connClose
  | fireReconnectTimer t =>
    obtain ⟨⟨w, transport⟩, -, rfl⟩ := Option.map_eq_some_iff.mp hc
    exact ⟨h.reason, h.retry⟩

/-- Only `on_disconnected` reports the reason of a bye. -/
theorem reported_reconnect (h : u.connection.reported a = some .reconnect) :
    a = .disconnected ∧ u.connection.byeReason = .reconnect := by
  cases a with
  | disconnected =>
    refine ⟨rfl, ?_⟩
    have hreason : u.connection.closedReason = .reconnect := Option.some.inj h
    rw [closedReason] at hreason
    split at hreason
    · exact hreason
    · cases hreason
  | error =>
    have hreason : ByeReason.connClose = .reconnect := Option.some.inj h
    cases hreason
  | connected | bye | fireReconnectTimer => cases h

/-- The timer is reset first, so that a closure always schedules an attempt. -/
theorem timeouts_onClosed (c : Connection) :
    (c.resetReconnectTimer.onClosed .reconnect).timeouts =
      c.timeouts ++ [(c.retryTimeout .reconnect % 2 ^ 64).toNat] := by
  obtain ⟨-, hretry, htimeouts⟩ := byes_resetReconnectTimer c
  have hsame : c.resetReconnectTimer.retryTimeout .reconnect = c.retryTimeout .reconnect := by
    rw [retryTimeout, retryTimeout, hretry]
  rw [Connection.onClosed, hsame]
  simp only [reconnect, reconnectTimer_resetReconnectTimer, htimeouts, decide_true, Bool.true_or, Bool.and_true,
    ne_eq, reduceCtorEq, not_false_eq_true, if_true]

/-- The delay is the one that is asked for exactly if it can be computed and passed on. -/
theorem delay_iff (bye : Bye) (c : Connection) (hc : c.byeRetry = if bye.retry = unsetInt then 0 else bye.retry) :
    (FitsInt (c.byeRetry * 1000) ∧ 0 ≤ c.retryTimeout .reconnect ∧
        (c.retryTimeout .reconnect % 2 ^ 64).toNat = bye.delay) ↔
      bye.retry = unsetInt ∨ 0 ≤ bye.retry ∧ bye.retry ≤ 2147483 := by
  -- as long as the milliseconds are an `int`, the conversion leaves them as they are
  have htimeout (hfits : FitsInt (c.byeRetry * 1000)) :
      c.retryTimeout .reconnect = if c.byeRetry * 1000 = 0 then 5000 else c.byeRetry * 1000 := by
    obtain ⟨hlow, hhigh⟩ := hfits
    rw [retryTimeout, if_pos rfl, Int.bmod_eq_of_le (by omega) (by omega)]
  constructor
  · rintro ⟨hfits, hnonneg, -⟩
    by_cases hunset : bye.retry = unsetInt
    · exact .inl hunset
    · rw [htimeout hfits] at hnonneg
      rw [if_neg hunset] at hc
      obtain ⟨-, hhigh⟩ := hfits
      right
      split at hnonneg <;> omega
  · intro hretry
    have hfits : FitsInt (c.byeRetry * 1000) := by
      rw [hc, FitsInt]
      split <;> omega
    refine ⟨hfits, ?_⟩
    rw [htimeout hfits, hc, Bye.delay]
    obtain hunset | ⟨hnonneg, hhigh⟩ := hretry
    · rw [if_pos hunset, hunset]
      decide
    · have hset : bye.retry ≠ unsetInt := by
        rw [unsetInt]
        omega
      rw [if_neg hset]
      obtain ⟨n, hn⟩ := Int.eq_ofNat_of_zero_le hnonneg
      rw [hn] at hhigh ⊢
      obtain rfl | hpos := Nat.eq_zero_or_pos n
      · decide
      · have hkept : (n : ℤ) * 1000 % 2 ^ 64 = ((n * 1000 : ℕ) : ℤ) := by
          rw [Int.natCast_mul]
          exact Int.emod_eq_of_lt (by omega) (by omega)
        rw [if_neg (by omega), if_pos (by omega), hkept, Int.toNat_natCast, Int.toNat_natCast]
        exact ⟨by omega, rfl⟩

theorem Remembers.asAsked_iff (h : u.Remembers) : AsAsked u a ↔ RetryFits u a := by
  refine forall_congr' fun hrep => ?_
  obtain ⟨rfl, hreason⟩ := reported_reconnect hrep
  obtain ⟨bye, hbye⟩ := Option.isSome_iff_exists.mp (h.reason hreason)
  have hclosed : u.connection.closedReason = .reconnect := Option.some.inj hrep
  have hstep : u.step .disconnected = some ⟨u.connection.onDisconnected, u.lastBye⟩ := rfl
  have htimeouts : u.connection.onDisconnected.timeouts =
      u.connection.timeouts ++ [(u.connection.retryTimeout .reconnect % 2 ^ 64).toNat] := by
    rw [onDisconnected, hclosed, timeouts_onClosed]
  have hdelay := delay_iff bye u.connection (h.retry bye hbye)
  simp only [hbye, Option.mem_some_iff, exists_eq_left', forall_eq', hstep, Option.some.injEq, htimeouts,
    List.append_cancel_left_eq, List.cons.injEq, and_true]
  exact hdelay

/-- In exactly those runs where every bye behind such a closure gives no time, or one of up to 2147483 seconds, is every
delay the one that is asked for. -/
theorem delays_asAsked_iff (as : List Connection.Action) : Meets step AsAsked start as ↔ Meets step RetryFits start as :=
  meets_iff_meets (I := Remembers) (L := fun _ _ => True) (fun _ _ _ hu _ _ hs => hu.step hs)
    (fun _ _ hu _ => hu.asAsked_iff) remembers_start (Meets.of_forall_mem fun _ _ _ => trivial)

/-- A negative time becomes a delay of more than half a billion years, and one of 25 days is negative as an `int`. -/
theorem not_delays_asAsked :
    (exec step start [.bye ⟨.reconnect, -1⟩, .disconnected]).map (·.connection.timeouts) =
        some [18446744073709550616] ∧
      ¬ Meets step AsAsked start [.bye ⟨.reconnect, -1⟩, .disconnected] ∧
      ¬ Meets step AsAsked start [.bye ⟨.reconnect, 2147484⟩, .disconnected] := by
  refine ⟨by decide +kernel, fun h => ?_, fun h => ?_⟩
  · obtain ⟨-, hneg, -⟩ := (h.2 _ rfl).1 (by decide)
    exact absurd hneg (by decide)
  · obtain ⟨hfits, -⟩ := (h.2 _ rfl).1 (by decide)
    exact absurd hfits (by decide)

end RetrySession
end CloudAgent.Proto
