import CloudAgent.Lib.Transition

/-! The transmit queue of the websocket over the sessions of an agent. The queue is never cleared: what
is in it when a connection is established is written on that connection. -/
namespace CloudAgent.Net
open Transition

/-- A message for the cloud. Only `do_register` makes a `register`. -/
inductive TxMessage (κ : Type*)
  | register
  | command (cmd : κ)
  deriving DecidableEq

/-- A message in `tx_q_`, and how many connections had been established when it was queued. -/
structure Queued (κ : Type*) where
  message : TxMessage κ
  queuedAt : ℕ
  deriving DecidableEq

/-- A message that was written on the connection with this number. -/
structure Written (κ : Type*) extends Queued κ where
  connection : ℕ
  deriving DecidableEq

/-- The connection: while it is `registering`, `on_connected` has not queued its register command yet;
`fresh` tells whether the queue was empty when it did. -/
inductive Session
  | closed
  | registering
  | established (fresh : Bool)
  deriving DecidableEq

/-- The transmitting side of `websocket`, with the number of connections established so far and
everything that was written. -/
structure Transmitter (κ : Type*) where
  txQ : List (Queued κ)
  clientWsi : Bool
  session : Session
  connection : ℕ
  written : List (Written κ)
  deriving DecidableEq

/-- Nothing that was queued before a connection is written on it, and a register comes first. -/
def Clean {κ : Type*} (written : List (Written κ)) : Prop :=
  (∀ w ∈ written, w.queuedAt = w.connection) ∧
    ∀ k, ∀ w ∈ (written.filter (·.connection = k)).head?, w.message = .register

namespace Transmitter
variable {κ : Type*}

def start : Transmitter κ := ⟨[], false, .closed, 0, []⟩

/-- `send`: the message is queued in any case, and `false` is returned where there is no connection. -/
def send (u : Transmitter κ) (message : TxMessage κ) : Bool × Transmitter κ :=
  (u.clientWsi, { u with txQ := u.txQ ++ [⟨message, u.connection⟩] })

/-- `LWS_CALLBACK_CLIENT_WRITEABLE`. -/
def clientWriteable (u : Transmitter κ) : Transmitter κ :=
  match u.txQ with
  | [] => u
  | q :: rest => { u with txQ := rest, written := u.written ++ [{ q with connection := u.connection }] }

/-- What happens to the queue: commands are sent by any thread at any time, the rest is done by the
service thread. `connecting` is a connection request, `established` and `register` are the two halves
of `LWS_CALLBACK_CLIENT_ESTABLISHED`. -/
inductive Action (κ : Type*)
  | send (cmd : κ)
  | connecting
  | established
  | register
  | writeable
  | closed

def step (u : Transmitter κ) : Action κ → Option (Transmitter κ)
  | .send cmd => some (u.send (.command cmd)).2
  | .connecting => if u.session = .registering then none else some { u with clientWsi := true }
  | .established =>
    if u.session = .registering then none
    else some { u with clientWsi := true, session := .registering, connection := u.connection + 1 }
  | .register =>
    if u.session = .registering then
      some { (u.send .register).2 with session := .established u.txQ.isEmpty }
    else none
  | .writeable =>
    match u.session with
    | .established _ => some u.clientWriteable
    | .closed | .registering => none
  | .closed =>
    if u.session = .registering then none else some { u with clientWsi := false, session := .closed }

/-- Where a message is written, the queue was empty when the register command of the connection was put
into it. -/
def writesFresh (u : Transmitter κ) : Action κ → Bool
  | .writeable => u.txQ.isEmpty || u.session ≠ .established false
  | .send _ | .connecting | .established | .register | .closed => true

variable {u v : Transmitter κ} {a : Action κ}

/-- Everything a step can do. -/
theorem step_cases (h : u.step a = some v) :
    (∃ cmd, a = .send cmd ∧ v = { u with txQ := u.txQ ++ [⟨.command cmd, u.connection⟩] }) ∨
    (a = .connecting ∧ v = { u with clientWsi := true }) ∨
    (a = .established ∧
      v = { u with clientWsi := true, session := .registering, connection := u.connection + 1 }) ∨
    (a = .register ∧ u.session = .registering ∧
      v = { u with
        txQ := u.txQ ++ [⟨.register, u.connection⟩]
        session := .established u.txQ.isEmpty }) ∨
    (a = .writeable ∧ (∃ fresh, u.session = .established fresh) ∧ v = u.clientWriteable) ∨
    (a = .closed ∧ v = { u with clientWsi := false, session := .closed }) := by
  cases a with
  | send cmd => exact .inl ⟨cmd, rfl, (Option.some.inj h).symm⟩
  | connecting =>
    simp only [step, Option.ite_none_left_eq_some] at h
    exact .inr (.inl ⟨rfl, (Option.some.inj h.2).symm⟩)
  | established =>
    simp only [step, Option.ite_none_left_eq_some] at h
    exact .inr (.inr (.inl ⟨rfl, (Option.some.inj h.2).symm⟩))
  | register =>
    simp only [step, Option.ite_none_right_eq_some] at h
    exact .inr (.inr (.inr (.inl ⟨rfl, h.1, (Option.some.inj h.2).symm⟩)))
  | writeable =>
    simp only [step] at h
    split at h
    · exact .inr (.inr (.inr (.inr (.inl ⟨rfl, ⟨_, ‹_›⟩, (Option.some.inj h).symm⟩))))
    · cases h
    · cases h
  | closed =>
    simp only [step, Option.ite_none_left_eq_some] at h
    exact .inr (.inr (.inr (.inr (.inr ⟨rfl, (Option.some.inj h.2).symm⟩))))

/-- One more message in the log. -/
theorem clean_append (written : List (Written κ)) (w : Written κ) :
    Clean (written ++ [w]) ↔ Clean written ∧ w.queuedAt = w.connection ∧
      ((∀ x ∈ written, x.connection ≠ w.connection) → w.message = .register) := by
  have hnone : (∀ x ∈ written, x.connection ≠ w.connection) ↔
      (written.filter (·.connection = w.connection)) = [] := by
    simp [List.filter_eq_nil_iff]
  constructor
  · rintro ⟨hq, hr⟩
    refine ⟨⟨fun x hx => hq x (by simp [hx]), fun k x hx => ?_⟩, hq w (by simp), fun hfirst => ?_⟩
    · apply hr k x
      rw [List.filter_append, List.head?_append]
      simp [Option.mem_def.mp hx]
    · apply hr w.connection w
      rw [List.filter_append, hnone.mp hfirst]
      simp
  · rintro ⟨⟨hq, hr⟩, hw, hfirst⟩
    refine ⟨fun x hx => ?_, fun k x hx => ?_⟩
    · rcases List.mem_append.mp hx with hx | hx
      · exact hq x hx
      · rw [List.mem_singleton.mp hx]
        exact hw
    · rw [List.filter_append, List.head?_append] at hx
      cases hk : (written.filter (·.connection = k)).head? with
      | some y =>
        obtain rfl : y = x := by simpa [hk] using hx
        exact hr k y hk
      | none =>
        obtain ⟨rfl, rfl⟩ : w.connection = k ∧ w = x := by
          by_cases hwk : w.connection = k
          · exact ⟨hwk, by simpa [hk, hwk] using hx⟩
          · simp [hk, hwk] at hx
        exact hfirst (hnone.mpr (List.head?_eq_none_iff.mp hk))

theorem clientWriteable_cons {q : Queued κ} {rest : List (Queued κ)} (h : u.txQ = q :: rest) :
    u.clientWriteable =
      { u with txQ := rest, written := u.written ++ [{ q with connection := u.connection }] } := by
  simp [clientWriteable, h]

theorem clientWriteable_nil (h : u.txQ = []) : u.clientWriteable = u := by simp [clientWriteable, h]

/-- What the queue holds in each session: after a fresh start only messages of this session, the register
command before the others; otherwise something that has to be written before it. -/
def Holds (u : Transmitter κ) : Prop :=
  match u.session with
  | .closed => True
  | .registering =>
    (∀ q ∈ u.txQ, q.queuedAt = u.connection → q.message ≠ .register) ∧
      ∀ w ∈ u.written, w.connection ≠ u.connection
  | .established true =>
    (∀ q ∈ u.txQ, q.queuedAt = u.connection) ∧
      ((∀ w ∈ u.written, w.connection ≠ u.connection) → ∃ q ∈ u.txQ.head?, q.message = .register)
  | .established false =>
    (∃ q ∈ u.txQ.head?, q.queuedAt = u.connection → q.message ≠ .register) ∧
      ∀ w ∈ u.written, w.connection ≠ u.connection

/-- What holds as long as only fresh queues are written. -/
structure Fresh (u : Transmitter κ) : Prop where
  queued : ∀ q ∈ u.txQ, q.queuedAt ≤ u.connection
  written : ∀ w ∈ u.written, w.connection ≤ u.connection
  holds : u.Holds
  clean : Clean u.written

theorem fresh_start : (start : Transmitter κ).Fresh := by
  refine ⟨?_, ?_, ?_, ?_⟩ <;> simp [start, Holds, Clean]

/-- Queueing a command changes nothing at the head of a queue that has one. -/
theorem Holds.send (h : u.Holds) (cmd : κ) :
    Holds { u with txQ := u.txQ ++ [⟨.command cmd, u.connection⟩] } := by
  have hhead : ∀ q ∈ u.txQ.head?, q ∈ (u.txQ ++ [(⟨.command cmd, u.connection⟩ : Queued κ)]).head? := by
    intro q hq
    rw [List.head?_append, Option.mem_def.mp hq]
    rfl
  have hmem : ∀ {P : Queued κ → Prop}, (∀ q ∈ u.txQ, P q) → P ⟨.command cmd, u.connection⟩ →
      ∀ q ∈ u.txQ ++ [⟨.command cmd, u.connection⟩], P q :=
    fun hall hone => List.forall_mem_append.mpr ⟨hall, List.forall_mem_singleton.mpr hone⟩
  unfold Holds at h ⊢
  cases hs : u.session with
  | closed => trivial
  | registering =>
    simp only [hs] at h ⊢
    exact ⟨hmem h.1 fun _ => by simp, h.2⟩
  | established fresh =>
    cases fresh with
    | true =>
      simp only [hs] at h ⊢
      refine ⟨hmem h.1 rfl, fun hw => ?_⟩
      obtain ⟨q, hq, hr⟩ := h.2 hw
      exact ⟨q, hhead q hq, hr⟩
    | false =>
      simp only [hs] at h ⊢
      obtain ⟨q, hq, hr⟩ := h.1
      exact ⟨⟨q, hhead q hq, hr⟩, h.2⟩

/-- The register command comes first exactly where the queue was empty. -/
theorem Holds.register (h : u.Holds) (hs : u.session = .registering) :
    Holds { u with
      txQ := u.txQ ++ [⟨.register, u.connection⟩]
      session := .established u.txQ.isEmpty } := by
  simp only [Holds, hs] at h
  cases hq : u.txQ with
  | nil => simp [Holds]
  | cons q rest =>
    simp only [hq, List.mem_cons, forall_eq_or_imp] at h
    simpa [Holds] using ⟨h.1.1, h.2⟩

/-- A write of a fresh queue takes the register command first, and only messages of this session. -/
theorem Fresh.clientWriteable (h : u.Fresh) (hs : u.session = .established true) :
    u.clientWriteable.Fresh := by
  cases hq : u.txQ with
  | nil => rwa [clientWriteable_nil hq]
  | cons q rest =>
    rw [clientWriteable_cons hq]
    have hheld := h.holds
    simp only [Holds, hs, hq, List.forall_mem_cons] at hheld
    obtain ⟨⟨hqat, hrest⟩, hfirst⟩ := hheld
    refine ⟨fun x hx => h.queued x (by simp [hq, hx]), ?_, ?_, ?_⟩
    · exact List.forall_mem_append.mpr ⟨h.written, by simp⟩
    · simp only [Holds, hs]
      refine ⟨hrest, fun hnone => absurd rfl (hnone { q with connection := u.connection } ?_)⟩
      simp
    · refine (clean_append _ _).mpr ⟨h.clean, hqat, fun hnone => ?_⟩
      obtain ⟨x, hx, hr⟩ := hfirst hnone
      obtain rfl : q = x := by simpa using hx
      exact hr

theorem Fresh.step (h : u.Fresh) (hok : writesFresh u a = true) (hs : u.step a = some v) : v.Fresh := by
  rcases step_cases hs with ⟨cmd, rfl, rfl⟩ | ⟨rfl, rfl⟩ | ⟨rfl, rfl⟩ | ⟨rfl, hr, rfl⟩ |
    ⟨rfl, ⟨fresh, hf⟩, rfl⟩ | ⟨rfl, rfl⟩
  · exact ⟨List.forall_mem_append.mpr ⟨h.queued, by simp⟩, h.written, h.holds.send cmd, h.clean⟩
  · exact ⟨h.queued, h.written, h.holds, h.clean⟩
  · refine ⟨fun q hq => Nat.le_succ_of_le (h.queued q hq),
      fun w hw => Nat.le_succ_of_le (h.written w hw), ⟨fun q hq hat => ?_, fun w hw => ?_⟩, h.clean⟩
    · have := h.queued q hq
      simp only at hat
      omega
    · have := h.written w hw
      simp only
      omega
  · exact ⟨List.forall_mem_append.mpr ⟨h.queued, by simp⟩, h.written, h.holds.register hr, h.clean⟩
  · cases fresh with
    | true => exact h.clientWriteable hf
    | false =>
      have hnil : u.txQ = [] := by simpa [writesFresh, hf] using hok
      rwa [clientWriteable_nil hnil]
  · exact ⟨h.queued, h.written, trivial, h.clean⟩

/-- The first write of a queue that was not empty writes something that does not belong there. -/
theorem Fresh.not_clean (h : u.Fresh) (hok : ¬ writesFresh u a = true) (hs : u.step a = some v) :
    ¬ Clean v.written := by
  cases a with
  | writeable =>
    simp only [writesFresh, Bool.or_eq_true, List.isEmpty_iff, decide_eq_true_eq, not_or, not_not] at hok
    obtain ⟨hne, hf⟩ := hok
    obtain ⟨q, rest, hq⟩ := List.exists_cons_of_ne_nil hne
    simp only [Transmitter.step, hf, Option.some.injEq] at hs
    subst hs
    rw [clientWriteable_cons hq, clean_append]
    have hheld := h.holds
    simp only [Holds, hf, hq, List.head?_cons, Option.mem_some_iff, exists_eq_left'] at hheld
    rintro ⟨-, hat, hfirst⟩
    exact hheld.1 hat (hfirst hheld.2)
  | send | connecting | established | register | closed => exact absurd rfl hok

/-- A log that is not clean stays so. -/
theorem clean_of_step (hs : u.step a = some v) (h : Clean v.written) : Clean u.written := by
  rcases step_cases hs with ⟨cmd, rfl, rfl⟩ | ⟨rfl, rfl⟩ | ⟨rfl, rfl⟩ | ⟨rfl, -, rfl⟩ |
    ⟨rfl, -, rfl⟩ | ⟨rfl, rfl⟩
  · exact h
  · exact h
  · exact h
  · exact h
  · cases hq : u.txQ with
    | nil => rwa [clientWriteable_nil hq] at h
    | cons q rest =>
      rw [clientWriteable_cons hq] at h
      exact ((clean_append _ _).mp h).1
  · exact h

/-- The first message of every connection is its register command, and none is older than the
connection, in exactly those runs where every connection that something is written on found an empty
queue when it registered. -/
theorem sessions_start_clean_iff (as : List (Action κ)) (he : exec step start as = some u) :
    Clean u.written ↔ Meets step (fun w b => writesFresh w b = true) start as :=
  good_iff_meets (B := fun _ => True) (I := Fresh) (fun _ _ _ _ _ => trivial)
    (fun _ _ _ _ hu hok hs => hu.step hok hs) (fun _ hu => hu.clean)
    (fun _ _ _ hu hok hs => hu.not_clean hok hs) (fun _ _ _ _ hs hv => clean_of_step hs hv) trivial
    fresh_start he

/-- Two sessions, with everything written before the first one is closed. -/
def drainedRun : List (Action ℕ) :=
  [.established, .register, .send 1, .writeable, .writeable, .closed, .connecting, .established, .register,
    .send 2, .writeable]

theorem sessions_start_clean_drained :
    ∃ u, exec step start drainedRun = some u ∧ u.written.length = 3 ∧ Clean u.written := by
  have hrun : ∃ u ∈ exec step start drainedRun, u.written.length = 3 := by decide +kernel
  obtain ⟨u, hu, hlen⟩ := hrun
  exact ⟨u, hu, hlen, (sessions_start_clean_iff _ hu).mpr (by decide +kernel)⟩

/-- A command that is sent while there is no connection is refused, and written first on the next. -/
theorem sent_while_closed :
    ∃ u ∈ exec step start [.established, .register, .writeable, .closed, .send 1, .established, .register,
        .writeable],
      u.written.getLast? = some ⟨⟨.command 1, 1⟩, 2⟩ ∧ ¬ Clean u.written := by
  have hrun : ∃ u ∈ exec step start [.established, .register, .writeable, .closed, .send 1, .established,
      .register, .writeable], u.written.getLast? = some ⟨⟨.command 1, 1⟩, 2⟩ := by decide +kernel
  obtain ⟨u, hu, hlast⟩ := hrun
  refine ⟨u, hu, hlast, fun hc => ?_⟩
  have hat := hc.1 _ (List.mem_of_getLast? hlast)
  simp at hat

end Transmitter
end CloudAgent.Net
