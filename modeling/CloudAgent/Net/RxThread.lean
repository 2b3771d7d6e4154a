import CloudAgent.Lib.Transition
import Mathlib.Data.List.Infix
import Mathlib.Data.List.Nodup
import Mathlib.Data.List.Range

/-! The rx thread of the transport worker. It takes received messages and tasks from two queues in turn;
the service thread fills both of them, and a closure is reported by a task behind a task that drains
the messages. -/
namespace CloudAgent.Net
open Transition

/-- A message, with the connection it was received on. -/
structure Received (μ : Type*) where
  connection : ℕ
  data : μ
  deriving DecidableEq

/-- A task of the rx thread. `disconnected` is the callback, for the connection that was closed or for an
attempt that never became one. -/
inductive Task
  | drain
  | disconnected (connection : Option ℕ)
  | other
  deriving DecidableEq

/-- Where the loop of `rx_handle_` is. -/
inductive RxPc (μ : Type*)
  | pop
  | handle (r : Received μ)
  | task
  | run (t : Task)
  | draining
  deriving DecidableEq

/-- Whether the rx thread holds the lock of the messages. -/
def RxPc.locked {μ : Type*} : RxPc μ → Bool
  | .draining => true
  | .pop | .handle _ | .task | .run _ => false

/-- What the rx thread did: a call of `handle_` or a finished task. -/
inductive RxEvent (μ : Type*)
  | handled (r : Received μ)
  | ran (t : Task)
  deriving DecidableEq

/-- The worker while it is running. `current` is the established connection, `notify` the task that a
closure callback has still to queue, and `rounds` counts the rounds of the loop. -/
structure Worker (μ : Type*) where
  rxQ : List (Received μ)
  rxTaskQ : List Task
  pc : RxPc μ
  clientWsi : Bool
  current : Option ℕ
  notify : Option Task
  connections : ℕ
  received : List (Received μ)
  log : List (RxEvent μ)
  rounds : ℕ
  deriving DecidableEq

namespace Worker
variable {μ : Type*}

def start : Worker μ := ⟨[], [], .pop, false, none, none, 0, [], [], 0⟩

/-- `run_on_rx_thread`. -/
def runOnRxThread (u : Worker μ) (t : Task) : Worker μ := { u with rxTaskQ := u.rxTaskQ ++ [t] }

/-- `LWS_CALLBACK_CLIENT_CLOSED` up to the report. -/
def clientClosed (u : Worker μ) : Worker μ :=
  { u.runOnRxThread .drain with
    notify := if u.clientWsi then some (.disconnected u.current) else none
    clientWsi := false
    current := none }

/-- `LWS_CALLBACK_WSI_DESTROY` up to the report. -/
def wsiDestroy (u : Worker μ) : Worker μ :=
  if u.clientWsi then
    { u.runOnRxThread .drain with
      clientWsi := false, notify := some (.disconnected u.current), current := none }
  else u

/-- The next step of `rx_handle_`. The drain holds the lock of the messages until they are all handled. -/
def rx (u : Worker μ) : Worker μ :=
  match u.pc, u.rxQ, u.rxTaskQ with
  | .pop, r :: rest, _ => { u with rxQ := rest, pc := .handle r }
  | .pop, [], _ => { u with pc := .task }
  | .handle r, _, _ => { u with log := u.log ++ [.handled r], pc := .task }
  | .task, _, t :: rest => { u with rxTaskQ := rest, pc := .run t }
  | .task, _, [] => { u with pc := .pop, rounds := u.rounds + 1 }
  | .run .drain, _, _ => { u with pc := .draining }
  | .run t, _, _ => { u with log := u.log ++ [.ran t], pc := .pop, rounds := u.rounds + 1 }
  | .draining, r :: rest, _ => { u with rxQ := rest, log := u.log ++ [.handled r] }
  | .draining, [], _ => { u with log := u.log ++ [.ran .drain], pc := .pop, rounds := u.rounds + 1 }

/-- The rx thread goes one step on, another thread queues a task, or the service thread does something:
it starts or fails to start a connection, or one is established, receives or is closed. There is one
connection at a time. -/
inductive Action (μ : Type*)
  | rx
  | runOnRxThread
  | connecting
  | connectFailed
  | connectionError
  | established
  | receive (data : μ)
  | closed
  | wsiDestroy
  | notify

def step (u : Worker μ) : Action μ → Option (Worker μ)
  | .rx => some u.rx
  | .runOnRxThread => some (u.runOnRxThread .other)
  | .connecting => if u.notify.isNone then some { u with clientWsi := true } else none
  | .connectFailed =>
    if u.notify.isNone && u.current.isNone then
      some { u.runOnRxThread (.disconnected none) with clientWsi := false }
    else none
  | .connectionError =>
    if u.notify.isNone && u.current.isNone then some { u.runOnRxThread .drain with clientWsi := false }
    else none
  | .established =>
    if u.notify.isNone && u.current.isNone then
      some { u with
        clientWsi := true, current := some (u.connections + 1), connections := u.connections + 1 }
    else none
  | .receive data =>
    if u.notify.isNone && !u.pc.locked then
      u.current.map fun k =>
        { u with rxQ := u.rxQ ++ [⟨k, data⟩], received := u.received ++ [⟨k, data⟩] }
    else none
  | .closed => if u.notify.isNone then some u.clientClosed else none
  | .wsiDestroy => if u.notify.isNone then some u.wsiDestroy else none
  | .notify => u.notify.map fun t => { u.runOnRxThread t with notify := none }

/-! ### What is queued, in flight and done -/

/-- The message that `handle_` is applied to next. -/
def inFlight (u : Worker μ) : List (Received μ) :=
  match u.pc with
  | .handle r => [r]
  | .pop | .task | .run _ | .draining => []

/-- The task that is being run. -/
def running (u : Worker μ) : List Task :=
  match u.pc with
  | .run t => [t]
  | .draining => [.drain]
  | .pop | .handle _ | .task => []

/-- The messages that are not handled yet. -/
def pending (u : Worker μ) : List (Received μ) := u.inFlight ++ u.rxQ

/-- The tasks that are not finished yet. -/
def tasks (u : Worker μ) : List Task := u.running ++ u.rxTaskQ

end Worker

/-- The messages that `handle_` was applied to. -/
def handledIn {μ : Type*} (log : List (RxEvent μ)) : List (Received μ) :=
  log.filterMap fun
    | .handled r => some r
    | .ran _ => none

/-- The tasks that were run. -/
def ranIn {μ : Type*} (log : List (RxEvent μ)) : List Task :=
  log.filterMap fun
    | .handled _ => none
    | .ran t => some t

/-- The connections whose closure is reported by some tasks. -/
def reportedBy (ts : List Task) : List ℕ :=
  ts.filterMap fun
    | .disconnected connection => connection
    | .drain | .other => none

variable {μ : Type*}

@[simp] theorem handledIn_append (l l' : List (RxEvent μ)) :
    handledIn (l ++ l') = handledIn l ++ handledIn l' := List.filterMap_append

@[simp] theorem handledIn_handled (r : Received μ) : handledIn [.handled r] = [r] := rfl

@[simp] theorem handledIn_ran (t : Task) : handledIn [(.ran t : RxEvent μ)] = [] := rfl

@[simp] theorem ranIn_append (l l' : List (RxEvent μ)) : ranIn (l ++ l') = ranIn l ++ ranIn l' :=
  List.filterMap_append

@[simp] theorem ranIn_handled (r : Received μ) : ranIn [.handled r] = [] := rfl

@[simp] theorem ranIn_ran (t : Task) : ranIn [(.ran t : RxEvent μ)] = [t] := rfl

@[simp] theorem reportedBy_append (ts ts' : List Task) :
    reportedBy (ts ++ ts') = reportedBy ts ++ reportedBy ts' := List.filterMap_append

@[simp] theorem reportedBy_nil : reportedBy [] = [] := rfl

@[simp] theorem reportedBy_drain (ts : List Task) : reportedBy (.drain :: ts) = reportedBy ts := rfl

@[simp] theorem reportedBy_other (ts : List Task) : reportedBy (.other :: ts) = reportedBy ts := rfl

@[simp] theorem reportedBy_disconnected (c : Option ℕ) (ts : List Task) :
    reportedBy (.disconnected c :: ts) = c.toList ++ reportedBy ts := by
  cases c <;> rfl

theorem mem_reportedBy {ts : List Task} {k : ℕ} : k ∈ reportedBy ts ↔ .disconnected (some k) ∈ ts := by
  simp only [reportedBy, List.mem_filterMap]
  constructor
  · rintro ⟨t, ht, hk⟩
    cases t with
    | disconnected c =>
      obtain rfl : c = some k := hk
      exact ht
    | drain | other => cases hk
  · exact fun h => ⟨_, h, rfl⟩

theorem count_reportedBy (ts : List Task) (k : ℕ) :
    (reportedBy ts).count k = ts.count (.disconnected (some k)) := by
  induction ts with
  | nil => rfl
  | cons t ts ih =>
    cases t with
    | drain | other => simpa [List.count_cons] using ih
    | disconnected c => cases c <;> simp [List.count_cons, ih]

/-- A report comes behind a drain, or there is nothing left that it would have to wait for. -/
def Guarded (clear : ℕ → Prop) : List Task → Prop
  | [] => True
  | .drain :: _ => True
  | .disconnected (some k) :: ts => clear k ∧ Guarded clear ts
  | .disconnected none :: ts => Guarded clear ts
  | .other :: ts => Guarded clear ts

section
variable {clear clear' : ℕ → Prop} {ts ts' : List Task}

theorem guarded_append :
    Guarded clear (ts ++ ts') ↔ Guarded clear ts ∧ (.drain ∈ ts ∨ Guarded clear ts') := by
  induction ts with
  | nil => simp [Guarded]
  | cons t ts ih =>
    cases t with
    | drain => simp [Guarded]
    | disconnected c => cases c <;> simp [Guarded, ih, and_assoc]
    | other => simp [Guarded, ih]

theorem Guarded.mono (h : Guarded clear ts) (hc : ∀ k ∈ reportedBy ts, clear k → clear' k) :
    Guarded clear' ts := by
  induction ts with
  | nil => trivial
  | cons t ts ih =>
    have hrest : ∀ k ∈ reportedBy ts, clear k → clear' k := by
      intro k hk
      apply hc k
      rw [mem_reportedBy] at hk ⊢
      exact List.mem_cons_of_mem t hk
    cases t with
    | drain => trivial
    | disconnected c =>
      cases c with
      | none => exact ih h hrest
      | some k => exact ⟨hc k (mem_reportedBy.mpr List.mem_cons_self) h.1, ih h.2 hrest⟩
    | other => exact ih h hrest

theorem Guarded.tail {t : Task} (h : Guarded clear (t :: ts)) (hc : t = .drain → ∀ k, clear k) :
    Guarded clear ts := by
  cases t with
  | drain =>
    have hall := hc rfl
    clear hc h
    induction ts with
    | nil => trivial
    | cons t ts ih =>
      cases t with
      | drain => trivial
      | disconnected c =>
        cases c with
        | none => exact ih
        | some k => exact ⟨hall k, ih⟩
      | other => exact ih
  | disconnected c =>
    cases c with
    | none => exact h
    | some k => exact h.2
  | other => exact h

end

namespace Worker
variable {u v w : Worker μ} {a : Action μ}

/-! ### What a step does -/

/-- The rx thread takes the first pending message or the first task, and does it; a drain is done when
nothing is pending. -/
theorem rx_cases (u : Worker μ) :
    (u.rx.log = u.log ∧ u.rx.pending = u.pending ∧ u.rx.tasks = u.tasks) ∨
    (∃ r, u.rx.log = u.log ++ [.handled r] ∧ u.pending = r :: u.rx.pending ∧ u.rx.tasks = u.tasks) ∨
    ∃ t, u.rx.log = u.log ++ [.ran t] ∧ u.rx.pending = u.pending ∧ u.tasks = t :: u.rx.tasks ∧
      (t = .drain → u.pending = []) := by
  obtain ⟨rxQ, rxTaskQ, pc, clientWsi, current, notify, connections, received, log, rounds⟩ := u
  cases pc with
  | pop => cases rxQ <;> exact .inl ⟨rfl, rfl, rfl⟩
  | handle r => exact .inr (.inl ⟨r, rfl, rfl, rfl⟩)
  | task => cases rxTaskQ <;> exact .inl ⟨rfl, rfl, rfl⟩
  | run t =>
    cases t with
    | drain => exact .inl ⟨rfl, rfl, rfl⟩
    | disconnected c => exact .inr (.inr ⟨_, rfl, rfl, rfl, by simp⟩)
    | other => exact .inr (.inr ⟨_, rfl, rfl, rfl, by simp⟩)
  | draining =>
    cases rxQ with
    | nil => exact .inr (.inr ⟨_, rfl, rfl, rfl, fun _ => rfl⟩)
    | cons r rest => exact .inr (.inl ⟨r, rfl, rfl, rfl⟩)

/-- The rx thread leaves alone what belongs to the service thread. -/
theorem rx_frame (u : Worker μ) :
    u.rx.clientWsi = u.clientWsi ∧ u.rx.current = u.current ∧ u.rx.notify = u.notify ∧
      u.rx.connections = u.connections ∧ u.rx.received = u.received := by
  unfold rx
  split <;> exact ⟨rfl, rfl, rfl, rfl, rfl⟩

/-- The messages of the connection that were handled are all that were received on it. -/
def HandledAll (u : Worker μ) (log : List (RxEvent μ)) (k : ℕ) : Prop :=
  (handledIn log).filter (·.connection = k) = u.received.filter (·.connection = k)

/-- Nothing of the connection is pending. -/
def Cleared (u : Worker μ) (k : ℕ) : Prop := ∀ r ∈ u.pending, r.connection ≠ k

/-- The invariant: messages and reports are neither lost nor repeated, and every report is kept behind
the messages of its connection. -/
structure Accounted (u : Worker μ) : Prop where
  conserved : u.received = handledIn u.log ++ u.pending
  reports : reportedBy (ranIn u.log ++ u.tasks ++ u.notify.toList) ++ u.current.toList =
    List.range' 1 u.connections
  connected : u.current.isSome → u.clientWsi = true
  guarded : Guarded u.Cleared (u.tasks ++ u.notify.toList)
  before : ∀ pre post k, u.log = pre ++ .ran (.disconnected (some k)) :: post → u.HandledAll pre k

theorem accounted_start : (start : Worker μ).Accounted := by
  refine ⟨rfl, rfl, by simp [start], trivial, fun pre post k h => ?_⟩
  simp [start] at h

/-- The connection that is established was not reported as closed. -/
theorem Accounted.current_notMem (h : u.Accounted) {k : ℕ} (hk : u.current = some k) :
    k ∉ reportedBy (ranIn u.log ++ u.tasks ++ u.notify.toList) := by
  have hnodup : (reportedBy (ranIn u.log ++ u.tasks ++ u.notify.toList) ++ [k]).Nodup := by
    have hr := h.reports
    rw [hk, Option.toList_some] at hr
    rw [hr]
    exact List.nodup_range'
  intro hmem
  exact (List.nodup_append.mp hnodup).2.2 k hmem k (by simp) rfl

/-- One more event behind the others: the reports that were there have the same events before them. -/
theorem before_append {log : List (RxEvent μ)} {e : RxEvent μ} {P : List (RxEvent μ) → ℕ → Prop}
    (h : ∀ pre post k, log = pre ++ .ran (.disconnected (some k)) :: post → P pre k)
    (he : ∀ k, e = .ran (.disconnected (some k)) → P log k) :
    ∀ pre post k, log ++ [e] = pre ++ .ran (.disconnected (some k)) :: post → P pre k := by
  intro pre post k hsplit
  rcases List.eq_nil_or_concat post with rfl | ⟨post', e', rfl⟩
  · obtain ⟨rfl, hlast⟩ := List.append_inj' hsplit rfl
    exact he k (List.cons.inj hlast).1
  · have hassoc : log ++ [e] = (pre ++ .ran (.disconnected (some k)) :: post') ++ [e'] := by
      simpa using hsplit
    exact h pre post' k (List.append_inj' hassoc rfl).1

/-- A report is run when nothing of its connection is pending. -/
theorem Accounted.handledAll_of_cleared (h : u.Accounted) {k : ℕ} (hc : u.Cleared k) :
    u.HandledAll u.log k := by
  have hnone : u.pending.filter (·.connection = k) = [] := by
    simpa [List.filter_eq_nil_iff, Cleared] using hc
  rw [HandledAll, h.conserved, List.filter_append, hnone, List.append_nil]

theorem Accounted.rx (h : u.Accounted) : u.rx.Accounted := by
  obtain ⟨hwsi, hcurrent, hnotify, hconnections, hreceived⟩ := u.rx_frame
  have hall : u.rx.HandledAll = u.HandledAll := by
    unfold HandledAll
    rw [hreceived]
  rcases u.rx_cases with ⟨hlog, hpending, htasks⟩ | ⟨r, hlog, hpending, htasks⟩ |
    ⟨t, hlog, hpending, htasks, hdrain⟩
  · refine ⟨?_, ?_, ?_, ?_, ?_⟩
    · rw [hreceived, hlog, hpending, h.conserved]
    · rw [hlog, htasks, hnotify, hcurrent, hconnections, h.reports]
    · rw [hcurrent, hwsi]
      exact h.connected
    · rw [htasks, hnotify]
      exact h.guarded.mono fun k _ hc => by rwa [Cleared, hpending]
    · rw [hlog, hall]
      exact h.before
  · refine ⟨?_, ?_, ?_, ?_, ?_⟩
    · rw [hreceived, hlog, h.conserved, hpending]
      simp
    · rw [hlog, htasks, hnotify, hcurrent, hconnections, ← h.reports]
      simp
    · rw [hcurrent, hwsi]
      exact h.connected
    · rw [htasks, hnotify]
      refine h.guarded.mono fun k _ hc x hx => hc x ?_
      rw [hpending]
      exact List.mem_cons_of_mem r hx
    · rw [hlog, hall]
      exact before_append h.before fun k hk => by cases hk
  · have hguarded := h.guarded
    rw [htasks, List.cons_append] at hguarded
    refine ⟨?_, ?_, ?_, ?_, ?_⟩
    · rw [hreceived, hlog, h.conserved, hpending]
      simp
    · rw [hlog, hnotify, hcurrent, hconnections, ← h.reports, htasks]
      simp
    · rw [hcurrent, hwsi]
      exact h.connected
    · rw [hnotify]
      refine (hguarded.tail fun hd k x hx => ?_).mono fun k _ hc => by rwa [Cleared, hpending]
      simp [hdrain hd] at hx
    · rw [hlog, hall]
      refine before_append h.before fun k hk => h.handledAll_of_cleared ?_
      obtain rfl : t = .disconnected (some k) := by simpa using hk
      exact hguarded.1

/-- A callback of the service thread, or another thread, queues tasks behind those that are there. `ts`
are the new ones and `u'` is the state with its own fields changed. -/
theorem Accounted.queue (h : u.Accounted) (ts : List Task) (hlog : v.log = u.log)
    (hreceived : v.received = u.received) (hpending : v.pending = u.pending)
    (htasks : v.tasks ++ v.notify.toList = u.tasks ++ ts)
    (hreports : reportedBy ts ++ v.current.toList = reportedBy u.notify.toList ++ u.current.toList)
    (hconnections : v.connections = u.connections) (hconnected : v.current.isSome → v.clientWsi = true)
    (hguarded : .drain ∈ u.tasks ∨ Guarded u.Cleared ts) : v.Accounted := by
  have hall : v.HandledAll = u.HandledAll := by
    unfold HandledAll
    rw [hreceived]
  refine ⟨?_, ?_, hconnected, ?_, ?_⟩
  · rw [hreceived, hlog, hpending, h.conserved]
  · rw [hconnections, ← h.reports, hlog, List.append_assoc (ranIn u.log), htasks]
    simp only [reportedBy_append, List.append_assoc, hreports]
  · have hcleared : v.Cleared = u.Cleared := by
      unfold Cleared
      rw [hpending]
    rw [htasks, hcleared]
    exact guarded_append.mpr ⟨(guarded_append.mp h.guarded).1, hguarded⟩
  · rw [hlog, hall]
    exact h.before

@[simp] theorem tasks_runOnRxThread (u : Worker μ) (t : Task) :
    (u.runOnRxThread t).tasks = u.tasks ++ [t] := (List.append_assoc u.running u.rxTaskQ [t]).symm

/-- A connection is established under a number of its own. -/
theorem Accounted.established (h : u.Accounted) (hc : u.current = none) :
    Accounted { u with
      clientWsi := true, current := some (u.connections + 1), connections := u.connections + 1 } := by
  have hreports := h.reports
  rw [hc, Option.toList_none, List.append_nil] at hreports
  refine ⟨h.conserved, ?_, fun _ => rfl, h.guarded, h.before⟩
  change reportedBy (ranIn u.log ++ u.tasks ++ u.notify.toList) ++ [u.connections + 1] = _
  rw [hreports, List.range'_concat]
  simp [Nat.add_comm]

/-- What is received belongs to a connection that no report is about. -/
theorem Accounted.receive (h : u.Accounted) {k : ℕ} (hk : u.current = some k) (data : μ) :
    Accounted { u with rxQ := u.rxQ ++ [⟨k, data⟩], received := u.received ++ [⟨k, data⟩] } := by
  have hfresh := h.current_notMem hk
  have hpending : pending { u with
      rxQ := u.rxQ ++ [⟨k, data⟩]
      received := u.received ++ [⟨k, data⟩] } = u.pending ++ [⟨k, data⟩] :=
    (List.append_assoc u.inFlight u.rxQ _).symm
  refine ⟨?_, h.reports, h.connected, h.guarded.mono fun j hj hc r hr => ?_, fun pre post j hsplit => ?_⟩
  · rw [hpending, ← List.append_assoc, ← h.conserved]
  · rw [hpending] at hr
    rcases List.mem_append.mp hr with hr | hr
    · exact hc r hr
    · rw [List.mem_singleton.mp hr]
      rintro rfl
      exact hfresh (by simp only [reportedBy_append, List.mem_append] at hj ⊢; tauto)
  · have hj : j ≠ k := by
      rintro rfl
      have hran : Task.disconnected (some j) ∈ ranIn u.log := by
        rw [hsplit]
        simp [ranIn]
      apply hfresh
      simp [mem_reportedBy.mpr hran]
    have hall := h.before pre post j hsplit
    simp only [HandledAll, List.filter_append] at hall ⊢
    simp [hall, hj.symm]

theorem Accounted.clientClosed (h : u.Accounted) (hn : u.notify = none) : u.clientClosed.Accounted := by
  have hcurrent : u.clientWsi = false → u.current = none := by
    intro hwsi
    cases hc : u.current with
    | none => rfl
    | some k => simp [h.connected (by simp [hc])] at hwsi
  refine h.queue (.drain :: u.clientClosed.notify.toList) rfl rfl rfl ?_ ?_ rfl
    (by simp [Worker.clientClosed]) (.inr trivial)
  · change (u.runOnRxThread .drain).tasks ++ _ = _
    rw [tasks_runOnRxThread, List.append_assoc]
    rfl
  · change reportedBy (.drain :: u.clientClosed.notify.toList) ++ [] = _
    cases hwsi : u.clientWsi with
    | true => simp [Worker.clientClosed, hwsi, hn]
    | false => simp [Worker.clientClosed, hwsi, hn, hcurrent hwsi]

theorem Accounted.wsiDestroy (h : u.Accounted) (hn : u.notify = none) : u.wsiDestroy.Accounted := by
  cases hwsi : u.clientWsi with
  | false => rwa [Worker.wsiDestroy, hwsi]
  | true =>
    have hsame : u.wsiDestroy = u.clientClosed := by simp [Worker.wsiDestroy, Worker.clientClosed, hwsi]
    rw [hsame]
    exact h.clientClosed hn

theorem Accounted.step (h : u.Accounted) (hs : u.step a = some v) : v.Accounted := by
  have hnotify := (guarded_append.mp h.guarded).2
  cases a with
  | rx =>
    obtain rfl := Option.some.inj hs
    exact h.rx
  | runOnRxThread =>
    obtain rfl := Option.some.inj hs
    refine h.queue (.other :: u.notify.toList) rfl rfl rfl ?_ (by simp [runOnRxThread]) rfl h.connected hnotify
    rw [tasks_runOnRxThread, List.append_assoc]
    rfl
  | connecting =>
    simp only [Worker.step, Option.ite_none_right_eq_some, Option.some.injEq] at hs
    obtain ⟨-, rfl⟩ := hs
    exact ⟨h.conserved, h.reports, fun _ => rfl, h.guarded, h.before⟩
  | connectFailed =>
    simp only [Worker.step, Option.ite_none_right_eq_some, Option.some.injEq, Bool.and_eq_true,
      Option.isNone_iff_eq_none] at hs
    obtain ⟨⟨hn, hc⟩, rfl⟩ := hs
    refine h.queue [.disconnected none] rfl rfl rfl ?_ (by simp [runOnRxThread, hn]) rfl
      (by simp [runOnRxThread, hc]) (.inr trivial)
    change (u.runOnRxThread _).tasks ++ u.notify.toList = _
    rw [tasks_runOnRxThread, hn, Option.toList_none, List.append_nil]
  | connectionError =>
    simp only [Worker.step, Option.ite_none_right_eq_some, Option.some.injEq, Bool.and_eq_true,
      Option.isNone_iff_eq_none] at hs
    obtain ⟨⟨hn, hc⟩, rfl⟩ := hs
    refine h.queue [.drain] rfl rfl rfl ?_ (by simp [runOnRxThread, hn]) rfl
      (by simp [runOnRxThread, hc]) (.inr trivial)
    change (u.runOnRxThread _).tasks ++ u.notify.toList = _
    rw [tasks_runOnRxThread, hn, Option.toList_none, List.append_nil]
  | established =>
    simp only [Worker.step, Option.ite_none_right_eq_some, Option.some.injEq, Bool.and_eq_true,
      Option.isNone_iff_eq_none] at hs
    obtain ⟨⟨-, hc⟩, rfl⟩ := hs
    exact h.established hc
  | receive data =>
    simp only [Worker.step, Option.ite_none_right_eq_some, Option.map_eq_some_iff] at hs
    obtain ⟨-, k, hk, rfl⟩ := hs
    exact h.receive hk data
  | closed =>
    simp only [Worker.step, Option.ite_none_right_eq_some, Option.some.injEq, Option.isNone_iff_eq_none] at hs
    obtain ⟨hn, rfl⟩ := hs
    exact h.clientClosed hn
  | wsiDestroy =>
    simp only [Worker.step, Option.ite_none_right_eq_some, Option.some.injEq, Option.isNone_iff_eq_none] at hs
    obtain ⟨hn, rfl⟩ := hs
    exact h.wsiDestroy hn
  | notify =>
    obtain ⟨t, ht, rfl⟩ := Option.map_eq_some_iff.mp hs
    rw [ht] at hnotify
    refine h.queue [t] rfl rfl rfl ?_ (by simp [runOnRxThread, ht]) rfl h.connected hnotify
    change (u.runOnRxThread t).tasks ++ [] = _
    rw [tasks_runOnRxThread, List.append_nil]

/-! ### The rounds of the loop -/

/-- The tasks in the order in which they were queued. -/
def allTasks (u : Worker μ) : List Task := ranIn u.log ++ u.tasks

/-- A step that is not one of the rx thread puts messages and tasks at the end of the queues. -/
theorem step_cases (hs : u.step a = some v) :
    v = u.rx ∨ (v.log = u.log ∧ v.pc = u.pc ∧ v.rounds = u.rounds ∧
      (∃ rs, v.received = u.received ++ rs) ∧ ∃ ts, v.rxTaskQ = u.rxTaskQ ++ ts) := by
  cases a with
  | rx => exact .inl (Option.some.inj hs).symm
  | runOnRxThread =>
    obtain rfl := Option.some.inj hs
    exact .inr ⟨rfl, rfl, rfl, ⟨[], by simp [runOnRxThread]⟩, [.other], rfl⟩
  | connecting | established =>
    simp only [Worker.step, Option.ite_none_right_eq_some, Option.some.injEq] at hs
    obtain ⟨-, rfl⟩ := hs
    exact .inr ⟨rfl, rfl, rfl, ⟨[], by simp⟩, [], by simp⟩
  | connectFailed | connectionError | closed =>
    simp only [Worker.step, Option.ite_none_right_eq_some, Option.some.injEq] at hs
    obtain ⟨-, rfl⟩ := hs
    exact .inr ⟨rfl, rfl, rfl, ⟨[], by simp [runOnRxThread, Worker.clientClosed]⟩, [_], rfl⟩
  | receive data =>
    simp only [Worker.step, Option.ite_none_right_eq_some, Option.map_eq_some_iff] at hs
    obtain ⟨-, k, -, rfl⟩ := hs
    exact .inr ⟨rfl, rfl, rfl, ⟨_, rfl⟩, [], by simp⟩
  | wsiDestroy =>
    simp only [Worker.step, Option.ite_none_right_eq_some, Option.some.injEq] at hs
    obtain ⟨-, rfl⟩ := hs
    unfold Worker.wsiDestroy
    split
    · exact .inr ⟨rfl, rfl, rfl, ⟨[], by simp [runOnRxThread]⟩, [.drain], rfl⟩
    · exact .inr ⟨rfl, rfl, rfl, ⟨[], by simp⟩, [], by simp⟩
  | notify =>
    obtain ⟨t, -, rfl⟩ := Option.map_eq_some_iff.mp hs
    exact .inr ⟨rfl, rfl, rfl, ⟨[], by simp [runOnRxThread]⟩, [t], rfl⟩

theorem allTasks_rx (u : Worker μ) : u.rx.allTasks = u.allTasks := by
  rcases u.rx_cases with ⟨hlog, -, htasks⟩ | ⟨r, hlog, -, htasks⟩ | ⟨t, hlog, -, htasks, -⟩
  · rw [allTasks, allTasks, hlog, htasks]
  · simp [allTasks, hlog, htasks]
  · simp [allTasks, hlog, htasks]

/-- Messages and tasks keep their places in the order of arrival. -/
theorem step_queues (hs : u.step a = some v) :
    u.received <+: v.received ∧ u.allTasks <+: v.allTasks := by
  rcases step_cases hs with rfl | ⟨hlog, hpc, -, ⟨rs, hrs⟩, ts, hts⟩
  · rw [allTasks_rx, u.rx_frame.2.2.2.2]
    exact ⟨List.prefix_rfl, List.prefix_rfl⟩
  · refine ⟨⟨rs, hrs.symm⟩, ts, ?_⟩
    simp [allTasks, tasks, running, hlog, hpc, hts]

/-- What the rounds since `w` have done: each full one handles a message and runs a task of those that
there were, as long as there are any. -/
structure Served (w v : Worker μ) : Prop where
  rounds : w.rounds ≤ v.rounds
  received : w.received.length ≤ v.received.length
  queued : w.allTasks.length ≤ v.allTasks.length
  messages : min w.received.length ((handledIn w.log).length + (v.rounds - w.rounds - 1)) ≤
    (handledIn v.log).length
  tasks : min w.allTasks.length ((ranIn w.log).length + (v.rounds - w.rounds - 1)) ≤ (ranIn v.log).length
  message : match v.pc with
    | .pop => True
    | .handle _ => min w.received.length ((handledIn w.log).length + (v.rounds - w.rounds)) ≤
        (handledIn v.log).length + 1
    | .task | .run _ | .draining =>
      min w.received.length ((handledIn w.log).length + (v.rounds - w.rounds)) ≤ (handledIn v.log).length
  task : match v.pc with
    | .pop | .handle _ | .task => True
    | .run _ | .draining =>
      min w.allTasks.length ((ranIn w.log).length + (v.rounds - w.rounds)) ≤ (ranIn v.log).length + 1

theorem served_self (w : Worker μ) : Served w w := by
  refine ⟨le_rfl, le_rfl, le_rfl, by omega, by omega, ?_, ?_⟩ <;> split
  all_goals first | trivial | omega

theorem Served.rx (h : Served w v) (hv : v.Accounted) : Served w v.rx := by
  have hpending : v.received.length = (handledIn v.log).length + v.pending.length := by
    rw [hv.conserved, List.length_append]
  have htasks : v.allTasks.length = (ranIn v.log).length + v.tasks.length := List.length_append
  obtain ⟨hrounds, hreceived, hqueued, hmessages, hran, hmessage, htask⟩ := h
  have hreceived' : w.received.length ≤ v.rx.received.length := by rwa [v.rx_frame.2.2.2.2]
  have hqueued' : w.allTasks.length ≤ v.rx.allTasks.length := by rwa [allTasks_rx]
  obtain ⟨rxQ, rxTaskQ, pc, clientWsi, current, notify, connections, received, log, rounds⟩ := v
  -- A message is handled after the loop has popped, or none was pending; the same goes for a task.
  cases pc with
  | pop =>
    cases rxQ with
    | nil =>
      simp only [pending, inFlight, List.append_nil, List.length_nil] at *
      refine ⟨hrounds, hreceived', hqueued', hmessages, hran, ?_, trivial⟩
      simp only [Worker.rx]
      omega
    | cons r rest =>
      simp only at *
      refine ⟨hrounds, hreceived', hqueued', hmessages, hran, ?_, trivial⟩
      simp only [Worker.rx]
      omega
  | handle r =>
    simp only at *
    refine ⟨hrounds, hreceived', hqueued', ?_, ?_, ?_, trivial⟩
    all_goals simp only [Worker.rx, handledIn_append, handledIn_handled, ranIn_append, ranIn_handled,
      List.length_append, List.length_singleton, List.append_nil]
    all_goals omega
  | task =>
    cases rxTaskQ with
    | nil =>
      simp only [Worker.tasks, running, List.append_nil, List.length_nil] at *
      refine ⟨?_, hreceived', hqueued', ?_, ?_, trivial, trivial⟩ <;> simp only [Worker.rx] <;> omega
    | cons t rest =>
      simp only at *
      refine ⟨hrounds, hreceived', hqueued', hmessages, hran, hmessage, ?_⟩
      simp only [Worker.rx]
      omega
  | run t =>
    cases t with
    | drain => exact ⟨hrounds, hreceived', hqueued', hmessages, hran, hmessage, htask⟩
    | disconnected | other =>
      simp only at *
      refine ⟨?_, hreceived', hqueued', ?_, ?_, trivial, trivial⟩
      all_goals simp only [Worker.rx, ranIn_append, ranIn_ran, handledIn_append, handledIn_ran,
        List.append_nil, List.length_append, List.length_singleton]
      all_goals omega
  | draining =>
    cases rxQ with
    | nil =>
      simp only at *
      refine ⟨?_, hreceived', hqueued', ?_, ?_, trivial, trivial⟩
      all_goals simp only [Worker.rx, ranIn_append, ranIn_ran, handledIn_append, handledIn_ran,
        List.append_nil, List.length_append, List.length_singleton]
      all_goals omega
    | cons r rest =>
      simp only at *
      refine ⟨hrounds, hreceived', hqueued', ?_, ?_, ?_, ?_⟩
      all_goals simp only [Worker.rx, ranIn_append, ranIn_handled, handledIn_append, handledIn_handled,
        List.append_nil, List.length_append, List.length_singleton]
      all_goals omega

/-- Whatever the other threads do in between. -/
theorem Served.step (h : Served w u) (hu : u.Accounted) (hs : u.step a = some v) : Served w v := by
  obtain ⟨hreceived, hqueued⟩ := step_queues hs
  rcases step_cases hs with rfl | ⟨hlog, hpc, hrounds, -, -⟩
  · exact h.rx hu
  · have hmessages := h.messages
    have htasks := h.tasks
    have hmessage := h.message
    have htask := h.task
    rw [← hlog, ← hrounds] at hmessages htasks hmessage htask
    rw [← hpc] at hmessage htask
    exact ⟨hrounds ▸ h.rounds, h.received.trans hreceived.length_le, h.queued.trans hqueued.length_le,
      hmessages, htasks, hmessage, htask⟩

theorem Accounted.of_exec {as : List (Action μ)} (h : w.Accounted) (he : exec Worker.step w as = some v) :
    v.Accounted :=
  run_invariant (fun _ _ _ hu hs => hu.step hs) h he

/-- As many rounds as there is something to do for do it all. -/
theorem Accounted.all_done {as : List (Action μ)} (h : w.Accounted) (he : exec Worker.step w as = some v)
    (hr : w.rounds + w.pending.length + w.tasks.length < v.rounds) :
    w.received <+: handledIn v.log ∧ w.allTasks <+: ranIn v.log := by
  have hrun : v.Accounted ∧ Served w v ∧ w.received <+: v.received ∧ w.allTasks <+: v.allTasks := by
    apply run_invariant (P := fun x =>
      x.Accounted ∧ Served w x ∧ w.received <+: x.received ∧ w.allTasks <+: x.allTasks) _ _ he
    · rintro x a y ⟨hx, hserved, hreceived, htasks⟩ hs
      obtain ⟨hreceived', htasks'⟩ := step_queues hs
      exact ⟨hx.step hs, hserved.step hx hs, hreceived.trans hreceived', htasks.trans htasks'⟩
    · exact ⟨h, served_self w, List.prefix_rfl, List.prefix_rfl⟩
  obtain ⟨hv, hserved, hreceived, htasks⟩ := hrun
  have hpending : w.received.length = (handledIn w.log).length + w.pending.length := by
    rw [h.conserved, List.length_append]
  have hqueued : w.allTasks.length = (ranIn w.log).length + w.tasks.length := List.length_append
  have hmessages := hserved.messages
  have hran := hserved.tasks
  constructor
  · have hhandled : handledIn v.log <+: v.received := by
      rw [hv.conserved]
      exact List.prefix_append _ _
    exact List.prefix_of_prefix_length_le hreceived hhandled (by omega)
  · have hdone : ranIn v.log <+: v.allTasks := List.prefix_append _ _
    exact List.prefix_of_prefix_length_le htasks hdone (by omega)

/-- A connection that is no longer there has a report, queued or run. -/
theorem Accounted.report (h : u.Accounted) {k : ℕ} (hk : 1 ≤ k ∧ k ≤ u.connections) (hc : u.current ≠ some k)
    (hn : u.notify ≠ some (.disconnected (some k))) : .disconnected (some k) ∈ u.allTasks := by
  have hmem : k ∈ List.range' 1 u.connections := List.mem_range'_1.mpr ⟨hk.1, by omega⟩
  rw [← h.reports, List.mem_append, Option.mem_toList, reportedBy_append, List.mem_append, mem_reportedBy,
    mem_reportedBy, Option.mem_toList] at hmem
  rcases hmem with (hmem | hmem) | hmem
  · exact hmem
  · exact absurd hmem hn
  · exact absurd hmem hc

/-- No closure is reported twice. -/
theorem Accounted.count_ran_le (h : u.Accounted) (k : ℕ) :
    (ranIn u.log).count (.disconnected (some k)) ≤ 1 := by
  have hsub : reportedBy (ranIn u.log) <+: List.range' 1 u.connections := by
    rw [← h.reports]
    simp only [reportedBy_append, List.append_assoc]
    exact List.prefix_append _ _
  rw [← count_reportedBy]
  exact List.nodup_iff_count_le_one.mp (List.Nodup.sublist hsub.sublist List.nodup_range') k

/-- The loop comes round in finitely many steps of its own. -/
def ComesRound (u : Worker μ) : Prop :=
  ∃ n v, exec step u (List.replicate n .rx) = some v ∧ v.rounds = u.rounds + 1

theorem ComesRound.next (h : u.rx.ComesRound) (hu : u.rx.rounds = u.rounds) : u.ComesRound := by
  obtain ⟨n, v, he, hv⟩ := h
  exact ⟨n + 1, v, exec_cons_eq_some.mpr ⟨u.rx, rfl, he⟩, by rw [hv, hu]⟩

theorem ComesRound.last (hu : u.rx.rounds = u.rounds + 1) : u.ComesRound := ⟨1, u.rx, rfl, hu⟩

theorem comesRound_draining (hu : u.pc = .draining) : u.ComesRound := by
  generalize hq : u.rxQ = rxQ
  induction rxQ generalizing u with
  | nil => exact .last (by simp [rx, hu, hq])
  | cons r rest ih =>
    refine .next (ih ?_ ?_) ?_ <;> simp [rx, hu, hq]

theorem comesRound_run {t : Task} (hu : u.pc = .run t) : u.ComesRound := by
  cases t with
  | drain => exact .next (comesRound_draining (by simp [rx, hu])) (by simp [rx, hu])
  | disconnected | other => exact .last (by simp [rx, hu])

theorem comesRound_task (hu : u.pc = .task) : u.ComesRound := by
  cases hq : u.rxTaskQ with
  | nil => exact .last (by simp [rx, hu, hq])
  | cons t rest => exact .next (comesRound_run (t := t) (by simp [rx, hu, hq])) (by simp [rx, hu, hq])

theorem comesRound (u : Worker μ) : u.ComesRound := by
  have hhandle : ∀ {u : Worker μ} {r}, u.pc = .handle r → u.ComesRound := fun hu =>
    .next (comesRound_task (by simp [rx, hu])) (by simp [rx, hu])
  cases hu : u.pc with
  | pop =>
    cases hq : u.rxQ with
    | nil => exact .next (comesRound_task (by simp [rx, hu, hq])) (by simp [rx, hu, hq])
    | cons r rest => exact .next (hhandle (by simp [rx, hu, hq]; rfl)) (by simp [rx, hu, hq])
  | handle r => exact hhandle hu
  | task => exact comesRound_task hu
  | run t => exact comesRound_run hu
  | draining => exact comesRound_draining hu

/-- In every interleaving the messages are handled once each in the order of arrival, and the report of a
closure runs after all messages of its connection. The loop always comes round, and as many rounds as
messages and tasks are left handle all those messages and report all connections that are closed. -/
theorem received_handled_in_order {as : List (Action μ)} (he : exec step start as = some u) :
    handledIn u.log <+: u.received ∧
      (∀ pre post k, u.log = pre ++ .ran (.disconnected (some k)) :: post →
        (handledIn pre).filter (·.connection = k) = u.received.filter (·.connection = k)) ∧
      u.ComesRound ∧
      ∀ bs v, exec step u bs = some v → u.rounds + u.pending.length + u.tasks.length < v.rounds →
        u.received <+: handledIn v.log ∧
        ∀ k, 1 ≤ k → k ≤ u.connections → u.current ≠ some k →
          u.notify ≠ some (.disconnected (some k)) →
          (ranIn v.log).count (.disconnected (some k)) = 1 := by
  have h : u.Accounted := accounted_start.of_exec he
  refine ⟨?_, h.before, u.comesRound, fun bs v hv hr => ?_⟩
  · rw [h.conserved]
    exact List.prefix_append _ _
  · obtain ⟨hmessages, htasks⟩ := h.all_done hv hr
    refine ⟨hmessages, fun k hk hk' hc hn => ?_⟩
    have hmem := htasks.subset (h.report ⟨hk, hk'⟩ hc hn)
    have hle := (h.of_exec hv).count_ran_le k
    have hpos := List.count_pos_iff.mpr hmem
    omega

/-- Two connections. The second message of the first one is drained, and its closure is reported while a
message of the second one is waiting. -/
def twoConnections : List (Action ℕ) :=
  [.connecting, .established, .receive 7, .receive 8, .rx, .closed, .rx, .notify, .wsiDestroy, .rx, .rx, .rx,
    .rx, .established, .receive 9, .rx, .rx, .rx, .rx]

theorem received_handled_twoConnections :
    ∃ u, exec step start twoConnections = some u ∧ handledIn u.log = [⟨1, 7⟩, ⟨1, 8⟩, ⟨2, 9⟩] ∧
      handledIn u.log <+: u.received ∧
      ∀ pre post k, u.log = pre ++ .ran (.disconnected (some k)) :: post →
        (handledIn pre).filter (·.connection = k) = u.received.filter (·.connection = k) := by
  have hrun : ∃ u ∈ exec step start twoConnections, handledIn u.log = [⟨1, 7⟩, ⟨1, 8⟩, ⟨2, 9⟩] := by
    decide +kernel
  obtain ⟨u, hu, hlog⟩ := hrun
  obtain ⟨horder, hbefore, -⟩ := received_handled_in_order hu
  exact ⟨u, hu, hlog, horder, hbefore⟩

end Worker
end CloudAgent.Net
