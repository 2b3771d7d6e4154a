import CloudAgent.Streamer.Queue.Flush
import Mathlib.Data.List.Sort

/-! A source in pull mode and its sinks: the thread that pulls frames and pushes them to the queue of every linked
sink, the threads of the sinks, and the streams that start and stop them. A step is what a thread does between two
points at which the others can come in. -/
namespace CloudAgent.Streamer
open Transition

/-- Where `_source_routine` is: with a frame it waits for `multiqueue_lock_`, which it has while it pushes to the
sinks that are left, and while it waits in the `push` to one of them. -/
inductive SourceThread (κ α : Type*)
  | ended | looping | pulling
  | pulled (frame : α)
  | pushing (frame : α) (left : List κ)
  | waiting (frame : α) (sink : κ) (left : List κ)
  deriving DecidableEq

/-- Where `_sink_routine` is. -/
inductive SinkThread (α : Type*)
  | ended | looping | popping
  | processing (frame : α)
  deriving DecidableEq

/-- Where `start_sink` or `stop_sink` of a stream is. -/
inductive SinkCall
  | idle | linked | flushing | joining | unlinking
  deriving DecidableEq

/-- Where `stop` of a stream is. -/
inductive SourceCall
  | idle | flushing | joining
  deriving DecidableEq

/-- `ISink` with `sink_started_` of its stream. The last four are kept since the sink was linked: how many frames the
source had pushed before, what was processed, whether `process` failed, and whether the end was reported. -/
structure LinkedSink (α : Type*) where
  droppable : Bool
  queue : Queue α
  running : Bool
  thread : SinkThread α
  started : Bool
  call : SinkCall
  since : ℕ
  processed : List α
  failed : Bool
  eosReported : Bool
  deriving DecidableEq

/-- `ISource` with `source_started_` and its sinks; `pushed` are the frames that `_pushFrameAll` was called with.
`sink_queue_map_` is ordered by the pointers. -/
structure Multiqueue (κ α : Type*) where
  running : Bool
  thread : SourceThread κ α
  started : Bool
  call : SourceCall
  sinkQueueMap : List κ
  sinks : κ → LinkedSink α
  pushed : List α

namespace SourceThread
variable {κ α : Type*}

/-- The sinks that the frame is not pushed to yet. -/
def left : SourceThread κ α → List κ
  | pushing _ left => left
  | waiting _ i left => i :: left
  | _ => []

/-- Whether the thread has `multiqueue_lock_`. -/
def locks : SourceThread κ α → Bool
  | pushing .. | waiting .. => true
  | _ => false

theorem left_of_not_locks {t : SourceThread κ α} (ht : t.locks = false) : t.left = [] := by
  cases t with
  | pushing | waiting => cases ht
  | _ => rfl

variable [DecidableEq κ]

/-- The frame that is pushed, while it still has to get to this sink. -/
def coming : SourceThread κ α → κ → List α
  | pushing frame left, i => if i ∈ left then [frame] else []
  | waiting frame j left, i => if i ∈ j :: left then [frame] else []
  | _, _ => []

/-- The frame that waits for room in the queue of this sink. -/
def late : SourceThread κ α → κ → List α
  | waiting frame j _, i => if i = j then [frame] else []
  | _, _ => []

theorem coming_eq_nil {t : SourceThread κ α} {i : κ} (hi : i ∉ t.left) : t.coming i = [] := by
  cases t with
  | pushing | waiting => exact if_neg hi
  | _ => rfl

theorem late_eq_nil {t : SourceThread κ α} {i : κ} (hi : i ∉ t.left) : t.late i = [] := by
  cases t with
  | waiting frame j left => exact if_neg (List.ne_of_not_mem_cons hi)
  | _ => rfl

end SourceThread

def SinkThread.hand {α : Type*} : SinkThread α → List α
  | processing frame => [frame]
  | _ => []

/-! ### A sink -/

namespace LinkedSink
variable {α : Type*}

/-- `ISink::start` within `start_sink`. -/
def start (k : LinkedSink α) : Option (LinkedSink α) :=
  if k.call = .linked then some { k with running := true, thread := .looping, started := true, call := .idle }
  else none

/-- `stop_sink`, up to the flush. -/
def stop (k : LinkedSink α) : Option (LinkedSink α) :=
  if k.call = .idle then some { k with running := false, call := .flushing } else none

def flush (k : LinkedSink α) : Option (LinkedSink α) :=
  if k.call = .flushing then some { k with queue := k.queue.flush, call := .joining } else none

def join (k : LinkedSink α) : Option (LinkedSink α) :=
  match k.call, k.thread with
  | .joining, .ended => some { k with call := .unlinking }
  | _, _ => none

/-- The head of the loop of `_sink_routine`. -/
def loop (k : LinkedSink α) : Option (LinkedSink α) :=
  match k.thread with
  | .looping => some { k with thread := if k.running then .popping else .ended }
  | _ => none

/-- `pop` once it need not wait; the thread ends with a null. -/
def pop (k : LinkedSink α) : Option (LinkedSink α) :=
  match k.thread with
  | .popping =>
    if k.queue.canPop .value then
      match k.queue.take .value with
      | (some frame, queue) => some { k with queue, thread := .processing frame }
      | (none, queue) => some { k with queue, thread := .ended, eosReported := true }
    else none
  | _ => none

/-- `process`; where it fails, `error` sets the end of the stream. -/
def process (k : LinkedSink α) (ok : Bool) : Option (LinkedSink α) :=
  match k.thread with
  | .processing frame =>
    some { k with
      thread := .looping
      queue := if ok then k.queue else k.queue.setEos true
      processed := k.processed ++ [frame]
      failed := k.failed || !ok }
  | _ => none

/-- What concerns a sink alone. -/
inductive Event
  | start | stop | flush | join | loop | pop | process (ok : Bool)
  deriving DecidableEq

def step (k : LinkedSink α) : Event → Option (LinkedSink α)
  | .start => k.start
  | .stop => k.stop
  | .flush => k.flush
  | .join => k.join
  | .loop => k.loop
  | .pop => k.pop
  | .process ok => k.process ok

end LinkedSink

/-! ### The source -/

namespace Multiqueue
variable {κ α : Type*} [LinearOrder κ]

/-- Nothing is linked, and no thread runs. -/
def start (droppable : κ → Bool) : Multiqueue κ α where
  running := false
  thread := .ended
  started := false
  call := .idle
  sinkQueueMap := []
  sinks i := ⟨droppable i, .new (droppable i) .dropFront, false, .ended, false, .idle, 0, [], false, false⟩
  pushed := []

def setSink (m : Multiqueue κ α) (i : κ) (k : LinkedSink α) : Multiqueue κ α :=
  { m with sinks := Function.update m.sinks i k }

/-- A new state of the queue of each linked sink. -/
def mapQueues (m : Multiqueue κ α) (f : Queue α → Queue α) : Multiqueue κ α :=
  { m with sinks := fun i => if i ∈ m.sinkQueueMap then { m.sinks i with queue := f (m.sinks i).queue } else m.sinks i }

/-- `start` of the stream, up to where the thread runs. -/
def startSource (m : Multiqueue κ α) : Option (Multiqueue κ α) :=
  if m.started = false ∧ m.running = false ∧ m.call = .idle then
    some { m with running := true, thread := .looping, started := true }
  else none

/-- `stop`, up to the flush. -/
def stopSource (m : Multiqueue κ α) : Option (Multiqueue κ α) :=
  if m.call = .idle then some { m with running := false, call := .flushing } else none

/-- `_flushAll`. -/
def flushSource (m : Multiqueue κ α) : Option (Multiqueue κ α) :=
  if m.call = .flushing ∧ m.thread.locks = false then
    some { m.mapQueues Queue.flush with call := .joining }
  else none

def joinSource (m : Multiqueue κ α) : Option (Multiqueue κ α) :=
  match m.call, m.thread with
  | .joining, .ended => some { m with call := .idle, started := false }
  | _, _ => none

/-- The head of the loop of `_source_routine`. -/
def sourceLoop (m : Multiqueue κ α) : Option (Multiqueue κ α) :=
  match m.thread with
  | .looping => some { m with thread := if m.running then .pulling else .ended }
  | _ => none

/-- `pullFrame` returns a frame, or a null. -/
def pullFrame (m : Multiqueue κ α) (frame : Option α) : Option (Multiqueue κ α) :=
  match m.thread with
  | .pulling => some { m with thread := frame.elim .looping .pulled }
  | _ => none

/-- `pullFrame` calls `error`, which tells the linked sinks of the end, and returns a null. -/
def sourceError (m : Multiqueue κ α) : Option (Multiqueue κ α) :=
  match m.thread with
  | .pulling => some { m.mapQueues (Queue.setEos true) with running := false, thread := .looping }
  | _ => none

/-- `_pushFrameAll`: it gets the lock, pushes to one sink after another, and gives the lock back. -/
def pushFrameAll (m : Multiqueue κ α) : Option (Multiqueue κ α) :=
  match m.thread with
  | .pulled frame => some { m with thread := .pushing frame m.sinkQueueMap, pushed := m.pushed ++ [frame] }
  | .pushing _ [] => some { m with thread := .looping }
  | _ => none

/-- A push that has returned. -/
def returned (m : Multiqueue κ α) (frame : α) (i : κ) (left : List κ) (p : Queue.Pushed α) : Multiqueue κ α :=
  { m.setSink i { m.sinks i with queue := (m.sinks i).queue.apply p } with thread := .pushing frame left }

/-- `push` of the next sink's queue, up to where it waits or returns. -/
def push (c : CanDrop α) (m : Multiqueue κ α) : Option (Multiqueue κ α) :=
  match m.thread with
  | .pushing frame (i :: left) =>
    let q := (m.sinks i).queue
    if q.flushing then some (m.returned frame i left (q.refuse frame))
    else if q.canPush then some (m.returned frame i left (q.store c frame))
    else some { m with thread := .waiting frame i left }
  | _ => none

/-- The `push` that waits goes on. -/
def wakePush (c : CanDrop α) (m : Multiqueue κ α) : Option (Multiqueue κ α) :=
  match m.thread with
  | .waiting frame i left =>
    let q := (m.sinks i).queue
    if q.canPush then some (m.returned frame i left (q.store c frame)) else none
  | _ => none

/-- `linkSink` within `start_sink`. -/
def linkSink (m : Multiqueue κ α) (i : κ) : Option (Multiqueue κ α) :=
  let k := m.sinks i
  if k.started = false ∧ k.call = .idle ∧ m.thread.locks = false then
    some { m.setSink i { k with
        queue := .new k.droppable .dropFront, call := .linked
        since := m.pushed.length, processed := [], failed := false, eosReported := false } with
      sinkQueueMap := m.sinkQueueMap.orderedInsert (· ≤ ·) i }
  else none

/-- `unlinkSink`, and the end of `stop_sink`. -/
def unlinkSink (m : Multiqueue κ α) (i : κ) : Option (Multiqueue κ α) :=
  let k := m.sinks i
  if k.call = .unlinking ∧ m.thread.locks = false then
    some { m.setSink i { k with call := .idle, started := false } with sinkQueueMap := m.sinkQueueMap.erase i }
  else none

/-- What the thread of the source does next, a stream that starts or stops it or links a sink, or what concerns a sink
alone. -/
inductive Event (κ α : Type*)
  | startSource | stopSource | flushSource | joinSource
  | sourceLoop | pullFrame (frame : Option α) | sourceError | pushFrameAll | push | wakePush
  | linkSink (i : κ) | unlinkSink (i : κ)
  | sink (i : κ) (e : LinkedSink.Event)
  deriving DecidableEq

def step (c : CanDrop α) (m : Multiqueue κ α) : Event κ α → Option (Multiqueue κ α)
  | .startSource => m.startSource
  | .stopSource => m.stopSource
  | .flushSource => m.flushSource
  | .joinSource => m.joinSource
  | .sourceLoop => m.sourceLoop
  | .pullFrame frame => m.pullFrame frame
  | .sourceError => m.sourceError
  | .pushFrameAll => m.pushFrameAll
  | .push => m.push c
  | .wakePush => m.wakePush c
  | .linkSink i => m.linkSink i
  | .unlinkSink i => m.unlinkSink i
  | .sink i e => ((m.sinks i).step e).map (m.setSink i)

end Multiqueue

/-! ### What the queue keeps -/

namespace Queue
variable {α : Type*} {c : CanDrop α} {q : Queue α} {item : α}

theorem dropOld_suffix (drop wait : Bool) (l : List α) : (dropOld c drop wait l).queue <:+ l := by
  induction l generalizing wait with
  | nil => exact List.suffix_rfl
  | cons a l ih =>
    rw [dropOld]
    dsimp only
    split
    · exact (ih _).trans (List.suffix_cons a l)
    · exact List.suffix_rfl

/-- A push puts its item behind what it leaves of the queue, or drops it. -/
theorem store_sublist (q : Queue α) (item : α) : (q.store c item).queue.Sublist (q.queue ++ [item]) := by
  cases hd : q.direction with
  | dropFront =>
    simp only [store, hd]
    exact (dropOld_suffix q.drop q.waitVideoKey q.queue).sublist.append_right [item]
  | dropBack =>
    simp only [store, hd, dropNew]
    split
    · exact List.sublist_append_left _ _
    · exact List.Sublist.refl _

/-- A queue that does not drop takes every item. -/
theorem store_of_not_drop (hdrop : q.drop = false) (hdir : q.direction = .dropFront) (item : α) :
    (q.store c item).queue = q.queue ++ [item] := by
  have hold : (dropOld c false q.waitVideoKey q.queue).queue = q.queue := by
    cases hq : q.queue with
    | nil => rfl
    | cons a l => simp [dropOld, c.keeps]
  simp only [store, hdir, hdrop, hold]

theorem store_of_nil (hq : q.queue = []) (hdir : q.direction = .dropFront) (item : α) :
    (q.store c item).queue = [item] := by
  simp [store, hdir, hq, dropOld]

end Queue

/-! ### What a sink keeps -/

namespace LinkedSink
variable {α : Type*} {k k' : LinkedSink α} {e : Event}

/-- What was pushed to the sink and not dropped: the frames that are processed, in the hand of the thread, and queued. -/
def seen (k : LinkedSink α) : List α := k.processed ++ k.thread.hand ++ k.queue.queue

/-- The flags of the sink and of its stream go together, and its queue is one that `linkSink` made. -/
structure Sound (k : LinkedSink α) : Prop where
  joined : k.thread ≠ .ended → k.started = true
  running : k.running = true → k.started = true
  reported : k.eosReported = true → k.thread = .ended ∧ k.call ≠ .linked
  stopping : k.thread ≠ .ended → k.running = true ∨ k.call = .flushing ∨ k.call = .joining
  calling : k.call ≠ .idle → k.running = false
  linked : k.call = .linked → k.started = false
  unlinking : k.call = .unlinking → k.thread = .ended
  flushed : k.call = .joining ∨ k.call = .unlinking → k.queue.flushing = true
  drop : k.queue.drop = k.droppable
  direction : k.queue.direction = .dropFront
  bounded : k.droppable = false → k.queue.queue.length ≤ MediaFrameQueue.maxItems

/-- Another state of the queue. -/
theorem Sound.withQueue (hk : k.Sound) {q : Queue α} (hflushing : k.queue.flushing = true → q.flushing = true)
    (hdrop : q.drop = k.queue.drop) (hdirection : q.direction = k.queue.direction)
    (hbounded : k.droppable = false → q.queue.length ≤ MediaFrameQueue.maxItems) :
    Sound { k with queue := q } where
  joined := hk.joined
  running := hk.running
  reported := hk.reported
  stopping := hk.stopping
  calling := hk.calling
  linked := hk.linked
  unlinking := hk.unlinking
  flushed hcall := hflushing (hk.flushed hcall)
  drop := hdrop.trans hk.drop
  direction := hdirection.trans hk.direction
  bounded := hbounded

/-- The thread of the sink goes on, or ends. -/
theorem Sound.withThread (hk : k.Sound) (hthread : k.thread ≠ .ended) (thread : SinkThread α) :
    Sound { k with thread } where
  joined _ := hk.joined hthread
  running := hk.running
  reported hr := absurd (hk.reported hr).1 hthread
  stopping _ := hk.stopping hthread
  calling := hk.calling
  linked := hk.linked
  unlinking hcall := absurd (hk.unlinking hcall) hthread
  flushed := hk.flushed
  drop := hk.drop
  direction := hk.direction
  bounded := hk.bounded

/-- What `pop` does when it need not wait. -/
theorem pop_cases (h : k.pop = some k') : k.thread = .popping ∧
    ((∃ frame rest, k.queue.queue = frame :: rest ∧
        k' = { k with queue := { k.queue with queue := rest }, thread := .processing frame }) ∨
      (k.queue.queue = [] ∧ (k.queue.flushing = true ∨ k.queue.eos = true) ∧
        k' = { k with thread := .ended, eosReported := true })) := by
  unfold pop at h
  split at h
  · rename_i hthread
    obtain ⟨hcan, h⟩ := Option.ite_none_right_eq_some.mp h
    refine ⟨hthread, ?_⟩
    cases hq : k.queue.queue with
    | nil =>
      simp only [Queue.take, hq, List.head?_nil, List.tail_nil, Option.some.injEq] at h
      simp only [Queue.canPop, hq, List.isEmpty_nil, Bool.not_true, Bool.false_or, Bool.or_eq_true] at hcan
      refine .inr ⟨rfl, hcan, ?_⟩
      rw [← h, ← hq]
    | cons frame rest =>
      simp only [Queue.take, hq, List.head?_cons, List.tail_cons, Option.some.injEq] at h
      exact .inl ⟨frame, rest, rfl, h.symm⟩
  · cases h

theorem Sound.step (hk : k.Sound) (h : k.step e = some k') : k'.Sound := by
  cases e with
  | start =>
    obtain ⟨hcall, h⟩ := Option.ite_none_right_eq_some.mp h
    obtain rfl := Option.some.inj h
    exact { hk with
      joined := fun _ => rfl
      running := fun _ => rfl
      reported := fun hr => absurd hcall (hk.reported hr).2
      stopping := fun _ => .inl rfl
      calling := fun h => absurd rfl h
      linked := fun h => by cases h
      unlinking := fun h => by cases h
      flushed := fun h => by cases h <;> contradiction }
  | stop =>
    obtain ⟨hcall, h⟩ := Option.ite_none_right_eq_some.mp h
    obtain rfl := Option.some.inj h
    exact { hk with
      running := fun h => by cases h
      reported := fun hr => ⟨(hk.reported hr).1, by simp⟩
      stopping := fun _ => .inr (.inl rfl)
      calling := fun _ => rfl
      linked := fun h => by cases h
      unlinking := fun h => by cases h
      flushed := fun h => by cases h <;> contradiction }
  | flush =>
    obtain ⟨hcall, h⟩ := Option.ite_none_right_eq_some.mp h
    obtain rfl := Option.some.inj h
    exact { hk with
      reported := fun hr => ⟨(hk.reported hr).1, by simp⟩
      stopping := fun _ => .inr (.inr rfl)
      calling := fun _ => hk.calling (by simp [hcall])
      linked := fun h => by cases h
      unlinking := fun h => by cases h
      flushed := fun _ => rfl
      bounded := fun _ => Nat.zero_le _ }
  | join =>
    simp only [LinkedSink.step, join] at h
    split at h
    · rename_i hcall hthread
      obtain rfl := Option.some.inj h
      exact { hk with
        reported := fun hr => ⟨(hk.reported hr).1, by simp⟩
        stopping := fun hne => absurd hthread hne
        calling := fun _ => hk.calling (by simp [hcall])
        linked := fun h => by cases h
        unlinking := fun _ => hthread
        flushed := fun _ => hk.flushed (.inl hcall) }
    · cases h
  | loop =>
    simp only [LinkedSink.step, loop] at h
    split at h
    · rename_i hthread
      obtain rfl := Option.some.inj h
      exact hk.withThread (by simp [hthread]) _
    · cases h
  | pop =>
    obtain ⟨hthread, h⟩ := pop_cases h
    have hgoes : k.thread ≠ .ended := by simp [hthread]
    obtain ⟨frame, rest, hq, rfl⟩ | ⟨-, -, rfl⟩ := h
    · have hbounded : k.droppable = false → rest.length ≤ MediaFrameQueue.maxItems := fun hnd => by
        have := hk.bounded hnd
        rw [hq, List.length_cons] at this
        exact Nat.le_of_succ_le this
      have hsound : Sound { k with queue := { k.queue with queue := rest } } := hk.withQueue id rfl rfl hbounded
      exact hsound.withThread hgoes (.processing frame)
    · have hlinked : k.call ≠ .linked := fun hcall => by
        have := hk.joined hgoes
        simp [hk.linked hcall] at this
      exact { hk.withThread hgoes .ended with reported := fun _ => ⟨rfl, hlinked⟩ }
  | process ok =>
    simp only [LinkedSink.step, process] at h
    split at h
    · rename_i frame hthread
      obtain rfl := Option.some.inj h
      have hgoes : k.thread ≠ .ended := by simp [hthread]
      have hsound : Sound { k with queue := if ok then k.queue else k.queue.setEos true } := by
        cases ok with
        | true => exact hk
        | false => exact hk.withQueue id rfl rfl hk.bounded
      exact { hsound.withThread hgoes .looping with }
    · cases h

/-- What a sink does by itself takes no frame away from what it has seen, but for the flush. -/
theorem step_seen (hk : k.Sound) (h : k.step e = some k') :
    k'.since = k.since ∧ k'.droppable = k.droppable ∧
      ((k'.seen = k.seen ∧ k'.queue.flushing = k.queue.flushing) ∨
        (k'.seen.Sublist k.seen ∧ k'.queue.flushing = true)) := by
  cases e with
  | start =>
    obtain ⟨hcall, h⟩ := Option.ite_none_right_eq_some.mp h
    obtain rfl := Option.some.inj h
    have hended : k.thread = .ended := by
      by_contra hne
      simpa [hk.linked hcall] using hk.joined hne
    exact ⟨rfl, rfl, .inl ⟨by simp [seen, hended, SinkThread.hand], rfl⟩⟩
  | stop =>
    obtain ⟨-, h⟩ := Option.ite_none_right_eq_some.mp h
    obtain rfl := Option.some.inj h
    exact ⟨rfl, rfl, .inl ⟨rfl, rfl⟩⟩
  | flush =>
    obtain ⟨-, h⟩ := Option.ite_none_right_eq_some.mp h
    obtain rfl := Option.some.inj h
    exact ⟨rfl, rfl, .inr ⟨List.Sublist.append_left (List.nil_sublist _) _, rfl⟩⟩
  | join =>
    simp only [step, join] at h
    split at h
    · obtain rfl := Option.some.inj h
      exact ⟨rfl, rfl, .inl ⟨rfl, rfl⟩⟩
    · cases h
  | loop =>
    simp only [step, loop] at h
    split at h
    · rename_i hthread
      obtain rfl := Option.some.inj h
      refine ⟨rfl, rfl, .inl ⟨?_, rfl⟩⟩
      cases hr : k.running <;> simp [seen, hthread, SinkThread.hand]
    · cases h
  | pop =>
    obtain ⟨hthread, ⟨frame, rest, hq, rfl⟩ | ⟨hq, -, rfl⟩⟩ := pop_cases h
    · exact ⟨rfl, rfl, .inl ⟨by simp [seen, hthread, hq, SinkThread.hand], rfl⟩⟩
    · exact ⟨rfl, rfl, .inl ⟨by simp [seen, hthread, SinkThread.hand], rfl⟩⟩
  | process ok =>
    simp only [step, process] at h
    split at h
    · rename_i frame hthread
      obtain rfl := Option.some.inj h
      refine ⟨rfl, rfl, .inl ?_⟩
      cases ok <;> simp [seen, hthread, SinkThread.hand, Queue.setEos]
    · cases h

/-- What a sink does by itself puts nothing into its queue, and only the flush makes it flushed. -/
theorem step_queue (h : k.step e = some k') :
    (k'.queue.queue <:+ k.queue.queue ∧ k'.queue.flushing = k.queue.flushing) ∨ k'.queue.queue = [] := by
  cases e with
  | start | stop =>
    obtain ⟨-, h⟩ := Option.ite_none_right_eq_some.mp h
    obtain rfl := Option.some.inj h
    exact .inl ⟨List.suffix_rfl, rfl⟩
  | flush =>
    obtain ⟨-, h⟩ := Option.ite_none_right_eq_some.mp h
    obtain rfl := Option.some.inj h
    exact .inr rfl
  | pop =>
    obtain ⟨-, ⟨frame, rest, hq, rfl⟩ | ⟨-, -, rfl⟩⟩ := pop_cases h
    · exact .inl ⟨hq ▸ List.suffix_cons frame rest, rfl⟩
    · exact .inl ⟨List.suffix_rfl, rfl⟩
  | join =>
    simp only [step, join] at h
    split at h
    · obtain rfl := Option.some.inj h
      exact .inl ⟨List.suffix_rfl, rfl⟩
    · cases h
  | loop =>
    simp only [step, loop] at h
    split at h
    · obtain rfl := Option.some.inj h
      exact .inl ⟨List.suffix_rfl, rfl⟩
    · cases h
  | process ok =>
    simp only [step, process] at h
    split at h
    · obtain rfl := Option.some.inj h
      cases ok <;> exact .inl ⟨List.suffix_rfl, rfl⟩
    · cases h

/-- A sink that is linked stays started, or on its way. -/
theorem step_linked (h : k.step e = some k') (hk : k.started = true ∨ k.call ≠ .idle) :
    k'.started = true ∨ k'.call ≠ .idle := by
  cases e with
  | start | stop | flush =>
    obtain ⟨-, h⟩ := Option.ite_none_right_eq_some.mp h
    obtain rfl := Option.some.inj h
    simp
  | pop =>
    obtain ⟨-, ⟨frame, rest, -, rfl⟩ | ⟨-, -, rfl⟩⟩ := pop_cases h <;> exact hk
  | join =>
    simp only [step, join] at h
    split at h
    · obtain rfl := Option.some.inj h
      simp
    · cases h
  | loop =>
    simp only [step, loop] at h
    split at h
    · obtain rfl := Option.some.inj h
      exact hk
    · cases h
  | process ok =>
    simp only [step, process] at h
    split at h
    · obtain rfl := Option.some.inj h
      exact hk
    · cases h

end LinkedSink

/-! ### What a step can do -/

namespace Multiqueue
variable {κ α : Type*} [LinearOrder κ] {c : CanDrop α} {m n : Multiqueue κ α} {e : Event κ α} {i j : κ}

@[simp] theorem setSink_self (m : Multiqueue κ α) (i : κ) (k : LinkedSink α) : (m.setSink i k).sinks i = k :=
  Function.update_self ..

@[simp] theorem setSink_thread (m : Multiqueue κ α) (i : κ) (k : LinkedSink α) : (m.setSink i k).thread = m.thread := rfl

@[simp] theorem setSink_sinkQueueMap (m : Multiqueue κ α) (i : κ) (k : LinkedSink α) :
    (m.setSink i k).sinkQueueMap = m.sinkQueueMap := rfl

@[simp] theorem setSink_pushed (m : Multiqueue κ α) (i : κ) (k : LinkedSink α) : (m.setSink i k).pushed = m.pushed := rfl

theorem setSink_ne (hj : j ≠ i) (k : LinkedSink α) : (m.setSink i k).sinks j = m.sinks j :=
  Function.update_of_ne hj ..

theorem mapQueues_sinks (m : Multiqueue κ α) (f : Queue α → Queue α) (i : κ) :
    (m.mapQueues f).sinks i = m.sinks i ∨
      (m.mapQueues f).sinks i = { m.sinks i with queue := f (m.sinks i).queue } := by
  by_cases hi : i ∈ m.sinkQueueMap
  · exact .inr (if_pos hi)
  · exact .inl (if_neg hi)

/-- A step of the thread of the source, or of its stream, that concerns no sink. -/
structure SourceOnly (m n : Multiqueue κ α) : Prop where
  sinkQueueMap : n.sinkQueueMap = m.sinkQueueMap
  sinks : n.sinks = m.sinks
  pushed : n.pushed = m.pushed
  left : n.thread.left = m.thread.left
  coming : ∀ i, n.thread.coming i = m.thread.coming i
  late : ∀ i, n.thread.late i ≠ [] → n.thread.late i = m.thread.late i ∨ (m.sinks i).queue.flushing = false

/-- A step of the source that has nothing to push before and after it. -/
theorem SourceOnly.of_left (hmap : n.sinkQueueMap = m.sinkQueueMap) (hsinks : n.sinks = m.sinks)
    (hpushed : n.pushed = m.pushed) (hm : m.thread.left = []) (hn : n.thread.left = []) : SourceOnly m n := by
  have hm' (i : κ) : i ∉ m.thread.left := hm ▸ List.not_mem_nil
  have hn' (i : κ) : i ∉ n.thread.left := hn ▸ List.not_mem_nil
  refine ⟨hmap, hsinks, hpushed, hn.trans hm.symm, fun i => ?_, fun i hi => absurd (SourceThread.late_eq_nil (hn' i)) hi⟩
  rw [SourceThread.coming_eq_nil (hn' i), SourceThread.coming_eq_nil (hm' i)]

/-- A push that returns: the item is refused, or stored. -/
def Returns (c : CanDrop α) (m n : Multiqueue κ α) (frame : α) (i : κ) (left : List κ) : Prop :=
  ((m.sinks i).queue.flushing = true ∧ m.thread = .pushing frame (i :: left) ∧
      n = m.returned frame i left ((m.sinks i).queue.refuse frame)) ∨
    ((m.sinks i).queue.canPush = true ∧
      ((m.sinks i).queue.flushing = false ∧ m.thread = .pushing frame (i :: left) ∨ m.thread = .waiting frame i left) ∧
      n = m.returned frame i left ((m.sinks i).queue.store c frame))

theorem Returns.left {frame : α} {left : List κ} (h : Returns c m n frame i left) : m.thread.left = i :: left := by
  obtain ⟨-, ht, -⟩ | ⟨-, ⟨-, ht⟩ | ht, -⟩ := h <;> rw [ht] <;> rfl

theorem push_cases (h : m.push c = some n) : SourceOnly m n ∨ ∃ frame i left, Returns c m n frame i left := by
  unfold push at h
  split at h
  · rename_i frame i left hthread
    cases hf : (m.sinks i).queue.flushing with
    | true =>
      simp only [hf, if_true, Option.some.injEq] at h
      exact .inr ⟨frame, i, left, .inl ⟨hf, hthread, h.symm⟩⟩
    | false =>
      cases hc : (m.sinks i).queue.canPush with
      | true =>
        simp only [hf, hc, Bool.false_eq_true, if_false, if_true, Option.some.injEq] at h
        exact .inr ⟨frame, i, left, .inr ⟨hc, .inl ⟨hf, hthread⟩, h.symm⟩⟩
      | false =>
        simp only [hf, hc, Bool.false_eq_true, if_false, Option.some.injEq] at h
        subst h
        refine .inl ⟨rfl, rfl, rfl, by rw [hthread]; rfl, fun j => by rw [hthread]; rfl, fun j hj => .inr ?_⟩
        obtain rfl : j = i := by
          by_contra hne
          simp [SourceThread.late, hne] at hj
        exact hf
  · cases h

theorem wakePush_cases (h : m.wakePush c = some n) : ∃ frame i left, Returns c m n frame i left := by
  unfold wakePush at h
  split at h
  · rename_i frame i left hthread
    obtain ⟨hc, h⟩ := Option.ite_none_right_eq_some.mp h
    exact ⟨frame, i, left, .inr ⟨hc, .inr hthread, (Option.some.inj h).symm⟩⟩
  · cases h

/-- The source stands where it tells the linked sinks of the end, or where they are flushed. -/
def Tells (m n : Multiqueue κ α) (f : Queue α → Queue α) : Prop :=
  m.thread.left = [] ∧ n.thread.left = [] ∧ n.sinkQueueMap = m.sinkQueueMap ∧ n.pushed = m.pushed ∧
    n.sinks = (m.mapQueues f).sinks

/-- What a step can do; `ended` says that the source's thread does not run before it is started. -/
theorem step_cases (hended : m.started = false → m.thread = .ended) (h : m.step c e = some n) :
    SourceOnly m n ∨ (∃ frame i left, Returns c m n frame i left) ∨
      (∃ frame, m.thread = .pulled frame ∧
        n = { m with thread := .pushing frame m.sinkQueueMap, pushed := m.pushed ++ [frame] }) ∨
      ((e = .sourceError ∧ Tells m n (Queue.setEos true)) ∨ (e = .flushSource ∧ Tells m n Queue.flush)) ∨
      (∃ i, e = .linkSink i ∧ m.linkSink i = some n) ∨ (∃ i, e = .unlinkSink i ∧ m.unlinkSink i = some n) ∨
      ∃ i a k, e = .sink i a ∧ (m.sinks i).step a = some k ∧ n = m.setSink i k := by
  cases e with
  | startSource =>
    obtain ⟨⟨hstarted, -, -⟩, h⟩ := Option.ite_none_right_eq_some.mp h
    obtain rfl := Option.some.inj h
    exact .inl (.of_left rfl rfl rfl (by rw [hended hstarted]; rfl) rfl)
  | stopSource =>
    obtain ⟨-, h⟩ := Option.ite_none_right_eq_some.mp h
    obtain rfl := Option.some.inj h
    exact .inl ⟨rfl, rfl, rfl, rfl, fun _ => rfl, fun _ _ => .inl rfl⟩
  | flushSource =>
    obtain ⟨⟨-, hlocks⟩, h⟩ := Option.ite_none_right_eq_some.mp h
    obtain rfl := Option.some.inj h
    have hleft : m.thread.left = [] := SourceThread.left_of_not_locks hlocks
    exact .inr (.inr (.inr (.inl (.inr ⟨rfl, hleft, hleft, rfl, rfl, rfl⟩))))
  | joinSource =>
    simp only [step, joinSource] at h
    split at h
    · rename_i hthread
      obtain rfl := Option.some.inj h
      exact .inl (.of_left rfl rfl rfl (by rw [hthread]; rfl) (by rw [hthread]; rfl))
    · cases h
  | sourceLoop =>
    simp only [step, sourceLoop] at h
    split at h
    · rename_i hthread
      obtain rfl := Option.some.inj h
      refine .inl (.of_left rfl rfl rfl (by rw [hthread]; rfl) ?_)
      cases m.running <;> rfl
    · cases h
  | pullFrame frame =>
    simp only [step, pullFrame] at h
    split at h
    · rename_i hthread
      obtain rfl := Option.some.inj h
      refine .inl (.of_left rfl rfl rfl (by rw [hthread]; rfl) ?_)
      cases frame <;> rfl
    · cases h
  | sourceError =>
    simp only [step, sourceError] at h
    split at h
    · rename_i hthread
      obtain rfl := Option.some.inj h
      exact .inr (.inr (.inr (.inl (.inl ⟨rfl, by rw [hthread]; rfl, rfl, rfl, rfl, rfl⟩))))
    · cases h
  | pushFrameAll =>
    simp only [step, pushFrameAll] at h
    split at h
    · rename_i frame hthread
      exact .inr (.inr (.inl ⟨frame, hthread, (Option.some.inj h).symm⟩))
    · rename_i frame hthread
      obtain rfl := Option.some.inj h
      exact .inl (.of_left rfl rfl rfl (by rw [hthread]; rfl) rfl)
    · cases h
  | push => exact (push_cases h).imp_right .inl
  | wakePush => exact .inr (.inl (wakePush_cases h))
  | linkSink i => exact .inr (.inr (.inr (.inr (.inl ⟨i, rfl, h⟩))))
  | unlinkSink i => exact .inr (.inr (.inr (.inr (.inr (.inl ⟨i, rfl, h⟩)))))
  | sink i a =>
    obtain ⟨k, hk, rfl⟩ := Option.map_eq_some_iff.mp h
    exact .inr (.inr (.inr (.inr (.inr (.inr ⟨i, a, k, rfl, hk, rfl⟩)))))

/-! ### What every step keeps -/

/-- A step of the source's thread. -/
def Event.ofSource : Event κ α → Bool
  | .sourceLoop | .pullFrame _ | .sourceError | .pushFrameAll | .push | .wakePush => true
  | _ => false

/-- What the thread of a source leaves to its stream. -/
structure Runs (m n : Multiqueue κ α) : Prop where
  thread : m.thread ≠ .ended
  started : n.started = m.started
  call : n.call = m.call
  running : n.running = true → m.running = true

theorem push_runs (h : m.push c = some n) : Runs m n := by
  unfold push at h
  split at h
  · rename_i hthread
    have hne : m.thread ≠ .ended := by simp [hthread]
    dsimp only at h
    split at h
    · obtain rfl := Option.some.inj h
      exact ⟨hne, rfl, rfl, id⟩
    · split at h
      · obtain rfl := Option.some.inj h
        exact ⟨hne, rfl, rfl, id⟩
      · obtain rfl := Option.some.inj h
        exact ⟨hne, rfl, rfl, id⟩
  · cases h

theorem runs_of_ofSource (he : e.ofSource = true) (h : m.step c e = some n) : Runs m n := by
  cases e with
  | sourceLoop =>
    simp only [step, sourceLoop] at h
    split at h
    · obtain rfl := Option.some.inj h
      exact ⟨by simp [*], rfl, rfl, id⟩
    · cases h
  | pullFrame frame =>
    simp only [step, pullFrame] at h
    split at h
    · obtain rfl := Option.some.inj h
      exact ⟨by simp [*], rfl, rfl, id⟩
    · cases h
  | sourceError =>
    simp only [step, sourceError] at h
    split at h
    · obtain rfl := Option.some.inj h
      exact ⟨by simp [*], rfl, rfl, fun hr => by cases hr⟩
    · cases h
  | pushFrameAll =>
    simp only [step, pushFrameAll] at h
    split at h
    · obtain rfl := Option.some.inj h
      exact ⟨by simp [*], rfl, rfl, id⟩
    · obtain rfl := Option.some.inj h
      exact ⟨by simp [*], rfl, rfl, id⟩
    · cases h
  | push => exact push_runs h
  | wakePush =>
    simp only [step, wakePush] at h
    split at h
    · obtain ⟨-, h⟩ := Option.ite_none_right_eq_some.mp h
      obtain rfl := Option.some.inj h
      exact ⟨by simp [*], rfl, rfl, id⟩
    · cases h
  | _ => cases he

/-- Only the thread itself ends, and it is joined before it is started again; a source that is being stopped does not
run. -/
structure Stream (m : Multiqueue κ α) : Prop where
  ended : m.started = false → m.thread = .ended
  stopped : m.call ≠ .idle → m.running = false

theorem Stream.step (hm : m.Stream) (h : m.step c e = some n) : n.Stream := by
  cases e with
  | startSource =>
    obtain ⟨⟨-, -, hcall⟩, h⟩ := Option.ite_none_right_eq_some.mp h
    obtain rfl := Option.some.inj h
    refine ⟨fun hn => ?_, fun hn => absurd hcall hn⟩
    cases hn
  | stopSource =>
    obtain ⟨-, h⟩ := Option.ite_none_right_eq_some.mp h
    obtain rfl := Option.some.inj h
    exact ⟨hm.ended, fun _ => rfl⟩
  | flushSource =>
    obtain ⟨⟨hcall, -⟩, h⟩ := Option.ite_none_right_eq_some.mp h
    obtain rfl := Option.some.inj h
    exact ⟨hm.ended, fun _ => hm.stopped (by simp [hcall])⟩
  | joinSource =>
    simp only [Multiqueue.step, joinSource] at h
    split at h
    · rename_i hthread
      obtain rfl := Option.some.inj h
      exact ⟨fun _ => hthread, fun hn => absurd rfl hn⟩
    · cases h
  | linkSink | unlinkSink =>
    obtain ⟨-, h⟩ := Option.ite_none_right_eq_some.mp h
    obtain rfl := Option.some.inj h
    exact ⟨hm.ended, hm.stopped⟩
  | sink =>
    obtain ⟨k, -, rfl⟩ := Option.map_eq_some_iff.mp h
    exact ⟨hm.ended, hm.stopped⟩
  | sourceLoop | pullFrame | sourceError | pushFrameAll | push | wakePush =>
    have hr := runs_of_ofSource rfl h
    refine ⟨fun hn => absurd (hm.ended (hr.started ▸ hn)) hr.thread, fun hn => ?_⟩
    by_contra hrunning
    have := hr.running (by simpa using hrunning)
    simp [hm.stopped (hr.call ▸ hn)] at this

/-- The threads run only while they are started, a frame is pushed to linked sinks and to each once, and a queue that
was flushed gets no more than the frame that waited for it. -/
structure Sound (m : Multiqueue κ α) : Prop where
  stream : m.Stream
  nodup : m.sinkQueueMap.Nodup
  left : m.thread.left <:+ m.sinkQueueMap
  linked : ∀ i ∈ m.sinkQueueMap, (m.sinks i).started = true ∨ (m.sinks i).call ≠ .idle
  sinks : ∀ i, (m.sinks i).Sound
  late : ∀ i, (m.sinks i).queue.flushing = true → ((m.sinks i).queue.queue ++ m.thread.late i).length ≤ 1

theorem sound_start (droppable : κ → Bool) : (start droppable : Multiqueue κ α).Sound where
  stream := ⟨fun _ => rfl, fun h => absurd rfl h⟩
  nodup := List.nodup_nil
  left := List.suffix_rfl
  linked _ hi := absurd hi List.not_mem_nil
  sinks _ := {
    joined := fun h => absurd rfl h
    running := fun h => by cases h
    reported := fun h => by cases h
    stopping := fun h => absurd rfl h
    calling := fun _ => rfl
    linked := fun h => by cases h
    unlinking := fun h => by cases h
    flushed := fun h => by cases h <;> contradiction
    drop := rfl
    direction := rfl
    bounded := fun _ => Nat.zero_le _ }
  late _ h := by cases h

theorem SourceThread.late_length (t : SourceThread κ α) (i : κ) : (t.late i).length ≤ 1 := by
  cases t with
  | waiting frame j left =>
    rw [SourceThread.late]
    split <;> simp
  | _ => simp [SourceThread.late]

theorem Sound.sourceOnly (hm : m.Sound) (hstream : n.Stream) (hs : SourceOnly m n) :
    n.Sound := by
  refine ⟨hstream, hs.sinkQueueMap ▸ hm.nodup, ?_, ?_, fun i => hs.sinks ▸ hm.sinks i, fun i hi => ?_⟩
  · rw [hs.left, hs.sinkQueueMap]
    exact hm.left
  · rw [hs.sinkQueueMap, hs.sinks]
    exact hm.linked
  · rw [hs.sinks] at hi ⊢
    have hlate := hm.late i hi
    rw [List.length_append] at hlate ⊢
    by_cases hnil : n.thread.late i = []
    · rw [hnil, List.length_nil]
      omega
    · obtain heq | hf := hs.late i hnil
      · rwa [heq]
      · rw [hi] at hf
        cases hf

/-- Where nothing is late, what a flushed queue has is bounded as it was. -/
theorem Sound.queue_length (hm : m.Sound) (hi : (m.sinks i).queue.flushing = true) :
    (m.sinks i).queue.queue.length ≤ 1 := by
  have := hm.late i hi
  rw [List.length_append] at this
  omega

theorem Sound.returns (hm : m.Sound) (hstream : n.Stream) {frame : α} {left : List κ}
    (hr : Returns c m n frame j left) : n.Sound := by
  obtain ⟨p, rfl, hp, hbounded⟩ : ∃ p, n = m.returned frame j left p ∧
      ((m.sinks j).queue.flushing = true → p.queue.length ≤ 1) ∧
        ((m.sinks j).droppable = false → p.queue.length ≤ MediaFrameQueue.maxItems) := by
    have hbounded (hroom : (m.sinks j).queue.canPush = true) (hnd : (m.sinks j).droppable = false) :
        ((m.sinks j).queue.store c frame).queue.length ≤ MediaFrameQueue.maxItems := by
      have hdrop : (m.sinks j).queue.drop = false := (hm.sinks j).drop.trans hnd
      rw [Queue.store_of_not_drop hdrop (hm.sinks j).direction, List.length_append, List.length_singleton]
      simp only [Queue.canPush, Queue.full, hdrop, Bool.or_false, Bool.not_eq_true', decide_eq_false_iff_not] at hroom
      omega
    obtain ⟨hf, -, rfl⟩ | ⟨hroom, ⟨hf, -⟩ | hthread, rfl⟩ := hr
    · exact ⟨_, rfl, fun hf => hm.queue_length hf, (hm.sinks j).bounded⟩
    · refine ⟨_, rfl, fun hf' => ?_, hbounded hroom⟩
      rw [hf] at hf'
      cases hf'
    · refine ⟨_, rfl, fun hf => ?_, hbounded hroom⟩
      have hlate := hm.late j hf
      rw [hthread, SourceThread.late, if_pos rfl, List.length_append, List.length_singleton] at hlate
      have hnil : (m.sinks j).queue.queue = [] := List.length_eq_zero_iff.mp (by omega)
      rw [Queue.store_of_nil hnil (hm.sinks j).direction]
      exact Nat.le_refl 1
  have hleft : left <:+ m.sinkQueueMap := (List.suffix_cons j left).trans (hr.left ▸ hm.left)
  refine ⟨hstream, hm.nodup, hleft, fun i hi => ?_, fun i => ?_, fun i hi => ?_⟩
  · by_cases hij : i = j
    · subst hij
      simpa [returned] using hm.linked i hi
    · simpa [returned, setSink_ne hij] using hm.linked i hi
  · by_cases hij : i = j
    · subst hij
      simp only [returned, setSink_self]
      exact (hm.sinks i).withQueue id rfl rfl hbounded
    · simpa [returned, setSink_ne hij] using hm.sinks i
  · have hlate : (m.returned frame j left p).thread.late i = [] := rfl
    rw [hlate, List.append_nil]
    by_cases hij : i = j
    · subst hij
      simp only [returned, setSink_self, Queue.apply_flushing] at hi ⊢
      exact hp hi
    · simp only [returned, setSink_ne hij] at hi ⊢
      exact hm.queue_length hi

theorem Sound.tells (hm : m.Sound) (hstream : n.Stream) {f : Queue α → Queue α}
    (ht : Tells m n f) (hf : f = Queue.setEos true ∨ f = Queue.flush) : n.Sound := by
  obtain ⟨-, hleft, hmap, -, hsinks⟩ := ht
  have hcases (i : κ) := hsinks ▸ mapQueues_sinks m f i
  refine ⟨hstream, hmap ▸ hm.nodup, hleft ▸ List.nil_suffix, fun i hi => ?_, fun i => ?_, fun i hi => ?_⟩
  · rw [hmap] at hi
    obtain hi' | hi' := hcases i
    · rw [hi']
      exact hm.linked i hi
    · rw [hi']
      exact hm.linked i hi
  · obtain hi' | hi' := hcases i
    · exact hi' ▸ hm.sinks i
    · rw [hi']
      obtain rfl | rfl := hf
      · exact (hm.sinks i).withQueue id rfl rfl (hm.sinks i).bounded
      · exact (hm.sinks i).withQueue (fun _ => rfl) rfl rfl fun _ => Nat.zero_le _
  · rw [SourceThread.late_eq_nil (hleft ▸ List.not_mem_nil), List.append_nil]
    obtain hi' | hi' := hcases i
    · rw [hi'] at hi ⊢
      exact hm.queue_length hi
    · rw [hi'] at hi ⊢
      obtain rfl | rfl := hf
      · exact hm.queue_length hi
      · exact Nat.zero_le 1

/-- What a sink does by itself. -/
theorem Sound.sink (hm : m.Sound) {a : LinkedSink.Event} {k : LinkedSink α} (hk : (m.sinks j).step a = some k) :
    (m.setSink j k).Sound := by
  refine ⟨⟨hm.stream.ended, hm.stream.stopped⟩, hm.nodup, hm.left, fun i hi => ?_, fun i => ?_, fun i hi => ?_⟩
  · by_cases hij : i = j
    · subst hij
      rw [setSink_self]
      exact LinkedSink.step_linked hk (hm.linked i hi)
    · rw [setSink_ne hij]
      exact hm.linked i hi
  · by_cases hij : i = j
    · subst hij
      rw [setSink_self]
      exact (hm.sinks i).step hk
    · rw [setSink_ne hij]
      exact hm.sinks i
  · by_cases hij : i = j
    · subst hij
      rw [setSink_self] at hi ⊢
      obtain ⟨hsuffix, hflushing⟩ | hnil := LinkedSink.step_queue hk
      · have hlate := hm.late i (hflushing ▸ hi)
        have := hsuffix.length_le
        rw [List.length_append] at hlate ⊢
        change _ + (m.thread.late i).length ≤ 1
        omega
      · rw [hnil, List.nil_append]
        exact SourceThread.late_length m.thread i
    · rw [setSink_ne hij] at hi ⊢
      exact hm.late i hi

theorem Sound.linkSink (hm : m.Sound) (h : m.linkSink j = some n) : n.Sound := by
  obtain ⟨⟨hstarted, hcall, hlocks⟩, h⟩ := Option.ite_none_right_eq_some.mp h
  obtain rfl := Option.some.inj h
  have hj : j ∉ m.sinkQueueMap := fun hj => by simpa [hstarted, hcall] using hm.linked j hj
  have hthread : (m.sinks j).thread = .ended := by
    by_contra hne
    simpa [hstarted] using (hm.sinks j).joined hne
  have hrunning : (m.sinks j).running = false := by
    by_contra hne
    simpa [hstarted] using (hm.sinks j).running (by simpa using hne)
  have hleft : m.thread.left = [] := SourceThread.left_of_not_locks hlocks
  refine ⟨⟨hm.stream.ended, hm.stream.stopped⟩, ?_, hleft ▸ List.nil_suffix, fun i hi => ?_, fun i => ?_,
    fun i hi => ?_⟩
  · exact (List.perm_orderedInsert _ j _).nodup_iff.mpr (List.nodup_cons.mpr ⟨hj, hm.nodup⟩)
  · by_cases hij : i = j
    · subst hij
      simp
    · have hi : i ∈ m.sinkQueueMap := (List.mem_orderedInsert _).mp hi |>.resolve_left hij
      simpa [setSink_ne hij] using hm.linked i hi
  · by_cases hij : i = j
    · subst hij
      simp only [setSink_self]
      exact {
        joined := fun hne => absurd hthread hne
        running := fun h => by rw [hrunning] at h; cases h
        reported := fun h => by cases h
        stopping := fun hne => absurd hthread hne
        calling := fun _ => hrunning
        linked := fun _ => hstarted
        unlinking := fun h => by cases h
        flushed := fun h => by cases h <;> contradiction
        drop := rfl
        direction := rfl
        bounded := fun _ => Nat.zero_le _ }
    · simpa [setSink_ne hij] using hm.sinks i
  · by_cases hij : i = j
    · subst hij
      simp [Queue.new] at hi
    · have hlate := hm.late i (by simpa [setSink_ne hij] using hi)
      simpa [setSink_ne hij] using hlate

theorem Sound.unlinkSink (hm : m.Sound) (h : m.unlinkSink j = some n) : n.Sound := by
  obtain ⟨⟨hcall, hlocks⟩, h⟩ := Option.ite_none_right_eq_some.mp h
  obtain rfl := Option.some.inj h
  have hthread : (m.sinks j).thread = .ended := (hm.sinks j).unlinking hcall
  have hleft : m.thread.left = [] := SourceThread.left_of_not_locks hlocks
  refine ⟨⟨hm.stream.ended, hm.stream.stopped⟩, hm.nodup.erase j, hleft ▸ List.nil_suffix, fun i hi => ?_,
    fun i => ?_, fun i hi => ?_⟩
  · obtain ⟨hij, hi⟩ := hm.nodup.mem_erase_iff.mp hi
    simpa [setSink_ne hij] using hm.linked i hi
  · by_cases hij : i = j
    · subst hij
      simp only [setSink_self]
      exact { hm.sinks i with
        joined := fun hne => absurd hthread hne
        running := fun h => by rw [(hm.sinks i).calling (by simp [hcall])] at h; cases h
        reported := fun h => ⟨hthread, by simp⟩
        stopping := fun hne => absurd hthread hne
        calling := fun h => absurd rfl h
        linked := fun h => by cases h
        unlinking := fun h => by cases h
        flushed := fun h => by cases h <;> contradiction }
    · simpa [setSink_ne hij] using hm.sinks i
  · by_cases hij : i = j
    · subst hij
      have hlate := hm.late i (by simpa using hi)
      simpa using hlate
    · have hlate := hm.late i (by simpa [setSink_ne hij] using hi)
      simpa [setSink_ne hij] using hlate

theorem Sound.step (hm : m.Sound) (h : m.step c e = some n) : n.Sound := by
  have hstream := hm.stream.step h
  obtain hs | ⟨frame, j, left, hr⟩ | ⟨frame, hthread, rfl⟩ | ht | ⟨j, rfl, h⟩ | ⟨j, rfl, h⟩ | ⟨j, a, k, rfl, hk, rfl⟩ :=
    step_cases hm.stream.ended h
  · exact hm.sourceOnly hstream hs
  · exact hm.returns hstream hr
  · refine ⟨hstream, hm.nodup, List.suffix_rfl, hm.linked, hm.sinks, fun i hi => ?_⟩
    exact (List.append_nil _).symm ▸ hm.queue_length hi
  · obtain ⟨-, ht⟩ | ⟨-, ht⟩ := ht
    · exact hm.tells hstream ht (.inl rfl)
    · exact hm.tells hstream ht (.inr rfl)
  · exact hm.linkSink h
  · exact hm.unlinkSink h
  · exact hm.sink hk

theorem sound_of_exec {droppable : κ → Bool} {es : List (Event κ α)} (he : exec (step c) (start droppable) es = some m) :
    m.Sound :=
  run_invariant (fun _ _ _ hm hs => hm.step hs) (sound_start droppable) he

/-! ### The frames that a sink gets -/

/-- The sink has seen frames of the rounds since it was linked, in order, and all of them where none is dropped and no
flush took some away. -/
structure Delivered (m : Multiqueue κ α) (i : κ) : Prop where
  since : (m.sinks i).since ≤ m.pushed.length
  sublist : ((m.sinks i).seen ++ m.thread.coming i).Sublist (m.pushed.drop (m.sinks i).since)
  exact : i ∈ m.sinkQueueMap → (m.sinks i).droppable = false → (m.sinks i).queue.flushing = false →
    (m.sinks i).seen ++ m.thread.coming i = m.pushed.drop (m.sinks i).since

/-- A step that pushes nothing new. -/
theorem Delivered.frame (hd : m.Delivered i) (hpushed : n.pushed = m.pushed)
    (hsince : (n.sinks i).since = (m.sinks i).since) (hdrop : (n.sinks i).droppable = (m.sinks i).droppable)
    (hmap : i ∈ n.sinkQueueMap → i ∈ m.sinkQueueMap)
    (hsub : ((n.sinks i).seen ++ n.thread.coming i).Sublist ((m.sinks i).seen ++ m.thread.coming i))
    (heq : (m.sinks i).droppable = false → (n.sinks i).queue.flushing = false → (m.sinks i).queue.flushing = false ∧
      (n.sinks i).seen ++ n.thread.coming i = (m.sinks i).seen ++ m.thread.coming i) : n.Delivered i where
  since := by
    rw [hsince, hpushed]
    exact hd.since
  sublist := by
    rw [hsince, hpushed]
    exact hsub.trans hd.sublist
  exact hi hnd hf := by
    rw [hdrop] at hnd
    obtain ⟨hf, heq⟩ := heq hnd hf
    rw [hsince, hpushed, heq]
    exact hd.exact (hmap hi) hnd hf

theorem delivered_start (droppable : κ → Bool) (i : κ) : (start droppable : Multiqueue κ α).Delivered i where
  since := Nat.le_refl _
  sublist := List.Sublist.refl _
  exact _ _ _ := rfl

/-- The sink that a push has returned from is not among those that are left. -/
theorem Sound.returned (hm : m.Sound) {frame : α} {left : List κ} (hr : Returns c m n frame j left) : j ∉ left := by
  have hleft := hm.left
  rw [hr.left] at hleft
  exact (List.nodup_cons.mp (hm.nodup.sublist hleft.sublist)).1

theorem Returns.coming_self {frame : α} {left : List κ} (hr : Returns c m n frame j left) (hj : j ∉ left) :
    m.thread.coming j = [frame] ∧ n.thread.coming j = [] := by
  obtain ⟨-, ht, rfl⟩ | ⟨-, ⟨-, ht⟩ | ht, rfl⟩ := hr <;> rw [ht] <;>
    exact ⟨if_pos List.mem_cons_self, if_neg hj⟩

theorem Returns.coming_ne {frame : α} {left : List κ} (hr : Returns c m n frame j left) (hij : i ≠ j) :
    n.thread.coming i = m.thread.coming i := by
  obtain ⟨-, ht, rfl⟩ | ⟨-, ⟨-, ht⟩ | ht, rfl⟩ := hr <;> rw [ht] <;>
    simp [returned, SourceThread.coming, hij]

theorem returned_self (m : Multiqueue κ α) (frame : α) (i : κ) (left : List κ) (p : Queue.Pushed α) :
    (m.returned frame i left p).sinks i = { m.sinks i with queue := (m.sinks i).queue.apply p } :=
  setSink_self m i _

theorem returned_ne (hij : i ≠ j) (frame : α) (left : List κ) (p : Queue.Pushed α) :
    (m.returned frame j left p).sinks i = m.sinks i :=
  setSink_ne hij _

theorem Delivered.returns (hm : m.Sound) (hd : m.Delivered i) {frame : α} {left : List κ}
    (hr : Returns c m n frame j left) : n.Delivered i := by
  obtain ⟨p, rfl, hp⟩ : ∃ p, n = m.returned frame j left p ∧
      ((m.sinks j).queue.flushing = true ∧ p = (m.sinks j).queue.refuse frame ∨ p = (m.sinks j).queue.store c frame) := by
    obtain ⟨hf, -, rfl⟩ | ⟨-, -, rfl⟩ := hr
    · exact ⟨_, rfl, .inl ⟨hf, rfl⟩⟩
    · exact ⟨_, rfl, .inr rfl⟩
  by_cases hij : i = j
  · subst hij
    obtain ⟨hcoming, hnone⟩ := hr.coming_self (hm.returned hr)
    have hs := returned_self m frame i left p
    refine hd.frame rfl (by rw [hs]) (by rw [hs]) id ?_ fun hnd hf => ?_
    · rw [hcoming, hnone, List.append_nil, hs, LinkedSink.seen, LinkedSink.seen, List.append_assoc _ _ [frame]]
      refine List.Sublist.append_left ?_ _
      obtain ⟨-, rfl⟩ | rfl := hp
      · exact List.sublist_append_left _ _
      · exact Queue.store_sublist _ _
    · rw [hs, Queue.apply_flushing] at hf
      obtain ⟨hf', -⟩ | rfl := hp
      · rw [hf] at hf'
        cases hf'
      · have hstore := Queue.store_of_not_drop (c := c) ((hm.sinks i).drop.trans hnd) (hm.sinks i).direction frame
        refine ⟨hf, ?_⟩
        rw [hcoming, hnone, List.append_nil, hs, LinkedSink.seen, LinkedSink.seen, List.append_assoc _ _ [frame]]
        exact congrArg _ hstore
  · have hs := returned_ne (m := m) hij frame left p
    refine hd.frame rfl (by rw [hs]) (by rw [hs]) id ?_ fun _ hf => ?_
    · rw [hs, hr.coming_ne hij]
    · rw [hs] at hf ⊢
      rw [hr.coming_ne hij]
      exact ⟨hf, rfl⟩

/-- A new round: the frame comes to every linked sink. -/
theorem Delivered.round (hd : m.Delivered i) {frame : α} (hthread : m.thread = .pulled frame) :
    Delivered { m with thread := .pushing frame m.sinkQueueMap, pushed := m.pushed ++ [frame] } i := by
  have hnone : m.thread.coming i = [] := by rw [hthread]; rfl
  have hsub := hd.sublist
  rw [hnone, List.append_nil] at hsub
  refine ⟨hd.since.trans (by simp), ?_, fun hi hnd hf => ?_⟩
  · rw [List.drop_append_of_le_length hd.since]
    refine hsub.append ?_
    rw [SourceThread.coming]
    split
    · exact List.Sublist.refl _
    · exact List.nil_sublist _
  · have heq := hd.exact hi hnd hf
    rw [hnone, List.append_nil] at heq
    rw [List.drop_append_of_le_length hd.since, ← heq]
    exact congrArg _ (if_pos hi)

theorem Delivered.tells (hd : m.Delivered i) {f : Queue α → Queue α} (ht : Tells m n f)
    (hf : f = Queue.setEos true ∨ f = Queue.flush) : n.Delivered i := by
  obtain ⟨hleft, hleft', hmap, hpushed, hsinks⟩ := ht
  have hcoming : n.thread.coming i = m.thread.coming i := by
    rw [SourceThread.coming_eq_nil (hleft' ▸ List.not_mem_nil), SourceThread.coming_eq_nil (hleft ▸ List.not_mem_nil)]
  obtain hi | hi := mapQueues_sinks m f i
  · rw [← hsinks] at hi
    refine hd.frame hpushed (by rw [hi]) (by rw [hi]) (hmap ▸ id) (by rw [hi, hcoming]) fun _ hf => ?_
    rw [hi] at hf ⊢
    exact ⟨hf, by rw [hcoming]⟩
  · rw [← hsinks] at hi
    refine hd.frame hpushed (by rw [hi]) (by rw [hi]) (hmap ▸ id) ?_ fun _ hflushing => ?_
    · rw [hi, hcoming]
      refine List.Sublist.append_right (List.Sublist.append_left ?_ _) _
      obtain rfl | rfl := hf
      · exact List.Sublist.refl _
      · exact List.nil_sublist _
    · rw [hi] at hflushing ⊢
      obtain rfl | rfl := hf
      · exact ⟨hflushing, by rw [hcoming]; rfl⟩
      · cases hflushing

theorem Delivered.sink (hm : m.Sound) (hd : m.Delivered i) {a : LinkedSink.Event} {k : LinkedSink α}
    (hk : (m.sinks j).step a = some k) : (m.setSink j k).Delivered i := by
  by_cases hij : i = j
  · subst hij
    obtain ⟨hsince, hdrop, hseen⟩ := LinkedSink.step_seen (hm.sinks i) hk
    refine hd.frame rfl (by rw [setSink_self, hsince]) (by rw [setSink_self, hdrop]) id ?_ fun _ hf => ?_
    · rw [setSink_self]
      obtain ⟨hseen, -⟩ | ⟨hseen, -⟩ := hseen
      · rw [hseen]
        exact List.Sublist.refl _
      · exact hseen.append_right _
    · rw [setSink_self] at hf ⊢
      obtain ⟨hseen, hflushing⟩ | ⟨-, hflushing⟩ := hseen
      · exact ⟨hflushing ▸ hf, congrArg (· ++ _) hseen⟩
      · rw [hf] at hflushing
        cases hflushing
  · have hs := setSink_ne (m := m) hij k
    refine hd.frame rfl (by rw [hs]) (by rw [hs]) id (by rw [hs]; rfl) fun _ hf => ?_
    rw [hs] at hf ⊢
    exact ⟨hf, rfl⟩

theorem Delivered.linkSink (hm : m.Sound) (hd : m.Delivered i) (h : m.linkSink j = some n) : n.Delivered i := by
  obtain ⟨⟨hstarted, -, hlocks⟩, h⟩ := Option.ite_none_right_eq_some.mp h
  obtain rfl := Option.some.inj h
  by_cases hij : i = j
  · subst hij
    have hthread : (m.sinks i).thread = .ended := by
      by_contra hne
      simpa [hstarted] using (hm.sinks i).joined hne
    have hleft : m.thread.left = [] := SourceThread.left_of_not_locks hlocks
    have hcoming : m.thread.coming i = [] := SourceThread.coming_eq_nil (hleft ▸ List.not_mem_nil)
    refine ⟨?_, ?_, fun _ _ _ => ?_⟩
    · simp
    · simp [LinkedSink.seen, hthread, SinkThread.hand, Queue.new, hcoming]
    · simp [LinkedSink.seen, hthread, SinkThread.hand, Queue.new, hcoming]
  · have hs {k : LinkedSink α} : (m.setSink j k).sinks i = m.sinks i := setSink_ne hij k
    refine hd.frame rfl (by rw [hs]) (by rw [hs]) (fun hi => ?_) (by rw [hs]; rfl) fun _ hf => ?_
    · exact ((List.mem_orderedInsert _).mp hi).resolve_left hij
    · rw [hs] at hf ⊢
      exact ⟨hf, rfl⟩

theorem Delivered.unlinkSink (hd : m.Delivered i) (h : m.unlinkSink j = some n) : n.Delivered i := by
  obtain ⟨-, h⟩ := Option.ite_none_right_eq_some.mp h
  obtain rfl := Option.some.inj h
  have hmap : i ∈ m.sinkQueueMap.erase j → i ∈ m.sinkQueueMap := List.mem_of_mem_erase
  by_cases hij : i = j
  · subst hij
    exact hd.frame rfl (by simp) (by simp) hmap (by simp [LinkedSink.seen]) fun _ hf =>
      ⟨by simpa using hf, by simp [LinkedSink.seen]⟩
  · have hs {k : LinkedSink α} : (m.setSink j k).sinks i = m.sinks i := setSink_ne hij k
    refine hd.frame rfl (by rw [hs]) (by rw [hs]) hmap (by rw [hs]; rfl) fun _ hf => ?_
    rw [hs] at hf ⊢
    exact ⟨hf, rfl⟩

theorem Delivered.step (hm : m.Sound) (hd : m.Delivered i) (h : m.step c e = some n) : n.Delivered i := by
  obtain hs | ⟨frame, j, left, hr⟩ | ⟨frame, hthread, rfl⟩ | ht | ⟨j, rfl, h⟩ | ⟨j, rfl, h⟩ | ⟨j, a, k, rfl, hk, rfl⟩ :=
    step_cases hm.stream.ended h
  · refine hd.frame hs.pushed (by rw [hs.sinks]) (by rw [hs.sinks]) (hs.sinkQueueMap ▸ id) ?_ fun _ hf => ?_
    · rw [hs.sinks, hs.coming]
    · rw [hs.sinks] at hf ⊢
      exact ⟨hf, by rw [hs.coming]⟩
  · exact hd.returns hm hr
  · exact hd.round hthread
  · obtain ⟨-, ht⟩ | ⟨-, ht⟩ := ht
    · exact hd.tells ht (.inl rfl)
    · exact hd.tells ht (.inr rfl)
  · exact hd.linkSink hm h
  · exact hd.unlinkSink h
  · exact hd.sink hm hk

theorem delivered_of_exec {droppable : κ → Bool} {es : List (Event κ α)}
    (he : exec (step c) (start droppable) es = some m) (i : κ) : m.Sound ∧ m.Delivered i :=
  run_invariant (P := fun m => m.Sound ∧ m.Delivered i) (fun _ _ _ hm hs => ⟨hm.1.step hs, hm.2.step hm.1 hs⟩)
    ⟨sound_start droppable, delivered_start droppable i⟩ he

/-- Whatever the threads and streams do, a sink processes frames that were pushed since it was linked, each once and in
order; and if it does not drop, no frame is missing until its queue is flushed: each one is processed, in the hand of
its thread, in its queue, or still coming. -/
theorem delivered_in_order {droppable : κ → Bool} {es : List (Event κ α)}
    (he : exec (step c) (start droppable) es = some m) (i : κ) :
    ((m.sinks i).processed ++ (m.sinks i).thread.hand ++ (m.sinks i).queue.queue).Sublist
        (m.pushed.drop (m.sinks i).since) ∧
      (i ∈ m.sinkQueueMap → (m.sinks i).droppable = false → (m.sinks i).queue.flushing = false →
        (m.sinks i).processed ++ (m.sinks i).thread.hand ++ (m.sinks i).queue.queue ++ m.thread.coming i =
          m.pushed.drop (m.sinks i).since) := by
  obtain ⟨-, hd⟩ := delivered_of_exec he i
  exact ⟨(List.sublist_append_left _ _).trans hd.sublist, hd.exact⟩

/-- `_can_drop` of the queue of a sink, for frames that are not null. -/
def canDropFrame : CanDrop MediaFrame :=
  ⟨MediaFrameQueue.canDrop, fun _ _ _ => rfl⟩

/-- A video frame of one byte at the given time. -/
def frameAt (pts : ℤ) : MediaFrame := ⟨.video, 1, pts, pts, true, (1, 1000)⟩

/-- One sink is linked after the first frame was pushed, and another one while the second frame is pushed. -/
def twoSinks : List (Event ℕ MediaFrame) :=
  [.startSource, .sourceLoop, .pullFrame (some (frameAt 0)), .pushFrameAll, .pushFrameAll, .linkSink 1,
    .sink 1 .start, .sink 1 .loop, .sourceLoop, .pullFrame (some (frameAt 40)), .linkSink 0, .pushFrameAll, .push,
    .push, .pushFrameAll, .sink 1 .pop, .sourceLoop, .pullFrame (some (frameAt 80)), .pushFrameAll, .push,
    .sink 1 (.process true)]

theorem delivered_in_order_twoSinks :
    ∃ m, exec (step canDropFrame) (start fun _ => false) twoSinks = some m ∧
      (m.sinks 1).processed = [frameAt 40] ∧
        (m.sinks 1).processed ++ (m.sinks 1).thread.hand ++ (m.sinks 1).queue.queue ++ m.thread.coming 1 =
          m.pushed.drop (m.sinks 1).since := by
  have hrun : ∃ m ∈ exec (step canDropFrame) (start fun _ => false) twoSinks,
      (m.sinks 1).processed = [frameAt 40] ∧ 1 ∈ m.sinkQueueMap ∧ (m.sinks 1).droppable = false ∧
        (m.sinks 1).queue.flushing = false := by decide +kernel
  obtain ⟨m, hm, hprocessed, hmap, hdrop, hflushing⟩ := hrun
  exact ⟨m, hm, hprocessed, (delivered_in_order hm 1).2 hmap hdrop hflushing⟩

end Multiqueue
end CloudAgent.Streamer
