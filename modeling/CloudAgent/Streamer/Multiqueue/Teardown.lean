import CloudAgent.Streamer.Multiqueue

/-! Stopping: the waits of `stop_sink` and `stop` end as long as the threads of the other sinks are there to take frames
out of their queues; behind a full queue that nobody empties they never end. -/
namespace CloudAgent.Streamer
open Transition

namespace LinkedSink
variable {α : Type*} {c : CanDrop α} {k k' : LinkedSink α}

/-- The sink is stopped by nobody in these steps. -/
def Continues (e : Event) : Prop := e ≠ .stop

/-- There is somebody to make room in the queue, or no need of it. -/
def Taking (k : LinkedSink α) : Prop :=
  k.droppable = true ∨ k.queue.flushing = true ∨ k.thread ≠ .ended ∨ k.call = .linked ∨ k.call = .flushing

instance [DecidableEq α] : Decidable k.Taking :=
  inferInstanceAs (Decidable (_ ∨ _ ∨ _ ∨ _ ∨ _))

/-- A sink goes on by itself. -/
abbrev Goes (k k' : LinkedSink α) : Prop := Leads step (fun _ e => Continues e) k True k'

theorem Goes.one {e : Event} (he : e ≠ .stop) (h : k.step e = some k') : Goes k k' :=
  (Leads.one h).congr (iff_of_true he trivial)

theorem Goes.trans {k'' : LinkedSink α} (h : Goes k k') (h' : Goes k' k'') : Goes k k'' :=
  h.after_free h'

/-- A thread that pops from a queue with at most as many frames as it may have makes room. -/
theorem pop_room {frame : α} {rest : List α} (hthread : k.thread = .popping) (hq : k.queue.queue = frame :: rest)
    (hlen : k.queue.queue.length ≤ MediaFrameQueue.maxItems) : ∃ k', Goes k k' ∧ k'.queue.canPush = true := by
  have hpop : k.step .pop = some { k with queue := { k.queue with queue := rest }, thread := .processing frame } := by
    simp [step, pop, hthread, Queue.canPop, Queue.take, hq]
  refine ⟨_, .one (by simp) hpop, ?_⟩
  rw [hq, List.length_cons] at hlen
  have hroom : ¬ MediaFrameQueue.maxItems ≤ rest.length := by omega
  simp [Queue.canPush, Queue.full, hroom]

theorem loop_room {frame : α} {rest : List α} (hthread : k.thread = .looping) (hrunning : k.running = true)
    (hq : k.queue.queue = frame :: rest) (hlen : k.queue.queue.length ≤ MediaFrameQueue.maxItems) :
    ∃ k', Goes k k' ∧ k'.queue.canPush = true := by
  have hloop : k.step .loop = some { k with thread := .popping } := by simp [step, loop, hthread, hrunning]
  obtain ⟨k', hk', hroom⟩ := pop_room (k := { k with thread := .popping }) rfl hq hlen
  exact ⟨k', .trans (.one (by simp) hloop) hk', hroom⟩

/-- A sink that takes frames makes room in its queue. -/
theorem Sound.makes_room (hk : k.Sound) (ht : k.Taking) (hfull : k.queue.canPush = false)
    (hflushing : k.queue.flushing = false) : ∃ k', Goes k k' ∧ k'.queue.canPush = true := by
  have hdrop : k.queue.drop = false := Queue.drop_of_not_canPush hfull
  have hnd : k.droppable = false := hk.drop.symm.trans hdrop
  have hlen := hk.bounded hnd
  obtain ⟨frame, rest, hq⟩ : ∃ frame rest, k.queue.queue = frame :: rest := by
    cases hq : k.queue.queue with
    | nil => simp [Queue.canPush, Queue.full, hq, MediaFrameQueue.maxItems] at hfull
    | cons frame rest => exact ⟨frame, rest, rfl⟩
  have hflush (hcall : k.call = .flushing) : ∃ k', Goes k k' ∧ k'.queue.canPush = true := by
    have hstep : k.step .flush = some { k with queue := k.queue.flush, call := .joining } := if_pos hcall
    exact ⟨_, .one (by simp) hstep, rfl⟩
  obtain h | h | hthread | hcall | hcall := ht
  · rw [hnd] at h
    cases h
  · rw [hflushing] at h
    cases h
  · obtain hrunning | hcall | hcall := hk.stopping hthread
    · cases ht : k.thread with
      | ended => exact absurd ht hthread
      | looping => exact loop_room ht hrunning hq hlen
      | popping => exact pop_room ht hq hlen
      | processing f =>
        have hprocess : k.step (.process true) =
            some { k with thread := .looping, processed := k.processed ++ [f], failed := k.failed || !true } := by
          simp [LinkedSink.step, LinkedSink.process, ht]
        obtain ⟨k', hk', hroom⟩ := loop_room (k := { k with
          thread := .looping, processed := k.processed ++ [f], failed := k.failed || !true }) rfl hrunning hq hlen
        exact ⟨k', .trans (.one (by simp) hprocess) hk', hroom⟩
    · exact hflush hcall
    · rw [hk.flushed (.inl hcall)] at hflushing
      cases hflushing
  · have hstart : k.step .start =
        some { k with running := true, thread := .looping, started := true, call := .idle } := if_pos hcall
    obtain ⟨k', hk', hroom⟩ := loop_room (k := { k with
      running := true, thread := .looping, started := true, call := .idle }) rfl rfl hq hlen
    exact ⟨k', .trans (.one (by simp) hstart) hk', hroom⟩
  · exact hflush hcall

/-- The thread of a sink that was told to stop ends, also with the frame that came late. -/
theorem Sound.ends (hk : k.Sound) (hcall : k.call = .joining) :
    ∃ k', Goes k k' ∧ k'.call = .joining ∧ k'.thread = .ended := by
  have hrunning : k.running = false := hk.calling (by simp [hcall])
  have hflushing : k.queue.flushing = true := hk.flushed (.inl hcall)
  have hloop {k : LinkedSink α} (hcall : k.call = .joining) (hrunning : k.running = false)
      (hthread : k.thread = .looping) : ∃ k', Goes k k' ∧ k'.call = .joining ∧ k'.thread = .ended := by
    have hloop : k.step .loop = some { k with thread := .ended } := by
      simp [LinkedSink.step, LinkedSink.loop, hthread, hrunning]
    exact ⟨_, .one (by simp) hloop, hcall, rfl⟩
  have hprocessing {k : LinkedSink α} {frame : α} (hcall : k.call = .joining) (hrunning : k.running = false)
      (hthread : k.thread = .processing frame) : ∃ k', Goes k k' ∧ k'.call = .joining ∧ k'.thread = .ended := by
    have hprocess : k.step (.process true) =
        some { k with thread := .looping, processed := k.processed ++ [frame], failed := k.failed || !true } := by
      simp [LinkedSink.step, LinkedSink.process, hthread]
    obtain ⟨k', hk', hend⟩ := hloop (k := { k with
      thread := .looping, processed := k.processed ++ [frame], failed := k.failed || !true }) hcall hrunning rfl
    exact ⟨k', .trans (.one (by simp) hprocess) hk', hend⟩
  cases ht : k.thread with
  | ended => exact ⟨k, Leads.refl k, hcall, ht⟩
  | looping => exact hloop hcall hrunning ht
  | processing frame => exact hprocessing hcall hrunning ht
  | popping =>
    cases hq : k.queue.queue with
    | nil =>
      have hpop : k.step .pop =
          some { k with queue := { k.queue with queue := [] }, thread := .ended, eosReported := true } := by
        simp [LinkedSink.step, LinkedSink.pop, ht, Queue.canPop, Queue.take, hq, hflushing]
      exact ⟨_, .one (by simp) hpop, hcall, rfl⟩
    | cons frame rest =>
      have hpop : k.step .pop = some { k with queue := { k.queue with queue := rest }, thread := .processing frame } := by
        simp [LinkedSink.step, LinkedSink.pop, ht, Queue.canPop, Queue.take, hq]
      obtain ⟨k', hk', hend⟩ := hprocessing (k := { k with
        queue := { k.queue with queue := rest }, thread := .processing frame }) hcall hrunning rfl
      exact ⟨k', .trans (.one (by simp) hpop) hk', hend⟩

/-- A call that stops a sink comes to where the sink is unlinked. -/
theorem Sound.unlinks (hk : k.Sound) (hcall : k.call = .flushing ∨ k.call = .joining ∨ k.call = .unlinking) :
    ∃ k', Goes k k' ∧ k'.call = .unlinking := by
  have hjoin {k : LinkedSink α} (hk : k.Sound) (hcall : k.call = .joining) : ∃ k', Goes k k' ∧ k'.call = .unlinking := by
    obtain ⟨k', hk', hcall', hthread⟩ := hk.ends hcall
    have hstep : k'.step .join = some { k' with call := .unlinking } := by
      simp [LinkedSink.step, LinkedSink.join, hcall', hthread]
    exact ⟨_, .trans hk' (.one (by simp) hstep), rfl⟩
  obtain hcall | hcall | hcall := hcall
  · have hflush : k.step .flush = some { k with queue := k.queue.flush, call := .joining } := if_pos hcall
    obtain ⟨k', hk', hcall'⟩ := hjoin (hk.step hflush) rfl
    exact ⟨k', .trans (.one (by simp) hflush) hk', hcall'⟩
  · exact hjoin hk hcall
  · exact ⟨k, Leads.refl k, hcall⟩

/-- A sink that takes no frames does nothing until it is stopped. -/
theorem Sound.idle_of_not_taking {a : Event} (hk : k.Sound) (ht : ¬ k.Taking) (ha : a ≠ .stop) : k.step a = none := by
  simp only [Taking, not_or, not_not] at ht
  obtain ⟨-, hflushing, hthread, hlinked, hcall⟩ := ht
  cases a with
  | stop => exact absurd rfl ha
  | start => exact if_neg hlinked
  | flush => exact if_neg hcall
  | join =>
    have hjoining : k.call ≠ .joining := fun hjoining => hflushing (hk.flushed (.inl hjoining))
    simp only [LinkedSink.step, LinkedSink.join]
    split
    · rename_i hjoining' _
      exact absurd hjoining' hjoining
    · rfl
  | loop => simp [LinkedSink.step, LinkedSink.loop, hthread]
  | pop => simp [LinkedSink.step, LinkedSink.pop, hthread]
  | process => simp [LinkedSink.step, LinkedSink.process, hthread]

end LinkedSink

namespace Multiqueue
variable {κ α : Type*} {m n : Multiqueue κ α}

/-- The calls that wait for the end of a round are where they were. -/
structure Keeps (m n : Multiqueue κ α) : Prop where
  running : n.running = m.running
  call : n.call = m.call
  sinkQueueMap : n.sinkQueueMap = m.sinkQueueMap
  flushed : ∀ i, (m.sinks i).queue.flushing = true →
    (n.sinks i).queue.flushing = true ∧ (n.sinks i).call = (m.sinks i).call

theorem Keeps.refl (m : Multiqueue κ α) : Keeps m m := ⟨rfl, rfl, rfl, fun _ hi => ⟨hi, rfl⟩⟩

theorem Keeps.trans {s : Multiqueue κ α} (h : Keeps m n) (h' : Keeps n s) : Keeps m s where
  running := h'.running.trans h.running
  call := h'.call.trans h.call
  sinkQueueMap := h'.sinkQueueMap.trans h.sinkQueueMap
  flushed i hi := by
    obtain ⟨hf, hcall⟩ := h.flushed i hi
    obtain ⟨hf', hcall'⟩ := h'.flushed i hf
    exact ⟨hf', hcall'.trans hcall⟩

variable [LinearOrder κ] {c : CanDrop α} {i j : κ}

/-- What the threads do, and the streams to bring a call to its end: nothing is started or stopped, and no frame comes. -/
def Continues : Event κ α → Prop
  | .startSource | .stopSource | .linkSink _ | .sourceError | .pullFrame (some _) => False
  | .sink _ a => a ≠ .stop
  | _ => True

/-- The threads and the calls that are under way lead from one state to the other. -/
abbrev Goes (c : CanDrop α) (m n : Multiqueue κ α) : Prop := Leads (step c) (fun _ e => Continues e) m True n

theorem Goes.one {e : Event κ α} (he : Continues e) (h : m.step c e = some n) : Goes c m n :=
  (Leads.one h).congr (iff_of_true he trivial)

theorem Goes.trans {s : Multiqueue κ α} (h : Goes c m n) (h' : Goes c n s) : Goes c m s :=
  h.after_free h'

theorem Goes.sound (h : Goes c m n) (hm : m.Sound) : n.Sound :=
  h.preserves (fun _ _ _ hu hs => hu.step hs) hm

/-- What a sink can do by itself it can do among the others. -/
theorem Goes.sink {k : LinkedSink α} (h : (m.sinks j).Goes k) : Goes c m (m.setSink j k) := by
  obtain ⟨as, he, hm⟩ := h
  replace hm := hm.mpr trivial
  induction as generalizing m with
  | nil =>
    obtain rfl : m.sinks j = k := by simpa using he
    have heq : m.setSink j (m.sinks j) = m := by
      rw [setSink, Function.update_eq_self]
    exact heq.symm ▸ Leads.refl m
  | cons a as ih =>
    obtain ⟨k', hk', he⟩ := exec_cons_eq_some.mp he
    have hstep : m.step c (.sink j a) = some (m.setSink j k') := by
      rw [step, hk']
      rfl
    have hself : (m.setSink j k').sinks j = k' := setSink_self m j k'
    have hrest := ih (m := m.setSink j k') (hself.symm ▸ he) (hself.symm ▸ hm.2 k' hk')
    have heq : (m.setSink j k').setSink j k = m.setSink j k := by
      simp [setSink]
    exact (Goes.one (e := .sink j a) hm.1 hstep).trans (heq ▸ hrest)

/-! ### What is left of a round -/

theorem keeps_returned (m : Multiqueue κ α) (frame : α) (i : κ) (left : List κ) (p : Queue.Pushed α) :
    Keeps m (m.returned frame i left p) where
  running := rfl
  call := rfl
  sinkQueueMap := rfl
  flushed j hj := by
    by_cases hji : j = i
    · subst hji
      rw [returned_self]
      exact ⟨hj, rfl⟩
    · rw [returned_ne hji]
      exact ⟨hj, rfl⟩

/-- Where a queue that was not flushed has got room. -/
theorem keeps_setSink {k : LinkedSink α} (hflushing : (m.sinks j).queue.flushing = false) : Keeps m (m.setSink j k) where
  running := rfl
  call := rfl
  sinkQueueMap := rfl
  flushed i hi := by
    have hij : i ≠ j := by
      rintro rfl
      rw [hflushing] at hi
      cases hi
    rw [setSink_ne hij]
    exact ⟨hi, rfl⟩

/-- The threads go on to a state in which the frame is pushed to this sink, and the sinks after it are as they were. -/
def Passes (c : CanDrop α) (m : Multiqueue κ α) (frame : α) (j : κ) (left : List κ) : Prop :=
  ∃ n, Goes c m n ∧ Keeps m n ∧ n.thread = .pushing frame left ∧ ∀ i ≠ j, n.sinks i = m.sinks i

theorem Passes.returned {frame : α} {left : List κ} {p : Queue.Pushed α} {e : Event κ α} (he : Continues e)
    (h : m.step c e = some (m.returned frame j left p)) : Passes c m frame j left :=
  ⟨_, .one he h, keeps_returned m frame j left p, rfl, fun _ hi => returned_ne hi frame left p⟩

/-- A push that waits returns once there is room, and somebody makes room. -/
theorem Sound.wait_returns (hm : m.Sound) {frame : α} {left : List κ} (hthread : m.thread = .waiting frame j left)
    (ht : (m.sinks j).Taking) : Passes c m frame j left := by
  have hwake {m : Multiqueue κ α} (hthread : m.thread = .waiting frame j left)
      (hroom : (m.sinks j).queue.canPush = true) : Passes c m frame j left := by
    have hstep : m.step c .wakePush = some (m.returned frame j left ((m.sinks j).queue.store c frame)) := by
      simp [Multiqueue.step, wakePush, hthread, hroom]
    exact .returned (e := .wakePush) trivial hstep
  cases hfull : (m.sinks j).queue.canPush with
  | true => exact hwake hthread hfull
  | false =>
    cases hflushing : (m.sinks j).queue.flushing with
    | true =>
      -- the flush has emptied the queue
      have hlen := hm.queue_length hflushing
      have hroom : ¬ MediaFrameQueue.maxItems ≤ (m.sinks j).queue.queue.length := by
        rw [MediaFrameQueue.maxItems]
        omega
      simp [Queue.canPush, Queue.full, hroom] at hfull
    | false =>
      obtain ⟨k, hk, hroom⟩ := (hm.sinks j).makes_room ht hfull hflushing
      obtain ⟨n, hn, hkeeps, hnthread, hsinks⟩ := hwake (m := m.setSink j k) hthread (by rwa [setSink_self])
      refine ⟨n, .trans (.sink hk) hn, (keeps_setSink hflushing).trans hkeeps, hnthread, fun i hi => ?_⟩
      rw [hsinks i hi, setSink_ne hi]

theorem Sound.push_returns (hm : m.Sound) {frame : α} {left : List κ} (hthread : m.thread = .pushing frame (j :: left))
    (ht : (m.sinks j).Taking) : Passes c m frame j left := by
  cases hflushing : (m.sinks j).queue.flushing with
  | true =>
    have hstep : m.step c .push = some (m.returned frame j left ((m.sinks j).queue.refuse frame)) := by
      simp [Multiqueue.step, Multiqueue.push, hthread, hflushing]
    exact .returned (e := .push) trivial hstep
  | false =>
    cases hroom : (m.sinks j).queue.canPush with
    | true =>
      have hstep : m.step c .push = some (m.returned frame j left ((m.sinks j).queue.store c frame)) := by
        simp [Multiqueue.step, Multiqueue.push, hthread, hflushing, hroom]
      exact .returned (e := .push) trivial hstep
    | false =>
      have hstep : m.step c .push = some { m with thread := .waiting frame j left } := by
        simp [Multiqueue.step, Multiqueue.push, hthread, hflushing, hroom]
      have hgoes : Goes c m { m with thread := .waiting frame j left } := .one (e := .push) trivial hstep
      have hwait : Passes c { m with thread := .waiting frame j left } frame j left :=
        (hgoes.sound hm).wait_returns rfl ht
      obtain ⟨n, hn, hkeeps, hnthread, hsinks⟩ := hwait
      exact ⟨n, hgoes.trans hn, ⟨hkeeps.running, hkeeps.call, hkeeps.sinkQueueMap, hkeeps.flushed⟩, hnthread, hsinks⟩

/-- The threads go on to the end of the round. -/
def EndsRound (c : CanDrop α) (m : Multiqueue κ α) : Prop :=
  ∃ n, Goes c m n ∧ Keeps m n ∧ n.thread = .looping

/-- None of the sinks that are left is touched before its turn. -/
theorem Sound.passes_ends (hm : m.Sound) {frame : α} {left : List κ} (hleft : m.thread.left = j :: left)
    (hp : Passes c m frame j left) (ht : ∀ i ∈ left, (m.sinks i).Taking)
    (hrest : ∀ n : Multiqueue κ α, n.Sound → n.thread = .pushing frame left → (∀ i ∈ left, (n.sinks i).Taking) →
      EndsRound c n) : EndsRound c m := by
  obtain ⟨n, hn, hkeeps, hnthread, hsinks⟩ := hp
  have hj : j ∉ left := (List.nodup_cons.mp (hm.nodup.sublist (hleft ▸ hm.left).sublist)).1
  have hn' : ∀ i ∈ left, (n.sinks i).Taking := fun i hi => by
    rw [hsinks i (ne_of_mem_of_not_mem hi hj)]
    exact ht i hi
  obtain ⟨s, hs, hkeeps', hloop⟩ := hrest n (hn.sound hm) hnthread hn'
  exact ⟨s, hn.trans hs, hkeeps.trans hkeeps', hloop⟩

theorem Sound.pushing_ends (hm : m.Sound) {frame : α} {left : List κ} (hthread : m.thread = .pushing frame left)
    (ht : ∀ i ∈ left, (m.sinks i).Taking) : EndsRound c m := by
  induction left generalizing m with
  | nil =>
    have hstep : m.step c .pushFrameAll = some { m with thread := .looping } := by
      simp [Multiqueue.step, pushFrameAll, hthread]
    exact ⟨_, .one (e := .pushFrameAll) trivial hstep, ⟨rfl, rfl, rfl, fun _ hi => ⟨hi, rfl⟩⟩, rfl⟩
  | cons j left ih =>
    have hp : Passes c m frame j left := hm.push_returns hthread (ht j List.mem_cons_self)
    exact hm.passes_ends (by rw [hthread]; rfl) hp (fun i hi => ht i (List.mem_cons_of_mem j hi))
      fun n hn hnthread hn' => ih hn hnthread hn'

/-- A round ends as long as the sinks that are linked take frames. -/
theorem Sound.round_ends (hm : m.Sound) (hlocks : m.thread.locks = true)
    (ht : ∀ i ∈ m.sinkQueueMap, (m.sinks i).Taking) : EndsRound c m := by
  have hleft : ∀ i ∈ m.thread.left, (m.sinks i).Taking := fun i hi => ht i (hm.left.subset hi)
  cases hthread : m.thread with
  | pushing frame left =>
    rw [hthread] at hleft
    exact hm.pushing_ends hthread hleft
  | waiting frame j left =>
    rw [hthread] at hleft
    have hp : Passes c m frame j left := hm.wait_returns hthread (hleft j List.mem_cons_self)
    exact hm.passes_ends (by rw [hthread]; rfl) hp (fun i hi => hleft i (List.mem_cons_of_mem j hi))
      fun n hn hnthread hn' => hn.pushing_ends hnthread hn'
  | _ =>
    rw [hthread] at hlocks
    cases hlocks

theorem Sound.unlocks (hm : m.Sound) (ht : ∀ i ∈ m.sinkQueueMap, (m.sinks i).Taking) :
    ∃ n, Goes c m n ∧ Keeps m n ∧ n.thread.locks = false := by
  cases hlocks : m.thread.locks with
  | true =>
    obtain ⟨n, hn, hkeeps, hloop⟩ := hm.round_ends (c := c) hlocks ht
    exact ⟨n, hn, hkeeps, by rw [hloop]; rfl⟩
  | false => exact ⟨m, Leads.refl m, .refl m, hlocks⟩

/-! ### The calls that stop -/

/-- A sink fails with its first frame, takes no more, and the source goes on until the queue is full. -/
def failed : List (Event ℕ MediaFrame) :=
  [.linkSink 1, .sink 1 .start, .linkSink 0, .sink 0 .start, .startSource] ++ round 0 ++
    [.sink 1 .loop, .sink 1 .pop, .sink 1 (.process false), .sink 1 .loop, .sink 1 .pop] ++
      (List.range 90).flatMap (fun t => round (40 * (t + 1))) ++ (round 4000).take 5
where
  round (t : ℕ) : List (Event ℕ MediaFrame) :=
    [.sourceLoop, .pullFrame (some (frameAt t)), .pushFrameAll, .push, .push, .pushFrameAll, .sink 0 .loop, .sink 0 .pop,
      .sink 0 (.process true)]

/-- The thread of a source that was told to stop ends. -/
theorem Sound.thread_ends (hm : m.Sound) (hcall : m.call = .joining)
    (ht : ∀ i ∈ m.sinkQueueMap, (m.sinks i).Taking) : ∃ n, Goes c m n ∧ n.call = .joining ∧ n.thread = .ended := by
  have hlooping {m : Multiqueue κ α} (hm : m.Sound) (hcall : m.call = .joining) (hthread : m.thread = .looping) :
      ∃ n, Goes c m n ∧ n.call = .joining ∧ n.thread = .ended := by
    have hrunning : m.running = false := hm.stream.stopped (by simp [hcall])
    have hstep : m.step c .sourceLoop = some { m with thread := .ended } := by
      simp [Multiqueue.step, sourceLoop, hthread, hrunning]
    exact ⟨_, .one (e := .sourceLoop) trivial hstep, hcall, rfl⟩
  have hround {m : Multiqueue κ α} (hm : m.Sound) (hcall : m.call = .joining) (h : EndsRound c m) :
      ∃ n, Goes c m n ∧ n.call = .joining ∧ n.thread = .ended := by
    obtain ⟨n, hn, hkeeps, hloop⟩ := h
    obtain ⟨s, hs, hend⟩ := hlooping (hn.sound hm) (hkeeps.call.trans hcall) hloop
    exact ⟨s, hn.trans hs, hend⟩
  cases hthread : m.thread with
  | ended => exact ⟨m, Leads.refl m, hcall, hthread⟩
  | looping => exact hlooping hm hcall hthread
  | pulling =>
    have hstep : m.step c (.pullFrame none) = some { m with thread := .looping } := by
      simp [Multiqueue.step, pullFrame, hthread]
    obtain ⟨n, hn, hend⟩ := hlooping (hm.step hstep) hcall rfl
    exact ⟨n, .trans (.one (e := .pullFrame none) trivial hstep) hn, hend⟩
  | pulled frame =>
    have hstep : m.step c .pushFrameAll =
        some { m with thread := .pushing frame m.sinkQueueMap, pushed := m.pushed ++ [frame] } := by
      simp [Multiqueue.step, pushFrameAll, hthread]
    have hm' := hm.step hstep
    obtain ⟨n, hn, hend⟩ := hround hm' hcall (hm'.pushing_ends rfl ht)
    exact ⟨n, .trans (.one (e := .pushFrameAll) trivial hstep) hn, hend⟩
  | pushing | waiting => exact hround hm hcall (hm.round_ends (by rw [hthread]; rfl) ht)

/-- `stop` of a source always comes to its end by what the threads do alone, as long as its sinks take frames. -/
theorem stop_source_returns {droppable : κ → Bool} {es : List (Event κ α)}
    (he : exec (step c) (start droppable) es = some m) (hcall : m.call ≠ .idle)
    (ht : ∀ i ∈ m.sinkQueueMap, (m.sinks i).Taking) :
    ∃ n, Goes c m n ∧ n.call = .idle ∧ n.started = false ∧ n.thread = .ended := by
  have hm : m.Sound := sound_of_exec he
  have hjoin {m : Multiqueue κ α} (hm : m.Sound) (hcall : m.call = .joining)
      (ht : ∀ i ∈ m.sinkQueueMap, (m.sinks i).Taking) :
      ∃ n, Goes c m n ∧ n.call = .idle ∧ n.started = false ∧ n.thread = .ended := by
    obtain ⟨n, hn, hncall, hthread⟩ := hm.thread_ends (c := c) hcall ht
    have hstep : n.step c .joinSource = some { n with call := .idle, started := false } := by
      simp [step, joinSource, hncall, hthread]
    exact ⟨_, hn.trans (.one (e := .joinSource) trivial hstep), rfl, rfl, hthread⟩
  cases hc : m.call with
  | idle => exact absurd hc hcall
  | joining => exact hjoin hm hc ht
  | flushing =>
    obtain ⟨n, hn, hkeeps, hunlocked⟩ := hm.unlocks (c := c) ht
    have hstep : n.step c .flushSource = some { n.mapQueues Queue.flush with call := .joining } :=
      if_pos ⟨hkeeps.call.trans hc, hunlocked⟩
    -- the flush has emptied the queues of all sinks that are linked
    have ht' : ∀ i ∈ n.sinkQueueMap, ((n.mapQueues Queue.flush).sinks i).Taking := fun i hi => by
      have hsink : (n.mapQueues Queue.flush).sinks i = { n.sinks i with queue := (n.sinks i).queue.flush } := if_pos hi
      rw [hsink]
      exact .inr (.inl rfl)
    obtain ⟨s, hs, hend⟩ := hjoin ((hn.sound hm).step hstep) rfl ht'
    exact ⟨s, (hn.trans (.one (e := .flushSource) trivial hstep)).trans hs, hend⟩

/-- The source is stopped while it pushes a frame. -/
def interrupted : List (Event ℕ MediaFrame) :=
  [.linkSink 1, .sink 1 .start, .startSource, .sourceLoop, .pullFrame (some (frameAt 0)), .pushFrameAll, .stopSource]

theorem stop_source_returns_interrupted :
    ∃ m, exec (step canDropFrame) (start fun _ => false) interrupted = some m ∧ m.thread = .pushing (frameAt 0) [1] ∧
      ∃ n, Goes canDropFrame m n ∧ n.call = .idle ∧ n.started = false ∧ n.thread = .ended := by
  have hrun : ∃ m ∈ exec (step canDropFrame) (start fun _ => false) interrupted,
      m.thread = .pushing (frameAt 0) [1] ∧ m.call ≠ .idle ∧ ∀ i ∈ m.sinkQueueMap, (m.sinks i).Taking := by
    decide +kernel
  obtain ⟨m, hm, hthread, hcall, ht⟩ := hrun
  exact ⟨m, hm, hthread, stop_source_returns hm hcall ht⟩

/-- Nothing has happened since `m` that has to do with the source, or this sink. -/
structure Hangs (i : κ) (m n : Multiqueue κ α) : Prop where
  sound : n.Sound
  thread : n.thread = m.thread
  pushed : n.pushed = m.pushed
  sinkQueueMap : n.sinkQueueMap = m.sinkQueueMap
  sink : n.sinks i = m.sinks i
  call : m.call ≠ .idle → n.call = m.call

theorem Hangs.step {s : Multiqueue κ α} {e : Event κ α} {frame : α} {left : List κ} (h : Hangs i m n)
    (hthread : m.thread = .waiting frame i left) (hfull : (m.sinks i).queue.canPush = false)
    (ht : ¬ (m.sinks i).Taking) (he : e ≠ .sink i .stop) (hs : n.step c e = some s) : Hangs i m s := by
  have hthread' : n.thread = .waiting frame i left := h.thread.trans hthread
  have hlocks : n.thread.locks = true := by
    rw [hthread']
    rfl
  cases e with
  | startSource =>
    obtain ⟨⟨hstarted, -, -⟩, -⟩ := Option.ite_none_right_eq_some.mp hs
    have hended := h.sound.stream.ended hstarted
    rw [hthread'] at hended
    cases hended
  | stopSource =>
    have hcall := (Option.ite_none_right_eq_some.mp hs).1
    have hsound := h.sound.step hs
    obtain ⟨-, hs⟩ := Option.ite_none_right_eq_some.mp hs
    obtain rfl := Option.some.inj hs
    exact ⟨hsound, h.thread, h.pushed, h.sinkQueueMap, h.sink, fun hne => absurd (h.call hne ▸ hcall) hne⟩
  | flushSource =>
    obtain ⟨⟨-, hunlocked⟩, -⟩ := Option.ite_none_right_eq_some.mp hs
    rw [hlocks] at hunlocked
    cases hunlocked
  | linkSink j =>
    obtain ⟨⟨-, -, hunlocked⟩, -⟩ := Option.ite_none_right_eq_some.mp hs
    rw [hlocks] at hunlocked
    cases hunlocked
  | unlinkSink j =>
    obtain ⟨⟨-, hunlocked⟩, -⟩ := Option.ite_none_right_eq_some.mp hs
    rw [hlocks] at hunlocked
    cases hunlocked
  | joinSource => simp [Multiqueue.step, joinSource, hthread'] at hs
  | sourceLoop => simp [Multiqueue.step, sourceLoop, hthread'] at hs
  | pullFrame => simp [Multiqueue.step, pullFrame, hthread'] at hs
  | sourceError => simp [Multiqueue.step, sourceError, hthread'] at hs
  | pushFrameAll => simp [Multiqueue.step, pushFrameAll, hthread'] at hs
  | push => simp [Multiqueue.step, Multiqueue.push, hthread'] at hs
  | wakePush =>
    rw [← h.sink] at hfull
    simp [Multiqueue.step, wakePush, hthread', hfull] at hs
  | sink j a =>
    have hsound := h.sound.step hs
    obtain ⟨k, hk, rfl⟩ := Option.map_eq_some_iff.mp hs
    have hij : i ≠ j := by
      rintro rfl
      rw [← h.sink] at ht
      rw [(h.sound.sinks i).idle_of_not_taking ht fun ha => he (ha ▸ rfl)] at hk
      cases hk
    exact ⟨hsound, h.thread, h.pushed, h.sinkQueueMap, (setSink_ne hij k).trans h.sink, h.call⟩

/-- Behind the full queue of a sink that takes no frames the source waits until that sink is stopped: no frame is pushed
any more, no other sink is linked or unlinked, and a `stop` of the source does not return. -/
theorem source_hangs {droppable : κ → Bool} {es as : List (Event κ α)}
    (he : exec (step c) (start droppable) es = some m) {frame : α} {left : List κ}
    (hthread : m.thread = .waiting frame i left) (hfull : (m.sinks i).queue.canPush = false)
    (ht : ¬ (m.sinks i).Taking) (hstop : .sink i .stop ∉ as) (has : exec (step c) m as = some n) :
    n.thread = m.thread ∧ n.pushed = m.pushed ∧ n.sinkQueueMap = m.sinkQueueMap ∧ n.sinks i = m.sinks i ∧
      (m.call ≠ .idle → n.call = m.call) := by
  have hm : m.Sound := sound_of_exec he
  have hhangs : Hangs i m m := ⟨hm, rfl, rfl, rfl, rfl, fun _ => rfl⟩
  have hmeets : Meets (step c) (fun _ a => a ≠ .sink i .stop) m as :=
    Meets.of_forall_mem fun a ha _ => by
      rintro rfl
      exact hstop ha
  have hn := invariant (fun u a v hu ha hv => hu.step hthread hfull ht ha hv) hhangs hmeets has
  exact ⟨hn.thread, hn.pushed, hn.sinkQueueMap, hn.sink, hn.call⟩

/-- The other sink and the source are to be stopped. -/
def tornDown : List (Event ℕ MediaFrame) :=
  [.sink 0 .stop, .sink 0 .flush, .sink 0 .loop, .sink 0 .join, .stopSource]

theorem source_hangs_failed :
    ∃ m n, exec (step canDropFrame) (start fun _ => false) failed = some m ∧
      exec (step canDropFrame) m tornDown = some n ∧ (n.sinks 0).call = .unlinking ∧ n.call = .flushing ∧
        n.thread = m.thread ∧ n.sinkQueueMap = m.sinkQueueMap := by
  have hrun : ∃ m ∈ exec (step canDropFrame) (start fun _ => false) failed,
      m.thread = .waiting (frameAt 4000) 1 [] ∧ (m.sinks 1).queue.canPush = false ∧ ¬ (m.sinks 1).Taking ∧
        ∃ n ∈ exec (step canDropFrame) m tornDown, (n.sinks 0).call = .unlinking ∧ n.call = .flushing := by
    decide +kernel
  obtain ⟨m, hm, hthread, hfull, ht, n, hn, hunlinking, hcall⟩ := hrun
  obtain ⟨hthread', -, hmap, -⟩ := source_hangs hm hthread hfull ht (by decide) hn
  exact ⟨m, n, hm, hn, hunlinking, hcall, hthread', hmap⟩

end Multiqueue
end CloudAgent.Streamer
