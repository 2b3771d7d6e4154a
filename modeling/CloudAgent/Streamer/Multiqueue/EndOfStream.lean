import CloudAgent.Streamer.Multiqueue

/-! The end of a stream, as the remuxers wait for it: a sink that was linked in time processes everything and reports
the end, one that was linked too late never does. And what becomes of a sink whose source was stopped. -/
namespace CloudAgent.Streamer.Multiqueue
open Transition

variable {κ α : Type*} [LinearOrder κ] {c : CanDrop α} {m n : Multiqueue κ α} {e : Event κ α} {i : κ}

/-! ### A source that has ended -/

/-- The source's thread has ended by itself, and the source is not stopped yet. -/
structure Quiet (m : Multiqueue κ α) : Prop where
  started : m.started = true
  thread : m.thread = .ended
  call : m.call = .idle

/-- After the end only streams and sinks do something, until the source is stopped. -/
theorem Quiet.step (hq : m.Quiet) (he : e ≠ .stopSource) (h : m.step c e = some n) :
    (n.Quiet ∧ n.pushed = m.pushed) ∧
      ((∃ j, e = .linkSink j ∧ m.linkSink j = some n) ∨ (∃ j, e = .unlinkSink j ∧ m.unlinkSink j = some n) ∨
        ∃ j a k, e = .sink j a ∧ (m.sinks j).step a = some k ∧ n = m.setSink j k) := by
  cases e with
  | stopSource => exact absurd rfl he
  | startSource =>
    obtain ⟨⟨hstarted, -⟩, -⟩ := Option.ite_none_right_eq_some.mp h
    rw [hq.started] at hstarted
    cases hstarted
  | flushSource =>
    obtain ⟨⟨hcall, -⟩, -⟩ := Option.ite_none_right_eq_some.mp h
    rw [hq.call] at hcall
    cases hcall
  | joinSource => simp [Multiqueue.step, joinSource, hq.call] at h
  | sourceLoop | pullFrame | sourceError | pushFrameAll | push | wakePush =>
    exact absurd hq.thread (runs_of_ofSource rfl h).thread
  | linkSink j =>
    have hlink := h
    obtain ⟨-, h⟩ := Option.ite_none_right_eq_some.mp h
    obtain rfl := Option.some.inj h
    exact ⟨⟨⟨hq.started, hq.thread, hq.call⟩, rfl⟩, .inl ⟨j, rfl, hlink⟩⟩
  | unlinkSink j =>
    have hunlink := h
    obtain ⟨-, h⟩ := Option.ite_none_right_eq_some.mp h
    obtain rfl := Option.some.inj h
    exact ⟨⟨⟨hq.started, hq.thread, hq.call⟩, rfl⟩, .inr (.inl ⟨j, rfl, hunlink⟩)⟩
  | sink j a =>
    obtain ⟨k, hk, rfl⟩ := Option.map_eq_some_iff.mp h
    exact ⟨⟨⟨hq.started, hq.thread, hq.call⟩, rfl⟩, .inr (.inr ⟨j, a, k, rfl, hk, rfl⟩)⟩

/-- Neither the source is stopped, nor the sink. -/
def Stays (i : κ) (e : Event κ α) : Prop := e ≠ .stopSource ∧ e ≠ .sink i .stop

/-! ### A sink that was linked in time -/

/-- The sink has been told of the end, and neither it nor its source was stopped. -/
structure Told (k : LinkedSink α) : Prop where
  call : k.call = .idle
  running : k.running = true
  eos : k.queue.eos = true
  flushing : k.queue.flushing = false
  drained : k.thread = .ended → k.eosReported = true ∧ k.queue.queue = []

/-- How many steps the thread still has to take. -/
def stepsLeft (k : LinkedSink α) : ℕ :=
  match k.thread with
  | .ended => 0
  | .popping => 3 * k.queue.queue.length + 1
  | .looping => 3 * k.queue.queue.length + 2
  | .processing _ => 3 * k.queue.queue.length + 3

theorem stepsLeft_eq_zero {k : LinkedSink α} : stepsLeft k = 0 ↔ k.thread = .ended := by
  unfold stepsLeft
  cases k.thread <;> simp

/-- A step of the sink's thread. -/
def ofThread : LinkedSink.Event → Bool
  | .loop | .pop | .process _ => true
  | _ => false

/-- The thread goes on with fewer steps to take. -/
theorem Told.step {k k' : LinkedSink α} {a : LinkedSink.Event} (ht : Told k) (ha : a ≠ .stop) (h : k.step a = some k') :
    Told k' ∧ ofThread a = true ∧ stepsLeft k' < stepsLeft k := by
  cases a with
  | stop => exact absurd rfl ha
  | start | flush =>
    obtain ⟨hcall, -⟩ := Option.ite_none_right_eq_some.mp h
    rw [ht.call] at hcall
    cases hcall
  | join => simp [LinkedSink.step, LinkedSink.join, ht.call] at h
  | loop =>
    simp only [LinkedSink.step, LinkedSink.loop] at h
    split at h
    · rename_i hthread
      obtain rfl := Option.some.inj h
      exact ⟨{ ht with drained := fun hended => by simp [ht.running] at hended }, rfl,
        by simp [stepsLeft, hthread, ht.running]⟩
    · cases h
  | pop =>
    obtain ⟨hthread, ⟨frame, rest, hq, rfl⟩ | ⟨hq, -, rfl⟩⟩ := LinkedSink.pop_cases h
    · refine ⟨{ ht with drained := fun hended => by cases hended }, rfl, ?_⟩
      simp only [stepsLeft, hthread, hq, List.length_cons]
      omega
    · exact ⟨{ ht with drained := fun _ => ⟨rfl, hq⟩ }, rfl, by simp [stepsLeft, hthread]⟩
  | process ok =>
    simp only [LinkedSink.step, LinkedSink.process] at h
    split at h
    · rename_i frame hthread
      obtain rfl := Option.some.inj h
      cases ok with
      | true => exact ⟨{ ht with drained := fun hended => by cases hended }, rfl, by simp [stepsLeft, hthread]⟩
      | false =>
        refine ⟨{ ht with eos := rfl, drained := fun hended => by cases hended }, rfl, ?_⟩
        simp [stepsLeft, hthread, Queue.setEos]
    · cases h

/-- The source has ended, and the sink has got all that was pushed since it was linked and was told of the end. -/
structure Ending (frames : List α) (i : κ) (m : Multiqueue κ α) : Prop where
  sound : m.Sound
  delivered : m.Delivered i
  quiet : m.Quiet
  linked : i ∈ m.sinkQueueMap
  droppable : (m.sinks i).droppable = false
  frames : m.pushed.drop (m.sinks i).since = frames
  told : Told (m.sinks i)

/-- A step of the thread of this sink. -/
def ofThreadOf (i : κ) : Event κ α → Bool
  | .sink j a => j = i && ofThread a
  | _ => false

theorem Ending.step {frames : List α} (h : Ending frames i m) (he : Stays i e) (hs : m.step c e = some n) :
    Ending frames i n ∧ stepsLeft (n.sinks i) ≤ stepsLeft (m.sinks i) ∧
      (ofThreadOf i e = true → stepsLeft (n.sinks i) < stepsLeft (m.sinks i)) := by
  obtain ⟨⟨hquiet, hpushed⟩, hcases⟩ := h.quiet.step he.1 hs
  have hsound := h.sound.step hs
  have hdelivered := h.delivered.step h.sound hs
  have hother (hmap : i ∈ n.sinkQueueMap) (hsink : n.sinks i = m.sinks i) (hof : ofThreadOf i e = false) :
      Ending frames i n ∧ stepsLeft (n.sinks i) ≤ stepsLeft (m.sinks i) ∧
        (ofThreadOf i e = true → stepsLeft (n.sinks i) < stepsLeft (m.sinks i)) := by
    refine ⟨⟨hsound, hdelivered, hquiet, hmap, hsink ▸ h.droppable, ?_, hsink ▸ h.told⟩, by rw [hsink], ?_⟩
    · rw [hpushed, hsink]
      exact h.frames
    · simp [hof]
  obtain ⟨j, rfl, hlink⟩ | ⟨j, rfl, hunlink⟩ | ⟨j, a, k, rfl, hk, rfl⟩ := hcases
  · obtain ⟨⟨hstarted, hcall, -⟩, hlink⟩ := Option.ite_none_right_eq_some.mp hlink
    obtain rfl := Option.some.inj hlink
    have hij : i ≠ j := by
      rintro rfl
      simpa [hstarted, hcall] using h.sound.linked i h.linked
    exact hother ((List.mem_orderedInsert _).mpr (.inr h.linked)) (setSink_ne hij _) rfl
  · obtain ⟨⟨hcall, -⟩, hunlink⟩ := Option.ite_none_right_eq_some.mp hunlink
    obtain rfl := Option.some.inj hunlink
    have hij : i ≠ j := by
      rintro rfl
      simp [h.told.call] at hcall
    exact hother ((List.mem_erase_of_ne hij).mpr h.linked) (setSink_ne hij _) rfl
  · by_cases hij : i = j
    · subst hij
      have ha : a ≠ .stop := fun ha => he.2 (by rw [ha])
      obtain ⟨htold, -, hleft⟩ := h.told.step ha hk
      obtain ⟨hsince, hdrop, -⟩ := LinkedSink.step_seen (h.sound.sinks i) hk
      rw [setSink_self]
      refine ⟨⟨hsound, hdelivered, hquiet, h.linked, ?_, ?_, ?_⟩, hleft.le, fun _ => hleft⟩
      · rw [setSink_self, hdrop]
        exact h.droppable
      · rw [setSink_self, hsince]
        exact h.frames
      · rwa [setSink_self]
    · exact hother h.linked (setSink_ne hij k) (by simp [ofThreadOf, Ne.symm hij])

/-- What the sink has processed once its thread has ended. -/
theorem Ending.processed {frames : List α} (h : Ending frames i m) (hended : (m.sinks i).thread = .ended) :
    (m.sinks i).processed = frames := by
  have heq := h.delivered.exact h.linked h.droppable h.told.flushing
  have hnone : m.thread.coming i = [] := by
    rw [h.quiet.thread]
    rfl
  rw [h.frames, hnone, LinkedSink.seen, hended, (h.told.drained hended).2] at heq
  simpa [SinkThread.hand] using heq

/-- The source has ended by itself, and the thread of a sink that was linked before, drops nothing and was told of the
end is still at work. Then in every run on which neither of them is stopped the end is reported as soon as the thread has
taken the steps it had left, and when it is reported exactly the frames pushed since the link are processed. -/
theorem end_is_reported {droppable : κ → Bool} {es as : List (Event κ α)}
    (he : exec (Multiqueue.step c) (start droppable) es = some m) (hq : m.Quiet) (hi : i ∈ m.sinkQueueMap)
    (hdrop : (m.sinks i).droppable = false) (hflushing : (m.sinks i).queue.flushing = false)
    (heos : (m.sinks i).queue.eos = true) (hrunning : (m.sinks i).running = true) (hthread : (m.sinks i).thread ≠ .ended)
    (hstays : ∀ a ∈ as, Stays i a) (has : exec (Multiqueue.step c) m as = some n) :
    ((n.sinks i).eosReported = true → (n.sinks i).processed = m.pushed.drop (m.sinks i).since) ∧
      (stepsLeft (m.sinks i) ≤ countSteps (Multiqueue.step c) (fun _ a => ofThreadOf i a) m as →
        (n.sinks i).eosReported = true) := by
  obtain ⟨hsound, hdelivered⟩ := delivered_of_exec he i
  have hcall : (m.sinks i).call = .idle := by
    by_contra hcall
    simp [(hsound.sinks i).calling hcall] at hrunning
  have hstart : Ending (m.pushed.drop (m.sinks i).since) i m :=
    ⟨hsound, hdelivered, hq, hi, hdrop, rfl, hcall, hrunning, heos, hflushing, fun hended => absurd hended hthread⟩
  have hmeets : Meets (Multiqueue.step c) (fun _ a => Stays i a) m as := Meets.of_forall_mem fun a ha _ => hstays a ha
  have hend : Ending (m.pushed.drop (m.sinks i).since) i n :=
    invariant (fun u a v hu ha hv => (hu.step ha hv).1) hstart hmeets has
  refine ⟨fun hr => hend.processed ((hend.sound.sinks i).reported hr).1, fun hcount => ?_⟩
  have hended : (n.sinks i).thread = .ended := by
    refine reaches_of_rank (D := fun u => (u.sinks i).thread = .ended)
      (I := Ending (m.pushed.drop (m.sinks i).since) i) (p := fun _ a => ofThreadOf i a)
      (fun u => stepsLeft (u.sinks i) - 1)
      (fun u a v hu ha hv => ?_) (fun u a v hu ha hv hof => ?_) hstart hmeets has (.inr ?_)
    · obtain ⟨hv, hle, -⟩ := hu.step ha hv
      refine ⟨hv, Nat.sub_le_sub_right hle 1, fun hended => ?_⟩
      rw [← stepsLeft_eq_zero] at hended ⊢
      omega
    · obtain ⟨-, -, hlt⟩ := hu.step ha hv
      have := hlt hof
      rw [← stepsLeft_eq_zero]
      omega
    · have := mt stepsLeft_eq_zero.mp hthread
      omega
  exact (hend.told.drained hended).1

/-- A sink is linked, gets one frame, and the source comes to its end. -/
def oneFrame : List (Event ℕ MediaFrame) :=
  [.linkSink 1, .sink 1 .start, .startSource, .sourceLoop, .pullFrame (some (frameAt 40)), .pushFrameAll, .push,
    .pushFrameAll, .sourceLoop, .sourceError, .sourceLoop]

def remuxing : List (Event ℕ MediaFrame) :=
  [.sink 1 .loop, .sink 1 .pop, .sink 1 (.process true), .sink 1 .loop, .sink 1 .pop]

theorem end_is_reported_oneFrame :
    ∃ m n, exec (Multiqueue.step canDropFrame) (start fun _ => false) oneFrame = some m ∧
      exec (Multiqueue.step canDropFrame) m remuxing = some n ∧ (n.sinks 1).eosReported = true ∧
        (n.sinks 1).processed = m.pushed.drop (m.sinks 1).since := by
  have hrun : ∃ m ∈ exec (Multiqueue.step canDropFrame) (start fun _ => false) oneFrame,
      (m.started = true ∧ m.thread = .ended ∧ m.call = .idle) ∧ 1 ∈ m.sinkQueueMap ∧ (m.sinks 1).droppable = false ∧
        (m.sinks 1).queue.flushing = false ∧ (m.sinks 1).queue.eos = true ∧ (m.sinks 1).running = true ∧
          (m.sinks 1).thread ≠ .ended ∧
            stepsLeft (m.sinks 1) ≤ countSteps (Multiqueue.step canDropFrame) (fun _ a => ofThreadOf 1 a) m remuxing ∧
              (exec (Multiqueue.step canDropFrame) m remuxing).isSome = true := by decide +kernel
  obtain ⟨m, hm, ⟨hs, ht, hcall⟩, hi, hdrop, hflushing, heos, hrunning, hthread, hcount, hsome⟩ := hrun
  obtain ⟨n, hn⟩ := Option.isSome_iff_exists.mp hsome
  have hstays : ∀ a ∈ remuxing, Stays 1 a := by simp [remuxing, Stays]
  obtain ⟨hframes, hreported⟩ :=
    end_is_reported hm ⟨hs, ht, hcall⟩ hi hdrop hflushing heos hrunning hthread hstays hn
  exact ⟨m, n, hm, hn, hreported hcount, hframes (hreported hcount)⟩

/-! ### A sink that was linked too late -/

/-- No frame has come to the sink since it was linked, and it was not told of the end. -/
structure Waits (k : LinkedSink α) : Prop where
  call : k.call = .linked ∨ k.call = .idle ∧ k.running = true
  processed : k.processed = []
  hand : k.thread.hand = []
  queue : k.queue.queue = []
  eos : k.queue.eos = false
  flushing : k.queue.flushing = false
  unreported : k.eosReported = false

theorem Waits.pop {k : LinkedSink α} (hw : Waits k) : k.pop = none := by
  cases hp : k.pop with
  | none => rfl
  | some k' =>
    obtain ⟨-, ⟨frame, rest, hq, -⟩ | ⟨-, hf | he, -⟩⟩ := LinkedSink.pop_cases hp
    · rw [hw.queue] at hq
      cases hq
    · rw [hw.flushing] at hf
      cases hf
    · rw [hw.eos] at he
      cases he

theorem Waits.step {k k' : LinkedSink α} {a : LinkedSink.Event} (hw : Waits k) (ha : a ≠ .stop)
    (h : k.step a = some k') : Waits k' := by
  cases a with
  | stop => exact absurd rfl ha
  | start =>
    obtain ⟨hcall, h⟩ := Option.ite_none_right_eq_some.mp h
    obtain rfl := Option.some.inj h
    exact { hw with call := .inr ⟨rfl, rfl⟩, hand := rfl }
  | flush =>
    obtain ⟨hcall, -⟩ := Option.ite_none_right_eq_some.mp h
    obtain hc | ⟨hc, -⟩ := hw.call <;> rw [hcall] at hc <;> cases hc
  | join =>
    simp only [LinkedSink.step, LinkedSink.join] at h
    split at h
    · rename_i hcall _
      obtain hc | ⟨hc, -⟩ := hw.call <;> rw [hcall] at hc <;> cases hc
    · cases h
  | loop =>
    simp only [LinkedSink.step, LinkedSink.loop] at h
    split at h
    · obtain rfl := Option.some.inj h
      refine { hw with hand := ?_ }
      cases k.running <;> rfl
    · cases h
  | pop =>
    rw [LinkedSink.step, hw.pop] at h
    cases h
  | process ok =>
    simp only [LinkedSink.step, LinkedSink.process] at h
    split at h
    · rename_i frame hthread
      have hhand := hw.hand
      rw [hthread] at hhand
      cases hhand
    · cases h

/-- The source has ended, and the sink, if it is linked, waits. -/
structure Missed (i : κ) (m : Multiqueue κ α) : Prop where
  sound : m.Sound
  quiet : m.Quiet
  waits : i ∈ m.sinkQueueMap → Waits (m.sinks i)

theorem Missed.step (h : Missed i m) (he : Stays i e) (hs : m.step c e = some n) : Missed i n := by
  obtain ⟨⟨hquiet, -⟩, hcases⟩ := h.quiet.step he.1 hs
  refine ⟨h.sound.step hs, hquiet, fun hi => ?_⟩
  obtain ⟨j, rfl, hlink⟩ | ⟨j, rfl, hunlink⟩ | ⟨j, a, k, rfl, hk, rfl⟩ := hcases
  · obtain ⟨⟨hstarted, hcall, -⟩, hlink⟩ := Option.ite_none_right_eq_some.mp hlink
    obtain rfl := Option.some.inj hlink
    by_cases hij : i = j
    · subst hij
      have hthread : (m.sinks i).thread = .ended := by
        by_contra hne
        simpa [hstarted] using (h.sound.sinks i).joined hne
      simp only [setSink_self]
      exact ⟨.inl rfl, rfl, by rw [hthread]; rfl, rfl, rfl, rfl, rfl⟩
    · have hsink {k : LinkedSink α} : (m.setSink j k).sinks i = m.sinks i := setSink_ne hij k
      simpa only [hsink] using h.waits (((List.mem_orderedInsert _).mp hi).resolve_left hij)
  · obtain ⟨⟨hcall, -⟩, hunlink⟩ := Option.ite_none_right_eq_some.mp hunlink
    obtain rfl := Option.some.inj hunlink
    obtain ⟨hij, hi⟩ := h.sound.nodup.mem_erase_iff.mp hi
    simpa only [setSink_ne hij] using h.waits hi
  · by_cases hij : i = j
    · subst hij
      rw [setSink_self]
      have ha : a ≠ .stop := fun ha => he.2 (by rw [ha])
      exact (h.waits hi).step ha hk
    · rw [setSink_ne hij]
      exact h.waits hi

/-- A sink that is linked after the source has ended by itself is never told of it: while neither of them is stopped it
processes nothing, the end is not reported, and its thread waits in `pop`. -/
theorem end_is_missed {droppable : κ → Bool} {es as : List (Event κ α)}
    (he : exec (Multiqueue.step c) (start droppable) es = some m) (hq : m.Quiet) (hi : i ∉ m.sinkQueueMap)
    (hstays : ∀ a ∈ as, Stays i a) (has : exec (Multiqueue.step c) m as = some n) (hlinked : i ∈ n.sinkQueueMap) :
    (n.sinks i).processed = [] ∧ (n.sinks i).eosReported = false ∧ n.step c (.sink i .pop) = none := by
  have hmissed : Missed i n :=
    invariant (fun u a v hu ha hv => hu.step ha hv) ⟨sound_of_exec he, hq, fun h => absurd h hi⟩
      (Meets.of_forall_mem fun a ha _ => hstays a ha) has
  have hw := hmissed.waits hlinked
  exact ⟨hw.processed, hw.unreported, by rw [Multiqueue.step, LinkedSink.step, hw.pop, Option.map_none]⟩

/-- The source comes to its end before the sink is linked. -/
def emptySource : List (Event ℕ MediaFrame) := [.startSource, .sourceLoop, .sourceError, .sourceLoop]

theorem end_is_missed_emptySource :
    ∃ m n, exec (Multiqueue.step canDropFrame) (start fun _ => false) emptySource = some m ∧
      exec (Multiqueue.step canDropFrame) m [.linkSink 1, .sink 1 .start, .sink 1 .loop] = some n ∧
        (n.sinks 1).eosReported = false ∧ n.step canDropFrame (.sink 1 .pop) = none := by
  have hrun : ∃ m ∈ exec (Multiqueue.step canDropFrame) (start fun _ => false) emptySource,
      (m.started = true ∧ m.thread = .ended ∧ m.call = .idle) ∧ 1 ∉ m.sinkQueueMap ∧
        ∃ n ∈ exec (Multiqueue.step canDropFrame) m [.linkSink 1, .sink 1 .start, .sink 1 .loop],
          1 ∈ n.sinkQueueMap := by decide +kernel
  obtain ⟨m, hm, ⟨hs, ht, hcall⟩, hi, n, hn, hlinked⟩ := hrun
  obtain ⟨-, hunreported, hpop⟩ := end_is_missed hm ⟨hs, ht, hcall⟩ hi (by simp [Stays]) hn hlinked
  exact ⟨m, n, hm, hn, hunreported, hpop⟩

/-! ### A sink whose queue was flushed -/

theorem LinkedSink.step_processed {k k' : LinkedSink α} {a : LinkedSink.Event} (h : k.step a = some k') :
    k.processed <+: k'.processed := by
  cases a with
  | start | stop | flush =>
    obtain ⟨-, h⟩ := Option.ite_none_right_eq_some.mp h
    obtain rfl := Option.some.inj h
    exact List.prefix_rfl
  | pop =>
    obtain ⟨-, ⟨frame, rest, -, rfl⟩ | ⟨-, -, rfl⟩⟩ := LinkedSink.pop_cases h <;> exact List.prefix_rfl
  | join =>
    simp only [LinkedSink.step, LinkedSink.join] at h
    split at h
    · obtain rfl := Option.some.inj h
      exact List.prefix_rfl
    · cases h
  | loop =>
    simp only [LinkedSink.step, LinkedSink.loop] at h
    split at h
    · obtain rfl := Option.some.inj h
      exact List.prefix_rfl
    · cases h
  | process ok =>
    simp only [LinkedSink.step, LinkedSink.process] at h
    split at h
    · obtain rfl := Option.some.inj h
      exact List.prefix_append _ _
    · cases h

/-- The queue is flushed; `done` is processed, and what the sink has seen or still gets is part of `frames`. -/
structure Spent (done frames : List α) (i : κ) (m : Multiqueue κ α) : Prop where
  sound : m.Sound
  flushing : (m.sinks i).queue.flushing = true
  processed : done <+: (m.sinks i).processed
  seen : ((m.sinks i).seen ++ m.thread.late i).Sublist frames

variable {done frames : List α}

/-- A step that brings the sink nothing. -/
theorem Spent.frame (h : Spent done frames i m) (hsound : n.Sound) (hsink : n.sinks i = m.sinks i)
    (hlate : (n.thread.late i).Sublist (m.thread.late i)) : Spent done frames i n where
  sound := hsound
  flushing := by
    rw [hsink]
    exact h.flushing
  processed := by
    rw [hsink]
    exact h.processed
  seen := by
    rw [hsink]
    exact (hlate.append_left _).trans h.seen

/-- A push to a flushed queue is refused, unless it has waited since before the flush. -/
theorem Spent.returns (h : Spent done frames i m) (hsound : n.Sound) {frame : α} {j : κ} {left : List κ}
    (hr : Returns c m n frame j left) : Spent done frames i n := by
  by_cases hij : i = j
  · subst hij
    obtain ⟨-, -, rfl⟩ | ⟨-, ⟨hf, -⟩ | hthread, rfl⟩ := hr
    · have hs := returned_self m frame i left ((m.sinks i).queue.refuse frame)
      refine ⟨hsound, by rw [hs]; exact h.flushing, by rw [hs]; exact h.processed, ?_⟩
      rw [hs]
      exact (List.Sublist.append_left (List.nil_sublist _) _).trans h.seen
    · rw [h.flushing] at hf
      cases hf
    · have hs := returned_self m frame i left ((m.sinks i).queue.store c frame)
      have hlate : m.thread.late i = [frame] := by
        rw [hthread]
        exact if_pos rfl
      have hnil : (m.sinks i).queue.queue = [] := by
        have hlen := h.sound.late i h.flushing
        rw [hlate, List.length_append, List.length_singleton] at hlen
        exact List.length_eq_zero_iff.mp (by omega)
      have hstore := Queue.store_of_nil (c := c) hnil (h.sound.sinks i).direction frame
      refine ⟨hsound, by rw [hs]; exact h.flushing, by rw [hs]; exact h.processed, ?_⟩
      have hseen := h.seen
      rw [hlate, LinkedSink.seen, hnil, List.append_nil] at hseen
      rw [hs, LinkedSink.seen]
      simpa [Queue.apply, hstore, SourceThread.late, Multiqueue.returned] using hseen
  · refine h.frame hsound ?_ ?_
    · obtain ⟨-, -, rfl⟩ | ⟨-, -, rfl⟩ := hr <;> exact returned_ne hij frame left _
    · obtain ⟨-, -, rfl⟩ | ⟨-, -, rfl⟩ := hr <;> exact List.nil_sublist _

theorem Spent.step (h : Spent done frames i m) (he : e ≠ .linkSink i) (hs : m.step c e = some n) :
    Spent done frames i n := by
  have hsound := h.sound.step hs
  obtain ho | ⟨frame, j, left, hr⟩ | ⟨frame, hthread, rfl⟩ | ht | ⟨j, rfl, hlink⟩ | ⟨j, rfl, hunlink⟩ |
    ⟨j, a, k, rfl, hk, rfl⟩ := step_cases h.sound.stream.ended hs
  · refine h.frame hsound (by rw [ho.sinks]) ?_
    by_cases hnil : n.thread.late i = []
    · rw [hnil]
      exact List.nil_sublist _
    · obtain heq | hf := ho.late i hnil
      · rw [heq]
      · rw [h.flushing] at hf
        cases hf
  · exact h.returns hsound hr
  · exact h.frame hsound rfl (List.nil_sublist _)
  · have htells : ∃ f, Tells m n f ∧ (f = Queue.setEos true ∨ f = Queue.flush) := by
      obtain ⟨-, ht⟩ | ⟨-, ht⟩ := ht
      · exact ⟨_, ht, .inl rfl⟩
      · exact ⟨_, ht, .inr rfl⟩
    obtain ⟨f, ⟨-, hleft, -, -, hsinks⟩, hf⟩ := htells
    have hlate : n.thread.late i = [] := SourceThread.late_eq_nil (hleft ▸ List.not_mem_nil)
    obtain hi | hi := mapQueues_sinks m f i
    · exact h.frame hsound (hsinks ▸ hi) (hlate ▸ List.nil_sublist _)
    · rw [← hsinks] at hi
      have hqueue : (f (m.sinks i).queue).queue.Sublist (m.sinks i).queue.queue := by
        obtain rfl | rfl := hf
        · exact List.Sublist.refl _
        · exact List.nil_sublist _
      refine ⟨hsound, ?_, by rw [hi]; exact h.processed, ?_⟩
      · rw [hi]
        obtain rfl | rfl := hf
        · exact h.flushing
        · rfl
      · rw [hi, hlate, List.append_nil]
        exact (hqueue.append_left _).trans ((List.sublist_append_left _ _).trans h.seen)
  · obtain ⟨-, hlink⟩ := Option.ite_none_right_eq_some.mp hlink
    obtain rfl := Option.some.inj hlink
    have hij : i ≠ j := fun hij => he (by rw [hij])
    exact h.frame hsound (setSink_ne hij _) (List.Sublist.refl _)
  · obtain ⟨-, hunlink⟩ := Option.ite_none_right_eq_some.mp hunlink
    obtain rfl := Option.some.inj hunlink
    by_cases hij : i = j
    · subst hij
      refine ⟨hsound, ?_, ?_, ?_⟩
      · rw [setSink_self]
        exact h.flushing
      · rw [setSink_self]
        exact h.processed
      · rw [setSink_self]
        exact h.seen
    · exact h.frame hsound (setSink_ne hij _) (List.Sublist.refl _)
  · by_cases hij : i = j
    · subst hij
      obtain ⟨-, -, hseen⟩ := LinkedSink.step_seen (h.sound.sinks i) hk
      refine ⟨hsound, ?_, ?_, ?_⟩
      · rw [setSink_self]
        obtain ⟨-, hf⟩ | ⟨-, hf⟩ := hseen
        · rw [hf]
          exact h.flushing
        · exact hf
      · rw [setSink_self]
        exact h.processed.trans (LinkedSink.step_processed hk)
      · rw [setSink_self]
        have hsub : k.seen.Sublist (m.sinks i).seen := by
          obtain ⟨heq, -⟩ | ⟨hsub, -⟩ := hseen
          · rw [heq]
          · exact hsub
        exact (hsub.append_right _).trans h.seen
    · exact h.frame hsound (setSink_ne hij k) (List.Sublist.refl _)

/-- Once its source is stopped a sink processes no more than the frame in the hand of its thread, however often the
source is started again, until it is linked again. -/
theorem stopped_source_starves {droppable : κ → Bool} {es as : List (Event κ α)} {s : Multiqueue κ α}
    (he : exec (Multiqueue.step c) (start droppable) es = some m) (hi : i ∈ m.sinkQueueMap)
    (hstop : m.step c .flushSource = some s) (hlink : .linkSink i ∉ as) (has : exec (Multiqueue.step c) s as = some n) :
    (n.sinks i).processed = (m.sinks i).processed ∨
      (n.sinks i).processed = (m.sinks i).processed ++ (m.sinks i).thread.hand := by
  have hsound := (sound_of_exec he).step hstop
  obtain ⟨⟨-, hlocks⟩, hstop⟩ := Option.ite_none_right_eq_some.mp hstop
  obtain rfl := Option.some.inj hstop
  have hleft : m.thread.left = [] := SourceThread.left_of_not_locks hlocks
  have hlate : m.thread.late i = [] := SourceThread.late_eq_nil (hleft ▸ List.not_mem_nil)
  have hsink : (m.mapQueues Queue.flush).sinks i = { m.sinks i with queue := (m.sinks i).queue.flush } := if_pos hi
  have hspent : Spent (m.sinks i).processed ((m.sinks i).processed ++ (m.sinks i).thread.hand) i
      { m.mapQueues Queue.flush with call := .joining } := by
    refine ⟨hsound, ?_, ?_, ?_⟩
    · rw [hsink]
      rfl
    · exact (congrArg LinkedSink.processed hsink).symm ▸ List.prefix_rfl
    · have hseen : ((m.mapQueues Queue.flush).sinks i).seen ++ m.thread.late i =
          (m.sinks i).processed ++ (m.sinks i).thread.hand := by
        simp [hsink, hlate, LinkedSink.seen, Queue.flush]
      exact hseen ▸ List.Sublist.refl _
  have hspent := invariant (fun u a v hu ha hv => hu.step ha hv) hspent
    (Meets.of_forall_mem fun a ha _ => by
      rintro rfl
      exact hlink ha) has
  obtain ⟨more, hmore⟩ := hspent.processed
  have hsub : more.Sublist (m.sinks i).thread.hand := by
    have hseen := hspent.seen
    rw [LinkedSink.seen, ← hmore] at hseen
    simp only [List.append_assoc] at hseen
    exact (List.sublist_append_left _ _).trans ((List.append_sublist_append_left _).mp hseen)
  rw [← hmore]
  cases hthread : (m.sinks i).thread with
  | processing frame =>
    rw [hthread] at hsub
    obtain rfl | rfl := List.sublist_singleton.mp hsub
    · exact .inl (List.append_nil _)
    · exact .inr rfl
  | _ =>
    rw [hthread] at hsub
    obtain rfl := List.sublist_nil.mp hsub
    exact .inl (List.append_nil _)

/-- The source is stopped and started again while the sink stays linked. -/
def restarted : List (Event ℕ MediaFrame) :=
  [.pullFrame none, .sourceLoop, .joinSource, .startSource, .sourceLoop, .pullFrame (some (frameAt 80)), .pushFrameAll,
    .push, .pushFrameAll, .sink 1 .loop, .sink 1 .pop]

theorem stopped_source_starves_restarted :
    ∃ m s n, exec (Multiqueue.step canDropFrame) (start fun _ => false) (oneFrame.take 9 ++ [.stopSource]) = some m ∧
      m.step canDropFrame .flushSource = some s ∧ exec (Multiqueue.step canDropFrame) s restarted = some n ∧
        n.pushed = [frameAt 40, frameAt 80] ∧ (n.sinks 1).processed = [] := by
  have hrun : ∃ m ∈ exec (Multiqueue.step canDropFrame) (start fun _ => false) (oneFrame.take 9 ++ [.stopSource]),
      1 ∈ m.sinkQueueMap ∧ (m.sinks 1).processed = [] ∧ (m.sinks 1).thread.hand = [] ∧
        ∃ s ∈ m.step canDropFrame .flushSource, ∃ n ∈ exec (Multiqueue.step canDropFrame) s restarted,
          n.pushed = [frameAt 40, frameAt 80] := by decide +kernel
  obtain ⟨m, hm, hi, hprocessed, hhand, s, hs, n, hn, hpushed⟩ := hrun
  have hstarves := stopped_source_starves hm hi hs (by decide) hn
  rw [hprocessed, hhand] at hstarves
  exact ⟨m, s, n, hm, hs, hn, hpushed, hstarves.elim id id⟩

end CloudAgent.Streamer.Multiqueue
