import CloudAgent.Lib.LossyStream
import CloudAgent.Lib.Transition
import CloudAgent.Streamer.BaseStreamer

/-! A media queue that drops old frames, between a thread that pushes and one that pops: how many frames it holds,
and whether those that are popped can be decoded. -/
namespace CloudAgent.Streamer
open Transition LossyStream

/-- `_is_video` and `is_key`, for decoding. -/
def QueuedFrame.kind (q : QueuedFrame) : Kind :=
  if q.frame.isVideo then if q.frame.isKey then .restarts else .refers else .alone

namespace MediaFrameQueue

/-- A new queue. -/
def new (drop : Bool) : MediaFrameQueue := ⟨[], drop, false, false, false⟩

/-- `pop`, where it returns: with no frame at the end of the stream and while flushing. -/
def pop (m : MediaFrameQueue) : Option (Option QueuedFrame × MediaFrameQueue) :=
  match m.queue with
  | q :: qs => some (some q, { m with queue := qs })
  | [] => if m.flushing || m.eos then some (none, m) else none

/-- The frames that the next `push` drops. -/
def dropped (m : MediaFrameQueue) : List QueuedFrame :=
  if m.flushing then []
  else m.queue.take (m.queue.length - (dropOld m.drop m.waitVideoKey m.queue).1.length)

/-- The frames behind the one that a full queue drops. -/
def behind (m : MediaFrameQueue) : List QueuedFrame := if full m.queue then m.queue.tail else m.queue

/-- The first frame is video and dropped because the queue is full. -/
def dropsVideo (m : MediaFrameQueue) : Bool := full m.queue && m.queue.head?.any (·.frame.isVideo)

/-- The cleaning goes on until it finds a key frame. -/
def waits (m : MediaFrameQueue) : Bool := m.waitVideoKey || m.dropsVideo

/-- Some video frame is dropped. -/
def losesVideo (m : MediaFrameQueue) : Bool := m.dropsVideo || m.waits && m.behind.head?.any (·.kind = .refers)

/-- The queue drops frames, is not flushed nor at its end, and no fuller than it may be. -/
structure Ready (m : MediaFrameQueue) : Prop where
  drop : m.drop = true
  flushing : m.flushing = false
  eos : m.eos = false
  length : m.queue.length ≤ maxItems

variable {m : MediaFrameQueue} {l : List QueuedFrame} {wait : Bool}

/-- The loop with room in the queue, once it waits for a key frame: it leaves the other video frames at the front out,
and waits no longer where a key frame comes first. -/
theorem dropOld_waiting (h : full l = false) :
    (dropOld true true l).1 = l.dropWhile (·.kind = .refers) ∧
      ((dropOld true true l).2 = false → ∃ q ∈ (dropOld true true l).1.head?, q.kind = .restarts) := by
  induction l with
  | nil => exact ⟨rfl, fun hw => absurd hw (by simp [dropOld])⟩
  | cons q qs ih =>
    have hqs : full qs = false := by
      simp only [full, List.length_cons, decide_eq_false_iff_not] at h ⊢
      omega
    cases hv : q.frame.isVideo with
    | false =>
      have hcan : canDrop true true (full (q :: qs)) q.frame = (false, true) := by simp [canDrop, h, hv]
      have hkind : q.kind = .alone := by simp [QueuedFrame.kind, hv]
      simp [dropOld, hcan, hkind]
    | true =>
      cases hk : q.frame.isKey with
      | false =>
        have hcan : canDrop true true (full (q :: qs)) q.frame = (true, true) := by simp [canDrop, h, hv, hk]
        have hkind : q.kind = .refers := by simp [QueuedFrame.kind, hv, hk]
        have hdrop : (q :: qs).dropWhile (·.kind = .refers) = qs.dropWhile (·.kind = .refers) :=
          List.dropWhile_cons_of_pos (decide_eq_true hkind)
        rw [dropOld, hcan, hdrop]
        exact ih hqs
      | true =>
        have hcan : canDrop true true (full (q :: qs)) q.frame = (false, false) := by simp [canDrop, h, hv, hk]
        have hkind : q.kind = .restarts := by simp [QueuedFrame.kind, hv, hk]
        simp [dropOld, hcan, hkind]

/-- What a push with room keeps. -/
theorem dropOld_of_not_full (h : full l = false) :
    (dropOld true wait l).1 = if wait then l.dropWhile (·.kind = .refers) else l := by
  cases wait with
  | false =>
    rw [dropOld_of_room fun hf => absurd hf (Bool.eq_false_iff.mp h)]
    rfl
  | true => exact (dropOld_waiting h).1

/-- A full queue loses its first frame, and waits for a key frame where that was video. -/
theorem dropOld_cons_of_full {q : QueuedFrame} (h : full (q :: l) = true) :
    dropOld true wait (q :: l) = dropOld true (wait || q.frame.isVideo) l := by
  cases hv : q.frame.isVideo <;> simp [dropOld, canDrop, h, hv]

theorem kind_ne_alone (q : QueuedFrame) : decide (q.kind ≠ .alone) = q.frame.isVideo := by
  cases hv : q.frame.isVideo <;> cases hk : q.frame.isKey <;> simp [QueuedFrame.kind, hv, hk]

/-- The frames in front of those that the cleaning gets to. -/
theorem take_append_behind (m : MediaFrameQueue) :
    m.queue.take (m.queue.length - m.behind.length) ++ m.behind = m.queue ∧
      (m.queue.take (m.queue.length - m.behind.length)).any (·.kind ≠ .alone) = m.dropsVideo := by
  cases hf : full m.queue with
  | false => simp [behind, dropsVideo, hf]
  | true =>
    cases hq : m.queue with
    | nil => simp [hq, full, maxItems] at hf
    | cons q qs =>
      rw [hq] at hf
      simp [behind, dropsVideo, hf, hq, ← kind_ne_alone]

/-- The frame that a full queue loses leaves room. -/
theorem Ready.room (h : m.Ready) : full m.behind = false := by
  have hlen := h.length
  cases hf : full m.queue with
  | false => rwa [behind, hf]
  | true =>
    rw [behind, hf, if_pos rfl]
    simp only [full, decide_eq_false_iff_not, List.length_tail, maxItems] at hf hlen ⊢
    omega

theorem Ready.dropOld_eq (h : m.Ready) : dropOld m.drop m.waitVideoKey m.queue = dropOld true m.waits m.behind := by
  rw [h.drop, waits, dropsVideo, behind]
  cases hf : full m.queue with
  | false => simp
  | true =>
    cases hq : m.queue with
    | nil => simp [hq, full, maxItems] at hf
    | cons q qs =>
      rw [hq] at hf
      rw [dropOld_cons_of_full hf]
      simp

/-- The frames that a push keeps. -/
theorem Ready.kept (h : m.Ready) : (dropOld m.drop m.waitVideoKey m.queue).1 =
    if m.waits then m.behind.dropWhile (·.kind = .refers) else m.behind := by
  rw [h.dropOld_eq, dropOld_of_not_full h.room]

theorem Ready.push_eq (h : m.Ready) (q : QueuedFrame) : m.push q =
    { m with
      queue := (dropOld m.drop m.waitVideoKey m.queue).1 ++ [q]
      waitVideoKey := (dropOld m.drop m.waitVideoKey m.queue).2 } := by
  simp [push, h.flushing]

theorem Ready.push (h : m.Ready) (q : QueuedFrame) : (m.push q).Ready := by
  have hroom := h.room
  have hle := dropOld_length_le true m.waits m.behind
  rw [h.push_eq, h.dropOld_eq]
  refine ⟨h.drop, h.flushing, h.eos, ?_⟩
  simp only [full, decide_eq_false_iff_not] at hroom
  rw [List.length_append, List.length_singleton]
  omega

/-- What is in front of the rest of a list. -/
theorem take_sub_length {a b : List QueuedFrame} (h : l = a ++ b) : l.take (l.length - b.length) = a := by
  rw [h, List.length_append, Nat.add_sub_cancel, List.take_left]

theorem Ready.any_dropped (h : m.Ready) : m.dropped.any (·.kind ≠ .alone) = m.losesVideo := by
  obtain ⟨happ, hany⟩ := m.take_append_behind
  rw [dropped, h.flushing, h.kept, losesVideo]
  cases hw : m.waits with
  | false => simpa using hany
  | true =>
    have hsplit : m.queue =
        (m.queue.take (m.queue.length - m.behind.length) ++ m.behind.takeWhile (·.kind = .refers)) ++
          m.behind.dropWhile (·.kind = .refers) := by
      rw [List.append_assoc, List.takeWhile_append_dropWhile, happ]
    have hfront : (m.behind.takeWhile (·.kind = .refers)).any (·.kind ≠ .alone) =
        m.behind.head?.any (·.kind = .refers) := by
      cases m.behind with
      | nil => rfl
      | cons q qs => by_cases hq : q.kind = .refers <;> simp [hq]
    rw [if_neg Bool.false_ne_true, if_pos rfl, take_sub_length hsplit, List.any_append, hany, hfront, Bool.true_and]

end MediaFrameQueue

/-- A queue and the frames that have left it, in their order. -/
structure QueueHistory where
  queue : MediaFrameQueue
  left : List (Fate QueuedFrame)
  deriving DecidableEq

inductive QueueCall
  | push (q : QueuedFrame)
  | pop
  deriving DecidableEq

namespace QueueHistory
open MediaFrameQueue

/-- A new queue with drop enabled. -/
def new : QueueHistory := ⟨.new true, []⟩

def step (m : QueueHistory) : QueueCall → Option QueueHistory
  | .push q => if m.queue.canPush then some ⟨m.queue.push q, m.left ++ m.queue.dropped.map .dropped⟩ else none
  | .pop => m.queue.pop.map fun (q, queue) => ⟨queue, m.left ++ q.toList.map .popped⟩

/-- The popped frames can be decoded, also when the queue is now popped until it is empty. -/
def Plays (m : QueueHistory) : Prop := Decodes QueuedFrame.kind (m.left ++ m.queue.queue.map .popped)

/-- Where the cleaning waits for a key frame, after a video frame was dropped earlier or is dropped now: behind the
other video frames at the front, the next video frame is a key frame, be it the one that is pushed. -/
def FindsKey (m : QueueHistory) : QueueCall → Prop
  | .push q => m.queue.waits = true → (isBroken QueuedFrame.kind m.left || m.queue.losesVideo) = true →
      Restarts QueuedFrame.kind (m.queue.behind.dropWhile (·.kind = .refers) ++ [q])
  | .pop => True

variable {m t : QueueHistory} {c : QueueCall} {q : QueuedFrame} {calls : List QueueCall}

/-- What holds in every run: once a video frame was dropped, the queue waits for a key frame or begins with one. -/
structure Holds (m : QueueHistory) : Prop where
  ready : m.queue.Ready
  waits : isBroken QueuedFrame.kind m.left = true → m.queue.waitVideoKey = false →
    ∃ q qs, m.queue.queue = q :: qs ∧ q.kind = .restarts

theorem Holds.new : new.Holds where
  ready := ⟨rfl, rfl, rfl, Nat.zero_le _⟩
  waits := nofun

theorem plays_new : new.Plays := by
  intro a b c x y h
  simp [QueueHistory.new, MediaFrameQueue.new] at h

theorem step_push (h : m.queue.Ready) (q : QueuedFrame) :
    step m (.push q) = some ⟨m.queue.push q, m.left ++ m.queue.dropped.map .dropped⟩ := by
  have hcan : m.queue.canPush = true := by simp [canPush, h.drop]
  rw [step, if_pos hcan]

theorem isBroken_push (h : m.queue.Ready) : isBroken QueuedFrame.kind (m.left ++ m.queue.dropped.map .dropped) =
    (isBroken QueuedFrame.kind m.left || m.queue.losesVideo) := by
  rw [isBroken_append_dropped, h.any_dropped]

/-- A key frame that has come to the front of the queue stays there where the cleaning does not wait for one. -/
theorem Holds.key_behind (h : m.Holds) (hb : isBroken QueuedFrame.kind m.left = true) (hw : m.queue.waits = false) :
    ∃ q qs, m.queue.behind = q :: qs ∧ q.kind = .restarts := by
  obtain ⟨hwait, hdrops⟩ := Bool.or_eq_false_iff.mp hw
  obtain ⟨q, qs, hqs, hkind⟩ := h.waits hb hwait
  have hvideo : q.frame.isVideo = true := by
    rw [← kind_ne_alone, hkind]
    rfl
  have hfull : full m.queue.queue = false := by simpa [dropsVideo, hqs, hvideo] using hdrops
  refine ⟨q, qs, ?_, hkind⟩
  rw [behind, hfull, hqs]
  rfl

theorem losesVideo_of_not_waits {m : MediaFrameQueue} (h : m.waits = false) : m.losesVideo = false := by
  rw [losesVideo, h, (Bool.or_eq_false_iff.mp h).2]
  rfl

theorem Holds.push (h : m.Holds) (hs : step m (.push q) = some t) : t.Holds := by
  obtain rfl := Option.some.inj ((step_push h.ready q).symm.trans hs)
  refine ⟨h.ready.push q, ?_⟩
  rw [isBroken_push h.ready, h.ready.push_eq]
  dsimp only
  cases hw : m.queue.waits with
  | true =>
    rw [h.ready.dropOld_eq, hw]
    intro _ hwait
    obtain ⟨k, hk, hkind⟩ := (dropOld_waiting h.ready.room).2 hwait
    obtain ⟨ks, hks⟩ := List.head?_eq_some_iff.mp hk
    exact ⟨k, ks ++ [q], by rw [hks, List.cons_append], hkind⟩
  | false =>
    rw [h.ready.kept, hw, losesVideo_of_not_waits hw, Bool.or_false]
    intro hb _
    obtain ⟨k, ks, hks, hkind⟩ := h.key_behind hb hw
    exact ⟨k, ks ++ [q], by rw [if_neg Bool.false_ne_true, hks, List.cons_append], hkind⟩

/-- What is queued after a push plays exactly if the cleaning has found a key frame. -/
theorem Holds.plays_push_iff (h : m.Holds) (hp : m.Plays) (hs : step m (.push q) = some t) :
    t.Plays ↔ m.FindsKey (.push q) := by
  obtain rfl := Option.some.inj ((step_push h.ready q).symm.trans hs)
  rw [Plays, decodes_append_map_popped, decodes_append_dropped, isBroken_push h.ready, h.ready.push_eq, h.ready.kept,
    and_iff_right hp.of_append, FindsKey]
  cases hw : m.queue.waits with
  | true => exact ⟨fun h _ => h, fun h => h rfl⟩
  | false =>
    rw [losesVideo_of_not_waits hw, Bool.or_false]
    refine iff_of_true (fun hb => ?_) (fun hno => absurd hno Bool.false_ne_true)
    obtain ⟨k, ks, hks, hkind⟩ := h.key_behind hb hw
    simp [hks, Restarts, hkind]

/-- A pop takes the first frame. -/
theorem step_pop (h : m.queue.Ready) (hs : step m .pop = some t) : ∃ q qs, m.queue.queue = q :: qs ∧
    t = ⟨{ m.queue with queue := qs }, m.left ++ [.popped q]⟩ := by
  cases hq : m.queue.queue with
  | nil => simp [step, pop, hq, h.flushing, h.eos] at hs
  | cons q qs =>
    simp only [step, pop, hq, Option.map_some, Option.some.injEq] at hs
    exact ⟨q, qs, rfl, hs.symm⟩

theorem Holds.pop (h : m.Holds) (hs : step m .pop = some t) : t.Holds := by
  obtain ⟨q, qs, hq, rfl⟩ := step_pop h.ready hs
  have hlen := h.ready.length
  rw [hq, List.length_cons] at hlen
  refine ⟨⟨h.ready.drop, h.ready.flushing, h.ready.eos, Nat.le_of_succ_le hlen⟩, fun hb hwait => ?_⟩
  rw [isBroken_append_popped, Bool.and_eq_true, decide_eq_true_eq] at hb
  obtain ⟨k, ks, hk, hkind⟩ := h.waits hb.1 hwait
  obtain ⟨rfl, -⟩ := List.cons.inj (hq.symm.trans hk)
  exact absurd hkind hb.2

theorem plays_pop (h : m.queue.Ready) (hs : step m .pop = some t) : t.Plays ↔ m.Plays := by
  obtain ⟨q, qs, hq, rfl⟩ := step_pop h hs
  rw [Plays, Plays, hq, List.map_cons, List.append_assoc, List.singleton_append]

theorem Holds.step (h : m.Holds) (hs : step m c = some t) : t.Holds := by
  cases c with
  | push q => exact h.push hs
  | pop => exact h.pop hs

theorem Holds.plays_iff (h : m.Holds) (hp : m.Plays) (hs : QueueHistory.step m c = some t) :
    t.Plays ↔ m.FindsKey c := by
  cases c with
  | push q => exact h.plays_push_iff hp hs
  | pop => exact iff_of_true ((plays_pop h.ready hs).mpr hp) trivial

/-- For every run of pushes and pops: the queue never holds more than it may, the popped frames can always be decoded
where every push meets `FindsKey`, and they can be with those still queued in exactly these runs. -/
theorem decodes_iff (he : exec step new calls = some t) :
    Throughout step (fun m => m.queue.queue.length ≤ maxItems) new calls ∧
      (Meets step FindsKey new calls → Throughout step (fun m => Decodes QueuedFrame.kind m.left) new calls) ∧
      (Throughout step Plays new calls ↔ Meets step FindsKey new calls) := by
  have hholds : Throughout step Holds new calls := throughout_of_step (fun _ _ _ hm hs => hm.step hs) .new
  have hplays : Throughout step Plays new calls ↔ Meets step FindsKey new calls :=
    throughout_iff_meets (I := fun m => m.Holds ∧ m.Plays) (L := fun _ => True)
      (fun _ _ _ hm _ hok hs => ⟨hm.1.step hs, (hm.1.plays_iff hm.2 hs).mpr hok⟩) (fun _ hm => hm.2)
      (fun _ _ _ hm _ hno hs hp => hno ((hm.1.plays_iff hm.2 hs).mp hp))
      ⟨.new, plays_new⟩ (fun _ _ => trivial) he
  exact ⟨hholds.mono fun _ hm => hm.ready.length, fun hm => (hplays.mpr hm).mono fun _ hp => hp.of_append, hplays⟩

/-! ### Runs that fill the queue -/

/-- Nothing is dropped while there is room and no key frame is waited for. -/
theorem exec_push_of_room (qs : List QueuedFrame) (h : m.queue.Ready) (hw : m.queue.waitVideoKey = false)
    (hlen : m.queue.queue.length + qs.length ≤ maxItems) :
    exec step m (qs.map .push) = some ⟨{ m.queue with queue := m.queue.queue ++ qs }, m.left⟩ ∧
      Meets step FindsKey m (qs.map .push) := by
  induction qs generalizing m with
  | nil => simp [Meets]
  | cons q qs ih =>
    rw [List.length_cons] at hlen
    have hfull : full m.queue.queue = false := by
      simp only [full, decide_eq_false_iff_not]
      omega
    have hdrops : m.queue.dropsVideo = false := by rw [dropsVideo, hfull, Bool.false_and]
    have hwaits : m.queue.waits = false := by rw [waits, hw, hdrops, Bool.false_or]
    have hpush : m.queue.push q = { m.queue with queue := m.queue.queue ++ [q] } :=
      push_of_room h.flushing hw fun hf => absurd hf (Bool.eq_false_iff.mp hfull)
    have hdropped : m.queue.dropped = [] := by
      rw [dropped, h.flushing, hw, dropOld_of_room fun hf => absurd hf (Bool.eq_false_iff.mp hfull)]
      simp
    have hstep : step m (.push q) = some ⟨{ m.queue with queue := m.queue.queue ++ [q] }, m.left⟩ := by
      rw [step_push h, hpush, hdropped, List.map_nil, List.append_nil]
    obtain ⟨hexec, hmeets⟩ := ih (m := ⟨{ m.queue with queue := m.queue.queue ++ [q] }, m.left⟩)
      (hpush ▸ h.push q) hw (by rw [List.length_append, List.length_singleton]; omega)
    refine ⟨?_, fun hwait => absurd hwait (Bool.eq_false_iff.mp hwaits), fun u hu => ?_⟩
    · rw [List.map_cons, exec_cons, hstep, Option.bind_some, hexec]
      simp
    · obtain rfl := Option.some.inj (hstep.symm.trans hu)
      exact hmeets

/-- A frame of the type. -/
def frame (type : MediaType) (isKey : Bool) : QueuedFrame :=
  let f : MediaFrame := { type, len := 1, pts := 0, dts := 0, isKey, timescale := (1, 1000) }
  { frame := f, source := f, fragment := 0 }

/-- A key frame and `n` video frames that refer to it. -/
def group (n : ℕ) : List QueuedFrame := frame .video true :: List.replicate n (frame .video false)

/-- A queue that is full of two groups: the first is dropped for the next frame. -/
theorem decodes_two_groups : Throughout step (fun m => Decodes QueuedFrame.kind m.left) new
    ((group 44 ++ group 44).map .push ++ [.push (frame .audio false), .pop]) := by
  obtain ⟨hexec, hmeets⟩ := exec_push_of_room (group 44 ++ group 44) Holds.new.ready rfl (by decide)
  have hgoes : ∃ t, exec step new ((group 44 ++ group 44).map .push ++ [.push (frame .audio false), .pop]) =
      some t := by
    rw [exec_append, hexec]
    exact ⟨_, rfl⟩
  obtain ⟨t, ht⟩ := hgoes
  refine (decodes_iff ht).2.1 ((meets_append hexec).mpr ⟨hmeets, fun _ _ x hx => ?_, ?_⟩)
  · obtain rfl : frame .video true = x := Option.some.inj hx
    rfl
  · exact fun _ _ => ⟨trivial, fun _ _ => trivial⟩

/-- A queue that is full of one group: all of it is dropped for the next frame, which is popped alone. -/
theorem not_decodes : ∃ t, exec step new ((group 89).map .push ++ [.push (frame .video false), .pop]) = some t ∧
    ¬ Decodes QueuedFrame.kind t.left := by
  obtain ⟨hexec, -⟩ := exec_push_of_room (group 89) Holds.new.ready rfl (by decide)
  rw [exec_append, hexec]
  refine ⟨_, rfl, fun hdec => ?_⟩
  obtain ⟨z, -, hz⟩ := hdec [] (List.replicate 89 (.dropped (frame .video false))) [] (frame .video true)
    (frame .video false) rfl (by decide) (by decide)
  simp at hz

end QueueHistory
end CloudAgent.Streamer
