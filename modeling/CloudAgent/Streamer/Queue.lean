import CloudAgent.Streamer.BaseStreamer

/-! The queue template between two threads, and its two `push` overloads. -/
namespace CloudAgent.Streamer

inductive DropDirection
  | dropFront | dropBack
  deriving DecidableEq

def DropDirection.other : DropDirection → DropDirection
  | .dropFront => .dropBack
  | .dropBack => .dropFront

/-- `_can_drop`, which a class derived from `Queue` overrides: from `drop_`, `wait_video_key_`, whether the queue is
full, and an item, the answer and `wait_video_key_` after it. Only a queue that drops answers with yes. -/
structure CanDrop (α : Type*) where
  run : Bool → Bool → Bool → α → Bool × Bool
  keeps (wait full : Bool) (item : α) : (run false wait full item).1 = false

namespace CanDrop

/-- `MediaFrameQueue::_can_drop`; a null frame is no video. -/
def media : CanDrop (Option MediaFrame) where
  run drop wait full
    | none => (drop && full, wait)
    | some f => MediaFrameQueue.canDrop drop wait full f
  keeps _ _ item := by cases item <;> rfl

/-- The same for the frames that a fragmenting sink queues. -/
def queued : CanDrop QueuedFrame :=
  ⟨fun drop wait full q => MediaFrameQueue.canDrop drop wait full q.frame, fun _ _ _ => rfl⟩

end CanDrop

/-- `Queue`, less the lock. -/
structure Queue (α : Type*) where
  queue : List α
  drop : Bool
  direction : DropDirection
  waitVideoKey : Bool
  flushing : Bool
  eos : Bool
  deriving DecidableEq

namespace Queue
variable {α : Type*}

def new (drop : Bool) (direction : DropDirection) : Queue α := ⟨[], drop, direction, false, false, false⟩

def full (l : List α) : Bool := MediaFrameQueue.maxItems ≤ l.length

/-- What a push leaves: the items, those that are lost, and `wait_video_key_`. -/
structure Pushed (α : Type*) where
  queue : List α
  dropped : List α
  waitVideoKey : Bool
  deriving DecidableEq

/-- The loop of `push(const T&)` that drops old items: what stays, what goes, and `wait_video_key_`. -/
def dropOld (c : CanDrop α) (drop : Bool) : Bool → List α → Pushed α
  | wait, [] => ⟨[], [], wait⟩
  | wait, a :: l =>
    let (can, wait') := c.run drop wait (full (a :: l)) a
    if can then
      let p := dropOld c drop wait' l
      { p with dropped := a :: p.dropped }
    else ⟨a :: l, [], wait'⟩

/-- The same loop in `push(T&&)`, where `full` is a variable that the first drop clears. -/
def dropOldMove (c : CanDrop α) (drop : Bool) : Bool → Bool → List α → Pushed α
  | _, wait, [] => ⟨[], [], wait⟩
  | full, wait, a :: l =>
    let (can, wait') := c.run drop wait full a
    if can then
      let p := dropOldMove c drop false wait' l
      { p with dropped := a :: p.dropped }
    else ⟨a :: l, [], wait'⟩

/-- The item goes to the end of the queue unless it can be dropped itself. -/
def dropNew (c : CanDrop α) (q : Queue α) (item : α) : Pushed α :=
  let (can, wait) := c.run q.drop q.waitVideoKey (full q.queue) item
  if can then ⟨q.queue, [item], wait⟩ else ⟨q.queue ++ [item], [], wait⟩

/-- What `push(const T&)` does once it need not wait. -/
def store (c : CanDrop α) (q : Queue α) (item : α) : Pushed α :=
  match q.direction with
  | .dropBack => dropNew c q item
  | .dropFront =>
    let p := dropOld c q.drop q.waitVideoKey q.queue
    { p with queue := p.queue ++ [item] }

/-- What `push(T&&)` does once it need not wait. -/
def storeMove (c : CanDrop α) (q : Queue α) (item : α) : Pushed α :=
  match q.direction with
  | .dropFront => dropNew c q item
  | .dropBack =>
    let p := dropOldMove c q.drop (full q.queue) q.waitVideoKey q.queue
    { p with queue := p.queue ++ [item] }

/-- What `push(const T&)` waits for. -/
def canPush (q : Queue α) : Bool := !full q.queue || q.drop

/-- What `push(T&&)` waits for; it tests what was so when it began. -/
def canPushMove (q : Queue α) : Bool := full q.queue && !q.drop

/-- A push to a queue that is being flushed. -/
def refuse (q : Queue α) (item : α) : Pushed α := ⟨q.queue, [item], q.waitVideoKey⟩

/-- `push(const T&)`, where it does not wait. -/
def push (c : CanDrop α) (q : Queue α) (item : α) : Option (Pushed α) :=
  if q.flushing then some (q.refuse item)
  else if q.canPush then some (q.store c item)
  else none

/-- `push(T&&)`, where it does not wait. -/
def pushMove (c : CanDrop α) (q : Queue α) (item : α) : Option (Pushed α) :=
  if q.flushing then some (q.refuse item)
  else if q.canPushMove then some (q.storeMove c item)
  else none

def flush (q : Queue α) : Queue α := { q with flushing := true, queue := [] }

def flushStop (q : Queue α) : Queue α := { q with flushing := false }

def setEos (eos : Bool) (q : Queue α) : Queue α := { q with eos := eos }

variable {c : CanDrop α} {q : Queue α} {item : α}

/-! ### The two overloads -/

/-- One of them waits exactly where the other one goes on. -/
theorem canPushMove_eq_not (q : Queue α) : q.canPushMove = !q.canPush := by
  simp [canPushMove, canPush, Bool.not_or]

/-- With room, both loops drop the same items. -/
theorem dropOldMove_eq_of_not_full {drop wait : Bool} {l : List α} (h : full l = false) :
    dropOldMove c drop false wait l = dropOld c drop wait l := by
  induction l generalizing wait with
  | nil => rfl
  | cons a l ih =>
    have hl : full l = false := by
      simp only [full, List.length_cons, decide_eq_false_iff_not] at h ⊢
      omega
    simp only [dropOldMove, dropOld, h, ih hl]

/-- In a queue that is no fuller than it may be both loops drop the same items. -/
theorem dropOldMove_eq {drop wait : Bool} {l : List α} (h : l.length ≤ MediaFrameQueue.maxItems) :
    dropOldMove c drop (full l) wait l = dropOld c drop wait l := by
  cases l with
  | nil => rfl
  | cons a l =>
    have hl : full l = false := by
      simp only [full, List.length_cons, decide_eq_false_iff_not] at h ⊢
      omega
    simp only [dropOldMove, dropOld, dropOldMove_eq_of_not_full hl]

/-- Once they need not wait, each of them does what the other one does in the other drop direction. -/
theorem storeMove_eq_store (h : q.queue.length ≤ MediaFrameQueue.maxItems) :
    q.storeMove c item = { q with direction := q.direction.other }.store c item := by
  cases hd : q.direction with
  | dropFront => simp only [storeMove, store, hd, DropDirection.other, dropNew]
  | dropBack => simp only [storeMove, store, hd, DropDirection.other, dropOldMove_eq h]

/-- Both wait, or neither does and they leave the same items and `wait_video_key_`, and lose the same items. -/
def OverloadsAgree (c : CanDrop α) (q : Queue α) (item : α) : Prop :=
  (q.push c item = none ↔ q.pushMove c item = none) ∧ ∀ p ∈ q.push c item, ∀ p' ∈ q.pushMove c item, p = p'

instance [DecidableEq α] : Decidable (OverloadsAgree c q item) := instDecidableAnd

/-- The two overloads agree only in a queue that is being flushed. -/
theorem overloadsAgree_iff (c : CanDrop α) (q : Queue α) (item : α) :
    OverloadsAgree c q item ↔ q.flushing = true := by
  constructor
  · rintro ⟨hwait, -⟩
    by_contra hf
    have hmove := q.canPushMove_eq_not
    cases hc : q.canPush with
    | false => simp [push, pushMove, hf, hc, hmove] at hwait
    | true => simp [push, pushMove, hf, hc, hmove] at hwait
  · intro hf
    have hp : q.push c item = some (q.refuse item) := by rw [push, if_pos hf]
    have hm : q.pushMove c item = some (q.refuse item) := by rw [pushMove, if_pos hf]
    rw [OverloadsAgree, hp, hm]
    simp

/-- `push(T&&)` waits on an empty queue, which takes a frame that is copied. -/
theorem not_overloadsAgree : ¬ OverloadsAgree .media (Queue.new false .dropFront) none := by decide

end Queue

/-! ### The queue of a fragmenting sink -/

namespace MediaFrameQueue

def toQueue (m : MediaFrameQueue) : Queue QueuedFrame :=
  ⟨m.queue, m.drop, .dropFront, m.waitVideoKey, m.flushing, m.eos⟩

theorem dropOld_eq (drop wait : Bool) (l : List QueuedFrame) :
    dropOld drop wait l =
      ((Queue.dropOld .queued drop wait l).queue, (Queue.dropOld .queued drop wait l).waitVideoKey) := by
  induction l generalizing wait with
  | nil => rfl
  | cons q l ih =>
    rw [dropOld, Queue.dropOld]
    dsimp only [CanDrop.queued]
    have hfull : Queue.full (q :: l) = full (q :: l) := rfl
    rw [hfull]
    split
    · exact ih _
    · rfl

/-- `push` is `push(const T&)` of the template, and waits where it does. -/
theorem push_toQueue (m : MediaFrameQueue) (q : QueuedFrame) :
    (m.toQueue.push .queued q).map (fun p => (p.queue, p.waitVideoKey)) =
      if m.canPush then some ((m.push q).queue, (m.push q).waitVideoKey) else none := by
  have hroom : m.toQueue.canPush = (!full m.queue || m.drop) := rfl
  have hflush : m.toQueue.flushing = m.flushing := rfl
  have hdrop := dropOld_eq m.drop m.waitVideoKey m.queue
  cases hf : m.flushing with
  | true => simp [Queue.push, Queue.refuse, toQueue, canPush, push, hf]
  | false =>
    cases hc : (!full m.queue || m.drop) with
    | false => simp [Queue.push, hflush, hroom, hc, canPush, hf]
    | true =>
      have hpush : m.toQueue.push .queued q = some (m.toQueue.store .queued q) := by
        simp [Queue.push, hflush, hroom, hc, hf]
      rw [hpush, canPush, hf, Bool.false_or, hc, if_pos rfl, push, hf, hdrop]
      rfl

end MediaFrameQueue
end CloudAgent.Streamer
