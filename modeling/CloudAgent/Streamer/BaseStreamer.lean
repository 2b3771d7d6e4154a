import Mathlib.Data.List.Basic
import Mathlib.Data.Int.Notation

/-! Media frames and the queue that a sink's thread takes them from. -/
namespace CloudAgent.Streamer

inductive MediaType
  | uknown | video | videoAvcSps | videoAvcPps | videoSeqHdr | audio | audioSeqHdr | flv | data | max
  deriving DecidableEq

/-- `MediaFrame::NO_PTS`, the smallest 64-bit integer. -/
def noPts : ℤ := -9223372036854775808

/-- `MediaFrame`, less the bytes; a time is a count of `timescale.1 / timescale.2` seconds. -/
structure MediaFrame where
  type : MediaType
  len : ℕ
  pts : ℤ
  dts : ℤ
  isKey : Bool
  timescale : ℤ × ℤ
  deriving DecidableEq

/-- A frame in the queue of a fragmenting sink: the frame it is a copy of, and the fragment it was made for. -/
structure QueuedFrame where
  frame : MediaFrame
  source : MediaFrame
  fragment : ℕ
  deriving DecidableEq

def MediaFrame.isVideo (f : MediaFrame) : Bool :=
  f.type = .videoAvcSps || f.type = .videoSeqHdr || f.type = .video

/-- `MediaFrameQueue` with the drop direction `DROP_FRONT`. -/
structure MediaFrameQueue where
  queue : List QueuedFrame
  drop : Bool
  waitVideoKey : Bool
  flushing : Bool
  eos : Bool
  deriving DecidableEq

namespace MediaFrameQueue

/-- `Queue::max_items`. -/
def maxItems : ℕ := 90

def full (l : List QueuedFrame) : Bool := maxItems ≤ l.length

/-- `_can_drop`: the answer, and `wait_video_key_` after it. -/
def canDrop (drop wait full : Bool) (f : MediaFrame) : Bool × Bool :=
  if drop && (full || (f.isVideo && wait)) then
    if f.isVideo then
      if full then (true, true) else (!f.isKey, !f.isKey)
    else (full, wait)
  else (false, wait)

/-- The loop of `push` that drops old frames, with `wait_video_key_` before and after it. -/
def dropOld (drop : Bool) : Bool → List QueuedFrame → List QueuedFrame × Bool
  | wait, [] => ([], wait)
  | wait, q :: qs =>
    let (can, wait') := canDrop drop wait (full (q :: qs)) q.frame
    if can then dropOld drop wait' qs else (q :: qs, wait')

/-- Whether `push` returns without waiting. -/
def canPush (m : MediaFrameQueue) : Bool := m.flushing || !full m.queue || m.drop

def push (m : MediaFrameQueue) (q : QueuedFrame) : MediaFrameQueue :=
  if m.flushing then m
  else
    let (queue, wait) := dropOld m.drop m.waitVideoKey m.queue
    { m with queue := queue ++ [q], waitVideoKey := wait }

def flush (m : MediaFrameQueue) : MediaFrameQueue := { m with flushing := true, queue := [] }

def flushStop (m : MediaFrameQueue) : MediaFrameQueue := { m with flushing := false }

def setEos (m : MediaFrameQueue) : MediaFrameQueue := { m with eos := true }

theorem dropOld_length_le (drop wait : Bool) (l : List QueuedFrame) :
    (dropOld drop wait l).1.length ≤ l.length := by
  induction l generalizing wait with
  | nil => exact Nat.le_refl _
  | cons q qs ih =>
    rw [dropOld]
    dsimp only
    split
    · have h := ih (canDrop drop wait (full (q :: qs)) q.frame).2
      rw [List.length_cons]
      omega
    · exact Nat.le_refl _

/-- Nothing is dropped from a queue that does not wait for a key frame, unless it is full and droppable. -/
theorem dropOld_of_room {drop : Bool} {l : List QueuedFrame} (h : full l = true → drop = false) :
    dropOld drop false l = (l, false) := by
  cases l with
  | nil => rfl
  | cons q qs =>
    have hcan : canDrop drop false (full (q :: qs)) q.frame = (false, false) := by
      cases hf : full (q :: qs) with
      | false => simp [canDrop]
      | true => simp [canDrop, h hf]
    simp [dropOld, hcan]

/-- A full droppable queue loses its front. -/
theorem dropOld_of_full {wait : Bool} {l : List QueuedFrame} (h : full l = true) :
    (dropOld true wait l).1.length < l.length := by
  cases l with
  | nil => simp [full, maxItems] at h
  | cons q qs =>
    have hcan : (canDrop true wait (full (q :: qs)) q.frame).1 = true := by
      cases hv : q.frame.isVideo <;> simp [canDrop, h, hv]
    have hle := dropOld_length_le true (canDrop true wait (full (q :: qs)) q.frame).2 qs
    rw [dropOld]
    dsimp only
    rw [if_pos hcan, List.length_cons]
    omega

theorem push_of_room {m : MediaFrameQueue} {q : QueuedFrame} (hf : m.flushing = false)
    (hw : m.waitVideoKey = false) (h : full m.queue = true → m.drop = false) :
    m.push q = { m with queue := m.queue ++ [q] } := by
  simp [push, hf, hw, dropOld_of_room h]

theorem push_of_full {m : MediaFrameQueue} {q : QueuedFrame} (hf : m.flushing = false)
    (h : full m.queue = true) (hd : m.drop = true) : (m.push q).queue.length ≤ m.queue.length := by
  have hlt : (dropOld true m.waitVideoKey m.queue).1.length < m.queue.length := dropOld_of_full h
  simp only [push, hf, hd, Bool.false_eq_true, if_false, List.length_append, List.length_singleton]
  omega

end MediaFrameQueue
end CloudAgent.Streamer
