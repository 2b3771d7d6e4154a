import CloudAgent.Lib.Transition
import CloudAgent.Streamer.BaseStreamer
import Mathlib.Algebra.Group.Int.Defs
import Mathlib.Algebra.Group.Nat.Defs

/-! The fragmenting sink. Its thread sorts frames into fragments and queues them; the thread of the
internal sink takes them from the queue and writes them into the fragment that is open. To rotate,
the internal sink is stopped, which flushes the queue, and started again. -/
namespace CloudAgent.Streamer.MultiFrag
open Transition

inductive Mode
  | size | duration | unknown
  deriving DecidableEq

/-- The members of `MultiFrag::Sink` that decide about frames and fragments. `fragmentDuration` is in
milliseconds. -/
structure Sink where
  mode : Mode
  modeParam : ℕ
  size : ℕ
  fragmentDuration : ℤ
  firstVideoPts : ℤ
  firstVideoDts : ℤ
  lastVideoPts : ℤ
  lastVideoDts : ℤ
  videoKeyFrameReceived : Bool
  deriving DecidableEq

namespace Sink

/-- The members after `init`. -/
def init (mode : Mode) (param : ℕ) : Sink := ⟨mode, param, 0, 0, 0, 0, 0, 0, false⟩

def fragNeedFinalize (s : Sink) : Bool :=
  match s.mode with
  | .size => s.modeParam ≤ s.size
  | .duration => (s.modeParam : ℤ) * 1000 ≤ s.fragmentDuration
  | .unknown => false

/-- The start of `process` for a video frame: the wait for a key frame and the check of the order. -/
def accept (s : Sink) (f : MediaFrame) : Sink × Bool :=
  if !s.videoKeyFrameReceived && !f.isKey then (s, false)
  else if f.pts ≠ noPts ∧ f.pts < s.lastVideoPts then ({ s with videoKeyFrameReceived := false }, false)
  else ({ s with videoKeyFrameReceived := true }, true)

/-- Whether the frame starts a new fragment. -/
def rotates (s : Sink) (f : MediaFrame) : Bool := f.pts ≠ noPts && f.isKey && s.fragNeedFinalize

/-- `frag_rotate_stats` and the assignments of the first timestamps that follow it. -/
def rotateStats (s : Sink) : Sink :=
  { s with
    fragmentDuration := 0, size := 0
    firstVideoPts := s.lastVideoPts, firstVideoDts := s.lastVideoDts }

def updateFirst (s : Sink) (f : MediaFrame) : Sink :=
  if s.firstVideoPts = 0 ∨ s.firstVideoPts > f.pts ∨ s.firstVideoPts = noPts ∨ s.firstVideoDts = noPts then
    { s with firstVideoPts := f.pts, firstVideoDts := f.dts }
  else s

/-- The milliseconds from `first` to the frame. The first product is one of two `int`s and the second one has
64 bits; both wrap around where they overflow. -/
def elapsed (first : ℤ) (f : MediaFrame) : ℤ :=
  (Int.bmod (Int.bmod (f.timescale.1 * 1000) (2 ^ 32) * (f.pts - first)) (2 ^ 64)).tdiv f.timescale.2

/-- `frag_update_stats`. -/
def updateStats (s : Sink) (f : MediaFrame) : Sink :=
  { s with
    size := s.size + f.len
    fragmentDuration := elapsed s.firstVideoPts f }

/-- The copy that is queued, with its timestamps relative to the start of the fragment. -/
def rebase (s : Sink) (f : MediaFrame) : MediaFrame :=
  { f with
    pts := if f.pts ≠ noPts then f.pts - s.firstVideoPts else f.pts
    dts := if f.dts ≠ noPts then f.dts - s.firstVideoDts else f.dts }

def updateLast (s : Sink) (f : MediaFrame) : Sink :=
  { s with
    lastVideoPts := if f.pts ≠ noPts then f.pts else s.lastVideoPts
    lastVideoDts := if f.dts ≠ noPts then f.dts else s.lastVideoDts }

/-- Whether the first timestamps of the fragment are missing, so that the frame is dropped. -/
def noFirst (s : Sink) (f : MediaFrame) : Bool :=
  (s.updateFirst f).firstVideoPts = noPts || (s.updateFirst f).firstVideoDts = noPts

/-- The end of `process`: the members after it, and the frame to push. -/
def stamp (s : Sink) (f : MediaFrame) : Sink × Option MediaFrame :=
  let s := s.updateFirst f
  if s.firstVideoPts = noPts ∨ s.firstVideoDts = noPts then (s, none)
  else ((s.updateStats f).updateLast f, some (s.rebase f))

/-- The milliseconds are exact up to the division if neither product overflows. -/
theorem elapsed_of_fits {first : ℤ} {f : MediaFrame} (hscale : 0 ≤ f.timescale.1)
    (hint : f.timescale.1 * 1000 < 2 ^ 31) (hfirst : 0 ≤ first) (hle : first ≤ f.pts)
    (hfits : f.timescale.1 * 1000 * f.pts < 2 ^ 63) :
    elapsed first f = (f.timescale.1 * 1000 * (f.pts - first)).tdiv f.timescale.2 := by
  have hlong : f.timescale.1 * 1000 * (f.pts - first) ≤ f.timescale.1 * 1000 * f.pts :=
    Int.mul_le_mul_of_nonneg_left (by omega) (by omega)
  have hnonneg : 0 ≤ f.timescale.1 * 1000 * (f.pts - first) := Int.mul_nonneg (by omega) (by omega)
  rw [elapsed, Int.bmod_eq_of_le (m := 2 ^ 32) (by omega) (by omega), Int.bmod_eq_of_le (by omega) (by omega)]

theorem stamp_eq_none (s : Sink) (f : MediaFrame) : (s.stamp f).2 = none ↔ s.noFirst f = true := by
  unfold stamp noFirst
  dsimp only
  split
  · rename_i h
    simpa using h
  · rename_i h
    simpa using h

@[simp] theorem updateFirst_key (s : Sink) (f : MediaFrame) :
    (s.updateFirst f).videoKeyFrameReceived = s.videoKeyFrameReceived := by
  unfold updateFirst
  split <;> rfl

@[simp] theorem stamp_key (s : Sink) (f : MediaFrame) :
    (s.stamp f).1.videoKeyFrameReceived = s.videoKeyFrameReceived := by
  unfold stamp
  dsimp only
  split
  · exact updateFirst_key s f
  · exact updateFirst_key s f

theorem accept_key (s : Sink) (f : MediaFrame) : (s.accept f).1.videoKeyFrameReceived = (s.accept f).2 := by
  unfold accept
  split
  · rename_i h
    simp only [Bool.and_eq_true, Bool.not_eq_true'] at h
    exact h.1
  · split <;> rfl

end Sink

/-- Where `process` is. The frame that makes it rotate is carried along. -/
inductive Pc
  | ready
  | stop (f : MediaFrame)
  | flush (f : MediaFrame)
  | join (f : MediaFrame)
  | init (f : MediaFrame)
  | start (f : MediaFrame)
  | push (q : QueuedFrame)
  deriving DecidableEq

/-- Where `_sink_routine` of the internal sink is. -/
inductive Thread
  | check
  | pop
  | handle (q : QueuedFrame)
  | exited
  deriving DecidableEq

/-- The fragmenting sink, the shared queue and the internal sink's thread. `fragment` numbers the
calls of `init_internal_sink`, `seen` lists the frames given to `process` from the first key frame
on, and `handed` what the internal sink's `process` got, with the fragment it was in. -/
structure Pipeline where
  sink : Sink
  queue : MediaFrameQueue
  running : Bool
  thread : Thread
  pc : Pc
  fragment : ℕ
  started : Bool
  seen : List MediaFrame
  handed : List (QueuedFrame × ℕ)
  deriving DecidableEq

/-- The steps of the two threads. `init ok` opens the next fragment, and `setEos` is called by the
internal sink on an error. -/
inductive Op
  | process (f : MediaFrame)
  | stop
  | flush
  | join
  | init (ok : Bool)
  | start
  | push
  | check
  | pop
  | handle
  | setEos
  deriving DecidableEq

/-- Whether the step is one of the internal sink's thread. -/
def Op.internal : Op → Bool
  | .check | .pop | .handle => true
  | _ => false

namespace Pipeline

/-- After `init` and `negotiate`, with the queue made for an internal sink that is droppable or not. -/
def opened (mode : Mode) (param : ℕ) (droppable : Bool) : Pipeline where
  sink := .init mode param
  queue := ⟨[], droppable, false, false, false⟩
  running := true
  thread := .check
  pc := .ready
  fragment := 0
  started := false
  seen := []
  handed := []

/-- Whether the frame comes after the first key frame, or is it. -/
def counts (p : Pipeline) (f : MediaFrame) : Bool := p.started || f.isKey

/-- The end of `process`, up to the push. -/
def finish (p : Pipeline) (f : MediaFrame) : Pipeline :=
  { p with
    sink := (p.sink.stamp f).1
    pc := match (p.sink.stamp f).2 with
      | none => .ready
      | some g => .push ⟨g, f, p.fragment⟩ }

/-- The frame as seen, and the start of `process`. -/
def note (p : Pipeline) (f : MediaFrame) : Pipeline :=
  { p with
    sink := (p.sink.accept f).1
    started := p.counts f
    seen := if p.counts f then p.seen ++ [f] else p.seen }

/-- `process` of a video frame, up to the push or the rotation. -/
def process (p : Pipeline) (f : MediaFrame) : Pipeline :=
  if (p.sink.accept f).2 then
    if (p.note f).sink.rotates f then { p.note f with pc := .stop f } else (p.note f).finish f
  else p.note f

/-- The rest of `process` once the internal sink was started again, or failed to. -/
def restarted (p : Pipeline) (f : MediaFrame) : Pipeline :=
  { p with sink := p.sink.rotateStats }.finish f

def step (p : Pipeline) : Op → Option Pipeline
  | .process f => if p.pc = .ready ∧ f.type = .video then some (p.process f) else none
  | .stop =>
    match p.pc with
    | .stop f => some { p with running := false, pc := .flush f }
    | _ => none
  | .flush =>
    match p.pc with
    | .flush f => some { p with queue := p.queue.flush, pc := .join f }
    | _ => none
  | .join =>
    match p.pc with
    | .join f => if p.thread = .exited then some { p with pc := .init f } else none
    | _ => none
  | .init ok =>
    match p.pc with
    | .init f =>
      let p := { p with fragment := p.fragment + 1 }
      if ok then some { p with pc := .start f } else some (p.restarted f)
    | _ => none
  | .start =>
    match p.pc with
    | .start f =>
      some ({ p with queue := p.queue.flushStop, running := true, thread := .check }.restarted f)
    | _ => none
  | .push =>
    match p.pc with
    | .push q => if p.queue.canPush then some { p with queue := p.queue.push q, pc := .ready } else none
    | _ => none
  | .check =>
    match p.thread with
    | .check => some { p with thread := if p.running then .pop else .exited }
    | _ => none
  | .pop =>
    match p.thread, p.queue.queue with
    | .pop, q :: qs => some { p with thread := .handle q, queue := { p.queue with queue := qs } }
    | .pop, [] => if p.queue.flushing || p.queue.eos then some { p with thread := .exited } else none
    | _, _ => none
  | .handle =>
    match p.thread with
    | .handle q => some { p with thread := .check, handed := p.handed ++ [(q, p.fragment)] }
    | _ => none
  | .setEos => some { p with queue := p.queue.setEos }

/-- The frame that the internal sink's thread has popped and not yet handed over. -/
def held (p : Pipeline) : List QueuedFrame :=
  match p.thread with
  | .handle q => [q]
  | _ => []

/-- The frame that `process` has not yet pushed. -/
def pending (p : Pipeline) : List MediaFrame :=
  match p.pc with
  | .ready => []
  | .push q => [q.source]
  | .stop f | .flush f | .join f | .init f | .start f => [f]

/-- The frames in the order they were handed over in, then those on their way. -/
def frames (p : Pipeline) : List MediaFrame :=
  p.handed.map (·.1.source) ++ p.held.map (·.source) ++ p.queue.queue.map (·.source) ++ p.pending

/-- Every frame was handed over once, in order and in its fragment, or is on its way there, and the
internal sink's thread did not leave a frame in the queue. -/
structure NothingLost (p : Pipeline) : Prop where
  frames : p.frames = p.seen
  fragment : ∀ h ∈ p.handed, h.1.fragment = h.2
  served : p.thread = .exited → p.queue.queue = []

/-- What a step has to find for the frames not to be lost by it. -/
def Keeps (p : Pipeline) : Op → Prop
  | .process f => p.counts f = true → (p.sink.accept f).2 = true ∧
      ((p.sink.accept f).1.rotates f = false → (p.sink.accept f).1.noFirst f = false)
  | .flush => p.queue.queue = []
  | .init ok => ok = false → ∀ f ∈ p.pending, p.sink.rotateStats.noFirst f = false
  | .start => ∀ f ∈ p.pending, p.sink.rotateStats.noFirst f = false
  | .push => p.queue.flushing = false ∧ p.thread ≠ .exited ∧
      (MediaFrameQueue.full p.queue.queue = true → p.queue.drop = false)
  | .check => p.running = true ∨ p.queue.queue = []
  | .stop | .join | .pop | .handle | .setEos => True

instance (p : Pipeline) (op : Op) : Decidable (p.Keeps op) := by
  cases op <;> unfold Keeps <;> infer_instance

end Pipeline
end CloudAgent.Streamer.MultiFrag
