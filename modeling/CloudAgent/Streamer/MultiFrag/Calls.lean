import CloudAgent.Streamer.MultiFrag
import CloudAgent.Utils.Time

/-! The fragmenting sink as the owner of one calls it: what it makes of the frames, and which fragments
it names and reports. The queue and the thread of the internal sink are left out. -/
namespace CloudAgent.Streamer.MultiFrag

namespace Sink

/-- Whether the frame makes `process` rotate. -/
def opensNext (s : Sink) (f : MediaFrame) : Bool := (s.accept f).2 && (s.accept f).1.rotates f

/-- `process` of a video frame without its rotation. -/
def beforeStamp (s : Sink) (f : MediaFrame) : Sink :=
  if s.opensNext f then (s.accept f).1.rotateStats else (s.accept f).1

/-- `process` of a video frame: the members after it, and the frame to push. -/
def process (s : Sink) (f : MediaFrame) : Sink × Option MediaFrame :=
  if (s.accept f).2 then (s.beforeStamp f).stamp f else ((s.accept f).1, none)

/-- The members after `finit`. -/
def finit (s : Sink) : Sink :=
  { s with
    fragmentDuration := 0, firstVideoPts := 0, firstVideoDts := 0, lastVideoPts := 0, lastVideoDts := 0
    videoKeyFrameReceived := false }

end Sink

/-- A frame that `process` is called with, its `time_realtime` in microseconds, and the clock at the
time of the call. -/
structure Arrival where
  frame : MediaFrame
  timeRealtime : ℤ
  clock : Time
  deriving DecidableEq

/-- The first fragment starts at the time that the source gives, unless it is missing or old. -/
def Arrival.start (a : Arrival) : Time :=
  if a.timeRealtime ≠ 0 ∧ a.clock - a.timeRealtime * 1000 < seconds 30 then a.timeRealtime * 1000 else a.clock

/-- A video frame of one byte with a time in milliseconds, and the clock in seconds. -/
def arrivalAt (ms : ℤ) (key : Bool) (clock : ℤ) : Arrival :=
  ⟨⟨.video, 1, ms, ms, key, (1, 1000)⟩, 0, seconds clock⟩

/-- A call of `fragment_finalized`; a URI is known by the id that it was generated for. -/
structure Finalized where
  uri : Option ℕ
  begin : Time
  duration : ℤ
  deriving DecidableEq

inductive Phase
  | closed | initialized | negotiated
  deriving DecidableEq

/-- `MultiFrag::Sink`. `ids` lists the arguments of `fragment_generate_uri`, `finalized` the calls of
`fragment_finalized`, and `pushed` the frames that were pushed, with the number of ids there were. -/
structure FragSink where
  sink : Sink
  phase : Phase := .closed
  fragmentStart : Time := 0
  counter : ℕ := 0
  fragUri : Option ℕ := none
  ids : List ℕ := []
  finalized : List Finalized := []
  pushed : List QueuedFrame := []
  deriving DecidableEq

inductive Call
  | init
  | negotiate
  | process (a : Arrival)
  | finit
  deriving DecidableEq

namespace FragSink

/-- A new object. -/
def new (mode : Mode) (param : ℕ) : FragSink where
  sink := .init mode param

/-- `init`: what `frag_rotate_stats` does is overwritten, but for the counter and the size. -/
def init (s : FragSink) : FragSink :=
  { s with
    sink := .init s.sink.mode s.sink.modeParam, phase := .initialized, fragmentStart := 0
    counter := s.counter + 1 }

/-- `start_internal_sink`, which calls `init_internal_sink` first. -/
def startInternalSink (s : FragSink) : FragSink :=
  { s with fragUri := some s.counter, ids := s.ids ++ [s.counter] }

def negotiate (s : FragSink) : FragSink := { s.startInternalSink with phase := .negotiated }

def fragmentFinalized (s : FragSink) : FragSink :=
  { s with finalized := s.finalized ++ [⟨s.fragUri, s.fragmentStart, s.sink.fragmentDuration⟩] }

/-- `frag_rotate_stats` with the assignments that follow it. -/
def fragRotateStats (s : FragSink) : FragSink :=
  { s with
    sink := s.sink.rotateStats, fragmentStart := s.fragmentStart + s.sink.fragmentDuration * 1000000
    counter := s.counter + 1 }

def rotate (s : FragSink) : FragSink := s.fragmentFinalized.startInternalSink.fragRotateStats

/-- The end of `process`, with the push. -/
def stamp (s : FragSink) (f : MediaFrame) : FragSink :=
  { s with
    sink := (s.sink.stamp f).1
    pushed := match (s.sink.stamp f).2 with
      | none => s.pushed
      | some g => s.pushed ++ [⟨g, f, s.ids.length⟩] }

def setStart (s : FragSink) (a : Arrival) : FragSink :=
  if s.fragmentStart = 0 then { s with fragmentStart := a.start } else s

/-- The middle of `process`: the start of the first fragment, and the rotation. -/
def prepare (s : FragSink) (a : Arrival) : FragSink :=
  let started := { s with sink := (s.sink.accept a.frame).1 }.setStart a
  if started.sink.rotates a.frame then started.rotate else started

/-- `process`. There is no audio, and other frames are refused. -/
def process (s : FragSink) (a : Arrival) : FragSink :=
  if a.frame.type = .video then
    if (s.sink.accept a.frame).2 then (s.prepare a).stamp a.frame
    else { s with sink := (s.sink.accept a.frame).1 }
  else s

/-- `finit` finalizes the last fragment if it has a length. -/
def finit (s : FragSink) : FragSink :=
  let s := if s.fragUri ≠ none ∧ 0 < s.sink.fragmentDuration then s.fragmentFinalized else s
  { s with sink := s.sink.finit, phase := .closed, fragmentStart := 0 }

def step (s : FragSink) : Call → Option FragSink
  | .init => some s.init
  | .negotiate => if s.phase = .initialized then some s.negotiate else none
  | .process a => if s.phase = .negotiated then some (s.process a) else none
  | .finit => if s.phase ≠ .closed then some s.finit else none

/-- `process`, once the sink is negotiated. -/
def feed (s : FragSink) (a : Arrival) : Option FragSink := s.step (.process a)

end FragSink

/-! ### What the members are after `process` -/

namespace Sink
variable {s : Sink} {f : MediaFrame}

theorem accept_fst (s : Sink) (f : MediaFrame) :
    (s.accept f).1 = { s with videoKeyFrameReceived := (s.accept f).2 } := by
  unfold accept
  split
  · rename_i h
    have hwait : s.videoKeyFrameReceived = false := by simpa using (Bool.and_eq_true_iff.mp h).1
    rw [← hwait]
  · split <;> rfl

theorem accepted_of_opensNext (h : s.opensNext f = true) : (s.accept f).2 = true := (Bool.and_eq_true_iff.mp h).1

theorem process_of_not_accepted (h : (s.accept f).2 = false) :
    s.process f = ({ s with videoKeyFrameReceived := false }, none) := by
  rw [process, accept_fst, h, if_neg Bool.false_ne_true]

theorem process_of_accepted (h : (s.accept f).2 = true) : s.process f = (s.beforeStamp f).stamp f := by
  rw [process, if_pos h]

/-- Whether the frame's timestamps become those that the fragment starts from. -/
def takesFirst (s : Sink) (f : MediaFrame) : Bool :=
  s.firstVideoPts = 0 || s.firstVideoPts > f.pts || s.firstVideoPts = noPts || s.firstVideoDts = noPts

theorem updateFirst_eq (s : Sink) (f : MediaFrame) :
    s.updateFirst f = if s.takesFirst f then { s with firstVideoPts := f.pts, firstVideoDts := f.dts } else s := by
  simp only [updateFirst, takesFirst, Bool.or_eq_true, decide_eq_true_eq, or_assoc]

theorem noFirst_of_takes (ht : s.takesFirst f = true) :
    s.noFirst f = (decide (f.pts = noPts) || decide (f.dts = noPts)) := by
  rw [noFirst, updateFirst_eq, if_pos ht]

theorem noFirst_of_keeps (ht : s.takesFirst f = false) : s.noFirst f = false := by
  rw [noFirst, updateFirst_eq, ht, if_neg Bool.false_ne_true]
  simp only [takesFirst, Bool.or_eq_false_iff] at ht
  simp [ht.1.2, ht.2]

theorem stamp_of_first (h : s.noFirst f = false) :
    s.stamp f = (((s.updateFirst f).updateStats f).updateLast f, some ((s.updateFirst f).rebase f)) := by
  rw [stamp]
  rw [if_neg]
  simpa [noFirst] using h

theorem stamp_of_noFirst (h : s.noFirst f = true) : s.stamp f = (s.updateFirst f, none) := by
  rw [stamp]
  rw [if_pos]
  simpa [noFirst] using h

end Sink

namespace FragSink
variable {s : FragSink} {a : Arrival}

/-- The start of the open fragment once a frame was accepted. -/
def startAt (s : FragSink) (a : Arrival) : Time := if s.fragmentStart = 0 then a.start else s.fragmentStart

theorem setStart_eq (s : FragSink) (a : Arrival) : s.setStart a = { s with fragmentStart := s.startAt a } := by
  unfold setStart startAt
  split <;> rfl

theorem process_of_not_video (hv : a.frame.type ≠ .video) : s.process a = s := if_neg hv

theorem process_of_not_accepted (hv : a.frame.type = .video) (h : (s.sink.accept a.frame).2 = false) :
    s.process a = { s with sink := { s.sink with videoKeyFrameReceived := false } } := by
  rw [process, if_pos hv, h, if_neg Bool.false_ne_true, Sink.accept_fst, h]

theorem process_of_accepted (hv : a.frame.type = .video) (h : (s.sink.accept a.frame).2 = true) :
    s.process a = (s.prepare a).stamp a.frame := by
  rw [process, if_pos hv, if_pos h]

theorem prepare_of_continues (h : (s.sink.accept a.frame).2 = true) (hrot : s.sink.opensNext a.frame = false) :
    s.prepare a =
      { s with sink := { s.sink with videoKeyFrameReceived := true }, fragmentStart := s.startAt a } := by
  have hno : (s.sink.accept a.frame).1.rotates a.frame = false := by simpa [Sink.opensNext, h] using hrot
  rw [prepare, setStart_eq, Sink.accept_fst, h]
  rw [Sink.accept_fst, h] at hno
  exact if_neg (Bool.eq_false_iff.mp hno)

theorem prepare_of_rotates (hrot : s.sink.opensNext a.frame = true) :
    s.prepare a =
      { s with
        sink := Sink.rotateStats { s.sink with videoKeyFrameReceived := true }
        fragmentStart := s.startAt a + s.sink.fragmentDuration * 1000000
        counter := s.counter + 1
        fragUri := some s.counter
        ids := s.ids ++ [s.counter]
        finalized := s.finalized ++ [⟨s.fragUri, s.startAt a, s.sink.fragmentDuration⟩] } := by
  obtain ⟨h, hyes⟩ : (s.sink.accept a.frame).2 = true ∧ (s.sink.accept a.frame).1.rotates a.frame = true := by
    simpa [Sink.opensNext] using hrot
  rw [prepare, setStart_eq, Sink.accept_fst, h]
  rw [Sink.accept_fst, h] at hyes
  exact if_pos hyes

theorem stamp_of_noFirst {f : MediaFrame} (h : s.sink.noFirst f = true) :
    s.stamp f = { s with sink := s.sink.updateFirst f } := by
  rw [stamp, Sink.stamp_of_noFirst h]

theorem stamp_of_first {f : MediaFrame} (h : s.sink.noFirst f = false) :
    s.stamp f =
      { s with
        sink := ((s.sink.updateFirst f).updateStats f).updateLast f
        pushed := s.pushed ++ [⟨(s.sink.updateFirst f).rebase f, f, s.ids.length⟩] } := by
  rw [stamp, Sink.stamp_of_first h]

theorem feed_eq_some {t : FragSink} : feed s a = some t ↔ s.phase = .negotiated ∧ s.process a = t := by
  rw [feed, step, Option.ite_none_right_eq_some, Option.some.injEq]

theorem prepare_sink (h : (s.sink.accept a.frame).2 = true) : (s.prepare a).sink = s.sink.beforeStamp a.frame := by
  rw [Sink.beforeStamp, Sink.accept_fst, h]
  cases hrot : s.sink.opensNext a.frame with
  | false =>
    rw [prepare_of_continues h hrot]
    rfl
  | true =>
    rw [prepare_of_rotates hrot]
    rfl

/-- Whatever becomes of the frame, the members that decide are those of `Sink.process`. -/
theorem process_sink (hv : a.frame.type = .video) : (s.process a).sink = (s.sink.process a.frame).1 := by
  cases h : (s.sink.accept a.frame).2 with
  | false => rw [process_of_not_accepted hv h, Sink.process_of_not_accepted h]
  | true => rw [process_of_accepted hv h, Sink.process_of_accepted h, stamp, prepare_sink h]

theorem process_pushed (hv : a.frame.type = .video) :
    (s.process a).pushed = match (s.sink.process a.frame).2 with
      | none => s.pushed
      | some g => s.pushed ++ [⟨g, a.frame, (s.process a).ids.length⟩] := by
  cases h : (s.sink.accept a.frame).2 with
  | false => rw [process_of_not_accepted hv h, Sink.process_of_not_accepted h]
  | true =>
    have hsame : (s.prepare a).pushed = s.pushed := by
      cases hrot : s.sink.opensNext a.frame with
      | false => rw [prepare_of_continues h hrot]
      | true => rw [prepare_of_rotates hrot]
    rw [process_of_accepted hv h, Sink.process_of_accepted h, stamp, prepare_sink h, hsame]

end FragSink

/-! ### The two threads -/

namespace Pipeline

/-- The pipeline's members are the same ones: after `process` if it does not rotate, and otherwise once it is through
with the rotation, whatever the threads did meanwhile. -/
theorem process_sink (p : Pipeline) (f : MediaFrame) :
    (p.sink.opensNext f = false → (p.process f).sink = (p.sink.process f).1) ∧
      (p.sink.opensNext f = true → (p.process f).pc = .stop f ∧
        ∀ q : Pipeline, q.sink = (p.process f).sink → (q.restarted f).sink = (p.sink.process f).1) := by
  cases h : (p.sink.accept f).2 with
  | false =>
    have hno : p.sink.opensNext f = false := by simp [Sink.opensNext, h]
    refine ⟨fun _ => ?_, fun hrot => absurd hrot (by simp [hno])⟩
    rw [process, h, if_neg Bool.false_ne_true, Sink.process_of_not_accepted h, note, Sink.accept_fst, h]
  | true =>
    have hyes : p.sink.opensNext f = (p.note f).sink.rotates f := by simp [Sink.opensNext, h, note]
    rw [process, if_pos h, Sink.process_of_accepted h, Sink.beforeStamp, hyes]
    constructor
    · intro hrot
      rw [hrot, if_neg Bool.false_ne_true, if_neg Bool.false_ne_true]
      rfl
    · intro hrot
      rw [if_pos hrot, if_pos hrot]
      refine ⟨rfl, fun q hq => ?_⟩
      rw [restarted, hq]
      rfl

end Pipeline
end CloudAgent.Streamer.MultiFrag
