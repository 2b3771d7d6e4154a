import Mathlib.Algebra.Order.Ring.Int
import Mathlib.Data.List.Chain
import Mathlib.Tactic.Linarith
import Mathlib.Tactic.LinearCombination
import CloudAgent.Streamer.MultiFrag.Recovery

/-! The times at which fragments start. A fragment starts where the one before it ends, and its duration
is a whole number of milliseconds, so the parts of a millisecond that are cut off add up. -/
namespace CloudAgent.Streamer.MultiFrag
open Transition

namespace Sink

/-- What the duration of a fragment lacks when the frame makes `process` rotate, in milliseconds times `d`. -/
def cutOff (n d : ℤ) (s : Sink) (f : MediaFrame) : ℤ :=
  if s.opensNext f then n * 1000 * (s.lastVideoPts - s.firstVideoPts) % d else 0

/-- How far the base moves when it is taken from the frame, in milliseconds times the denominator. -/
def retaken (n : ℤ) (s : Sink) (f : MediaFrame) : ℤ :=
  if (s.beforeStamp f).takesFirst f then n * 1000 * (f.pts - (s.beforeStamp f).firstVideoPts) else 0

end Sink

/-- The sink, and the time lost so far, in milliseconds times the denominator of the timescale. -/
structure Clocked where
  frag : FragSink
  lost : ℤ
  deriving DecidableEq

namespace Clocked

/-- What a call loses once there are frames. -/
def loss (n d : ℤ) (s : FragSink) : Call → ℤ
  | .process a => if s.pushed = [] then 0 else s.sink.cutOff n d a.frame + s.sink.retaken n a.frame
  | .init | .negotiate | .finit => 0

def step (n d : ℤ) (c : Clocked) (call : Call) : Option Clocked :=
  (c.frag.step call).map fun t => ⟨t, c.lost + loss n d c.frag call⟩

def opened (mode : Mode) (param : ℕ) : Clocked := ⟨(FragSink.new mode param).init.negotiate, 0⟩

/-- Between `begin` and the time of the frame with the pts `base`, if `origin` is on time, lies less than a
millisecond. Both sides are multiplied by the denominator. -/
def Close (n d : ℤ) (origin : Arrival) (begin : Time) (base : ℤ) : Prop :=
  |(begin - origin.start) * d - n * 1000000000 * (base - origin.frame.pts)| < 1000000 * d

instance (n d : ℤ) (origin : Arrival) (begin : Time) (base : ℤ) : Decidable (Close n d origin begin base) := by
  unfold Close
  infer_instance

/-- A fragment with frames that is reported by the call begins when its base frame does. -/
def Near (n d : ℤ) (origin : Arrival) (c : Clocked) (call : Call) : Prop :=
  ∀ t ∈ c.step n d call, c.frag.pushed ≠ [] → ∀ r ∈ t.frag.finalized.drop c.frag.finalized.length,
    Close n d origin r.begin c.frag.sink.firstVideoPts

instance (n d : ℤ) (origin : Arrival) (c : Clocked) (call : Call) : Decidable (Near n d origin c call) := by
  unfold Near
  infer_instance

/-- The call is that of a negotiated sink: the end, or a video frame with the timescale that is pushed and whose time
in milliseconds is a quotient of 64 bits. -/
def Plays (n d : ℤ) (c : Clocked) (call : Call) : Prop :=
  c.frag.phase = .negotiated ∧
    match call with
    | .process a => a.frame.type = .video ∧ a.frame.timescale = (n, d) ∧ a.frame.pts ≠ noPts ∧
        n * 1000 * a.frame.pts < 2 ^ 63 ∧ c.frag.Pushes a
    | .finit => True
    | .init | .negotiate => False

instance (n d : ℤ) (c : Clocked) : (call : Call) → Decidable (Plays n d c call)
  | .process a => inferInstanceAs (Decidable (c.frag.phase = .negotiated ∧
      a.frame.type = .video ∧ a.frame.timescale = (n, d) ∧ a.frame.pts ≠ noPts ∧
        n * 1000 * a.frame.pts < 2 ^ 63 ∧ c.frag.Pushes a))
  | .finit => inferInstanceAs (Decidable (c.frag.phase = .negotiated ∧ True))
  | .init | .negotiate => inferInstanceAs (Decidable (c.frag.phase = .negotiated ∧ False))

/-- When a fragment with frames is reported, less than a millisecond has been lost. -/
def SmallLoss (d : ℤ) (c : Clocked) : Call → Prop
  | .process a => c.frag.pushed ≠ [] → c.frag.sink.opensNext a.frame = true → c.lost < d
  | .finit => c.frag.pushed ≠ [] → c.frag.fragUri ≠ none → 0 < c.frag.sink.fragmentDuration → c.lost < d
  | .init | .negotiate => True

instance (d : ℤ) (c : Clocked) : (call : Call) → Decidable (SmallLoss d c call)
  | .process a => inferInstanceAs (Decidable (c.frag.pushed ≠ [] → c.frag.sink.opensNext a.frame = true → c.lost < d))
  | .finit => inferInstanceAs (Decidable (c.frag.pushed ≠ [] → c.frag.fragUri ≠ none →
      0 < c.frag.sink.fragmentDuration → c.lost < d))
  | .init | .negotiate => inferInstanceAs (Decidable True)

/-- What is known once there are frames, as long as all are pushed. -/
structure Running (n d : ℤ) (origin : Arrival) (c : Clocked) : Prop where
  pushed : c.frag.pushed ≠ []
  base : 0 ≤ c.frag.sink.firstVideoPts
  ordered : c.frag.sink.firstVideoPts ≤ c.frag.sink.lastVideoPts
  duration : c.frag.sink.fragmentDuration =
    (n * 1000 * (c.frag.sink.lastVideoPts - c.frag.sink.firstVideoPts)).tdiv d
  start : 0 < c.frag.fragmentStart
  lost : 0 ≤ c.lost
  account : (c.frag.fragmentStart - origin.start) * d + c.lost * 1000000 =
    n * 1000000000 * (c.frag.sink.firstVideoPts - origin.frame.pts)

/-- Every fragment begins where the one before it ends, and so does the open one. -/
structure Chained (s : FragSink) : Prop where
  chain : s.finalized.IsChain fun r r' => r.begin + r.duration * 1000000 = r'.begin
  last : s.phase = .negotiated → ∀ r ∈ s.finalized.getLast?, r.begin + r.duration * 1000000 = s.fragmentStart

variable {n d : ℤ} {origin a : Arrival} {c : Clocked} {s t : FragSink} {mode : Mode} {param : ℕ}

/-! ### A frame that is pushed -/

/-- The members after a frame that is pushed. -/
theorem pushed_sink (hv : a.frame.type = .video) (hpts : a.frame.pts ≠ noPts) (hp : s.Pushes a) :
    (s.process a).sink.lastVideoPts = a.frame.pts ∧
      (s.process a).sink.firstVideoPts = (if (s.sink.beforeStamp a.frame).takesFirst a.frame then a.frame.pts
        else (s.sink.beforeStamp a.frame).firstVideoPts) ∧
      (s.process a).sink.fragmentDuration = Sink.elapsed (s.process a).sink.firstVideoPts a.frame := by
  obtain ⟨hacc, hbase⟩ := (FragSink.pushes_iff hv).mp hp
  have hsink : (s.process a).sink =
      (((s.sink.beforeStamp a.frame).updateFirst a.frame).updateStats a.frame).updateLast a.frame := by
    rw [FragSink.process_sink hv, Sink.process_of_accepted hacc, Sink.stamp_of_first hbase]
  rw [hsink]
  refine ⟨if_pos hpts, ?_, rfl⟩
  change ((s.sink.beforeStamp a.frame).updateFirst a.frame).firstVideoPts = _
  rw [Sink.updateFirst_eq]
  split <;> rfl

theorem last_le_of_accepted {f : MediaFrame} {k : Sink} (hpts : f.pts ≠ noPts) (h : (k.accept f).2 = true) :
    k.lastVideoPts ≤ f.pts := by
  unfold Sink.accept at h
  split at h
  · exact absurd h Bool.false_ne_true
  · split at h
    · exact absurd h Bool.false_ne_true
    · rename_i hno
      exact not_lt.mp fun hlt => hno ⟨hpts, hlt⟩

/-- A frame that plays has its time computed without an overflow. -/
theorem elapsed_of_plays {first : ℤ} {call : Arrival} (hn : 0 < n) (hint : n * 1000 < 2 ^ 31)
    (hp : c.Plays n d (.process call)) (hfirst : 0 ≤ first) (hle : first ≤ call.frame.pts) :
    Sink.elapsed first call.frame = (n * 1000 * (call.frame.pts - first)).tdiv d := by
  obtain ⟨-, -, hscale, -, hfits, -⟩ := hp
  have hfirst' : call.frame.timescale.1 = n := by rw [hscale]
  rw [Sink.elapsed_of_fits (hfirst'.symm ▸ hn.le) (hfirst'.symm ▸ hint) hfirst hle (hfirst'.symm ▸ hfits), hscale]

/-- The account as it is before the frame takes its place in the fragment: the fragment stays open, or the frame starts
the next one, and what the duration of the old one cuts off is lost. -/
theorem Running.beforeStamp (hn : 0 < n) (hd : 0 < d) (h : Running n d origin c)
    (hacc : (c.frag.sink.accept a.frame).2 = true) (hle : c.frag.sink.lastVideoPts ≤ a.frame.pts) :
    0 ≤ (c.frag.sink.beforeStamp a.frame).firstVideoPts ∧
      (c.frag.sink.beforeStamp a.frame).firstVideoPts ≤ a.frame.pts ∧
      (c.frag.prepare a).fragmentStart * d + (c.lost + c.frag.sink.cutOff n d a.frame) * 1000000 - origin.start * d =
        n * 1000000000 * ((c.frag.sink.beforeStamp a.frame).firstVideoPts - origin.frame.pts) ∧
      0 < (c.frag.prepare a).fragmentStart ∧ 0 ≤ c.frag.sink.cutOff n d a.frame := by
  have hstart' : c.frag.startAt a = c.frag.fragmentStart := if_neg h.start.ne'
  have hacct := h.account
  rw [Sink.cutOff, Sink.beforeStamp, Sink.accept_fst]
  cases hrot : c.frag.sink.opensNext a.frame with
  | false =>
    rw [FragSink.prepare_of_continues hacc hrot, hstart']
    simp only [Bool.false_eq_true, if_false]
    exact ⟨h.base, h.ordered.trans hle, by linear_combination hacct, h.start, le_rfl⟩
  | true =>
    rw [FragSink.prepare_of_rotates hrot, hstart', h.duration]
    simp only [if_true, Sink.rotateStats]
    have hlen : 0 ≤ n * 1000 * (c.frag.sink.lastVideoPts - c.frag.sink.firstVideoPts) :=
      mul_nonneg (by omega) (sub_nonneg.mpr h.ordered)
    rw [Int.tdiv_eq_ediv_of_nonneg hlen]
    have hdiv := Int.mul_ediv_add_emod (n * 1000 * (c.frag.sink.lastVideoPts - c.frag.sink.firstVideoPts)) d
    have hquot := Int.ediv_nonneg hlen hd.le
    exact ⟨h.base.trans h.ordered, hle, by linear_combination hacct + 1000000 * hdiv,
      add_pos_of_pos_of_nonneg h.start (mul_nonneg hquot (by decide)), Int.emod_nonneg _ hd.ne'⟩

/-- The account is kept by a frame for which the fragment stays open, and by one that starts the next. -/
theorem Running.process (hn : 0 < n) (hint : n * 1000 < 2 ^ 31) (hd : 0 < d) (h : Running n d origin c)
    (hp : c.Plays n d (.process a)) :
    Running n d origin ⟨c.frag.process a, c.lost + loss n d c.frag (.process a)⟩ := by
  have hexact : ∀ first, 0 ≤ first → first ≤ a.frame.pts → _ := fun _ => elapsed_of_plays hn hint hp
  obtain ⟨-, hv, -, hpts, -, hpush⟩ := hp
  have hacc := ((FragSink.pushes_iff hv).mp hpush).1
  obtain ⟨hlast', hfirst', hdur'⟩ := pushed_sink hv hpts hpush
  have hpushed' : (c.frag.process a).pushed ≠ [] := by
    obtain ⟨g, k, hpush⟩ := hpush
    simp [hpush]
  have hsame : (c.frag.process a).fragmentStart = (c.frag.prepare a).fragmentStart := by
    rw [FragSink.process_of_accepted hv hacc]
    rfl
  have hloss : loss n d c.frag (.process a) = c.frag.sink.cutOff n d a.frame + c.frag.sink.retaken n a.frame :=
    if_neg h.pushed
  -- how the base moves, whatever it was before
  have hretaken : c.frag.sink.retaken n a.frame =
      n * 1000 * ((c.frag.process a).sink.firstVideoPts - (c.frag.sink.beforeStamp a.frame).firstVideoPts) := by
    rw [Sink.retaken, hfirst']
    split
    · rfl
    · rw [sub_self, mul_zero]
  obtain ⟨hbase, hge, hacct', hpos, hcut⟩ := h.beforeStamp hn hd hacc (last_le_of_accepted hpts hacc)
  rw [← hsame] at hacct' hpos
  have hlost := h.lost
  have hbase' : 0 ≤ (c.frag.process a).sink.firstVideoPts := by
    rw [hfirst']
    split
    · exact hbase.trans hge
    · exact hbase
  have hordered' : (c.frag.process a).sink.firstVideoPts ≤ a.frame.pts := by
    rw [hfirst']
    split
    · exact le_rfl
    · exact hge
  refine ⟨hpushed', hbase', by rw [hlast']; exact hordered', ?_, hpos, ?_, ?_⟩
  · dsimp only
    rw [hlast', hdur', hexact _ hbase' hordered']
  · have hmove : (c.frag.sink.beforeStamp a.frame).firstVideoPts ≤ (c.frag.process a).sink.firstVideoPts := by
      rw [hfirst']
      split
      · exact hge
      · exact le_rfl
    have hret : 0 ≤ c.frag.sink.retaken n a.frame := by
      rw [hretaken]
      exact mul_nonneg (by omega) (sub_nonneg.mpr hmove)
    dsimp only
    rw [hloss]
    omega
  · dsimp only
    rw [hloss, hretaken]
    linear_combination hacct'

/-- The account is opened by the first frame, even if it makes an empty fragment end. -/
theorem Running.first (hn : 0 < n) (hint : n * 1000 < 2 ^ 31) (hp : (opened mode param).Plays n d (.process a))
    (hstart : 0 < a.start) : Running n d a ⟨(opened mode param).frag.process a, 0⟩ := by
  have hexact : ∀ first, 0 ≤ first → first ≤ a.frame.pts → _ := fun _ => elapsed_of_plays hn hint hp
  obtain ⟨-, hv, -, hpts, -, hpush⟩ := hp
  have hacc := ((FragSink.pushes_iff hv).mp hpush).1
  obtain ⟨hlast', hfirst', hdur'⟩ := pushed_sink hv hpts hpush
  have hnonneg : 0 ≤ a.frame.pts := last_le_of_accepted hpts hacc
  have hzero : ((opened mode param).frag.sink.beforeStamp a.frame).firstVideoPts = 0 := by
    rw [Sink.beforeStamp, Sink.accept_fst]
    split <;> rfl
  have htakes : ((opened mode param).frag.sink.beforeStamp a.frame).takesFirst a.frame = true := by
    simp [Sink.takesFirst, hzero]
  rw [if_pos htakes] at hfirst'
  have hbegin : ((opened mode param).frag.process a).fragmentStart = a.start := by
    rw [FragSink.process_of_accepted hv hacc]
    cases hrot : (opened mode param).frag.sink.opensNext a.frame with
    | false =>
      rw [FragSink.prepare_of_continues hacc hrot]
      rfl
    | true =>
      rw [FragSink.prepare_of_rotates hrot]
      exact add_zero _
  refine ⟨?_, by rw [hfirst']; exact hnonneg, by rw [hlast', hfirst'], ?_, by rw [hbegin]; exact hstart, le_rfl, ?_⟩
  · obtain ⟨g, k, hpush⟩ := hpush
    simp [hpush]
  · dsimp only
    rw [hlast', hdur', hfirst', hexact _ hnonneg le_rfl]
  · dsimp only
    rw [hbegin, hfirst', sub_self, sub_self, zero_mul, zero_mul, mul_zero, add_zero]

/-! ### What is reported -/

/-- The error of the start of the open fragment is the lost time. -/
theorem Running.close_iff (h : Running n d origin c) :
    Close n d origin c.frag.fragmentStart c.frag.sink.firstVideoPts ↔ c.lost < d := by
  have herror : (c.frag.fragmentStart - origin.start) * d -
      n * 1000000000 * (c.frag.sink.firstVideoPts - origin.frame.pts) = -(c.lost * 1000000) := by
    linear_combination h.account
  rw [Close, herror, abs_neg, abs_of_nonneg (mul_nonneg h.lost (by decide)), mul_comm]
  exact mul_lt_mul_iff_right₀ (by decide)

theorem process_finalized (hv : a.frame.type = .video) (hacc : (s.sink.accept a.frame).2 = true) :
    (s.process a).finalized =
        (if s.sink.opensNext a.frame then s.finalized ++ [⟨s.fragUri, s.startAt a, s.sink.fragmentDuration⟩]
          else s.finalized) ∧
      (s.process a).fragmentStart =
        if s.sink.opensNext a.frame then s.startAt a + s.sink.fragmentDuration * 1000000 else s.startAt a := by
  rw [FragSink.process_of_accepted hv hacc]
  cases hrot : s.sink.opensNext a.frame with
  | false =>
    rw [FragSink.prepare_of_continues hacc hrot]
    exact ⟨rfl, rfl⟩
  | true =>
    rw [FragSink.prepare_of_rotates hrot]
    exact ⟨rfl, rfl⟩

theorem finit_finalized (s : FragSink) :
    s.finit.finalized =
      if s.fragUri ≠ none ∧ 0 < s.sink.fragmentDuration then
        s.finalized ++ [⟨s.fragUri, s.fragmentStart, s.sink.fragmentDuration⟩]
      else s.finalized := by
  unfold FragSink.finit
  dsimp only
  split <;> rfl

theorem Running.near_iff (h : Running n d origin c) {call : Call} (hp : c.Plays n d call) :
    c.Near n d origin call ↔ c.SmallLoss d call := by
  cases call with
  | init => exact hp.2.elim
  | negotiate => exact hp.2.elim
  | process a =>
    obtain ⟨hphase, hv, -, -, -, hpush⟩ := hp
    have hacc := ((FragSink.pushes_iff hv).mp hpush).1
    have hstep : c.step n d (.process a) = some ⟨c.frag.process a, c.lost + loss n d c.frag (.process a)⟩ := by
      simp [step, FragSink.step, hphase]
    rw [Near, SmallLoss, hstep]
    simp only [Option.mem_some_iff, forall_eq', (process_finalized hv hacc).1]
    cases hrot : c.frag.sink.opensNext a.frame with
    | false => simp
    | true =>
      have hstart : c.frag.startAt a = c.frag.fragmentStart := if_neg h.start.ne'
      simp only [if_true, List.drop_left, List.forall_mem_singleton, hstart, forall_const, h.close_iff]
  | finit =>
    have hstep : c.step n d .finit = some ⟨c.frag.finit, c.lost + 0⟩ := by
      simp [step, FragSink.step, hp.1, loss]
    rw [Near, SmallLoss, hstep]
    simp only [Option.mem_some_iff, forall_eq', finit_finalized]
    split
    · rename_i hrep
      simp only [List.drop_left, List.forall_mem_singleton, h.close_iff, forall_prop_of_true hrep.1,
        forall_prop_of_true hrep.2]
    · rename_i hno
      exact iff_of_true (by simp) fun _ huri hdur => absurd ⟨huri, hdur⟩ hno

theorem Chained.process (h : Chained s) (hphase : s.phase = .negotiated) (hv : a.frame.type = .video)
    (hacc : (s.sink.accept a.frame).2 = true) (hstart : s.finalized = [] ∨ s.startAt a = s.fragmentStart) :
    Chained (s.process a) := by
  obtain ⟨hfin, hbegin⟩ := process_finalized hv hacc
  have hjoin : ∀ r ∈ s.finalized.getLast?, r.begin + r.duration * 1000000 = s.startAt a := by
    intro r hr
    rcases hstart with hnil | hsame
    · simp [hnil] at hr
    · rw [hsame]
      exact h.last hphase r hr
  cases hrot : s.sink.opensNext a.frame with
  | false =>
    rw [hrot, if_neg Bool.false_ne_true] at hfin hbegin
    exact ⟨hfin ▸ h.chain, fun _ => by rwa [hfin, hbegin]⟩
  | true =>
    rw [hrot, if_pos rfl] at hfin hbegin
    refine ⟨?_, fun _ r hr => ?_⟩
    · rw [hfin]
      apply h.chain.append (List.IsChain.singleton _)
      intro r hr r' hr'
      obtain rfl := Option.some.inj hr'
      exact hjoin r hr
    · rw [hfin, List.getLast?_concat] at hr
      obtain rfl := Option.some.inj hr
      exact hbegin.symm

theorem Chained.finit (h : Chained s) (hphase : s.phase = .negotiated) : Chained s.finit := by
  refine ⟨?_, fun hp => ?_⟩
  · rw [finit_finalized]
    split
    · apply h.chain.append (List.IsChain.singleton _)
      intro r hr r' hr'
      obtain rfl := Option.some.inj hr'
      exact h.last hphase r hr
    · exact h.chain
  · exact absurd hp (by simp [FragSink.finit])

/-! ### Whole runs -/

/-- What the calls keep: the account as long as the sink is negotiated, and the chain. -/
theorem step_kept (hn : 0 < n) (hint : n * 1000 < 2 ^ 31) (hd : 0 < d) {t : Clocked} {call : Call}
    (h : c.frag.phase = .negotiated → Running n d origin c) (hp : c.Plays n d call)
    (hs : c.step n d call = some t) :
    (t.frag.phase = .negotiated → Running n d origin t) ∧ (Chained c.frag → Chained t.frag) := by
  cases call with
  | init => exact hp.2.elim
  | negotiate => exact hp.2.elim
  | process a =>
    have hrun := h hp.1
    have hnext := hrun.process hn hint hd hp
    obtain ⟨hphase, hv, -, -, -, hpush⟩ := hp
    have hacc := ((FragSink.pushes_iff hv).mp hpush).1
    simp only [step, FragSink.step, hphase, if_true, Option.map_some, Option.some.injEq] at hs
    subst hs
    exact ⟨fun _ => hnext,
      fun hc => hc.process hphase hv hacc (.inr (if_neg hrun.start.ne'))⟩
  | finit =>
    have hphase := hp.1
    simp only [step, FragSink.step, hphase, ne_eq, reduceCtorEq, not_false_eq_true, if_true, Option.map_some,
      Option.some.injEq] at hs
    subst hs
    exact ⟨fun hp => absurd hp (by simp [FragSink.finit]), fun hc => hc.finit hphase⟩

/-- For every timescale whose first term is an `int` in milliseconds too, every mode, parameter and sequence of frames
that are all pushed, with any number of rotations: the fragments begin when their base frames do, up to less than a
millisecond, exactly if less than a millisecond has been lost whenever one is reported. Each of them begins where the one
before it ends in any case. -/
theorem starts_near_iff (hn : 0 < n) (hint : n * 1000 < 2 ^ 31) (hd : 0 < d) (a : Arrival) (calls : List Call)
    (hstart : 0 < a.start)
    (hp : Meets (step n d) (Plays n d) (opened mode param) (.process a :: calls)) :
    (Meets (step n d) (Near n d a) (opened mode param) (.process a :: calls) ↔
      Meets (step n d) (SmallLoss d) (opened mode param) (.process a :: calls)) ∧
    ∀ c, exec (step n d) (opened mode param) (.process a :: calls) = some c →
      c.frag.finalized.IsChain fun r r' => r.begin + r.duration * 1000000 = r'.begin := by
  obtain ⟨hfirst, hrest⟩ := hp
  let c₁ : Clocked := ⟨(opened mode param).frag.process a, 0⟩
  have hstep : (opened mode param).step n d (.process a) = some c₁ := rfl
  have hrun : c₁.frag.phase = .negotiated → Running n d a c₁ := fun _ => .first hn hint hfirst hstart
  have hchain : Chained c₁.frag := by
    have hacc := ((FragSink.pushes_iff hfirst.2.1).mp hfirst.2.2.2.2.2).1
    exact Chained.process ⟨.nil, by simp [opened, FragSink.new, FragSink.init, FragSink.negotiate,
      FragSink.startInternalSink]⟩ rfl hfirst.2.1 hacc (.inl rfl)
  have hrest := hrest c₁ hstep
  constructor
  · rw [Meets, Meets, hstep]
    simp only [Option.mem_some_iff, forall_eq']
    refine and_congr (iff_of_true (fun _ _ hne => absurd rfl hne) fun hne => absurd rfl hne) ?_
    exact meets_iff_meets (I := fun c => c.frag.phase = .negotiated → Running n d a c)
      (fun u b v hu hb _ hv => (step_kept hn hint hd hu hb hv).1) (fun u b hu hb => (hu hb.1).near_iff hb) hrun hrest
  · intro c he
    obtain ⟨u, hu, he⟩ := exec_cons_eq_some.mp he
    obtain rfl := Option.some.inj (hstep.symm.trans hu)
    have hkept := invariant (P := fun c => (c.frag.phase = .negotiated → Running n d a c) ∧ Chained c.frag)
      (fun u b v hu hb hv =>
        ⟨(step_kept hn hint hd hu.1 hb hv).1, (step_kept hn hint hd hu.1 hb hv).2 hu.2⟩)
      ⟨hrun, hchain⟩ hrest he
    exact hkept.2.chain

/-- A key frame with a time in ticks of 90 kHz, at one second past the epoch. -/
def keyAt (ticks : ℤ) : Arrival := ⟨⟨.video, 1, ticks, ticks, true, (1, 90000)⟩, 0, seconds 1⟩

/-- One rotation, for which half a millisecond is lost. -/
theorem starts_near_once :
    let calls : List Call := [.process (keyAt 93045), .process (keyAt 183090), .finit]
    Meets (step 1 90000) (Near 1 90000 (keyAt 3000)) (opened .duration 1) (.process (keyAt 3000) :: calls) ∧
      (exec (step 1 90000) (opened .duration 1) (.process (keyAt 3000) :: calls)).map
        (fun c => c.frag.finalized.map fun r => (r.begin, r.duration)) =
          some [(1000000000, 1000), (2000000000, 1000)] := by
  intro calls
  have hp : Meets (step 1 90000) (Plays 1 90000) (opened .duration 1) (.process (keyAt 3000) :: calls) := by
    decide +kernel
  have h := starts_near_iff (by decide) (by decide) (by decide) (keyAt 3000) calls (by decide) hp
  exact ⟨h.1.mpr (by decide +kernel), by decide +kernel⟩

/-- Fragments of a second and half a millisecond each: the third one is reported to begin a whole millisecond before
its base frame. -/
theorem starts_drift :
    let calls : List Call :=
      [.process (keyAt 3000), .process (keyAt 93045), .process (keyAt 183090), .process (keyAt 273135),
        .process (keyAt 363180)]
    Meets (step 1 90000) (Plays 1 90000) (opened .duration 1) calls ∧
      (exec (step 1 90000) (opened .duration 1) calls).map
        (fun c => c.frag.finalized.map fun r => (r.begin, r.duration)) =
          some [(1000000000, 1000), (2000000000, 1000), (3000000000, 1000)] ∧
      ¬ Close 1 90000 (keyAt 3000) 3000000000 183090 ∧
      ¬ Meets (step 1 90000) (Near 1 90000 (keyAt 3000)) (opened .duration 1) calls := by
  decide +kernel

end Clocked
end CloudAgent.Streamer.MultiFrag
