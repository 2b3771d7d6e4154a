import CloudAgent.Lib.Transition
import CloudAgent.Streamer.MultiFrag.Calls

/-! The timestamps of the frames in one fragment. They are relative to a base that is taken again when
it is zero, or when a frame without a pts comes. -/
namespace CloudAgent.Streamer

/-- The frame came with a pts. -/
def QueuedFrame.hasPts (q : QueuedFrame) : Prop := q.source.pts ≠ noPts

/-- Two frames of one fragment are in order, and were shifted by the same base. -/
def QueuedFrame.Before (q r : QueuedFrame) : Prop :=
  q.fragment = r.fragment → q.hasPts → r.hasPts →
    q.frame.pts < r.frame.pts ∧ q.source.pts - q.frame.pts = r.source.pts - r.frame.pts

/-- In every fragment the frames that came with a pts have increasing ones from zero on, with one base. -/
structure Ordered (l : List QueuedFrame) : Prop where
  nonneg : ∀ q ∈ l, q.hasPts → 0 ≤ q.frame.pts
  before : l.Pairwise QueuedFrame.Before

instance : DecidablePred QueuedFrame.hasPts := fun q => inferInstanceAs (Decidable (q.source.pts ≠ noPts))

instance : DecidableRel QueuedFrame.Before := fun q r => by
  unfold QueuedFrame.Before
  infer_instance

instance (l : List QueuedFrame) : Decidable (Ordered l) :=
  decidable_of_iff ((∀ q ∈ l, q.hasPts → 0 ≤ q.frame.pts) ∧ l.Pairwise QueuedFrame.Before)
    ⟨fun h => ⟨h.1, h.2⟩, fun h => ⟨h.nonneg, h.before⟩⟩

theorem ordered_append_singleton {l : List QueuedFrame} {r : QueuedFrame} :
    Ordered (l ++ [r]) ↔ Ordered l ∧ (r.hasPts → 0 ≤ r.frame.pts) ∧ ∀ q ∈ l, q.Before r := by
  constructor
  · rintro ⟨hnonneg, hbefore⟩
    obtain ⟨hl, -, hlr⟩ := List.pairwise_append.mp hbefore
    exact ⟨⟨fun q hq => hnonneg q (List.mem_append_left _ hq), hl⟩,
      hnonneg r (List.mem_append_right _ List.mem_cons_self), fun q hq => hlr q hq r List.mem_cons_self⟩
  · rintro ⟨⟨hnonneg, hbefore⟩, hr, hlr⟩
    refine ⟨fun q hq => ?_, ?_⟩
    · rcases List.mem_append.mp hq with hq | hq
      · exact hnonneg q hq
      · rw [List.mem_singleton.mp hq]
        exact hr
    · refine List.pairwise_append.mpr ⟨hbefore, List.pairwise_singleton _ _, fun q hq r' hr' => ?_⟩
      rw [List.mem_singleton.mp hr']
      exact hlr q hq

namespace MultiFrag
open Transition

namespace FragSink

/-- A sink that was just initialized and negotiated. -/
def opened (mode : Mode) (param : ℕ) : FragSink := (new mode param).init.negotiate

/-- The pushed frames stay ordered, and a frame without a pts changes neither the base nor the duration. -/
def KeepsOrder (s : FragSink) (a : Arrival) : Prop :=
  Ordered (s.process a).pushed ∧
    (a.frame.pts = noPts → (s.process a).sink.firstVideoPts = s.sink.firstVideoPts ∧
      (s.process a).sink.fragmentDuration = s.sink.fragmentDuration)

/-- A video frame without a pts, or with one after those of the frames that were pushed. -/
def Expected (s : FragSink) (a : Arrival) : Prop :=
  a.frame.type = .video ∧
    (a.frame.pts = noPts ∨ 0 ≤ a.frame.pts ∧ ∀ q ∈ s.pushed, q.source.pts < a.frame.pts)

/-- Only skipped frames are without a pts, and no frame is pushed to a fragment that has frames if the base is taken
from it. -/
def KeepsBase (s : FragSink) (a : Arrival) : Prop :=
  (s.sink.accept a.frame).2 = true → a.frame.pts ≠ noPts ∧
    (a.frame.dts ≠ noPts → s.sink.opensNext a.frame = false → s.sink.takesFirst a.frame = true →
      ∀ q ∈ s.pushed, q.fragment ≠ s.ids.length)

instance (s : FragSink) (a : Arrival) : Decidable (s.KeepsOrder a) := by
  unfold KeepsOrder
  infer_instance

instance (s : FragSink) (a : Arrival) : Decidable (s.KeepsBase a) := by
  unfold KeepsBase
  infer_instance

/-- What is known as long as every frame meets `KeepsBase`. -/
structure Based (s : FragSink) : Prop where
  ordered : Ordered s.pushed
  hasPts : ∀ q ∈ s.pushed, q.hasPts
  bound : ∀ q ∈ s.pushed, q.fragment ≤ s.ids.length
  first : 0 ≤ s.sink.firstVideoPts
  last : 0 ≤ s.sink.lastVideoPts
  base : s.sink.firstVideoDts ≠ noPts → ∀ q ∈ s.pushed, q.fragment = s.ids.length →
    q.source.pts - q.frame.pts = s.sink.firstVideoPts

variable {s : FragSink} {a : Arrival} {mode : Mode} {param : ℕ} {as : List Arrival}

theorem Based.opened (mode : Mode) (param : ℕ) : (opened mode param).Based where
  ordered := ⟨by simp [FragSink.opened, new, init, negotiate, startInternalSink], List.Pairwise.nil⟩
  hasPts := by simp [FragSink.opened, new, init, negotiate, startInternalSink]
  bound := by simp [FragSink.opened, new, init, negotiate, startInternalSink]
  first := Int.le_refl 0
  last := Int.le_refl 0
  base := by simp [FragSink.opened, new, init, negotiate, startInternalSink]

theorem ne_noPts {n : ℤ} (h : 0 ≤ n) : n ≠ noPts := by
  unfold noPts
  omega

/-! ### One frame -/

/-- A rotation leaves a new fragment without frames. -/
theorem Based.prepare (h : s.Based) (hacc : (s.sink.accept a.frame).2 = true) :
    (s.prepare a).Based ∧ (s.prepare a).pushed = s.pushed := by
  cases hrot : s.sink.opensNext a.frame with
  | false =>
    rw [prepare_of_continues hacc hrot]
    exact ⟨⟨h.ordered, h.hasPts, h.bound, h.first, h.last, h.base⟩, rfl⟩
  | true =>
    rw [prepare_of_rotates hrot]
    refine ⟨⟨h.ordered, h.hasPts, fun q hq => ?_, h.last, h.last, fun _ q hq hlast => ?_⟩, rfl⟩
    · rw [List.length_append]
      exact Nat.le_add_right_of_le (h.bound q hq)
    · have hle := h.bound q hq
      rw [List.length_append, List.length_singleton] at hlast
      omega

/-- The frame is not one that the base of a fragment with frames is taken from. -/
def Joins (s : FragSink) (f : MediaFrame) : Prop :=
  f.dts ≠ noPts → s.sink.takesFirst f = true → ∀ q ∈ s.pushed, q.fragment ≠ s.ids.length

theorem keepsBase_iff (h : s.Based) (hacc : (s.sink.accept a.frame).2 = true) :
    s.KeepsBase a ↔ a.frame.pts ≠ noPts ∧ (s.prepare a).Joins a.frame := by
  rw [KeepsBase, forall_prop_of_true hacc]
  refine and_congr_right fun _ => ?_
  cases hrot : s.sink.opensNext a.frame with
  | false =>
    rw [prepare_of_continues hacc hrot]
    simp only [forall_const]
    rfl
  | true =>
    rw [prepare_of_rotates hrot]
    refine iff_of_true (by simp) fun _ _ q hq hlast => ?_
    have hle := h.bound q hq
    rw [List.length_append, List.length_singleton] at hlast
    omega

/-- A frame that is pushed with the base of the other frames in the fragment. -/
theorem Based.push (h : s.Based) {k : Sink} {g f : MediaFrame} (hne : f.pts ≠ noPts) (hg : 0 ≤ g.pts)
    (hbefore : ∀ q ∈ s.pushed, q.Before ⟨g, f, s.ids.length⟩) (hfirst : 0 ≤ k.firstVideoPts)
    (hlast : 0 ≤ k.lastVideoPts) (hgf : f.pts - g.pts = k.firstVideoPts)
    (hbase : ∀ q ∈ s.pushed, q.fragment = s.ids.length → q.source.pts - q.frame.pts = k.firstVideoPts) :
    Based { s with sink := k, pushed := s.pushed ++ [⟨g, f, s.ids.length⟩] } where
  ordered := ordered_append_singleton.mpr ⟨h.ordered, fun _ => hg, hbefore⟩
  hasPts := by
    intro q hq
    rcases List.mem_append.mp hq with hq | hq
    · exact h.hasPts q hq
    · rw [List.mem_singleton.mp hq]
      exact hne
  bound := by
    intro q hq
    rcases List.mem_append.mp hq with hq | hq
    · exact h.bound q hq
    · exact Nat.le_of_eq (congrArg QueuedFrame.fragment (List.mem_singleton.mp hq))
  first := hfirst
  last := hlast
  base := by
    intro _ q hq hfrag
    rcases List.mem_append.mp hq with hq | hq
    · exact hbase q hq hfrag
    · rw [List.mem_singleton.mp hq]
      exact hgf

/-- A frame with a pts that comes after those that were pushed, and that the base is not taken from. -/
theorem Based.stamp_keeps {f : MediaFrame} (h : s.Based) (hpts : 0 ≤ f.pts) (hlt : ∀ q ∈ s.pushed, q.source.pts < f.pts)
    (ht : s.sink.takesFirst f = false) : (s.stamp f).Based := by
  have hne := ne_noPts hpts
  obtain ⟨⟨⟨-, hge⟩, -⟩, hdts⟩ : ((s.sink.firstVideoPts ≠ 0 ∧ s.sink.firstVideoPts ≤ f.pts) ∧
      s.sink.firstVideoPts ≠ noPts) ∧ s.sink.firstVideoDts ≠ noPts := by
    simpa [Sink.takesFirst] using ht
  have hbase := h.base hdts
  rw [stamp_of_first (Sink.noFirst_of_keeps ht), Sink.updateFirst_eq, ht, if_neg Bool.false_ne_true]
  simp only [Sink.rebase, if_pos hne]
  refine h.push hne (Int.sub_nonneg.mpr hge) ?_ h.first ?_ (Int.sub_sub_self _ _) hbase
  · intro q hq hfrag _ _
    have hb := hbase q hq hfrag
    have hl := hlt q hq
    dsimp only
    omega
  · simpa only [Sink.updateLast, Sink.updateStats, if_pos hne] using hpts

/-- The first frame of a fragment, from which the base is taken. -/
theorem Based.stamp_takes {f : MediaFrame} (h : s.Based) (hpts : 0 ≤ f.pts) (ht : s.sink.takesFirst f = true)
    (hjoins : s.Joins f) : (s.stamp f).Based := by
  have hne := ne_noPts hpts
  by_cases hdts : f.dts = noPts
  · rw [stamp_of_noFirst (by simp [Sink.noFirst_of_takes ht, hdts]), Sink.updateFirst_eq, if_pos ht]
    exact ⟨h.ordered, h.hasPts, h.bound, hpts, h.last, fun hset => absurd hdts hset⟩
  · have hempty := hjoins hdts ht
    rw [stamp_of_first (by simp [Sink.noFirst_of_takes ht, hne, hdts]), Sink.updateFirst_eq, if_pos ht]
    simp only [Sink.rebase, if_pos hne]
    refine h.push hne (Int.sub_nonneg.mpr (Int.le_refl _)) ?_ hpts ?_ (Int.sub_sub_self _ _) ?_
    · exact fun q hq hfrag => absurd hfrag (hempty q hq)
    · simpa only [Sink.updateLast, Sink.updateStats, if_pos hne] using hpts
    · exact fun q hq hfrag => absurd hfrag (hempty q hq)

/-- A base that is taken again breaks the order. -/
theorem Based.not_ordered {f : MediaFrame} (h : s.Based) (hpts : 0 ≤ f.pts)
    (hlt : ∀ q ∈ s.pushed, q.source.pts < f.pts) (hj : ¬ s.Joins f) : ¬ Ordered (s.stamp f).pushed := by
  have hne := ne_noPts hpts
  simp only [Joins, not_forall, not_not] at hj
  obtain ⟨hdts, ht, q, hq, hfrag⟩ := hj
  rw [stamp_of_first (by simp [Sink.noFirst_of_takes ht, hne, hdts]), Sink.updateFirst_eq, if_pos ht]
  intro ho
  obtain ⟨-, -, hbefore⟩ := ordered_append_singleton.mp ho
  have hb := (hbefore q hq hfrag (h.hasPts q hq) hne).2
  simp only [Sink.rebase, if_pos hne] at hb
  have hq0 := h.ordered.nonneg q hq (h.hasPts q hq)
  have hl := hlt q hq
  omega

theorem Based.process (h : s.Based) (he : s.Expected a) (hok : s.KeepsBase a) : (s.process a).Based := by
  obtain ⟨hv, hpts⟩ := he
  cases hacc : (s.sink.accept a.frame).2 with
  | false =>
    rw [process_of_not_accepted hv hacc]
    exact ⟨h.ordered, h.hasPts, h.bound, h.first, h.last, h.base⟩
  | true =>
    obtain ⟨hne, hjoins⟩ := (keepsBase_iff h hacc).mp hok
    obtain ⟨hpos, hlt⟩ := hpts.resolve_left hne
    obtain ⟨hprep, hsame⟩ := h.prepare hacc
    rw [process_of_accepted hv hacc]
    cases ht : (s.prepare a).sink.takesFirst a.frame with
    | false => exact hprep.stamp_keeps hpos (by rwa [hsame]) ht
    | true => exact hprep.stamp_takes hpos ht hjoins

theorem Based.keepsOrder_iff (h : s.Based) (he : s.Expected a) : s.KeepsOrder a ↔ s.KeepsBase a := by
  obtain ⟨hv, hpts⟩ := he
  cases hacc : (s.sink.accept a.frame).2 with
  | false =>
    refine iff_of_true ?_ fun hyes => absurd hyes (by simp [hacc])
    rw [KeepsOrder, process_of_not_accepted hv hacc]
    exact ⟨h.ordered, fun _ => ⟨rfl, rfl⟩⟩
  | true =>
    obtain ⟨hprep, hsame⟩ := h.prepare hacc
    constructor
    · rintro ⟨ho, hkeep⟩
      rw [process_of_accepted hv hacc] at ho hkeep
      have hne : a.frame.pts ≠ noPts := by
        intro hno
        have hrot : s.sink.opensNext a.frame = false := by simp [Sink.opensNext, Sink.rotates, hno]
        have hcont := prepare_of_continues hacc hrot
        have htakes : (s.prepare a).sink.takesFirst a.frame = true := by
          have hpos := hprep.first
          simp only [Sink.takesFirst, hno, noPts, Bool.or_eq_true, decide_eq_true_eq]
          omega
        have hfirst := (hkeep hno).1
        rw [stamp_of_noFirst (by simp [Sink.noFirst_of_takes htakes, hno]), Sink.updateFirst_eq, if_pos htakes]
          at hfirst
        exact ne_noPts h.first (hfirst.symm.trans hno)
      obtain ⟨hpos, hlt⟩ := hpts.resolve_left hne
      refine (keepsBase_iff h hacc).mpr ⟨hne, ?_⟩
      by_contra hj
      exact hprep.not_ordered hpos (by rwa [hsame]) hj ho
    · intro hok
      have hne := ((keepsBase_iff h hacc).mp hok).1
      exact ⟨(h.process ⟨hv, hpts⟩ hok).ordered, fun hno => absurd hno hne⟩

/-! ### Whole runs -/

/-- Video frames whose pts, where there are any, are not negative and increase. -/
structure Increasing (as : List Arrival) : Prop where
  video : ∀ a ∈ as, a.frame.type = .video
  nonneg : ∀ a ∈ as, a.frame.pts ≠ noPts → 0 ≤ a.frame.pts
  increasing : ((as.map (·.frame.pts)).filter (· ≠ noPts)).Pairwise (· < ·)

theorem mem_pushed_process {q : QueuedFrame} (hv : a.frame.type = .video) (hq : q ∈ (s.process a).pushed) :
    q ∈ s.pushed ∨ q.source = a.frame := by
  rw [process_pushed hv] at hq
  split at hq
  · exact .inl hq
  · rcases List.mem_append.mp hq with hq | hq
    · exact .inl hq
    · exact .inr (by rw [List.mem_singleton.mp hq])

theorem meets_expected (h : Increasing as) (hlt : ∀ q ∈ s.pushed, ∀ a ∈ as, a.frame.pts ≠ noPts →
    q.source.pts < a.frame.pts) : Meets feed Expected s as := by
  induction as generalizing s with
  | nil => trivial
  | cons a as ih =>
    obtain ⟨hv, hvs⟩ := List.forall_mem_cons.mp h.video
    obtain ⟨hpos, hposs⟩ := List.forall_mem_cons.mp h.nonneg
    have hinc := h.increasing
    refine ⟨⟨hv, ?_⟩, fun t ht => ?_⟩
    · by_cases hno : a.frame.pts = noPts
      · exact .inl hno
      · exact .inr ⟨hpos hno, fun q hq => hlt q hq a List.mem_cons_self hno⟩
    · simp only [feed, step, Option.mem_def, Option.ite_none_right_eq_some, Option.some.injEq] at ht
      obtain ⟨-, rfl⟩ := ht
      have hrest : Increasing as := by
        refine ⟨hvs, hposs, hinc.sublist ?_⟩
        exact (List.sublist_cons_self _ _).filter _
      refine ih hrest fun q hq b hb hbno => ?_
      rcases mem_pushed_process hv hq with hq | hq
      · exact hlt q hq b (List.mem_cons_of_mem a hb) hbno
      · rw [hq]
        by_cases hno : a.frame.pts = noPts
        · have hb0 := hposs b hb hbno
          rw [hno, noPts]
          omega
        · rw [List.map_cons, List.filter_cons_of_pos (by simpa using hno)] at hinc
          refine (List.pairwise_cons.mp hinc).1 _ (List.mem_filter.mpr ⟨List.mem_map.mpr ⟨b, hb, rfl⟩, ?_⟩)
          simpa using hbno

/-- For every mode, parameter and sequence of video frames whose pts, where there are any, increase from zero or more:
the timestamps in every fragment stay ordered exactly if every frame meets `KeepsBase`. -/
theorem timestamps_ordered_iff (h : Increasing as) :
    Meets feed KeepsOrder (opened mode param) as ↔ Meets feed KeepsBase (opened mode param) as := by
  refine meets_iff_meets (I := Based) ?_ (fun s a hs he => hs.keepsOrder_iff he) (Based.opened mode param)
    (meets_expected h (by simp [opened, new, init, negotiate, startInternalSink]))
  intro s a t hs he hok ht
  simp only [feed, step, Option.ite_none_right_eq_some, Option.some.injEq] at ht
  obtain ⟨-, rfl⟩ := ht
  exact hs.process he hok

/-- A video frame without a pts. -/
def arrivalNoPts (clock : ℤ) : Arrival := ⟨⟨.video, 1, noPts, noPts, false, (1, 1000)⟩, 0, seconds clock⟩

/-- A frame without a pts is skipped before the first key frame, and the third frame with one starts a new fragment. -/
theorem timestamps_ordered_rotation :
    let as := [arrivalNoPts 1, arrivalAt 1000 true 2, arrivalAt 2000 false 3, arrivalAt 3000 true 4,
      arrivalAt 3040 false 4]
    Meets feed KeepsOrder (opened .duration 1) as ∧
      (exec feed (opened .duration 1) as).map (fun s => s.pushed.map fun q => (q.fragment, q.frame.pts)) =
        some [(1, 0), (1, 1000), (2, 1000), (2, 1040)] := by
  intro as
  have hinc : Increasing as := ⟨by decide, by decide, by decide⟩
  exact ⟨(timestamps_ordered_iff hinc).mpr (by decide +kernel), by decide +kernel⟩

/-- The second frame after one with the pts zero is pushed as if it were the first again, and a frame without a pts
takes the base away. -/
theorem timestamps_not_ordered :
    let zero := [arrivalAt 0 true 1, arrivalAt 40 false 1]
    let missing := [arrivalAt 40 true 1, arrivalNoPts 1]
    Increasing zero ∧ Increasing missing ∧
      (exec feed (opened .duration 1) zero).map (fun s => s.pushed.map fun q => (q.source.pts, q.frame.pts)) =
        some [(0, 0), (40, 0)] ∧
      (exec feed (opened .duration 1) missing).map (·.sink.firstVideoPts) = some noPts ∧
      ¬ Meets feed KeepsOrder (opened .duration 1) zero ∧
      ¬ Meets feed KeepsOrder (opened .duration 1) missing := by
  refine ⟨⟨?_, ?_, ?_⟩, ⟨?_, ?_, ?_⟩, ?_, ?_, ?_, ?_⟩ <;> decide +kernel

end FragSink
end MultiFrag
end CloudAgent.Streamer
