import CloudAgent.Lib.Transition
import CloudAgent.Streamer.MultiFrag.Calls

/-! What the fragmenting sink does after the timestamps jumped back. It waits for a key frame, but
compares its pts with the last one from before the jump. -/
namespace CloudAgent.Streamer.MultiFrag
open Transition

namespace FragSink

/-- The frame is not skipped, and dropped as out of order. -/
def Reverses (s : FragSink) (a : Arrival) : Prop :=
  (s.sink.videoKeyFrameReceived = true ∨ a.frame.isKey = true) ∧ a.frame.pts < s.sink.lastVideoPts

/-- The frame is pushed to the queue of the internal sink. -/
def Pushes (s : FragSink) (a : Arrival) : Prop :=
  ∃ g n, (s.process a).pushed = s.pushed ++ [⟨g, a.frame, n⟩]

instance (s : FragSink) (a : Arrival) : Decidable (s.Pushes a) :=
  decidable_of_iff
    (∃ q ∈ (s.process a).pushed.getLast?, (s.process a).pushed = s.pushed ++ [q] ∧ q.source = a.frame) <| by
    constructor
    · rintro ⟨⟨g, f, n⟩, -, h, rfl⟩
      exact ⟨g, n, h⟩
    · rintro ⟨g, n, h⟩
      exact ⟨⟨g, a.frame, n⟩, by rw [h, List.getLast?_concat]; exact rfl, h, rfl⟩

/-- The frame is not dropped for want of the timestamps that the fragment starts from. -/
def HasBase (s : FragSink) (a : Arrival) : Prop := (s.sink.beforeStamp a.frame).noFirst a.frame = false

instance (s : FragSink) (a : Arrival) : Decidable (s.HasBase a) := by
  unfold HasBase
  infer_instance

variable {s t : FragSink} {a f k : Arrival} {as skips : List Arrival}

/-! ### One frame -/

theorem pushes_iff (hv : a.frame.type = .video) : s.Pushes a ↔ (s.sink.accept a.frame).2 = true ∧ s.HasBase a := by
  rw [Pushes, process_pushed hv, HasBase]
  cases hacc : (s.sink.accept a.frame).2 with
  | false =>
    rw [Sink.process_of_not_accepted hacc]
    simp
  | true =>
    rw [Sink.process_of_accepted hacc]
    cases hno : (s.sink.beforeStamp a.frame).noFirst a.frame with
    | true =>
      rw [Sink.stamp_of_noFirst hno]
      simp
    | false =>
      rw [Sink.stamp_of_first hno]
      simp

/-- A frame with both timestamps always has a base. -/
theorem hasBase_of_dts (hpts : a.frame.pts ≠ noPts) (hdts : a.frame.dts ≠ noPts) (s : FragSink) : s.HasBase a := by
  rw [HasBase]
  cases ht : (s.sink.beforeStamp a.frame).takesFirst a.frame with
  | false => exact Sink.noFirst_of_keeps ht
  | true => simp [Sink.noFirst_of_takes ht, hpts, hdts]

theorem accept_iff (hkey : s.sink.videoKeyFrameReceived = true ∨ a.frame.isKey = true)
    (hpts : a.frame.pts ≠ noPts) :
    (s.sink.accept a.frame).2 = true ↔ s.sink.lastVideoPts ≤ a.frame.pts := by
  have hwait : ¬ ((!s.sink.videoKeyFrameReceived && !a.frame.isKey) = true) := by
    rcases hkey with hkey | hkey <;> simp [hkey]
  rw [Sink.accept, if_neg hwait]
  split
  · rename_i h
    exact iff_of_false Bool.false_ne_true (Int.not_le.mpr h.2)
  · rename_i h
    exact iff_of_true rfl (Int.not_lt.mp fun hlt => h ⟨hpts, hlt⟩)

/-- A pushed frame is the last one, and the sink does not wait for a key frame. -/
theorem process_of_pushes (hv : a.frame.type = .video) (hpts : a.frame.pts ≠ noPts) (h : s.Pushes a) :
    (s.process a).sink.lastVideoPts = a.frame.pts ∧ (s.process a).sink.videoKeyFrameReceived = true := by
  obtain ⟨hacc, hbase⟩ := (pushes_iff hv).mp h
  have hkey : (s.sink.beforeStamp a.frame).videoKeyFrameReceived = true := by
    rw [Sink.beforeStamp, Sink.accept_fst, hacc]
    split <;> rfl
  rw [process_sink hv, Sink.process_of_accepted hacc, Sink.stamp_of_first hbase]
  exact ⟨if_pos hpts, (Sink.updateFirst_key _ _).trans hkey⟩

theorem process_of_reverses (hv : a.frame.type = .video) (hpts : a.frame.pts ≠ noPts) (h : s.Reverses a) :
    s.process a = { s with sink := { s.sink with videoKeyFrameReceived := false } } := by
  apply process_of_not_accepted hv
  rw [Bool.eq_false_iff]
  exact fun hacc => absurd ((accept_iff h.1 hpts).mp hacc) (Int.not_le.mpr h.2)

theorem process_of_skipped (hv : a.frame.type = .video) (hwait : s.sink.videoKeyFrameReceived = false)
    (hkey : a.frame.isKey = false) : s.process a = s := by
  have hsame : s.sink.accept a.frame = (s.sink, false) := by simp [Sink.accept, hwait, hkey]
  rw [process, if_pos hv, hsame, if_neg Bool.false_ne_true]

theorem exec_skips (hwait : s.sink.videoKeyFrameReceived = false) (hv : ∀ a ∈ skips, a.frame.type = .video)
    (hskip : ∀ a ∈ skips, a.frame.isKey = false) (he : exec feed s skips = some t) : t = s := by
  induction skips with
  | nil => exact (Option.some.inj he).symm
  | cons a skips ih =>
    obtain ⟨hva, hv⟩ := List.forall_mem_cons.mp hv
    obtain ⟨hka, hskip⟩ := List.forall_mem_cons.mp hskip
    obtain ⟨u, hu, he⟩ := exec_cons_eq_some.mp he
    obtain ⟨-, rfl⟩ := feed_eq_some.mp hu
    rw [process_of_skipped hva hwait hka] at he
    exact ih hv hskip he

/-! ### The frames from the key frame on -/

/-- Video frames with increasing pts. -/
structure Rising (as : List Arrival) : Prop where
  video : ∀ a ∈ as, a.frame.type = .video
  hasPts : ∀ a ∈ as, a.frame.pts ≠ noPts
  rising : as.Pairwise fun a b => a.frame.pts < b.frame.pts

/-- Increasing frames that have a base are all pushed, once the first of them is not before the last one pushed. -/
theorem meets_pushes (hkey : ∀ a ∈ as.head?, s.sink.videoKeyFrameReceived = true ∨ a.frame.isKey = true)
    (hlast : ∀ a ∈ as.head?, s.sink.lastVideoPts ≤ a.frame.pts) (hr : Rising as) (hm : Meets feed HasBase s as) :
    Meets feed Pushes s as := by
  induction as generalizing s with
  | nil => trivial
  | cons a as ih =>
    obtain ⟨hv, hvs⟩ := List.forall_mem_cons.mp hr.video
    obtain ⟨hpts, hptss⟩ := List.forall_mem_cons.mp hr.hasPts
    obtain ⟨hlt, hrs⟩ := List.pairwise_cons.mp hr.rising
    have hacc : (s.sink.accept a.frame).2 = true := (accept_iff (hkey a rfl) hpts).mpr (hlast a rfl)
    have hpush : s.Pushes a := (pushes_iff hv).mpr ⟨hacc, hm.1⟩
    obtain ⟨hnext, hreceived⟩ := process_of_pushes hv hpts hpush
    refine ⟨hpush, fun u hu => ?_⟩
    have hmu := hm.2 u hu
    obtain ⟨-, rfl⟩ := feed_eq_some.mp hu
    refine ih (fun _ _ => .inl hreceived) (fun b hb => ?_) ⟨hvs, hptss, hrs⟩ hmu
    rw [hnext]
    exact Int.le_of_lt (hlt b (List.mem_of_mem_head? hb))

/-- For every state, every frame that is dropped as out of order and all frames after it, with increasing pts: the next
key frame and all frames after it are pushed exactly if its pts is not below the last one from before the jump and each
of them has a base, which frames with a dts always do. -/
theorem recovers_iff (hdrop : s.Reverses f) (hr : Rising (f :: skips ++ k :: as))
    (hskip : ∀ a ∈ skips, a.frame.isKey = false) (hkey : k.frame.isKey = true)
    (he : exec feed s (f :: skips) = some t) :
    (Meets feed Pushes t (k :: as) ↔ s.sink.lastVideoPts ≤ k.frame.pts ∧ Meets feed HasBase t (k :: as)) ∧
      ((∀ a ∈ k :: as, a.frame.dts ≠ noPts) → Meets feed HasBase t (k :: as)) := by
  have hsuffix : Rising (k :: as) :=
    ⟨fun a ha => hr.video a (List.mem_append_right _ ha), fun a ha => hr.hasPts a (List.mem_append_right _ ha),
      (List.pairwise_append.mp hr.rising).2.1⟩
  have hv := hr.video f List.mem_cons_self
  have hpts := hr.hasPts f List.mem_cons_self
  obtain ⟨u, hu, he⟩ := exec_cons_eq_some.mp he
  obtain ⟨-, rfl⟩ := feed_eq_some.mp hu
  rw [process_of_reverses hv hpts hdrop] at he
  have hskips : ∀ a ∈ skips, a.frame.type = .video := fun a ha =>
    hr.video a (List.mem_append_left _ (List.mem_cons_of_mem f ha))
  obtain rfl := exec_skips rfl hskips hskip he
  refine ⟨⟨fun hm => ⟨?_, ?_⟩, fun ⟨hlast, hm⟩ => ?_⟩, fun hdts => ?_⟩
  · have hacc := ((pushes_iff (hsuffix.video k List.mem_cons_self)).mp hm.1).1
    have hle := (accept_iff (.inr hkey) (hsuffix.hasPts k List.mem_cons_self)).mp hacc
    exact hle
  · exact hm.mono fun a ha u hpush => ((pushes_iff (hsuffix.video a ha)).mp hpush).2
  · exact meets_pushes (fun a ha => .inr (Option.some.inj ha ▸ hkey)) (fun a ha => Option.some.inj ha ▸ hlast)
      hsuffix hm
  · exact Meets.of_forall_mem fun a ha u => hasBase_of_dts (hsuffix.hasPts a ha) (hdts a ha) u

/-- A sink that pushed a frame of ten seconds. -/
def tenSeconds : FragSink :=
  ((new .duration 60).init.negotiate.process (arrivalAt 9960 true 1)).process (arrivalAt 10000 false 1)

/-- Frames that were only delivered late: the key frame after them is in time. -/
theorem recovers_late :
    let t := tenSeconds.process (arrivalAt 9990 false 2)
    Meets feed Pushes t [arrivalAt 10040 true 2, arrivalAt 10080 false 2] := by
  have hr : Rising (arrivalAt 9990 false 2 :: [] ++ arrivalAt 10040 true 2 :: [arrivalAt 10080 false 2]) :=
    ⟨by decide, by decide, by decide⟩
  have hdrop : tenSeconds.Reverses (arrivalAt 9990 false 2) := ⟨.inl (by decide), by decide⟩
  have h := recovers_iff hdrop hr (by decide) (by decide) rfl
  exact h.1.mpr ⟨by decide, h.2 (by decide)⟩

/-- The stream was restarted and counts from zero: the next key frame is dropped, and so is everything after it. -/
theorem not_recovers_restarted :
    let as := [arrivalAt 0 true 2, arrivalAt 40 true 2, arrivalAt 80 false 2, arrivalAt 120 true 2]
    tenSeconds.Reverses (arrivalAt 0 true 2) ∧ Rising as ∧
      (as.foldl process tenSeconds).pushed = tenSeconds.pushed ∧
      ¬ (tenSeconds.process (arrivalAt 0 true 2)).Pushes (arrivalAt 40 true 2) := by
  exact ⟨⟨.inl (by decide), by decide⟩, ⟨by decide, by decide, by decide⟩, by decide +kernel, by decide +kernel⟩

end FragSink
end CloudAgent.Streamer.MultiFrag
