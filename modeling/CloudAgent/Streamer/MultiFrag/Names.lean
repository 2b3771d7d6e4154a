import Mathlib.Data.List.Nodup
import CloudAgent.Lib.Transition
import CloudAgent.Streamer.MultiFrag.Calls

/-! The names of fragments. The counter that they are made from is bumped after the next fragment
was named. -/
namespace CloudAgent.Streamer.MultiFrag
open Transition

namespace FragSink

/-- The call is not a frame that starts a new fragment. -/
def Continues (s : FragSink) : Call → Prop
  | .process a => ¬ (a.frame.type = .video ∧ s.sink.opensNext a.frame = true)
  | _ => True

instance (s : FragSink) (c : Call) : Decidable (s.Continues c) := by
  cases c <;> unfold Continues <;> infer_instance

variable {s t : FragSink} {c : Call} {mode : Mode} {param : ℕ} {calls : List Call}

/-- What the calls keep until a frame starts a new fragment: the counter was used for the open one. -/
structure Numbered (s : FragSink) : Prop where
  nodup : s.ids.Nodup
  bound : ∀ id ∈ s.ids, id ≤ s.counter
  fresh : s.phase = .initialized → s.counter ∉ s.ids
  used : s.phase = .negotiated → s.counter ∈ s.ids

theorem Numbered.new (mode : Mode) (param : ℕ) : (new mode param).Numbered where
  nodup := List.nodup_nil
  bound := by simp [FragSink.new]
  fresh := by simp [FragSink.new]
  used := by simp [FragSink.new]

/-- A frame that does not start a new fragment leaves its name and the counter alone. -/
theorem process_of_continues {a : Arrival} (h : s.Continues (.process a)) :
    (s.process a).ids = s.ids ∧ (s.process a).counter = s.counter ∧ (s.process a).phase = s.phase := by
  by_cases hv : a.frame.type = .video
  · cases hacc : (s.sink.accept a.frame).2 with
    | false =>
      rw [process_of_not_accepted hv hacc]
      exact ⟨rfl, rfl, rfl⟩
    | true =>
      have hrot : s.sink.opensNext a.frame = false := Bool.eq_false_iff.mpr fun hrot => h ⟨hv, hrot⟩
      rw [process_of_accepted hv hacc, prepare_of_continues hacc hrot]
      exact ⟨rfl, rfl, rfl⟩
  · rw [process_of_not_video hv]
    exact ⟨rfl, rfl, rfl⟩

theorem finit_eq (s : FragSink) : s.finit.ids = s.ids ∧ s.finit.counter = s.counter ∧ s.finit.phase = .closed := by
  unfold finit
  dsimp only
  split
  · exact ⟨rfl, rfl, rfl⟩
  · exact ⟨rfl, rfl, rfl⟩

theorem Numbered.step (h : s.Numbered) (hc : s.Continues c) (hs : step s c = some t) : t.Numbered := by
  obtain ⟨hnodup, hbound, hfresh, hused⟩ := h
  cases c with
  | init =>
    obtain rfl := Option.some.inj hs
    refine ⟨hnodup, fun id hid => Nat.le_succ_of_le (hbound id hid), fun _ hmem => ?_, fun hphase => ?_⟩
    · exact absurd (hbound _ hmem) (Nat.not_succ_le_self _)
    · exact Phase.noConfusion hphase
  | negotiate =>
    simp only [FragSink.step, Option.ite_none_right_eq_some, Option.some.injEq] at hs
    obtain ⟨hphase, rfl⟩ := hs
    refine ⟨?_, ?_, fun hphase => Phase.noConfusion hphase, fun _ => List.mem_append_right _ List.mem_cons_self⟩
    · exact List.nodup_append.mpr ⟨hnodup, List.nodup_singleton _, fun id hid k hk heq =>
        hfresh hphase (List.mem_singleton.mp hk ▸ heq ▸ hid)⟩
    · intro id hid
      rcases List.mem_append.mp hid with hid | hid
      · exact hbound id hid
      · exact Nat.le_of_eq (List.mem_singleton.mp hid)
  | process a =>
    simp only [FragSink.step, Option.ite_none_right_eq_some, Option.some.injEq] at hs
    obtain ⟨hphase, rfl⟩ := hs
    obtain ⟨hids, hcounter, hsame⟩ := process_of_continues hc
    exact ⟨hids ▸ hnodup, by rwa [hids, hcounter], by rwa [hids, hcounter, hsame], by rwa [hids, hcounter, hsame]⟩
  | finit =>
    simp only [FragSink.step, Option.ite_none_right_eq_some, Option.some.injEq] at hs
    obtain ⟨-, rfl⟩ := hs
    obtain ⟨hids, hcounter, hclosed⟩ := finit_eq s
    exact ⟨hids ▸ hnodup, by rwa [hids, hcounter], by simp [hclosed], by simp [hclosed]⟩

/-- The new fragment gets the name of the one that it follows. -/
theorem Numbered.not_nodup (h : s.Numbered) (hc : ¬ s.Continues c) (hs : FragSink.step s c = some t) :
    ¬ t.ids.Nodup := by
  cases c with
  | process a =>
    simp only [FragSink.step, Option.ite_none_right_eq_some, Option.some.injEq] at hs
    obtain ⟨hphase, rfl⟩ := hs
    obtain ⟨hv, hrot⟩ := not_not.mp hc
    rw [process_of_accepted hv (Sink.accepted_of_opensNext hrot), prepare_of_rotates hrot]
    intro hnodup
    exact (List.nodup_append.mp hnodup).2.2 _ (h.used hphase) _ List.mem_cons_self rfl
  | init => exact absurd trivial hc
  | negotiate => exact absurd trivial hc
  | finit => exact absurd trivial hc

theorem ids_grow (hs : FragSink.step s c = some t) : s.ids <+: t.ids := by
  cases c with
  | init =>
    obtain rfl := Option.some.inj hs
    exact List.prefix_rfl
  | negotiate =>
    simp only [FragSink.step, Option.ite_none_right_eq_some, Option.some.injEq] at hs
    obtain ⟨-, rfl⟩ := hs
    exact List.prefix_append _ _
  | process a =>
    simp only [FragSink.step, Option.ite_none_right_eq_some, Option.some.injEq] at hs
    obtain ⟨-, rfl⟩ := hs
    by_cases hc : s.Continues (.process a)
    · exact ⟨[], by rw [(process_of_continues hc).1, List.append_nil]⟩
    · obtain ⟨hv, hrot⟩ := not_not.mp hc
      rw [process_of_accepted hv (Sink.accepted_of_opensNext hrot), prepare_of_rotates hrot]
      exact List.prefix_append _ _
  | finit =>
    simp only [FragSink.step, Option.ite_none_right_eq_some, Option.some.injEq] at hs
    obtain ⟨-, rfl⟩ := hs
    exact ⟨[], by rw [(finit_eq s).1, List.append_nil]⟩

/-- For every mode, parameter and run of a sink, however often it is started: the ids of its fragments are distinct
exactly if no frame of the run starts a new fragment. -/
theorem ids_nodup_iff (he : exec FragSink.step (new mode param) calls = some s) :
    s.ids.Nodup ↔ Meets FragSink.step Continues (new mode param) calls :=
  good_iff_meets (B := fun _ => True) (I := Numbered) (G := fun s => s.ids.Nodup)
    (fun _ _ _ _ _ => trivial) (fun _ _ _ _ hu hok hs => hu.step hok hs) (fun _ hu => hu.nodup)
    (fun _ _ _ hu hok hs => hu.not_nodup hok hs)
    (fun _ _ _ _ hs hv => hv.sublist (ids_grow hs).sublist) trivial (Numbered.new mode param) he

/-- Two sessions without a rotation. -/
theorem ids_nodup_sessions :
    let calls : List Call :=
      [.init, .negotiate, .process (arrivalAt 40 true 1), .process (arrivalAt 80 false 1), .finit,
        .init, .negotiate, .process (arrivalAt 40 true 2), .finit]
    ∃ s, exec FragSink.step (new .duration 1) calls = some s ∧ s.ids = [1, 2] ∧ s.ids.Nodup := by
  intro calls
  have hrun : ∃ s ∈ exec FragSink.step (new .duration 1) calls, s.ids = [1, 2] := by decide +kernel
  obtain ⟨s, he, hids⟩ := hrun
  exact ⟨s, he, hids, (ids_nodup_iff he).mpr (by decide +kernel)⟩

/-- The second fragment gets the id of the first one, the third the next. -/
theorem ids_repeat :
    ∃ s ∈ exec FragSink.step (new .duration 1)
        [.init, .negotiate, .process (arrivalAt 40 true 1), .process (arrivalAt 1040 false 2),
          .process (arrivalAt 1080 true 2), .process (arrivalAt 2080 false 3), .process (arrivalAt 2120 true 3),
          .finit],
      s.ids = [1, 1, 2] ∧ ¬ s.ids.Nodup := by
  decide +kernel

end FragSink
end CloudAgent.Streamer.MultiFrag
