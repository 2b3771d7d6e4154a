import CloudAgent.Control.Media.Starts

/-! Commands that do not crash the control side. What calls an uploader is an event state, and one that was
not built has none; stopping and switching only ever reach states that were built. -/
namespace CloudAgent.Control
open Proto Transition

namespace Delivery
variable {d d' : Delivery} {op : Op} {name : String} {mode : StreamDeliveryMode}

/-- An upload needs a state that was built. -/
def UploadsBuilt (d : Delivery) (name : String) (mode : StreamDeliveryMode) (_ : EventObject) : Prop :=
  mode = .upload → d.Initialized name

theorem Sound.uploadsBuilt_iff (h : d.Sound) (event : EventObject) :
    UploadsBuilt d name mode event ↔ (mode = .upload && !(d.state name).attached) = false := by
  rw [UploadsBuilt, ← h.attached_iff]
  cases (d.state name).attached <;> simp

/-- One operation: only a start can crash. -/
theorem running_step (h : d.Sound) (hs : op.step d = some d') :
    d'.crashed = false ↔ d.crashed = false ∧ op.Starts UploadsBuilt d := by
  cases op with
  | touch name =>
    obtain rfl := Option.some.inj hs
    rw [crashed_touch]
    exact (and_iff_left trivial).symm
  | start dev now name mode event pre post segProvider uploadToken =>
    obtain rfl := Option.some.inj hs
    obtain ⟨states, segmenters, http, heq, -⟩ := start_eq dev now name mode event pre post segProvider uploadToken d
    rw [heq, Op.Starts, h.uploadsBuilt_iff]
    exact Bool.or_eq_false_iff
  | stop now name time =>
    simp only [Op.step, Option.ite_none_right_eq_some, Option.some.injEq] at hs
    obtain ⟨hstateful, rfl⟩ := hs
    obtain ⟨states, segmenters, http, heq, -⟩ := stop_eq now name time d
    have hattached := (h.states name).attached_of_stateful hstateful
    rw [heq]
    simp [crashes, hattached, Op.Starts]
  | updateDeliveryMode now name mode segProvider =>
    simp only [Op.step, Option.ite_none_right_eq_some, Option.some.injEq, Bool.and_eq_true] at hs
    obtain ⟨⟨hstateful, -⟩, rfl⟩ := hs
    have hattached := (h.states name).attached_of_stateful hstateful
    by_cases hmode : mode = (d.state name).deliveryMode
    · rw [updateDeliveryMode, if_pos hmode]
      exact (and_iff_left trivial).symm
    · obtain ⟨states, segmenters, http, isOpen, heq, -⟩ :=
        updateDeliveryMode_eq now segProvider (mem_of_stateful hstateful) hmode
      rw [heq]
      simp [crashes, hattached, Op.Starts]
  | initEventsStates events =>
    obtain rfl := Option.some.inj hs
    have hcrashed : (d.initEventsStates events).crashed = d.crashed := by
      by_cases hkeys : d.eventsStates.keys = []
      · rw [initEventsStates_of_nil hkeys]
        obtain ⟨_, _, _, h⟩ := addStates_eq (builtStates events) d
        rw [h]
      · rw [initEventsStates, if_neg hkeys]
    rw [hcrashed]
    exact (and_iff_left trivial).symm
  | fireHttpTimer http cb =>
    obtain rfl := Option.some.inj hs
    have hcrashed : ({ d with http }.runHttpCb cb).2.crashed = d.crashed := by
      cases cb with
      | startStream streamId => rfl
      | stopStream name => rfl
    rw [hcrashed]
    exact (and_iff_left trivial).symm

end Delivery

namespace Manager
variable {dev : Device} {c c' : Manager} {a : Action} {as : List Action}

/-- One step crashes exactly if an upload starts on a state that was not built. -/
theorem running_step (h : c.Sound) (hs : c.step dev a = some c') :
    c'.media.delivery.crashed = false ↔ c.StartsWell Delivery.UploadsBuilt dev a := by
  have hrunning := (mediaStep_of_step hs).1
  have hexact := (leads_step (P := Delivery.UploadsBuilt) h hs).exact (G := fun d => d.crashed = false)
    (fun _ _ _ hu hs => hu.step hs) (fun _ _ _ hu hs => Delivery.running_step hu hs) h.delivery
  exact hexact.trans (and_iff_right hrunning)

theorem sound_of_exec (he : exec (step dev) (start dev) as = some c) : c.Sound :=
  run_invariant (fun _ _ _ hu hs => hu.step hs) (Sound.start dev) he

end Manager
end CloudAgent.Control
