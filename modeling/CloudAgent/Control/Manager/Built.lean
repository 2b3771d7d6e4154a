import CloudAgent.Control.Media.Starts

/-! Deliveries of event states that were built. The states are built once, when the configurations are
loaded and no state is there; what starts an event earlier, or an event that was not configured then, finds a
state without an uploader. -/
namespace CloudAgent.Control
open Proto Transition

namespace Delivery
variable {d d' : Delivery} {op : Op}

/-- A delivery needs a state that was built. -/
def StartsBuilt (d : Delivery) (name : String) (mode : StreamDeliveryMode) (_ : EventObject) : Prop :=
  mode ≠ .none → d.Initialized name

/-- Every delivery that was started or stopped had an uploader and a transport. -/
def AllBuilt (d : Delivery) : Prop := ∀ e ∈ d.delivered, e.2 = true

theorem allBuilt_congr (h : d'.delivered = d.delivered) : d'.AllBuilt ↔ d.AllBuilt := by
  unfold AllBuilt
  rw [h]

theorem allBuilt_recorded {l : List (String × Bool)} {name : String} {p : Prop} [Decidable p] {attached : Bool} :
    (∀ e ∈ if p then l else (name, attached) :: l, e.2 = true) ↔ (∀ e ∈ l, e.2 = true) ∧ (¬ p → attached = true) := by
  split_ifs with hp
  · simp [hp]
  · simp [hp, and_comm]

/-- One operation: only a start can find a state that was not built. -/
theorem allBuilt_step (h : d.Sound) (hs : op.step d = some d') : d'.AllBuilt ↔ d.AllBuilt ∧ op.Starts StartsBuilt d := by
  cases op with
  | touch name =>
    obtain rfl := Option.some.inj hs
    rw [allBuilt_congr (delivered_touch d name)]
    exact (and_iff_left trivial).symm
  | start dev now name mode event pre post segProvider uploadToken =>
    obtain rfl := Option.some.inj hs
    obtain ⟨states, segmenters, http, heq, -⟩ := start_eq dev now name mode event pre post segProvider uploadToken d
    rw [heq]
    unfold AllBuilt
    rw [allBuilt_recorded, h.attached_iff]
    exact Iff.rfl
  | stop now name time =>
    simp only [Op.step, Option.ite_none_right_eq_some, Option.some.injEq] at hs
    obtain ⟨hstateful, rfl⟩ := hs
    obtain ⟨states, segmenters, http, heq, -⟩ := stop_eq now name time d
    have hattached := (h.states name).attached_of_stateful hstateful
    rw [heq]
    unfold AllBuilt recorded
    rw [allBuilt_recorded]
    simp [hattached, Op.Starts]
  | updateDeliveryMode now name mode segProvider =>
    simp only [Op.step, Option.ite_none_right_eq_some, Option.some.injEq, Bool.and_eq_true] at hs
    obtain ⟨⟨hstateful, -⟩, rfl⟩ := hs
    have hattached := (h.states name).attached_of_stateful hstateful
    by_cases hmode : mode = (d.state name).deliveryMode
    · rw [updateDeliveryMode, if_pos hmode]
      exact (and_iff_left trivial).symm
    · obtain ⟨states, segmenters, http, isOpen, heq, -⟩ :=
        updateDeliveryMode_eq now segProvider (mem_of_stateful hstateful) hmode
      rw [heq]
      unfold AllBuilt recorded
      rw [allBuilt_recorded, allBuilt_recorded]
      simp [hattached, Op.Starts]
  | initEventsStates events =>
    obtain rfl := Option.some.inj hs
    have hdelivered : (d.initEventsStates events).delivered = d.delivered := by
      by_cases hkeys : d.eventsStates.keys = []
      · rw [initEventsStates_of_nil hkeys]
        obtain ⟨_, _, _, h⟩ := addStates_eq (builtStates events) d
        rw [h]
      · rw [initEventsStates, if_neg hkeys]
    rw [allBuilt_congr hdelivered]
    exact (and_iff_left trivial).symm
  | fireHttpTimer http cb =>
    obtain rfl := Option.some.inj hs
    have hdelivered : ({ d with http }.runHttpCb cb).2.delivered = d.delivered := by
      cases cb with
      | startStream streamId => rfl
      | stopStream name => rfl
    rw [allBuilt_congr hdelivered]
    exact (and_iff_left trivial).symm

end Delivery

namespace Manager
variable {dev : Device} {c c' : Manager} {a : Action}

theorem allBuilt_step (h : c.Sound) (hs : c.step dev a = some c') :
    c'.media.delivery.AllBuilt ↔ c.media.delivery.AllBuilt ∧ c.StartsWell Delivery.StartsBuilt dev a :=
  (leads_step h hs).exact (fun _ _ _ hu hs => hu.step hs) (fun _ _ _ hu hs => Delivery.allBuilt_step hu hs) h.delivery

/-- No delivery ever runs on a state that was not built exactly in those runs where every delivery that
starts finds its state built. -/
theorem deliveries_built_iff {as : List Action} {v : Manager} (he : exec (step dev) (start dev) as = some v) :
    (∀ e ∈ v.media.delivery.delivered, e.2 = true) ↔
      Meets (step dev) (fun c a => c.StartsWell Delivery.StartsBuilt dev a) (start dev) as := by
  have hrun : Leads (step dev) (fun c a => c.StartsWell Delivery.StartsBuilt dev a) (start dev) _ v :=
    ⟨as, he, Iff.rfl⟩
  have hstart : (start dev).media.delivery.AllBuilt := nofun
  exact (hrun.exact (G := fun c => c.media.delivery.AllBuilt) (fun _ _ _ hu hs => hu.step hs)
    (fun _ _ _ hu hs => allBuilt_step hu hs) (Sound.start dev)).trans (and_iff_right hstart)

/-- Once the configurations are loaded, a period is synchronized and a recording goes to the storage. -/
theorem deliveries_built_once_loaded : ∃ v,
    exec (step twoStreams) (start twoStreams)
        [.getCamEvents .working (some {}), .memorycardSynchronize .working "request" 5 9,
          .streamStart .working "front" .recordDirect, .streamStop .working "front" .record] = some v ∧
      v.media.delivery.delivered =
        [("direct-upload-recording", true), ("direct-upload-recording", true), ("timeline-sync", true)] ∧
      Meets (step twoStreams) (fun c a => c.StartsWell Delivery.StartsBuilt twoStreams a) (start twoStreams)
        [.getCamEvents .working (some {}), .memorycardSynchronize .working "request" 5 9,
          .streamStart .working "front" .recordDirect, .streamStop .working "front" .record] := by
  obtain ⟨v, hv⟩ : ∃ v, exec (step twoStreams) (start twoStreams)
      [.getCamEvents .working (some {}), .memorycardSynchronize .working "request" 5 9,
        .streamStart .working "front" .recordDirect, .streamStop .working "front" .record] = some v := ⟨_, rfl⟩
  have hend : ∀ w ∈ exec (step twoStreams) (start twoStreams)
      [.getCamEvents .working (some {}), .memorycardSynchronize .working "request" 5 9,
        .streamStart .working "front" .recordDirect, .streamStop .working "front" .record],
      w.media.delivery.delivered =
        [("direct-upload-recording", true), ("direct-upload-recording", true), ("timeline-sync", true)] := by
    decide +kernel
  have hdelivered := hend v hv
  refine ⟨v, hv, hdelivered, (deliveries_built_iff hv).mp ?_⟩
  rw [hdelivered]
  decide

/-- The cloud asks for a synchronization first: the state of the synchronization has no uploader. -/
theorem synchronize_before_loaded : ∃ v,
    exec (step twoStreams) (start twoStreams) [.memorycardSynchronize .working "request" 5 9] = some v ∧
      v.media.delivery.crashed = true ∧ ¬ ∀ e ∈ v.media.delivery.delivered, e.2 = true := by
  obtain ⟨v, hv⟩ : ∃ v, exec (step twoStreams) (start twoStreams)
      [.memorycardSynchronize .working "request" 5 9] = some v := ⟨_, rfl⟩
  have hend : ∀ w ∈ exec (step twoStreams) (start twoStreams) [.memorycardSynchronize .working "request" 5 9],
      w.media.delivery.crashed = true ∧ ¬ ∀ e ∈ w.media.delivery.delivered, e.2 = true := by decide +kernel
  exact ⟨v, hv, hend v hv⟩

end Manager
end CloudAgent.Control
