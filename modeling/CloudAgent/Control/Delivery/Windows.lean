import CloudAgent.Agent.Upload.Requests
import CloudAgent.Control.Delivery.Ops

/-! The requests of the uploader while event states switch their delivery. `update_delivery_mode` runs
outside the uploader's thread and moves the start of a segmenter's window, but not its stop. -/
namespace CloudAgent.Control
open Agent Utils Transition

/-- The segmenter as `update_delivery_mode` leaves it. -/
def switchSegmenter (x : Segmenter) (segProvider : Option String) (now : Time) : Segmenter :=
  { x with segProvider := segProvider.getD "", beginTime := now, curSegStart := now }

/-- `update_delivery_mode` writes this to the segmenter of its event state, and to no other. -/
theorem updateDeliveryMode_segmenters {d : Delivery} {name : String} {mode : StreamDeliveryMode} (now : Time)
    (segProvider : Option String) (hmem : name ∈ d.eventsStates) (hmode : mode ≠ (d.state name).deliveryMode) :
    (d.updateDeliveryMode now name mode segProvider).segmenters =
      Function.update d.segmenters (d.state name).segmenter
        (switchSegmenter (d.segmenters (d.state name).segmenter) segProvider now) := by
  obtain ⟨states, http, hstop, -⟩ := d.stopDelivery_eq now name
  have hcore := d.core_stopDelivery now name
  have hst : ((d.stopDelivery now name).state name).core = (d.state name).core :=
    Delivery.core_state (by rw [hcore, Delivery.core_of_mem hmem])
  unfold Delivery.updateDeliveryMode
  rw [if_neg hmode]
  generalize d.stopDelivery now name = D at hstop hst ⊢
  have hid : (D.state name).segmenter = (d.state name).segmenter := by
    change (D.state name).core.segmenter = (d.state name).core.segmenter
    rw [hst]
  have hsegmenters : D.segmenters = d.segmenters := by rw [hstop]
  have hstart (D' : Delivery) : (D'.startDelivery name).segmenters = D'.segmenters := by
    obtain ⟨http', hstarted⟩ := D'.startDelivery_eq name
    rw [hstarted]
  simp only [hstart, Delivery.setState, Delivery.setSegmenter, hid, hsegmenters]
  rfl

/-- The uploader, and the segmenter of each call of `record_get_list` as it was then. -/
structure Requesting where
  uploader : SegmentedUploader
  requests : List Segmenter := []

namespace Requesting

/-- A step of the uploader, or `update_delivery_mode` of the event state of a segmenter: `stop` is its
`stop_`. -/
inductive Action
  | uploader (a : SegmentedUploader.Action)
  | updateDeliveryMode (s : SegId) (old new : StreamDeliveryMode) (stop : Time) (segProvider : Option String)
    (now : Time)

/-- The request that a step makes. -/
def request (std : StdSort) (u : SegmentedUploader) : SegmentedUploader.Action → Option Segmenter
  | .fire t env =>
    match u.http.sulCb t with
    | some (.asyncLoop, http) => SegmentedUploader.tickRequest std env { u with http }
    | _ => none
  | _ => none

/-- `update_delivery_mode`: the delivery is stopped, the window moved and the delivery started again. -/
def updateDeliveryMode (u : SegmentedUploader) (s : SegId) (old new : StreamDeliveryMode) (stop : Time)
    (segProvider : Option String) (now : Time) : SegmentedUploader :=
  if new = old then u
  else
    let u := if old = .upload then u.finalizeUpload s (if stop = Time.null then now else stop) else u
    let u := u.setSeg s (switchSegmenter (u.heap s) segProvider now)
    if new = .upload then u.scheduleUpload s else u

def step (std : StdSort) (r : Requesting) : Action → Option Requesting
  | .uploader a => (SegmentedUploader.step std r.uploader a).map fun u =>
    { uploader := u, requests := r.requests ++ (request std r.uploader a).toList }
  | .updateDeliveryMode s old new stop segProvider now =>
    some { r with uploader := updateDeliveryMode r.uploader s old new stop segProvider now }

/-- The stale stop of a window is not before its new start, and at most the longest window after it. -/
def switchInOrder (x : Segmenter) (now : Time) : Bool :=
  x.settled || ((!x.isOpen && x.lastTime ≤ now || now ≤ x.curSegStop) && x.curSegStop - now ≤ x.step + x.pre)

/-- The conditions of the uploader, and what is asked of a switch that changes the mode. -/
def Admits (std : StdSort) (r : Requesting) : Action → Prop
  | .uploader a => (SegmentedUploader.windowConditions std).Admits std r.uploader a
  | .updateDeliveryMode s old new _ _ now => new = old ∨ switchInOrder (r.uploader.heap s) now = true

instance (std : StdSort) (r : Requesting) : ∀ a, Decidable (Admits std r a)
  | .uploader _ => inferInstanceAs (Decidable (SegmentedUploader.Conditions.Admits _ _ _ _))
  | .updateDeliveryMode .. => inferInstanceAs (Decidable (_ ∨ _))

/-! ### Runs -/

variable {std : StdSort} {r t : Requesting} {a : Action} {u : SegmentedUploader} {x : Segmenter}

/-- What a run keeps: the segmenters are in order, and all requests were well formed. -/
structure InOrder (r : Requesting) : Prop where
  sound : r.uploader.Sound
  orderly : r.uploader.AllOrderly
  requests : ∀ x ∈ r.requests, x.WellFormed

theorem switchSegmenter_orderly {now : Time} (h : x.Orderly) (segProvider : Option String)
    (hok : switchInOrder x now = true) : (switchSegmenter x segProvider now).Orderly := by
  refine ⟨h.pre, h.step, sub_le_self now h.pre, fun hsettled => ?_⟩
  have hsettled : x.settled = false := hsettled
  simp only [switchInOrder, hsettled, Bool.false_or, Bool.and_eq_true, Bool.or_eq_true, Bool.not_eq_true',
    decide_eq_true_eq] at hok
  exact ⟨hok.2, hok.1⟩

theorem updateDeliveryMode_orderly {s : SegId} {old new : StreamDeliveryMode} {now : Time}
    (hs : u.Sound) (h : u.AllOrderly) (stop : Time) (segProvider : Option String)
    (hok : new = old ∨ switchInOrder (u.heap s) now = true) :
    (updateDeliveryMode u s old new stop segProvider now).Sound ∧
      (updateDeliveryMode u s old new stop segProvider now).AllOrderly := by
  unfold updateDeliveryMode
  split
  · exact ⟨hs, h⟩
  · rename_i hmode
    have hx := switchSegmenter_orderly (h s) segProvider (hok.resolve_left hmode)
    have hsound : (u.setSeg s (switchSegmenter (u.heap s) segProvider now)).Sound := hs.setSeg (hs s)
    have horderly := h.setSeg (s := s) hx
    -- only the timers of the transport are different otherwise
    have hsame : ∀ w : SegmentedUploader,
        w.heap = (u.setSeg s (switchSegmenter (u.heap s) segProvider now)).heap → w.Sound ∧ w.AllOrderly := by
      intro w hw
      exact ⟨fun j => by rw [hw]; exact hsound j, fun j => by rw [hw]; exact horderly j⟩
    apply hsame
    by_cases hold : old = .upload <;> by_cases hnew : new = .upload <;>
      simp only [hold, hnew, if_true, if_false] <;> rfl

theorem request_wellFormed {a : SegmentedUploader.Action} (hs : u.Sound) (h : u.AllOrderly)
    (hok : (SegmentedUploader.windowConditions std).Admits std u a) (hx : request std u a = some x) :
    x.WellFormed := by
  cases a with
  | fire t env =>
    simp only [request] at hx
    split at hx
    · rename_i http hf
      have hu : ({ u with http } : SegmentedUploader).Sound := hs
      exact SegmentedUploader.tickRequest_wellFormed hu h (hok _ hf) hx
    · cases hx
  | scheduleUpload => cases hx
  | finalizeUpload => cases hx
  | cancelUpload => cases hx
  | reportFinished => cases hx

theorem InOrder.step (h : InOrder r) (hok : Admits std r a) (ht : step std r a = some t) : InOrder t := by
  cases a with
  | uploader a =>
    obtain ⟨u, hu, rfl⟩ := Option.map_eq_some_iff.mp ht
    refine ⟨h.sound.step hu, (SegmentedUploader.orderly_step std).step a h.sound h.orderly hok hu, fun x hx => ?_⟩
    rcases List.mem_append.mp hx with hx | hx
    · exact h.requests x hx
    · exact request_wellFormed h.sound h.orderly hok (Option.mem_toList.mp hx)
  | updateDeliveryMode s old new stop segProvider now =>
    obtain rfl := Option.some.inj ht
    obtain ⟨hsound, horderly⟩ := updateDeliveryMode_orderly h.sound h.orderly stop segProvider hok
    exact ⟨hsound, horderly, h.requests⟩

/-- In every run whose switches find a window that stops in order after its new start, every window that
is requested is well formed. -/
theorem requests_wellFormed (std : StdSort) (camId : ℤ) (created : SegId → NewSegmenter)
    (hstarted : ∀ s, (created s).1.EventStarted) (as : List Action)
    (hm : Meets (step std) (Admits std) { uploader := .start camId created } as)
    (he : exec (step std) { uploader := .start camId created } as = some t) :
    ∀ x ∈ t.requests, x.WellFormed :=
  (Transition.invariant (P := InOrder) (fun _ _ _ hr hok ht => hr.step hok ht)
    ⟨SegmentedUploader.sound_start camId created, fun s => (hstarted s).orderly, by simp⟩ hm he).requests

/-- A stateful event with windows of 15 and a pre-record time of 5. -/
def ongoingAt (time : Time) (htime : time ≤ Time.max) : { created : SegId → NewSegmenter //
    ∀ s, (created s).1.EventStarted } :=
  ⟨fun _ => .ofEvent true time 0 5 5 15 0 "cam" "" 0,
    fun _ => ⟨true, time, 0, 5, 5, 15, 0, "cam", "", 0, htime, by decide, by decide, by decide, rfl⟩⟩

/-- The event has begun without delivery, and its upload begins before its first window is over. -/
theorem requests_wellFormed_early :
    ∃ t ∈ exec (step .insertion) { uploader := .start 7 (ongoingAt 1000 (by decide)).1 }
      [.updateDeliveryMode 0 .none .upload 0 (some "cam") 1010, .uploader (.fire 1 (.exact [])),
        .uploader (.fire 0 (.exact []))],
      t.requests.length = 1 ∧ ∀ x ∈ t.requests, x.WellFormed := by
  have hrun : ∃ t ∈ exec (step .insertion) { uploader := .start 7 (ongoingAt 1000 (by decide)).1 }
      [.updateDeliveryMode 0 .none .upload 0 (some "cam") 1010, .uploader (.fire 1 (.exact [])),
        .uploader (.fire 0 (.exact []))], t.requests.length = 1 := by decide +kernel
  obtain ⟨t, ht, hlength⟩ := hrun
  exact ⟨t, ht, hlength, requests_wellFormed .insertion 7 _ (ongoingAt 1000 (by decide)).2 _
    (by decide +kernel) ht⟩

/-- The upload begins a minute after the event: the window that is requested stops before it starts. -/
theorem requests_backwards :
    ∃ t ∈ exec (step .insertion) { uploader := .start 7 (ongoingAt 1000 (by decide)).1 }
      [.updateDeliveryMode 0 .none .upload 0 (some "cam") 1060, .uploader (.fire 1 (.exact [])),
        .uploader (.fire 0 (.exact []))],
      ∃ x ∈ t.requests, ¬ x.WellFormed := by
  have hrun : ∃ t ∈ exec (step .insertion) { uploader := .start 7 (ongoingAt 1000 (by decide)).1 }
      [.updateDeliveryMode 0 .none .upload 0 (some "cam") 1060, .uploader (.fire 1 (.exact [])),
        .uploader (.fire 0 (.exact []))],
      ∃ x ∈ t.requests, ¬ x.curSegStart < x.curSegStop := by decide +kernel
  obtain ⟨t, ht, x, hx, hback⟩ := hrun
  exact ⟨t, ht, x, hx, fun h => hback h.nonempty⟩

end Requesting
end CloudAgent.Control
