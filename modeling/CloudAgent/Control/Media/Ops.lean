import CloudAgent.Control.Delivery.Run
import CloudAgent.Control.Manager
import CloudAgent.Control.Media.Recorder
import CloudAgent.Control.Media.Sinks

/-! What the commands and callbacks do to the event states, as sequences of operations on them. Only some
commands start an event; the others stop and switch those that are going on. -/
namespace CloudAgent.Control
open Proto Net Transition

namespace Media
variable {P : Delivery → String → StreamDeliveryMode → EventObject → Prop} {dev : Device} {env : Env}
  {lookup : EventObject → Option EventConfig} {m m' m'' : Media} {s : String} {p q : Prop}

/-! ### Equations -/

theorem handleStreamStatefulEvent_eq (dev : Device) (env : Env) (event : EventObject) (mode : StreamDeliveryMode)
    (m : Media) : ∃ d, m.handleStreamStatefulEvent dev env event mode = { m with delivery := d } := by
  unfold handleStreamStatefulEvent
  dsimp only
  split_ifs <;> exact ⟨_, rfl⟩

theorem handleStreamStatelessEvent_eq (dev : Device) (env : Env) (event : EventObject) (mode : StreamDeliveryMode)
    (m : Media) : ∃ d, m.handleStreamStatelessEvent dev env event mode = { m with delivery := d } := by
  unfold handleStreamStatelessEvent
  split_ifs <;> exact ⟨_, rfl⟩

/-- Notifying an event delivers its video, and follows the memory card. -/
theorem notifyEvent_eq (dev : Device) (env : Env) (lookup : EventObject → Option EventConfig)
    (event : EventObject) (m : Media) : ∃ d r,
      m.notifyEvent dev env lookup event = { m with delivery := d, recorder := r } ∧
        (r = m.recorder ∨ r = m.recorder.memorycardEvent env m.recordStream event.memorycardInfo) := by
  have hdeliver (m' : Media) (conf : EventConfig) : ∃ d,
      (if delivers conf event then
        if conf.caps.statefull then m'.handleStreamStatefulEvent dev env event m'.currentDeliveryMode
        else m'.handleStreamStatelessEvent dev env event m'.currentDeliveryMode
      else m') = { m' with delivery := d } := by
    split_ifs
    · exact handleStreamStatefulEvent_eq dev env event _ m'
    · exact handleStreamStatelessEvent_eq dev env event _ m'
    · exact ⟨m'.delivery, rfl⟩
  unfold notifyEvent
  cases acceptedConfig lookup event with
  | none => exact ⟨_, _, rfl, .inl rfl⟩
  | some conf =>
    dsimp only
    by_cases hcard : event.event = .memorycard
    · obtain ⟨d, hd⟩ := hdeliver { m with
        recorder := m.recorder.memorycardEvent env m.recordStream event.memorycardInfo } conf
      rw [if_pos hcard, hd]
      exact ⟨d, _, rfl, .inr rfl⟩
    · obtain ⟨d, hd⟩ := hdeliver m conf
      rw [if_neg hcard, hd]
      exact ⟨d, _, rfl, .inl rfl⟩

/-- Following the memory card changes the recorder only. -/
theorem memorycardEvent_eq (env : Env) (event : EventObject) (m : Media) : ∃ recorder,
    (if event.event = .memorycard then
      { m with recorder := m.recorder.memorycardEvent env m.recordStream event.memorycardInfo }
    else m) = { m with recorder } := by
  split_ifs
  · exact ⟨_, rfl⟩
  · exact ⟨_, rfl⟩

theorem core_stateful_of_ne (dev : Device) (env : Env) (event : EventObject) (mode : StreamDeliveryMode) (m : Media)
    {k : String} (hk : k ≠ event.name) :
    (m.handleStreamStatefulEvent dev env event mode).delivery.core k = m.delivery.core k := by
  have htouch := m.delivery.core_touch_of_ne hk
  unfold handleStreamStatefulEvent
  dsimp only
  split
  · exact htouch
  · split
    · exact htouch
    · split
      · exact htouch
      · split
        · exact (Delivery.core_start_of_ne _ _ _ _ _ _ _ _ _ hk).trans htouch
        · exact (Delivery.core_stop_of_ne _ _ _ hk).trans htouch

theorem core_stateless_of_ne (dev : Device) (env : Env) (event : EventObject) (mode : StreamDeliveryMode) (m : Media)
    {k : String} (hk : k ≠ event.name) :
    (m.handleStreamStatelessEvent dev env event mode).delivery.core k = m.delivery.core k := by
  unfold handleStreamStatelessEvent
  split
  · rfl
  · exact Delivery.core_start_of_ne _ _ _ _ _ _ _ _ _ hk

/-- Notifying an event leaves the states of the others alone. -/
theorem core_notifyEvent_of_ne (dev : Device) (env : Env) (lookup : EventObject → Option EventConfig)
    (event : EventObject) (m : Media) {k : String} (hk : k ≠ event.name) :
    (m.notifyEvent dev env lookup event).delivery.core k = m.delivery.core k := by
  unfold notifyEvent
  cases acceptedConfig lookup event with
  | none => rfl
  | some conf =>
    obtain ⟨recorder, hr⟩ := memorycardEvent_eq env event m
    dsimp only
    rw [hr]
    split
    · split
      · exact core_stateful_of_ne dev env event _ _ hk
      · exact core_stateless_of_ne dev env event _ _ hk
    · rfl

/-- Asking for the status of the memory card notifies the answer as an event. -/
theorem updateStorageStatus_of_some (dev : Device) (lookup : EventObject → Option EventConfig) (m : Media)
    {info : MemorycardInfo} (hinfo : env.memorycardInfo = some info) :
    m.updateStorageStatus dev env lookup = (decide (info.status = .normal),
      { m with recorder := m.recorder.heard info m.recordStream }.notifyEvent dev env lookup
        (memorycardEvent env info)) := by
  unfold updateStorageStatus Recorder.heard
  rw [hinfo]
  cases m.recordStream <;> simp

/-! ### Commands that start nothing -/

/-- A storage-direct recording has a stateful event to stop. -/
def Ready (m : Media) : Prop :=
  m.continuosDirectRecord = true → (m.delivery.state "direct-upload-recording").stateful = true

/-- The event states go through operations that start as `P` says exactly where `p` holds, and no
storage-direct recording begins. -/
structure Quiet (P : Delivery → String → StreamDeliveryMode → EventObject → Prop) (m : Media) (p : Prop)
    (m' : Media) : Prop where
  leads : Leads Delivery.Op.step (Delivery.Op.Starts P) m.delivery p m'.delivery
  direct : m'.continuosDirectRecord = true → m.continuosDirectRecord = true

namespace Quiet

theorem ready (h : m.Quiet P p m') (hm : m.Ready) : m'.Ready := fun hd =>
  h.leads.preserves (P := fun d => (d.state "direct-upload-recording").stateful = true)
    (fun _ _ _ hu hs => Delivery.Op.step_stateful hs hu) (hm (h.direct hd))

theorem sound (h : m.Quiet P p m') (hm : m.delivery.Sound) : m'.delivery.Sound :=
  h.leads.preserves (fun _ _ _ hu hs => hu.step hs) hm

theorem of_eq (hd : m'.delivery = m.delivery) (hc : m'.continuosDirectRecord = m.continuosDirectRecord) :
    m.Quiet P True m' where
  leads := by
    rw [hd]
    exact .refl m.delivery
  direct h := hc.symm.trans h

theorem refl (m : Media) : m.Quiet P True m := of_eq rfl rfl

theorem congr (h : m.Quiet P p m') (hpq : p ↔ q) : m.Quiet P q m' := ⟨h.leads.congr hpq, h.direct⟩

theorem then_free (h : m.Quiet P p m') (h' : m'.Quiet P True m'') : m.Quiet P p m'' :=
  ⟨h.leads.then_free h'.leads, fun hd => h.direct (h'.direct hd)⟩

theorem after_free (h : m.Quiet P True m') (h' : m'.Quiet P q m'') : m.Quiet P q m'' :=
  ⟨h.leads.after_free h'.leads, fun hd => h.direct (h'.direct hd)⟩

/-- A loop whose rounds start nothing. -/
theorem foldl {β : Type*} {f : Media → β → Media} {l : List β}
    (h : ∀ (m : Media) (b : β), m.Ready → m.Quiet P True (f m b))
    (hm : m.Ready) : m.Quiet P True (l.foldl f m) := by
  induction l generalizing m with
  | nil => exact refl m
  | cons b l ih => exact (h m b hm).then_free (ih ((h m b hm).ready hm))

end Quiet

theorem Quiet.stopIdleSource (h : m.Quiet P p m') : m.Quiet P p (m'.stopIdleSource dev s) := by
  obtain ⟨publisher, hp⟩ := m'.stopIdleSource_publisher dev s
  rw [hp]
  exact ⟨h.leads, h.direct⟩

theorem quiet_notifyRecordEvent (streamId : String) (on : Bool) (m : Media) :
    m.Quiet P True (m.notifyRecordEvent streamId on) := by
  rw [notifyRecordEvent_eq]
  exact Quiet.of_eq rfl rfl

theorem quiet_stopServerByEvent (dev : Device) (s : String) (m : Media) :
    m.Quiet P True (m.stopServerByEvent dev s) := by
  unfold stopServerByEvent
  split_ifs
  · exact Quiet.stopIdleSource ((quiet_notifyRecordEvent s false m).then_free (Quiet.of_eq rfl rfl))
  · exact Quiet.stopIdleSource (Quiet.of_eq rfl rfl)

theorem quiet_stopRecord (env : Env) (s : String) (hm : m.Ready) : m.Quiet P True (m.stopRecord dev env s) := by
  unfold stopRecord
  split_ifs with hd
  · exact Quiet.stopIdleSource ⟨Delivery.leads_stop (hm hd), fun _ => hd⟩
  · exact quiet_stopServerByEvent dev s m

theorem quiet_stopDelivery (dev : Device) (env : Env) (s : String) (hm : m.Ready) :
    m.Quiet P True (m.stopDelivery dev env s) := by
  unfold stopDelivery
  refine Quiet.foldl (fun m name hm => ?_) hm
  split_ifs with hs
  · simp only [isStreaming, Bool.and_eq_true] at hs
    have hoff : m.Quiet P True
        { m with delivery := m.delivery.updateDeliveryMode env.now name .none m.recordStream } :=
      ⟨Delivery.leads_updateDeliveryMode (by simp [hs.1.1]), id⟩
    exact hoff.then_free (quiet_stopRecord env s (hoff.ready hm))
  · exact .refl m

theorem quiet_stopRecordByEvent (dev : Device) (env : Env) (s : String) (hm : m.Ready) :
    m.Quiet P True (m.stopRecordByEvent dev env s) := by
  unfold stopRecordByEvent
  split
  · exact Quiet.stopIdleSource (.refl m)
  · split
    · have hdelivery : m.Quiet P True (if m.streamByEvent then m.stopDelivery dev env s else m) := by
        split_ifs
        · exact quiet_stopDelivery dev env s hm
        · exact .refl m
      dsimp only
      generalize (if m.streamByEvent = true then m.stopDelivery dev env s else m) = m₁ at hdelivery
      have hrecord : m₁.Quiet P True
          (if m₁.recordEventDepth ≠ 0 then { m₁ with recordEventDepth := 1 }.stopRecord dev env s else m₁) := by
        split_ifs
        · have hone : m₁.Quiet P True { m₁ with recordEventDepth := 1 } := .of_eq rfl rfl
          exact hone.then_free (quiet_stopRecord env s (hone.ready (hdelivery.ready hm)))
        · exact .refl m₁
      exact Quiet.stopIdleSource ((hdelivery.then_free hrecord).then_free (.of_eq rfl rfl))
    · exact Quiet.stopIdleSource (.refl m)

theorem quiet_onStreamStop (dev : Device) (env : Env) (streamId : String) (reason : StreamReason) (hm : m.Ready) :
    m.Quiet P True (m.onStreamStop dev env streamId reason) := by
  unfold onStreamStop
  cases dev.lookupStream streamId with
  | none => exact .refl m
  | some stream =>
    cases reason with
    | live => exact Quiet.stopIdleSource (.of_eq rfl rfl)
    | record => exact quiet_stopRecord env stream.cloudName hm
    | serverByEvent => exact quiet_stopServerByEvent dev stream.cloudName m
    | recordByEvent => exact quiet_stopRecordByEvent dev env stream.cloudName hm
    | recordDirect => exact .refl m
    | invalid => exact .refl m

theorem quiet_stopEvents (env : Env) (m : Media) : m.Quiet P True (m.stopEvents env) :=
  ⟨Delivery.leads_stopAll env.now m.delivery, id⟩

theorem quiet_initEventsStates (events : List EventConfig) (m : Media) :
    m.Quiet P True { m with delivery := m.delivery.initEventsStates events } :=
  ⟨Leads.one (a := Delivery.Op.initEventsStates events) rfl, id⟩

end Media
end CloudAgent.Control
