import CloudAgent.Control.Media.Starts

/-! The record events that the cloud gets. They are counted by one depth for all streams, which the stop of
recording by events forces down; a storage-direct recording takes stops for itself, and the event that stands
for it is what makes the count right in the end. -/
namespace CloudAgent.Control
open Proto Net Transition

/-- On and off take turns, in the order in which they were sent, and on is the first. -/
def Alternates (events : List (String × Bool)) : Prop :=
  ∀ i e, events.reverse[i]? = some e → (e.2 = true ↔ i % 2 = 0)

theorem alternates_cons {events : List (String × Bool)} {e : String × Bool} :
    Alternates (e :: events) ↔ Alternates events ∧ (e.2 = true ↔ events.length % 2 = 0) := by
  unfold Alternates
  rw [List.reverse_cons]
  constructor
  · intro h
    refine ⟨fun i e' he => h i e' ?_, ?_⟩
    · rw [List.getElem?_append_left (List.getElem?_eq_some_iff.mp he).1]
      exact he
    · refine h events.length e ?_
      rw [List.getElem?_append_right (by simp)]
      simp
  · rintro ⟨hall, hlast⟩ i e' he
    by_cases hi : i < events.reverse.length
    · rw [List.getElem?_append_left hi] at he
      exact hall i e' he
    · rw [List.getElem?_append_right (not_lt.mp hi)] at he
      obtain ⟨hle, heq⟩ := List.getElem?_eq_some_iff.mp he
      simp only [List.length_singleton, Nat.lt_one_iff] at hle
      obtain rfl : i = events.length := by
        rw [List.length_reverse] at hi hle
        omega
      simp only [List.getElem_singleton] at heq
      rw [← heq]
      exact hlast

/-- After as many offs as ons, the last one was off. -/
theorem Alternates.last_off {events : List (String × Bool)} (h : Alternates events) (heven : events.length % 2 = 0) :
    ∀ e ∈ events.head?, e.2 = false := by
  cases events with
  | nil => simp
  | cons e events =>
    obtain ⟨-, he⟩ := alternates_cons.mp h
    rw [List.length_cons] at heven
    rintro _ ⟨⟩
    rw [← Bool.not_eq_true, he]
    omega

namespace Media
variable {dev : Device} {env : Env} {lookup : EventObject → Option EventConfig} {m m' : Media} {s : String}

/-- The events alternate, the depth is zero exactly after as many offs as ons, and it is zero while nothing is
streamed by events. -/
structure Balanced (m : Media) : Prop where
  alternates : Alternates m.recordEvents
  depth_iff : m.recordEventDepth = 0 ↔ m.recordEvents.length % 2 = 0
  notStreamed : m.streamByEvent = false → m.recordEventDepth = 0

theorem Balanced.congr (h : m.Balanced) (hevents : m'.recordEvents = m.recordEvents)
    (hdepth : m'.recordEventDepth = m.recordEventDepth) (hstream : m'.streamByEvent = m.streamByEvent) :
    m'.Balanced where
  alternates := hevents ▸ h.alternates
  depth_iff := by rw [hevents, hdepth, h.depth_iff]
  notStreamed := by
    rw [hdepth, hstream]
    exact h.notStreamed

/-- While events are streamed, a start or a stop of a record keeps the balance. -/
theorem Balanced.notifyRecordEvent (h : m.Balanced) (hstream : m.streamByEvent = true) (streamId : String) (on : Bool) :
    (m.notifyRecordEvent streamId on).Balanced := by
  have hdepth := h.depth_iff
  rw [notifyRecordEvent_eq]
  cases on
  · by_cases hone : m.recordEventDepth = 1
    · have hodd : ¬ m.recordEvents.length % 2 = 0 := by
        rw [← hdepth]
        omega
      refine ⟨?_, ?_, fun hs => absurd (hstream.symm.trans hs) (by simp)⟩
      · simp only [isSent, hone, Bool.false_eq_true, if_false, decide_true, if_true]
        exact alternates_cons.mpr ⟨h.alternates, by simpa using hodd⟩
      · have heven : (m.recordEvents.length + 1) % 2 = 0 := by omega
        simp [isSent, depthAfter, hone, heven]
    · refine ⟨?_, ?_, fun hs => absurd (hstream.symm.trans hs) (by simp)⟩
      · simpa [isSent, hone] using h.alternates
      · simp only [isSent, depthAfter, hone, Bool.false_eq_true, if_false, decide_false]
        omega
  · by_cases hzero : m.recordEventDepth = 0
    · have heven := hdepth.mp hzero
      refine ⟨?_, ?_, fun hs => absurd (hstream.symm.trans hs) (by simp)⟩
      · simp only [isSent, hzero, if_true, decide_true]
        exact alternates_cons.mpr ⟨h.alternates, by simpa using heven⟩
      · simp only [isSent, depthAfter, hzero, if_true, decide_true, List.length_cons]
        omega
    · refine ⟨?_, ?_, fun hs => absurd (hstream.symm.trans hs) (by simp)⟩
      · simpa [isSent, hzero] using h.alternates
      · simp only [isSent, depthAfter, hzero, if_true, decide_false, Bool.false_eq_true, if_false]
        omega

theorem Balanced.stopIdleSource (h : m.Balanced) : (m.stopIdleSource dev s).Balanced := by
  obtain ⟨publisher, hp⟩ := m.stopIdleSource_publisher dev s
  rw [hp]
  exact h.congr rfl rfl rfl

theorem Balanced.stopServerByEvent (h : m.Balanced) : (m.stopServerByEvent dev s).Balanced := by
  unfold Media.stopServerByEvent
  split_ifs with hstream
  · exact Balanced.stopIdleSource ((h.notifyRecordEvent hstream s false).congr rfl rfl rfl)
  · exact Balanced.stopIdleSource (h.congr rfl rfl rfl)

theorem Balanced.stopRecord (h : m.Balanced) : (m.stopRecord dev env s).Balanced := by
  unfold Media.stopRecord
  split_ifs
  · exact Balanced.stopIdleSource (h.congr rfl rfl rfl)
  · exact h.stopServerByEvent

/-- A stop of a record leaves no storage-direct recording behind, and events are streamed as before. -/
theorem stopRecord_flags (dev : Device) (env : Env) (s : String) (m : Media) :
    (m.stopRecord dev env s).continuosDirectRecord = false ∧
      (m.stopRecord dev env s).streamByEvent = m.streamByEvent ∧
      (m.continuosDirectRecord = false → m.streamByEvent = true →
        (m.stopRecord dev env s).recordEventDepth = m.recordEventDepth - 1) := by
  have hidle (m' : Media) : (m'.stopIdleSource dev s).continuosDirectRecord = m'.continuosDirectRecord ∧
      (m'.stopIdleSource dev s).streamByEvent = m'.streamByEvent ∧
      (m'.stopIdleSource dev s).recordEventDepth = m'.recordEventDepth := by
    obtain ⟨publisher, hp⟩ := m'.stopIdleSource_publisher dev s
    rw [hp]
    exact ⟨rfl, rfl, rfl⟩
  unfold stopRecord
  split_ifs with hd
  · rw [(hidle _).1, (hidle _).2.1]
    exact ⟨rfl, rfl, fun h => absurd (hd.symm.trans h) (by simp)⟩
  · unfold stopServerByEvent
    rw [(hidle _).1, (hidle _).2.1, (hidle _).2.2]
    split_ifs with hstream
    · rw [notifyRecordEvent_eq]
      exact ⟨by simpa using hd, rfl, fun _ _ => rfl⟩
    · exact ⟨by simpa using hd, rfl, fun _ h => absurd h hstream⟩

/-- While a storage-direct recording lasts, its event is going on. -/
def Direct (m : Media) : Prop :=
  m.continuosDirectRecord = true → m.delivery.isOngoing "direct-upload-recording" = true

theorem Direct.congr (h : m.Direct) (hc : m'.continuosDirectRecord = m.continuosDirectRecord)
    (hd : m'.delivery.core "direct-upload-recording" = m.delivery.core "direct-upload-recording") : m'.Direct := by
  unfold Direct
  rw [hc, Delivery.isOngoing_eq, hd, ← Delivery.isOngoing_eq]
  exact h

/-- One round of the loop of `on_stream_stop`: the event of a storage-direct recording ends it. -/
theorem stopDelivery_round (dev : Device) (env : Env) (s name : String) (h : m.Balanced) (hdirect : m.Direct) :
    let m' := if m.isStreaming name then
        { m with delivery := m.delivery.updateDeliveryMode env.now name .none m.recordStream }.stopRecord dev env s
      else m
    m'.Balanced ∧ m'.Direct ∧ m'.streamByEvent = m.streamByEvent ∧
      (m'.continuosDirectRecord = true → m.continuosDirectRecord = true ∧ name ≠ "direct-upload-recording") := by
  dsimp only
  split_ifs with hs
  · generalize hm₁ : ({ m with delivery := m.delivery.updateDeliveryMode env.now name .none m.recordStream } : Media) = m₁
    have hbalanced : m₁.Balanced := by
      rw [← hm₁]
      exact h.congr rfl rfl rfl
    have hstream : m₁.streamByEvent = m.streamByEvent := by rw [← hm₁]
    obtain ⟨hcont, hstream', -⟩ := stopRecord_flags dev env s m₁
    refine ⟨hbalanced.stopRecord, fun hc => ?_, hstream'.trans hstream, fun hc => ?_⟩
    all_goals
      rw [hcont] at hc
      cases hc
  · refine ⟨h, hdirect, rfl, fun hc => ⟨hc, ?_⟩⟩
    rintro rfl
    have hongoing := hdirect hc
    simp only [Delivery.isOngoing, Bool.and_eq_true] at hongoing
    simp [isStreaming, hongoing] at hs

/-- The loop of `on_stream_stop` ends a storage-direct recording: its event is among those that it meets. -/
theorem stopDelivery_balanced (dev : Device) (env : Env) (s : String) (h : m.Balanced) (hdirect : m.Direct) :
    (m.stopDelivery dev env s).Balanced ∧ (m.stopDelivery dev env s).streamByEvent = m.streamByEvent ∧
      (m.stopDelivery dev env s).continuosDirectRecord = false := by
  have hloop (l : List String) (m : Media) (h : m.Balanced) (hdirect : m.Direct) :
      let m' := l.foldl (fun m name =>
        if m.isStreaming name then
          { m with delivery := m.delivery.updateDeliveryMode env.now name .none m.recordStream }.stopRecord dev env s
        else m) m
      m'.Balanced ∧ m'.streamByEvent = m.streamByEvent ∧
        (m'.continuosDirectRecord = true → m.continuosDirectRecord = true ∧ "direct-upload-recording" ∉ l) := by
    induction l generalizing m with
    | nil => exact ⟨h, rfl, fun hc => ⟨hc, List.not_mem_nil⟩⟩
    | cons name l ih =>
      obtain ⟨h₁, hdirect₁, hstream₁, hcont₁⟩ := stopDelivery_round dev env s name h hdirect
      obtain ⟨h₂, hstream₂, hcont₂⟩ := ih _ h₁ hdirect₁
      refine ⟨h₂, hstream₂.trans hstream₁, fun hc => ?_⟩
      obtain ⟨hc, hl⟩ := hcont₂ hc
      obtain ⟨hc, hname⟩ := hcont₁ hc
      exact ⟨hc, fun hmem => (List.mem_cons.mp hmem).elim (fun heq => hname heq.symm) hl⟩
  obtain ⟨hbalanced, hstream, hcont⟩ := hloop m.delivery.eventsStates.order m h hdirect
  refine ⟨hbalanced, hstream, ?_⟩
  by_contra hc
  obtain ⟨hc, hl⟩ := hcont (Bool.eq_true_of_not_eq_false hc)
  exact hl (StdMap.mem_order.mpr (Delivery.mem_of_isOngoing (hdirect hc)))

/-- The event of a storage-direct recording is going on once it was started with an uploader. -/
theorem isOngoing_directUploadRecording {d : Delivery} {event : EventObject} (hd : d.Sound)
    (hcrash : (d.start dev env.now "direct-upload-recording" .upload event 0 0 (some s) "").crashed = false) :
    (d.start dev env.now "direct-upload-recording" .upload event 0 0 (some s) "").isOngoing
      "direct-upload-recording" = true := by
  obtain ⟨hstateful, hclip⟩ := (hd.states _).direct rfl (Delivery.attached_of_start hcrash)
  obtain ⟨states, segmenters, http, heq, hcore⟩ :=
    Delivery.start_eq dev env.now "direct-upload-recording" .upload event 0 0 (some s) "" d
  rw [heq]
  rw [Delivery.isOngoing_eq]
  refine (congrArg _ ((congrFun hcore _).trans (Function.update_self _ _ _))).trans ?_
  simp [Delivery.startedCore, EventState.core, hstateful, hclip]

/-- What the operations keep: the record events are balanced, and a storage-direct recording has its event. -/
structure Calm (m : Media) : Prop where
  balanced : m.Balanced
  direct : m.Direct

namespace Calm

theorem congr (h : m.Calm) (hevents : m'.recordEvents = m.recordEvents)
    (hdepth : m'.recordEventDepth = m.recordEventDepth) (hstream : m'.streamByEvent = m.streamByEvent)
    (hc : m'.continuosDirectRecord = m.continuosDirectRecord)
    (hd : m'.delivery.core "direct-upload-recording" = m.delivery.core "direct-upload-recording") : m'.Calm :=
  ⟨h.balanced.congr hevents hdepth hstream, h.direct.congr hc hd⟩

theorem stopIdleSource (h : m.Calm) : (m.stopIdleSource dev s).Calm := by
  obtain ⟨publisher, hp⟩ := m.stopIdleSource_publisher dev s
  rw [hp]
  exact h.congr rfl rfl rfl rfl rfl

theorem notifyRecordEvent (h : m.Calm) (hstream : m.streamByEvent = true) (streamId : String) (on : Bool) :
    (m.notifyRecordEvent streamId on).Calm := by
  refine ⟨h.balanced.notifyRecordEvent hstream streamId on, ?_⟩
  rw [notifyRecordEvent_eq]
  exact h.direct.congr rfl rfl

theorem stopServerByEvent (h : m.Calm) : (m.stopServerByEvent dev s).Calm := by
  unfold Media.stopServerByEvent
  split_ifs with hstream
  · exact stopIdleSource ((h.notifyRecordEvent hstream s false).congr rfl rfl rfl rfl rfl)
  · exact stopIdleSource (h.congr rfl rfl rfl rfl rfl)

theorem stopRecord (h : m.Calm) : (m.stopRecord dev env s).Calm :=
  ⟨h.balanced.stopRecord, fun hc => absurd ((stopRecord_flags dev env s m).1.symm.trans hc) Bool.false_ne_true⟩

/-- After the loop that ends a storage-direct recording, a stop of the record is for the record events. -/
theorem afterLoop (h : m.Calm) (hm : m' = if m.streamByEvent then m.stopDelivery dev env s else m) :
    m'.Calm ∧ m'.streamByEvent = m.streamByEvent ∧ (m.streamByEvent = true → m'.continuosDirectRecord = false) := by
  subst hm
  split_ifs with hstream
  · obtain ⟨hbalanced, hstream', hcont⟩ := stopDelivery_balanced dev env s h.balanced h.direct
    exact ⟨⟨hbalanced, fun hc => absurd (hcont.symm.trans hc) Bool.false_ne_true⟩, hstream', fun _ => hcont⟩
  · exact ⟨h, rfl, fun hs => absurd hs hstream⟩

/-- The depth is forced down to one, for the record to be stopped once more. -/
theorem lastStop (h : m.Calm) (hcont : m.streamByEvent = true → m.continuosDirectRecord = false)
    (hm : m' = if m.recordEventDepth ≠ 0 then { m with recordEventDepth := 1 }.stopRecord dev env s else m) :
    m'.Calm ∧ m'.recordEventDepth = 0 := by
  subst hm
  by_cases hdepth : m.recordEventDepth = 0
  · rw [if_neg (not_not.mpr hdepth)]
    exact ⟨h, hdepth⟩
  · rw [if_pos hdepth]
    have hstreaming : m.streamByEvent = true :=
      Bool.eq_true_of_not_eq_false fun hs => hdepth (h.balanced.notStreamed hs)
    have hone : ({ m with recordEventDepth := 1 } : Media).Calm := by
      refine ⟨⟨h.balanced.alternates, ?_, fun hs => absurd (hstreaming.symm.trans hs) (by simp)⟩,
        h.direct.congr rfl rfl⟩
      exact iff_of_false Nat.one_ne_zero (hdepth ∘ h.balanced.depth_iff.mpr)
    exact ⟨hone.stopRecord, (stopRecord_flags dev env s _).2.2 (hcont hstreaming) hstreaming⟩

theorem stopRecordByEvent (h : m.Calm) : (m.stopRecordByEvent dev env s).Calm := by
  unfold Media.stopRecordByEvent
  split
  · exact h.stopIdleSource
  · split
    · dsimp only
      generalize hloop : (if m.streamByEvent = true then m.stopDelivery dev env s else m) = m₁
      obtain ⟨hcalm, hstream, hcont⟩ := h.afterLoop hloop.symm
      generalize hlast : (if m₁.recordEventDepth ≠ 0 then { m₁ with recordEventDepth := 1 }.stopRecord dev env s
        else m₁) = m₂
      obtain ⟨hcalm₂, hdepth₂⟩ := hcalm.lastStop (fun hs => hcont (hstream.symm.trans hs)) hlast.symm
      exact stopIdleSource ⟨⟨hcalm₂.balanced.alternates, hcalm₂.balanced.depth_iff, fun _ => hdepth₂⟩,
        hcalm₂.direct.congr rfl rfl⟩
    · exact h.stopIdleSource

theorem onStreamStop (dev : Device) (env : Env) (h : m.Calm) (streamId : String) (reason : StreamReason) :
    (m.onStreamStop dev env streamId reason).Calm := by
  unfold Media.onStreamStop
  cases dev.lookupStream streamId with
  | none => exact h
  | some stream =>
    cases reason with
    | live => exact stopIdleSource (h.congr rfl rfl rfl rfl rfl)
    | record => exact h.stopRecord
    | serverByEvent => exact h.stopServerByEvent
    | recordByEvent => exact h.stopRecordByEvent
    | recordDirect => exact h
    | invalid => exact h

theorem startRecord (h : m.Calm) : (m.startRecord env s).2.Calm := by
  rw [startRecord_eq]
  by_cases hnotify : (m.publisher.sourceStarts env s && m.streamByEvent) = true
  · rw [if_pos hnotify]
    exact (h.notifyRecordEvent (Bool.and_elim_right hnotify) s true).congr rfl rfl rfl rfl rfl
  · rw [if_neg hnotify]
    exact h.congr rfl rfl rfl rfl rfl

theorem notifyEvent (h : m.Calm) (event : EventObject)
    (hname : m.continuosDirectRecord = true → event.name ≠ "direct-upload-recording") :
    (m.notifyEvent dev env lookup event).Calm := by
  have hcore (hne : event.name ≠ "direct-upload-recording") := core_notifyEvent_of_ne dev env lookup event m hne.symm
  obtain ⟨d, r, heq, -⟩ := notifyEvent_eq dev env lookup event m
  rw [heq] at hcore ⊢
  refine ⟨h.balanced.congr rfl rfl rfl, fun hc => ?_⟩
  exact h.direct.congr rfl (hcore (hname hc)) hc

theorem updateStorageStatus (h : m.Calm) : (m.updateStorageStatus dev env lookup).2.Calm := by
  cases hinfo : env.memorycardInfo with
  | none =>
    simp only [Media.updateStorageStatus, hinfo]
    exact h
  | some info =>
    rw [updateStorageStatus_of_some dev lookup m hinfo]
    have hcard : ({ m with recorder := m.recorder.heard info m.recordStream } : Media).Calm := h.congr rfl rfl rfl rfl rfl
    exact hcard.notifyEvent (memorycardEvent env info) fun _ => (by decide : "memorycard" ≠ "direct-upload-recording")

theorem switchDelivery (h : m.Calm) : (m.switchDelivery env).Calm := by
  refine ⟨h.balanced.congr rfl rfl rfl, fun hc => ?_⟩
  exact (Delivery.isOngoing_switchAll env.now m.currentDeliveryMode m.recordStream m.delivery _).trans (h.direct hc)

theorem startRecordByEvent (h : m.Calm) : (m.startRecordByEvent dev env lookup s).2.Calm := by
  have hask : (m.updateStorageStatus dev env lookup).2.Calm := h.updateStorageStatus
  unfold Media.startRecordByEvent
  generalize m.updateStorageStatus dev env lookup = asked at hask ⊢
  obtain ⟨storageOk, m₁⟩ := asked
  cases storageOk
  · have hstream : ({ m₁ with
        recorder := m₁.recorder.setStatus s fun st => { st with byEvent := true }
        streamByEvent := true
        recordStream := some s } : Media).Calm :=
      ⟨⟨hask.balanced.alternates, hask.balanced.depth_iff, nofun⟩, hask.direct.congr rfl rfl⟩
    exact hstream.switchDelivery
  · simp only [if_true]
    generalize (if dev.recordNeedsSource s = true then m₁.publisher.startSource env s else (true, m₁.publisher)) = source
    obtain ⟨started, publisher⟩ := source
    cases started
    · exact hask.congr rfl rfl rfl rfl rfl
    · simp only [if_true]
      refine switchDelivery ?_
      exact hask.congr rfl rfl rfl rfl rfl

/-- A storage-direct recording that starts has its event, unless the start crashed. -/
theorem startRecordDirect (h : m.Calm) (hm : m.delivery.Sound) :
    (m.startRecordDirect dev env lookup s).2.Balanced ∧
      ((m.startRecordDirect dev env lookup s).2.delivery.crashed = false →
        (m.startRecordDirect dev env lookup s).2.Direct) := by
  have hask : (m.updateStorageStatus dev env lookup).2.Calm := h.updateStorageStatus
  have hsound : (m.updateStorageStatus dev env lookup).2.delivery.Sound :=
    (quiet_updateStorageStatus (P := fun _ _ _ _ => True) dev env lookup hm).sound hm
  unfold Media.startRecordDirect
  generalize m.updateStorageStatus dev env lookup = asked at hask hsound ⊢
  obtain ⟨storageOk, m₁⟩ := asked
  cases storageOk
  · exact ⟨(startRecord hask).balanced, fun _ => (startRecord hask).direct⟩
  · exact ⟨hask.balanced.congr rfl rfl rfl, fun hcrash _ => isOngoing_directUploadRecording hsound hcrash⟩

theorem onStreamStart (h : m.Calm) (streamId : String) {reason : StreamReason} (hr : reason ≠ .recordDirect) :
    (m.onStreamStart dev env lookup streamId reason).2.Calm := by
  unfold Media.onStreamStart
  cases dev.lookupStream streamId with
  | none => exact h
  | some stream =>
    cases reason with
    | live =>
      dsimp only
      rw [startLive_eq]
      exact h.congr rfl rfl rfl rfl rfl
    | record => exact h.startRecord
    | serverByEvent =>
      dsimp only
      split_ifs
      · exact h
      · exact h.startRecord
    | recordByEvent =>
      dsimp only
      split_ifs
      · exact h
      · exact h.startRecordByEvent
    | recordDirect => exact absurd rfl hr
    | invalid => exact h

theorem onStreamStart_direct (h : m.Calm) (hm : m.delivery.Sound) (streamId : String) (reason : StreamReason) :
    (m.onStreamStart dev env lookup streamId reason).2.Balanced ∧
      ((m.onStreamStart dev env lookup streamId reason).2.delivery.crashed = false →
        (m.onStreamStart dev env lookup streamId reason).2.Direct) := by
  by_cases hr : reason = .recordDirect
  · subst hr
    unfold Media.onStreamStart
    cases dev.lookupStream streamId with
    | none => exact ⟨h.balanced, fun _ => h.direct⟩
    | some stream => exact h.startRecordDirect hm
  · have hcalm : (m.onStreamStart dev env lookup streamId reason).2.Calm := h.onStreamStart streamId hr
    exact ⟨hcalm.balanced, fun _ => hcalm.direct⟩

theorem runRxTask (h : m.Calm) (task : RxTask) : (m.runRxTask dev env lookup task).Calm := by
  cases task with
  | startRecord streamId => exact h.onStreamStart streamId (by simp)
  | stopRecord streamId => exact h.onStreamStop dev env streamId .record
  | stopStream streamId =>
    have hrecord := (h.onStreamStop dev env streamId .live).onStreamStop dev env streamId .record
    exact (hrecord.onStreamStop dev env streamId .recordByEvent).onStreamStop dev env streamId .serverByEvent

theorem onSetStreamByEvent (h : m.Calm) (streamId : String) (preEvent postEvent : ℤ) :
    (m.onSetStreamByEvent dev streamId preEvent postEvent).Calm := by
  unfold Media.onSetStreamByEvent
  cases dev.lookupStream streamId with
  | none => exact h.congr rfl rfl rfl rfl rfl
  | some stream => exact h.congr rfl rfl rfl rfl rfl

theorem onCamMemorycardRecording (h : m.Calm) (streamId : String) (enabled : Bool) :
    (m.onCamMemorycardRecording dev env streamId enabled).Calm := by
  unfold Media.onCamMemorycardRecording
  cases dev.lookupStream streamId with
  | none => exact h
  | some stream => exact h.congr rfl rfl rfl rfl rfl

/-- A command that ends events, while no storage-direct recording is going on. -/
theorem of_not_direct (h : m.Calm) (hnone : m.continuosDirectRecord = false) (hevents : m'.recordEvents = m.recordEvents)
    (hdepth : m'.recordEventDepth = m.recordEventDepth) (hstream : m'.streamByEvent = m.streamByEvent)
    (hc : m'.continuosDirectRecord = m.continuosDirectRecord) : m'.Calm :=
  ⟨h.balanced.congr hevents hdepth hstream,
    fun hdirect => absurd (hnone.symm.trans (hc.symm.trans hdirect)) Bool.false_ne_true⟩

end Calm

end Media

/-! ### Runs of the control side -/

namespace Manager
variable {dev : Device} {c c' : Manager} {a : Action}

/-- The event that a callback of the transport notifies under a name of its own. -/
def periodicName : TransportCb → Option String
  | .triggerPeriodicEvent conf => some conf.name
  | .startProviders => none

/-- While a storage-direct recording is going on, no other command ends its event: events are not configured
anew, the connection stays open, and no event is notified under its name. Starting and stopping streams is
free. -/
def undisturbed (c : Manager) (a : Action) : Bool :=
  !c.media.continuosDirectRecord ||
    match a with
    | .getCamEvents .. | .setCamEvents .. | .closed _ => false
    | .notifyEvent _ event => event.name ≠ "direct-upload-recording"
    | .fireTransportTimer _ t =>
      (c.events.periodic.transport.sulCb t).all fun fired => periodicName fired.1 ≠ some "direct-upload-recording"
    | .setRegistered _ | .streamStart .. | .streamStop .. | .setStreamByEvent .. | .memorycardRecording ..
    | .memorycardSynchronize .. | .fireHttpTimer _ | .runRxTask _ => true

/-- The invariant: the event states are sound, the record events are balanced, and while nothing has crashed a
storage-direct recording has its event. -/
structure Recorded (c : Manager) : Prop where
  sound : c.Sound
  balanced : c.media.Balanced
  direct : c.media.delivery.crashed = false → c.media.Direct

theorem Recorded.start (dev : Device) : (start dev).Recorded where
  sound := Sound.start dev
  balanced := ⟨fun _ _ => nofun, by simp [Manager.start, Media.start], fun _ => rfl⟩
  direct _ := nofun

theorem loaded_calm (h : c.media.Calm) (hnone : c.media.continuosDirectRecord = false) (env : Env)
    (reported : Option EventsConfig) : (initLoaded dev reported c.events (c.media.stopEvents env)).Calm := by
  unfold initLoaded
  split_ifs
  · exact h.of_not_direct hnone rfl rfl rfl rfl
  · exact h.of_not_direct hnone rfl rfl rfl rfl

theorem setCamEvents_calm (hs : c.Sound) (h : c.media.Calm) (hnone : c.media.continuosDirectRecord = false) (env : Env)
    (reported : Option EventsConfig) (config : EventsConfig) :
    (c.onSetCamEventsConfig dev env reported config).media.Calm := by
  have hloaded : (initLoaded dev reported c.events (c.media.stopEvents env)).Calm := loaded_calm h hnone env reported
  have hasked : ((initLoaded dev reported c.events (c.media.stopEvents env)).updateStorageStatus dev env
      (lookup c.registered (c.events.onSetCamEventsConfig dev reported config))).2.Calm := hloaded.updateStorageStatus
  have hquiet := quiet_onSetCamEventsConfig (P := fun _ _ _ _ => True) dev env reported config hs.delivery
  exact ⟨hasked.balanced.congr rfl rfl rfl,
    fun hc => absurd (hnone.symm.trans (hquiet.direct hc)) Bool.false_ne_true⟩

theorem Recorded.step (h : c.Recorded) (ha : c.undisturbed a = true) (hs : c.step dev a = some c') : c'.Recorded := by
  have hsound := h.sound.step hs
  obtain ⟨hcrash, hmedia⟩ := mediaStep_of_step hs
  have hcalm : c.media.Calm := ⟨h.balanced, h.direct hcrash⟩
  suffices hm : c'.media.Balanced ∧ (c'.media.delivery.crashed = false → c'.media.Direct) from ⟨hsound, hm.1, hm.2⟩
  have hof {m : Media} (hm : m.Calm) : m.Balanced ∧ (m.delivery.crashed = false → m.Direct) :=
    ⟨hm.balanced, fun _ => hm.direct⟩
  generalize c'.media = m at hmedia
  cases hmedia with
  | setRegistered registered => exact hof hcalm
  | streamStart env streamId reason => exact hcalm.onStreamStart_direct h.sound.delivery streamId reason
  | streamStop env streamId reason => exact hof (hcalm.onStreamStop dev env streamId reason)
  | setStreamByEvent streamId preEvent postEvent => exact hof (hcalm.onSetStreamByEvent streamId preEvent postEvent)
  | memorycardRecording env streamId enabled => exact hof (hcalm.onCamMemorycardRecording streamId enabled)
  | memorycardSynchronize env requestId start stop =>
    exact hof (hcalm.congr rfl rfl rfl rfl (Delivery.core_start_of_ne _ _ _ _ _ _ _ _ _ (by decide)))
  | getCamEvents env reported =>
    have hnone : c.media.continuosDirectRecord = false := by simpa [undisturbed] using ha
    exact hof (loaded_calm hcalm hnone env reported)
  | setCamEvents env reported config =>
    have hnone : c.media.continuosDirectRecord = false := by simpa [undisturbed] using ha
    exact hof (setCamEvents_calm h.sound hcalm hnone env reported config)
  | notifyEvent env event =>
    exact hof (hcalm.notifyEvent event fun hc => by simpa [undisturbed, hc] using ha)
  | transportTimer env t cb pending =>
    obtain ⟨fired, hfired, rfl⟩ : ∃ fired, c.events.periodic.transport.sulCb t = some fired ∧ fired.1 = cb := by
      simpa [Option.any_eq_true] using pending
    cases hcb : fired.1 with
    | triggerPeriodicEvent conf =>
      refine hof (hcalm.notifyEvent (periodicEvent env conf) fun hc => ?_)
      simp only [undisturbed, hc, hfired, hcb, Bool.not_true, Bool.false_or, Option.all_some, periodicName,
        decide_eq_true_eq, ne_eq, Option.some.injEq] at ha
      exact ha
    | startProviders => exact hof hcalm.updateStorageStatus
  | httpTimer t cb http =>
    refine hof ⟨hcalm.balanced.congr rfl rfl rfl, fun hc => ?_⟩
    exact (Delivery.isOngoing_runHttpCb http cb c.media.delivery _).trans (hcalm.direct hc)
  | rxTask env task rxTasks next =>
    have hnext : ({ c.media with rxTasks } : Media).Calm := hcalm.congr rfl rfl rfl rfl rfl
    exact hof (hnext.runRxTask task)
  | closed env =>
    have hnone : c.media.continuosDirectRecord = false := by simpa [undisturbed] using ha
    obtain ⟨recorder, rxTasks, heq⟩ := c.media.stopAllStreams_eq dev
    have hclosed : (c.onClosed dev env).media = { c.media with recorder, rxTasks }.stopEvents env :=
      congrArg (Media.stopEvents env) heq
    rw [hclosed]
    exact hof (hcalm.of_not_direct hnone rfl rfl rfl rfl)

/-- The record events that the cloud gets are balanced: on and off take turns, on is the first, and while nothing
is streamed by events the depth is zero and the last one, if there is one, is off. -/
theorem record_events_balanced {as : List Action} {v : Manager}
    (hm : Meets (step dev) (fun c a => c.undisturbed a = true) (start dev) as) (he : exec (step dev) (start dev) as = some v) :
    (∀ i e, v.media.recordEvents.reverse[i]? = some e → (e.2 = true ↔ i % 2 = 0)) ∧
      (v.media.streamByEvent = false →
        v.media.recordEventDepth = 0 ∧ ∀ e ∈ v.media.recordEvents.head?, e.2 = false) := by
  have h : v.Recorded := invariant (fun _ _ _ hu ha hs => Recorded.step hu ha hs) (Recorded.start dev) hm he
  refine ⟨h.balanced.alternates, fun hstream => ?_⟩
  have hdepth := h.balanced.notStreamed hstream
  exact ⟨hdepth, h.balanced.alternates.last_off (h.balanced.depth_iff.mp hdepth)⟩

/-- Without a memory card, events are streamed and a record is started; with the card, a recording goes to the
storage. The stop of recording by events ends both. -/
theorem record_events_balanced_front : ∃ v,
    exec (step twoStreamsByEvent) (start twoStreamsByEvent)
        [.getCamEvents .working (some {}), .streamStart { Env.working with memorycardInfo := none } "front" .recordByEvent,
          .streamStart .working "front" .record, .streamStart .working "front" .recordDirect,
          .streamStop .working "front" .recordByEvent] = some v ∧
      v.media.recordEvents = [("front", false), ("front", true)] ∧
      (v.media.streamByEvent = false → v.media.recordEventDepth = 0 ∧ ∀ e ∈ v.media.recordEvents.head?, e.2 = false) := by
  obtain ⟨v, hv⟩ : ∃ v, exec (step twoStreamsByEvent) (start twoStreamsByEvent)
      [.getCamEvents .working (some {}), .streamStart { Env.working with memorycardInfo := none } "front" .recordByEvent,
        .streamStart .working "front" .record, .streamStart .working "front" .recordDirect,
        .streamStop .working "front" .recordByEvent] = some v := ⟨_, rfl⟩
  have hend : ∀ w ∈ exec (step twoStreamsByEvent) (start twoStreamsByEvent)
      [.getCamEvents .working (some {}), .streamStart { Env.working with memorycardInfo := none } "front" .recordByEvent,
        .streamStart .working "front" .record, .streamStart .working "front" .recordDirect,
        .streamStop .working "front" .recordByEvent],
      w.media.recordEvents = [("front", false), ("front", true)] := by decide +kernel
  exact ⟨v, hv, hend v hv, (record_events_balanced (by decide +kernel) hv).2⟩

end Manager
end CloudAgent.Control
