import CloudAgent.Control.Media.Ops

/-! The commands and callbacks that start event states, and one step of the control side as operations on
them. What a start must find is a parameter: the event that is notified, the storage-direct recording and
the synchronization of a period are all that starts. -/
namespace CloudAgent.Control
open Proto Net Transition

namespace Media
variable {P : Delivery → String → StreamDeliveryMode → EventObject → Prop} {dev : Device} {env : Env}
  {lookup : EventObject → Option EventConfig} {m : Media} {s streamId : String} {reason : StreamReason} {p : Prop}

/-! ### Notifying an event -/

/-- The event that is notified starts its state. A stateful event starts once, and not again for the
same time. -/
def startsEvent (lookup : EventObject → Option EventConfig) (event : EventObject) (m : Media) : Bool :=
  (acceptedConfig lookup event).any fun conf =>
    delivers conf event && event.time ≠ Utils.Time.null &&
      (!conf.caps.statefull ||
        event.active && !(m.delivery.state event.name).active &&
          (m.delivery.state event.name).startTime ≠ event.time)

/-- If the event that is notified starts its state, it starts as `P` says. -/
def NotifiesWell (P : Delivery → String → StreamDeliveryMode → EventObject → Prop)
    (lookup : EventObject → Option EventConfig) (event : EventObject) (m : Media) : Prop :=
  m.startsEvent lookup event = true → P m.delivery event.name m.currentDeliveryMode event

theorem quiet_stateless (dev : Device) (env : Env) (event : EventObject) (mode : StreamDeliveryMode) (m : Media) :
    m.Quiet P (event.time ≠ Utils.Time.null → P m.delivery event.name mode event)
      (m.handleStreamStatelessEvent dev env event mode) := by
  unfold handleStreamStatelessEvent
  split_ifs with htime
  · exact (Quiet.refl m).congr (by simp [htime])
  · have hstart : Leads Delivery.Op.step (Delivery.Op.Starts P) m.delivery (P m.delivery event.name mode event)
        (m.delivery.start dev env.now event.name mode event m.preRecordTime m.postRecordTime m.recordStream
          event.uploadToken) :=
      Leads.one (a := Delivery.Op.start dev env.now event.name mode event m.preRecordTime m.postRecordTime
        m.recordStream event.uploadToken) rfl
    exact ⟨hstart.congr (by simp [htime]), id⟩

theorem quiet_stateful (dev : Device) (env : Env) (event : EventObject) (mode : StreamDeliveryMode)
    (hm : m.delivery.Sound) :
    m.Quiet P
      (event.time ≠ Utils.Time.null → event.active = true → (m.delivery.state event.name).active = false →
        (m.delivery.state event.name).startTime ≠ event.time → P m.delivery event.name mode event)
      (m.handleStreamStatefulEvent dev env event mode) := by
  have htouch : m.Quiet P True { m with delivery := m.delivery.touch event.name } :=
    ⟨Leads.one (a := Delivery.Op.touch event.name) rfl, id⟩
  unfold handleStreamStatefulEvent
  simp only [Delivery.state_touch]
  by_cases hsame : event.active = (m.delivery.state event.name).active
  · rw [if_pos hsame]
    refine htouch.congr (iff_of_true trivial fun _ ha hst _ => ?_)
    rw [hsame, hst] at ha
    cases ha
  rw [if_neg hsame]
  split_ifs with hagain htime hactive
  · exact htouch.congr (iff_of_true trivial fun _ _ _ hne => absurd (Bool.and_elim_right hagain) (by simpa using hne))
  · exact htouch.congr (by simp [htime])
  · have hinactive : (m.delivery.state event.name).active = false := by simpa [hactive] using hsame
    have hnew : (m.delivery.state event.name).startTime ≠ event.time := by simpa [hinactive] using hagain
    have hstart : Leads Delivery.Op.step (Delivery.Op.Starts P) m.delivery (P m.delivery event.name mode event)
        ((m.delivery.touch event.name).start dev env.now event.name mode event m.preRecordTime m.postRecordTime
          m.recordStream "") := by
      rw [Delivery.start_touch]
      exact Leads.one (a := Delivery.Op.start dev env.now event.name mode event m.preRecordTime m.postRecordTime
        m.recordStream "") rfl
    exact ⟨hstart.congr (by simp [htime, hactive, hinactive, hnew]), id⟩
  · have hstateful : (m.delivery.state event.name).stateful = true :=
      (hm.states event.name).stateful_of_active (by simpa [hactive] using hsame)
    have hstop : Leads Delivery.Op.step (Delivery.Op.Starts P) m.delivery True
        ((m.delivery.touch event.name).stop env.now event.name event.time) := by
      rw [Delivery.stop_touch]
      exact Delivery.leads_stop hstateful
    exact ⟨hstop.congr (by simp [hactive]), id⟩

theorem quiet_notifyEvent (dev : Device) (env : Env) (lookup : EventObject → Option EventConfig) (event : EventObject)
    (hm : m.delivery.Sound) :
    m.Quiet P (m.NotifiesWell P lookup event) (m.notifyEvent dev env lookup event) := by
  unfold notifyEvent NotifiesWell startsEvent
  cases acceptedConfig lookup event with
  | none => exact (Quiet.refl m).congr (by simp)
  | some conf =>
    obtain ⟨recorder, hr⟩ := memorycardEvent_eq env event m
    dsimp only
    rw [hr]
    have hcard : m.Quiet P True { m with recorder } := .of_eq rfl rfl
    split_ifs with hdelivers hstateful
    · refine (hcard.after_free (quiet_stateful dev env event m.currentDeliveryMode hm)).congr ?_
      simp [hdelivers, hstateful]
    · refine (hcard.after_free (quiet_stateless dev env event m.currentDeliveryMode _)).congr ?_
      simp [hdelivers, hstateful]
    · exact hcard.congr (by simp [hdelivers])

/-- If asking for the status of the memory card notifies an event that starts its state, it starts as `P`
says. -/
def AsksWell (P : Delivery → String → StreamDeliveryMode → EventObject → Prop) (env : Env)
    (lookup : EventObject → Option EventConfig) (m : Media) : Prop :=
  ∀ info ∈ env.memorycardInfo, m.NotifiesWell P lookup (memorycardEvent env info)

theorem quiet_updateStorageStatus (dev : Device) (env : Env) (lookup : EventObject → Option EventConfig)
    (hm : m.delivery.Sound) : m.Quiet P (m.AsksWell P env lookup) (m.updateStorageStatus dev env lookup).2 := by
  unfold AsksWell
  cases hinfo : env.memorycardInfo with
  | none =>
    simp only [updateStorageStatus, hinfo]
    exact (Quiet.refl m).congr (by simp)
  | some info =>
    rw [updateStorageStatus_of_some dev lookup m hinfo]
    have hcard : m.Quiet P True { m with recorder := m.recorder.heard info m.recordStream } := .of_eq rfl rfl
    refine (hcard.after_free (quiet_notifyEvent dev env lookup (memorycardEvent env info) hm)).congr ?_
    simp only [Option.mem_some_iff, forall_eq']
    exact Iff.rfl

/-! ### Commands that start streams -/

theorem quiet_startLive (env : Env) (s : String) (m : Media) : m.Quiet P True (m.startLive env s).2 := by
  rw [startLive_eq]
  exact .of_eq rfl rfl

theorem quiet_startRecord (env : Env) (s : String) (m : Media) : m.Quiet P True (m.startRecord env s).2 := by
  rw [startRecord_eq]
  by_cases hnotify : (m.publisher.sourceStarts env s && m.streamByEvent) = true
  · rw [if_pos hnotify]
    exact (quiet_notifyRecordEvent s true m).then_free (.of_eq rfl rfl)
  · rw [if_neg hnotify]
    exact .of_eq rfl rfl

theorem quiet_switchDelivery (env : Env) (m : Media) : m.Quiet P True (m.switchDelivery env) :=
  ⟨Delivery.leads_switchAll env.now m.currentDeliveryMode m.recordStream m.delivery, id⟩

theorem quiet_startRecordByEvent (dev : Device) (env : Env) (lookup : EventObject → Option EventConfig) (s : String)
    (hm : m.delivery.Sound) : m.Quiet P (m.AsksWell P env lookup) (m.startRecordByEvent dev env lookup s).2 := by
  have hask := quiet_updateStorageStatus (P := P) dev env lookup hm
  unfold startRecordByEvent
  generalize m.updateStorageStatus dev env lookup = asked at hask ⊢
  obtain ⟨storageOk, m₁⟩ := asked
  cases storageOk
  · simp only [Bool.false_eq_true, if_false]
    refine hask.then_free (Quiet.then_free ?_ (quiet_switchDelivery env _))
    exact .of_eq rfl rfl
  · simp only [if_true]
    generalize (if dev.recordNeedsSource s = true then m₁.publisher.startSource env s else (true, m₁.publisher)) = source
    obtain ⟨started, publisher⟩ := source
    cases started
    · exact hask.then_free (.of_eq rfl rfl)
    · simp only [if_true]
      refine hask.then_free (Quiet.then_free ?_ (quiet_switchDelivery env _))
      exact .of_eq rfl rfl

/-- A storage-direct recording asks for the memory card, and starts its event if the card works. -/
def StartsDirectWell (P : Delivery → String → StreamDeliveryMode → EventObject → Prop) (dev : Device) (env : Env)
    (lookup : EventObject → Option EventConfig) (m : Media) : Prop :=
  m.AsksWell P env lookup ∧
    ((m.updateStorageStatus dev env lookup).1 = true →
      P (m.updateStorageStatus dev env lookup).2.delivery "direct-upload-recording" .upload
        (directUploadRecording env))

theorem leads_startRecordDirect (dev : Device) (env : Env) (lookup : EventObject → Option EventConfig) (s : String)
    (hm : m.delivery.Sound) :
    Leads Delivery.Op.step (Delivery.Op.Starts P) m.delivery (m.StartsDirectWell P dev env lookup)
      (m.startRecordDirect dev env lookup s).2.delivery := by
  have hask := quiet_updateStorageStatus (P := P) dev env lookup hm
  unfold startRecordDirect StartsDirectWell
  generalize m.updateStorageStatus dev env lookup = asked at hask ⊢
  obtain ⟨storageOk, m₁⟩ := asked
  cases storageOk
  · exact (hask.then_free (quiet_startRecord env s m₁)).leads.congr (by simp)
  · have hstart : Leads Delivery.Op.step (Delivery.Op.Starts P) m₁.delivery
        (P m₁.delivery "direct-upload-recording" .upload (directUploadRecording env))
        (m₁.delivery.start dev env.now "direct-upload-recording" .upload (directUploadRecording env) 0 0 (some s) "") :=
      Leads.one (a := Delivery.Op.start dev env.now "direct-upload-recording" .upload (directUploadRecording env) 0 0
        (some s) "") rfl
    exact (hask.leads.trans hstart).congr (by simp)

/-- Once a storage-direct recording was started, it has a stateful event: its state was built, or the
start crashed. -/
theorem ready_startRecordDirect (dev : Device) (env : Env) (lookup : EventObject → Option EventConfig) (s : String)
    (hm : m.delivery.Sound) (hready : m.Ready)
    (hcrash : (m.startRecordDirect dev env lookup s).2.delivery.crashed = false) :
    (m.startRecordDirect dev env lookup s).2.Ready := by
  have hask := quiet_updateStorageStatus (P := fun _ _ _ _ => True) dev env lookup hm
  unfold startRecordDirect at hcrash ⊢
  generalize m.updateStorageStatus dev env lookup = asked at hask hcrash ⊢
  obtain ⟨storageOk, m₁⟩ := asked
  cases storageOk
  · exact (quiet_startRecord (P := fun _ _ _ _ => True) env s m₁).ready (hask.ready hready)
  · intro _
    simp only [if_true] at hcrash
    have hsound : m₁.delivery.Sound := hask.sound hm
    have hattached := Delivery.attached_of_start hcrash
    have hstateful := ((hsound.states _).direct rfl hattached).1
    have hstep : (Delivery.Op.start dev env.now "direct-upload-recording" .upload (directUploadRecording env) 0 0 (some s)
      "").step m₁.delivery = some _ := rfl
    exact Delivery.Op.step_stateful hstep hstateful

/-- If `on_stream_start` starts event states, they start as `P` says. -/
def StartsWell (P : Delivery → String → StreamDeliveryMode → EventObject → Prop) (dev : Device) (env : Env)
    (lookup : EventObject → Option EventConfig) (streamId : String) (reason : StreamReason) (m : Media) : Prop :=
  (dev.lookupStream streamId).isSome = true →
    match reason with
    | .recordByEvent => dev.eventStreams.isEmpty = false → m.AsksWell P env lookup
    | .recordDirect => m.StartsDirectWell P dev env lookup
    | .live | .record | .serverByEvent | .invalid => True

theorem quiet_onStreamStart (dev : Device) (env : Env) (lookup : EventObject → Option EventConfig) (streamId : String)
    (hm : m.delivery.Sound) (hr : reason ≠ .recordDirect) :
    m.Quiet P (m.StartsWell P dev env lookup streamId reason) (m.onStreamStart dev env lookup streamId reason).2 := by
  unfold onStreamStart StartsWell
  cases dev.lookupStream streamId with
  | none => exact (Quiet.refl m).congr (by simp)
  | some stream =>
    cases reason with
    | live => exact (quiet_startLive env stream.cloudName m).congr (by simp)
    | record => exact (quiet_startRecord env stream.cloudName m).congr (by simp)
    | serverByEvent =>
      dsimp only
      split_ifs
      · exact (Quiet.refl m).congr (by simp)
      · exact (quiet_startRecord env stream.cloudName m).congr (by simp)
    | recordByEvent =>
      dsimp only
      split_ifs with hnone
      · exact (Quiet.refl m).congr (by simp [hnone])
      · exact (quiet_startRecordByEvent dev env lookup stream.cloudName hm).congr (by simp [hnone])
    | recordDirect => exact absurd rfl hr
    | invalid => exact (Quiet.refl m).congr (by simp)

theorem leads_onStreamStart (dev : Device) (env : Env) (lookup : EventObject → Option EventConfig) (streamId : String)
    (reason : StreamReason) (hm : m.delivery.Sound) :
    Leads Delivery.Op.step (Delivery.Op.Starts P) m.delivery (m.StartsWell P dev env lookup streamId reason)
      (m.onStreamStart dev env lookup streamId reason).2.delivery := by
  by_cases hr : reason = .recordDirect
  · subst hr
    unfold onStreamStart StartsWell
    cases dev.lookupStream streamId with
    | none => exact (Leads.refl m.delivery).congr (by simp)
    | some stream => exact (leads_startRecordDirect dev env lookup stream.cloudName hm).congr (by simp)
  · exact (quiet_onStreamStart dev env lookup streamId hm hr).leads

theorem ready_onStreamStart (dev : Device) (env : Env) (lookup : EventObject → Option EventConfig) (streamId : String)
    (reason : StreamReason) (hm : m.delivery.Sound) (hready : m.Ready)
    (hcrash : (m.onStreamStart dev env lookup streamId reason).2.delivery.crashed = false) :
    (m.onStreamStart dev env lookup streamId reason).2.Ready := by
  by_cases hr : reason = .recordDirect
  · subst hr
    unfold onStreamStart at hcrash ⊢
    cases hs : dev.lookupStream streamId with
    | none => exact hready
    | some stream =>
      rw [hs] at hcrash
      exact ready_startRecordDirect dev env lookup stream.cloudName hm hready hcrash
  · exact (quiet_onStreamStart (P := fun _ _ _ _ => True) dev env lookup streamId hm hr).ready hready

/-! ### The other commands -/

theorem quiet_runRxTask (dev : Device) (env : Env) (lookup : EventObject → Option EventConfig) (task : RxTask)
    (hm : m.delivery.Sound) (hready : m.Ready) : m.Quiet P True (m.runRxTask dev env lookup task) := by
  cases task with
  | startRecord streamId =>
    exact (quiet_onStreamStart dev env lookup streamId hm (by simp)).congr (by simp [StartsWell])
  | stopRecord streamId => exact quiet_onStreamStop dev env streamId .record hready
  | stopStream streamId =>
    exact Quiet.foldl (fun m reason hm => quiet_onStreamStop dev env streamId reason hm) hready

theorem stopAllStreams_eq (dev : Device) (m : Media) : ∃ recorder rxTasks,
    m.stopAllStreams dev = { m with recorder, rxTasks } := by
  unfold stopAllStreams
  split
  · exact ⟨_, _, rfl⟩
  · exact ⟨_, _, rfl⟩

theorem quiet_stopAllStreams (dev : Device) (m : Media) : m.Quiet P True (m.stopAllStreams dev) := by
  obtain ⟨recorder, rxTasks, h⟩ := m.stopAllStreams_eq dev
  rw [h]
  exact .of_eq rfl rfl

theorem quiet_onSetStreamByEvent (dev : Device) (streamId : String) (preEvent postEvent : ℤ) (m : Media) :
    m.Quiet P True (m.onSetStreamByEvent dev streamId preEvent postEvent) := by
  unfold onSetStreamByEvent
  cases dev.lookupStream streamId with
  | none => exact .of_eq rfl rfl
  | some stream => exact .of_eq rfl rfl

theorem quiet_onCamMemorycardRecording (dev : Device) (env : Env) (streamId : String) (enabled : Bool) (m : Media) :
    m.Quiet P True (m.onCamMemorycardRecording dev env streamId enabled) := by
  unfold onCamMemorycardRecording
  cases dev.lookupStream streamId with
  | none => exact .refl m
  | some stream => exact .of_eq rfl rfl

theorem quiet_onCamMemorycardSynchronize (dev : Device) (env : Env) (requestId : String) (start stop : Time)
    (m : Media) :
    m.Quiet P (P m.delivery "timeline-sync" .upload (timelineSyncRequest requestId start stop))
      (m.onCamMemorycardSynchronize dev env requestId start stop) :=
  ⟨Leads.one (a := Delivery.Op.start dev env.now "timeline-sync" .upload (timelineSyncRequest requestId start stop) 0 0
    m.recordStream requestId) rfl, id⟩

end Media

/-! ### One step of the control side -/

namespace Manager
variable {P : Delivery → String → StreamDeliveryMode → EventObject → Prop} {dev : Device} {c c' : Manager} {a : Action}

/-- If a callback of the transport starts event states, they start as `P` says. -/
def CallsWell (P : Delivery → String → StreamDeliveryMode → EventObject → Prop) (env : Env)
    (lookup : EventObject → Option EventConfig) (m : Media) : TransportCb → Prop
  | .triggerPeriodicEvent conf => m.NotifiesWell P lookup (periodicEvent env conf)
  | .startProviders => m.AsksWell P env lookup

/-- If an action starts event states, they start as `P` says. -/
def StartsWell (P : Delivery → String → StreamDeliveryMode → EventObject → Prop) (dev : Device) (c : Manager) :
    Action → Prop
  | .streamStart env streamId reason =>
    c.media.StartsWell P dev env (lookup c.registered c.events) streamId reason
  | .memorycardSynchronize _ requestId start stop =>
    P c.media.delivery "timeline-sync" .upload (Media.timelineSyncRequest requestId start stop)
  | .setCamEvents env reported config =>
    (initLoaded dev reported c.events (c.media.stopEvents env)).AsksWell P env
      (lookup c.registered (c.events.onSetCamEventsConfig dev reported config))
  | .notifyEvent _ event => c.media.NotifiesWell P (lookup c.registered c.events) event
  | .fireTransportTimer env t =>
    ∀ fired ∈ c.events.periodic.transport.sulCb t,
      CallsWell P env (lookup c.registered c.events) c.media fired.1
  | .setRegistered _ | .streamStop .. | .setStreamByEvent .. | .memorycardRecording .. | .getCamEvents ..
  | .fireHttpTimer _ | .runRxTask _ | .closed _ => True

/-- The event states are sound, and while nothing has crashed a storage-direct recording has an event to
stop. -/
structure Sound (c : Manager) : Prop where
  delivery : c.media.delivery.Sound
  ready : c.media.delivery.crashed = false → c.media.Ready

theorem Sound.start (dev : Device) : (start dev).Sound where
  delivery := Delivery.Sound.empty
  ready _ := nofun

theorem quiet_initLoaded (dev : Device) (reported : Option EventsConfig) (events : EventsControl) (m : Media) :
    m.Quiet P True (initLoaded dev reported events m) := by
  unfold initLoaded
  split_ifs
  · exact Media.quiet_initEventsStates _ m
  · exact .refl m

theorem quiet_runTransportCb (dev : Device) (env : Env) (lookup : EventObject → Option EventConfig) (cb : TransportCb)
    {m : Media} (hm : m.delivery.Sound) :
    m.Quiet P (CallsWell P env lookup m cb) (runTransportCb dev env lookup m cb) := by
  cases cb with
  | triggerPeriodicEvent conf => exact Media.quiet_notifyEvent dev env lookup (periodicEvent env conf) hm
  | startProviders => exact Media.quiet_updateStorageStatus dev env lookup hm

theorem quiet_onSetCamEventsConfig (dev : Device) (env : Env) (reported : Option EventsConfig) (config : EventsConfig)
    (hm : c.media.delivery.Sound) :
    c.media.Quiet P (c.StartsWell P dev (.setCamEvents env reported config))
      (c.onSetCamEventsConfig dev env reported config).media := by
  have hloaded : c.media.Quiet P True (initLoaded dev reported c.events (c.media.stopEvents env)) :=
    (Media.quiet_stopEvents env c.media).then_free (quiet_initLoaded dev reported c.events _)
  have hask := Media.quiet_updateStorageStatus (P := P) dev env
    (lookup c.registered (c.events.onSetCamEventsConfig dev reported config)) (hloaded.sound hm)
  exact (hloaded.after_free hask).then_free (Media.quiet_initEventsStates _ _)

/-- A step that is no start of a stream. -/
theorem quiet_step (h : c.Sound) (hs : c.step dev a = some c')
    (ha : ∀ env streamId reason, a ≠ .streamStart env streamId reason) :
    c.media.Quiet P (c.StartsWell P dev a) c'.media := by
  obtain ⟨hcrash, hmedia⟩ := mediaStep_of_step hs
  have hready := h.ready hcrash
  generalize c'.media = m at hmedia
  cases hmedia with
  | setRegistered registered => exact .refl _
  | streamStart env streamId reason => exact absurd rfl (ha env streamId reason)
  | streamStop env streamId reason => exact Media.quiet_onStreamStop dev env streamId reason hready
  | setStreamByEvent streamId preEvent postEvent => exact Media.quiet_onSetStreamByEvent dev streamId preEvent postEvent _
  | memorycardRecording env streamId enabled => exact Media.quiet_onCamMemorycardRecording dev env streamId enabled _
  | memorycardSynchronize env requestId start stop =>
    exact Media.quiet_onCamMemorycardSynchronize dev env requestId start stop _
  | getCamEvents env reported =>
    exact (Media.quiet_stopEvents env c.media).then_free (quiet_initLoaded dev reported c.events _)
  | setCamEvents env reported config => exact quiet_onSetCamEventsConfig dev env reported config h.delivery
  | notifyEvent env event => exact Media.quiet_notifyEvent dev env _ event h.delivery
  | transportTimer env t cb pending =>
    refine (quiet_runTransportCb dev env (lookup c.registered c.events) cb h.delivery).congr ?_
    obtain ⟨fired, hfired, rfl⟩ : ∃ fired, c.events.periodic.transport.sulCb t = some fired ∧ fired.1 = cb := by
      simpa [Option.any_eq_true] using pending
    simp [StartsWell, hfired]
  | httpTimer t cb http =>
    exact ⟨Leads.one (a := Delivery.Op.fireHttpTimer http cb) rfl, id⟩
  | rxTask env task rxTasks next =>
    have hnext : c.media.Quiet P True { c.media with rxTasks } := .of_eq rfl rfl
    exact hnext.then_free (Media.quiet_runRxTask dev env _ task h.delivery hready)
  | closed env =>
    exact (Media.quiet_stopAllStreams dev c.media).then_free (Media.quiet_stopEvents env _)

/-- What one step does to the event states: they start as `P` says exactly where the action does. -/
theorem leads_step (h : c.Sound) (hs : c.step dev a = some c') :
    Leads Delivery.Op.step (Delivery.Op.Starts P) c.media.delivery (c.StartsWell P dev a) c'.media.delivery := by
  by_cases ha : ∃ env streamId reason, a = .streamStart env streamId reason
  · obtain ⟨env, streamId, reason, rfl⟩ := ha
    obtain ⟨-, hmedia⟩ := mediaStep_of_step hs
    generalize c'.media = m at hmedia
    cases hmedia
    exact Media.leads_onStreamStart dev env _ streamId reason h.delivery
  · simp only [not_exists] at ha
    exact (quiet_step h hs ha).leads

theorem Sound.step (h : c.Sound) (hs : c.step dev a = some c') : c'.Sound where
  delivery := (leads_step (P := fun _ _ _ _ => True) h hs).preserves (fun _ _ _ hu hs => hu.step hs) h.delivery
  ready hcrash' := by
    obtain ⟨hcrash, hmedia⟩ := mediaStep_of_step hs
    by_cases ha : ∃ env streamId reason, a = .streamStart env streamId reason
    · obtain ⟨env, streamId, reason, rfl⟩ := ha
      generalize c'.media = m at hmedia hcrash'
      cases hmedia
      exact Media.ready_onStreamStart dev env _ streamId reason h.delivery (h.ready hcrash) hcrash'
    · simp only [not_exists] at ha
      exact (quiet_step (P := fun _ _ _ _ => True) h hs ha).ready (h.ready hcrash)

end Manager
end CloudAgent.Control
