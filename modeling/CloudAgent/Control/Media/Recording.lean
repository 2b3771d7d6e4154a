import CloudAgent.Control.Media.Ops

/-! Local recording in runs of the control side. A reason to record is kept for each stream, but taken back
through the one stream of the records and the one flag of storage-direct recording, which other commands
change in between. -/
namespace CloudAgent.Control
open Proto Transition

namespace Media
variable {dev : Device} {env : Env} {lookup : EventObject → Option EventConfig} {m : Media} {s : String}

/-! ### What the operations do to the recorder -/

/-- Events are recorded to the memory card and not streamed, and the recorder agrees with its reasons. -/
structure Steady (m : Media) : Prop where
  notStreamed : m.streamByEvent = false
  depth : m.recordEventDepth = 0
  sound : m.recorder.Sound

/-- Asking for the status of the memory card. -/
theorem updateStorageStatus_eq (dev : Device) (lookup : EventObject → Option EventConfig) (m : Media)
    {info : MemorycardInfo} (hinfo : env.memorycardInfo = some info) : ∃ d r,
    m.updateStorageStatus dev env lookup =
        (decide (info.status = .normal), { m with delivery := d, recorder := r }) ∧
      (r = m.recorder.heard info m.recordStream ∨
        r = (m.recorder.heard info m.recordStream).memorycardEvent env m.recordStream info) := by
  obtain ⟨d, r, heq, hr⟩ := notifyEvent_eq dev env lookup (memorycardEvent env info)
    { m with recorder := m.recorder.heard info m.recordStream }
  exact ⟨d, r, by rw [updateStorageStatus_of_some dev lookup m hinfo, heq], hr⟩

/-- The stream is taken for started once the card was asked; its report counts for the stream of the
records. -/
def takenForStarted (env : Env) (s : String) (m : Media) : Bool :=
  if m.recordStream = some s then env.memorycardInfo.any fun info => info.recordingStatus.toBool
  else (m.recorder.recordingStatus s).started

/-- With a memory card in order, asking for it changes no reason. -/
theorem Steady.updateStorageStatus (h : m.Steady) (dev : Device) (lookup : EventObject → Option EventConfig)
    (henv : env.CardWorks) : ∃ d r,
    m.updateStorageStatus dev env lookup = (true, { m with delivery := d, recorder := r }) ∧
      r.Sound ∧ r.reasons = m.recorder.reasons ∧
      ∀ s, r.ready s = true ↔ s ∈ m.recorder.recording ∨ m.takenForStarted env s = false := by
  obtain ⟨info, hinfo, hnormal⟩ := henv.info
  obtain ⟨d, r, heq, hr⟩ := updateStorageStatus_eq dev lookup m hinfo
  have hsound : (m.recorder.heard info m.recordStream).Sound := h.sound.heard hnormal
  have hready : ∀ s, (m.recorder.heard info m.recordStream).ready s = true ↔
      s ∈ m.recorder.recording ∨ m.takenForStarted env s = false := by
    intro s
    rw [Recorder.ready_heard hnormal, takenForStarted, hinfo]
    rfl
  rw [hnormal] at heq
  refine ⟨d, r, heq, ?_⟩
  rw [Recorder.memorycardEvent_heard hnormal] at hr
  obtain rfl | rfl := hr
  · exact ⟨hsound, by simp, hready⟩
  · cases hrs : m.recordStream with
    | none =>
      rw [hrs] at hsound hready
      exact ⟨hsound, by simp, hready⟩
    | some t =>
      rw [hrs] at hsound hready
      refine ⟨hsound.startRecording, by simp, fun s => ?_⟩
      rw [Option.elim_some, Recorder.ready_startRecording hsound]
      exact hready s

/-- The recorder is steady still, and for the same reasons. -/
structure Keeps (m m' : Media) : Prop where
  steady : m'.Steady
  reasons : m'.recorder.reasons = m.recorder.reasons

theorem Keeps.trans {m' m'' : Media} (h : m.Keeps m') (h' : m'.Keeps m'') : m.Keeps m'' :=
  ⟨h'.steady, h'.reasons.trans h.reasons⟩

theorem Steady.notifyEvent (h : m.Steady) (henv : env.CardWorks) (event : EventObject) :
    m.Keeps (m.notifyEvent dev env lookup event) := by
  obtain ⟨d, r, heq, hr⟩ := notifyEvent_eq dev env lookup event m
  rw [heq]
  obtain rfl | rfl := hr
  · exact ⟨⟨h.notStreamed, h.depth, h.sound⟩, rfl⟩
  · exact ⟨⟨h.notStreamed, h.depth, h.sound.memorycardEvent henv⟩, Recorder.reasons_memorycardEvent _ _ _ _⟩

theorem Steady.keeps_updateStorageStatus (h : m.Steady) (dev : Device)
    (lookup : EventObject → Option EventConfig) (henv : env.CardWorks) :
    m.Keeps (m.updateStorageStatus dev env lookup).2 := by
  obtain ⟨d, r, heq, hsound, hreasons, -⟩ := h.updateStorageStatus dev lookup henv
  rw [heq]
  exact ⟨⟨h.notStreamed, h.depth, hsound⟩, hreasons⟩

theorem Steady.startLive (h : m.Steady) : m.Keeps (m.startLive env s).2 := by
  rw [startLive_eq]
  exact ⟨⟨h.notStreamed, h.depth, h.sound⟩, rfl⟩

theorem Steady.startRecord (h : m.Steady) : m.Keeps (m.startRecord env s).2 := by
  rw [startRecord_eq, h.notStreamed, Bool.and_false]
  exact ⟨⟨h.notStreamed, h.depth, h.sound⟩, rfl⟩

theorem Steady.stopIdleSource (h : m.Steady) : m.Keeps (m.stopIdleSource dev s) := by
  obtain heq | heq := m.stopIdleSource_eq dev s <;> rw [heq]
  · exact ⟨h, rfl⟩
  · exact ⟨⟨h.notStreamed, h.depth, h.sound⟩, rfl⟩

theorem Steady.stopLive (h : m.Steady) : m.Keeps (m.stopLive dev s) := by
  have hpub : { m with publisher := m.publisher.unpublish s }.Steady := ⟨h.notStreamed, h.depth, h.sound⟩
  exact ⟨hpub.stopIdleSource.steady, hpub.stopIdleSource.reasons⟩

/-- While nothing is streamed by events, the cloud is not notified of a stop. -/
theorem stopServerByEvent_eq_stopLive (h : m.streamByEvent = false) :
    m.stopServerByEvent dev s = m.stopLive dev s := by
  unfold stopServerByEvent
  rw [if_neg (by simp [h])]
  rfl

theorem Steady.stopServerByEvent (h : m.Steady) : m.Keeps (m.stopServerByEvent dev s) := by
  rw [stopServerByEvent_eq_stopLive h.notStreamed]
  exact h.stopLive

/-! ### Commands that give or take a reason -/

/-- A command changes the reasons to record the stream `s` by `f`, and the recorder agrees with its
reasons afterwards if and only if `p` holds. -/
structure Changes (m : Media) (s : String) (f : RecordingStatus → RecordingStatus) (p : Prop) (m' : Media) :
    Prop where
  notStreamed : m'.streamByEvent = false
  depth : m'.recordEventDepth = 0
  card : m'.recorder.CardKnown
  reasons : m'.recorder.reasons = Function.update m.recorder.reasons s (f (m.recorder.reasons s))
  agrees : m'.recorder.Agrees ↔ p

/-- A start of recording by events makes the stream record: it records already, or the source that it
may need starts and it is not taken for started. -/
def takesByEvent (dev : Device) (env : Env) (s : String) (m : Media) : Bool :=
  s ∈ m.recorder.recording ||
    ((!dev.recordNeedsSource s || m.publisher.sourceStarts env s) && !m.takenForStarted env s)

theorem Steady.startRecordByEvent (h : m.Steady) (henv : env.CardWorks) :
    m.Changes s (fun st => { st with byEvent := true }) (m.takesByEvent dev env s = true)
      (m.startRecordByEvent dev env lookup s).2 := by
  obtain ⟨d, r, heq, hsound, hreasons, hready⟩ := h.updateStorageStatus dev lookup henv
  have hset : (r.setStatus s fun st => { st with byEvent := true }).reasons =
      Function.update m.recorder.reasons s { m.recorder.reasons s with byEvent := true } := by
    rw [Recorder.reasons_setStatus, hreasons, ← hreasons]
    rfl
  have hsource : (if dev.recordNeedsSource s then m.publisher.startSource env s else (true, m.publisher)).1 =
      (!dev.recordNeedsSource s || m.publisher.sourceStarts env s) := by
    cases dev.recordNeedsSource s <;> simp [Publisher.startSource_fst]
  unfold Media.startRecordByEvent takesByEvent
  rw [heq, ← hsource]
  dsimp only
  rcases (if dev.recordNeedsSource s then m.publisher.startSource env s else (true, m.publisher)) with ⟨started, p⟩
  cases started
  · refine ⟨h.notStreamed, h.depth, hsound.card, hset, ?_⟩
    change (r.setStatus s _).Agrees ↔ _
    rw [hsound.setStatus_iff, h.sound.mem_iff hsound hreasons]
    simp [RecordingStatus.enabled]
  · refine ⟨h.notStreamed, h.depth, Recorder.CardKnown.startRecording hsound.card, ?_, ?_⟩
    · exact (Recorder.reasons_startRecording env s _).trans hset
    · change ((r.setStatus s _).startRecording env s).Agrees ↔ _
      rw [hsound.give_iff (henv.startRecord s) (by simp [RecordingStatus.enabled]) rfl, hready]
      simp

/-- A start of storage-direct recording makes the stream record. -/
def takesDirect (env : Env) (s : String) (m : Media) : Bool :=
  s ∈ m.recorder.recording || !m.takenForStarted env s

theorem Steady.startRecordDirect (h : m.Steady) (henv : env.CardWorks) :
    m.Changes s (fun st => { st with directUpload := true }) (m.takesDirect env s = true)
      (m.startRecordDirect dev env lookup s).2 := by
  obtain ⟨d, r, heq, hsound, hreasons, hready⟩ := h.updateStorageStatus dev lookup henv
  have hset : (r.setStatus s fun st => { st with directUpload := true }).reasons =
      Function.update m.recorder.reasons s { m.recorder.reasons s with directUpload := true } := by
    rw [Recorder.reasons_setStatus, hreasons, ← hreasons]
    rfl
  unfold Media.startRecordDirect takesDirect
  rw [heq]
  refine ⟨h.notStreamed, h.depth, Recorder.CardKnown.startRecording hsound.card, ?_, ?_⟩
  · exact (Recorder.reasons_startRecording env s _).trans hset
  · change ((r.setStatus s _).startRecording env s).Agrees ↔ _
    rw [hsound.give_iff (henv.startRecord s) (by simp [RecordingStatus.enabled]) rfl, hready]
    simp

/-! ### Commands that take a reason -/

/-- A stop leaves this recorder behind. -/
structure Stopped (m : Media) (recordByEvent : Bool) (r : Recorder) (m' : Media) : Prop where
  notStreamed : m'.streamByEvent = false
  depth : m'.recordEventDepth = 0
  recordStream : m'.recordStream = m.recordStream
  recordByEvent : m'.recordByEvent = recordByEvent
  recorder : m'.recorder = r

theorem Stopped.stopIdleSource {recordByEvent : Bool} {r : Recorder} {m' : Media}
    (h : m.Stopped recordByEvent r m') : m.Stopped recordByEvent r (m'.stopIdleSource dev s) := by
  obtain ⟨p, hp⟩ := m'.stopIdleSource_publisher dev s
  rw [hp]
  exact ⟨h.notStreamed, h.depth, h.recordStream, h.recordByEvent, h.recorder⟩

/-- While nothing is streamed by events, a stop of a record leaves the recorder alone or ends a
storage-direct recording. -/
theorem stopped_stopRecord (dev : Device) (env : Env) (s : String) (h : m.streamByEvent = false)
    (hdepth : m.recordEventDepth = 0) :
    m.Stopped m.recordByEvent
      (if m.continuosDirectRecord then m.recorder.drop s fun st => { st with directUpload := false }
      else m.recorder)
      (m.stopRecord dev env s) := by
  unfold stopRecord
  split_ifs with hd
  · exact Stopped.stopIdleSource ⟨h, hdepth, rfl, rfl, rfl⟩
  · rw [stopServerByEvent_eq_stopLive h]
    exact Stopped.stopIdleSource ⟨h, hdepth, rfl, rfl, rfl⟩

/-- While nothing is streamed by events, a stop of recording by events counts only for the stream of the
records. -/
theorem stopped_stopRecordByEvent (dev : Device) (env : Env) (s : String) (h : m.streamByEvent = false)
    (hdepth : m.recordEventDepth = 0) :
    ∃ recordByEvent, m.Stopped recordByEvent
      (if m.recordByEvent && m.recordStream = some s then m.recorder.drop s fun st => { st with byEvent := false }
      else m.recorder)
      (m.stopRecordByEvent dev env s) := by
  have hidle : m.Stopped m.recordByEvent m.recorder (m.stopIdleSource dev s) :=
    Stopped.stopIdleSource ⟨h, hdepth, rfl, rfl, rfl⟩
  unfold stopRecordByEvent
  by_cases hends : (m.recordByEvent && decide (m.recordStream = some s)) = true
  · obtain ⟨hr, hs⟩ : m.recordByEvent = true ∧ m.recordStream = some s := by simpa using hends
    refine ⟨false, ?_⟩
    rw [if_pos hends, if_neg (by simp [hr]), if_pos hs]
    simp only [h, hdepth, Bool.false_eq_true, if_false, ne_eq, not_true]
    exact Stopped.stopIdleSource ⟨rfl, rfl, rfl, rfl, rfl⟩
  · refine ⟨m.recordByEvent, ?_⟩
    rw [if_neg hends]
    by_cases hr : m.recordByEvent = true
    · rw [if_neg (by simp [hr]), if_neg (by simpa [hr] using hends)]
      exact hidle
    · rw [if_pos (by simp [hr, h])]
      exact hidle

theorem Keeps.changes {m' : Media} (h : m.Keeps m') (s : String) : m.Changes s id True m' where
  notStreamed := h.steady.notStreamed
  depth := h.steady.depth
  card := h.steady.sound.card
  reasons := h.reasons.trans (Function.update_eq_self s _).symm
  agrees := iff_true_intro h.steady.sound.agrees

/-- `on_cam_memorycard_recording` makes the stream record, or lets go of it. -/
def switchesPermanent (s : String) (enabled : Bool) (m : Media) : Bool :=
  let st := m.recorder.recordingStatus s
  if enabled then m.recorder.ready s else !st.permanent || st.byEvent || st.directUpload || st.started

/-- A stop of a record ends a storage-direct recording of the stream, if there is one. -/
def endsDirect (dev : Device) (s : String) (m : Media) : Bool :=
  let st := m.recorder.recordingStatus s
  !st.directUpload ||
    ((dev.lookupStream s).isSome && m.continuosDirectRecord && (st.permanent || st.byEvent || st.started))

/-- A stop of recording by events ends such a recording of the stream, if there is one. -/
def endsByEvent (dev : Device) (s : String) (m : Media) : Bool :=
  let st := m.recorder.recordingStatus s
  !st.byEvent ||
    ((dev.lookupStream s).isSome && m.recordByEvent && m.recordStream = some s &&
      (st.permanent || st.directUpload || st.started))

/-- Stopping the stream for every reason ends both, if they are there. -/
def endsBoth (dev : Device) (s : String) (m : Media) : Bool :=
  let st := m.recorder.recordingStatus s
  (!st.directUpload || ((dev.lookupStream s).isSome && m.continuosDirectRecord)) &&
    (!st.byEvent || ((dev.lookupStream s).isSome && m.recordByEvent && m.recordStream = some s)) &&
    (!(st.directUpload || st.byEvent) || st.permanent || st.started)

/-- The disconnect takes away that events are recorded. -/
def closesByEvent (s : String) (m : Media) : Bool :=
  let st := m.recorder.recordingStatus s
  !st.byEvent || st.permanent || st.directUpload || st.started

end Media

/-! ### Runs of the control side -/

/-- What an action says about the surroundings. -/
def Manager.Action.env : Manager.Action → Option Env
  | .setRegistered _ | .setStreamByEvent _ _ _ | .fireHttpTimer _ => none
  | .streamStart env _ _ | .streamStop env _ _ | .memorycardRecording env _ _ => some env
  | .memorycardSynchronize env _ _ _ | .getCamEvents env _ | .setCamEvents env _ _ => some env
  | .notifyEvent env _ | .fireTransportTimer env _ | .runRxTask env | .closed env => some env

/-- The control side. For each stream: whether the last command that concerned its recording by events,
and the last that concerned its storage-direct recording, was a start. -/
structure RecordingSession where
  manager : Manager
  byEvent : String → Bool
  direct : String → Bool

namespace RecordingSession

/-- The last command for recording by events. A disconnect concerns the stream of the records at once,
and the others when the receive thread stops them. -/
def noteByEvent (m : Media) (last : String → Bool) : Manager.Action → String → Bool
  | .streamStart _ streamId .recordByEvent => Function.update last streamId true
  | .streamStop _ streamId .recordByEvent => Function.update last streamId false
  | .closed _ => m.recordStream.elim last fun s => Function.update last s false
  | .runRxTask _ =>
    match m.rxTasks.head? with
    | some (.stopStream streamId) => Function.update last streamId false
    | _ => last
  | _ => last

/-- The last command for storage-direct recording; it is stopped like any other record. -/
def noteDirect (m : Media) (last : String → Bool) : Manager.Action → String → Bool
  | .streamStart _ streamId .recordDirect => Function.update last streamId true
  | .streamStop _ streamId .record => Function.update last streamId false
  | .runRxTask _ =>
    match m.rxTasks.head? with
    | some (.stopStream streamId) | some (.stopRecord streamId) => Function.update last streamId false
    | _ => last
  | _ => last

def step (dev : Device) (u : RecordingSession) (a : Manager.Action) : Option RecordingSession :=
  (u.manager.step dev a).map fun manager =>
    ⟨manager, noteByEvent u.manager.media u.byEvent a, noteDirect u.manager.media u.direct a⟩

def start (dev : Device) : RecordingSession := ⟨Manager.start dev, fun _ => false, fun _ => false⟩

/-- A stream has a reason only if the last command for it was a start, and records exactly if it has
a reason. -/
structure Follows (u : RecordingSession) : Prop where
  byEvent : ∀ s, (u.manager.media.recorder.recordingStatus s).byEvent = true → u.byEvent s = true
  direct : ∀ s, (u.manager.media.recorder.recordingStatus s).directUpload = true → u.direct s = true
  recording : u.manager.media.recorder.Agrees

/-- What the order of the commands must be like for the recordings to follow them. -/
def orderly (dev : Device) (m : Media) : Manager.Action → Bool
  | .streamStart env streamId .recordByEvent =>
    (dev.lookupStream streamId).isNone || dev.eventStreams.isEmpty || m.takesByEvent dev env streamId
  | .streamStart env streamId .recordDirect => (dev.lookupStream streamId).isNone || m.takesDirect env streamId
  | .streamStop _ streamId .recordByEvent => m.endsByEvent dev streamId
  | .streamStop _ streamId .record => m.endsDirect dev streamId
  | .memorycardRecording _ streamId enabled =>
    (dev.lookupStream streamId).isNone || m.switchesPermanent streamId enabled
  | .closed _ => m.recordStream.all fun s => m.closesByEvent s
  | .runRxTask _ =>
    match m.rxTasks.head? with
    | some (.stopRecord streamId) => m.endsDirect dev streamId
    | some (.stopStream streamId) => m.endsBoth dev streamId
    | _ => true
  | _ => true

variable {dev : Device} {u v : RecordingSession} {a : Manager.Action} {as : List Manager.Action}

/-- Where a step changes one stream only, the recordings follow if that stream does. -/
theorem Follows.iff_at (h : u.Follows) (s : String)
    (hreasons : ∀ t, t ≠ s → v.manager.media.recorder.reasons t = u.manager.media.recorder.reasons t)
    (hbyEvent : ∀ t, t ≠ s → v.byEvent t = u.byEvent t) (hdirect : ∀ t, t ≠ s → v.direct t = u.direct t) :
    v.Follows ↔
      ((v.manager.media.recorder.reasons s).byEvent = true → v.byEvent s = true) ∧
        ((v.manager.media.recorder.reasons s).directUpload = true → v.direct s = true) ∧
        v.manager.media.recorder.Agrees := by
  refine ⟨fun h' => ⟨h'.byEvent s, h'.direct s, h'.recording⟩, fun ⟨hb, hd, hr⟩ => ⟨fun t ht => ?_, fun t ht => ?_, hr⟩⟩
  · by_cases hts : t = s
    · subst hts
      exact hb ht
    · rw [hbyEvent t hts]
      exact h.byEvent t ((congrArg RecordingStatus.byEvent (hreasons t hts)).symm.trans ht)
  · by_cases hts : t = s
    · subst hts
      exact hd ht
    · rw [hdirect t hts]
      exact h.direct t ((congrArg RecordingStatus.directUpload (hreasons t hts)).symm.trans ht)

/-- What holds as long as the commands are orderly. -/
structure Inv (u : RecordingSession) : Prop where
  steady : u.manager.media.Steady
  follows : u.Follows

/-- After a step, the recordings follow if and only if `p` holds. -/
structure FollowsIf (p : Prop) (v : RecordingSession) : Prop where
  notStreamed : v.manager.media.streamByEvent = false
  depth : v.manager.media.recordEventDepth = 0
  card : v.manager.media.recorder.CardKnown
  follows : v.Follows ↔ p

theorem FollowsIf.inv {p : Prop} (h : v.FollowsIf p) (hp : p) : v.Inv where
  steady := ⟨h.notStreamed, h.depth, (h.follows.mpr hp).recording, h.card⟩
  follows := h.follows.mpr hp

theorem FollowsIf.congr {p q : Prop} (h : v.FollowsIf p) (hpq : p ↔ q) : v.FollowsIf q :=
  ⟨h.notStreamed, h.depth, h.card, h.follows.trans hpq⟩

/-- A step that changes one stream, on the media side and in the commands that are noted. -/
theorem Inv.changes {s : String} {f : RecordingStatus → RecordingStatus} {p : Prop} (h : u.Inv)
    (hch : u.manager.media.Changes s f p v.manager.media)
    (hbyEvent : ∀ t, t ≠ s → v.byEvent t = u.byEvent t) (hdirect : ∀ t, t ≠ s → v.direct t = u.direct t) :
    v.FollowsIf (((f (u.manager.media.recorder.reasons s)).byEvent = true → v.byEvent s = true) ∧
      ((f (u.manager.media.recorder.reasons s)).directUpload = true → v.direct s = true) ∧ p) := by
  refine ⟨hch.notStreamed, hch.depth, hch.card, ?_⟩
  have hother : ∀ t, t ≠ s → v.manager.media.recorder.reasons t = u.manager.media.recorder.reasons t := by
    intro t ht
    rw [hch.reasons, Function.update_of_ne ht]
  rw [h.follows.iff_at s hother hbyEvent hdirect, hch.reasons, Function.update_self, hch.agrees]

/-- A step that changes no reason, and after which no command is noted as a stop. -/
theorem Inv.keeps (h : u.Inv) (hm : u.manager.media.Keeps v.manager.media) (hbyEvent : v.byEvent = u.byEvent)
    (hdirect : v.direct = u.direct) : v.FollowsIf True := by
  refine (h.changes (hm.changes "") (by simp [hbyEvent]) (by simp [hdirect])).congr (iff_true_intro ?_)
  rw [hbyEvent, hdirect]
  exact ⟨h.follows.byEvent "", h.follows.direct "", trivial⟩

/-! ### Starts and stops of streams -/

section
variable {env : Env} {lookup : EventObject → Option EventConfig} {streamId : String} {reason : StreamReason}
  {m : Media}

theorem keeps_onStreamStart (h : m.Steady) (hbyEvent : reason ≠ .recordByEvent) (hdirect : reason ≠ .recordDirect) :
    m.Keeps (m.onStreamStart dev env lookup streamId reason).2 := by
  unfold Media.onStreamStart
  cases dev.lookupStream streamId with
  | none => exact ⟨h, rfl⟩
  | some stream =>
    cases reason with
    | live => exact h.startLive
    | record => exact h.startRecord
    | serverByEvent =>
      dsimp only
      split_ifs
      · exact ⟨h, rfl⟩
      · exact h.startRecord
    | recordByEvent => exact absurd rfl hbyEvent
    | recordDirect => exact absurd rfl hdirect
    | invalid => exact ⟨h, rfl⟩

theorem keeps_onStreamStop (h : m.Steady) (hrecord : reason ≠ .record) (hbyEvent : reason ≠ .recordByEvent) :
    m.Keeps (m.onStreamStop dev env streamId reason) := by
  unfold Media.onStreamStop
  cases dev.lookupStream streamId with
  | none => exact ⟨h, rfl⟩
  | some stream =>
    cases reason with
    | live => exact h.stopLive
    | record => exact absurd rfl hrecord
    | serverByEvent => exact h.stopServerByEvent
    | recordByEvent => exact absurd rfl hbyEvent
    | recordDirect => exact ⟨h, rfl⟩
    | invalid => exact ⟨h, rfl⟩

theorem changes_startByEvent (dev : Device) (lookup : EventObject → Option EventConfig) (streamId : String)
    (h : m.Steady) (henv : env.CardWorks) : ∃ f p,
    m.Changes streamId f p (m.onStreamStart dev env lookup streamId .recordByEvent).2 ∧
      (∀ st, (f st).directUpload = st.directUpload) ∧
      (p ↔ orderly dev m (.streamStart env streamId .recordByEvent) = true) := by
  unfold Media.onStreamStart
  cases hs : dev.lookupStream streamId with
  | none =>
    exact ⟨id, True, Media.Keeps.changes ⟨h, rfl⟩ streamId, fun _ => rfl, by simp [orderly, hs]⟩
  | some stream =>
    obtain rfl := Media.cloudName_of_lookupStream hs
    by_cases he : dev.eventStreams.isEmpty = true
    · simp only [he, if_true]
      exact ⟨id, True, Media.Keeps.changes ⟨h, rfl⟩ _, fun _ => rfl, by simp [orderly, he]⟩
    · simp only [he]
      exact ⟨_, _, h.startRecordByEvent henv, fun _ => rfl, by simp [orderly, hs, he]⟩

theorem changes_startDirect (dev : Device) (lookup : EventObject → Option EventConfig) (streamId : String)
    (h : m.Steady) (henv : env.CardWorks) : ∃ f p,
    m.Changes streamId f p (m.onStreamStart dev env lookup streamId .recordDirect).2 ∧
      (∀ st, (f st).byEvent = st.byEvent) ∧
      (p ↔ orderly dev m (.streamStart env streamId .recordDirect) = true) := by
  unfold Media.onStreamStart
  cases hs : dev.lookupStream streamId with
  | none =>
    exact ⟨id, True, Media.Keeps.changes ⟨h, rfl⟩ streamId, fun _ => rfl, by simp [orderly, hs]⟩
  | some stream =>
    obtain rfl := Media.cloudName_of_lookupStream hs
    exact ⟨_, _, h.startRecordDirect henv, fun _ => rfl, by simp [orderly, hs]⟩

/-- A stop of a record counts for a storage-direct recording, or changes no reason. -/
theorem changes_stopRecord (dev : Device) (env : Env) (streamId : String) (h : m.Steady) : ∃ f p,
    m.Changes streamId f p (m.onStreamStop dev env streamId .record) ∧ (∀ st, (f st).byEvent = st.byEvent) ∧
      ((f (m.recorder.reasons streamId)).directUpload = false ∧ p ↔ m.endsDirect dev streamId = true) := by
  unfold Media.onStreamStop Media.endsDirect
  cases hs : dev.lookupStream streamId with
  | none =>
    refine ⟨id, True, Media.Keeps.changes ⟨h, rfl⟩ streamId, fun _ => rfl, ?_⟩
    simp [Recorder.reasons]
  | some stream =>
    obtain rfl := Media.cloudName_of_lookupStream hs
    have hstop := Media.stopped_stopRecord dev env stream.cloudName h.notStreamed h.depth
    cases hc : m.continuosDirectRecord with
    | false =>
      rw [hc, if_neg Bool.false_ne_true] at hstop
      refine ⟨id, True, Media.Keeps.changes ⟨⟨hstop.notStreamed, hstop.depth, ?_⟩, ?_⟩ _, fun _ => rfl, ?_⟩
      · exact hstop.recorder ▸ h.sound
      · rw [hstop.recorder]
      · simp [Recorder.reasons]
    | true =>
      rw [hc, if_pos rfl] at hstop
      refine ⟨fun st => { st with directUpload := false }, _,
        ⟨hstop.notStreamed, hstop.depth, ?_, ?_, Iff.rfl⟩, fun _ => rfl, ?_⟩
      · exact hstop.recorder ▸ Recorder.CardKnown.drop h.sound.card
      · rw [hstop.recorder, Recorder.reasons_drop]
        rfl
      · rw [hstop.recorder, h.sound.take_iff (by grind [RecordingStatus.enabled]) rfl]
        simp only [Option.isSome_some, Bool.true_and]
        grind [RecordingStatus.enabled]

/-- A stop of recording by events counts for the stream of the records, or changes no reason. -/
theorem changes_stopByEvent (dev : Device) (env : Env) (streamId : String) (h : m.Steady) : ∃ f p,
    m.Changes streamId f p (m.onStreamStop dev env streamId .recordByEvent) ∧
      (∀ st, (f st).directUpload = st.directUpload) ∧
      ((f (m.recorder.reasons streamId)).byEvent = false ∧ p ↔ m.endsByEvent dev streamId = true) := by
  unfold Media.onStreamStop Media.endsByEvent
  cases hs : dev.lookupStream streamId with
  | none =>
    refine ⟨id, True, Media.Keeps.changes ⟨h, rfl⟩ streamId, fun _ => rfl, ?_⟩
    simp [Recorder.reasons]
  | some stream =>
    obtain rfl := Media.cloudName_of_lookupStream hs
    obtain ⟨rbe, hstop⟩ := Media.stopped_stopRecordByEvent dev env stream.cloudName h.notStreamed h.depth
    cases hends : (m.recordByEvent && decide (m.recordStream = some stream.cloudName)) with
    | false =>
      rw [hends, if_neg Bool.false_ne_true] at hstop
      refine ⟨id, True, Media.Keeps.changes ⟨⟨hstop.notStreamed, hstop.depth, ?_⟩, ?_⟩ _, fun _ => rfl, ?_⟩
      · exact hstop.recorder ▸ h.sound
      · rw [hstop.recorder]
      · simp [Recorder.reasons, hends]
    | true =>
      rw [hends, if_pos rfl] at hstop
      refine ⟨fun st => { st with byEvent := false }, _,
        ⟨hstop.notStreamed, hstop.depth, ?_, ?_, Iff.rfl⟩, fun _ => rfl, ?_⟩
      · exact hstop.recorder ▸ Recorder.CardKnown.drop h.sound.card
      · rw [hstop.recorder, Recorder.reasons_drop]
        rfl
      · rw [hstop.recorder, h.sound.take_iff (by grind [RecordingStatus.enabled]) rfl]
        simp only [Option.isSome_some, Bool.true_and, hends]
        grind [RecordingStatus.enabled]

theorem changes_memorycardRecording (dev : Device) (streamId : String) (enabled : Bool) (h : m.Steady)
    (henv : env.CardWorks) : ∃ f p,
    m.Changes streamId f p (m.onCamMemorycardRecording dev env streamId enabled) ∧
      (∀ st, (f st).byEvent = st.byEvent ∧ (f st).directUpload = st.directUpload) ∧
      (p ↔ orderly dev m (.memorycardRecording env streamId enabled) = true) := by
  unfold Media.onCamMemorycardRecording
  cases hs : dev.lookupStream streamId with
  | none =>
    exact ⟨id, True, Media.Keeps.changes ⟨h, rfl⟩ streamId, fun _ => ⟨rfl, rfl⟩, by simp [orderly, hs]⟩
  | some stream =>
    obtain rfl := Media.cloudName_of_lookupStream hs
    refine ⟨fun st => { st with permanent := enabled }, _, ⟨h.notStreamed, h.depth, ?_, ?_, Iff.rfl⟩,
      fun _ => ⟨rfl, rfl⟩, ?_⟩
    · cases enabled
      · exact Recorder.CardKnown.drop h.sound.card
      · exact Recorder.CardKnown.startRecording (r := m.recorder.setStatus _ _) h.sound.card
    · cases enabled
      · exact Recorder.reasons_drop _ _ _
      · exact (Recorder.reasons_startRecording _ _ _).trans (Recorder.reasons_setStatus _ _ _)
    · cases enabled
      · change (m.recorder.drop stream.cloudName _).Agrees ↔ _
        rw [h.sound.take_iff (by grind [RecordingStatus.enabled]) rfl]
        simp only [orderly, hs, Media.switchesPermanent]
        grind [RecordingStatus.enabled]
      · change ((m.recorder.setStatus stream.cloudName _).startRecording env stream.cloudName).Agrees ↔ _
        rw [h.sound.give_iff (henv.startRecord _) (by simp [RecordingStatus.enabled]) rfl]
        simp [orderly, hs, Media.switchesPermanent]

/-- The recorder after the stream was stopped for every reason. -/
def stoppedForAll (s : String) (m : Media) : Recorder :=
  let r := if m.continuosDirectRecord then m.recorder.drop s fun st => { st with directUpload := false } else m.recorder
  if m.recordByEvent && m.recordStream = some s then r.drop s fun st => { st with byEvent := false } else r

theorem stopped_stopStream (env : Env) (lookup : EventObject → Option EventConfig) (h : m.Steady) {stream : MediaStream}
    (hs : dev.lookupStream stream.cloudName = some stream) : ∃ rbe,
      m.Stopped rbe (stoppedForAll stream.cloudName m)
        (m.runRxTask dev env lookup (.stopStream stream.cloudName)) := by
  obtain ⟨p, hlive⟩ := Media.stopIdleSource_publisher dev stream.cloudName
    { m with publisher := m.publisher.unpublish stream.cloudName }
  have hrecord := Media.stopped_stopRecord (m := { m with publisher := p }) dev env stream.cloudName
    h.notStreamed h.depth
  obtain ⟨rbe, hevent⟩ := Media.stopped_stopRecordByEvent dev env stream.cloudName hrecord.notStreamed
    hrecord.depth
  rw [hrecord.recordByEvent, hrecord.recordStream, hrecord.recorder] at hevent
  have hserver : m.Stopped rbe (stoppedForAll stream.cloudName m)
      ((({ m with publisher := p }.stopRecord dev env stream.cloudName).stopRecordByEvent dev env
        stream.cloudName).stopServerByEvent dev stream.cloudName) := by
    rw [Media.stopServerByEvent_eq_stopLive hevent.notStreamed]
    exact Media.Stopped.stopIdleSource ⟨hevent.notStreamed, hevent.depth,
      hevent.recordStream.trans hrecord.recordStream, hevent.recordByEvent, hevent.recorder⟩
  refine ⟨rbe, ?_⟩
  simp only [Media.runRxTask, List.foldl_cons, List.foldl_nil, Media.onStreamStop, hs, Media.stopLive]
  rw [hlive]
  exact hserver

theorem reasons_stoppedForAll (s : String) (m : Media) :
    (stoppedForAll s m).reasons = Function.update m.recorder.reasons s
      { m.recorder.reasons s with
        directUpload := (m.recorder.reasons s).directUpload && !m.continuosDirectRecord
        byEvent := (m.recorder.reasons s).byEvent && !(m.recordByEvent && m.recordStream = some s) } := by
  unfold stoppedForAll
  cases m.continuosDirectRecord <;> cases (m.recordByEvent && decide (m.recordStream = some s)) <;>
    simp [Recorder.reasons_drop, Recorder.recordingStatus_drop] <;> rfl

theorem card_stoppedForAll (s : String) (h : m.recorder.CardKnown) : (stoppedForAll s m).CardKnown := by
  unfold stoppedForAll
  dsimp only
  split_ifs
  · exact h.drop.drop
  · exact h.drop
  · exact h.drop
  · exact h

/-- The recorder agrees afterwards unless the last reason went without the stream being taken for started. -/
theorem agrees_stoppedForAll (s : String) (h : m.recorder.Sound) :
    (stoppedForAll s m).Agrees ↔
      ((m.recorder.recordingStatus s).enabled = true →
        ((stoppedForAll s m).reasons s).enabled = true ∨ (m.recorder.recordingStatus s).started = true) := by
  have hone (f : RecordingStatus → RecordingStatus) : ((m.recorder.drop s f).reasons s).enabled =
      (f (m.recorder.recordingStatus s)).enabled := by
    rw [Recorder.reasons_drop, Function.update_self]
    rfl
  unfold stoppedForAll
  cases m.continuosDirectRecord <;> cases (m.recordByEvent && decide (m.recordStream = some s))
  · exact iff_of_true h.agrees .inl
  · simp only [if_true, Bool.false_eq_true, if_false]
    rw [h.take_iff (by grind [RecordingStatus.enabled]) rfl, hone]
  · simp only [if_true, Bool.false_eq_true, if_false]
    rw [h.take_iff (by grind [RecordingStatus.enabled]) rfl, hone]
  · simp only [if_true]
    rw [h.drop_drop_iff, Recorder.mem_drop, Recorder.mem_drop, Recorder.recordingStatus_drop,
      Recorder.recordingStatus_drop, Recorder.reasons_drop, Function.update_self,
      Recorder.recordingStatus_drop, h.agrees s]
    grind [RecordingStatus.enabled]

/-- Stopping a stream for every reason changes its reasons only. -/
theorem changes_stopStream (dev : Device) (env : Env) (lookup : EventObject → Option EventConfig)
    (streamId : String) (h : m.Steady) : ∃ f p,
    m.Changes streamId f p (m.runRxTask dev env lookup (.stopStream streamId)) ∧
      ((f (m.recorder.reasons streamId)).byEvent = false ∧
        (f (m.recorder.reasons streamId)).directUpload = false ∧ p ↔ m.endsBoth dev streamId = true) := by
  cases hs : dev.lookupStream streamId with
  | none =>
    have hkeep : m.runRxTask dev env lookup (.stopStream streamId) = m := by
      simp [Media.runRxTask, Media.onStreamStop, hs]
    rw [hkeep]
    refine ⟨id, True, Media.Keeps.changes ⟨h, rfl⟩ streamId, ?_⟩
    simp only [id, Recorder.reasons, Media.endsBoth, hs]
    grind
  | some stream =>
    obtain rfl := Media.cloudName_of_lookupStream hs
    obtain ⟨rbe, hstop⟩ := stopped_stopStream env lookup h hs
    refine ⟨fun st => { st with
        directUpload := st.directUpload && !m.continuosDirectRecord
        byEvent := st.byEvent && !(m.recordByEvent && m.recordStream = some stream.cloudName) },
      _, ⟨hstop.notStreamed, hstop.depth, ?_, ?_, Iff.rfl⟩, ?_⟩
    · rw [hstop.recorder]
      exact card_stoppedForAll _ h.sound.card
    · rw [hstop.recorder]
      exact reasons_stoppedForAll _ m
    · rw [hstop.recorder, agrees_stoppedForAll _ h.sound, reasons_stoppedForAll, Function.update_self]
      simp only [Media.endsBoth, hs]
      grind [RecordingStatus.enabled, Recorder.reasons]

/-- The disconnect lets go of the stream of the records. -/
theorem changes_onClosed (dev : Device) (env : Env) {c : Manager} {s : String} (h : c.media.Steady)
    (hs : c.media.recordStream = some s) :
    ∃ p, c.media.Changes s (fun st => { st with byEvent := false }) p (c.onClosed dev env).media ∧
      (p ↔ c.media.closesByEvent s = true) := by
  have hmedia : (c.onClosed dev env).media.recorder =
      c.media.recorder.drop s fun st => { st with byEvent := false } := by
    simp only [Manager.onClosed, Media.stopAllStreams, Media.stopEvents, hs]
    rfl
  have hrest : (c.onClosed dev env).media.streamByEvent = false ∧ (c.onClosed dev env).media.recordEventDepth = 0 := by
    simp only [Manager.onClosed, Media.stopAllStreams, Media.stopEvents, hs]
    exact ⟨h.notStreamed, h.depth⟩
  refine ⟨_, ⟨hrest.1, hrest.2, ?_, ?_, Iff.rfl⟩, ?_⟩
  · rw [hmedia]
    exact h.sound.card.drop
  · rw [hmedia, Recorder.reasons_drop]
    rfl
  · rw [hmedia, h.sound.take_iff (by grind [RecordingStatus.enabled]) rfl]
    grind [RecordingStatus.enabled, Media.closesByEvent]

theorem keeps_onClosed {c : Manager} (h : c.media.Steady) (hs : c.media.recordStream = none) :
    c.media.Keeps (c.onClosed dev env).media := by
  simp only [Manager.onClosed, Media.stopAllStreams, Media.stopEvents, hs]
  exact ⟨⟨h.notStreamed, h.depth, h.sound⟩, rfl⟩

end

/-! ### Steps and runs -/

theorem Inv.init (dev : Device) : (start dev).Inv where
  steady := ⟨rfl, rfl, fun s => by simp [start, Manager.start, Media.start, RecordingStatus.enabled],
    fun s hs => absurd hs (Finset.notMem_empty s)⟩
  follows := ⟨fun s hs => Bool.noConfusion hs, fun s hs => Bool.noConfusion hs,
    fun s => by simp [start, Manager.start, Media.start, RecordingStatus.enabled]⟩

theorem keeps_initLoaded {m : Media} (dev : Device) (reported : Option EventsConfig) (events : EventsControl)
    (h : m.Steady) :
    m.Keeps (Manager.initLoaded dev reported events m) := by
  unfold Manager.initLoaded
  split_ifs
  · exact ⟨⟨h.notStreamed, h.depth, h.sound⟩, rfl⟩
  · exact ⟨h, rfl⟩

theorem keeps_stopEvents (env : Env) {m : Media} (h : m.Steady) : m.Keeps (m.stopEvents env) :=
  ⟨⟨h.notStreamed, h.depth, h.sound⟩, rfl⟩

theorem keeps_setCamEvents {env : Env} {c : Manager} {reported : Option EventsConfig} {config : EventsConfig}
    (h : c.media.Steady) (henv : env.CardWorks) :
    c.media.Keeps (c.onSetCamEventsConfig dev env reported config).media := by
  have hstop := keeps_stopEvents env h
  have hload := hstop.trans (keeps_initLoaded dev reported c.events hstop.steady)
  have hcard := hload.trans (hload.steady.keeps_updateStorageStatus dev
    (Manager.lookup c.registered (c.events.onSetCamEventsConfig dev reported config)) henv)
  exact ⟨⟨hcard.steady.notStreamed, hcard.steady.depth, hcard.steady.sound⟩, hcard.reasons⟩

theorem keeps_runTransportCb {env : Env} {lookup : EventObject → Option EventConfig} {m : Media} {cb : TransportCb}
    (h : m.Steady) (henv : env.CardWorks) : m.Keeps (Manager.runTransportCb dev env lookup m cb) := by
  cases cb with
  | triggerPeriodicEvent conf => exact h.notifyEvent henv _
  | startProviders => exact h.keeps_updateStorageStatus dev lookup henv

/-- With these media after the action, the recordings follow the commands if and only if the action was orderly. -/
def Yields (dev : Device) (u : RecordingSession) (a : Manager.Action) (m : Media) : Prop :=
  ∀ c : Manager, c.media = m → FollowsIf (orderly dev u.manager.media a = true)
    ⟨c, noteByEvent u.manager.media u.byEvent a, noteDirect u.manager.media u.direct a⟩

theorem Inv.yields_keeps {m : Media} (h : u.Inv) (hk : u.manager.media.Keeps m)
    (hb : noteByEvent u.manager.media u.byEvent a = u.byEvent) (hd : noteDirect u.manager.media u.direct a = u.direct)
    (hok : orderly dev u.manager.media a = true) : u.Yields dev a m := by
  rintro c rfl
  exact (h.keeps (v := ⟨c, _, _⟩) hk hb hd).congr (iff_of_true trivial hok)

theorem Inv.yields_changes {m : Media} {s : String} {f : RecordingStatus → RecordingStatus} {p : Prop} (h : u.Inv)
    (hch : u.manager.media.Changes s f p m)
    (hb : ∀ t, t ≠ s → noteByEvent u.manager.media u.byEvent a t = u.byEvent t)
    (hd : ∀ t, t ≠ s → noteDirect u.manager.media u.direct a t = u.direct t)
    (hok : (((f (u.manager.media.recorder.reasons s)).byEvent = true →
        noteByEvent u.manager.media u.byEvent a s = true) ∧
      ((f (u.manager.media.recorder.reasons s)).directUpload = true →
        noteDirect u.manager.media u.direct a s = true) ∧ p) ↔ orderly dev u.manager.media a = true) :
    u.Yields dev a m := by
  rintro c rfl
  exact (h.changes (v := ⟨c, _, _⟩) hch hb hd).congr hok

theorem Inv.byEvent (h : u.Inv) (s : String) :
    (u.manager.media.recorder.reasons s).byEvent = true → u.byEvent s = true := h.follows.byEvent s

theorem Inv.direct (h : u.Inv) (s : String) :
    (u.manager.media.recorder.reasons s).directUpload = true → u.direct s = true := h.follows.direct s

theorem update_ne {b : String → Bool} {s t : String} {x : Bool} (ht : t ≠ s) : Function.update b s x t = b t :=
  Function.update_of_ne ht x b

theorem yields_streamStart {env : Env} (h : u.Inv) (henv : env.CardWorks) (streamId : String) (reason : StreamReason) :
    u.Yields dev (.streamStart env streamId reason) (u.manager.media.onStreamStart dev env
      (Manager.lookup u.manager.registered u.manager.events) streamId reason).2 := by
  cases reason with
  | recordByEvent =>
    obtain ⟨f, p, hch, hf, hp⟩ := changes_startByEvent dev
      (Manager.lookup u.manager.registered u.manager.events) streamId h.steady henv
    refine h.yields_changes hch (fun _ => update_ne) (fun _ _ => rfl) ?_
    rw [hf, ← hp]
    exact ⟨fun h => h.2.2, fun hp => ⟨fun _ => Function.update_self _ _ _, h.direct streamId, hp⟩⟩
  | recordDirect =>
    obtain ⟨f, p, hch, hf, hp⟩ := changes_startDirect dev
      (Manager.lookup u.manager.registered u.manager.events) streamId h.steady henv
    refine h.yields_changes hch (fun _ _ => rfl) (fun _ => update_ne) ?_
    rw [hf, ← hp]
    exact ⟨fun h => h.2.2, fun hp => ⟨h.byEvent streamId, fun _ => Function.update_self _ _ _, hp⟩⟩
  | record => exact h.yields_keeps (keeps_onStreamStart h.steady (by decide) (by decide)) rfl rfl rfl
  | serverByEvent => exact h.yields_keeps (keeps_onStreamStart h.steady (by decide) (by decide)) rfl rfl rfl
  | live => exact h.yields_keeps (keeps_onStreamStart h.steady (by decide) (by decide)) rfl rfl rfl
  | invalid => exact h.yields_keeps (keeps_onStreamStart h.steady (by decide) (by decide)) rfl rfl rfl

theorem yields_streamStop (env : Env) (h : u.Inv) (streamId : String) (reason : StreamReason) :
    u.Yields dev (.streamStop env streamId reason) (u.manager.media.onStreamStop dev env streamId reason) := by
  cases reason with
  | record =>
    obtain ⟨f, p, hch, hf, hp⟩ := changes_stopRecord dev env streamId h.steady
    refine h.yields_changes hch (fun _ _ => rfl) (fun _ => update_ne) ?_
    rw [hf, orderly, ← hp]
    simpa [noteByEvent, noteDirect] using fun _ _ => h.byEvent streamId
  | recordByEvent =>
    obtain ⟨f, p, hch, hf, hp⟩ := changes_stopByEvent dev env streamId h.steady
    refine h.yields_changes hch (fun _ => update_ne) (fun _ _ => rfl) ?_
    rw [hf, orderly, ← hp]
    simpa [noteByEvent, noteDirect] using fun _ _ => h.direct streamId
  | serverByEvent => exact h.yields_keeps (keeps_onStreamStop h.steady (by decide) (by decide)) rfl rfl rfl
  | live => exact h.yields_keeps (keeps_onStreamStop h.steady (by decide) (by decide)) rfl rfl rfl
  | recordDirect => exact h.yields_keeps (keeps_onStreamStop h.steady (by decide) (by decide)) rfl rfl rfl
  | invalid => exact h.yields_keeps (keeps_onStreamStop h.steady (by decide) (by decide)) rfl rfl rfl

theorem yields_rxTask (env : Env) {task : RxTask} {rxTasks : List RxTask} (h : u.Inv)
    (next : u.manager.media.rxTasks = task :: rxTasks) :
    u.Yields dev (.runRxTask env) ({ u.manager.media with rxTasks }.runRxTask dev env
      (Manager.lookup u.manager.registered u.manager.events) task) := by
  have hsteady : { u.manager.media with rxTasks }.Steady := ⟨h.steady.notStreamed, h.steady.depth, h.steady.sound⟩
  have hhead : u.manager.media.rxTasks.head? = some task := by rw [next]; rfl
  cases task with
  | startRecord streamId =>
    have hk : { u.manager.media with rxTasks }.Keeps ({ u.manager.media with rxTasks }.onStreamStart dev env
        (Manager.lookup u.manager.registered u.manager.events) streamId .record).2 :=
      keeps_onStreamStart hsteady (by decide) (by decide)
    exact h.yields_keeps ⟨hk.steady, hk.reasons⟩ (by simp [noteByEvent, hhead]) (by simp [noteDirect, hhead])
      (by simp [orderly, hhead])
  | stopRecord streamId =>
    obtain ⟨f, p, hch, hf, hp⟩ := changes_stopRecord dev env streamId hsteady
    refine h.yields_changes (f := f) (p := p) (s := streamId) ⟨hch.1, hch.2, hch.3, hch.4, hch.5⟩ (fun t ht => ?_)
      (fun t ht => ?_) ?_
    · simp [noteByEvent, hhead]
    · simp [noteDirect, hhead, ht]
    · have hok : orderly dev u.manager.media (.runRxTask env) = u.manager.media.endsDirect dev streamId := by
        simp [orderly, hhead]
      rw [hf, hok]
      refine Iff.trans ?_ hp
      simpa [noteByEvent, noteDirect, hhead] using fun _ _ => h.byEvent streamId
  | stopStream streamId =>
    obtain ⟨f, p, hch, hp⟩ := changes_stopStream dev env
      (Manager.lookup u.manager.registered u.manager.events) streamId hsteady
    refine h.yields_changes (f := f) (p := p) (s := streamId) ⟨hch.1, hch.2, hch.3, hch.4, hch.5⟩ (fun t ht => ?_)
      (fun t ht => ?_) ?_
    · simp [noteByEvent, hhead, ht]
    · simp [noteDirect, hhead, ht]
    · have hok : orderly dev u.manager.media (.runRxTask env) = u.manager.media.endsBoth dev streamId := by
        simp [orderly, hhead]
      rw [hok]
      refine Iff.trans ?_ hp
      simp [noteByEvent, noteDirect, hhead]

theorem yields_closed (env : Env) (h : u.Inv) : u.Yields dev (.closed env) (u.manager.onClosed dev env).media := by
  cases hrs : u.manager.media.recordStream with
  | none => exact h.yields_keeps (keeps_onClosed h.steady hrs) (by simp [noteByEvent, hrs]) rfl (by simp [orderly, hrs])
  | some s =>
    obtain ⟨p, hch, hp⟩ := changes_onClosed dev env h.steady hrs
    refine h.yields_changes hch (fun t ht => ?_) (fun _ _ => rfl) ?_
    · simp [noteByEvent, hrs, ht]
    · simpa [orderly, hrs, ← hp, noteDirect] using fun _ => h.direct s

theorem Inv.yields {m : Media} (h : u.Inv) (hl : ∀ env ∈ a.env, env.CardWorks)
    (hm : Manager.MediaStep dev u.manager a m) : u.Yields dev a m := by
  cases hm with
  | setRegistered registered => exact h.yields_keeps ⟨h.steady, rfl⟩ rfl rfl rfl
  | streamStart env streamId reason => exact yields_streamStart h (hl env rfl) streamId reason
  | streamStop env streamId reason => exact yields_streamStop env h streamId reason
  | setStreamByEvent streamId preEvent postEvent =>
    refine h.yields_keeps ?_ rfl rfl rfl
    unfold Media.onSetStreamByEvent
    cases dev.lookupStream streamId with
    | none => exact ⟨⟨h.steady.notStreamed, h.steady.depth, h.steady.sound⟩, rfl⟩
    | some stream => exact ⟨⟨h.steady.notStreamed, h.steady.depth, h.steady.sound⟩, rfl⟩
  | memorycardRecording env streamId enabled =>
    obtain ⟨f, p, hch, hf, hp⟩ := changes_memorycardRecording dev streamId enabled h.steady (hl env rfl)
    refine h.yields_changes hch (fun _ _ => rfl) (fun _ _ => rfl) ?_
    rw [(hf _).1, (hf _).2, ← hp]
    exact ⟨fun h => h.2.2, fun hp => ⟨h.byEvent streamId, h.direct streamId, hp⟩⟩
  | memorycardSynchronize env requestId start stop =>
    exact h.yields_keeps ⟨⟨h.steady.notStreamed, h.steady.depth, h.steady.sound⟩, rfl⟩ rfl rfl rfl
  | getCamEvents env reported =>
    have hstop := keeps_stopEvents env h.steady
    exact h.yields_keeps (hstop.trans (keeps_initLoaded dev reported u.manager.events hstop.steady)) rfl rfl rfl
  | setCamEvents env reported config => exact h.yields_keeps (keeps_setCamEvents h.steady (hl env rfl)) rfl rfl rfl
  | notifyEvent env event => exact h.yields_keeps (h.steady.notifyEvent (hl env rfl) event) rfl rfl rfl
  | transportTimer env t cb pending => exact h.yields_keeps (keeps_runTransportCb h.steady (hl env rfl)) rfl rfl rfl
  | httpTimer t cb http =>
    exact h.yields_keeps ⟨⟨h.steady.notStreamed, h.steady.depth, h.steady.sound⟩, rfl⟩ rfl rfl rfl
  | rxTask env task rxTasks next => exact yields_rxTask env h next
  | closed env => exact yields_closed env h

/-- After any step the recordings follow if and only if the step was orderly. -/
theorem followsIf_step (h : u.Inv) (hl : ∀ env ∈ a.env, env.CardWorks) (hs : u.step dev a = some v) :
    v.FollowsIf (orderly dev u.manager.media a = true) := by
  obtain ⟨c, hc, rfl⟩ := Option.map_eq_some_iff.mp hs
  obtain ⟨-, hmedia⟩ := Manager.mediaStep_of_step hc
  exact h.yields hl hmedia c rfl

/-- With a memory card in order, the recordings follow the commands in all states of a run if and only if
all its commands are orderly. -/
theorem recordings_follow_iff (henv : ∀ a ∈ as, ∀ env ∈ a.env, env.CardWorks)
    (he : exec (step dev) (start dev) as = some v) :
    Throughout (step dev) Follows (start dev) as ↔
      Meets (step dev) (fun u a => orderly dev u.manager.media a = true) (start dev) as :=
  throughout_iff_meets (fun _ _ _ h hl hok hs => (followsIf_step h hl hs).inv hok) (fun _ => Inv.follows)
    (fun _ _ _ h hl hok hs hv => hok ((followsIf_step h hl hs).follows.mp hv)) (Inv.init dev) henv he

theorem cardWorks_working : Env.working.CardWorks := ⟨⟨_, rfl, rfl⟩, fun _ => rfl⟩

/-- Recording by events starts and stops, then permanent recording starts. -/
theorem recordings_follow_front : ∃ v,
    exec (step twoStreamsByEvent) (start twoStreamsByEvent)
        [.streamStart .working "front" .recordByEvent, .streamStop .working "front" .recordByEvent,
          .memorycardRecording .working "rear" true] = some v ∧
      Throughout (step twoStreamsByEvent) Follows (start twoStreamsByEvent)
        [.streamStart .working "front" .recordByEvent, .streamStop .working "front" .recordByEvent,
          .memorycardRecording .working "rear" true] := by
  obtain ⟨v, hv⟩ : ∃ v, exec (step twoStreamsByEvent) (start twoStreamsByEvent)
      [.streamStart .working "front" .recordByEvent, .streamStop .working "front" .recordByEvent,
        .memorycardRecording .working "rear" true] = some v := ⟨_, rfl⟩
  refine ⟨v, hv, (recordings_follow_iff ?_ hv).mpr (by decide +kernel)⟩
  simp [Manager.Action.env, cardWorks_working]

/-- Another stream becomes the stream of the records before recording by events stops: the stop is lost,
and the first stream records forever. -/
theorem stop_by_event_lost : Env.working.CardWorks ∧ ∃ v,
    exec (step twoStreamsByEvent) (start twoStreamsByEvent)
        [.streamStart .working "front" .recordByEvent, .setStreamByEvent "rear" 5000 5000,
          .streamStop .working "front" .recordByEvent] = some v ∧
      (v.manager.media.recorder.recordingStatus "front").byEvent = true ∧ v.byEvent "front" = false ∧
      "front" ∈ v.manager.media.recorder.recording ∧ ¬ v.Follows := by
  obtain ⟨v, hv⟩ : ∃ v, exec (step twoStreamsByEvent) (start twoStreamsByEvent)
      [.streamStart .working "front" .recordByEvent, .setStreamByEvent "rear" 5000 5000,
        .streamStop .working "front" .recordByEvent] = some v := ⟨_, rfl⟩
  have hend : ∀ w ∈ exec (step twoStreamsByEvent) (start twoStreamsByEvent)
      [.streamStart .working "front" .recordByEvent, .setStreamByEvent "rear" 5000 5000,
        .streamStop .working "front" .recordByEvent],
      (w.manager.media.recorder.recordingStatus "front").byEvent = true ∧ w.byEvent "front" = false ∧
        "front" ∈ w.manager.media.recorder.recording := by decide +kernel
  obtain ⟨hflag, hlast, hrec⟩ := hend v hv
  refine ⟨cardWorks_working, v, hv, hflag, hlast, hrec, fun h => ?_⟩
  have hstart := h.byEvent "front" hflag
  rw [hlast] at hstart
  exact Bool.false_ne_true hstart

end RecordingSession
end CloudAgent.Control
