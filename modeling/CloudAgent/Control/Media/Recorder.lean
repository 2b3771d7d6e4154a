import CloudAgent.Control.Media

/-! The recorder of the memory card: when its list of recording streams agrees with the reasons that the
manager keeps for each stream. -/
namespace CloudAgent.Control
open Proto

/-- The memory card is normal and every recording that is asked for starts. -/
structure Env.CardWorks (env : Env) : Prop where
  info : ∃ info, env.memorycardInfo = some info ∧ info.status = .normal
  startRecord : ∀ s, env.startRecord s = true

namespace Recorder
variable {env : Env} {r : Recorder} {s : String} {f : RecordingStatus → RecordingStatus}
  {info : MemorycardInfo} {recordStream : Option String}

/-! ### Reasons -/

/-- The reasons to record the streams: their status without `started`. -/
def reasons (r : Recorder) (s : String) : RecordingStatus := { r.recordingStatus s with started := false }

theorem enabled_congr {r' : Recorder} (h : r'.reasons s = r.reasons s) :
    (r'.recordingStatus s).enabled = (r.recordingStatus s).enabled := by
  change (r'.reasons s).enabled = (r.reasons s).enabled
  rw [h]

theorem reasons_setStatus (s : String) (f : RecordingStatus → RecordingStatus) (r : Recorder) :
    (r.setStatus s f).reasons =
      Function.update r.reasons s { f (r.recordingStatus s) with started := false } := by
  funext t
  by_cases h : t = s
  · subst h
    simp [reasons, setStatus]
  · simp [reasons, setStatus, h]

/-- A change of `started` alone changes no reason. -/
theorem reasons_setStarted (s : String) (f : RecordingStatus → Bool) (r : Recorder) :
    (r.setStatus s fun st => { st with started := f st }).reasons = r.reasons := by
  rw [reasons_setStatus]
  exact Function.update_eq_self s r.reasons

@[simp] theorem reasons_startRecording (env : Env) (s : String) (r : Recorder) :
    (r.startRecording env s).reasons = r.reasons := by
  unfold startRecording
  split_ifs
  · rfl
  · exact reasons_setStarted s (fun st => st.started || env.startRecord s) r
  · exact reasons_setStarted s (fun st => st.started || env.startRecord s) r
  · rfl

@[simp] theorem reasons_stopRecording (force : Bool) (s : String) (r : Recorder) :
    (r.stopRecording force s).reasons = r.reasons := by
  unfold stopRecording
  split_ifs
  · exact reasons_setStarted s (fun _ => false) r
  · rfl

@[simp] theorem reasons_reported (info : MemorycardInfo) (s : String) (r : Recorder) :
    (r.reported info s).reasons = r.reasons := reasons_setStarted s _ r

/-- What `memorycardEvent` can do: it may ask for the status of the card, and takes over what is said
of the stream of the records before it starts the recording. -/
theorem memorycardEvent_cases (env : Env) (recordStream : Option String) (info : MemorycardInfo) (r : Recorder) :
    ∃ ask : Option MemorycardInfo, (ask = none ∨ ask = env.memorycardInfo) ∧
      (r.memorycardEvent env recordStream info = { r with memorycardInfo := ask.getD r.memorycardInfo } ∨
        ∃ s said, let told := { r with memorycardInfo := ask.getD r.memorycardInfo }.reported said s
          r.memorycardEvent env recordStream info = told.startRecording env s ∨
            r.memorycardEvent env recordStream info = (told.stopRecording true s).startRecording env s) := by
  unfold memorycardEvent
  generalize hask : (if info.status = .invalid then env.memorycardInfo else none) = ask
  refine ⟨ask, ?_, ?_⟩
  · rw [← hask]
    split_ifs <;> simp
  · dsimp only
    cases recordStream with
    | none => exact .inl rfl
    | some s =>
      dsimp only
      split_ifs
      · exact .inr ⟨s, _, .inr rfl⟩
      · exact .inr ⟨s, _, .inl rfl⟩
      · exact .inl rfl

/-! ### Recordings that agree with the reasons -/

/-- The streams that record are those with a reason to. -/
def Agrees (r : Recorder) : Prop := ∀ s, s ∈ r.recording ↔ (r.recordingStatus s).enabled = true

/-- A recording was only started with a memory card in order. -/
def CardKnown (r : Recorder) : Prop := ∀ s ∈ r.recording, r.memorycardInfo.status = .normal

theorem CardKnown.startRecording (h : r.CardKnown) : (r.startRecording env s).CardKnown := by
  unfold Recorder.startRecording
  split_ifs with hcard hstart henv
  · exact h
  · exact fun _ _ => not_not.mp hcard
  · exact h
  · exact h

theorem CardKnown.stopRecording {force : Bool} (h : r.CardKnown) : (r.stopRecording force s).CardKnown := by
  unfold Recorder.stopRecording
  split_ifs
  · exact fun t ht => h t (Finset.mem_of_mem_erase ht)
  · exact h

/-- The recorder agrees with its reasons, and will as long as no reason changes. -/
structure Sound (r : Recorder) : Prop where
  agrees : r.Agrees
  card : r.CardKnown

/-- Reasons and recordings stay. -/
theorem Sound.congr {r' : Recorder} (h : r.Sound) (hreasons : r'.reasons = r.reasons)
    (hrec : r'.recording = r.recording) (hcard : r'.memorycardInfo = r.memorycardInfo) : r'.Sound where
  agrees := fun s => by rw [hrec, enabled_congr (congrFun hreasons s), h.agrees s]
  card := fun s hs => by
    rw [hcard]
    exact h.card s (hrec ▸ hs)

/-- The same reasons are the same recordings. -/
theorem Sound.mem_iff {r' : Recorder} (h : r.Sound) (h' : r'.Sound) (hreasons : r'.reasons = r.reasons) :
    s ∈ r'.recording ↔ s ∈ r.recording := by
  rw [h'.agrees s, h.agrees s, enabled_congr (congrFun hreasons s)]

theorem Sound.reported (h : r.Sound) : (r.reported info s).Sound := h.congr (reasons_reported info s r) rfl rfl

theorem Sound.setCard (h : r.Sound) (hinfo : info.status = .normal) : { r with memorycardInfo := info }.Sound :=
  ⟨h.agrees, fun _ _ => hinfo⟩

/-- A stream with a reason records already. -/
theorem Sound.startRecording (h : r.Sound) : (r.startRecording env s).Sound := by
  have hrec : (r.startRecording env s).recording = r.recording := by
    unfold Recorder.startRecording
    split_ifs with hcard hstart henv
    · rfl
    · have hmem : s ∈ r.recording := (h.agrees s).mpr (Bool.and_elim_left hstart)
      exact Finset.insert_eq_self.mpr hmem
    · rfl
    · rfl
  refine h.congr (reasons_startRecording env s r) hrec ?_
  unfold Recorder.startRecording
  split_ifs <;> rfl

/-- A recording that is stopped by force is started again where there is a reason for it. -/
theorem Sound.restart (h : r.Sound) (hs : env.startRecord s = true) :
    ((r.stopRecording true s).startRecording env s).Sound := by
  have hstop : r.stopRecording true s =
      { r.setStatus s fun st => { st with started := false } with recording := r.recording.erase s } := by
    simp [Recorder.stopRecording]
  by_cases hen : (r.recordingStatus s).enabled = true
  · have hmem : s ∈ r.recording := (h.agrees s).mpr hen
    have hcard := h.card s hmem
    refine h.congr (by simp) ?_ ?_
    · simp_all [Recorder.startRecording, setStatus, RecordingStatus.enabled]
    · simp_all [Recorder.startRecording, setStatus, RecordingStatus.enabled]
  · have hmem : s ∉ r.recording := fun hm => hen ((h.agrees s).mp hm)
    have hkeep : (r.stopRecording true s).Sound :=
      h.congr (by simp) (by rw [hstop]; simp [hmem]) (by rw [hstop]; rfl)
    exact hkeep.startRecording

theorem Sound.memorycardEvent (h : r.Sound) (henv : env.CardWorks) :
    (r.memorycardEvent env recordStream info).Sound := by
  obtain ⟨card, hcard, hnormal⟩ := henv.info
  obtain ⟨ask, hask, hcase⟩ := memorycardEvent_cases env recordStream info r
  have hheard : { r with memorycardInfo := ask.getD r.memorycardInfo }.Sound := by
    obtain rfl | rfl := hask
    · exact h
    · rw [hcard]
      exact h.setCard hnormal
  obtain heq | ⟨s, said, heq | heq⟩ := hcase
  · rw [heq]
    exact hheard
  · rw [heq]
    exact hheard.reported.startRecording
  · rw [heq]
    exact hheard.reported.restart (henv.startRecord s)

@[simp] theorem reasons_memorycardEvent (env : Env) (recordStream : Option String) (info : MemorycardInfo)
    (r : Recorder) : (r.memorycardEvent env recordStream info).reasons = r.reasons := by
  obtain ⟨ask, -, heq | ⟨s, said, heq | heq⟩⟩ := memorycardEvent_cases env recordStream info r
  · rw [heq]
    rfl
  · rw [heq, reasons_startRecording, reasons_reported]
    rfl
  · rw [heq, reasons_startRecording, reasons_stopRecording, reasons_reported]
    rfl

/-- What the recorder makes of a report on the card, which counts for the stream of the records. -/
def heard (info : MemorycardInfo) (recordStream : Option String) (r : Recorder) : Recorder :=
  match recordStream with
  | none => { r with memorycardInfo := info }
  | some s => { r with memorycardInfo := info }.reported info s

@[simp] theorem reasons_heard (info : MemorycardInfo) (recordStream : Option String) (r : Recorder) :
    (r.heard info recordStream).reasons = r.reasons := by
  cases recordStream with
  | none => rfl
  | some s => exact reasons_reported info s _

theorem Sound.heard (h : r.Sound) (hinfo : info.status = .normal) : (r.heard info recordStream).Sound := by
  cases recordStream with
  | none => exact h.setCard hinfo
  | some s => exact (h.setCard hinfo).reported

/-- What is told twice changes nothing the second time. -/
theorem memorycardEvent_heard (hinfo : info.status = .normal) :
    (r.heard info recordStream).memorycardEvent env recordStream info =
      recordStream.elim (r.heard info recordStream) fun s => (r.heard info recordStream).startRecording env s := by
  cases recordStream with
  | none => simp [Recorder.memorycardEvent, hinfo]
  | some s =>
    have htwice : (r.heard info (some s)).reported info s = r.heard info (some s) := by
      simp [Recorder.heard, reported, setStatus]
    have hstarted : ((r.heard info (some s)).recordingStatus s).started = info.recordingStatus.toBool := by
      simp [Recorder.heard, reported, setStatus]
    simp [Recorder.memorycardEvent, hinfo, htwice, hstarted]

/-! ### Giving and taking a reason -/

/-- Nothing keeps the stream from recording once it has a reason: it records already, or the card is
known to be in order and the stream is not taken for started. -/
def ready (s : String) (r : Recorder) : Bool :=
  s ∈ r.recording || (r.memorycardInfo.status = .normal && !(r.recordingStatus s).started)

theorem ready_iff : r.ready s = true ↔
    s ∈ r.recording ∨ r.memorycardInfo.status = .normal ∧ (r.recordingStatus s).started = false := by
  simp [ready]

theorem ready_startRecording {t : String} (h : r.Sound) : (r.startRecording env t).ready s = r.ready s := by
  unfold Recorder.startRecording
  split_ifs with hcard hstart
  · rfl
  · have hmem : t ∈ r.recording := (h.agrees t).mpr (Bool.and_elim_left hstart)
    by_cases hst : s = t
    · subst hst
      simp [ready, hmem]
    · rw [Bool.eq_iff_iff, ready_iff, ready_iff]
      simp [hst, setStatus]
  · have hmem : t ∈ r.recording := (h.agrees t).mpr (Bool.and_elim_left hstart)
    by_cases hst : s = t
    · subst hst
      simp [ready, hmem]
    · rw [Bool.eq_iff_iff, ready_iff, ready_iff]
      simp [hst, setStatus]
  · rfl

theorem ready_heard (hinfo : info.status = .normal) :
    (r.heard info recordStream).ready s = true ↔ s ∈ r.recording ∨
      (if recordStream = some s then info.recordingStatus.toBool else (r.recordingStatus s).started) = false := by
  rw [ready_iff]
  cases recordStream with
  | none => simp [heard, hinfo]
  | some t =>
    by_cases hst : t = s
    · subst hst
      simp [heard, reported, setStatus, hinfo]
    · simp [heard, reported, setStatus, hinfo, hst, Ne.symm hst]

/-- Where all other streams are left alone, it is the stream itself that must agree. -/
theorem Sound.agrees_iff (h : r.Sound) (r' : Recorder) (s : String)
    (hreasons : ∀ t, t ≠ s → r'.reasons t = r.reasons t)
    (hrec : ∀ t, t ≠ s → (t ∈ r'.recording ↔ t ∈ r.recording)) :
    r'.Agrees ↔ (s ∈ r'.recording ↔ (r'.recordingStatus s).enabled = true) := by
  refine ⟨fun h' => h' s, fun hiff t => ?_⟩
  by_cases hts : t = s
  · rw [hts]
    exact hiff
  · rw [hrec t hts, h.agrees t, enabled_congr (hreasons t hts)]

theorem Sound.setStatus_iff (h : r.Sound) :
    (r.setStatus s f).Agrees ↔ (s ∈ r.recording ↔ (f (r.recordingStatus s)).enabled = true) := by
  have hother : ∀ t, t ≠ s → (r.setStatus s f).reasons t = r.reasons t := by
    intro t ht
    rw [reasons_setStatus, Function.update_of_ne ht]
  rw [h.agrees_iff _ s hother fun t _ => Iff.rfl]
  simp [setStatus]

/-- A stream that is given a reason records if and only if it was ready. -/
theorem Sound.give_iff (h : r.Sound) (hs : env.startRecord s = true)
    (hf : (f (r.recordingStatus s)).enabled = true)
    (hstarted : (f (r.recordingStatus s)).started = (r.recordingStatus s).started) :
    ((r.setStatus s f).startRecording env s).Agrees ↔ r.ready s = true := by
  by_cases hgo : r.memorycardInfo.status = .normal ∧ (r.recordingStatus s).started = false
  · have hrec : ((r.setStatus s f).startRecording env s).recording = insert s r.recording := by
      simp [Recorder.startRecording, setStatus, hgo, hf, hstarted, hs]
    have hen : (((r.setStatus s f).startRecording env s).recordingStatus s).enabled = true := by
      rw [enabled_congr (congrFun (reasons_startRecording env s _) s)]
      simpa [setStatus] using hf
    have hother : ∀ t, t ≠ s → ((r.setStatus s f).startRecording env s).reasons t = r.reasons t := by
      intro t ht
      rw [reasons_startRecording, reasons_setStatus, Function.update_of_ne ht]
    rw [h.agrees_iff _ s hother fun t ht => by simp [hrec, ht]]
    simp [hrec, hen, ready, hgo]
  · have hkeep : (r.setStatus s f).startRecording env s = r.setStatus s f := by
      by_cases hcard : r.memorycardInfo.status = .normal
      · have hon : (r.recordingStatus s).started = true := by simpa [hcard] using hgo
        simp [Recorder.startRecording, setStatus, hstarted, hon]
      · simp [Recorder.startRecording, setStatus, hcard]
    have hnot : (decide (r.memorycardInfo.status = .normal) && !(r.recordingStatus s).started) = false := by
      simpa using hgo
    rw [hkeep, h.setStatus_iff, hf]
    simp [ready, hnot]

/-- The stream loses a reason, and stops recording if that was the last one. -/
def drop (s : String) (f : RecordingStatus → RecordingStatus) (r : Recorder) : Recorder :=
  (r.setStatus s f).stopRecording false s

/-- Nothing is stopped where another reason is left, or where nothing is taken for started. -/
theorem drop_eq_setStatus
    (h : ¬ ((f (r.recordingStatus s)).enabled = false ∧ (f (r.recordingStatus s)).started = true)) :
    r.drop s f = r.setStatus s f := by
  unfold drop stopRecording
  rw [if_neg]
  simpa [setStatus] using h

theorem recordingStatus_drop (s : String) (f : RecordingStatus → RecordingStatus) (r : Recorder) :
    (r.drop s f).recordingStatus s =
      { f (r.recordingStatus s) with
        started := (f (r.recordingStatus s)).enabled && (f (r.recordingStatus s)).started } := by
  by_cases hstop : (f (r.recordingStatus s)).enabled = false ∧ (f (r.recordingStatus s)).started = true
  · simp [drop, stopRecording, setStatus, hstop]
  · have hsame : ((f (r.recordingStatus s)).enabled && (f (r.recordingStatus s)).started) =
        (f (r.recordingStatus s)).started := by grind
    rw [drop_eq_setStatus hstop, hsame]
    simp [setStatus]

theorem mem_drop (s : String) (f : RecordingStatus → RecordingStatus) (r : Recorder) :
    s ∈ (r.drop s f).recording ↔
      s ∈ r.recording ∧ ((f (r.recordingStatus s)).enabled = true ∨ (f (r.recordingStatus s)).started = false) := by
  by_cases hstop : (f (r.recordingStatus s)).enabled = false ∧ (f (r.recordingStatus s)).started = true
  · simp [drop, stopRecording, setStatus, hstop]
  · have hleft : (f (r.recordingStatus s)).enabled = true ∨ (f (r.recordingStatus s)).started = false := by grind
    rw [drop_eq_setStatus hstop]
    exact (and_iff_left hleft).symm

theorem reasons_drop (s : String) (f : RecordingStatus → RecordingStatus) (r : Recorder) :
    (r.drop s f).reasons = Function.update r.reasons s { f (r.recordingStatus s) with started := false } := by
  rw [drop, reasons_stopRecording, reasons_setStatus]

theorem mem_drop_of_ne {t : String} (ht : t ≠ s) : t ∈ (r.drop s f).recording ↔ t ∈ r.recording := by
  unfold drop stopRecording
  split_ifs
  · simp [ht, setStatus]
  · rfl

theorem CardKnown.drop (h : r.CardKnown) : (r.drop s f).CardKnown := CardKnown.stopRecording (r := r.setStatus s f) h

/-- After a loss, it is the stream itself that must agree. -/
theorem Sound.drop_iff (h : r.Sound) :
    (r.drop s f).Agrees ↔
      (s ∈ (r.drop s f).recording ↔ ((r.drop s f).recordingStatus s).enabled = true) :=
  h.agrees_iff _ s (fun t ht => by rw [reasons_drop, Function.update_of_ne ht]) fun _ => mem_drop_of_ne

/-- A stream that loses a reason stops recording if and only if it is taken for started; it need not
stop if it has another reason. -/
theorem Sound.take_iff (h : r.Sound)
    (hf : (f (r.recordingStatus s)).enabled = true → (r.recordingStatus s).enabled = true)
    (hstarted : (f (r.recordingStatus s)).started = (r.recordingStatus s).started) :
    (r.drop s f).Agrees ↔ ((r.recordingStatus s).enabled = true →
      (f (r.recordingStatus s)).enabled = true ∨ (r.recordingStatus s).started = true) := by
  have hen : ((r.drop s f).recordingStatus s).enabled = (f (r.recordingStatus s)).enabled := by
    rw [recordingStatus_drop]
    rfl
  rw [h.drop_iff, hen, mem_drop, h.agrees s, hstarted]
  grind

theorem Sound.drop_drop_iff {g : RecordingStatus → RecordingStatus} (h : r.Sound) :
    ((r.drop s f).drop s g).Agrees ↔
      (s ∈ ((r.drop s f).drop s g).recording ↔
        (((r.drop s f).drop s g).recordingStatus s).enabled = true) :=
  h.agrees_iff _ s
    (fun t ht => by rw [reasons_drop, Function.update_of_ne ht, reasons_drop, Function.update_of_ne ht])
    fun _ ht => (mem_drop_of_ne ht).trans (mem_drop_of_ne ht)

end Recorder
end CloudAgent.Control
