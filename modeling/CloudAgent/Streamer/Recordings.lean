import CloudAgent.Utils.IsoPacked

/-! Recordings on disk: the names they are given, and how they are found again when the recorder is
started. -/
namespace CloudAgent.Streamer
open Utils Utils.Time

/-- The three classes that keep recordings. The segment duration of the sink is in seconds. -/
inductive Recorder
  | mp4RecorderSink (segmentDuration : ℤ)
  | rtspMp4RecordingStream
  | rtspSegmentedMp4RecordingStream
  deriving DecidableEq

abbrev Filename := List Char

structure Recording where
  path : Filename
  begin : Time
  «end» : Time
  deriving DecidableEq

/-- The files of the storage directory, and `recordings_`. -/
structure Storage where
  files : List Filename
  recordings : List Recording
  deriving DecidableEq

/-- The name of a finalized recording; the duration is in milliseconds. -/
def finalName (begin : Time) (duration : ℤ) : Filename :=
  toIsoPacked begin ++ '_' :: toIsoPacked (begin + duration * 1000000)

def Recording.finalized (begin : Time) (duration : ℤ) : Recording :=
  ⟨finalName begin duration, begin, begin + duration * 1000000⟩

namespace Recorder

/-- `storage_retention_time_`. -/
def storageRetentionTime : Recorder → Duration
  | .mp4RecorderSink _ => minutes 15
  | .rtspMp4RecordingStream => minutes 120
  | .rtspSegmentedMp4RecordingStream => minutes 15

/-- How long the segments are that the recorder's sink makes. -/
def segmentDuration : Recorder → Duration
  | .mp4RecorderSink n => seconds n
  | .rtspMp4RecordingStream => seconds 10
  | .rtspSegmentedMp4RecordingStream => seconds 5

/-- The two times in a name, both `null` where it does not have two parts, nothing where `std::stod`
throws. -/
def readPeriod (filename : Filename) : Option (Time × Time) :=
  match stringSplit '_' filename [] with
  | [first, second] => do
    let begin ← stod first
    let «end» ← stod second
    some (fromDouble begin, fromDouble «end»)
  | _ => some (null, null)

/-- `_get_period_from_filename`: an exception, or whether the name was understood, and how. Only the
sink catches the exception. -/
def getPeriodFromFilename (c : Recorder) (filename : Filename) : Option (Option (Time × Time)) :=
  match readPeriod filename with
  | some (begin, «end») => some (if begin = null ∨ «end» = null then none else some (begin, «end»))
  | none =>
    match c with
    | .mp4RecorderSink _ => some none
    | .rtspMp4RecordingStream | .rtspSegmentedMp4RecordingStream => none

/-- The condition of `_rotate_recordings`. -/
def expired (c : Recorder) (now : Time) (r : Recording) : Bool := c.storageRetentionTime < now - r.end

/-- `_rotate_recordings`: what is expired goes, with its file. -/
def rotateRecordings (c : Recorder) (now : Time) (s : Storage) : Storage where
  files := s.files.filter fun f => !s.recordings.any fun r => c.expired now r && r.path = f
  recordings := s.recordings.filter fun r => !c.expired now r

/-- `_add_recording`. -/
def addRecording (c : Recorder) (now : Time) (s : Storage) (r : Recording) : Storage :=
  match c with
  | .mp4RecorderSink n =>
    if r.end - r.begin > seconds n * 2 then s
    else c.rotateRecordings now { s with recordings := s.recordings ++ [r] }
  | .rtspMp4RecordingStream | .rtspSegmentedMp4RecordingStream =>
    c.rotateRecordings now { s with recordings := s.recordings ++ [r] }

/-- Whether `_load_recordings` takes the period for a recording's. -/
def fits (c : Recorder) (begin «end» : Time) : Bool :=
  match c with
  | .mp4RecorderSink n => «end» - begin < seconds n * 2
  | .rtspMp4RecordingStream | .rtspSegmentedMp4RecordingStream => true

def removePart (s : Storage) (filename : Filename) : Storage :=
  if ".part".toList.isSuffixOf filename then { s with files := s.files.filter (· ≠ filename) } else s

/-- One round of the loop of `_load_recordings`. -/
def loadFile (c : Recorder) (now : Time) (s : Storage) (filename : Filename) : Option Storage :=
  match c.getPeriodFromFilename filename with
  | none => none
  | some (some (begin, «end»)) =>
    if c.fits begin «end» then some (c.addRecording now s ⟨filename, begin, «end»⟩) else some (removePart s filename)
  | some none => some (removePart s filename)

/-- `_load_recordings`, at the start of the process. -/
def loadRecordings (c : Recorder) (now : Time) (files : List Filename) : Option Storage :=
  files.foldlM (c.loadFile now) ⟨files, []⟩

/-- `_on_new_recroding`, with a rename that works. The sink removes a recording that is too long for
the fragment it comes from. -/
def onNewRecroding (c : Recorder) (now : Time) (s : Storage) (filepath : Filename) (begin : Time)
    (duration fragmentDuration : ℤ) : Storage :=
  let files := s.files.filter (· ≠ filepath)
  let kept := c.addRecording now { s with files := files ++ [finalName begin duration] } (.finalized begin duration)
  match c with
  | .mp4RecorderSink _ => if duration > fragmentDuration * 2 then { s with files := files } else kept
  | .rtspMp4RecordingStream | .rtspSegmentedMp4RecordingStream => kept

end Recorder

/-- A file of the storage directory: a finalized recording, or a fragment that was not finished. -/
inductive Entry
  | recording (begin : Time) (duration : ℤ)
  | part (start : Time)
  deriving DecidableEq

namespace Entry

/-- `fragment_generate_uri` for the fragment that was not finished. -/
def filename : Entry → Filename
  | .recording begin duration => finalName begin duration
  | .part start => toIsoPacked start ++ ".part".toList

def recording? : Entry → Option Recording
  | .recording begin duration => some (.finalized begin duration)
  | .part _ => none

end Entry

/-- The recordings among the files. -/
def recordingsOf (es : List Entry) : List Recording := es.filterMap Entry.recording?

namespace Recorder
variable {c : Recorder} {now : Time} {s s' : Storage}

/-! ### What a name is read as -/

theorem getPeriod_finalName (c : Recorder) {begin : Time} {duration : ℤ} (hb : 0 ≤ begin) (hd : 0 ≤ duration) :
    c.getPeriodFromFilename (finalName begin duration) =
      some (some (dateNumber begin * 1000000000, dateNumber (begin + duration * 1000000) * 1000000000)) := by
  have he : 0 ≤ begin + duration * 1000000 := Int.add_nonneg hb (Int.mul_nonneg hd (by decide))
  have hpieces : stringSplit '_' (finalName begin duration) [] =
      [toIsoPacked begin, toIsoPacked (begin + duration * 1000000)] :=
    stringSplit_two [] (not_mem_toIsoPacked _) (not_mem_toIsoPacked _) (toIsoPacked_ne_nil _)
  have hread : readPeriod (finalName begin duration) =
      some (dateNumber begin * 1000000000, dateNumber (begin + duration * 1000000) * 1000000000) := by
    simp only [readPeriod, hpieces, stod_toIsoPacked hb, stod_toIsoPacked he, Option.bind_eq_bind, Option.bind_some,
      fromDouble_intCast]
  have hbpos := dateNumber_ge hb
  have hepos := dateNumber_ge he
  have hne : ¬ (dateNumber begin * 1000000000 = null ∨
      dateNumber (begin + duration * 1000000) * 1000000000 = null) := by
    simp only [null]
    omega
  simp only [getPeriodFromFilename, hread, if_neg hne]

/-- A recording's name is read back right exactly if both times are the one that is its own date. -/
theorem getPeriod_finalName_iff {begin : Time} {duration : ℤ} (hb : 0 ≤ begin) (hd : 0 ≤ duration) :
    c.getPeriodFromFilename (finalName begin duration) = some (some (begin, begin + duration * 1000000)) ↔
      begin = ownDate ∧ begin + duration * 1000000 = ownDate := by
  have he : 0 ≤ begin + duration * 1000000 := Int.add_nonneg hb (Int.mul_nonneg hd (by decide))
  rw [getPeriod_finalName c hb hd, Option.some.injEq, Option.some.injEq, Prod.mk.injEq,
    eq_dateNumber_iff hb, eq_dateNumber_iff he]

theorem getPeriod_part (c : Recorder) (start : Time) :
    c.getPeriodFromFilename (Entry.part start).filename = some none := by
  have hmem : '_' ∉ (Entry.part start).filename := by
    rw [Entry.filename, List.mem_append]
    rintro (h | h)
    · exact not_mem_toIsoPacked start h
    · exact absurd h (by decide)
  have hne : [] ++ (Entry.part start).filename ≠ [] := by simp [Entry.filename, toIsoPacked_ne_nil]
  have hread : readPeriod (Entry.part start).filename = some (null, null) := by
    rw [readPeriod, stringSplit_of_not_mem hmem, if_neg hne]
  simp only [getPeriodFromFilename, hread, true_or, if_true]

/-! ### Loading names that are read back right -/

theorem addRecording_of_fits {r : Recording} (h : c.fits r.begin r.end = true) :
    c.addRecording now s r = c.rotateRecordings now { s with recordings := s.recordings ++ [r] } := by
  cases c with
  | mp4RecorderSink n =>
    have hlt : r.end - r.begin < seconds n * 2 := by simpa [fits] using h
    rw [addRecording, if_neg (not_lt_of_gt hlt)]
  | rtspMp4RecordingStream => rfl
  | rtspSegmentedMp4RecordingStream => rfl

theorem mem_files_rotate {f : Filename} (hf : f ∈ s.files)
    (h : ∀ r ∈ s.recordings, r.path = f → c.expired now r = false) : f ∈ (c.rotateRecordings now s).files := by
  rw [rotateRecordings, List.mem_filter]
  refine ⟨hf, ?_⟩
  simp only [Bool.not_eq_true', List.any_eq_false, Bool.and_eq_true, decide_eq_true_eq, not_and]
  intro r hr hexp hpath
  rw [h r hr hpath] at hexp
  exact Bool.noConfusion hexp

theorem removePart_recordings (s : Storage) (f : Filename) : (removePart s f).recordings = s.recordings := by
  rw [removePart]
  split <;> rfl

theorem mem_files_removePart {f g : Filename} (hf : f ∈ s.files) (hne : g ≠ f) : f ∈ (removePart s g).files := by
  rw [removePart]
  split
  · exact List.mem_filter.mpr ⟨hf, by simpa using hne.symm⟩
  · exact hf

/-- A file leaves `s` only if it is an unfinished fragment or an expired recording. -/
def Stays (c : Recorder) (now : Time) (es : List Entry) (f : Filename) : Prop :=
  ∀ e ∈ es, e.filename = f → ∃ r, e.recording? = some r ∧ c.expired now r = false

/-- If the directory has recordings that are read back right, and unfinished fragments, then what is
listed in the end are the recordings that have not expired, and their files are still there. -/
theorem loadFiles_of_parsed (es : List Entry)
    (hp : ∀ r ∈ recordingsOf es, c.getPeriodFromFilename r.path = some (some (r.begin, r.end)) ∧
      c.fits r.begin r.end = true) (hs : ∀ r ∈ s.recordings, c.expired now r = false) :
    ∃ s', (es.map Entry.filename).foldlM (c.loadFile now) s = some s' ∧
      s'.recordings = s.recordings ++ (recordingsOf es).filter (fun r => !c.expired now r) ∧
      ∀ f ∈ s.files, c.Stays now es f → f ∈ s'.files := by
  induction es generalizing s with
  | nil => exact ⟨s, rfl, by simp [recordingsOf], fun f hf _ => hf⟩
  | cons e es ih =>
    rw [List.map_cons, List.foldlM_cons]
    cases e with
    | part start =>
      have hload : c.loadFile now s (Entry.part start).filename = some (removePart s (Entry.part start).filename) := by
        rw [loadFile, getPeriod_part]
      obtain ⟨s', he, hrec, hfiles⟩ := ih (s := removePart s (Entry.part start).filename) hp
        (by rw [removePart_recordings]; exact hs)
      refine ⟨s', by rw [hload]; exact he, by rw [hrec, removePart_recordings]; rfl, fun f hf hstay => ?_⟩
      have hne : (Entry.part start).filename ≠ f := by
        intro heq
        obtain ⟨r, hr, -⟩ := hstay _ List.mem_cons_self heq
        simp [Entry.recording?] at hr
      exact hfiles f (mem_files_removePart hf hne) fun e he => hstay e (List.mem_cons_of_mem _ he)
    | recording begin duration =>
      obtain ⟨⟨hparse, hfit⟩, hp⟩ := List.forall_mem_cons.mp hp
      let r := Recording.finalized begin duration
      let s₁ := c.rotateRecordings now { s with recordings := s.recordings ++ [r] }
      have hload : c.loadFile now s (Entry.recording begin duration).filename = some s₁ := by
        rw [loadFile, show c.getPeriodFromFilename (Entry.recording begin duration).filename = _ from hparse]
        dsimp only
        rw [if_pos hfit]
        exact congrArg some (addRecording_of_fits (r := r) hfit)
      have hs₁ : s₁.recordings = s.recordings ++ [r].filter (fun r => !c.expired now r) := by
        have hkeep : s.recordings.filter (fun r => !c.expired now r) = s.recordings :=
          List.filter_eq_self.mpr fun r hr => by rw [hs r hr]; rfl
        change (s.recordings ++ [r]).filter (fun r => !c.expired now r) = _
        rw [List.filter_append, hkeep]
      obtain ⟨s', he, hrec, hfiles⟩ := ih (s := s₁) hp (by
        intro x hx
        rw [hs₁] at hx
        obtain hx | hx := List.mem_append.mp hx
        · exact hs x hx
        · simpa using (List.mem_filter.mp hx).2)
      refine ⟨s', by rw [hload]; exact he, ?_, fun f hf hstay => ?_⟩
      · rw [hrec, hs₁, List.append_assoc, ← List.filter_append]
        rfl
      · refine hfiles f (mem_files_rotate hf ?_) fun e he => hstay e (List.mem_cons_of_mem _ he)
        intro x hx hpath
        obtain hx | hx := List.mem_append.mp hx
        · exact hs x hx
        · rw [List.mem_singleton.mp hx] at hpath ⊢
          obtain ⟨y, hy, hexp⟩ := hstay _ List.mem_cons_self hpath
          rwa [← Option.some.inj hy] at hexp

/-! ### A restart -/

/-- What is known of a finalized recording: times since the epoch, and a length below twice that of a
segment. -/
def Finalized (c : Recorder) : Entry → Prop
  | .recording begin duration => 0 ≤ begin ∧ 0 ≤ duration ∧ duration * 1000000 < c.segmentDuration * 2
  | .part _ => True

/-- The recordings survive a restart: names are read as the times that they were made from, what is
listed after the restart are the recordings that have not expired, and their files are still there. -/
structure Survive (c : Recorder) (now : Time) (es : List Entry) : Prop where
  parsed : ∀ r ∈ recordingsOf es, c.getPeriodFromFilename r.path = some (some (r.begin, r.end))
  loaded : ∃ s, c.loadRecordings now (es.map Entry.filename) = some s ∧
    s.recordings = (recordingsOf es).filter (fun r => !c.expired now r) ∧
    ∀ r ∈ recordingsOf es, c.expired now r = false → r.path ∈ s.files

theorem mem_recordingsOf {es : List Entry} {r : Recording} (h : r ∈ recordingsOf es) :
    ∃ begin duration, Entry.recording begin duration ∈ es ∧ r = .finalized begin duration := by
  obtain ⟨e, he, hr⟩ := List.mem_filterMap.mp h
  cases e with
  | recording begin duration => exact ⟨begin, duration, he, (Option.some.inj hr).symm⟩
  | part start => simp [Entry.recording?] at hr

/-- For each of the three classes, every directory and every moment: the recordings survive a restart
exactly if each of them begins and ends at the one time that is its own date. -/
theorem recordings_survive_iff {c : Recorder} {now : Time} {es : List Entry} (h : ∀ e ∈ es, c.Finalized e) :
    c.Survive now es ↔ ∀ r ∈ recordingsOf es, r.begin = ownDate ∧ r.end = ownDate := by
  have hread : ∀ r ∈ recordingsOf es, c.getPeriodFromFilename r.path = some (some (r.begin, r.end)) ↔
      r.begin = ownDate ∧ r.end = ownDate := by
    intro r hr
    obtain ⟨begin, duration, he, rfl⟩ := mem_recordingsOf hr
    obtain ⟨hb, hd, -⟩ := h _ he
    exact getPeriod_finalName_iff hb hd
  constructor
  · exact fun hs r hr => (hread r hr).mp (hs.parsed r hr)
  · intro hown
    have hparsed := fun r hr => (hread r hr).mpr (hown r hr)
    have hfit : ∀ r ∈ recordingsOf es, c.fits r.begin r.end = true := by
      intro r hr
      obtain ⟨begin, duration, he, rfl⟩ := mem_recordingsOf hr
      obtain ⟨-, -, hshort⟩ := h _ he
      cases c with
      | mp4RecorderSink n =>
        change decide (begin + duration * 1000000 - begin < seconds n * 2) = true
        rw [add_sub_cancel_left]
        exact decide_eq_true hshort
      | rtspMp4RecordingStream => rfl
      | rtspSegmentedMp4RecordingStream => rfl
    refine ⟨hparsed, ?_⟩
    have hload : ∃ s, c.loadRecordings now (es.map Entry.filename) = some s ∧ _ :=
      loadFiles_of_parsed es (fun r hr => ⟨hparsed r hr, hfit r hr⟩) (fun r hr => absurd hr List.not_mem_nil)
    obtain ⟨s, he, hrec, hfiles⟩ := hload
    refine ⟨s, he, hrec, fun r hr hexp => ?_⟩
    obtain ⟨begin, duration, hmem, rfl⟩ := mem_recordingsOf hr
    refine hfiles _ (List.mem_map.mpr ⟨_, hmem, rfl⟩) fun e hemem hname => ?_
    cases e with
    | part start =>
      have hnone := getPeriod_part c start
      rw [show (Entry.part start).filename = _ from hname, hparsed _ hr] at hnone
      simp at hnone
    | recording begin' duration' =>
      have hr' : Recording.finalized begin' duration' ∈ recordingsOf es :=
        List.mem_filterMap.mpr ⟨_, hemem, rfl⟩
      have hsame := hparsed _ hr'
      rw [show (Recording.finalized begin' duration').path = _ from hname, hparsed _ hr] at hsame
      refine ⟨_, rfl, ?_⟩
      simp only [Option.some.injEq, Prod.mk.injEq] at hsame
      simpa only [expired, ← hsame.2] using hexp

/-- A recording within one day that is read as expired. -/
structure ReadExpired (c : Recorder) (now : Time) (begin : Time) (duration : ℤ) : Prop where
  start : 0 ≤ begin
  length : 0 ≤ duration
  day : dateNumber (begin + duration * 1000000) = dateNumber begin
  segment : 0 < c.segmentDuration
  late : dateNumber begin * 1000000000 + c.storageRetentionTime < now

theorem loadFile_readExpired {begin : Time} {duration : ℤ} (h : c.ReadExpired now begin duration)
    (hs : s.recordings = []) :
    c.loadFile now s (finalName begin duration) =
      some ⟨s.files.filter (fun f => !(finalName begin duration = f)), []⟩ := by
  obtain ⟨hb, hd, hday, hseg, hlate⟩ := h
  let r : Recording := ⟨finalName begin duration, dateNumber begin * 1000000000, dateNumber begin * 1000000000⟩
  have hfit : c.fits r.begin r.end = true := by
    cases c with
    | mp4RecorderSink n =>
      change decide (r.end - r.begin < seconds n * 2) = true
      rw [sub_self]
      exact decide_eq_true (Int.mul_pos hseg (by decide))
    | rtspMp4RecordingStream => rfl
    | rtspSegmentedMp4RecordingStream => rfl
  have hexp : c.expired now r = true := decide_eq_true (lt_sub_iff_add_lt'.mpr hlate)
  have hread := getPeriod_finalName c hb hd
  rw [hday] at hread
  simp only [loadFile, hread]
  rw [if_pos hfit, show c.addRecording now s _ = _ from addRecording_of_fits (r := r) hfit, hs]
  simp [rotateRecordings, hexp, r]

/-- Once the seconds that the dates are read as lie further back than the retention time, nothing is
loaded, and the files of the recordings are deleted. -/
theorem load_deletes (es : List Entry)
    (h : ∀ begin duration, Entry.recording begin duration ∈ es → c.ReadExpired now begin duration)
    (hs : s.recordings = []) :
    ∃ s', (es.map Entry.filename).foldlM (c.loadFile now) s = some s' ∧ s'.recordings = [] ∧
      (∀ f ∈ s'.files, f ∈ s.files) ∧ ∀ r ∈ recordingsOf es, r.path ∉ s'.files := by
  induction es generalizing s with
  | nil => exact ⟨s, rfl, hs, fun f hf => hf, by simp [recordingsOf]⟩
  | cons e es ih =>
    have hrest := fun begin duration hm => h begin duration (List.mem_cons_of_mem e hm)
    rw [List.map_cons, List.foldlM_cons]
    cases e with
    | part start =>
      have hload : c.loadFile now s (Entry.part start).filename = some (removePart s (Entry.part start).filename) := by
        rw [loadFile, getPeriod_part]
      obtain ⟨s', he, hrec, hsub, hgone⟩ := ih (s := removePart s (Entry.part start).filename) hrest
        ((removePart_recordings s _).trans hs)
      refine ⟨s', by rw [hload]; exact he, hrec, fun f hf => ?_, hgone⟩
      have hf' := hsub f hf
      rw [removePart] at hf'
      split at hf'
      · exact (List.mem_filter.mp hf').1
      · exact hf'
    | recording begin duration =>
      have hload := loadFile_readExpired (h begin duration List.mem_cons_self) hs
      obtain ⟨s', he, hrec, hsub, hgone⟩ :=
        ih (s := ⟨s.files.filter (fun f => !(finalName begin duration = f)), []⟩) hrest rfl
      refine ⟨s', by rw [Entry.filename, hload]; exact he, hrec, fun f hf => (List.mem_filter.mp (hsub f hf)).1, ?_⟩
      intro r hr
      obtain rfl | hr := List.mem_cons.mp hr
      · intro hf
        have hne := (List.mem_filter.mp (hsub _ hf)).2
        simp [Recording.finalized] at hne
      · exact hgone r hr

/-- A recording that is read as expired and has not expired is deleted by a restart. -/
theorem readExpired_deleted {begin : Time} {duration : ℤ} (hexp : c.ReadExpired now begin duration)
    (hunexp : c.expired now (.finalized begin duration) = false) :
    (∃ s, c.loadRecordings now [finalName begin duration] = some s ∧ s.recordings = [] ∧
      finalName begin duration ∉ s.files) ∧ ¬ c.Survive now [.recording begin duration] := by
  obtain ⟨s, he, hrec, -, hgone⟩ := load_deletes (s := ⟨[finalName begin duration], []⟩)
    [.recording begin duration] (by
      intro begin' duration' hm
      obtain ⟨rfl, rfl⟩ := Entry.recording.inj (List.mem_singleton.mp hm)
      exact hexp) rfl
  have hfile : finalName begin duration ∉ s.files := hgone (.finalized begin duration) List.mem_cons_self
  refine ⟨⟨s, he, hrec, hfile⟩, fun hs => ?_⟩
  obtain ⟨s', he', -, hfiles⟩ := hs.loaded
  obtain rfl : s = s' := Option.some.inj (he.symm.trans he')
  exact hfile (hfiles (.finalized begin duration) List.mem_cons_self hunexp)

/-- The recording that is its own date survives. -/
theorem recordings_survive_ownDate :
    (rtspMp4RecordingStream).Survive (ownDate + seconds 60) [.part 0, .recording ownDate 0] :=
  (recordings_survive_iff (by
    intro e he
    simp only [List.mem_cons, List.not_mem_nil, or_false] at he
    obtain rfl | rfl := he
    · trivial
    · exact ⟨by decide, by decide, by decide⟩)).mpr (by
      intro r hr
      obtain ⟨begin, duration, he, rfl⟩ := mem_recordingsOf hr
      simp only [List.mem_cons, reduceCtorEq, Entry.recording.injEq, List.not_mem_nil, or_false, false_or] at he
      obtain ⟨rfl, rfl⟩ := he
      exact ⟨rfl, rfl⟩)

/-- 2021-06-01T12:00:00.123456. -/
def noon : Time := 1622548800123456000

/-- A recording of ten seconds from noon on 2021-06-01, a minute later: it has not expired, but whatever the class, it is
not loaded, and its file is deleted. -/
theorem restart_deletes_recording :
    finalName noon 9500 = "20210601T120000.123456_20210601T120009.623456".toList ∧
      ((mp4RecorderSink 10).Finalized (.recording noon 9500) ∧
        ¬ (mp4RecorderSink 10).Survive (noon + seconds 60) [.recording noon 9500]) ∧
      (rtspMp4RecordingStream.Finalized (.recording noon 9500) ∧
        ¬ rtspMp4RecordingStream.Survive (noon + seconds 60) [.recording noon 9500]) ∧
      rtspSegmentedMp4RecordingStream.Finalized (.recording noon 9500) ∧
        ¬ rtspSegmentedMp4RecordingStream.Survive (noon + seconds 60) [.recording noon 9500] := by
  have hsink : (mp4RecorderSink 10).ReadExpired (noon + seconds 60) noon 9500 :=
    ⟨by decide, by decide, by decide, by decide, by decide⟩
  have hstream : rtspMp4RecordingStream.ReadExpired (noon + seconds 60) noon 9500 :=
    ⟨by decide, by decide, by decide, by decide, by decide⟩
  have hsegmented : rtspSegmentedMp4RecordingStream.ReadExpired (noon + seconds 60) noon 9500 :=
    ⟨by decide, by decide, by decide, by decide, by decide⟩
  refine ⟨by decide, ⟨⟨by decide, by decide, by decide⟩, ?_⟩, ⟨⟨by decide, by decide, by decide⟩, ?_⟩,
    ⟨by decide, by decide, by decide⟩, ?_⟩
  · exact (readExpired_deleted hsink (by decide)).2
  · exact (readExpired_deleted hstream (by decide)).2
  · exact (readExpired_deleted hsegmented (by decide)).2

end Recorder

end CloudAgent.Streamer
