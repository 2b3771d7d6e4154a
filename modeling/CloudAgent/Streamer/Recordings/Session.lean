import CloudAgent.Lib.Transition
import CloudAgent.Streamer.Recordings

/-! The recordings that the sink makes in one session, and whether all their files are listed. What
is not listed is never deleted. -/
namespace CloudAgent.Streamer
open Utils Utils.Time Transition

/-- A fragment that is finalized at the time `now`: the time in the name of its file, what
`fragment_finalized` reports, and `fragment_duration()`. -/
structure FinalizedFragment where
  start : Time
  begin : Time
  duration : ℤ
  fragmentDuration : ℤ
  now : Time
  deriving DecidableEq

namespace FinalizedFragment

/-- `fragment_generate_uri`. -/
def filepath (a : FinalizedFragment) : Filename := (Entry.part a.start).filename

def recording (a : FinalizedFragment) : Recording := .finalized a.begin a.duration

/-- The file is removed as too big for its fragment. -/
def removed (a : FinalizedFragment) : Bool := a.duration > a.fragmentDuration * 2

/-- The recording is longer than two segments. -/
def tooLong (n : ℤ) (a : FinalizedFragment) : Bool := a.recording.end - a.recording.begin > seconds n * 2

end FinalizedFragment

/-- A session of a sink whose directory had no recordings when it was started: what is stored, and the
names under which fragments were finalized. -/
structure Session where
  storage : Storage
  created : List Filename := []
  deriving DecidableEq

namespace Session

/-- `_on_new_recroding` of an `mp4_recorder_sink` with segments of `n` seconds. -/
def finalize (n : ℤ) (t : Session) (a : FinalizedFragment) : Session where
  storage := (Recorder.mp4RecorderSink n).onNewRecroding a.now t.storage a.filepath a.begin a.duration
    a.fragmentDuration
  created := if a.removed then t.created else t.created ++ [a.recording.path]

def step (n : ℤ) (t : Session) (a : FinalizedFragment) : Option Session := some (t.finalize n a)

/-- The files of recordings that were made in the session and are still there are those that are listed. -/
def Tracked (t : Session) : Prop :=
  ∀ f, f ∈ t.created ∧ f ∈ t.storage.files ↔ f ∈ t.storage.recordings.map Recording.path

/-- A recording that is not added has the name of one that is listed, and of those with one name all
or none are expired. -/
def Kept (n : ℤ) (t : Session) (a : FinalizedFragment) : Prop :=
  a.removed = true ∨
    if a.tooLong n then a.recording.path ∈ t.storage.recordings.map Recording.path
    else ∀ r ∈ t.storage.recordings ++ [a.recording], ∀ r' ∈ t.storage.recordings ++ [a.recording],
      r.path = r'.path → (Recorder.mp4RecorderSink n).expired a.now r =
        (Recorder.mp4RecorderSink n).expired a.now r'

variable {n : ℤ} {t u : Session} {a : FinalizedFragment}

/-! ### One fragment -/

theorem underscore_mem_path (a : FinalizedFragment) : '_' ∈ a.recording.path :=
  List.mem_append_right _ List.mem_cons_self

theorem underscore_notMem_filepath (a : FinalizedFragment) : '_' ∉ a.filepath := by
  rw [FinalizedFragment.filepath, Entry.filename, List.mem_append]
  rintro (hmem | hmem)
  · exact not_mem_toIsoPacked a.start hmem
  · exact absurd hmem (by decide)

/-- The storage once the file has its final name. -/
def renamed (t : Session) (a : FinalizedFragment) : Storage where
  files := t.storage.files.filter (· ≠ a.filepath) ++ [a.recording.path]
  recordings := t.storage.recordings

theorem storage_finalize (n : ℤ) (t : Session) (a : FinalizedFragment) :
    (t.finalize n a).storage =
      if a.removed then { t.storage with files := t.storage.files.filter (· ≠ a.filepath) }
      else if a.tooLong n then t.renamed a
      else (Recorder.mp4RecorderSink n).rotateRecordings a.now
        { t.renamed a with recordings := t.storage.recordings ++ [a.recording] } := by
  simp only [finalize, Recorder.onNewRecroding, Recorder.addRecording, FinalizedFragment.removed,
    FinalizedFragment.tooLong, decide_eq_true_eq]
  rfl

theorem created_finalize (h : a.removed = false) :
    (t.finalize n a).created = t.created ++ [a.recording.path] := by
  simp only [finalize, h, Bool.false_eq_true, if_false]

/-- The file of the fragment is gone, whatever became of it. -/
theorem filepath_notMem (n : ℤ) (t : Session) (a : FinalizedFragment) :
    a.filepath ∉ (t.finalize n a).storage.files := by
  have hrenamed : a.filepath ∉ (t.renamed a).files := by
    rw [renamed, List.mem_append, List.mem_filter, List.mem_singleton]
    rintro (hmem | heq)
    · exact absurd hmem.2 (by simp)
    · exact underscore_notMem_filepath a (heq ▸ underscore_mem_path a)
  rw [storage_finalize]
  split
  · simp
  · split
    · exact hrenamed
    · exact fun h => hrenamed (List.mem_filter.mp h).1

/-! ### What keeps the files listed -/

/-- The files that were made in the session have the names of recordings. -/
def Named (t : Session) : Prop := ∀ f ∈ t.created, '_' ∈ f

theorem named_finalize (h : t.Named) : (t.finalize n a).Named := by
  cases hr : a.removed with
  | true => simpa only [Named, finalize, hr, if_true] using h
  | false =>
    intro f hf
    rw [created_finalize hr, List.mem_append, List.mem_singleton] at hf
    rcases hf with hf | rfl
    · exact h f hf
    · exact underscore_mem_path a

/-- The session's files do not go with the file of a fragment. -/
theorem mem_files_filter (h : t.Named) {f : Filename} :
    f ∈ t.created ∧ f ∈ t.storage.files.filter (· ≠ a.filepath) ↔ f ∈ t.created ∧ f ∈ t.storage.files := by
  refine and_congr_right fun hf => ?_
  have hne : f ≠ a.filepath := fun heq => underscore_notMem_filepath a (heq ▸ h f hf)
  simp [hne]

theorem mem_renamed (h : t.Tracked) (hn : t.Named) {f : Filename} :
    f ∈ t.created ++ [a.recording.path] ∧ f ∈ (t.renamed a).files ↔
      f ∈ (t.storage.recordings ++ [a.recording]).map Recording.path := by
  rw [List.map_append, List.map_singleton, List.mem_append, List.mem_append, ← h f, renamed, List.mem_append,
    ← mem_files_filter (a := a) hn]
  tauto

/-- Listed and stored recordings agree after the old ones are deleted exactly if those of one name are all old
or all not. -/
theorem rotate_agree_iff {c : Recorder} {now : Time} {s : Storage} {l : List Filename}
    (h : ∀ f, f ∈ l ∧ f ∈ s.files ↔ f ∈ s.recordings.map Recording.path) :
    (∀ f, f ∈ l ∧ f ∈ (c.rotateRecordings now s).files ↔
        f ∈ (c.rotateRecordings now s).recordings.map Recording.path) ↔
      ∀ r ∈ s.recordings, ∀ r' ∈ s.recordings, r.path = r'.path → c.expired now r = c.expired now r' := by
  have hfiles : ∀ f, f ∈ l ∧ f ∈ (c.rotateRecordings now s).files ↔
      (∃ r ∈ s.recordings, r.path = f) ∧ ∀ r ∈ s.recordings, r.path = f → c.expired now r = false := by
    intro f
    rw [← List.mem_map, ← h f, Recorder.rotateRecordings, List.mem_filter, ← and_assoc]
    refine and_congr_right fun _ => ?_
    simp only [Bool.not_eq_true', List.any_eq_false, Bool.and_eq_true, decide_eq_true_eq, not_and',
      Bool.not_eq_true]
  have hlisted : ∀ f, f ∈ (c.rotateRecordings now s).recordings.map Recording.path ↔
      ∃ r ∈ s.recordings, r.path = f ∧ c.expired now r = false := by
    intro f
    simp only [Recorder.rotateRecordings, List.mem_map, List.mem_filter, Bool.not_eq_true']
    grind
  simp only [hfiles, hlisted]
  constructor
  · intro hagree
    have hfalse : ∀ r ∈ s.recordings, ∀ r' ∈ s.recordings, r.path = r'.path → c.expired now r = false →
        c.expired now r' = false := fun r hr r' hr' hp he =>
      ((hagree r.path).mpr ⟨r, hr, rfl, he⟩).2 r' hr' hp.symm
    intro r hr r' hr' hp
    cases he : c.expired now r with
    | false => exact (hfalse r hr r' hr' hp he).symm
    | true =>
      cases he' : c.expired now r' with
      | true => rfl
      | false => exact he.symm.trans (hfalse r' hr' r hr hp.symm he')
  · intro hsame f
    constructor
    · rintro ⟨⟨r, hr, hp⟩, hall⟩
      exact ⟨r, hr, hp, hall r hr hp⟩
    · rintro ⟨r, hr, hp, he⟩
      refine ⟨⟨r, hr, hp⟩, fun r' hr' hp' => ?_⟩
      rw [hsame r' hr' r hr (hp'.trans hp.symm), he]

theorem tracked_finalize_iff (h : t.Tracked) (hn : t.Named) : (t.finalize n a).Tracked ↔ Kept n t a := by
  cases hr : a.removed with
  | true =>
    have hkept : (t.finalize n a).Tracked := by
      intro f
      rw [storage_finalize, if_pos hr, ← h f, ← mem_files_filter (a := a) hn]
      simp only [finalize, hr, if_true]
    exact iff_of_true hkept (.inl hr)
  | false =>
    have hcreated : (t.finalize n a).created = _ := created_finalize hr
    simp only [Tracked, Kept, storage_finalize, hcreated, hr, Bool.false_eq_true, if_false, false_or]
    cases hlong : a.tooLong n with
    | true =>
      simp only [if_true, mem_renamed h hn]
      change (∀ f, _ ↔ f ∈ t.storage.recordings.map Recording.path) ↔ _
      constructor
      · intro hall
        exact (hall _).mp (by simp)
      · intro hmem f
        rw [List.map_append, List.mem_append]
        refine or_iff_left_of_imp fun hf => ?_
        rwa [List.mem_singleton.mp hf]
    | false =>
      simp only [Bool.false_eq_true, if_false]
      exact rotate_agree_iff fun f => mem_renamed h hn

/-! ### Whole sessions -/

/-- The session at its start. -/
def opened (files : List Filename) : Session := ⟨⟨files, []⟩, []⟩

theorem exec_step (n : ℤ) (t : Session) (as : List FinalizedFragment) :
    exec (step n) t as = some (as.foldl (finalize n) t) := by
  induction as generalizing t with
  | nil => rfl
  | cons a as ih =>
    rw [exec_cons_eq_some]
    exact ⟨t.finalize n a, rfl, ih _⟩

/-- For every segment duration, directory and sequence of fragments: after each of them the recordings that were
made in the session and are on disk are those that are listed, exactly if each fragment meets `Kept`. The file of
the fragment is gone in any case. -/
theorem tracked_iff (n : ℤ) (files : List Filename) (as : List FinalizedFragment) :
    (Throughout (step n) Tracked (opened files) as ↔ Meets (step n) (Kept n) (opened files) as) ∧
      ∀ t a, a.filepath ∉ (finalize n t a).storage.files := by
  refine ⟨?_, fun t a => filepath_notMem n t a⟩
  apply throughout_iff_meets (I := fun t => t.Tracked ∧ t.Named) (L := fun _ => True)
  · rintro t a u ⟨ht, hn⟩ - hk hs
    obtain rfl := Option.some.inj hs
    exact ⟨(tracked_finalize_iff ht hn).mpr hk, named_finalize hn⟩
  · exact fun t ht => ht.1
  · rintro t a u ⟨ht, hn⟩ - hk hs
    obtain rfl := Option.some.inj hs
    exact fun hu => hk ((tracked_finalize_iff ht hn).mp hu)
  · exact ⟨fun f => by simp [opened], fun f hf => absurd hf List.not_mem_nil⟩
  · exact fun _ _ => trivial
  · exact exec_step n (opened files) as

/-- No key frame came for 25 seconds: the recording is within twice the duration of its fragment, but longer than
two segments. Its file stays in the directory and is not listed. -/
theorem long_recording_untracked :
    let a : FinalizedFragment := ⟨Recorder.noon, Recorder.noon, 25000, 25000, Recorder.noon + seconds 25⟩
    ((opened [a.filepath]).finalize 10 a).storage.files = [a.recording.path] ∧
      ((opened [a.filepath]).finalize 10 a).created = [a.recording.path] ∧
      ((opened [a.filepath]).finalize 10 a).storage.recordings = [] ∧
      ¬ ((opened [a.filepath]).finalize 10 a).Tracked := by
  intro a
  have hfiles : ((opened [a.filepath]).finalize 10 a).storage.files = [a.recording.path] := by decide +kernel
  have hcreated : ((opened [a.filepath]).finalize 10 a).created = [a.recording.path] := by decide +kernel
  have hlisted : ((opened [a.filepath]).finalize 10 a).storage.recordings = [] := by decide +kernel
  refine ⟨hfiles, hcreated, hlisted, fun h => ?_⟩
  have hmem := (h a.recording.path).mp (by simp [hfiles, hcreated])
  simp [hlisted] at hmem

end Session
end CloudAgent.Streamer
