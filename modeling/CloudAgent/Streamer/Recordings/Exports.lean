import CloudAgent.Streamer.Recordings

/-! Which recordings are exported for a period of time. The sink compares the periods, the two
streams look where the ends of the request lie. -/
namespace CloudAgent.Streamer
open Utils

/-- The recording has an instant of the request. -/
def Recording.intersects (r : Recording) (begin «end» : Time) : Bool := r.begin < «end» && begin < r.end

/-- The recording begins and ends between the ends of the request. -/
def Recording.enclosed (r : Recording) (begin «end» : Time) : Bool := begin < r.begin && r.end < «end»

namespace Recorder

/-- The test of `export_recordings`. -/
def exports (c : Recorder) (begin «end» : Time) (r : Recording) : Bool :=
  match c with
  | .mp4RecorderSink _ => begin < r.end && «end» > r.begin
  | .rtspMp4RecordingStream | .rtspSegmentedMp4RecordingStream =>
    (begin ≥ r.begin && begin < r.end) || («end» > r.begin && «end» ≤ r.end)

/-- The class is one of the two streams. -/
def stream : Recorder → Bool
  | .mp4RecorderSink _ => false
  | .rtspMp4RecordingStream | .rtspSegmentedMp4RecordingStream => true

/-- `export_recordings`. -/
def exportRecordings (c : Recorder) (recordings : List Recording) (begin «end» : Time) : List Recording :=
  recordings.filter (c.exports begin «end»)

variable {c : Recorder} {begin «end» : Time}

/-- Looking where the ends of the request lie misses the recordings between them. -/
theorem endsLie_iff (h : begin < «end») (r : Recording) :
    (begin ≥ r.begin ∧ begin < r.end ∨ «end» > r.begin ∧ «end» ≤ r.end) ↔
      (r.begin < «end» ∧ begin < r.end) ∧ ¬ (begin < r.begin ∧ r.end < «end») := by
  constructor
  · rintro (⟨h1, h2⟩ | ⟨h1, h2⟩)
    · exact ⟨⟨h1.trans_lt h, h2⟩, fun hin => absurd hin.1 (not_lt.mpr h1)⟩
    · exact ⟨⟨h1, h.trans_le h2⟩, fun hin => absurd hin.2 (not_lt.mpr h2)⟩
  · rintro ⟨⟨h1, h2⟩, hin⟩
    rcases lt_or_ge begin r.begin with hlt | hge
    · exact .inr ⟨h1, not_lt.mp fun hend => hin ⟨hlt, hend⟩⟩
    · exact .inl ⟨hge, h2⟩

theorem exports_iff (c : Recorder) (h : begin < «end») (r : Recording) :
    c.exports begin «end» r = true ↔
      r.intersects begin «end» = true ∧ (c.stream = true → r.enclosed begin «end» = false) := by
  have hstream := endsLie_iff h r
  cases c with
  | mp4RecorderSink n => simp [exports, Recording.intersects, stream, and_comm]
  | rtspMp4RecordingStream =>
    simpa [exports, Recording.intersects, Recording.enclosed, stream] using hstream
  | rtspSegmentedMp4RecordingStream =>
    simpa [exports, Recording.intersects, Recording.enclosed, stream] using hstream

/-- All three classes export exactly the recordings that intersect the request, for every list and
request, exactly if no recording that intersects it lies between its ends. -/
theorem exportRecordings_agree_iff (recordings : List Recording) (begin «end» : Time) (h : begin < «end») :
    (∀ c : Recorder, c.exportRecordings recordings begin «end» =
        recordings.filter fun r => r.begin < «end» && begin < r.end) ↔
      ∀ r ∈ recordings, r.begin < «end» → begin < r.end → ¬ (begin < r.begin ∧ r.end < «end») := by
  constructor
  · intro hagree r hr h1 h2 hin
    have hmem : r ∈ rtspMp4RecordingStream.exportRecordings recordings begin «end» := by
      rw [hagree, List.mem_filter]
      exact ⟨hr, by simp [h1, h2]⟩
    have hnot := ((exports_iff _ h r).mp (List.mem_filter.mp hmem).2).2 rfl
    simp [Recording.enclosed, hin.1, hin.2] at hnot
  · intro hnone c
    apply List.filter_congr
    intro r hr
    have hout := hnone r hr
    rw [Bool.eq_iff_iff, exports_iff c h]
    constructor
    · exact And.left
    · intro hint
      refine ⟨hint, fun _ => ?_⟩
      simp only [Bool.and_eq_true, decide_eq_true_eq] at hint
      simpa [Recording.enclosed] using hout hint.1 hint.2

/-- A request that begins and ends within a recording. -/
theorem exportRecordings_agree_ends :
    (mp4RecorderSink 10).exportRecordings [⟨[], 10, 20⟩, ⟨[], 20, 30⟩, ⟨[], 30, 40⟩] 15 25 =
        [⟨[], 10, 20⟩, ⟨[], 20, 30⟩] ∧
      rtspMp4RecordingStream.exportRecordings [⟨[], 10, 20⟩, ⟨[], 20, 30⟩, ⟨[], 30, 40⟩] 15 25 =
        [⟨[], 10, 20⟩, ⟨[], 20, 30⟩] ∧
      rtspSegmentedMp4RecordingStream.exportRecordings [⟨[], 10, 20⟩, ⟨[], 20, 30⟩, ⟨[], 30, 40⟩] 15 25 =
        [⟨[], 10, 20⟩, ⟨[], 20, 30⟩] := by
  have h := (exportRecordings_agree_iff [⟨[], 10, 20⟩, ⟨[], 20, 30⟩, ⟨[], 30, 40⟩] 15 25 (by decide)).mpr (by decide)
  exact ⟨h _, h _, h _⟩

/-- A stream leaves out the recording in the middle of a request. -/
theorem exportRecordings_enclosed :
    (mp4RecorderSink 10).exportRecordings [⟨[], 20, 30⟩] 10 40 = [⟨[], 20, 30⟩] ∧
      rtspMp4RecordingStream.exportRecordings [⟨[], 20, 30⟩] 10 40 = [] ∧
      rtspSegmentedMp4RecordingStream.exportRecordings [⟨[], 20, 30⟩] 10 40 = [] := by
  decide

end Recorder
end CloudAgent.Streamer
