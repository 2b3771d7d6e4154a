import CloudAgent.Agent.Manager
import CloudAgent.Utils.Date.Reference
import Mathlib.Data.List.Chain

/-! The time of a chunk on its way from the uploader to the manager: the start in text, the length
as a number. Both are cut off at microseconds, each by itself. -/
namespace CloudAgent.Agent
open Utils

/-- The fields of `get_direct_upload_url` that give the time of a chunk. -/
structure UploadTimes where
  fileTime : List Char
  duration : Int32
  durationUs : Duration
  deriving DecidableEq

namespace UploadTimes

/-- The fields as `__segment_step` fills them in for an exported clip. -/
def ofClip (clip : VideoClipInfo) : UploadTimes where
  fileTime := Time.toIsoPacked clip.tpStart
  duration := Int32.ofInt (Duration.toMilliseconds (clip.tpStop - clip.tpStart))
  durationUs := Duration.toMicroseconds (clip.tpStop - clip.tpStart) * 1000

/-- The constructor of `period` from a `get_direct_upload_url`. -/
def period (date : DateLibrary) (l : UploadTimes) : Period where
  beginTime := Time.fromIsoPacked date l.fileTime
  endTime := Time.fromIsoPacked date l.fileTime +
    if l.durationUs = 0 then l.duration.toInt * 1000000 else l.durationUs

/-- The request for a chunk as the manager reads it. -/
def request (date : DateLibrary) (l : UploadTimes) (r : Proto.GetDirectUploadUrl) : Proto.GetDirectUploadUrl :=
  { r with
    fileTime := Time.fromIsoPacked date l.fileTime
    duration := l.duration.toInt
    durationUs := l.durationUs }

/-- What `_request_direct_upload_video` keeps for the upload is an export of the period. -/
theorem requestDirectUploadVideo_period {env : UploadEnv} {m : Manager} {date : DateLibrary}
    {l : UploadTimes} {r : Proto.GetDirectUploadUrl}
    (h : (m.requestDirectUploadVideo env (l.request date r)).1 = true) :
    ∃ recordExport, env.lookupStream r.streamId = some recordExport ∧
      (m.requestDirectUploadVideo env (l.request date r)).2.records =
        m.records.insert r.msgid (recordExport (l.period date).beginTime (l.period date).endTime) := by
  have hstream : (l.request date r).streamId = r.streamId := rfl
  unfold Manager.requestDirectUploadVideo at h ⊢
  rw [hstream] at h ⊢
  cases hlookup : env.lookupStream r.streamId with
  | none =>
    rw [hlookup] at h
    exact absurd h Bool.false_ne_true
  | some recordExport =>
    rw [hlookup] at h
    refine ⟨recordExport, rfl, ?_⟩
    change _ = m.records.insert r.msgid (recordExport (l.request date r).fileTime
      ((l.request date r).fileTime + if (l.request date r).durationUs = 0 then
        (l.request date r).duration * 1000000 else (l.request date r).durationUs))
    dsimp only at h ⊢
    generalize recordExport (l.request date r).fileTime _ = clip at h ⊢
    split at h
    · rename_i hkept
      rw [if_pos hkept]
      rfl
    · exact absurd h Bool.false_ne_true

variable {date : DateLibrary}

/-- The start and the length of a chunk, each cut off at microseconds. -/
theorem period_ofClip (hdate : date.Documented) {clip : VideoClipInfo} (hstart : Time.InRange clip.tpStart)
    (hlength : clip.tpStart + 1000 ≤ clip.tpStop) :
    (ofClip clip).period date = ⟨clip.tpStart / 1000 * 1000,
      clip.tpStart / 1000 * 1000 + (clip.tpStop - clip.tpStart) / 1000 * 1000⟩ := by
  have hus : Duration.toMicroseconds (clip.tpStop - clip.tpStart) = (clip.tpStop - clip.tpStart) / 1000 :=
    Int.tdiv_eq_ediv_of_nonneg (by linarith)
  have hlong : ∀ d : ℤ, 1000 ≤ d → d / 1000 * 1000 ≠ 0 := by
    intro d hd
    omega
  have hne := hlong (clip.tpStop - clip.tpStart) (by linarith)
  simp only [period, ofClip, Time.fromIsoPacked_toIsoPacked hdate hstart, hus, if_neg hne,
    Time.floorMicroseconds]

/-- A chunk ends less than two microseconds before its clip. -/
theorem period_ofClip_end (hdate : date.Documented) {clip : VideoClipInfo}
    (hstart : Time.InRange clip.tpStart) (hlength : clip.tpStart + 1000 ≤ clip.tpStop) :
    0 ≤ clip.tpStop - ((ofClip clip).period date).endTime ∧
      clip.tpStop - ((ofClip clip).period date).endTime < 2000 := by
  rw [period_ofClip hdate hstart hlength]
  have hsum : ∀ a b : ℤ, 0 ≤ b - (a / 1000 * 1000 + (b - a) / 1000 * 1000) ∧
      b - (a / 1000 * 1000 + (b - a) / 1000 * 1000) < 2000 := by
    intro a b
    omega
  exact hsum clip.tpStart clip.tpStop

/-- Adjacent chunks leave at most one microsecond between them. -/
theorem period_adjacent (hdate : date.Documented) {c d : VideoClipInfo} (hc : Time.InRange c.tpStart)
    (hd : Time.InRange d.tpStart) (hclength : c.tpStart + 1000 ≤ c.tpStop)
    (hdlength : d.tpStart + 1000 ≤ d.tpStop) (hadj : c.tpStop = d.tpStart) :
    ((ofClip c).period date).endTime ≤ ((ofClip d).period date).beginTime ∧
      ((ofClip d).period date).beginTime - ((ofClip c).period date).endTime < 2000 := by
  rw [period_ofClip hdate hc hclength, period_ofClip hdate hd hdlength, hadj]
  have hfloor : ∀ a b : ℤ, a / 1000 * 1000 + (b - a) / 1000 * 1000 ≤ b / 1000 * 1000 ∧
      b / 1000 * 1000 - (a / 1000 * 1000 + (b - a) / 1000 * 1000) < 2000 := by
    intro a b
    omega
  exact hfloor c.tpStart d.tpStart

/-- In a run of adjacent clips since the epoch and before 2262, each a microsecond long or longer,
the chunks do not overlap, and less than two microseconds are lost between two chunks and at the
end of each. The text itself loses what is below a microsecond. -/
theorem chunks_adjacent (date : DateLibrary) (hdate : date.Documented) (clips : List VideoClipInfo)
    (hrange : ∀ c ∈ clips, Time.InRange c.tpStart ∧ c.tpStart + 1000 ≤ c.tpStop)
    (hadj : clips.IsChain fun c d => c.tpStop = d.tpStart) :
    (∀ t, Time.InRange t → Time.fromIsoPacked date (Time.toIsoPacked t) = Time.floorMicroseconds t) ∧
      ((clips.map fun c => (ofClip c).period date).IsChain fun p q =>
        p.endTime ≤ q.beginTime ∧ q.beginTime - p.endTime < 2000) ∧
      ∀ c ∈ clips, 0 ≤ c.tpStop - ((ofClip c).period date).endTime ∧
        c.tpStop - ((ofClip c).period date).endTime < 2000 := by
  refine ⟨fun t ht => Time.fromIsoPacked_toIsoPacked hdate ht, ?_, fun c hc => ?_⟩
  · apply (List.isChain_map _).mpr
    apply hadj.imp_of_mem_imp
    intro c d hc hd hcd
    exact period_adjacent hdate (hrange c hc).1 (hrange d hd).1 (hrange c hc).2 (hrange d hd).2 hcd
  · exact period_ofClip_end hdate (hrange c hc).1 (hrange c hc).2

/-- Three clips around midnight, none of whose ends is a whole microsecond. -/
def midnightClips : List VideoClipInfo :=
  [{ tpStart := 1704067199999999001, tpStop := 1704067200000000999 },
    { tpStart := 1704067200000000999, tpStop := 1704067200000002001 },
    { tpStart := 1704067200000002001, tpStop := 1704067205000000000 }]

theorem chunks_adjacent_midnight :
    Time.toIsoPacked 1704067199999999001 = "20231231T235959.999999".toList ∧
      Time.toIsoPacked 1704067200000000999 = "20240101T000000.000000".toList ∧
      ((midnightClips.map fun c => (ofClip c).period .reference).IsChain fun p q =>
        p.endTime ≤ q.beginTime ∧ q.beginTime - p.endTime < 2000) := by
  refine ⟨by decide, by decide, ?_⟩
  exact (chunks_adjacent .reference reference_documented midnightClips (by decide) (by
    simp [midnightClips])).2.1

end UploadTimes
end CloudAgent.Agent
