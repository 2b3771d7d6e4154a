import CloudAgent.Lib.Double
import CloudAgent.Streamer.Ffmpeg.Output

/-! The duration that an output reports. The last pts is remembered as it left, the first one as it came,
so the first one is subtracted twice. -/
namespace CloudAgent.Streamer.Ffmpeg
open Transition

/-- `(int) x`, for a number that fits. -/
def toInt (x : ℚ) : Option ℤ := if -2147483649 < x ∧ x < 2147483648 then some (x.num.tdiv x.den) else none

namespace OutStream

/-- What `duration` takes for the stream's length in ticks. -/
def reported (st : OutStream) : ℤ := st.lastOutPts - st.firstOutPts

/-- The stream's length in ticks: from the first pts that came to the last. -/
def ticks (st : OutStream) : ℤ :=
  match st.inPts with
  | some (first, last) => last - first
  | none => 0

/-- `av_q2d`. -/
def q2d (tb : ℤ × ℤ) : ℚ := Double.round (tb.1 / tb.2)

def seconds (st : OutStream) : ℚ := Double.round (Double.round st.reported * q2d st.timeBase)

/-- The stream's real length in seconds. -/
def length (st : OutStream) : ℚ := st.ticks * (st.timeBase.1 / st.timeBase.2)

/-- The first pts is zero, and the pts is not replaced, neither for a dts above it nor by the fix. -/
def Untouched (strict : ℤ) (st : OutStream) (t : Stamps) : Prop :=
  (st.inPts = none → t.pts = 0) ∧
    (st.inPts ≠ none →
      (t.pts < t.dts → st.lastOutDts + 1 ≤ t.pts) ∧
        (t.dts ≤ t.pts → NeedsFix strict st t → st.lastOutDts + strict ≤ t.pts))

instance (strict : ℤ) (st : OutStream) (t : Stamps) : Decidable (Untouched strict st t) := by
  unfold Untouched
  infer_instance

end OutStream

namespace Output
variable {n : ℕ}

/-- `duration`, in milliseconds. -/
def duration (o : Output n) : Option ℤ :=
  toInt (Double.round ((List.finRange n).foldl (fun m i => max (o.streams i).seconds m) 0 * 1000))

/-- The real duration in milliseconds: that of the longest stream. -/
def length (o : Output n) : ℚ := (List.finRange n).foldl (fun m i => max (o.streams i).length m) 0 * 1000

/-- The reported duration is the real one in whole milliseconds, up to the rounding of the arithmetic. -/
def ReportsDuration (o : Output n) : Prop :=
  o.length ≤ 2147483647 → ∃ d ∈ o.duration, 0 ≤ d ∧ d ≤ o.length * (1 + 1 / 2 ^ 50) ∧
    o.length * (1 - 1 / 2 ^ 50) < d + 1

/-- A packet with both timestamps, and a pts after those of its stream. -/
def Comes (o : Output n) (p : Packet n) : Prop :=
  p.pts ≠ noptsValue ∧ p.dts ≠ noptsValue ∧ ∀ x ∈ (o.streams p.stream).inPts, x.2 < p.pts

/-- After the packet the length of every stream and the duration are right. -/
def ReportsNext (o : Output n) (p : Packet n) : Prop :=
  (∀ i, ((o.checkFixTs p).streams i).reported = ((o.checkFixTs p).streams i).ticks) ∧
    (o.checkFixTs p).ReportsDuration

def IsUntouched (o : Output n) (p : Packet n) : Prop := (o.streams p.stream).Untouched o.strict p.toStamps

end Output

/-! ### One stream -/

namespace OutStream
variable {strict : ℤ} {st : OutStream} {t : Stamps}

/-- What the memory of a stream says as long as its packets meet `Untouched`. -/
structure FromZero (st : OutStream) : Prop where
  fresh : st.inPts = none →
    st.firstOutPts = noptsValue ∧ st.lastOutPts = noptsValue ∧ st.lastOutDts = noptsValue
  started : ∀ x ∈ st.inPts, x.1 = 0 ∧ 0 ≤ x.2 ∧ st.firstOutPts = 0 ∧ st.lastOutPts = x.2

theorem FromZero.opened (codecType : CodecType) (timeBase : ℤ × ℤ) : (opened codecType timeBase).FromZero where
  fresh := fun _ => ⟨rfl, rfl, rfl⟩
  started := fun _ hx => nomatch hx

theorem FromZero.of_started {x : ℤ × ℤ} (hin : st.inPts = some x)
    (h : x.1 = 0 ∧ 0 ≤ x.2 ∧ st.firstOutPts = 0 ∧ st.lastOutPts = x.2) : st.FromZero where
  fresh := fun hno => absurd (hin.symm.trans hno) (Option.some_ne_none x)
  started := by
    intro y hy
    obtain rfl := Option.some.inj (hin.symm.trans hy)
    exact h

theorem FromZero.reported (h : st.FromZero) : st.reported = st.ticks ∧ 0 ≤ st.ticks := by
  rw [OutStream.reported, ticks]
  cases hin : st.inPts with
  | none =>
    obtain ⟨hfirst, hlast, -⟩ := h.fresh hin
    rw [hfirst, hlast]
    exact ⟨Int.sub_self _, Int.le_refl _⟩
  | some x =>
    obtain ⟨first, last⟩ := x
    obtain ⟨rfl, hpos, hfirst, hlast⟩ := h.started (first, last) hin
    rw [hfirst, hlast]
    exact ⟨rfl, Int.sub_nonneg.mpr hpos⟩

theorem fix_pts (t : Stamps) (hle : t.dts ≤ t.pts) :
    (st.fix strict t).pts = if NeedsFix strict st t then max t.pts (st.lastOutDts + strict) else t.pts := by
  split
  · rename_i hfix
    rw [fix_of_needsFix hfix hle]
  · rename_i hno
    rw [fix, if_neg hno]

/-- The guess and the fix only make a pts larger. -/
theorem fix_guess_pts (hstrict : strict = 0 ∨ strict = 1) (hp : t.pts ≠ noptsValue) (hd : t.dts ≠ noptsValue) :
    (st.fix strict (st.guess t)).pts = t.pts ↔
      (t.pts < t.dts → st.lastOutDts + 1 ≤ t.pts) ∧
        (t.dts ≤ t.pts → NeedsFix strict st t → st.lastOutDts + strict ≤ t.pts) := by
  by_cases hlt : t.pts < t.dts
  · have hguess : st.guess t = ⟨(st.guess t).pts, (st.guess t).pts⟩ := by
      rw [guess, if_pos ⟨hd, hp, hlt⟩]
    have hmiddle : t.pts ≤ (st.guess t).pts ∧ ((st.guess t).pts ≤ t.pts ↔ st.lastOutDts + 1 ≤ t.pts) := by
      rw [guess, if_pos ⟨hd, hp, hlt⟩]
      dsimp only
      omega
    rw [hguess, fix_pts _ (Int.le_refl _)]
    simp only [hlt, Int.not_le.mpr hlt, forall_const, IsEmpty.forall_iff, and_true, ← hmiddle.2]
    split
    · rename_i hfix
      have hlow : (st.guess t).pts < st.lastOutDts + strict := hfix.2.2.2
      omega
    · omega
  · have hguess : st.guess t = t := if_neg fun h => hlt h.2.2
    rw [hguess, fix_pts _ (Int.not_lt.mp hlt)]
    simp only [hlt, Int.not_lt.mp hlt, forall_const, IsEmpty.forall_iff, true_and]
    split
    · rename_i hfix
      simp only [hfix, forall_const]
      omega
    · rename_i hno
      simp only [hno, IsEmpty.forall_iff]

/-- After the first packet of a stream minus its pts is reported. -/
theorem FromZero.checkFixTs_first (h : st.FromZero) (hstrict : strict = 0 ∨ strict = 1) (hin : st.inPts = none)
    (hp : noptsValue < t.pts) (hd : t.dts ≠ noptsValue) :
    (st.checkFixTs strict t).firstOutPts = t.pts ∧ (st.checkFixTs strict t).lastOutPts = 0 ∧
      (st.checkFixTs strict t).inPts = some (t.pts, t.pts) := by
  obtain ⟨hfirst, -, hlast⟩ := h.fresh hin
  have hpts : (st.fix strict (st.guess t)).pts = t.pts := by
    refine (fix_guess_pts hstrict (by omega) hd).mpr ⟨fun _ => ?_, fun _ hfix => absurd hlast hfix.2.2.1⟩
    omega
  have hne : t.pts ≠ noptsValue := by omega
  refine ⟨?_, ?_, ?_⟩
  · simp only [OutStream.checkFixTs, hpts, hfirst, origin]
    exact if_pos ⟨hne, trivial⟩
  · simp only [OutStream.checkFixTs, fixed, shift, hpts, hfirst]
    exact shifted_origin_first hne
  · simp only [OutStream.checkFixTs, hin]
    exact if_pos hne

/-- After every other packet the pts is reported that the guess and the fix gave it. -/
theorem FromZero.checkFixTs_next (strict : ℤ) (h : st.FromZero) {x : ℤ × ℤ} (hin : st.inPts = some x)
    (hp : t.pts ≠ noptsValue) :
    (st.checkFixTs strict t).firstOutPts = 0 ∧
      (st.checkFixTs strict t).lastOutPts = (st.fix strict (st.guess t)).pts ∧
      (st.checkFixTs strict t).inPts = some (0, t.pts) := by
  obtain ⟨hzero, -, hfirst, -⟩ := h.started x hin
  have hset : (0 : ℤ) ≠ noptsValue := by decide
  refine ⟨?_, ?_, ?_⟩
  · simp only [OutStream.checkFixTs, hfirst, origin]
    exact if_neg fun hno => hset hno.2
  · simp only [OutStream.checkFixTs, fixed, shift, hfirst, shifted_origin_set hset]
    exact Int.sub_zero _
  · simp only [OutStream.checkFixTs, hin, Option.map_some, Option.getD_some, hzero]
    exact if_pos hp

theorem FromZero.reports_iff (h : st.FromZero) (hstrict : strict = 0 ∨ strict = 1) (hp : noptsValue < t.pts)
    (hd : t.dts ≠ noptsValue) :
    (st.checkFixTs strict t).reported = (st.checkFixTs strict t).ticks ↔ st.Untouched strict t := by
  cases hin : st.inPts with
  | none =>
    obtain ⟨hfirst, hlast, hpts⟩ := h.checkFixTs_first hstrict hin hp hd
    simp only [OutStream.reported, ticks, Untouched, hfirst, hlast, hpts, hin, forall_const, ne_eq,
      not_true_eq_false, IsEmpty.forall_iff, and_true]
    omega
  | some x =>
    have hne : t.pts ≠ noptsValue := by omega
    obtain ⟨hfirst, hlast, hpts⟩ := h.checkFixTs_next strict hin hne
    rw [Untouched, ← fix_guess_pts hstrict hne hd]
    simp only [OutStream.reported, ticks, hfirst, hlast, hpts, hin, reduceCtorEq, IsEmpty.forall_iff, true_and,
      ne_eq, not_false_eq_true, forall_const]
    omega

theorem FromZero.checkFixTs (h : st.FromZero) (hstrict : strict = 0 ∨ strict = 1) (hp : noptsValue < t.pts)
    (hd : t.dts ≠ noptsValue) (hlast : ∀ x ∈ st.inPts, x.2 < t.pts) (hu : st.Untouched strict t) :
    (st.checkFixTs strict t).FromZero := by
  cases hin : st.inPts with
  | none =>
    obtain ⟨hfirst, hzero, hpts⟩ := h.checkFixTs_first hstrict hin hp hd
    have hz := hu.1 hin
    exact .of_started hpts ⟨hz, hz.ge, hfirst.trans hz, hzero.trans hz.symm⟩
  | some y =>
    have hne : t.pts ≠ noptsValue := by omega
    obtain ⟨hfirst, hnext, hpts⟩ := h.checkFixTs_next strict hin hne
    have hpos := (h.started y hin).2.1
    have hlt := hlast y hin
    have hsame := (fix_guess_pts hstrict hne hd).mpr (hu.2 (by simp [hin]))
    exact .of_started hpts ⟨rfl, by dsimp only; omega, hfirst, hnext.trans hsame⟩

/-- The length in seconds after three operations that round. -/
theorem seconds_near (hr : st.reported = st.ticks ∧ 0 ≤ st.ticks) (htb : 0 < st.timeBase.1 ∧ 0 < st.timeBase.2) :
    0 ≤ st.length ∧ Double.Near (4 * Double.unit) st.length st.seconds := by
  have hunit : 0 ≤ Double.unit := by decide +kernel
  have hticks : (0 : ℚ) ≤ st.ticks := Int.cast_nonneg hr.2
  have hbase : (0 : ℚ) ≤ st.timeBase.1 / st.timeBase.2 :=
    div_nonneg (Int.cast_nonneg htb.1.le) (Int.cast_nonneg htb.2.le)
  refine ⟨mul_nonneg hticks hbase, ?_⟩
  rw [seconds, hr.1]
  have hproduct := (Double.near_round st.ticks).mul (Double.near_round (st.timeBase.1 / st.timeBase.2)) hunit
  exact (hproduct.trans (Double.near_round _) hunit).mono (by decide +kernel)

end OutStream

/-! ### The duration -/

theorem toInt_of_nonneg {x : ℚ} (h : 0 ≤ x) (hlt : x < 2147483648) :
    ∃ d ∈ toInt x, 0 ≤ d ∧ d ≤ x ∧ x < d + 1 := by
  have hfloor : x.num.tdiv x.den = ⌊x⌋ := by
    rw [Int.tdiv_eq_ediv_of_nonneg (Rat.num_nonneg.mpr h), Rat.floor_def']
  refine ⟨⌊x⌋, ?_, Int.floor_nonneg.mpr h, Int.floor_le x, Int.lt_floor_add_one x⟩
  rw [toInt, if_pos ⟨by linarith, hlt⟩, hfloor]
  exact rfl

namespace Output
variable {n : ℕ} {o : Output n} {p : Packet n}

instance (o : Output n) : Decidable o.ReportsDuration := by
  unfold ReportsDuration
  infer_instance

instance (o : Output n) (p : Packet n) : Decidable (o.Comes p) := by
  unfold Comes
  infer_instance

instance (o : Output n) (p : Packet n) : Decidable (o.IsUntouched p) := by
  unfold IsUntouched
  infer_instance

/-- The lengths of all streams are right, and their time bases are positive. -/
structure Right (o : Output n) : Prop where
  fromZero : ∀ i, (o.streams i).FromZero
  timeBase : ∀ i, 0 < (o.streams i).timeBase.1 ∧ 0 < (o.streams i).timeBase.2

theorem strict_eq (o : Output n) : o.strict = 0 ∨ o.strict = 1 := by
  unfold strict
  split
  · exact .inl rfl
  · exact .inr rfl

theorem Right.reportsDuration (h : o.Right) : o.ReportsDuration := by
  intro hfits
  obtain ⟨hpos, hnear⟩ := Double.near_foldl_max (u := 4 * Double.unit) (x := 0) (y := 0) (by decide +kernel)
    (by decide +kernel) (List.finRange n)
    (fun i _ => OutStream.seconds_near (h.fromZero i).reported (h.timeBase i)) le_rfl
    (Double.near_refl (by decide +kernel) 0)
  let y := Double.round ((List.finRange n).foldl (fun m i => max (o.streams i).seconds m) 0 * 1000)
  have hlength : 0 ≤ o.length := mul_nonneg hpos (by norm_num)
  have hy : Double.Near (1 / 2 ^ 50) o.length y := by
    have hscaled := (hnear.mul_right 1000).trans (Double.near_round _) (by decide +kernel)
    exact hscaled.mono (by decide +kernel)
  obtain ⟨hlow, hhigh⟩ := (Double.near_iff hlength).mp hy
  have hfit : y < 2147483648 := by
    have hle : o.length * (1 + 1 / 2 ^ 50) ≤ 2147483647 * (1 + 1 / 2 ^ 50) :=
      mul_le_mul_of_nonneg_right hfits (by norm_num)
    have hlt : (2147483647 : ℚ) * (1 + 1 / 2 ^ 50) < 2147483648 := by norm_num
    linarith
  obtain ⟨d, hd, hd0, hdle, hdlt⟩ := toInt_of_nonneg (hy.nonneg hlength (by norm_num)) hfit
  exact ⟨d, hd, hd0, hdle.trans hhigh, hlow.trans_lt hdlt⟩

theorem Right.checkFixTs (h : o.Right) (hp : o.Comes p) (hu : o.IsUntouched p) : (o.checkFixTs p).Right := by
  obtain ⟨hpts, hdts, hlast⟩ := hp
  have hlower := p.lower.1
  have hstream := (h.fromZero p.stream).checkFixTs o.strict_eq (by omega) hdts hlast hu
  have htimeBase := forall_checkFixTs (P := fun st => 0 < st.timeBase.1 ∧ 0 < st.timeBase.2) h.timeBase
    (h.timeBase p.stream)
  exact ⟨forall_checkFixTs h.fromZero hstream, htimeBase⟩

theorem Right.reportsNext_iff_untouched (h : o.Right) (hp : o.Comes p) : o.ReportsNext p ↔ o.IsUntouched p := by
  have hpts : noptsValue < p.pts := by
    have hlower := p.lower.1
    have hne := hp.1
    omega
  constructor
  · intro hr
    have hstream := hr.1 p.stream
    rw [checkFixTs_self] at hstream
    exact ((h.fromZero p.stream).reports_iff o.strict_eq hpts hp.2.1).mp hstream
  · intro hu
    have hnext := h.checkFixTs hp hu
    exact ⟨fun i => (hnext.fromZero i).reported.1, hnext.reportsDuration⟩

end Output
end CloudAgent.Streamer.Ffmpeg
