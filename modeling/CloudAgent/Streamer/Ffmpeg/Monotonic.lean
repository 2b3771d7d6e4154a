import CloudAgent.Streamer.Ffmpeg.Output

/-! Whether the muxer sees monotonic timestamps. A dts that comes in is compared with the last one that
left, from which the first one was subtracted. -/
namespace CloudAgent.Streamer.Ffmpeg
open Transition

namespace OutStream

/-- The packet as it would leave without the fix of its dts. -/
def unfixed (st : OutStream) (t : Stamps) : Stamps := st.shift (st.guess t)

def audioVideo (st : OutStream) : Prop := st.codecType = .audio ∨ st.codecType = .video

instance (st : OutStream) : Decidable st.audioVideo := inferInstanceAs (Decidable (_ ∨ _))

/-- What the muxer may expect of a packet: the dts of an audio or video stream start at zero and increase, the fix does
not bring the dts above the pts, and what was missing is missing. -/
structure Monotonic (strict : ℤ) (st : OutStream) (t : Stamps) : Prop where
  increasing : st.audioVideo → t.dts ≠ noptsValue → ∀ m ∈ st.outDts, m + strict ≤ (st.fixed strict t).dts
  starts : st.audioVideo → t.dts ≠ noptsValue → st.outDts = none → (st.fixed strict t).dts = 0
  ordered : t.pts ≠ noptsValue → t.dts ≠ noptsValue → (st.unfixed t).dts ≤ (st.unfixed t).pts →
    (st.fixed strict t).dts ≤ (st.fixed strict t).pts
  missingPts : t.pts = noptsValue → (st.fixed strict t).pts = noptsValue
  missingDts : t.dts = noptsValue → (st.fixed strict t).dts = noptsValue

instance (strict : ℤ) (st : OutStream) (t : Stamps) : Decidable (Monotonic strict st t) :=
  decidable_of_iff
    ((st.audioVideo → t.dts ≠ noptsValue → ∀ m ∈ st.outDts, m + strict ≤ (st.fixed strict t).dts) ∧
      (st.audioVideo → t.dts ≠ noptsValue → st.outDts = none → (st.fixed strict t).dts = 0) ∧
      (t.pts ≠ noptsValue → t.dts ≠ noptsValue → (st.unfixed t).dts ≤ (st.unfixed t).pts →
        (st.fixed strict t).dts ≤ (st.fixed strict t).pts) ∧
      (t.pts = noptsValue → (st.fixed strict t).pts = noptsValue) ∧
      (t.dts = noptsValue → (st.fixed strict t).dts = noptsValue))
    ⟨fun h => ⟨h.1, h.2.1, h.2.2.1, h.2.2.2.1, h.2.2.2.2⟩, fun h => ⟨h.1, h.2, h.3, h.4, h.5⟩⟩

/-- A dts comes after the one before it, or it is fixed and the first one is not positive. -/
def Increases (strict : ℤ) (st : OutStream) (t : Stamps) : Prop :=
  ∀ m ∈ st.outDts,
    m + strict ≤ (st.guess t).dts - st.firstOutDts ∨ NeedsFix strict st (st.guess t) ∧ st.firstOutDts ≤ 0

/-- A dts that is fixed does not get above the pts, or was above it already. -/
def KeepsOrder (strict : ℤ) (st : OutStream) (t : Stamps) : Prop :=
  NeedsFix strict st (st.guess t) →
    (st.firstOutPts = noptsValue →
      st.firstOutDts < (st.guess t).dts ∨ st.lastOutDts + strict ≤ st.firstOutDts) ∧
    (st.firstOutPts ≠ noptsValue →
      st.firstOutPts ≤ st.firstOutDts ∨
        (st.guess t).pts - st.firstOutPts < (st.guess t).dts - st.firstOutDts ∨
        st.lastOutDts + strict - st.firstOutDts ≤ (st.guess t).pts - st.firstOutPts)

/-- The first timestamps do no harm where they are subtracted. -/
structure Harmless (strict : ℤ) (st : OutStream) (t : Stamps) : Prop where
  missingPts : t.pts = noptsValue → st.firstOutPts = noptsValue ∨ st.firstOutPts = 0
  missingDts : t.dts = noptsValue → st.firstOutDts = noptsValue ∨ st.firstOutDts = 0
  increases : st.audioVideo → t.dts ≠ noptsValue → Increases strict st t
  keepsOrder : t.pts ≠ noptsValue → t.dts ≠ noptsValue → KeepsOrder strict st t

instance (strict : ℤ) (st : OutStream) (t : Stamps) : Decidable (Increases strict st t) := by
  unfold Increases
  infer_instance

instance (strict : ℤ) (st : OutStream) (t : Stamps) : Decidable (KeepsOrder strict st t) := by
  unfold KeepsOrder
  infer_instance

instance (strict : ℤ) (st : OutStream) (t : Stamps) : Decidable (Harmless strict st t) :=
  decidable_of_iff
    ((t.pts = noptsValue → st.firstOutPts = noptsValue ∨ st.firstOutPts = 0) ∧
      (t.dts = noptsValue → st.firstOutDts = noptsValue ∨ st.firstOutDts = 0) ∧
      (st.audioVideo → t.dts ≠ noptsValue → Increases strict st t) ∧
      (t.pts ≠ noptsValue → t.dts ≠ noptsValue → KeepsOrder strict st t))
    ⟨fun h => ⟨h.1, h.2.1, h.2.2.1, h.2.2.2⟩, fun h => ⟨h.1, h.2, h.3, h.4⟩⟩

/-- What the memory of a stream says as long as its packets meet `Harmless`. -/
structure Consistent (st : OutStream) : Prop where
  unset : st.outDts = none → st.firstOutDts = noptsValue ∧ st.lastOutDts = noptsValue
  set : ∀ m ∈ st.outDts, st.firstOutDts ≠ noptsValue ∧ (st.lastOutDts = noptsValue ∨ st.lastOutDts = m)

variable {strict : ℤ} {st : OutStream} {t : Stamps}

theorem Consistent.opened (codecType : CodecType) (timeBase : ℤ × ℤ) : (opened codecType timeBase).Consistent where
  unset := fun _ => ⟨rfl, rfl⟩
  set := fun _ hm => nomatch hm

/-! ### Packets without a dts or a pts -/

theorem fix_guess_of_missingDts (h : t.dts = noptsValue) : st.fix strict (st.guess t) = t := by
  rw [guess_of_nopts (.inr h), fix, if_neg fun hfix => hfix.2.1 h]

theorem fixed_of_missingDts (h : t.dts = noptsValue) :
    (st.fixed strict t).dts = noptsValue ↔ st.firstOutDts = noptsValue ∨ st.firstOutDts = 0 := by
  rw [fixed, fix_guess_of_missingDts h, shift, h]
  exact shifted_origin_nopts _

theorem fix_guess_of_missingPts (h : t.pts = noptsValue) (hd : noptsValue ≤ t.dts) :
    (st.fix strict (st.guess t)).pts = noptsValue := by
  rw [guess_of_nopts (.inl h), fix]
  split
  · rename_i hfix
    have hlt : t.dts ≠ noptsValue := hfix.2.1
    exact (if_neg (by omega)).trans h
  · exact h

theorem fixed_of_missingPts (h : t.pts = noptsValue) (hd : noptsValue ≤ t.dts) :
    (st.fixed strict t).pts = noptsValue ↔ st.firstOutPts = noptsValue ∨ st.firstOutPts = 0 := by
  rw [fixed, shift, fix_guess_of_missingPts h hd]
  exact shifted_origin_nopts _

/-! ### Packets with a dts -/

/-- The guess leaves a dts set. -/
theorem guess_dts_ne (hp : noptsValue ≤ t.pts) (hd : noptsValue ≤ t.dts) (h : t.dts ≠ noptsValue) :
    (st.guess t).dts ≠ noptsValue := by
  by_cases hpts : t.pts = noptsValue
  · rwa [guess_of_nopts (.inl hpts)]
  · have hset := (@guess_set st t (by omega) (by omega)).2.1
    omega

theorem fix_dts (t : Stamps) :
    (st.fix strict t).dts = if NeedsFix strict st t then st.lastOutDts + strict else t.dts := by
  unfold fix
  split <;> rfl

/-- The first dts of a stream leaves as zero. -/
theorem Consistent.fixed_first (h : st.Consistent) (hnone : st.outDts = none)
    (hne : (st.guess t).dts ≠ noptsValue) : (st.fixed strict t).dts = 0 := by
  obtain ⟨hfirst, hlast⟩ := h.unset hnone
  have hno : ¬ NeedsFix strict st (st.guess t) := fun hfix => hfix.2.2.1 hlast
  rw [fixed, shift, fix, if_neg hno, hfirst]
  exact shifted_origin_first hne

theorem Consistent.fixed_dts (h : st.Consistent) {m : ℤ} (hm : m ∈ st.outDts) :
    (st.fixed strict t).dts =
      (if NeedsFix strict st (st.guess t) then m + strict else (st.guess t).dts) - st.firstOutDts := by
  obtain ⟨hfirst, hlast⟩ := h.set m hm
  rw [fixed, shift]
  dsimp only
  rw [shifted_origin_set hfirst, fix_dts]
  split
  · rename_i hfix
    rw [hlast.resolve_left hfix.2.2.1]
  · rfl

theorem Consistent.increases_iff (h : st.Consistent) {m : ℤ} (hm : m ∈ st.outDts) :
    m + strict ≤ (st.fixed strict t).dts ↔
      m + strict ≤ (st.guess t).dts - st.firstOutDts ∨
        NeedsFix strict st (st.guess t) ∧ st.firstOutDts ≤ 0 := by
  rw [h.fixed_dts hm]
  split
  · rename_i hfix
    have hlast := (h.set m hm).2.resolve_left hfix.2.2.1
    have hlt := hfix.2.2.2
    simp only [hfix, true_and]
    omega
  · rename_i hno
    simp only [hno, false_and, or_false]

/-- Only a fix can bring the dts above the pts. -/
theorem Consistent.keepsOrder_iff (h : st.Consistent) (hp : noptsValue < t.pts) (hd : noptsValue < t.dts) :
    ((st.unfixed t).dts ≤ (st.unfixed t).pts → (st.fixed strict t).dts ≤ (st.fixed strict t).pts) ↔
      KeepsOrder strict st t := by
  obtain ⟨hgp, hgd, hle⟩ := @guess_set st t hp hd
  by_cases hfix : NeedsFix strict st (st.guess t)
  · have hfirst : st.firstOutDts ≠ noptsValue := by
      cases hout : st.outDts with
      | none => exact absurd (h.unset hout).2 hfix.2.2.1
      | some m => exact (h.set m hout).1
    rw [KeepsOrder, forall_prop_of_true hfix, unfixed, fixed, fix_of_needsFix hfix hle, shift, shift]
    dsimp only
    rw [shifted_origin_set hfirst, shifted_origin_set hfirst]
    by_cases hpts : st.firstOutPts = noptsValue
    · rw [hpts, shifted_origin_first (by omega), shifted_origin_first (by omega)]
      simp only [ne_eq, not_true_eq_false, IsEmpty.forall_iff, and_true, forall_const]
      omega
    · rw [shifted_origin_set hpts, shifted_origin_set hpts]
      simp only [hpts, ne_eq, not_false_eq_true, IsEmpty.forall_iff, true_and, forall_const]
      omega
  · refine iff_of_true (fun hle => ?_) fun hyes => absurd hyes hfix
    rwa [fixed, fix, if_neg hfix]

/-! ### One packet -/

theorem Consistent.monotonic_iff (h : st.Consistent) (hlower : noptsValue ≤ t.pts ∧ noptsValue ≤ t.dts) :
    Monotonic strict st t ↔ Harmless strict st t := by
  obtain ⟨hp, hd⟩ := hlower
  constructor
  · intro hm
    refine ⟨fun hno => ?_, fun hno => ?_, fun hav hset m hout => ?_, fun hset hset' => ?_⟩
    · exact (fixed_of_missingPts hno hd).mp (hm.missingPts hno)
    · exact (fixed_of_missingDts hno).mp (hm.missingDts hno)
    · exact (h.increases_iff hout).mp (hm.increasing hav hset m hout)
    · exact (h.keepsOrder_iff (by omega) (by omega)).mp (hm.ordered hset hset')
  · intro hh
    refine ⟨fun hav hset m hout => ?_, fun _ hset hnone => ?_, fun hset hset' => ?_, fun hno => ?_, fun hno => ?_⟩
    · exact (h.increases_iff hout).mpr (hh.increases hav hset m hout)
    · exact h.fixed_first hnone (guess_dts_ne hp hd hset)
    · exact (h.keepsOrder_iff (by omega) (by omega)).mpr (hh.keepsOrder hset hset')
    · exact (fixed_of_missingPts hno hd).mpr (hh.missingPts hno)
    · exact (fixed_of_missingDts hno).mpr (hh.missingDts hno)

theorem Consistent.checkFixTs (h : st.Consistent) (hlower : noptsValue ≤ t.pts ∧ noptsValue ≤ t.dts)
    (hh : Harmless strict st t) : (st.checkFixTs strict t).Consistent := by
  by_cases hset : t.dts = noptsValue
  · have hout : (st.fixed strict t).dts = noptsValue := (fixed_of_missingDts hset).mpr (hh.missingDts hset)
    have hfirst : origin st.firstOutDts (st.fix strict (st.guess t)).dts = st.firstOutDts := by
      rw [fix_guess_of_missingDts hset, origin, if_neg fun hno => hno.1 hset]
    simp only [OutStream.checkFixTs, hset, hout, hfirst, ne_eq, not_true_eq_false, if_false]
    exact ⟨fun hnone => ⟨(h.unset hnone).1, rfl⟩, fun m hm => ⟨(h.set m hm).1, .inl rfl⟩⟩
  · have hguess := @guess_dts_ne st t hlower.1 hlower.2 hset
    have hfirst : origin st.firstOutDts (st.fix strict (st.guess t)).dts ≠ noptsValue := by
      by_cases hfd : st.firstOutDts = noptsValue
      · have hnone : st.outDts = none := by
          cases hout : st.outDts with
          | none => rfl
          | some m => exact absurd hfd (h.set m hout).1
        have hno : ¬ NeedsFix strict st (st.guess t) := fun hfix => hfix.2.2.1 (h.unset hnone).2
        rwa [fix, if_neg hno, origin, if_pos ⟨hguess, hfd⟩]
      · rwa [origin, if_neg fun hno => hfd hno.2]
    simp only [OutStream.checkFixTs, hset, ne_eq, not_false_eq_true, if_true]
    exact ⟨fun hnone => absurd hnone (Option.some_ne_none _), fun m hm => ⟨hfirst, .inr (Option.some.inj hm)⟩⟩

end OutStream

namespace Output
variable {n : ℕ}

/-- The packet leaves as the muxer may expect. -/
def LeavesMonotonic (o : Output n) (p : Packet n) : Prop := (o.streams p.stream).Monotonic o.strict p.toStamps

/-- The first timestamps of the packet's stream do no harm. -/
def IsHarmless (o : Output n) (p : Packet n) : Prop := (o.streams p.stream).Harmless o.strict p.toStamps

instance (o : Output n) (p : Packet n) : Decidable (o.LeavesMonotonic p) := by
  unfold LeavesMonotonic
  infer_instance

instance (o : Output n) (p : Packet n) : Decidable (o.IsHarmless p) := by
  unfold IsHarmless
  infer_instance

/-- For every format, every number and kinds of streams and every sequence of packets: all packets leave as the muxer
may expect exactly if all of them meet `Harmless`. -/
theorem leavesMonotonic_iff (nonstrict : Bool) (kinds : Fin n → CodecType × (ℤ × ℤ)) (ps : List (Packet n)) :
    Meets step LeavesMonotonic (opened nonstrict kinds) ps ↔ Meets step IsHarmless (opened nonstrict kinds) ps := by
  refine meets_iff_meets (I := fun o => ∀ i, (o.streams i).Consistent) (L := fun _ _ => True) ?_
    (fun o p ho _ => (ho p.stream).monotonic_iff p.lower) (fun i => .opened _ _) (.of_forall_mem fun _ _ _ => trivial)
  intro o p o' ho _ hok hs
  obtain rfl := Option.some.inj hs
  exact forall_checkFixTs ho ((ho p.stream).checkFixTs p.lower hok)

/-- An output with one video stream, in milliseconds. -/
def oneVideo : Output 1 := opened false fun _ => (.video, 1, 1000)

/-- The first dts is subtracted after the third packet was compared with what the second one left as: it leaves with a
dts below zero. And a missing dts is shifted once the first one was not zero. -/
theorem not_leavesMonotonic :
    let late : List (Packet 1) :=
      [⟨⟨1000, 1000⟩, 0, by decide⟩, ⟨⟨1040, 1040⟩, 0, by decide⟩, ⟨⟨1040, 990⟩, 0, by decide⟩]
    let missing : List (Packet 1) := [⟨⟨0, -80⟩, 0, by decide⟩, ⟨⟨40, noptsValue⟩, 0, by decide⟩]
    ((exec step oneVideo late).map fun o => (o.streams 0).lastOutDts) = some (-10) ∧
      ¬ Meets step LeavesMonotonic oneVideo late ∧
      ((exec step oneVideo missing).map fun o => (o.streams 0).lastOutDts) = some (noptsValue + 80) ∧
      ¬ Meets step LeavesMonotonic oneVideo missing := by
  decide +kernel

end Output
end CloudAgent.Streamer.Ffmpeg
