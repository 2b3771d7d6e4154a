import Mathlib.Data.Fin.Basic
import Mathlib.Logic.Function.Basic
import Mathlib.Order.Basic
import Mathlib.Order.Defs.LinearOrder
import CloudAgent.Lib.Transition

/-! The timestamps that `ffmpeg::common` gives the packets of an output. They are unbounded integers
here; where the source's would overflow its behaviour is undefined. -/
namespace CloudAgent.Streamer.Ffmpeg

/-- `AV_NOPTS_VALUE`, the smallest 64-bit integer. -/
def noptsValue : ℤ := -9223372036854775808

/-- `AVMediaType`. -/
inductive CodecType
  | unknown | video | audio | data | subtitle | attachment
  deriving DecidableEq

structure Stamps where
  pts : ℤ
  dts : ℤ
  deriving DecidableEq

/-- A packet that is written to one of `n` streams. -/
structure Packet (n : ℕ) extends Stamps where
  stream : Fin n
  lower : noptsValue ≤ pts ∧ noptsValue ≤ dts
  deriving DecidableEq

/-- A stream of the output with what is remembered of it. `outDts` is the dts that the last packet with one left
with, and `inPts` the pts that the first and the last packet with one came with. -/
structure OutStream where
  codecType : CodecType
  timeBase : ℤ × ℤ
  lastOutDts : ℤ
  lastOutPts : ℤ
  firstOutPts : ℤ
  firstOutDts : ℤ
  outDts : Option ℤ
  inPts : Option (ℤ × ℤ)
  deriving DecidableEq

namespace OutStream

def opened (codecType : CodecType) (timeBase : ℤ × ℤ) : OutStream :=
  ⟨codecType, timeBase, noptsValue, noptsValue, noptsValue, noptsValue, none, none⟩

/-- A dts after the pts: both are replaced by the middle one of three values. -/
def guess (st : OutStream) (t : Stamps) : Stamps :=
  if t.dts ≠ noptsValue ∧ t.pts ≠ noptsValue ∧ t.dts > t.pts then
    let next := st.lastOutDts + 1
    let g := t.pts + t.dts + st.lastOutDts + 1 - min (min t.pts t.dts) next - max (max t.pts t.dts) next
    ⟨g, g⟩
  else t

/-- The dts is set, and less than the last one that left allows. -/
def NeedsFix (strict : ℤ) (st : OutStream) (t : Stamps) : Prop :=
  (st.codecType = .audio ∨ st.codecType = .video ∨ st.codecType = .subtitle) ∧ t.dts ≠ noptsValue ∧
    st.lastOutDts ≠ noptsValue ∧ t.dts < st.lastOutDts + strict

instance (strict : ℤ) (st : OutStream) (t : Stamps) : Decidable (NeedsFix strict st t) := by
  unfold NeedsFix
  infer_instance

/-- The fix of a dts that is not monotonic. -/
def fix (strict : ℤ) (st : OutStream) (t : Stamps) : Stamps :=
  if NeedsFix strict st t then
    ⟨if t.pts ≥ t.dts then max t.pts (st.lastOutDts + strict) else t.pts, st.lastOutDts + strict⟩
  else t

/-- The first timestamp of the stream, once `t` was seen. -/
def origin (first t : ℤ) : ℤ := if t ≠ noptsValue ∧ first = noptsValue then t else first

/-- The timestamp less the first one, if there is one. -/
def shifted (first t : ℤ) : ℤ := if first ≠ noptsValue then t - first else t

/-- The packet as it leaves if it has the timestamps `t` once they are fixed. -/
def shift (st : OutStream) (t : Stamps) : Stamps where
  pts := shifted (origin st.firstOutPts t.pts) t.pts
  dts := shifted (origin st.firstOutDts t.dts) t.dts

/-- `_check_fix_ts` for a packet of the stream: the packet as it leaves. -/
def fixed (strict : ℤ) (st : OutStream) (t : Stamps) : Stamps := st.shift (st.fix strict (st.guess t))

/-- `_check_fix_ts`: what is remembered afterwards. -/
def checkFixTs (strict : ℤ) (st : OutStream) (t : Stamps) : OutStream :=
  { st with
    firstOutPts := origin st.firstOutPts (st.fix strict (st.guess t)).pts
    firstOutDts := origin st.firstOutDts (st.fix strict (st.guess t)).dts
    lastOutDts := (st.fixed strict t).dts
    lastOutPts := (st.fixed strict t).pts
    outDts := if t.dts ≠ noptsValue then some (st.fixed strict t).dts else st.outDts
    inPts := if t.pts ≠ noptsValue then some ((st.inPts.map Prod.fst).getD t.pts, t.pts) else st.inPts }

end OutStream

/-- An output with `n` streams. `nonstrict` is the flag `AVFMT_TS_NONSTRICT` of its format. -/
structure Output (n : ℕ) where
  nonstrict : Bool
  streams : Fin n → OutStream

namespace Output
variable {n : ℕ}

/-- After `_ff_open_output`. -/
def opened (nonstrict : Bool) (kinds : Fin n → CodecType × (ℤ × ℤ)) : Output n :=
  ⟨nonstrict, fun i => .opened (kinds i).1 (kinds i).2⟩

/-- By how much a dts has to be above the one before it. -/
def strict (o : Output n) : ℤ := if o.nonstrict then 0 else 1

def checkFixTs (o : Output n) (p : Packet n) : Output n :=
  { o with streams := Function.update o.streams p.stream ((o.streams p.stream).checkFixTs o.strict p.toStamps) }

def step (o : Output n) (p : Packet n) : Option (Output n) := some (o.checkFixTs p)

theorem checkFixTs_self (o : Output n) (p : Packet n) :
    (o.checkFixTs p).streams p.stream = (o.streams p.stream).checkFixTs o.strict p.toStamps :=
  Function.update_self _ _ _

/-- A packet changes no stream but its own. -/
theorem forall_checkFixTs {P : OutStream → Prop} {o : Output n} {p : Packet n} (h : ∀ i, P (o.streams i))
    (hp : P ((o.streams p.stream).checkFixTs o.strict p.toStamps)) (i : Fin n) : P ((o.checkFixTs p).streams i) := by
  by_cases hi : i = p.stream
  · rw [hi, checkFixTs_self]
    exact hp
  · have hother : (o.checkFixTs p).streams i = o.streams i := Function.update_of_ne hi _ _
    rw [hother]
    exact h i

end Output

namespace OutStream
variable {strict : ℤ} {st : OutStream} {t : Stamps}

/-! ### What becomes of one timestamp -/

theorem shifted_origin_nopts (first : ℤ) :
    shifted (origin first noptsValue) noptsValue = noptsValue ↔ first = noptsValue ∨ first = 0 := by
  unfold shifted origin
  split_ifs <;> omega

theorem shifted_origin_first {t : ℤ} (h : t ≠ noptsValue) : shifted (origin noptsValue t) t = 0 := by
  rw [origin, if_pos ⟨h, rfl⟩, shifted, if_pos h, Int.sub_self]

theorem shifted_origin_set {first : ℤ} (h : first ≠ noptsValue) (t : ℤ) : shifted (origin first t) t = t - first := by
  rw [origin, if_neg fun hno => h hno.2, shifted, if_pos h]

theorem guess_of_nopts (h : t.pts = noptsValue ∨ t.dts = noptsValue) : st.guess t = t := by
  apply if_neg
  tauto

/-- The middle one of three values of which two are set. -/
theorem guess_set (hp : noptsValue < t.pts) (hd : noptsValue < t.dts) :
    noptsValue < (st.guess t).pts ∧ noptsValue < (st.guess t).dts ∧ (st.guess t).dts ≤ (st.guess t).pts := by
  unfold guess
  split
  · dsimp only
    omega
  · rename_i h
    exact ⟨hp, hd, by omega⟩

theorem fix_of_needsFix (h : NeedsFix strict st t) (hle : t.dts ≤ t.pts) :
    st.fix strict t = ⟨max t.pts (st.lastOutDts + strict), st.lastOutDts + strict⟩ := by
  rw [fix, if_pos h, if_pos hle]

end OutStream
end CloudAgent.Streamer.Ffmpeg
