import Mathlib.Algebra.Order.Ring.Int
import Mathlib.Data.UInt
import CloudAgent.Lib.SparseFile
import CloudAgent.Lib.Transition

/-! An output that is written to a buffer in memory: `__ff_write_packet` and `__ff_seek`, between
`_ff_open_output` and `_ff_close_output`. A file on which the same is done runs along. -/
namespace CloudAgent.Streamer.Ffmpeg
open Transition

/-- `buffer_data`, less the members that are only set, with the contents of `user_buffer`. -/
structure BufferData where
  pos : ℤ
  maxWritePos : ℤ
  userBuffer : List UInt8
  deriving DecidableEq

namespace BufferData

/-- `__ff_seek`: what is returned. -/
def seekAnswer (b : BufferData) (offset : ℤ) : Whence → ℤ
  | .set => offset
  | .cur => b.pos + offset
  | .fromEnd => b.userBuffer.length + offset
  | .size => b.userBuffer.length

/-- `__ff_seek`: the position afterwards. -/
def seek (b : BufferData) (offset : ℤ) : Whence → BufferData
  | .size => b
  | whence => { b with pos := b.seekAnswer offset whence }

/-- The buffer with room for `n` more bytes, if growing it once gives enough. -/
def grow (b : BufferData) (n : ℕ) : List UInt8 :=
  if b.pos + n > b.userBuffer.length then SparseFile.resize b.userBuffer (max (2 * b.userBuffer.length) 4096)
  else b.userBuffer

/-- `__ff_write_packet`, with an allocation that succeeds. What would be written beyond the buffer is lost here. -/
def writePacket (b : BufferData) (buf : List UInt8) : BufferData where
  pos := b.pos + buf.length
  maxWritePos := max b.maxWritePos (b.pos + buf.length)
  userBuffer := SparseFile.overwrite (b.grow buf.length) b.pos.toNat buf

end BufferData

/-- The object with its buffer, and the file. -/
structure Memory where
  data : BufferData
  opened : Bool
  file : File UInt8
  deriving DecidableEq

/-- The calls, with a fresh buffer at every `openOutput`. -/
inductive MemoryCall
  | openOutput
  | writePacket (buf : List UInt8)
  | seek (offset : ℤ) (whence : Whence)
  | closeOutput
  deriving DecidableEq

namespace Memory

/-- A new object. -/
def new : Memory := ⟨⟨0, 0, []⟩, false, .empty⟩

def openOutput (m : Memory) : Memory := ⟨{ m.data with pos := 0, userBuffer := [] }, true, .empty⟩

/-- `_ff_close_output` resizes the buffer and lets go of it. -/
def closeOutput (m : Memory) : Memory :=
  { m with
    data := { m.data with userBuffer := SparseFile.resize m.data.userBuffer m.data.maxWritePos.toNat }
    opened := false }

def step (m : Memory) : MemoryCall → Option Memory
  | .openOutput => if m.opened then none else some m.openOutput
  | .writePacket buf =>
    if m.opened then some { m with data := m.data.writePacket buf, file := m.file.write buf } else none
  | .seek offset whence =>
    if m.opened ∧ 0 ≤ m.file.target offset whence then
      some { m with data := m.data.seek offset whence, file := m.file.seek offset whence }
    else none
  | .closeOutput => if m.opened then some m.closeOutput else none

/-- The call does what it does on a file: bytes are written inside the buffer, a seek answers the same, and the buffer
that is left is the file. -/
def LikeFile (m : Memory) : MemoryCall → Prop
  | .openOutput => True
  | .writePacket buf => buf ≠ [] → m.data.pos + buf.length ≤ (m.data.grow buf.length).length
  | .seek offset whence => m.data.seekAnswer offset whence = m.file.answer offset whence
  | .closeOutput => m.closeOutput.data.userBuffer = m.file.content

/-- The buffer is grown enough at once, its size is not asked for unless it is the file's, and nothing was written
beyond the end of the file, neither in an earlier session nor with an empty packet. -/
def Suffices (m : Memory) : MemoryCall → Prop
  | .openOutput => True
  | .writePacket buf => buf ≠ [] → m.data.pos + buf.length > m.data.userBuffer.length →
      m.data.pos + buf.length ≤ max (2 * m.data.userBuffer.length) 4096
  | .seek _ whence => whence = .fromEnd ∨ whence = .size → (m.data.userBuffer.length : ℤ) = m.file.size
  | .closeOutput => m.data.maxWritePos = m.file.size

instance (m : Memory) (c : MemoryCall) : Decidable (m.LikeFile c) := by
  cases c <;> unfold LikeFile <;> infer_instance

instance (m : Memory) (c : MemoryCall) : Decidable (m.Suffices c) := by
  cases c <;> unfold Suffices <;> infer_instance

/-- What is known as long as every call meets `Suffices`. -/
structure Simulates (m : Memory) : Prop where
  pos : m.opened = true → 0 ≤ m.data.pos ∧ m.data.pos = m.file.pos
  fits : m.opened = true → m.file.content.length ≤ m.data.userBuffer.length
  content : m.opened = true → m.data.userBuffer = SparseFile.resize m.file.content m.data.userBuffer.length
  written : m.opened = true → m.file.size ≤ m.data.maxWritePos
  nonneg : 0 ≤ m.data.maxWritePos

variable {m t : Memory} {c : MemoryCall} {calls : List MemoryCall}

theorem Simulates.new : new.Simulates where
  pos := nofun
  fits := nofun
  content := nofun
  written := nofun
  nonneg := Int.le_refl 0

theorem Simulates.openOutput (h : m.Simulates) : m.openOutput.Simulates where
  pos := fun _ => ⟨Int.le_refl 0, rfl⟩
  fits := fun _ => Nat.le_refl _
  content := fun _ => rfl
  written := fun _ => h.nonneg
  nonneg := h.nonneg

/-- The buffer as it is for the copying. -/
theorem Simulates.grow (h : m.Simulates) (ho : m.opened = true) (n : ℕ) :
    m.data.grow n = SparseFile.resize m.file.content (m.data.grow n).length ∧
      m.file.content.length ≤ (m.data.grow n).length := by
  have hfits := h.fits ho
  unfold BufferData.grow
  split
  · rw [SparseFile.length_resize]
    constructor
    · conv_lhs => rw [h.content ho]
      rw [SparseFile.length_resize, SparseFile.resize_resize hfits]
    · omega
  · exact ⟨h.content ho, hfits⟩

theorem length_grow (b : BufferData) (n : ℕ) :
    (b.grow n).length =
      if b.pos + n > b.userBuffer.length then max (2 * b.userBuffer.length) 4096 else b.userBuffer.length := by
  unfold BufferData.grow
  split
  · exact SparseFile.length_resize _ _
  · rfl

theorem Simulates.writePacket (h : m.Simulates) (ho : m.opened = true) {buf : List UInt8}
    (hok : m.LikeFile (.writePacket buf)) :
    Simulates { m with data := m.data.writePacket buf, file := m.file.write buf } := by
  obtain ⟨hpos, hsame⟩ := h.pos ho
  obtain ⟨hgrow, hfits⟩ := h.grow ho buf.length
  have hwritten := h.written ho
  have hnonneg := h.nonneg
  have hlen : (m.file.write buf).content.length ≤ (m.data.grow buf.length).length := by
    by_cases hb : buf = []
    · rw [File.write, SparseFile.write, if_pos hb]
      exact hfits
    · have hroom := hok hb
      rw [File.write, SparseFile.length_write hb, ← hsame]
      omega
  refine ⟨fun _ => ⟨?_, ?_⟩, fun _ => ?_, fun _ => ?_, fun _ => ?_, ?_⟩
  · dsimp only [BufferData.writePacket]
    omega
  · exact congrArg (· + (buf.length : ℤ)) hsame
  · simp only [BufferData.writePacket, SparseFile.length_overwrite]
    exact hlen
  · simp only [BufferData.writePacket, SparseFile.length_overwrite]
    conv_lhs => rw [hgrow]
    rw [SparseFile.overwrite_resize, hsame]
    rfl
  · dsimp only [BufferData.writePacket, File.size, File.write] at hwritten ⊢
    by_cases hb : buf = []
    · rw [SparseFile.write, if_pos hb]
      omega
    · rw [SparseFile.length_write hb, ← hsame]
      omega
  · dsimp only [BufferData.writePacket]
    omega

theorem Simulates.likeFile_iff_suffices (h : m.Simulates) (ho : c ≠ .openOutput → m.opened = true) :
    m.LikeFile c ↔ m.Suffices c := by
  cases c with
  | openOutput => exact Iff.rfl
  | writePacket buf =>
    refine forall_congr' fun hb => ?_
    rw [length_grow]
    split
    · rename_i hgt
      rw [forall_prop_of_true hgt]
    · rename_i hle
      exact iff_of_true (Int.not_lt.mp hle) fun hgt => absurd hgt hle
  | seek offset whence =>
    obtain ⟨-, hsame⟩ := h.pos (ho (by simp))
    cases whence with
    | set => exact iff_of_true rfl (by simp [Suffices])
    | cur => exact iff_of_true (congrArg (· + offset) hsame) (by simp [Suffices])
    | fromEnd =>
      simp only [LikeFile, Suffices, BufferData.seekAnswer, File.answer, File.target, true_or, forall_const]
      omega
    | size => simp only [LikeFile, Suffices, BufferData.seekAnswer, File.answer, or_true, forall_const]
  | closeOutput =>
    have hopen := ho (by simp)
    have hnonneg := h.nonneg
    simp only [LikeFile, Suffices, closeOutput]
    conv_lhs => rw [h.content hopen]
    rw [SparseFile.resize_resize (h.fits hopen), SparseFile.resize_eq_iff, File.size]
    omega

theorem Simulates.seek (h : m.Simulates) (ho : m.opened = true) {offset : ℤ} {whence : Whence}
    (hto : 0 ≤ m.file.target offset whence) (hok : m.LikeFile (.seek offset whence)) :
    Simulates { m with data := m.data.seek offset whence, file := m.file.seek offset whence } := by
  have hpos := h.pos ho
  cases whence with
  | size => exact ⟨fun _ => hpos, h.fits, h.content, h.written, h.nonneg⟩
  | set => exact ⟨fun _ => ⟨hto, rfl⟩, h.fits, h.content, h.written, h.nonneg⟩
  | cur => exact ⟨fun _ => ⟨le_of_le_of_eq hto hok.symm, hok⟩, h.fits, h.content, h.written, h.nonneg⟩
  | fromEnd => exact ⟨fun _ => ⟨le_of_le_of_eq hto hok.symm, hok⟩, h.fits, h.content, h.written, h.nonneg⟩

theorem Simulates.step (h : m.Simulates) (hok : m.Suffices c) (hs : step m c = some t) : t.Simulates := by
  cases c with
  | openOutput =>
    simp only [Memory.step, Option.ite_none_left_eq_some, Option.some.injEq] at hs
    obtain ⟨-, rfl⟩ := hs
    exact h.openOutput
  | writePacket buf =>
    simp only [Memory.step, Option.ite_none_right_eq_some, Option.some.injEq] at hs
    obtain ⟨ho, rfl⟩ := hs
    exact h.writePacket ho ((h.likeFile_iff_suffices fun _ => ho).mpr hok)
  | seek offset whence =>
    simp only [Memory.step, Option.ite_none_right_eq_some, Option.some.injEq] at hs
    obtain ⟨⟨ho, hto⟩, rfl⟩ := hs
    exact h.seek ho hto ((h.likeFile_iff_suffices fun _ => ho).mpr hok)
  | closeOutput =>
    simp only [Memory.step, Option.ite_none_right_eq_some, Option.some.injEq] at hs
    obtain ⟨-, rfl⟩ := hs
    exact ⟨nofun, nofun, nofun, nofun, h.nonneg⟩

/-- Only `openOutput` is called while nothing is open. -/
theorem opened_of_step (hs : step m c = some t) : c ≠ .openOutput → m.opened = true := by
  intro hc
  cases c with
  | openOutput => exact absurd rfl hc
  | writePacket buf => exact (Option.ite_none_right_eq_some.mp hs).1
  | seek offset whence => exact (Option.ite_none_right_eq_some.mp hs).1.1
  | closeOutput => exact (Option.ite_none_right_eq_some.mp hs).1

/-- For every run of sessions on fresh buffers, with writes of any size and seeks to positions that are not negative:
every call does what it does on a file exactly if every call meets `Suffices`. -/
theorem likeFile_iff (he : exec step new calls = some t) :
    Meets step LikeFile new calls ↔ Meets step Suffices new calls := by
  have henabled : Meets step (fun m c => c ≠ .openOutput → m.opened = true) new calls :=
    Meets.of_exec (fun _ _ _ hs => opened_of_step hs) he
  exact meets_iff_meets (I := Simulates) (fun _ _ _ hm _ hok hs => hm.step hok hs)
    (fun _ _ hm ho => hm.likeFile_iff_suffices ho) .new henabled

/-- Two sessions: the first goes back to its beginning, the second leaves a hole in its file. -/
theorem likeFile_two :
    Meets step LikeFile new [.openOutput, .writePacket [1, 2], .seek 0 .set, .writePacket [3], .closeOutput,
      .openOutput, .seek 3 .set, .writePacket [5], .closeOutput] := by
  refine (likeFile_iff (t := _) rfl).mpr ?_
  simp [Meets, step, new, Memory.openOutput, closeOutput, Suffices, BufferData.writePacket, BufferData.seek,
    BufferData.seekAnswer, File.write, File.seek, File.target, File.size, File.empty, SparseFile.length_write]

/-- A first packet of more than 4096 bytes is written beyond the end of the buffer. -/
theorem not_likeFile_of_lt {buf : List UInt8} (h : 4096 < buf.length) :
    ¬ Meets step LikeFile new [.openOutput, .writePacket buf, .closeOutput] := by
  intro hm
  have hpos : 0 < buf.length := by omega
  have hwrite : new.openOutput.LikeFile (.writePacket buf) := (hm.2 _ rfl).1
  have hfit := hwrite (List.ne_nil_of_length_pos hpos)
  simp only [Memory.openOutput, length_grow, List.length_nil] at hfit
  rw [if_pos (by omega)] at hfit
  omega

/-- A session that writes less than the one before leaves a longer buffer than the file. -/
theorem not_likeFile_of_shorter {buf buf' : List UInt8} (h : buf'.length < buf.length) (h' : buf' ≠ []) :
    ¬ Meets step LikeFile new
      [.openOutput, .writePacket buf, .closeOutput, .openOutput, .writePacket buf', .closeOutput] := by
  intro hm
  have hclose := (((((hm.2 _ rfl).2 _ rfl).2 _ rfl).2 _ rfl).2 _ rfl).1
  have hlen := congrArg List.length hclose
  simp only [closeOutput, Memory.openOutput, new, BufferData.writePacket, File.write, File.empty,
    SparseFile.length_write h', SparseFile.length_resize, List.length_nil] at hlen
  omega

/-- Three runs: a large packet, a session shorter than the one before, and a query for the size after one byte, which
is answered with 4096. -/
theorem not_likeFile :
    ¬ Meets step LikeFile new [.openOutput, .writePacket (List.replicate 5000 0), .closeOutput] ∧
    ¬ Meets step LikeFile new
      [.openOutput, .writePacket [1, 2], .closeOutput, .openOutput, .writePacket [3], .closeOutput] ∧
    ¬ Meets step LikeFile new [.openOutput, .writePacket [1], .seek 0 .size, .closeOutput] := by
  refine ⟨not_likeFile_of_lt ?_, not_likeFile_of_shorter (by decide) (by decide), ?_⟩
  · rw [List.length_replicate]
    decide
  · simp [Meets, step, new, Memory.openOutput, LikeFile, BufferData.writePacket, BufferData.seekAnswer, length_grow,
      File.write, File.answer, File.size, File.empty, SparseFile.length_write]

end Memory
end CloudAgent.Streamer.Ffmpeg
