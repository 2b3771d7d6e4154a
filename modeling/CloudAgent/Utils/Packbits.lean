import CloudAgent.Lib.PackBits

/-! `packbits`, which compresses the motion maps, with its buffer for literals and runs. -/
namespace CloudAgent.Utils
open PackBits

/-- A value that is passed as an `int`. -/
def toCInt (n : ℤ) : ℤ := n.bmod (2 ^ 32)

theorem toCInt_of_lt {n : ℕ} (h : n < 2 ^ 31) : toCInt n = n := by
  rw [toCInt, Int.bmod_eq_of_le] <;> omega

theorem toCInt_lt (n : ℤ) : toCInt n < 2 ^ 31 := by
  have h := Int.bmod_lt (x := n) (m := 2 ^ 32) (by decide)
  rw [toCInt]
  omega

theorem toCInt_le (n : ℕ) : toCInt n ≤ n := by
  obtain h | h := Nat.lt_or_ge n (2 ^ 31)
  · exact le_of_eq (toCInt_of_lt h)
  · have hlt := toCInt_lt n
    omega

namespace Packbits

inductive Mode
  | dump | run
  deriving DecidableEq

def minRun : ℕ := 3

def maxRun : ℕ := 128

def maxDat : ℕ := 128

/-- The variables of `packbits`; `buf` is the part of the buffer that is in use, so that `nbuf` is its length, and `dest`
what has been written. -/
structure Packer where
  mode : Mode
  buf : List Int8
  rstart : ℕ
  lastc : Int8
  dest : List Int8
  putsize : ℤ
  deriving DecidableEq

namespace Packer

/-- The variables once the first byte is in the buffer. -/
def start (c : Int8) : Packer := ⟨.dump, [c], 0, c, [], 0⟩

/-- The first `n` bytes of the buffer as a literal, with the count of written bytes that the source adds for them. -/
def putLiteral (p : Packer) (n : ℕ) : Packer :=
  { p with dest := p.dest ++ Int8.ofInt (n - 1) :: p.buf.take n, putsize := p.putsize + (n + 1) }

/-- A run of `lastc`. -/
def putRun (p : Packer) (n : ℤ) : Packer :=
  { p with dest := p.dest ++ [Int8.ofInt (-(n - 1)), p.lastc], putsize := p.putsize + 2 }

/-- A round of the loop, with the byte that it reads. -/
def next (p : Packer) (c : Int8) : Packer :=
  let p := { p with buf := p.buf ++ [c] }
  let nbuf := p.buf.length
  match p.mode with
  | .dump =>
    if maxDat < nbuf then { p.putLiteral (nbuf - 1) with buf := [c], rstart := 0, lastc := c }
    else if c = p.lastc then
      if minRun ≤ nbuf - p.rstart then
        if 0 < p.rstart then { p.putLiteral p.rstart with mode := .run, lastc := c }
        else { p with mode := .run, lastc := c }
      else if p.rstart = 0 then { p with mode := .run, lastc := c }
      else { p with lastc := c }
    else { p with rstart := nbuf - 1, lastc := c }
  | .run =>
    if c ≠ p.lastc ∨ maxRun < nbuf - p.rstart then
      { p.putRun (nbuf - p.rstart - 1) with buf := [c], rstart := 0, mode := .dump, lastc := c }
    else { p with lastc := c }

/-- What follows the loop. -/
def finish (p : Packer) : Packer :=
  match p.mode with
  | .dump => p.putLiteral p.buf.length
  | .run => p.putRun (p.buf.length - p.rstart)

/-- The loop, with what can be read of the source, until `size` is 0: the variables after it and what has not been read.
`none`: it reads behind the source or writes behind its buffer of `MAXDAT*2` bytes. -/
def loop (p : Packer) : List Int8 → ℤ → Option (Packer × List Int8)
  | [], size => if size = 0 then some (p, []) else none
  | c :: source, size =>
    if size = 0 then some (p, c :: source)
    else if p.buf.length < 2 * maxDat then (p.next c).loop source (size - 1)
    else none

end Packer

/-- What `packbits` has written, the number that it returns, and what it has not read. -/
structure Packed where
  dest : List Int8
  putsize : ℤ
  rest : List Int8
  deriving DecidableEq

/-- `packbits` with a destination that is large enough. -/
def packbits (source : List Int8) (size : ℤ) : Option Packed :=
  match source with
  | [] => none
  | c :: source =>
    ((Packer.start c).loop source (size - 1)).map fun (p, rest) => ⟨p.finish.dest, toCInt p.finish.putsize, rest⟩

/-! ### The machine writes the packets of its source -/

namespace Packer
variable {p : Packer} {c : Int8} {q l : List Int8} {k : ℕ}

/-- What has been read but not written. -/
def pending (p : Packer) : List Int8 :=
  match p.mode with
  | .dump => p.buf
  | .run => p.buf.drop p.rstart

/-- What the machine will have written if it reads `l` and nothing else. -/
def output (p : Packer) (l : List Int8) : List Int8 := p.dest ++ encode (packets (p.pending ++ l))

/-- The buffer is a literal, with `k` times the last byte behind `q`. -/
structure Dumping (p : Packer) (q : List Int8) (k : ℕ) : Prop where
  mode : p.mode = .dump
  buf : p.buf = q ++ List.replicate k p.lastc
  rstart : p.rstart = q.length
  tail : k = 1 ∨ k = 2 ∧ q ≠ []
  before : ¬ [p.lastc] <:+ q
  length : p.buf.length ≤ maxDat
  noPair : NoPair p.buf
  noTriple : NoTriple p.buf

/-- The buffer holds a run of `k` bytes behind `q`, which has been written. -/
structure Running (p : Packer) (q : List Int8) (k : ℕ) : Prop where
  mode : p.mode = .run
  buf : p.buf = q ++ List.replicate k p.lastc
  rstart : p.rstart = q.length
  written : q.length + minRun ≤ maxDat
  two_le : 2 ≤ k
  le : k ≤ maxRun

/-- What holds before every round. -/
def Sound (p : Packer) : Prop := p.putsize = p.dest.length ∧ ∃ q k, Dumping p q k ∨ Running p q k

theorem Dumping.pending (h : Dumping p q k) : p.pending = p.buf := by rw [Packer.pending, h.mode]

theorem Running.pending (h : Running p q k) : p.pending = List.replicate k p.lastc := by
  rw [Packer.pending, h.mode]
  dsimp only
  rw [h.buf, h.rstart, List.drop_left]

theorem putLiteral_dest {n : ℕ} (h : n ≤ p.buf.length) :
    (p.putLiteral n).dest = p.dest ++ (Packet.literal (p.buf.take n)).encode := by
  have hn : (p.buf.take n).length = n := List.length_take_of_le h
  rw [putLiteral, Packet.encode, Packet.header, hn]
  rfl

theorem putRun_dest (p : Packer) (n : ℕ) : (p.putRun n).dest = p.dest ++ (Packet.run n p.lastc).encode := by
  have hn : -((n : ℤ) - 1) = 1 - n := by omega
  rw [putRun, Packet.encode, Packet.header, hn]
  rfl

/-- A byte by itself in the buffer. -/
theorem Dumping.single (hm : p.mode = .dump) (hb : p.buf = [p.lastc]) (hr : p.rstart = 0) : Dumping p [] 1 := by
  refine ⟨hm, hb, hr, .inl rfl, by simp, by simp [hb, maxDat], ?_, ?_⟩
  · intro b hb'
    have hlen := hb'.length_le
    simp [hb] at hlen
  · intro b hb'
    have hlen := hb'.length_le
    simp [hb] at hlen

theorem start_sound (c : Int8) : (start c).Sound := ⟨rfl, [], 1, .inl (.single rfl rfl rfl)⟩

theorem putLiteral_size {n : ℕ} (hp : p.putsize = p.dest.length) (h : n ≤ p.buf.length) :
    (p.putLiteral n).putsize = (p.putLiteral n).dest.length := by
  have hn : (p.buf.take n).length = n := List.length_take_of_le h
  simp only [putLiteral, List.length_append, List.length_cons, hn, hp]
  push_cast
  rfl

theorem putRun_size (hp : p.putsize = p.dest.length) (n : ℤ) : (p.putRun n).putsize = (p.putRun n).dest.length := by
  simp [putRun, hp]

/-- The invariant and what the machine will have written, over one round. -/
def Steps (p : Packer) (c : Int8) : Prop := (p.next c).Sound ∧ ∀ l, (p.next c).output l = p.output (c :: l)

theorem Dumping.length_next (h : Dumping p q k) : (p.buf ++ [c]).length = q.length + k + 1 := by
  simp [h.buf, Nat.add_assoc]

/-- A buffer that is full is written as a literal. -/
theorem Dumping.next_full (h : Dumping p q k) (hp : p.putsize = p.dest.length)
    (hfull : maxDat < (p.buf ++ [c]).length) :
    p.Steps c := by
  have hlen := h.length
  have hbuf : p.buf.length = 128 := by
    rw [List.length_append, List.length_singleton] at hfull
    rw [maxDat] at hfull hlen
    omega
  have hle : p.buf.length ≤ (p.buf ++ [c]).length := by simp
  have hnext : p.next c =
      { putLiteral { p with buf := p.buf ++ [c] } p.buf.length with buf := [c], rstart := 0, lastc := c } := by
    simp only [Packer.next, h.mode]
    rw [if_pos hfull]
    simp
  have hmode : (p.next c).mode = .dump := by
    rw [hnext]
    exact h.mode
  have hsingle : Dumping (p.next c) [] 1 := .single hmode (by rw [hnext]) (by rw [hnext])
  refine ⟨⟨?_, [], 1, .inl hsingle⟩, fun l => ?_⟩
  · rw [hnext]
    exact putLiteral_size hp hle
  · have hdest : (p.next c).dest = p.dest ++ (Packet.literal p.buf).encode := by
      rw [hnext]
      dsimp only
      rw [putLiteral_dest hle]
      dsimp only
      rw [List.take_left]
    have hpend : (p.next c).pending = [c] := by rw [hsingle.pending, hnext]
    have hne : p.buf ≠ [] := fun hnil => by simp [hnil] at hbuf
    rw [output, output, hpend, h.pending, hdest, packets_literal h.noPair h.noTriple hne h.length (.inl hbuf),
      encode_cons, List.append_assoc, List.singleton_append]

/-- The third of three equal bytes, with others before them: these are written as a literal. -/
theorem Dumping.next_triple (h : Dumping p q 2) (hp : p.putsize = p.dest.length) (hq : q ≠ [])
    (hroom : ¬ maxDat < (p.buf ++ [p.lastc]).length) : p.Steps p.lastc := by
  have hlen := h.length_next (c := p.lastc)
  have hpos := List.length_pos_of_ne_nil hq
  have hle : q.length ≤ (p.buf ++ [p.lastc]).length := by omega
  have hnext : p.next p.lastc = { putLiteral { p with buf := p.buf ++ [p.lastc] } q.length with mode := .run } := by
    simp only [Packer.next, h.mode, h.rstart]
    rw [if_neg hroom, if_pos trivial, if_pos (by rw [hlen, minRun]; omega), if_pos hpos]
    rfl
  have hbuf : p.buf ++ [p.lastc] = q ++ List.replicate 3 p.lastc := by
    rw [h.buf, List.append_assoc]
    rfl
  have hwritten : q.length + minRun ≤ maxDat := by
    rw [hlen] at hroom
    exact Nat.not_lt.mp hroom
  have hrun : Running (p.next p.lastc) q 3 := by
    rw [hnext]
    exact ⟨rfl, hbuf, h.rstart, hwritten, by decide, by decide⟩
  refine ⟨⟨?_, q, 3, .inr hrun⟩, fun l => ?_⟩
  · rw [hnext]
    exact putLiteral_size hp hle
  · have hdest : (p.next p.lastc).dest = p.dest ++ (Packet.literal q).encode := by
      rw [hnext]
      dsimp only
      rw [putLiteral_dest hle]
      dsimp only
      rw [hbuf, List.take_left]
    have hpend : (p.next p.lastc).pending = [p.lastc, p.lastc, p.lastc] := by
      rw [hrun.pending, hnext]
      rfl
    have hnoPair : NoPair (q ++ [p.lastc, p.lastc]) := h.buf ▸ h.noPair
    have hnoTriple : NoTriple (q ++ [p.lastc, p.lastc]) := h.buf ▸ h.noTriple
    have hread : p.pending ++ p.lastc :: l = q ++ p.lastc :: p.lastc :: p.lastc :: l := by
      rw [h.pending, h.buf, List.append_assoc]
      rfl
    rw [output, output, hpend, hdest, hread, packets_literal_triple hnoPair hnoTriple hq hwritten, encode_cons,
      List.append_assoc]
    rfl

/-- The second of two equal bytes, with none before them: a run begins. -/
theorem Dumping.next_pair (h : Dumping p [] 1) (hp : p.putsize = p.dest.length) : p.Steps p.lastc := by
  have hbuf : p.buf = [p.lastc] := h.buf
  have hrstart : p.rstart = 0 := h.rstart
  have hnext : p.next p.lastc = { p with buf := [p.lastc, p.lastc], mode := .run } := by
    simp only [Packer.next, h.mode, hbuf, hrstart]
    rfl
  have hrun : Running (p.next p.lastc) [] 2 := by
    rw [hnext]
    exact ⟨rfl, rfl, hrstart, by decide, by decide, by decide⟩
  refine ⟨⟨?_, [], 2, .inr hrun⟩, fun l => ?_⟩
  · rw [hnext]
    exact hp
  · rw [output, output, hrun.pending, h.pending, hnext, hbuf]
    rfl

/-- A byte that goes to the end of a literal: `q'` before the equal bytes at its end, of which there are `k'`. -/
theorem Dumping.next_literal {q' : List Int8} {k' : ℕ} (h : Dumping p q k) (hp : p.putsize = p.dest.length)
    (hnext : p.next c = { p with buf := p.buf ++ [c], rstart := q'.length, lastc := c })
    (hd : Dumping { p with buf := p.buf ++ [c], rstart := q'.length, lastc := c } q' k') : p.Steps c := by
  rw [Steps, hnext]
  refine ⟨⟨hp, q', k', .inl hd⟩, fun l => ?_⟩
  rw [output, output, hd.pending, h.pending]
  dsimp only
  rw [List.append_assoc, List.singleton_append]

/-- The second of two equal bytes in a literal. -/
theorem Dumping.next_same (h : Dumping p q 1) (hp : p.putsize = p.dest.length) (hq : q ≠ [])
    (hroom : ¬ maxDat < (p.buf ++ [p.lastc]).length) : p.Steps p.lastc := by
  have hlen := h.length_next (c := p.lastc)
  have hpos := List.length_pos_of_ne_nil hq
  have hnext : p.next p.lastc = { p with buf := p.buf ++ [p.lastc], rstart := q.length, lastc := p.lastc } := by
    simp only [Packer.next, h.mode, h.rstart]
    rw [if_neg hroom, if_pos trivial, if_neg (by rw [hlen, minRun]; omega), if_neg (by omega)]
  suffices hd : Dumping { p with buf := p.buf ++ [p.lastc], rstart := q.length, lastc := p.lastc } q 2 from
    h.next_literal hp hnext hd
  refine ⟨h.mode, ?_, rfl, .inr ⟨rfl, hq⟩, h.before, Nat.not_lt.mp hroom, ?_, ?_⟩
  · dsimp only
    rw [h.buf, List.append_assoc]
    rfl
  · refine h.noPair.concat fun hbuf => ?_
    rw [hbuf, List.length_append, List.length_singleton] at hlen
    omega
  · refine h.noTriple.concat fun hsuf => ?_
    rw [h.buf] at hsuf
    obtain hnil | ⟨t, ht, hsuf⟩ := List.suffix_concat_iff.mp hsuf
    · cases hnil
    · have happ : [p.lastc] ++ [p.lastc] = t ++ [p.lastc] := ht
      obtain rfl := List.append_cancel_right happ
      exact h.before hsuf

/-- The last byte of the buffer. -/
theorem Dumping.eq_lastc (h : Dumping p q k) (hc : [c] <:+ p.buf) : c = p.lastc := by
  obtain ⟨l, hl⟩ : ∃ l, p.buf = l ++ [p.lastc] := by
    obtain rfl | ⟨rfl, -⟩ := h.tail
    · exact ⟨q, h.buf⟩
    · exact ⟨q ++ [p.lastc], by rw [h.buf, List.append_assoc]; rfl⟩
  rw [hl] at hc
  obtain hnil | ⟨t, ht, -⟩ := List.suffix_concat_iff.mp hc
  · cases hnil
  · have happ : [] ++ [c] = t ++ [p.lastc] := ht
    simpa using (List.append_inj' happ rfl).2

/-- Another byte than the last one. -/
theorem Dumping.next_other (h : Dumping p q k) (hp : p.putsize = p.dest.length) (hc : c ≠ p.lastc)
    (hroom : ¬ maxDat < (p.buf ++ [c]).length) : p.Steps c := by
  have hnext : p.next c = { p with buf := p.buf ++ [c], rstart := p.buf.length, lastc := c } := by
    simp only [Packer.next, h.mode]
    rw [if_neg hroom, if_neg hc]
    simp
  suffices hd : Dumping { p with buf := p.buf ++ [c], rstart := p.buf.length, lastc := c } p.buf 1 from
    h.next_literal hp hnext hd
  refine ⟨h.mode, rfl, rfl, .inl rfl, ?_, Nat.not_lt.mp hroom, ?_, ?_⟩
  · exact fun hsuf => hc (h.eq_lastc hsuf)
  · refine h.noPair.concat fun hbuf => hc (h.eq_lastc ?_)
    rw [hbuf]
  · refine h.noTriple.concat fun hsuf => hc (h.eq_lastc ?_)
    have hlast : [c] <:+ [c, c] := ⟨[c], rfl⟩
    exact hlast.trans hsuf

theorem Dumping.next (h : Dumping p q k) (hp : p.putsize = p.dest.length) (c : Int8) : p.Steps c := by
  by_cases hfull : maxDat < (p.buf ++ [c]).length
  · exact h.next_full hp hfull
  by_cases hc : c = p.lastc
  · subst hc
    obtain rfl | ⟨rfl, hq⟩ := h.tail
    · by_cases hq : q = []
      · subst hq
        exact h.next_pair hp
      · exact h.next_same hp hq hfull
    · exact h.next_triple hp hq hfull
  · exact h.next_other hp hc hfull

theorem Running.next (h : Running p q k) (hp : p.putsize = p.dest.length) (c : Int8) : p.Steps c := by
  have hlen : (p.buf ++ [c]).length = q.length + k + 1 := by simp [h.buf, Nat.add_assoc]
  by_cases hc : c ≠ p.lastc ∨ maxRun < (p.buf ++ [c]).length - p.rstart
  · have hend : k = 128 ∨ c ≠ p.lastc := by
      refine hc.symm.imp_left fun hmax => ?_
      have hle := h.le
      rw [hlen, h.rstart] at hmax
      rw [maxRun] at hmax hle
      omega
    have hn : ((p.buf ++ [c]).length : ℤ) - p.rstart - 1 = k := by
      rw [hlen, h.rstart]
      push_cast
      omega
    have hnext : p.next c = ⟨.dump, [c], 0, c, (p.putRun k).dest, p.putsize + 2⟩ := by
      simp only [Packer.next, h.mode]
      rw [if_pos hc, hn]
      rfl
    rw [Steps, hnext]
    refine ⟨⟨?_, [], 1, .inl (.single rfl rfl rfl)⟩, fun l => ?_⟩
    · simp [putRun, hp]
    · have hl : k = 128 ∨ ¬ [p.lastc] <+: c :: l := hend.imp_right fun hne hpre => by
        simp [hne.symm] at hpre
      rw [output, output, h.pending, packets_run h.two_le h.le hl, encode_cons, putRun_dest, List.append_assoc]
      rfl
  · have hnext : p.next c = { p with buf := p.buf ++ [c], lastc := c } := by
      simp only [Packer.next, h.mode]
      rw [if_neg hc]
    push Not at hc
    obtain ⟨rfl, hmax⟩ := hc
    have hrun : Running (p.next p.lastc) q (k + 1) := by
      rw [hnext]
      refine ⟨h.mode, ?_, h.rstart, h.written, Nat.le_succ_of_le h.two_le, ?_⟩
      · dsimp only
        rw [h.buf, List.replicate_succ', List.append_assoc]
      · rw [hlen, h.rstart] at hmax
        omega
    refine ⟨⟨?_, q, k + 1, .inr hrun⟩, fun l => ?_⟩
    · rw [hnext]
      exact hp
    · rw [output, output, hrun.pending, h.pending, hnext]
      dsimp only
      rw [List.replicate_succ', List.append_assoc, List.singleton_append]

theorem Sound.next (h : p.Sound) (c : Int8) : p.Steps c := by
  obtain ⟨hp, q, k, hd | hr⟩ := h
  · exact hd.next hp c
  · exact hr.next hp c

theorem Sound.room (h : p.Sound) : p.buf.length < 2 * maxDat := by
  obtain ⟨-, q, k, hd | hr⟩ := h
  · have hlen := hd.length
    rw [maxDat] at hlen ⊢
    omega
  · have hwritten := hr.written
    have hle := hr.le
    rw [hr.buf, List.length_append, List.length_replicate]
    simp only [maxDat, minRun, maxRun] at hwritten hle ⊢
    omega

theorem Sound.foldl (h : p.Sound) (g : List Int8) :
    (g.foldl Packer.next p).Sound ∧ ∀ l, (g.foldl Packer.next p).output l = p.output (g ++ l) := by
  induction g generalizing p with
  | nil => exact ⟨h, fun _ => rfl⟩
  | cons c g ih =>
    obtain ⟨hs, hout⟩ := h.next c
    obtain ⟨hs', hout'⟩ := ih hs
    refine ⟨hs', fun l => ?_⟩
    rw [List.foldl_cons, hout', hout]
    rfl

/-- The loop reads as many bytes as it is told, if they are there. -/
theorem Sound.loop (h : p.Sound) (g l : List Int8) : p.loop (g ++ l) g.length = some (g.foldl Packer.next p, l) := by
  induction g generalizing p with
  | nil => cases l <;> rfl
  | cons c g ih =>
    have hsize : ((c :: g).length : ℤ) ≠ 0 := by
      rw [List.length_cons]
      omega
    have hrest : ((c :: g).length : ℤ) - 1 = g.length := by simp
    rw [List.cons_append, Packer.loop, if_neg hsize, if_pos h.room, hrest]
    exact ih (h.next c).1

/-- The loop stops only where it has read `size` bytes. -/
theorem loop_eq_some {source rest : List Int8} {size : ℤ} {r : Packer} (h : p.loop source size = some (r, rest)) :
    0 ≤ size ∧ rest.length + size = source.length := by
  induction source generalizing p size with
  | nil =>
    rw [Packer.loop] at h
    split at h
    · rename_i hsize
      cases h
      exact ⟨le_of_eq hsize.symm, by simp [hsize]⟩
    · cases h
  | cons c source ih =>
    rw [Packer.loop] at h
    split at h
    · rename_i hsize
      cases h
      exact ⟨le_of_eq hsize.symm, by simp [hsize]⟩
    · rename_i hsize
      split at h
      · obtain ⟨hle, hlen⟩ := ih h
        rw [List.length_cons]
        push_cast
        omega
      · cases h

theorem Sound.finish (h : p.Sound) : p.finish.dest = p.output [] ∧ p.finish.putsize = p.finish.dest.length := by
  obtain ⟨hp, q, k, hd | hr⟩ := h
  · have hne : p.buf ≠ [] := by
      obtain rfl | ⟨rfl, -⟩ := hd.tail <;> simp [hd.buf, List.replicate_succ]
    rw [Packer.finish, hd.mode]
    refine ⟨?_, putLiteral_size hp (Nat.le_refl _)⟩
    rw [output, hd.pending, packets_literal hd.noPair hd.noTriple hne hd.length (.inr rfl), packets_nil,
      putLiteral_dest (Nat.le_refl _), List.take_length]
    simp
  · have hn : (p.buf.length : ℤ) - p.rstart = k := by
      rw [hr.buf, hr.rstart, List.length_append, List.length_replicate]
      push_cast
      omega
    rw [Packer.finish, hr.mode]
    dsimp only
    rw [hn]
    refine ⟨?_, putRun_size hp k⟩
    rw [output, hr.pending, packets_run hr.two_le hr.le (.inr (by simp)), packets_nil, putRun_dest]
    simp

end Packer

/-- `packbits` reads what it is told to and writes its packets. -/
theorem packbits_eq {g : List Int8} (hg : g ≠ []) (l : List Int8) :
    packbits (g ++ l) g.length = some ⟨encode (packets g), toCInt (encode (packets g)).length, l⟩ := by
  obtain ⟨c, g, rfl⟩ := List.exists_cons_of_ne_nil hg
  have hsize : ((c :: g).length : ℤ) - 1 = g.length := by simp
  have hstart := Packer.start_sound c
  obtain ⟨hsound, hout⟩ := hstart.foldl g
  obtain ⟨hdest, hput⟩ := hsound.finish
  have hall : (g.foldl Packer.next (.start c)).finish.dest = encode (packets (c :: g)) := by
    rw [hdest, hout, List.append_nil]
    rfl
  rw [List.cons_append, packbits]
  dsimp only
  rw [hsize, hstart.loop g l, Option.map_some, hput, hall]

/-- Where `packbits` comes to its end it has read as many bytes as it was told, and at least one. -/
theorem packbits_eq_some {source : List Int8} {size : ℤ} {r : Packed} (h : packbits source size = some r) :
    1 ≤ size ∧ r.rest.length + size = source.length := by
  cases source with
  | nil => cases h
  | cons c source =>
    obtain ⟨⟨p, rest⟩, hloop, rfl⟩ := Option.map_eq_some_iff.mp h
    obtain ⟨hsize, hlen⟩ := Packer.loop_eq_some hloop
    rw [List.length_cons]
    push_cast
    omega

end Packbits
end CloudAgent.Utils
