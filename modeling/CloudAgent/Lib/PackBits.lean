import Mathlib.Data.List.Basic
import Mathlib.Data.List.TakeWhile
import Mathlib.Data.UInt

/-! The PackBits format: packets of up to 128 elements, each a run of one element or a literal. A list is cut into
packets from the left, and a stream of bytes is read back packet by packet. -/
namespace CloudAgent.PackBits

/-- A packet. The format also has a header that stands for nothing. -/
inductive Packet (β : Type*)
  | skip | literal (l : List β) | run (n : ℕ) (b : β)
  deriving DecidableEq

namespace Packet
variable {β : Type*}

/-- What a packet stands for. -/
def bytes : Packet β → List β
  | .skip => []
  | .literal l => l
  | .run n b => List.replicate n b

/-- The lengths that a header can tell. -/
def Valid : Packet β → Prop
  | .skip => True
  | .literal l => 1 ≤ l.length ∧ l.length ≤ 128
  | .run n _ => 2 ≤ n ∧ n ≤ 128

def header : Packet β → ℤ
  | .skip => -128
  | .literal l => l.length - 1
  | .run n _ => 1 - n

def data : Packet β → List β
  | .skip => []
  | .literal l => l
  | .run _ b => [b]

/-- The packet in the stream. -/
def encode (p : Packet Int8) : List Int8 := Int8.ofInt p.header :: p.data

theorem toInt_header {p : Packet Int8} (h : p.Valid) : (Int8.ofInt p.header).toInt = p.header := by
  cases p with
  | skip => rfl
  | literal l =>
    obtain ⟨hl, hl'⟩ := h
    exact Int8.toInt_ofInt_of_le (by rw [header]; omega) (by rw [header]; omega)
  | run n b =>
    obtain ⟨hn, hn'⟩ := h
    exact Int8.toInt_ofInt_of_le (by rw [header]; omega) (by rw [header]; omega)

end Packet

section Lists
variable {β : Type*}

/-- What the packets stand for. -/
def expand (ps : List (Packet β)) : List β := ps.flatMap Packet.bytes

/-- The packets in the stream. -/
def encode (ps : List (Packet Int8)) : List Int8 := ps.flatMap Packet.encode

@[simp] theorem expand_nil : expand ([] : List (Packet β)) = [] := rfl
@[simp] theorem expand_cons (p : Packet β) (ps : List (Packet β)) : expand (p :: ps) = p.bytes ++ expand ps := rfl
@[simp] theorem encode_nil : encode [] = [] := rfl
@[simp] theorem encode_cons (p : Packet Int8) (ps : List (Packet Int8)) :
    encode (p :: ps) = p.encode ++ encode ps := rfl

/-- How many packets are literals. -/
def literals : List (Packet β) → ℕ
  | [] => 0
  | .literal _ :: ps => literals ps + 1
  | _ :: ps => literals ps

/-- How many bytes the runs save. -/
def saved : List (Packet β) → ℕ
  | [] => 0
  | .run n _ :: ps => saved ps + (n - 2)
  | _ :: ps => saved ps

/-- Each literal costs a byte, each run saves all of its bytes but two. -/
theorem length_encode {ps : List (Packet Int8)} (hv : ∀ p ∈ ps, p.Valid) (hs : .skip ∉ ps) :
    (encode ps).length + saved ps = (expand ps).length + literals ps := by
  induction ps with
  | nil => rfl
  | cons p ps ih =>
    obtain ⟨hp, hv⟩ := List.forall_mem_cons.mp hv
    have hps := ih hv fun h => hs (List.mem_cons_of_mem p h)
    cases p with
    | skip => exact absurd List.mem_cons_self hs
    | literal l =>
      simp only [encode_cons, expand_cons, List.length_append, Packet.encode, Packet.data, Packet.bytes,
        List.length_cons, saved, literals]
      omega
    | run n b =>
      have hn := hp.1
      simp only [encode_cons, expand_cons, List.length_append, Packet.encode, Packet.data, Packet.bytes,
        List.length_cons, List.length_replicate, List.length_nil, saved, literals]
      omega

end Lists

/-! ### Cutting a list into packets -/

section Cutting
variable {β : Type*} {a c : β} {l q : List β} {n : ℕ}

/-- No three neighbours are equal. -/
def NoTriple (l : List β) : Prop := ∀ a, ¬ [a, a, a] <:+: l

/-- The first two are not equal. -/
def NoPair (l : List β) : Prop := ∀ a, ¬ [a, a] <+: l

theorem NoPair.not_prefix (hp : NoPair (a :: q)) (hl : q ≠ [] ∨ l = []) : ¬ [a] <+: q ++ l := by
  cases q with
  | nil =>
    obtain rfl : l = [] := hl.resolve_left fun h => h rfl
    simp
  | cons b q =>
    intro hab
    obtain rfl : a = b := by simpa using hab
    exact hp a ⟨q, rfl⟩

theorem NoPair.concat (hp : NoPair l) (hc : l ≠ [c]) : NoPair (l ++ [c]) := by
  intro b hb
  match l with
  | [] =>
    have hlen := hb.length_le
    simp at hlen
  | [a] =>
    obtain ⟨rfl, rfl⟩ : b = a ∧ b = c := by simpa using hb
    exact hc rfl
  | a :: a' :: l =>
    have hle : [b, b].length ≤ (a :: a' :: l).length := by simp
    exact hp b (List.prefix_of_prefix_length_le hb (List.prefix_append _ _) hle)

theorem NoTriple.concat (ht : NoTriple l) (hc : ¬ [c, c] <:+ l) : NoTriple (l ++ [c]) := by
  intro b hb
  obtain hb | hb := List.infix_concat_iff.mp hb
  · obtain hnil | ⟨t, ht', hs⟩ := List.suffix_concat_iff.mp hb
    · cases hnil
    · have happ : [b, b] ++ [b] = t ++ [c] := ht'
      obtain ⟨rfl, hbc⟩ := List.append_inj' happ rfl
      obtain rfl : b = c := by simpa using hbc
      exact hc hs
  · exact ht b hb

variable [DecidableEq β]

/-- How many elements come before the first three that are equal. -/
def untilTriple : List β → ℕ
  | [] => 0
  | a :: l => if [a, a] <+: l then 0 else untilTriple l + 1

/-- The first packet: the run at the front, or else the elements up to the next three that are equal, in both cases
within the first 128 elements. -/
def first (a : β) (l : List β) : Packet β :=
  let front := (a :: l).take 128
  if [a] <+: l then .run (front.takeWhile (· = a)).length a
  else .literal (front.take (untilTriple front))

theorem untilTriple_of_noTriple (h : NoTriple l) : untilTriple l = l.length := by
  induction l with
  | nil => rfl
  | cons a l ih =>
    have hl : NoTriple l := fun b hb => h b (List.infix_cons hb)
    have ha : ¬ [a, a] <+: l := fun hp => h a (List.IsPrefix.isInfix ((List.prefix_cons_inj a).mpr hp))
    rw [untilTriple, if_neg ha, ih hl, List.length_cons]

theorem untilTriple_append (h : NoTriple (q ++ [c, c])) : untilTriple (q ++ c :: c :: c :: l) = q.length := by
  induction q with
  | nil => simp [untilTriple]
  | cons a q ih =>
    have hq : NoTriple (q ++ [c, c]) := fun b hb => h b (List.infix_cons hb)
    have ha : ¬ [a, a] <+: q ++ c :: c :: c :: l := by
      intro hp
      have hlen : [a, a].length ≤ (q ++ [c, c]).length := by simp
      have happ : q ++ c :: c :: c :: l = (q ++ [c, c]) ++ c :: l := by simp
      rw [happ] at hp
      have hp' : [a, a] <+: q ++ [c, c] := List.prefix_of_prefix_length_le hp (List.prefix_append _ _) hlen
      exact h a (List.IsPrefix.isInfix ((List.prefix_cons_inj a).mpr hp'))
    rw [List.cons_append, untilTriple, if_neg ha, ih hq, List.length_cons]

theorem takeWhile_eq_replicate (a : β) (l : List β) :
    l.takeWhile (· = a) = List.replicate (l.takeWhile (· = a)).length a :=
  List.eq_replicate_of_mem fun b hb => by simpa using List.mem_takeWhile_imp hb

theorem bytes_first_isPrefix (a : β) (l : List β) : (first a l).bytes <+: (a :: l).take 128 := by
  rw [first]
  split
  · rw [Packet.bytes, ← takeWhile_eq_replicate]
    exact List.takeWhile_prefix _
  · exact List.take_prefix _ _

theorem untilTriple_pos (h : ¬ [a] <+: l) : 0 < untilTriple (a :: l.take n) := by
  have hne : ¬ [a, a] <+: l.take n := by
    intro hp
    have ha : [a] <+: [a, a] := ⟨[a], rfl⟩
    exact h (ha.trans (hp.trans (List.take_prefix n l)))
  rw [untilTriple, if_neg hne]
  exact Nat.succ_pos _

theorem first_valid (a : β) (l : List β) : (first a l).Valid := by
  have htake : (a :: l).take 128 = a :: l.take 127 := rfl
  rw [first, htake]
  split
  · rename_i hrun
    obtain ⟨t, rfl⟩ := hrun
    have hle := (List.takeWhile_prefix (· = a) (l := a :: List.take 127 ([a] ++ t))).length_le
    refine ⟨?_, ?_⟩
    · simp
    · refine Nat.le_trans hle ?_
      simp only [List.length_cons, List.length_take]
      omega
  · rename_i hne
    have hpos := untilTriple_pos (n := 127) hne
    simp only [Packet.Valid, List.length_take, List.length_cons]
    omega

theorem first_ne_skip (a : β) (l : List β) : first a l ≠ .skip := by
  rw [first]
  split
  · exact fun h => by cases h
  · exact fun h => by cases h

theorem bytes_first_ne_nil (a : β) (l : List β) : (first a l).bytes ≠ [] := by
  have hv := first_valid a l
  cases hp : first a l with
  | skip => exact absurd hp (first_ne_skip a l)
  | literal l' =>
    rw [hp] at hv
    exact List.ne_nil_of_length_pos hv.1
  | run n b =>
    rw [hp] at hv
    have hn := hv.1
    refine List.ne_nil_of_length_pos ?_
    rw [Packet.bytes, List.length_replicate]
    omega

/-- Cut a list into packets from the left. -/
def packets : List β → List (Packet β)
  | [] => []
  | a :: l => first a l :: packets ((a :: l).drop (first a l).bytes.length)
termination_by l => l.length
decreasing_by
  have h := List.length_pos_of_ne_nil (bytes_first_ne_nil a l)
  simp only [List.length_drop, List.length_cons]
  omega

@[simp] theorem packets_nil : packets ([] : List β) = [] := by rw [packets]

theorem packets_cons (a : β) (l : List β) :
    packets (a :: l) = first a l :: packets ((a :: l).drop (first a l).bytes.length) := by
  rw [packets]

theorem packets_valid {p : Packet β} (hp : p ∈ packets l) : p.Valid ∧ p ≠ .skip := by
  induction l using packets.induct with
  | case1 =>
    rw [packets_nil] at hp
    cases hp
  | case2 a l ih =>
    rw [packets_cons] at hp
    obtain rfl | hp := List.mem_cons.mp hp
    · exact ⟨first_valid a l, first_ne_skip a l⟩
    · exact ih hp

@[simp] theorem expand_packets (l : List β) : expand (packets l) = l := by
  induction l using packets.induct with
  | case1 => rw [packets_nil, expand_nil]
  | case2 a l ih =>
    obtain ⟨t, ht⟩ := (bytes_first_isPrefix a l).trans (List.take_prefix 128 (a :: l))
    rw [packets_cons, expand_cons, ih, ← ht, List.drop_left]

/-- What the cutting into packets costs and saves. -/
theorem length_encode_packets (l : List Int8) :
    (encode (packets l)).length + saved (packets l) = l.length + literals (packets l) := by
  have hsize := length_encode (fun p hp => (packets_valid hp).1) fun hskip => (packets_valid (l := l) hskip).2 rfl
  rwa [expand_packets] at hsize

/-- Where the list continues behind its first packet. -/
theorem packets_eq_cons {p : Packet β} {t : List β} (h : first a l = p) (ht : a :: l = p.bytes ++ t) :
    packets (a :: l) = p :: packets t := by
  rw [packets_cons, h, ht, List.drop_left]

/-- A run ends after 128 elements or before another element. -/
theorem packets_run (hn : 2 ≤ n) (hn' : n ≤ 128) (hl : n = 128 ∨ ¬ [a] <+: l) :
    packets (List.replicate n a ++ l) = .run n a :: packets l := by
  obtain ⟨k, rfl⟩ := Nat.exists_eq_add_of_le' hn
  have hcons : List.replicate (k + 2) a ++ l = a :: (a :: (List.replicate k a ++ l)) := by
    simp [List.replicate_succ]
  have hrest : (l.take (128 - (k + 2))).takeWhile (· = a) = [] := by
    obtain hk | hne := hl
    · rw [hk]
      rfl
    · cases l with
      | nil => simp
      | cons b l =>
        have hb : b ≠ a := fun h => hne ⟨l, by rw [h]; rfl⟩
        cases 128 - (k + 2) with
        | zero => rfl
        | succ j => simp [hb]
  have hfront : ((a :: a :: (List.replicate k a ++ l)).take 128).takeWhile (· = a) = List.replicate (k + 2) a := by
    rw [← hcons, List.take_append, List.length_replicate, List.take_replicate, Nat.min_eq_right hn',
      List.takeWhile_append_of_pos (by simp), hrest, List.append_nil]
  rw [hcons]
  refine packets_eq_cons ?_ ?_
  · rw [first, if_pos ⟨_, rfl⟩, hfront, List.length_replicate]
  · rw [Packet.bytes, hcons]

/-- A literal ends after 128 elements or with the list. -/
theorem packets_literal (hp : NoPair q) (ht : NoTriple q) (hq : q ≠ []) (hq' : q.length ≤ 128)
    (hl : q.length = 128 ∨ l = []) : packets (q ++ l) = .literal q :: packets l := by
  obtain ⟨a, q', rfl⟩ := List.exists_cons_of_ne_nil hq
  have hfront : (a :: (q' ++ l)).take 128 = a :: q' := by
    obtain hlen | rfl := hl
    · exact List.take_left' hlen
    · rw [List.append_nil]
      exact List.take_of_length_le hq'
  have hne : ¬ [a] <+: q' ++ l := by
    refine hp.not_prefix (hl.imp_left fun hlen hnil => ?_)
    rw [hnil] at hlen
    cases hlen
  rw [List.cons_append]
  refine packets_eq_cons ?_ rfl
  rw [first, if_neg hne, hfront, untilTriple_of_noTriple ht, List.take_length]

/-- A literal ends before three elements that are equal. -/
theorem packets_literal_triple (hp : NoPair (q ++ [c, c])) (ht : NoTriple (q ++ [c, c])) (hq : q ≠ [])
    (hq' : q.length + 3 ≤ 128) :
    packets (q ++ c :: c :: c :: l) = .literal q :: packets (c :: c :: c :: l) := by
  obtain ⟨a, q', rfl⟩ := List.exists_cons_of_ne_nil hq
  obtain ⟨k, hk⟩ := Nat.exists_eq_add_of_le hq'
  have hfront : (a :: (q' ++ c :: c :: c :: l)).take 128 = (a :: q') ++ c :: c :: c :: l.take k := by
    rw [← List.cons_append, hk, Nat.add_assoc, List.take_length_add_append, Nat.add_comm]
    rfl
  have hne : ¬ [a] <+: q' ++ c :: c :: c :: l := by
    have happ : q' ++ c :: c :: c :: l = (q' ++ [c, c]) ++ c :: l := by simp
    rw [happ]
    exact NoPair.not_prefix hp (.inl (by simp))
  rw [List.cons_append]
  refine packets_eq_cons ?_ rfl
  rw [first, if_neg hne, hfront, untilTriple_append ht, List.take_left]

theorem drop_untilTriple (l : List β) : l.drop (untilTriple l) = [] ∨ ∃ a, [a, a, a] <+: l.drop (untilTriple l) := by
  induction l with
  | nil => exact .inl rfl
  | cons a l ih =>
    rw [untilTriple]
    split
    · rename_i hp
      exact .inr ⟨a, (List.prefix_cons_inj a).mpr hp⟩
    · exact ih

theorem three_le_of_first {b : β} (h : first a l = .run n b) (ht : [c, c, c] <+: a :: l) : 3 ≤ n := by
  obtain ⟨t, ht⟩ := ht
  obtain ⟨rfl, rfl⟩ : c = a ∧ c :: c :: t = l := by simpa using ht
  rw [first, if_pos ⟨c :: t, rfl⟩] at h
  obtain ⟨hn, -⟩ := Packet.run.inj h
  rw [← hn]
  simp

/-- In a list that is no longer than a packet, a run of three or more comes after each literal but the last. -/
theorem literals_le (h : l.length ≤ 128) :
    literals (packets l) ≤ 1 + saved (packets l) ∧
      ((∃ a, [a, a, a] <+: l) → literals (packets l) ≤ saved (packets l)) := by
  induction l using packets.induct with
  | case1 => simp [literals]
  | case2 a l ih =>
    have hrest : ((a :: l).drop (first a l).bytes.length).length ≤ 128 := by
      rw [List.length_drop]
      omega
    obtain ⟨hle, htriple⟩ := ih hrest
    rw [packets_cons]
    cases hp : first a l with
    | skip => exact absurd hp (first_ne_skip a l)
    | run n b =>
      rw [hp] at hle htriple
      simp only [literals, saved]
      refine ⟨by omega, fun ⟨c, hc⟩ => ?_⟩
      have hn := three_le_of_first hp hc
      omega
    | literal q =>
      have hne : ¬ [a] <+: l := by
        intro hrun
        rw [first, if_pos hrun] at hp
        cases hp
      have hq : q = (a :: l).take (untilTriple (a :: l)) := by
        rw [first, if_neg hne, List.take_of_length_le h] at hp
        exact (Packet.literal.inj hp).symm
      have hno : ¬ ∃ c, [c, c, c] <+: a :: l := by
        rintro ⟨c, t, ht⟩
        obtain ⟨rfl, rfl⟩ : c = a ∧ c :: c :: t = l := by simpa using ht
        exact hne ⟨c :: t, rfl⟩
      refine ⟨?_, fun hc => absurd hc hno⟩
      have hdrop : (a :: l).drop (Packet.literal q).bytes.length = (a :: l).drop (untilTriple (a :: l)) := by
        rw [Packet.bytes, hq, List.length_take]
        obtain hmin | hmin := Nat.le_total (untilTriple (a :: l)) (a :: l).length
        · rw [Nat.min_eq_left hmin]
        · rw [Nat.min_eq_right hmin, List.drop_length, List.drop_of_length_le hmin]
      rw [hp, hdrop] at hle htriple
      rw [hdrop]
      simp only [literals, saved]
      obtain hnil | hc := drop_untilTriple (a :: l)
      · simp [hnil, literals]
      · have hle' := htriple hc
        omega

end Cutting

/-! ### Reading a stream -/

section Reading
variable {l l' : List Int8} {p : Packet Int8}

/-- For how many bytes a header says that its packet stands. -/
def announced (h : Int8) : ℕ :=
  if h.toInt = -128 then 0 else if h.toInt < 0 then (1 - h.toInt).toNat else (h.toInt + 1).toNat

/-- The packet at the front of a stream, if all of it is there. -/
def next : List Int8 → Option (Packet Int8 × List Int8)
  | [] => none
  | h :: l =>
    if h.toInt = -128 then some (.skip, l)
    else if h.toInt < 0 then l.head?.map fun b => (.run (announced h) b, l.tail)
    else if announced h ≤ l.length then some (.literal (l.take (announced h)), l.drop (announced h))
    else none

theorem announced_header (hp : p.Valid) : announced (Int8.ofInt p.header) = p.bytes.length := by
  rw [announced, Packet.toInt_header hp]
  cases p with
  | skip => rfl
  | literal q =>
    have hq := hp.1
    rw [Packet.header, if_neg (by omega), if_neg (by omega), Packet.bytes]
    omega
  | run n b =>
    obtain ⟨hn, hn'⟩ := hp
    rw [Packet.header, if_neg (by omega), if_pos (by omega), Packet.bytes, List.length_replicate]
    omega

theorem next_encode (hp : p.Valid) : next (p.encode ++ l) = some (p, l) := by
  have ha := announced_header hp
  have hh := Packet.toInt_header hp
  rw [Packet.encode, List.cons_append, next, ha, hh]
  cases p with
  | skip => rfl
  | literal q =>
    have hq := hp.1
    rw [Packet.header, if_neg (by omega), if_neg (by omega), Packet.data, Packet.bytes, if_pos (by simp),
      List.take_left, List.drop_left]
  | run n b =>
    obtain ⟨hn, hn'⟩ := hp
    rw [Packet.header, if_neg (by omega), if_pos (by omega), Packet.bytes, List.length_replicate]
    rfl

/-- A packet that is read is one that could have been written. -/
theorem eq_of_next (h : next l = some (p, l')) : p.Valid ∧ l = p.encode ++ l' := by
  cases l with
  | nil => cases h
  | cons a l =>
    have hle := a.le_toInt
    have hlt := a.toInt_lt
    rw [next] at h
    split at h
    · rename_i ha
      obtain ⟨rfl, rfl⟩ := Prod.mk.inj (Option.some.inj h)
      refine ⟨trivial, ?_⟩
      rw [Packet.encode, Packet.header, ← ha, Int8.ofInt_toInt]
      rfl
    · rename_i hskip
      split at h
      · rename_i hneg
        have han : ((announced a : ℕ) : ℤ) = 1 - a.toInt := by
          rw [announced, if_neg hskip, if_pos hneg]
          omega
        cases l with
        | nil => cases h
        | cons b l =>
          obtain ⟨rfl, rfl⟩ := Prod.mk.inj (Option.some.inj h)
          refine ⟨⟨by omega, by omega⟩, ?_⟩
          rw [Packet.encode, Packet.header, han, Int.sub_sub_self, Int8.ofInt_toInt]
          rfl
      · rename_i hneg
        have han : ((announced a : ℕ) : ℤ) = a.toInt + 1 := by
          rw [announced, if_neg hskip, if_neg hneg]
          omega
        split at h
        · rename_i hlen
          obtain ⟨rfl, rfl⟩ := Prod.mk.inj (Option.some.inj h)
          have htake : (l.take (announced a)).length = announced a := List.length_take_of_le hlen
          refine ⟨⟨by omega, by omega⟩, ?_⟩
          rw [Packet.encode, Packet.header, htake, han, Int.add_sub_cancel, Int8.ofInt_toInt, Packet.data,
            List.cons_append, List.take_append_drop]
        · cases h

theorem length_lt_of_next (h : next l = some (p, l')) : l'.length < l.length := by
  rw [(eq_of_next h).2, Packet.encode, List.cons_append, List.length_cons, List.length_append]
  omega

/-- Cut a stream into its packets; what is left is not a whole packet. -/
def parse (l : List Int8) : List (Packet Int8) × List Int8 :=
  match h : next l with
  | none => ([], l)
  | some (p, l') =>
    have := length_lt_of_next h
    (p :: (parse l').1, (parse l').2)
termination_by l.length

theorem parse_of_none (h : next l = none) : parse l = ([], l) := by
  rw [parse]
  split
  · rfl
  · rename_i hnext
    rw [h] at hnext
    cases hnext

theorem parse_of_next (h : next l = some (p, l')) : parse l = (p :: (parse l').1, (parse l').2) := by
  rw [parse]
  split
  · rename_i hnext
    rw [h] at hnext
    cases hnext
  · rename_i hnext
    rw [h] at hnext
    obtain ⟨rfl, rfl⟩ := Prod.mk.inj (Option.some.inj hnext)
    rfl

/-- How many bytes the whole packets of a stream stand for. -/
def total (l : List Int8) : ℕ := (expand (parse l).1).length

/-- How many bytes the packet that is not whole would stand for. -/
def cutOff (l : List Int8) : ℕ := ((parse l).2.head?.map announced).getD 0

theorem total_of_none (h : next l = none) : total l = 0 ∧ cutOff l = (l.head?.map announced).getD 0 := by
  rw [total, cutOff, parse_of_none h]
  exact ⟨rfl, rfl⟩

theorem total_of_next (h : next l = some (p, l')) : total l = p.bytes.length + total l' ∧ cutOff l = cutOff l' := by
  rw [total, cutOff, parse_of_next h]
  exact ⟨by rw [expand_cons, List.length_append]; rfl, rfl⟩

end Reading
end CloudAgent.PackBits
