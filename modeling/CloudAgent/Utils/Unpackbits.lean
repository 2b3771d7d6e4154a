import CloudAgent.Lib.PackBits

/-! `unpackbits`, which decompresses the motion maps. -/
namespace CloudAgent.Utils.Packbits
open PackBits

/-- How `unpackbits` ends: it reads behind its source, returns null, or returns what it has not read. -/
inductive End
  | outside | null | done (rest : List Int8)
  deriving DecidableEq

/-- `unpackbits`, with what can be read of the source: what it writes, and how it ends. -/
def unpackbits (source : List Int8) (destcount : ℤ) : List Int8 × End :=
  if 0 < destcount then
    match source with
    | [] => ([], .outside)
    | h :: source =>
      let runlength := h.toInt
      if runlength = -128 then unpackbits source destcount
      else if runlength < 0 then
        let runlength := -runlength + 1
        if destcount < runlength then ([], .null)
        else
          match source with
          | [] => ([], .outside)
          | b :: source =>
            let (written, ends) := unpackbits source (destcount - runlength)
            (List.replicate runlength.toNat b ++ written, ends)
      else
        let runlength := runlength + 1
        if destcount < runlength then ([], .null)
        else if source.length < runlength.toNat then ([], .outside)
        else
          let (written, ends) := unpackbits (source.drop runlength.toNat) (destcount - runlength)
          (source.take runlength.toNat ++ written, ends)
  else ([], if destcount = 0 then .done source else .null)
termination_by source.length
decreasing_by
  · exact Nat.lt_succ_self _
  · exact Nat.lt_succ_of_lt (Nat.lt_succ_self _)
  · exact Nat.lt_succ_of_le (List.drop_sublist _ _).length_le

section Unpack
variable {l l' : List Int8} {p : Packet Int8} {n : ℤ}

theorem unpackbits_of_nonpos (hn : n ≤ 0) : unpackbits l n = ([], if n = 0 then .done l else .null) := by
  rw [unpackbits.eq_def, if_neg (not_lt.mpr hn)]

theorem unpackbits_inside_of_nonpos (hn : n ≤ 0) : (unpackbits l n).2 ≠ .outside := by
  rw [unpackbits_of_nonpos hn]
  dsimp only
  split <;> exact fun h => by cases h

/-- A packet that is all there: it is too long, or it is written. -/
theorem unpackbits_of_next (h : next l = some (p, l')) (hn : 0 < n) :
    unpackbits l n = if n < p.bytes.length then ([], .null)
      else (p.bytes ++ (unpackbits l' (n - p.bytes.length)).1, (unpackbits l' (n - p.bytes.length)).2) := by
  obtain ⟨hv, rfl⟩ := eq_of_next h
  have hh := Packet.toInt_header hv
  rw [Packet.encode, List.cons_append, unpackbits.eq_def, if_pos hn]
  dsimp only
  rw [hh]
  cases p with
  | skip =>
    have hle : ¬ n < 0 := not_lt.mpr hn.le
    simp [Packet.header, Packet.data, Packet.bytes, hle]
  | literal q =>
    have hq := hv.1
    have hrun : (q.length : ℤ) - 1 + 1 = q.length := Int.sub_add_cancel _ _
    rw [Packet.header, if_neg (by omega), if_neg (by omega), hrun, Int.toNat_natCast, Packet.data, Packet.bytes,
      if_neg (by simp : ¬ (q ++ l').length < q.length), List.take_left, List.drop_left]
  | run k b =>
    obtain ⟨hk, hk'⟩ := hv
    have hrun : -(1 - (k : ℤ)) + 1 = k := by omega
    rw [Packet.header, if_neg (by omega), if_pos (by omega), hrun, Int.toNat_natCast, Packet.bytes,
      List.length_replicate]
    rfl

/-- A packet that is not all there: it is too long, or its bytes are read outside. -/
theorem unpackbits_of_stuck (h : next l = none) (hn : 0 < n) :
    unpackbits l n = ([], if n < (l.head?.map announced).getD 0 then .null else .outside) := by
  rw [unpackbits.eq_def, if_pos hn]
  cases l with
  | nil =>
    have hle : ¬ n < 0 := not_lt.mpr hn.le
    simp [hle]
  | cons a l =>
    rw [next] at h
    dsimp only
    split at h
    · cases h
    · rename_i hskip
      rw [if_neg hskip]
      split at h
      · rename_i hneg
        have han : ((announced a : ℕ) : ℤ) = -a.toInt + 1 := by
          rw [announced, if_neg hskip, if_pos hneg]
          omega
        obtain rfl : l = [] := by simpa using h
        rw [if_pos hneg, List.head?_cons, Option.map_some, Option.getD_some, han]
        split <;> rfl
      · rename_i hneg
        have han : ((announced a : ℕ) : ℤ) = a.toInt + 1 := by
          rw [announced, if_neg hskip, if_neg hneg]
          omega
        split at h
        · cases h
        · rename_i hlen
          have hlen' : l.length < (a.toInt + 1).toNat := by omega
          rw [if_neg hneg, List.head?_cons, Option.map_some, Option.getD_some, han, if_pos hlen']
          split <;> rfl

/-- What `encode` writes for some packets is read back. -/
theorem unpackbits_encode {ps : List (Packet Int8)} (hv : ∀ p ∈ ps, p.Valid ∧ p ≠ .skip) (l : List Int8) :
    unpackbits (encode ps ++ l) (expand ps).length = (expand ps, .done l) := by
  induction ps with
  | nil => exact unpackbits_of_nonpos le_rfl
  | cons p ps ih =>
    obtain ⟨⟨hp, hskip⟩, hv⟩ := List.forall_mem_cons.mp hv
    have hpos : 0 < p.bytes.length := by
      cases p with
      | skip => exact absurd rfl hskip
      | literal q => exact hp.1
      | run k b => rw [Packet.bytes, List.length_replicate]; exact Nat.lt_of_lt_of_le Nat.two_pos hp.1
    have hsub : ((expand (p :: ps)).length : ℤ) - p.bytes.length = (expand ps).length := by
      rw [expand_cons, List.length_append]
      omega
    have hle : ¬ ((expand (p :: ps)).length : ℤ) < p.bytes.length := by omega
    rw [encode_cons, List.append_assoc, unpackbits_of_next (next_encode hp) (by omega), if_neg hle, hsub, ih hv,
      expand_cons]

/-- No more is written than was asked for. -/
theorem length_unpackbits_le (l : List Int8) (n : ℤ) : ((unpackbits l n).1.length : ℤ) ≤ max 0 n := by
  induction l using parse.induct generalizing n with
  | case1 l h =>
    obtain hn | hn := le_or_gt n 0
    · simp [unpackbits_of_nonpos hn]
    · simp [unpackbits_of_stuck h hn]
  | case2 l p l' h _ ih =>
    obtain hn | hn := le_or_gt n 0
    · simp [unpackbits_of_nonpos hn]
    · rw [unpackbits_of_next h hn]
      split
      · simp
      · have hrest := ih (n - p.bytes.length)
        rw [List.length_append]
        push_cast
        omega

/-- Reading stays inside exactly if the packets suffice, or the one that is cut off announces too much. -/
theorem unpackbits_ne_outside_iff (l : List Int8) (n : ℤ) :
    (unpackbits l n).2 ≠ .outside ↔ n ≤ total l ∨ n < total l + cutOff l := by
  induction l using parse.induct generalizing n with
  | case1 l h =>
    obtain ⟨htotal, hcut⟩ := total_of_none h
    obtain hn | hn := le_or_gt n 0
    · exact iff_of_true (unpackbits_inside_of_nonpos hn) (.inl (by omega))
    · rw [unpackbits_of_stuck h hn, htotal, hcut]
      split
      · exact iff_of_true (fun h => by cases h) (.inr (by omega))
      · exact iff_of_false (fun h => h rfl) (by omega)
  | case2 l p l' h _ ih =>
    obtain ⟨htotal, hcut⟩ := total_of_next h
    obtain hn | hn := le_or_gt n 0
    · exact iff_of_true (unpackbits_inside_of_nonpos hn) (.inl (by omega))
    · rw [unpackbits_of_next h hn, htotal, hcut]
      split
      · exact iff_of_true (fun h => by cases h) (.inl (by omega))
      · dsimp only
        rw [ih]
        omega

end Unpack
end CloudAgent.Utils.Packbits
