import CloudAgent.Platform.ReverseTunnel

/-! The loop that writes to an ssh channel: whether it ends, and what it means for the other channels. -/
namespace CloudAgent.Platform.ReverseTunnel

/-- The first `n` results of `libssh2_channel_write`. -/
def results (r : ℕ → ℤ) (n : ℕ) : List ℤ := (List.range n).map r

/-- The channel and the last result, where a visit gets to the loop. -/
def reachesWrites (io : ChannelIo) (c : SshChannel) : Option (SshChannel × ℤ) :=
  match recvLocal io c with
  | (_, _, some _) => none
  | (c, i, none) =>
    match sendLocal io c i with
    | (_, _, some _) => none
    | (c, i, none) => if io.sshRc ≠ sshErrorEagain then some (c, i) else none

/-- The answers for all channels, with the first `n` results of the writes to one. -/
def withResults (ios : ℕ → ChannelIo) (fd : ℕ) (r : ℕ → ℤ) (n : ℕ) : ℕ → ChannelIo :=
  Function.update ios fd { ios fd with writes := results r n }

variable {ios : ℕ → ChannelIo} {io : ChannelIo} {fd : ℕ} {c₀ c c' : SshChannel} {i : ℤ} {r : ℕ → ℤ} {n : ℕ}
  {reason : Option CloseReason} {xs ys : List (ℕ × SshChannel)}

/-! ### The loop -/

/-- The loop ends once it has nothing to write or something was accepted. -/
theorem writeSsh_isSome_iff (rs : List ℤ) (c : SshChannel) (i : ℤ) :
    (writeSsh rs c i).isSome = true ↔ c.rx.buffer = [] ∨ ∃ x ∈ rs, 0 < x := by
  induction rs generalizing i with
  | nil =>
    rw [writeSsh]
    split
    · rename_i hempty
      exact iff_of_true rfl (.inl hempty)
    · rename_i hfull
      simp [hfull]
  | cons x rs ih =>
    rw [writeSsh]
    split
    · rename_i hempty
      exact iff_of_true rfl (.inl hempty)
    · rename_i hfull
      split
      · rename_i hpos
        exact iff_of_true rfl (.inr ⟨x, List.mem_cons_self, hpos⟩)
      · rename_i hpos
        rw [ih]
        simp [hfull, hpos]

theorem writeSsh_results_isSome_iff :
    (writeSsh (results r n) c i).isSome = true ↔ c.rx.buffer = [] ∨ ∃ m < n, 0 < r m := by
  rw [writeSsh_isSome_iff]
  simp [results]

/-! ### A visit that gets to the loop -/

theorem reachesWrites_eq_some (h : reachesWrites io c₀ = some (c, i)) :
    0 ≤ i ∧ io.sshRc ≠ sshErrorEagain ∧
      ∀ ws, visit { io with writes := ws } c₀ = serveSsh { io with writes := ws } c i := by
  have hrecv (ws : List ℤ) : recvLocal { io with writes := ws } c₀ = recvLocal io c₀ := rfl
  have hsend (ws : List ℤ) (c : SshChannel) (i : ℤ) : sendLocal { io with writes := ws } c i = sendLocal io c i := rfl
  obtain ⟨-, -, heq⟩ | ⟨code, -, -, heq⟩ | ⟨c₁, i₁, -, heq, hi₁, -⟩ := recvLocal_spec io c₀
  · simp [reachesWrites, heq] at h
  · simp [reachesWrites, heq] at h
  · obtain ⟨-, heq'⟩ | ⟨c₂, i₂, -, heq', hi₂, -⟩ := sendLocal_spec io c₁ hi₁
    · simp [reachesWrites, heq, heq'] at h
    · simp only [reachesWrites, heq, heq'] at h
      split at h
      · rename_i hready
        obtain ⟨rfl, rfl⟩ := Prod.mk.inj (Option.some.inj h)
        refine ⟨hi₂, hready, fun ws => ?_⟩
        rw [visit, hrecv, heq]
        dsimp only
        rw [hsend, heq']
      · cases h

/-- The visit has no result as long as the loop has none. -/
theorem visit_isSome (h : reachesWrites io c₀ = some (c, i)) (ws : List ℤ) :
    (visit { io with writes := ws } c₀).isSome = (writeSsh ws c i).isSome := by
  obtain ⟨-, hready, hvisit⟩ := reachesWrites_eq_some h
  rw [hvisit, serveSsh, if_pos hready, Option.isSome_map]

/-- An error of a write does not close the channel. -/
theorem visit_ne_writeFailed (h : reachesWrites io c₀ = some (c, i)) (ws : List ℤ) :
    visit { io with writes := ws } c₀ ≠ some (c', some .writeFailed) := by
  intro hvisit
  obtain ⟨hi, -, heq⟩ := reachesWrites_eq_some h
  rw [heq] at hvisit
  obtain ⟨-, hreason, -⟩ | ⟨-, hreason | hreason⟩ := serveSsh_spec hi hvisit <;> cases hreason

/-! ### All channels -/

variable {opened : List (ℕ × SshChannel)} {closed : List (ℕ × SshChannel × CloseReason)}

theorem visitAll_cons (ios : ℕ → ChannelIo) (fd : ℕ) (c : SshChannel) (ys : List (ℕ × SshChannel)) :
    visitAll ios ((fd, c) :: ys) = (visit (ios fd) c).bind fun v => (visitAll ios ys).map fun w =>
      match v.2 with
      | none => ((fd, v.1) :: w.1, w.2)
      | some reason => (w.1, (fd, v.1, reason) :: w.2) := by
  rw [visitAll]
  simp only [Option.bind_eq_bind]
  refine congrArg _ (funext fun v => ?_)
  obtain ⟨c', _ | reason⟩ := v <;> cases visitAll ios ys <;> rfl

/-- A channel that is closed leaves the others as they are without it, and in their order. -/
theorem visitAll_of_closes {reason : CloseReason} (h : visit (ios fd) c = some (c', some reason))
    (hall : visitAll ios (xs ++ (fd, c) :: ys) = some (opened, closed)) :
    ∃ before after, closed = before ++ (fd, c', reason) :: after ∧
      visitAll ios (xs ++ ys) = some (opened, before ++ after) := by
  induction xs generalizing opened closed with
  | nil =>
    rw [List.nil_append, visitAll_cons, h, Option.bind_some, Option.map_eq_some_iff] at hall
    obtain ⟨⟨o, cl⟩, hrest, heq⟩ := hall
    obtain ⟨rfl, rfl⟩ := Prod.mk.inj heq
    exact ⟨[], cl, rfl, hrest⟩
  | cons x xs ih =>
    rw [List.cons_append, visitAll_cons, Option.bind_eq_some_iff] at hall
    obtain ⟨v, hv, hall⟩ := hall
    obtain ⟨⟨o, cl⟩, hrest, heq⟩ := Option.map_eq_some_iff.mp hall
    obtain ⟨before, after, rfl, hwithout⟩ := ih hrest
    obtain ⟨x, cx⟩ := x
    rw [List.cons_append, visitAll_cons, hv, Option.bind_some, hwithout, Option.map_some]
    cases hreason : v.2 with
    | none =>
      rw [hreason] at heq
      obtain ⟨rfl, rfl⟩ := Prod.mk.inj heq
      exact ⟨before, after, rfl, rfl⟩
    | some other =>
      rw [hreason] at heq
      obtain ⟨rfl, rfl⟩ := Prod.mk.inj heq
      exact ⟨(x, v.1, other) :: before, after, rfl, rfl⟩

/-- A channel whose visit does not end leaves all the others without a result. -/
theorem visitAll_of_hangs (h : visit (ios fd) c = none) : visitAll ios (xs ++ (fd, c) :: ys) = none := by
  induction xs with
  | nil => rw [List.nil_append, visitAll_cons, h, Option.bind_none]
  | cons x xs ih =>
    rw [List.cons_append, visitAll_cons, ih]
    simp

/-- A channel for which nothing is ever accepted leaves the thread in its loop, whatever there is to do for the
others. -/
theorem visitAll_of_no_write (h : reachesWrites (ios fd) c₀ = some (c, i)) (hfull : c.rx.buffer ≠ [])
    (hr : ∀ m, r m ≤ 0) (k : ℕ) : visitAll (withResults ios fd r k) (xs ++ (fd, c₀) :: ys) = none := by
  refine visitAll_of_hangs (Option.not_isSome_iff_eq_none.mp ?_)
  rw [withResults, Function.update_self, visit_isSome h, writeSsh_results_isSome_iff]
  rintro (hempty | ⟨m, -, hm⟩)
  · exact hfull hempty
  · exact absurd (hr m) (not_le.mpr hm)

/-- The `n`-th call of `libssh2_channel_write` is made. -/
def Called (r : ℕ → ℤ) (c : SshChannel) (n : ℕ) : Prop := c.rx.buffer ≠ [] ∧ ∀ m < n, r m ≤ 0

/-- A channel that was `c₀` before the visit, and is `c` where the loop begins, cannot hang the others: the loop ends,
and an error closes this channel and leaves the others as they are without it. -/
structure CannotHang (ios : ℕ → ChannelIo) (fd : ℕ) (c₀ c : SshChannel) (i : ℤ) (r : ℕ → ℤ) : Prop where
  ends : ∃ n, (writeSsh (results r n) c i).isSome = true
  closes : ∀ n, Called r c n → r n < 0 → r n ≠ sshErrorEagain → ∃ k c',
    visit (withResults ios fd r k fd) c₀ = some (c', some .writeFailed) ∧
    ∀ xs ys opened closed, visitAll (withResults ios fd r k) (xs ++ (fd, c₀) :: ys) = some (opened, closed) →
      ∃ before after, closed = before ++ (fd, c', .writeFailed) :: after ∧
        visitAll (withResults ios fd r k) (xs ++ ys) = some (opened, before ++ after)

/-- A channel cannot hang the others exactly if there is nothing to write, or something is accepted in the end and until
then there are no errors. -/
theorem cannotHang_iff (h : reachesWrites (ios fd) c₀ = some (c, i)) (r : ℕ → ℤ) :
    CannotHang ios fd c₀ c i r ↔
      c.rx.buffer = [] ∨ ∃ n, 0 < r n ∧ ∀ m < n, r m = sshErrorEagain ∨ r m = 0 := by
  have hself (k : ℕ) : withResults ios fd r k fd = { ios fd with writes := results r k } := Function.update_self ..
  constructor
  · rintro ⟨⟨n, hn⟩, hcloses⟩
    obtain hempty | ⟨m, -, hm⟩ := writeSsh_results_isSome_iff.mp hn
    · exact .inl hempty
    by_cases hempty : c.rx.buffer = []
    · exact .inl hempty
    classical
    have hex : ∃ m, 0 < r m := ⟨m, hm⟩
    refine .inr ⟨Nat.find hex, Nat.find_spec hex, fun m hm => ?_⟩
    have hle (k : ℕ) (hk : k < Nat.find hex) : r k ≤ 0 := not_lt.mp (Nat.find_min hex hk)
    by_contra herror
    push Not at herror
    obtain ⟨k, c', hvisit, -⟩ := hcloses m ⟨hempty, fun k hk => hle k (hk.trans hm)⟩
      (lt_of_le_of_ne (hle m hm) herror.2) herror.1
    rw [hself] at hvisit
    exact visit_ne_writeFailed h _ hvisit
  · rintro (hempty | ⟨n, hn, hbefore⟩)
    · exact ⟨⟨0, writeSsh_results_isSome_iff.mpr (.inl hempty)⟩, fun n hcalled => absurd hempty hcalled.1⟩
    · refine ⟨⟨n + 1, writeSsh_results_isSome_iff.mpr (.inr ⟨n, Nat.lt_succ_self n, hn⟩)⟩, fun m hcalled hneg hne => ?_⟩
      obtain hlt | rfl | hgt := Nat.lt_trichotomy m n
      · obtain heq | heq := hbefore m hlt
        · exact absurd heq hne
        · omega
      · omega
      · have hle := hcalled.2 n hgt
        omega

/-- Two bytes wait for the ssh channel, which takes them after `LIBSSH2_ERROR_EAGAIN`. -/
theorem cannotHang_again : CannotHang (fun _ => ⟨false, false, .data [], 0, 1, [], .data [], false⟩) 5
    ⟨Pipe.empty.insert [1, 2], .empty⟩ ⟨Pipe.empty.insert [1, 2], .empty⟩ 0
    fun n => if n = 0 then sshErrorEagain else 2 :=
  (cannotHang_iff rfl _).mpr (.inr ⟨1, by decide, by decide⟩)

/-- `LIBSSH2_ERROR_CHANNEL_CLOSED` for every write. -/
theorem not_cannotHang : ¬ CannotHang (fun _ => ⟨false, false, .data [], 0, 1, [], .data [], false⟩) 5
    ⟨Pipe.empty.insert [1, 2], .empty⟩ ⟨Pipe.empty.insert [1, 2], .empty⟩ 0 fun _ => -26 := by
  rintro ⟨⟨n, hn⟩, -⟩
  obtain hempty | ⟨m, -, hm⟩ := writeSsh_results_isSome_iff.mp hn
  · revert hempty
    decide
  · revert hm
    decide

end CloudAgent.Platform.ReverseTunnel
