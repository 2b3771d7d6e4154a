import CloudAgent.Lib.Pipe
import CloudAgent.Lib.Transition
import Mathlib.Data.List.Sort

/-! The reverse tunnel moves bytes between the channels of an ssh session and local connections. One
call of `channels_loop` visits every channel; the answers of the sockets and of the ssh library are
inputs, so that any split of the traffic into reads and partial writes is a run. -/
namespace CloudAgent.Platform
open Transition

/-- `LIBSSH2_ERROR_EAGAIN`. -/
def sshErrorEagain : ℤ := -37

/-- `ssh_channel`: `rx` holds what was read from the local connection, `tx` what was read from the ssh
channel. -/
structure SshChannel where
  rx : Pipe UInt8 := .empty
  tx : Pipe UInt8 := .empty

/-- A read returns bytes, none at the end of a local connection, or a negative code. -/
inductive ReadResult
  | data (bytes : List UInt8)
  | failed (code : ℤ)
  deriving DecidableEq, Repr

/-- What the calls for one channel answer. `writes` are the results of `libssh2_channel_write`, one
after another. -/
structure ChannelIo where
  canRead : Bool
  canWrite : Bool
  recv : ReadResult
  send : ℤ
  sshRc : ℤ
  writes : List ℤ
  read : ReadResult
  eof : Bool
  deriving DecidableEq, Repr

/-- The call after which `_close_channel` is called. -/
inductive CloseReason
  | recvFinished | recvFailed | sendFailed | writeFailed | readFailed | channelEof
  deriving DecidableEq, Repr

/-- `reverse_tunnel`: the channels by the descriptors of their local connections, and the channels that
were closed. -/
structure ReverseTunnel where
  sshChannels : List (ℕ × SshChannel) := []
  closed : List (ℕ × SshChannel × CloseReason) := []

namespace ReverseTunnel

/-! ### One channel -/

/-- Read from the local connection. The last result is passed on. -/
def recvLocal (io : ChannelIo) (c : SshChannel) : SshChannel × ℤ × Option CloseReason :=
  if io.canRead ∧ c.rx.buffer.length < 1024 * 1024 then
    match io.recv with
    | .data [] => (c, 0, some .recvFinished)
    | .data bytes => ({ c with rx := c.rx.insert bytes }, bytes.length, none)
    | .failed code => (c, code, some .recvFailed)
  else (c, 0, none)

/-- Write to the local connection. -/
def sendLocal (io : ChannelIo) (c : SshChannel) (i : ℤ) : SshChannel × ℤ × Option CloseReason :=
  if io.canWrite ∧ c.tx.buffer ≠ [] then
    if io.send > 0 then ({ c with tx := c.tx.erase io.send.toNat }, io.send, none)
    else if io.send < 0 then (c, io.send, some .sendFailed)
    else (c, io.send, none)
  else (c, i, none)

/-- The loop that writes to the ssh channel until something is accepted. It has no result while the
answers have not come. -/
def writeSsh : List ℤ → SshChannel → ℤ → Option (SshChannel × ℤ)
  | [], c, i => if c.rx.buffer = [] then some (c, i) else none
  | r :: rs, c, i =>
    if c.rx.buffer = [] then some (c, i)
    else if r > 0 then some ({ c with rx := c.rx.erase r.toNat }, r)
    else writeSsh rs c r

/-- Read from the ssh channel, and close it at its end. -/
def readSsh (io : ChannelIo) (c : SshChannel) : SshChannel × Option CloseReason :=
  match io.read with
  | .failed code =>
    if code ≠ sshErrorEagain then (c, some .readFailed)
    else (c, if io.eof then some .channelEof else none)
  | .data bytes => ({ c with tx := c.tx.insert bytes }, if io.eof then some .channelEof else none)

/-- Write to the ssh channel and read from it. -/
def serveSsh (io : ChannelIo) (c : SshChannel) (i : ℤ) : Option (SshChannel × Option CloseReason) :=
  if io.sshRc ≠ sshErrorEagain then
    (writeSsh io.writes c i).map fun (c, i) =>
      if i < 0 ∧ i ≠ sshErrorEagain then (c, some .writeFailed) else readSsh io c
  else some (c, none)

/-- The body of the loop over the channels. -/
def visit (io : ChannelIo) (c : SshChannel) : Option (SshChannel × Option CloseReason) :=
  match recvLocal io c with
  | (c, _, some reason) => some (c, some reason)
  | (c, i, none) =>
    match sendLocal io c i with
    | (c, _, some reason) => some (c, some reason)
    | (c, i, none) => serveSsh io c i

/-! ### All channels -/

/-- What the loop leaves open, and what it closes. -/
def visitAll (io : ℕ → ChannelIo) :
    List (ℕ × SshChannel) → Option (List (ℕ × SshChannel) × List (ℕ × SshChannel × CloseReason))
  | [] => some ([], [])
  | (fd, c) :: rest => do
    let (c, reason) ← visit (io fd) c
    let (open_, closed) ← visitAll io rest
    match reason with
    | none => some ((fd, c) :: open_, closed)
    | some reason => some (open_, (fd, c, reason) :: closed)

/-- `_open_channel` with a new local connection, and one call of `channels_loop` with what its
`select` returned. -/
inductive Action
  | openChannel (fd : ℕ)
  | channelsLoop (rc : ℤ) (io : ℕ → ChannelIo)

def step (t : ReverseTunnel) : Action → Option ReverseTunnel
  | .openChannel fd =>
    -- a descriptor in use is not given out again
    if fd ∈ t.sshChannels.map Prod.fst then none
    else some { t with sshChannels := t.sshChannels.orderedInsert (fun a b => a.1 ≤ b.1) (fd, {}) }
  | .channelsLoop rc io =>
    if rc > 0 then
      (visitAll io t.sshChannels).map fun (open_, closed) =>
        { sshChannels := open_, closed := t.closed ++ closed }
    else some t

/-! ### The tunnel as a pipe -/

/-- What was delivered on either side is a prefix of what was read on the other. -/
def InOrder (c : SshChannel) : Prop := c.tx.output <+: c.tx.input ∧ c.rx.output <+: c.rx.input

/-- A side that has finished is delivered as a whole. -/
def Complete (c : SshChannel) (reason : CloseReason) : Prop :=
  (reason = .recvFinished → c.rx.output = c.rx.input) ∧ (reason = .channelEof → c.tx.output = c.tx.input)

/-- The tunnel is a faithful pipe. -/
structure Faithful (t : ReverseTunnel) : Prop where
  inOrder : (∀ e ∈ t.sshChannels, InOrder e.2) ∧ ∀ e ∈ t.closed, InOrder e.2.1
  complete : ∀ e ∈ t.closed, Complete e.2.1 e.2.2

theorem inOrder (c : SshChannel) : InOrder c := ⟨c.tx.output_prefix, c.rx.output_prefix⟩

/-- No byte is ever delivered out of order, so only what a close cuts off is in question. -/
theorem faithful_iff {t : ReverseTunnel} : Faithful t ↔ ∀ e ∈ t.closed, Complete e.2.1 e.2.2 :=
  ⟨Faithful.complete, fun h => ⟨⟨fun e _ => inOrder e.2, fun e _ => inOrder e.2.1⟩, h⟩⟩

/-- The loop calls `recv` for the channel. -/
def receives (io : ChannelIo) (c : SshChannel) : Bool :=
  io.canRead && decide (c.rx.buffer.length < 1024 * 1024)

/-- When `recv` returns 0, nothing that was read before waits for the ssh channel. -/
def recvLeavesNothing (io : ChannelIo) (c : SshChannel) : Bool :=
  !(receives io c && io.recv = .data []) || c.rx.buffer = []

/-- `recv` does not close the channel. -/
def recvStays (io : ChannelIo) (c : SshChannel) : Bool :=
  !receives io c ||
    match io.recv with
    | .data bytes => bytes ≠ []
    | .failed _ => false

/-- `send` does not close the channel. -/
def sendStays (io : ChannelIo) (c : SshChannel) : Bool :=
  !(io.canWrite && c.tx.buffer ≠ []) || 0 ≤ io.send

/-- The ssh channel is read and found to be at its end. -/
def sshEnds (io : ChannelIo) : Bool :=
  io.sshRc ≠ sshErrorEagain &&
    (match io.read with
      | .data _ => true
      | .failed code => code = sshErrorEagain) && io.eof

/-- What `send` leaves of the bytes for the local connection. -/
def unsent (io : ChannelIo) (c : SshChannel) : List UInt8 :=
  if io.canWrite then c.tx.buffer.drop io.send.toNat else c.tx.buffer

/-- The bytes of the last read from the ssh channel. -/
def ReadResult.bytes : ReadResult → List UInt8
  | .data bytes => bytes
  | .failed _ => []

/-- When the ssh channel is at its end, `send` has accepted all that was waiting for the local
connection, and the last read has brought nothing. -/
def eofLeavesNothing (io : ChannelIo) (c : SshChannel) : Bool :=
  !(recvStays io c && sendStays io c && sshEnds io) || (unsent io c = [] && ReadResult.bytes io.read = [])

/-- Every channel that the loop visits may be closed by the visit. -/
def LeavesNothing (t : ReverseTunnel) : Action → Prop
  | .openChannel _ => True
  | .channelsLoop rc io => rc > 0 → ∀ e ∈ t.sshChannels,
    recvLeavesNothing (io e.1) e.2 = true ∧ eofLeavesNothing (io e.1) e.2 = true

instance (t : ReverseTunnel) : ∀ a, Decidable (LeavesNothing t a)
  | .openChannel _ => isTrue trivial
  | .channelsLoop _ _ => inferInstanceAs (Decidable (_ → _))

/-! ### One visit -/

variable {io : ChannelIo} {c c' : SshChannel} {i i' : ℤ} {reason : Option CloseReason}

theorem recvLocal_spec (io : ChannelIo) (c : SshChannel) :
    (receives io c = true ∧ io.recv = .data [] ∧ recvLocal io c = (c, 0, some .recvFinished)) ∨
      (∃ code, receives io c = true ∧ io.recv = .failed code ∧ recvLocal io c = (c, code, some .recvFailed)) ∨
      ∃ c' i, recvStays io c = true ∧ recvLocal io c = (c', i, none) ∧ 0 ≤ i ∧ c'.tx = c.tx := by
  by_cases hreads : io.canRead = true ∧ c.rx.buffer.length < 1024 * 1024
  · have hreceives : receives io c = true := by simp [receives, hreads]
    match hrecv : io.recv with
    | .data [] => exact .inl ⟨hreceives, rfl, by simp [recvLocal, hreads, hrecv]⟩
    | .failed code => exact .inr (.inl ⟨code, hreceives, rfl, by simp [recvLocal, hreads, hrecv]⟩)
    | .data (b :: bytes) =>
      refine .inr (.inr ⟨{ c with rx := c.rx.insert (b :: bytes) }, _, ?_, by simp [recvLocal, hreads, hrecv],
        Int.natCast_nonneg (b :: bytes).length, rfl⟩)
      simp [recvStays, hrecv]
  · have hreceives : receives io c = false := by simpa [receives] using hreads
    exact .inr (.inr ⟨c, 0, by simp [recvStays, hreceives], by simp only [recvLocal, hreads, if_false],
      le_rfl, rfl⟩)

theorem sendLocal_spec (io : ChannelIo) (c : SshChannel) (hi : 0 ≤ i) :
    (sendStays io c = false ∧ sendLocal io c i = (c, io.send, some .sendFailed)) ∨
      ∃ c' i', sendStays io c = true ∧ sendLocal io c i = (c', i', none) ∧ 0 ≤ i' ∧
        c'.tx.buffer = unsent io c := by
  by_cases hw : io.canWrite = true ∧ c.tx.buffer ≠ []
  · by_cases hpos : io.send > 0
    · refine .inr ⟨{ c with tx := c.tx.erase io.send.toNat }, io.send, ?_, by simp [sendLocal, hw, hpos],
        hpos.le, by simp [unsent, hw]⟩
      simp [sendStays, hpos.le]
    · by_cases hneg : io.send < 0
      · refine .inl ⟨?_, by simp [sendLocal, hw, hpos, hneg]⟩
        simp [sendStays, hw, hneg]
      · have hzero : io.send.toNat = 0 := by omega
        refine .inr ⟨c, io.send, ?_, by simp [sendLocal, hw, hpos, hneg], not_lt.mp hneg,
          by simp [unsent, hzero]⟩
        simp [sendStays, not_lt.mp hneg]
  · refine .inr ⟨c, i, ?_, by simp only [sendLocal, hw, if_false], hi, ?_⟩
    · have hidle : (io.canWrite && decide (c.tx.buffer ≠ [])) = false := by simpa using hw
      rw [sendStays, hidle, Bool.not_false, Bool.true_or]
    · unfold unsent
      split
      · rename_i hcan
        have hempty : c.tx.buffer = [] := by
          by_contra hfull
          exact hw ⟨hcan, hfull⟩
        rw [hempty, List.drop_nil]
      · rfl

/-- Whatever was in the buffer, the loop ends with a result that is not negative. -/
theorem writeSsh_result {rs : List ℤ} (hi : c.rx.buffer = [] → 0 ≤ i)
    (h : writeSsh rs c i = some (c', i')) : 0 ≤ i' ∧ c'.tx = c.tx := by
  induction rs generalizing i with
  | nil =>
    simp only [writeSsh] at h
    split at h
    · rename_i hempty
      obtain ⟨rfl, rfl⟩ := Prod.mk.inj (Option.some.inj h)
      exact ⟨hi hempty, rfl⟩
    · cases h
  | cons r rs ih =>
    simp only [writeSsh] at h
    split at h
    · rename_i hempty
      obtain ⟨rfl, rfl⟩ := Prod.mk.inj (Option.some.inj h)
      exact ⟨hi hempty, rfl⟩
    · rename_i hfull
      split at h
      · rename_i hpos
        obtain ⟨rfl, rfl⟩ := Prod.mk.inj (Option.some.inj h)
        exact ⟨hpos.le, rfl⟩
      · exact ih (fun hempty => absurd hempty hfull) h

/-- The channel is closed here by the end of the ssh channel or by an error of its read. -/
theorem serveSsh_spec (hi : 0 ≤ i) (h : serveSsh io c i = some (c', reason)) :
    (sshEnds io = true ∧ reason = some .channelEof ∧
        c'.tx.buffer = c.tx.buffer ++ ReadResult.bytes io.read) ∨
      (sshEnds io = false ∧ (reason = none ∨ reason = some .readFailed)) := by
  unfold serveSsh at h
  split at h
  · rename_i hready
    obtain ⟨⟨c₁, i₁⟩, hwrite, h⟩ := Option.map_eq_some_iff.mp h
    obtain ⟨hi₁, htx⟩ := writeSsh_result (fun _ => hi) hwrite
    simp only [not_lt.mpr hi₁, false_and, if_false, readSsh] at h
    cases hread : io.read with
    | failed code =>
      by_cases hcode : code = sshErrorEagain
      · cases heof : io.eof <;>
          simp only [hread, heof, hcode, ne_eq, not_true_eq_false, if_false, if_true, Bool.false_eq_true,
            Prod.mk.injEq] at h <;>
          obtain ⟨rfl, rfl⟩ := h <;>
          simp [sshEnds, hready, hread, heof, hcode, htx, ReadResult.bytes]
      · simp only [hread, hcode, ne_eq, not_false_eq_true, if_true, Prod.mk.injEq] at h
        obtain ⟨rfl, rfl⟩ := h
        simp [sshEnds, hread, hcode]
    | data bytes =>
      cases heof : io.eof <;>
        simp only [hread, heof, if_true, Bool.false_eq_true, if_false, Prod.mk.injEq] at h <;>
        obtain ⟨rfl, rfl⟩ := h <;>
        simp [sshEnds, hready, hread, heof, htx, ReadResult.bytes]
  · rename_i hready
    obtain ⟨rfl, rfl⟩ := Prod.mk.inj (Option.some.inj h)
    have hagain : io.sshRc = sshErrorEagain := by simpa using hready
    simp [sshEnds, hagain]

/-- What one visit closes is complete, or something was left. -/
theorem visit_complete_iff (h : visit io c = some (c', reason)) :
    (∀ r ∈ reason, Complete c' r) ↔
      recvLeavesNothing io c = true ∧ eofLeavesNothing io c = true := by
  unfold visit at h
  obtain ⟨hreads, hrecv, heq⟩ | ⟨code, hreads, hrecv, heq⟩ | ⟨c₁, i₁, hstays, heq, hi₁, htx⟩ :=
    recvLocal_spec io c
  · -- the local connection is at its end
    rw [heq] at h
    obtain ⟨rfl, rfl⟩ := Prod.mk.inj (Option.some.inj h)
    have hclosed : recvStays io c = false := by simp [recvStays, hreads, hrecv]
    simp [Complete, recvLeavesNothing, eofLeavesNothing, hreads, hrecv, hclosed, Pipe.output_eq_input_iff]
  · rw [heq] at h
    obtain ⟨rfl, rfl⟩ := Prod.mk.inj (Option.some.inj h)
    have hclosed : recvStays io c = false := by simp [recvStays, hreads, hrecv]
    simp [Complete, recvLeavesNothing, eofLeavesNothing, hrecv, hclosed]
  · rw [heq] at h
    have hleaves : recvLeavesNothing io c = true := by
      cases hreads : receives io c <;> cases hrecv : io.recv <;>
        simp_all [recvStays, recvLeavesNothing]
    obtain ⟨hsend, heq⟩ | ⟨c₂, i₂, hsend, heq, hi₂, hbuffer⟩ := sendLocal_spec io c₁ hi₁
    all_goals
      simp only [heq] at h
      have hsame : sendStays io c₁ = sendStays io c := by simp only [sendStays, htx]
      rw [hsame] at hsend
    · obtain ⟨rfl, rfl⟩ := Prod.mk.inj (Option.some.inj h)
      simp [Complete, hleaves, eofLeavesNothing, hsend]
    · have hunsent : unsent io c₁ = unsent io c := by simp only [unsent, htx]
      rw [hunsent] at hbuffer
      obtain ⟨hends, rfl, htail⟩ | ⟨hends, hreason⟩ := serveSsh_spec hi₂ h
      · simp [Complete, hleaves, eofLeavesNothing, hstays, hsend, hends, Pipe.output_eq_input_iff, htail,
          hbuffer]
      · obtain rfl | rfl := hreason <;> simp [Complete, hleaves, eofLeavesNothing, hends]

/-! ### Runs -/

variable {ios : ℕ → ChannelIo} {channels opened : List (ℕ × SshChannel)}
  {closed : List (ℕ × SshChannel × CloseReason)}

theorem visitAll_complete_iff (h : visitAll ios channels = some (opened, closed)) :
    (∀ e ∈ closed, Complete e.2.1 e.2.2) ↔
      ∀ e ∈ channels, recvLeavesNothing (ios e.1) e.2 = true ∧ eofLeavesNothing (ios e.1) e.2 = true := by
  induction channels generalizing opened closed with
  | nil =>
    obtain ⟨rfl, rfl⟩ := Prod.mk.inj (Option.some.inj h)
    simp
  | cons entry rest ih =>
    simp only [visitAll, Option.bind_eq_bind, Option.bind_eq_some_iff] at h
    obtain ⟨⟨c', reason⟩, hvisit, ⟨opened', closed'⟩, hrest, h⟩ := h
    rw [List.forall_mem_cons, ← visit_complete_iff hvisit, ← ih hrest]
    cases reason with
    | none =>
      obtain ⟨rfl, rfl⟩ := Prod.mk.inj (Option.some.inj h)
      simp
    | some reason =>
      obtain ⟨rfl, rfl⟩ := Prod.mk.inj (Option.some.inj h)
      simp

/-- What the steps before have closed stays, and this step adds what it leaves or loses. -/
theorem step_faithful_iff {t u : ReverseTunnel} {a : Action} (h : step t a = some u) :
    Faithful u ↔ Faithful t ∧ LeavesNothing t a := by
  simp only [faithful_iff]
  cases a with
  | openChannel fd =>
    simp only [step] at h
    split at h
    · cases h
    · obtain rfl := Option.some.inj h
      simp [LeavesNothing]
  | channelsLoop rc io =>
    simp only [step] at h
    split at h
    · rename_i hrc
      obtain ⟨⟨opened, closed⟩, hall, rfl⟩ := Option.map_eq_some_iff.mp h
      simp only [LeavesNothing, hrc, true_imp_iff, List.forall_mem_append, visitAll_complete_iff hall]
    · rename_i hrc
      obtain rfl := Option.some.inj h
      simp [LeavesNothing, hrc]

/-- The tunnel is a faithful pipe in every state of a run exactly when every call leaves nothing behind. -/
theorem faithful_throughout_iff {as : List Action} {t : ReverseTunnel} (he : exec step {} as = some t) :
    Throughout step Faithful {} as ↔ Meets step LeavesNothing {} as := by
  refine throughout_iff_meets (I := Faithful) (L := fun _ => True) ?_ (fun _ => id) ?_ ?_ (fun _ _ => trivial) he
  · intro u a v hu _ hok hstep
    exact (step_faithful_iff hstep).mpr ⟨hu, hok⟩
  · intro u a v hu _ hok hstep hv
    exact hok ((step_faithful_iff hstep).mp hv).2
  · exact faithful_iff.mpr (by simp)

/-- Both directions, with a write that is put off and a clean end. -/
theorem faithful_throughout_clean :
    Throughout step Faithful {}
      [.openChannel 5,
        .channelsLoop 1 fun _ =>
          { canRead := true, canWrite := true, recv := .data [1, 2], send := 0, sshRc := 1,
            writes := [sshErrorEagain, 2], read := .data [3], eof := false },
        .channelsLoop 1 fun _ =>
          { canRead := false, canWrite := true, recv := .data [], send := 1, sshRc := 0, writes := [],
            read := .failed sshErrorEagain, eof := true }] :=
  (faithful_throughout_iff rfl).mpr (by decide)

/-- The last bytes of the ssh channel come with its end, and are dropped with the channel. -/
theorem not_faithful_throughout :
    ¬ Throughout step Faithful {}
      [.openChannel 5,
        .channelsLoop 1 fun _ =>
          { canRead := false, canWrite := true, recv := .data [], send := 0, sshRc := 1, writes := [],
            read := .data [65, 66], eof := true }] := by
  intro h
  have hlast := ((h.2 _ rfl).2 _ rfl).complete (5, _, .channelEof) (List.mem_singleton.mpr rfl)
  exact absurd (hlast.2 rfl) (by decide)

end ReverseTunnel
end CloudAgent.Platform
