import CloudAgent.Agent.Manager.Run

/-! The limits on concurrent uploads. They are tested against the running uploads and against the
pending payloads one after the other, while it is their sum that has to stay within the limit. -/
namespace CloudAgent.Agent
open Utils Proto Transition
namespace Manager

variable {p : Profile} {m m' : Manager}

/-- There is room for one more payload of a kind, pending or running. -/
def room (p : Profile) (m : Manager) (kind : MediaType) : Bool :=
  m.pending kind + m.uploading kind < limit p kind

/-- Each payload that is put aside finds room. -/
def limitConditions (p : Profile) : Conditions where
  request m := m.room p .record
  notify env config ev m :=
    ((m.eventSnapshot p env config ev).isNone || m.room p .snapshot) &&
      ((m.eventMetaFile p ev).isNone || m.room p .metaFile)

/-- The payloads of each kind, pending or running, are within its limit. -/
def Limited (p : Profile) (m : Manager) : Prop :=
  ∀ kind, m.pending kind + m.uploading kind ≤ limit p kind

theorem pending_erasePayload_le (m : Manager) (i : ℤ) (kind k : MediaType) :
    (m.erasePayload i kind).pending k ≤ m.pending k := by
  cases kind <;> cases k <;> simp [erasePayload, pending, List.length_erase_le]

theorem uploading_erasePayload (m : Manager) (i : ℤ) (kind k : MediaType) :
    (m.erasePayload i kind).uploading k = m.uploading k := by
  cases kind <;> cases k <;> rfl

theorem pending_countUploading (m : Manager) (f : ℕ → ℕ) (kind k : MediaType) :
    (m.countUploading f kind).pending k = m.pending k := by
  cases kind <;> cases k <;> rfl

theorem uploading_countUploading (m : Manager) (f : ℕ → ℕ) (kind k : MediaType) :
    (m.countUploading f kind).uploading k = if k = kind then f (m.uploading k) else m.uploading k := by
  cases kind <;> cases k <;> rfl

theorem length_keys_storePayload_le {β : Type} (i : ℤ) (b : Option β) (s : AList fun _ : ℤ => β) :
    (storePayload i b s).keys.length ≤ s.keys.length + if b.isSome then 1 else 0 := by
  cases b with
  | none => simp [storePayload]
  | some b => simp [storePayload, AList.keys_insert, List.length_erase_le]

theorem Limited.erasePayload (h : Limited p m) (i : ℤ) (kind : MediaType) :
    Limited p (m.erasePayload i kind) := by
  intro k
  have := pending_erasePayload_le m i kind k
  have := uploading_erasePayload m i kind k
  have := h k
  omega

/-- An upload takes the place of its pending payload. -/
theorem Limited.uploaded {initiator : Option ℤ} {refid : ℤ} (h : Limited p m)
    (hup : Uploaded initiator refid m m') : Limited p m' := by
  cases hup with
  | missing => exact h
  | dropped kind hheld => exact h.erasePayload refid kind
  | started req hheld hinit =>
    intro k
    show ((m.countUploading (· + 1) req.mediaType).erasePayload refid req.mediaType).pending k +
      ((m.countUploading (· + 1) req.mediaType).erasePayload refid req.mediaType).uploading k ≤ limit p k
    have hlt : k = req.mediaType → 0 < m.pending k := by
      rintro rfl
      revert hheld
      cases req.mediaType <;> simp only [holds, pending, AList.lookup_isSome, AList.mem_keys] <;>
        exact List.length_pos_of_mem
    have hcount := holds_countUploading m (· + 1) req.mediaType refid req.mediaType
    rw [pending_erasePayload (hcount.trans hheld), pending_countUploading, uploading_erasePayload,
      uploading_countUploading]
    have := h k
    split
    · have := hlt ‹_›
      omega
    · omega

theorem Limited.finishUpload (h : Limited p m) (kind : MediaType) :
    Limited p (m.countUploading (· - 1) kind) := by
  intro k
  have := h k
  rw [pending_countUploading, uploading_countUploading]
  split <;> omega

theorem Limited.ackTimedOut (h : Limited p m) (cb : AckCb AckBody) : Limited p (m.ackTimedOut cb) := by
  unfold Manager.ackTimedOut
  cases cb.run with
  | directUpload r => exact Limited.erasePayload (m := m.onFinished r.msgid false) h r.msgid .record
  | camEvent needSnapshot needMeta =>
    have hs : Limited p { m with settled := m.settled ++ [cb.msgid] } := h
    cases needSnapshot <;> cases needMeta
    · exact hs
    · exact hs.erasePayload cb.msgid .metaFile
    · exact hs.erasePayload cb.msgid .snapshot
    · exact (hs.erasePayload cb.msgid .snapshot).erasePayload cb.msgid .metaFile

theorem Limited.sendEvent {env : NotifyEnv} {config : EventConfig} {ev : EventObject} {msgid : ℤ}
    (h : Limited p m)
    (hok : (limitConditions p).notify env config ev m = true) :
    Limited p (m.sendEvent p env config msgid ev) := by
  simp only [limitConditions, room, Bool.and_eq_true, Bool.or_eq_true, decide_eq_true_eq] at hok
  have hstore : Limited p { m with
      snapshots := storePayload msgid (m.eventSnapshot p env config ev) m.snapshots
      metaFiles := storePayload msgid (m.eventMetaFile p ev) m.metaFiles } := by
    intro kind
    cases kind with
    | record => exact h .record
    | snapshot =>
      have hlen := length_keys_storePayload_le msgid (m.eventSnapshot p env config ev) m.snapshots
      have hold := h .snapshot
      have hroom := hok.1
      simp only [pending, uploading] at hold hroom ⊢
      cases hs : m.eventSnapshot p env config ev <;> simp [hs] at hlen hroom ⊢ <;> omega
    | metaFile =>
      have hlen := length_keys_storePayload_le msgid (m.eventMetaFile p ev) m.metaFiles
      have hold := h .metaFile
      have hroom := hok.2
      simp only [pending, uploading] at hold hroom ⊢
      cases hf : m.eventMetaFile p ev <;> simp [hf] at hlen hroom ⊢ <;> omega
  simp only [Manager.sendEvent]
  split
  · exact hstore
  · split <;> exact hstore

theorem limited_move (h : Limited p m) (hmove : Move p (limitConditions p) m m') : Limited p m' := by
  cases hmove with
  | registered b => exact h
  | timer w hw => exact h
  | draw => exact h
  | accept r w hr hw => exact h
  | enqueue r w hw => exact h
  | late env => exact h
  | canceled r q hq => exact h
  | failed r q hq => exact h
  | request r q clip hq hok =>
    intro kind
    cases kind with
    | snapshot => exact h .snapshot
    | metaFile => exact h .metaFile
    | record =>
      have hroom : m.pending .record + m.uploading .record < limit p .record := by
        simpa [limitConditions, room] using hok
      have hlen := List.length_erase_le (a := r.msgid) (l := m.records.keys)
      simp only [pending, uploading, AList.keys_insert, List.length_cons] at hroom ⊢
      omega
  | cancelTicket ticket => exact h
  | timedOut t cb commands ht => exact Limited.ackTimedOut (m := { m with commands }) h cb
  | refused msg ack => exact h
  | answered msg ack m' hack hvalid hok hup => exact Limited.uploaded (by exact h) hup
  | uploaded refid m' hup => exact h.uploaded hup
  | settle msg m₀ => exact h
  | httpFinished k req code hk =>
    exact Limited.finishUpload (m := ({ m with http := m.http.eraseIdx k } : Manager).onFinished
      req.initiator (code = 200)) h req.mediaType
  | notified => exact h
  | sentEvent env config ev hok =>
    exact Limited.sendEvent (m := m.createEvent) h hok

/-- In every run where each payload that is put aside finds room, the running uploads and the pending
payloads of each kind are within its limit. -/
theorem uploads_limited (p : Profile) (camId : ℤ) (as : List Action) (u : Manager)
    (hm : Meets (step p) (fun m a => (limitConditions p).Admits p m a = true) (start camId) as)
    (he : exec (step p) (start camId) as = some u) (kind : MediaType) :
    u.http.countP (·.mediaType = kind) ≤ limit p kind ∧ u.pending kind ≤ limit p kind := by
  have hstart : Limited p (start camId) := by
    intro k
    cases k <;> exact Nat.zero_le _
  obtain ⟨hsound, hlimited⟩ :=
    run_invariant (fun v v' _ hv hmove => limited_move hv hmove) hstart hm he
  have hcount := hsound.counters kind
  have := hlimited kind
  constructor <;> omega

/-- One snapshot is being uploaded while the next one waits for its URL. -/
def twoSnapshots : List Action :=
  [.setRegistered true, .notifyEvent {} snapshotEnv, .directUploadUrl (reply 1 "OK") fun _ => false,
    .notifyEvent {} snapshotEnv]

theorem uploads_limited_snapshots :
    ∃ u, exec (step {}) (start 7) twoSnapshots = some u ∧ u.pending .snapshot = 1 ∧
      u.http.length = 1 ∧ ∀ kind,
        u.http.countP (·.mediaType = kind) ≤ limit {} kind ∧ u.pending kind ≤ limit {} kind := by
  have hrun : ∃ u ∈ exec (step {}) (start 7) twoSnapshots,
      u.pending .snapshot = 1 ∧ u.http.length = 1 := by
    decide +kernel
  obtain ⟨u, hu, hpending, hhttp⟩ := hrun
  exact ⟨u, hu, hpending, hhttp, uploads_limited {} 7 _ u (by decide +kernel) hu⟩

/-- The fifth snapshot is put aside where at most four are allowed. -/
theorem snapshots_exceeded :
    ∃ u ∈ exec (step {}) (start 7)
        (.setRegistered true :: List.replicate 5 (.notifyEvent {} snapshotEnv)),
      ¬ u.pending .snapshot ≤ limit {} .snapshot := by
  decide +kernel

end Manager
end CloudAgent.Agent
