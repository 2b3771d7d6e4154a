import CloudAgent.Agent.Manager.Run

/-! No payload outlives its command. A payload is put aside before it is known whether its command
is sent, and every URL of the reply takes one payload at most. -/
namespace CloudAgent.Agent
open Utils Proto Transition
namespace Manager

variable {p : Profile} {m m' : Manager}

/-- A hidden event has no payload, and the URLs of a reply take all the payloads of its command. -/
def payloadConditions (p : Profile) : Conditions where
  reply msg m := (leftover (m.heldKinds msg.refid) (if msg.valid then msg.urls else [])).isEmpty
  notify env config ev m :=
    !config.capsInternalHidden ||
      ((m.eventSnapshot p env config ev).isNone && (m.eventMetaFile p ev).isNone)

/-- The commands that have been replied to, or have timed out, hold no payload. -/
def Released (m : Manager) : Prop := ∀ i ∈ m.settled, ∀ kind, m.holds i kind = false

/-- Fewer payloads are held than before. -/
theorem Released.mono (h : Released m) (hsettled : m'.settled = m.settled)
    (hholds : ∀ i kind, m'.holds i kind = true → m.holds i kind = true) : Released m' := by
  intro i hi kind
  by_contra hheld
  have := hholds i kind (by simpa using hheld)
  rw [h i (hsettled ▸ hi) kind] at this
  simp at this

theorem settled_erasePayload (m : Manager) (i : ℤ) (kind : MediaType) :
    (m.erasePayload i kind).settled = m.settled := by
  cases kind <;> rfl

theorem settled_countUploading (m : Manager) (f : ℕ → ℕ) (kind : MediaType) :
    (m.countUploading f kind).settled = m.settled := by
  cases kind <;> rfl

theorem Released.erasePayload (h : Released m) (i : ℤ) (kind : MediaType) :
    Released (m.erasePayload i kind) := by
  apply h.mono (settled_erasePayload m i kind)
  intro j k hj
  exact ((holds_erasePayload m i j kind k).mp hj).1

theorem Released.countUploading (h : Released m) (f : ℕ → ℕ) (kind : MediaType) :
    Released (m.countUploading f kind) := by
  apply h.mono (settled_countUploading m f kind)
  intro j k hj
  exact (holds_countUploading m f kind j k).symm.trans hj

theorem Released.uploaded {initiator : Option ℤ} {refid : ℤ} (h : Released m)
    (hup : Uploaded initiator refid m m') : Released m' := by
  cases hup with
  | missing => exact h
  | dropped kind => exact h.erasePayload refid kind
  | started req => exact (h.countUploading (· + 1) req.mediaType).erasePayload refid req.mediaType

/-- The payloads of commands that are sent later are of other msgids. -/
theorem Released.store {i : ℤ} (h : Released m) (hi : i ∉ m.settled) (hsettled : m'.settled = m.settled)
    (hholds : ∀ j kind, j ≠ i → m'.holds j kind = m.holds j kind) : Released m' := by
  intro j hj kind
  have hne : j ≠ i := by
    rintro rfl
    exact hi (hsettled ▸ hj)
  rw [hholds j kind hne]
  exact h j (hsettled ▸ hj) kind

theorem holds_record_insert (m : Manager) (i j : ℤ) (clip : VideoClipInfo) (kind : MediaType)
    (hj : j ≠ i) :
    ({ m with records := m.records.insert i clip } : Manager).holds j kind = m.holds j kind := by
  cases kind with
  | snapshot => rfl
  | metaFile => rfl
  | record => simp [holds, AList.lookup_insert_ne hj]

theorem holds_storePayload (m : Manager) (i j : ℤ) (snapshot : Option SnapshotInfo)
    (metaFile : Option FileMetaInfo) (kind : MediaType) (hj : j ≠ i) :
    ({ m with
      snapshots := storePayload i snapshot m.snapshots
      metaFiles := storePayload i metaFile m.metaFiles } : Manager).holds j kind = m.holds j kind := by
  rw [Bool.eq_iff_iff]
  cases kind with
  | record => rfl
  | snapshot => simp [holds, isSome_lookup_storePayload, hj]
  | metaFile => simp [holds, isSome_lookup_storePayload, hj]

/-- The kinds of payload that a timeout erases. -/
def erases : AckBody → MediaType → Bool
  | .directUpload _, kind => kind = .record
  | .camEvent needSnapshot needMeta, kind =>
    (needSnapshot && kind = .snapshot) || (needMeta && kind = .metaFile)

theorem settled_ackTimedOut (m : Manager) (cb : AckCb AckBody) :
    (m.ackTimedOut cb).settled = m.settled ++ [cb.msgid] := by
  unfold ackTimedOut
  cases cb.run with
  | directUpload r => rfl
  | camEvent needSnapshot needMeta => cases needSnapshot <;> cases needMeta <;> rfl

theorem holds_ackTimedOut (m : Manager) (cb : AckCb AckBody) (j : ℤ) (k : MediaType)
    (hr : ∀ r, cb.run = .directUpload r → r.msgid = cb.msgid) :
    (m.ackTimedOut cb).holds j k = true ↔
      m.holds j k = true ∧ ¬(j = cb.msgid ∧ erases cb.run k = true) := by
  have hsettled : ({ m with settled := m.settled ++ [cb.msgid] } : Manager).holds j k = m.holds j k := by
    cases k <;> rfl
  unfold ackTimedOut
  cases hrun : cb.run with
  | directUpload r =>
    dsimp only
    rw [holds_erasePayload, hr r hrun]
    simp only [erases, decide_eq_true_eq]
    cases k <;> rfl
  | camEvent needSnapshot needMeta =>
    cases needSnapshot <;> cases needMeta <;> simp [erases, holds_erasePayload, hsettled]
    tauto

/-- The payloads of a command belong to the callback that waits for its reply. -/
theorem Sound.erases (hs : m.Sound) {t : ℕ} {cb : AckCb AckBody}
    (hp : m.commands.transport.Pending t cb) {kind : MediaType} (hheld : m.holds cb.msgid kind = true) :
    erases cb.run kind = true := by
  obtain ⟨-, howns⟩ := hs.owns hp
  have horigin := hs.payload cb.msgid kind hheld
  cases hrun : cb.run with
  | directUpload r =>
    rw [hrun] at howns
    obtain ⟨hr, he⟩ := howns
    cases kind with
    | record => rfl
    | snapshot => exact absurd (he ▸ horigin) (hs.apart r hr)
    | metaFile => exact absurd (he ▸ horigin) (hs.apart r hr)
  | camEvent needSnapshot needMeta =>
    rw [hrun] at howns
    cases kind with
    | record =>
      obtain ⟨r, hr, he⟩ := horigin
      exact absurd (he ▸ howns.1) (hs.apart r hr)
    | snapshot => simp [Manager.erases, howns.2.1 hheld]
    | metaFile => simp [Manager.erases, howns.2.2 hheld]

/-- A timeout erases all the payloads of its command. -/
theorem Released.timedOut (hs : m.Sound) (h : Released m) {t : ℕ} {cb : AckCb AckBody}
    {commands : CommandHandler AckBody} (ht : m.commands.timedOut t = some (cb, commands)) :
    Released ({ m with commands }.ackTimedOut cb) := by
  obtain ⟨hp, -⟩ := CommandHandler.timedOut_eq_some ht
  have hr : ∀ r, cb.run = .directUpload r → r.msgid = cb.msgid := by
    intro r hrun
    have howns := (hs.owns hp).2
    rw [hrun] at howns
    exact howns.2
  intro i hi kind
  by_contra hheld
  obtain ⟨hheld, hkept⟩ := (holds_ackTimedOut _ cb i kind hr).mp (by simpa using hheld)
  have hheld : m.holds i kind = true := hheld
  rw [settled_ackTimedOut] at hi
  rcases List.mem_append.mp hi with hi | hi
  · rw [h i hi kind] at hheld
    simp at hheld
  · obtain rfl := List.mem_singleton.mp hi
    exact hkept ⟨rfl, hs.erases hp hheld⟩

theorem released_move (hs : m.Sound) (h : Released m) (hmove : Move p (payloadConditions p) m m') :
    Released m' := by
  cases hmove with
  | registered b => exact h
  | timer w hw => exact h
  | draw => exact h
  | accept r w hr hw => exact h
  | enqueue r w hw => exact h
  | late env => exact h
  | canceled r q hq => exact h
  | failed r q hq => exact h
  | request r q clip hq =>
    have hnot : r.msgid ∉ m.settled := by
      intro hi
      have hr : r ∈ m.enqueuing ++ m.directUploadVideoQ :=
        List.mem_append_right _ (hq ▸ List.mem_cons_self)
      exact (hs.queued r hr).2 (hs.settled _ hi)
    exact h.store hnot rfl fun j kind hj => holds_record_insert m r.msgid j clip kind hj
  | cancelTicket ticket => exact h
  | timedOut t cb commands ht => exact Released.timedOut hs h ht
  | refused msg ack => exact h
  | answered msg ack m' hack hvalid hok hup => exact Released.uploaded (by exact h) hup
  | uploaded refid m' hup => exact h.uploaded hup
  | settle msg m₀ hsent hack hok hheld =>
    have hempty : m.heldKinds msg.refid = [] := by
      rw [hheld]
      simpa [payloadConditions] using hok
    intro i hi kind
    rcases List.mem_append.mp hi with hi | hi
    · exact h i hi kind
    · obtain rfl := List.mem_singleton.mp hi
      have hnone : ∀ k ∈ [MediaType.snapshot, .record, .metaFile], ¬ m.holds msg.refid k = true :=
        List.filter_eq_nil_iff.mp hempty
      exact Bool.eq_false_iff.mpr (hnone kind (by cases kind <;> simp))
  | httpFinished k req code hk =>
    exact Released.countUploading (m := ({ m with http := m.http.eraseIdx k } : Manager).onFinished
      req.initiator (code = 200)) h (· - 1) req.mediaType
  | notified => exact h
  | sentEvent env config ev hok =>
    have hnot : m.msgid + 1 ∉ m.settled := fun hi => hs.fresh (hs.settled _ hi)
    simp only [Manager.sendEvent]
    split
    · exact h.store hnot rfl fun j kind hj => holds_storePayload m _ j _ _ kind hj
    · split <;> exact h.store hnot rfl fun j kind hj => holds_storePayload m _ j _ _ kind hj

/-- A visible event is sent, and a hidden one has no payload. -/
theorem sendEvent_unsent {env : NotifyEnv} {config : EventConfig} {ev : EventObject} {msgid : ℤ}
    (hok : (payloadConditions p).notify env config ev m = true)
    (hsent : (m.sendEvent p env config msgid ev).sent = m.sent) :
    (m.sendEvent p env config msgid ev).snapshots = m.snapshots ∧
      (m.sendEvent p env config msgid ev).records = m.records ∧
      (m.sendEvent p env config msgid ev).metaFiles = m.metaFiles := by
  simp only [payloadConditions, Bool.or_eq_true, Bool.not_eq_true', Bool.and_eq_true,
    Option.isNone_iff_eq_none] at hok
  cases hhidden : config.capsInternalHidden with
  | false =>
    simp only [Manager.sendEvent, hhidden, Bool.false_eq_true, if_false] at hsent
    split at hsent <;> simp at hsent
  | true =>
    obtain ⟨hsnapshot, hmeta⟩ := hok.resolve_left (by simp [hhidden])
    simp [Manager.sendEvent, hhidden, hsnapshot, hmeta, storePayload]

/-- In every run that meets the conditions, a command that was replied to or timed out holds no
payload, and an event that is not sent leaves the payloads alone. -/
theorem payloads_released (p : Profile) (camId : ℤ) (as : List Action) (u : Manager)
    (hm : Meets (step p) (fun m a => (payloadConditions p).Admits p m a = true) (start camId) as)
    (he : exec (step p) (start camId) as = some u) :
    (∀ i ∈ u.settled, i ∉ u.snapshots ∧ i ∉ u.records ∧ i ∉ u.metaFiles) ∧
      ∀ ev env v, (payloadConditions p).Admits p u (.notifyEvent ev env) = true →
        step p u (.notifyEvent ev env) = some v → v.sent = u.sent →
          v.snapshots = u.snapshots ∧ v.records = u.records ∧ v.metaFiles = u.metaFiles := by
  have hstart : Released (start camId) := by
    intro i hi
    simp [start] at hi
  obtain ⟨-, hreleased⟩ :=
    run_invariant (fun v v' hs hv hmove => released_move hs hv hmove) hstart hm he
  refine ⟨fun i hi => ?_, fun ev env v hok hv hsent => ?_⟩
  · have hnot : ∀ {β : Type} {s : AList fun _ : ℤ => β}, (s.lookup i).isSome = false → i ∉ s := by
      intro β s hnone hmem
      rw [AList.lookup_isSome.mpr hmem] at hnone
      simp at hnone
    exact ⟨hnot (hreleased i hi .snapshot), hnot (hreleased i hi .record), hnot (hreleased i hi .metaFile)⟩
  · obtain rfl := Option.some.inj hv
    have hkept : (u.cancelUploads ev).sent = u.sent ∧ (u.cancelUploads ev).snapshots = u.snapshots ∧
        (u.cancelUploads ev).records = u.records ∧ (u.cancelUploads ev).metaFiles = u.metaFiles := by
      unfold cancelUploads
      split <;> exact ⟨rfl, rfl, rfl, rfl⟩
    rw [notifyEvent_eq] at hsent ⊢
    simp only [Conditions.Admits] at hok
    cases hc : u.eventConfig env ev with
    | none => exact ⟨rfl, rfl, rfl⟩
    | some config =>
      simp only [hc] at hok hsent
      dsimp only
      split at hsent
      · rename_i hstream
        rw [if_pos hstream]
        exact hkept.2
      · rename_i hstream
        rw [if_neg hstream]
        have hnotify : (payloadConditions p).notify env config ev (u.cancelUploads ev) = true := by
          simpa [hstream] using hok
        obtain ⟨hs, hr, hf⟩ := sendEvent_unsent (m := (u.cancelUploads ev).createEvent) hnotify
          (hsent.trans hkept.1.symm)
        exact ⟨hs.trans hkept.2.1, hr.trans hkept.2.2.1, hf.trans hkept.2.2.2⟩

/-- A snapshot gets its URL. -/
def repliedSnapshot : List Action :=
  [.setRegistered true, .notifyEvent {} snapshotEnv, .directUploadUrl (reply 1 "OK") fun _ => false]

/-- A hidden event without a payload. -/
def hiddenEnv : NotifyEnv := { snapshotEnv with config := some { capsInternalHidden := true } }

theorem payloads_released_replied :
    ∃ u v, exec (step {}) (start 7) repliedSnapshot = some u ∧
      step {} u (.notifyEvent {} hiddenEnv) = some v ∧ u.settled = [1] ∧ u.http.length = 1 ∧
      (∀ i ∈ u.settled, i ∉ u.snapshots ∧ i ∉ u.records ∧ i ∉ u.metaFiles) ∧
      v.snapshots = u.snapshots ∧ v.records = u.records ∧ v.metaFiles = u.metaFiles := by
  have hrun : ∃ u ∈ exec (step {}) (start 7) repliedSnapshot,
      ∃ v ∈ step {} u (.notifyEvent {} hiddenEnv), u.settled = [1] ∧ u.http.length = 1 ∧
        (payloadConditions {}).Admits {} u (.notifyEvent {} hiddenEnv) = true ∧ v.sent = u.sent := by
    decide +kernel
  obtain ⟨u, hu, v, hv, hsettled, hhttp, hok, hsent⟩ := hrun
  have h := payloads_released {} 7 _ u (by decide +kernel) hu
  exact ⟨u, v, hu, hv, hsettled, hhttp, h.1, h.2 _ _ v hok hv hsent⟩

/-- The reply refuses the upload, and the snapshot stays where it was put. -/
theorem snapshot_leaked :
    ∃ u ∈ exec (step {}) (start 7)
        [.setRegistered true, .notifyEvent {} snapshotEnv,
          .directUploadUrl (reply 1 "ERROR") fun _ => false],
      1 ∈ u.settled ∧ 1 ∈ u.snapshots := by
  decide +kernel

end Manager
end CloudAgent.Agent
