import CloudAgent.Agent.Manager.Moves
import Mathlib.Data.List.Perm.Subperm

/-! What every reachable manager satisfies, whatever happens: msgids are drawn once, a command is
sent once, and the payload maps, the ack table and the counters belong to the commands they say. -/
namespace CloudAgent.Agent
open Utils Proto Transition
namespace Manager

variable {p : Profile} {c : Conditions} {m m' : Manager}

/-- The payloads of a kind belong to planned uploads or to notified events. -/
def Origin (m : Manager) (i : ℤ) : MediaType → Prop
  | .record => ∃ r ∈ m.accepted, r.msgid = i
  | _ => i ∈ m.notified

/-- An acknowledgement callback captures what its command was sent with. -/
def Owns (m : Manager) (i : ℤ) : AckBody → Prop
  | .directUpload r => r ∈ m.accepted ∧ r.msgid = i
  | .camEvent needSnapshot needMeta => i ∈ m.notified ∧ (m.holds i .snapshot = true → needSnapshot = true) ∧
      (m.holds i .metaFile = true → needMeta = true)

structure Sound (m : Manager) : Prop where
  wired : m.commands.Wired
  acceptedLe : ∀ r ∈ m.accepted, r.msgid ≤ m.msgid
  acceptedOnce : (m.accepted.map GetDirectUploadUrl.msgid).Nodup
  notifiedLe : ∀ i ∈ m.notified, i ≤ m.msgid
  apart : ∀ r ∈ m.accepted, r.msgid ∉ m.notified
  sentLe : ∀ i ∈ m.sent, i ≤ m.msgid
  queued : ∀ r ∈ m.enqueuing ++ m.directUploadVideoQ, r ∈ m.accepted ∧ r.msgid ∉ m.sent
  queuedOnce : ((m.enqueuing ++ m.directUploadVideoQ).map GetDirectUploadUrl.msgid).Nodup
  category : ∀ r ∈ m.directUploadVideoQ, r.category = .record
  entry : ∀ i ack, m.commands.acks i = some ack → i ∈ m.sent ∧ m.Owns i ack.ackCb.run
  payload : ∀ i kind, m.holds i kind = true → m.Origin i kind
  settled : ∀ i ∈ m.settled, i ∈ m.sent
  counters : ∀ kind, m.uploading kind = m.http.countP (·.mediaType = kind)

theorem Owns.mono {i : ℤ} {body : AckBody} (h : m.Owns i body)
    (hacc : ∀ r ∈ m.accepted, r ∈ m'.accepted) (hnot : i ∈ m.notified → i ∈ m'.notified)
    (hheld : ∀ kind, m'.holds i kind = true → kind ≠ .record → m.holds i kind = true) :
    m'.Owns i body := by
  cases body with
  | directUpload r => exact ⟨hacc r h.1, h.2⟩
  | camEvent needSnapshot needMeta =>
    exact ⟨hnot h.1, fun hs => h.2.1 (hheld .snapshot hs (by simp)),
      fun hf => h.2.2 (hheld .metaFile hf (by simp))⟩

theorem Origin.mono {i : ℤ} {kind : MediaType} (h : m.Origin i kind)
    (hacc : ∀ r ∈ m.accepted, r ∈ m'.accepted) (hnot : i ∈ m.notified → i ∈ m'.notified) :
    m'.Origin i kind := by
  cases kind with
  | record =>
    obtain ⟨r, hr, he⟩ := h
    exact ⟨r, hacc r hr, he⟩
  | snapshot => exact hnot h
  | metaFile => exact hnot h

theorem Sound.notSent (h : m.Sound) {i : ℤ} (hi : i ∉ m.sent) : m.commands.acks i = none := by
  by_contra hne
  obtain ⟨ack, hack⟩ := Option.ne_none_iff_exists'.mp hne
  exact hi (h.entry i ack hack).1

theorem Sound.fresh (h : m.Sound) : m.msgid + 1 ∉ m.sent := fun hi => by
  have := h.sentLe _ hi
  omega

/-- The timer of an acknowledgement belongs to an entry of the ack table. -/
theorem Sound.owns (h : m.Sound) {t : ℕ} {cb : AckCb AckBody} (hp : m.commands.transport.Pending t cb) :
    cb.msgid ∈ m.sent ∧ m.Owns cb.msgid cb.run :=
  h.entry cb.msgid _ (h.wired.timer t cb hp)

/-- A payload of a planned upload is a record. -/
theorem Sound.kind_of_initiator (h : m.Sound) {i j : ℤ} {ack : CommandAck AckBody} {kind : MediaType}
    (hack : m.commands.acks i = some ack) (hj : ack.ackCb.run.initiator = some j)
    (hheld : m.holds i kind = true) : kind = .record := by
  obtain ⟨-, howns⟩ := h.entry i ack hack
  have horigin := h.payload i kind hheld
  cases hrun : ack.ackCb.run with
  | camEvent needSnapshot needMeta => simp [hrun, AckBody.initiator] at hj
  | directUpload r =>
    rw [hrun] at howns
    obtain ⟨hr, rfl⟩ := howns
    cases kind with
    | record => rfl
    | snapshot => exact absurd horigin (h.apart r hr)
    | metaFile => exact absurd horigin (h.apart r hr)

/-- Erasing a payload. -/
theorem Sound.erasePayload (h : m.Sound) (i : ℤ) (kind : MediaType) : (m.erasePayload i kind).Sound := by
  have hholds : ∀ j k, (m.erasePayload i kind).holds j k = true → m.holds j k = true :=
    fun j k hj => ((holds_erasePayload m i j kind k).mp hj).1
  have hacc : ∀ r ∈ m.accepted, r ∈ (m.erasePayload i kind).accepted := by cases kind <;> exact fun _ hr => hr
  have hnot : ∀ j ∈ m.notified, j ∈ (m.erasePayload i kind).notified := by cases kind <;> exact fun _ hj => hj
  have hentry : ∀ j ack, m.commands.acks j = some ack → j ∈ m.sent ∧
      (m.erasePayload i kind).Owns j ack.ackCb.run := fun j ack hack =>
    ⟨(h.entry j ack hack).1, (h.entry j ack hack).2.mono hacc (hnot j) fun k hk _ => hholds j k hk⟩
  have hpayload : ∀ j k, (m.erasePayload i kind).holds j k = true → (m.erasePayload i kind).Origin j k :=
    fun j k hj => (h.payload j k (hholds j k hj)).mono hacc (hnot j)
  cases kind with
  | snapshot => exact { h with entry := hentry, payload := hpayload }
  | record => exact { h with entry := hentry, payload := hpayload }
  | metaFile => exact { h with entry := hentry, payload := hpayload }

theorem Sound.onFinished (h : m.Sound) (initiator : Option ℤ) (ok : Bool) :
    (m.onFinished initiator ok).Sound := { h with }

theorem Sound.uploaded {initiator : Option ℤ} {refid : ℤ} (h : m.Sound)
    (hup : Uploaded initiator refid m m') : m'.Sound := by
  cases hup with
  | missing => exact h.onFinished initiator false
  | dropped kind hheld => exact (h.erasePayload refid kind).onFinished initiator false
  | started req hheld hinit =>
    have hcount : ∀ kind, (m.countUploading (· + 1) req.mediaType).uploading kind =
        (m.http ++ [req]).countP (·.mediaType = kind) := by
      intro kind
      have hk := h.counters kind
      simp only [List.countP_append, List.countP_singleton]
      revert hk
      cases req.mediaType <;> cases kind <;> simp [countUploading, uploading]
    have he := h.erasePayload refid req.mediaType
    revert he hcount
    cases req.mediaType with
    | snapshot => exact fun hcount he => { he with counters := hcount }
    | record => exact fun hcount he => { he with counters := hcount }
    | metaFile => exact fun hcount he => { he with counters := hcount }

/-- Planned uploads move on, or out of the queues. -/
theorem Sound.requeue (h : m.Sound) {w : Net.LwsCommon DirectUploadCb} {q : List GetDirectUploadUrl}
    (hq : (w.pendingCbs.filterMap DirectUploadCb.request ++ q).Subperm
      (m.enqueuing ++ m.directUploadVideoQ)) (hcat : ∀ r ∈ q, r.category = .record) :
    ({ m with directUploadTimer := w, directUploadVideoQ := q } : Manager).Sound := by
  have honce : ((w.pendingCbs.filterMap DirectUploadCb.request ++ q).map GetDirectUploadUrl.msgid).Nodup := by
    obtain ⟨l, hl, hsub⟩ := hq
    exact (hl.map _).nodup_iff.mp (h.queuedOnce.sublist (hsub.map _))
  exact { h with
    queued := fun r hr => h.queued r (hq.subset hr)
    queuedOnce := honce
    category := hcat }

theorem Sound.dequeue (h : m.Sound) {q : List GetDirectUploadUrl} (hq : q.Sublist m.directUploadVideoQ) :
    ({ m with directUploadVideoQ := q } : Manager).Sound :=
  h.requeue (w := m.directUploadTimer) (hq.append_left m.enqueuing).subperm
    fun r hr => h.category r (hq.subset hr)

theorem Sound.enqueue (h : m.Sound) {r : GetDirectUploadUrl} {w : Net.LwsCommon DirectUploadCb}
    {q : List GetDirectUploadUrl} (hw : m.enqueuing.Perm (r :: w.pendingCbs.filterMap DirectUploadCb.request)) :
    ({ m with
      directUploadTimer := w
      directUploadVideoQ := m.directUploadVideoQ ++ if r.category = .record then [r] else []
      directUploadSnapshotQ := q } : Manager).Sound := by
  have hmoved : (w.pendingCbs.filterMap DirectUploadCb.request ++
      (m.directUploadVideoQ ++ if r.category = .record then [r] else [])).Subperm
        (m.enqueuing ++ m.directUploadVideoQ) := by
    have hperm : (m.enqueuing ++ m.directUploadVideoQ).Perm
        (w.pendingCbs.filterMap DirectUploadCb.request ++ (m.directUploadVideoQ ++ [r])) := by
      refine (hw.append_right _).trans ?_
      rw [← List.append_assoc]
      exact (List.perm_append_singleton r _).symm
    refine List.Subperm.trans (List.Sublist.subperm ?_) hperm.symm.subperm
    refine (List.Sublist.refl _).append ((List.Sublist.refl _).append ?_)
    split
    · exact List.Sublist.refl _
    · exact List.nil_sublist _
  have hcat : ∀ s ∈ m.directUploadVideoQ ++ (if r.category = .record then [r] else []),
      s.category = .record := by
    intro s hs
    rcases List.mem_append.mp hs with hs | hs
    · exact h.category s hs
    · split at hs
      · rename_i hr
        exact List.mem_singleton.mp hs ▸ hr
      · simp at hs
  have hsound := h.requeue (w := w) hmoved hcat
  exact { hsound with }

/-- Nothing belongs to a msgid before it is drawn. -/
theorem Sound.draw (h : m.Sound) {i : ℤ} (hi : m.msgid ≤ i) : ({ m with msgid := i } : Manager).Sound :=
  { h with
    acceptedLe := fun r hr => (h.acceptedLe r hr).trans hi
    notifiedLe := fun j hj => (h.notifiedLe j hj).trans hi
    sentLe := fun j hj => (h.sentLe j hj).trans hi }

/-- A new request gets the next msgid. -/
theorem Sound.accept (h : m.Sound) {r : GetDirectUploadUrl} {w : Net.LwsCommon DirectUploadCb}
    (hr : r.msgid = m.msgid + 1)
    (hw : w.pendingCbs.filterMap DirectUploadCb.request = m.enqueuing ++ [r]) :
    ({ m with msgid := m.msgid + 1, directUploadTimer := w, accepted := m.accepted ++ [r] } : Manager).Sound := by
  have hold : ∀ s ∈ m.accepted, s.msgid ≠ r.msgid := by
    intro s hs
    have := h.acceptedLe s hs
    omega
  have hnew : ∀ s ∈ m.accepted, s ∈ m.accepted ++ [r] := fun s hs => List.mem_append_left _ hs
  have hqueue : (w.pendingCbs.filterMap DirectUploadCb.request ++ m.directUploadVideoQ).Perm
      (r :: (m.enqueuing ++ m.directUploadVideoQ)) := by
    rw [hw, List.append_assoc]
    exact List.perm_middle
  have hdraw := h.draw (Int.le_add_one le_rfl)
  exact { hdraw with
    acceptedLe := by
      intro s hs
      rcases List.mem_append.mp hs with hs | hs
      · exact hdraw.acceptedLe s hs
      · obtain rfl := List.mem_singleton.mp hs
        exact hr.le
    acceptedOnce := by
      rw [List.map_append, List.nodup_append]
      refine ⟨h.acceptedOnce, by simp, ?_⟩
      simp only [List.map_cons, List.map_nil, List.mem_singleton, List.mem_map]
      rintro i ⟨s, hs, rfl⟩ j rfl
      exact hold s hs
    apart := by
      intro s hs hn
      rcases List.mem_append.mp hs with hs | hs
      · exact h.apart s hs hn
      · obtain rfl := List.mem_singleton.mp hs
        have := h.notifiedLe _ hn
        omega
    queued := by
      intro s hs
      rcases List.mem_cons.mp (hqueue.subset hs) with rfl | hs
      · exact ⟨List.mem_append_right _ (List.mem_singleton_self _), hr ▸ h.fresh⟩
      · exact ⟨hnew s (h.queued s hs).1, (h.queued s hs).2⟩
    queuedOnce := by
      refine ((hqueue.map _).nodup_iff).mpr (List.nodup_cons.mpr ⟨?_, h.queuedOnce⟩)
      intro hmem
      obtain ⟨s, hs, he⟩ := List.mem_map.mp hmem
      exact hold s (h.queued s hs).1 he
    entry := fun i ack hack => ⟨(h.entry i ack hack).1, (h.entry i ack hack).2.mono hnew id fun _ hk _ => hk⟩
    payload := fun i kind hheld => (h.payload i kind hheld).mono hnew id }

/-- A command is sent that no queued upload is waiting to send. -/
theorem Sound.send (h : m.Sound) {i : ℤ} (hle : i ≤ m.msgid)
    (hqueue : ∀ r ∈ m.enqueuing ++ m.directUploadVideoQ, r.msgid ≠ i) :
    ({ m with sent := m.sent ++ [i] } : Manager).Sound :=
  { h with
    sentLe := by
      intro j hj
      rcases List.mem_append.mp hj with hj | hj
      · exact h.sentLe j hj
      · obtain rfl := List.mem_singleton.mp hj
        exact hle
    queued := by
      intro r hr
      obtain ⟨hr1, hr2⟩ := h.queued r hr
      refine ⟨hr1, fun hj => ?_⟩
      rcases List.mem_append.mp hj with hj | hj
      · exact hr2 hj
      · exact hqueue r hr (List.mem_singleton.mp hj)
    entry := fun j ack hack =>
      ⟨List.mem_append_left _ (h.entry j ack hack).1, (h.entry j ack hack).2⟩
    settled := fun j hj => List.mem_append_left _ (h.settled j hj) }

/-- A command that has just been sent gets its entry in the ack table. -/
theorem Sound.await (h : m.Sound) {i : ℤ} {run : AckBody} (hfree : m.commands.acks i = none)
    (hsent : i ∈ m.sent) (howns : m.Owns i run) :
    ({ m with commands := m.commands.sendCommandWaitAck i run 20 } : Manager).Sound :=
  { h with
    wired := h.wired.sendCommandWaitAck hfree run 20
    entry := by
      intro j ack hack
      rw [CommandHandler.acks_sendCommandWaitAck] at hack
      split at hack
      · obtain rfl := Option.some.inj hack
        subst j
        exact ⟨hsent, howns⟩
      · exact ⟨(h.entry j ack hack).1, (h.entry j ack hack).2⟩ }

/-- The record of a planned upload is put aside. -/
theorem Sound.insertRecord (h : m.Sound) {r : GetDirectUploadUrl} (clip : VideoClipInfo)
    (hr : r ∈ m.accepted) : ({ m with records := m.records.insert r.msgid clip } : Manager).Sound :=
  { h with
    entry := by
      intro i ack hack
      obtain ⟨hi, hown⟩ := h.entry i ack hack
      refine ⟨hi, hown.mono (fun _ hr => hr) id fun kind hk hne => ?_⟩
      cases kind with
      | record => exact absurd rfl hne
      | snapshot => exact hk
      | metaFile => exact hk
    payload := by
      intro i kind hheld
      cases kind with
      | record =>
        simp only [holds, AList.lookup_isSome, AList.mem_insert] at hheld
        rcases hheld with rfl | hheld
        · exact ⟨r, hr, rfl⟩
        · exact h.payload i .record (by simpa [holds, AList.lookup_isSome] using hheld)
      | snapshot => exact h.payload i .snapshot hheld
      | metaFile => exact h.payload i .metaFile hheld }

/-- The commands of the queued uploads have not been sent, so each of them is sent once. -/
theorem Sound.request (h : m.Sound) {r : GetDirectUploadUrl} {q : List GetDirectUploadUrl}
    (clip : VideoClipInfo) (hq : m.directUploadVideoQ = r :: q) :
    ({ m with
      directUploadVideoQ := q
      records := m.records.insert r.msgid clip
      commands := m.commands.sendCommandWaitAck r.msgid (.directUpload r) 20
      sent := m.sent ++ [r.msgid] } : Manager).Sound := by
  have hr : r ∈ m.enqueuing ++ m.directUploadVideoQ :=
    List.mem_append_right _ (hq ▸ List.mem_cons_self)
  obtain ⟨hacc, hsent⟩ := h.queued r hr
  have hlast : ∀ s ∈ m.enqueuing ++ q, s.msgid ≠ r.msgid := by
    have honce := h.queuedOnce
    rw [hq, (List.perm_middle.map _).nodup_iff] at honce
    intro s hs he
    exact (List.nodup_cons.mp honce).1 (he ▸ List.mem_map_of_mem hs)
  have hpopped := h.dequeue (hq ▸ List.sublist_cons_self r q)
  have hput := hpopped.insertRecord clip hacc
  have hdone := hput.send (h.acceptedLe r hacc) hlast
  exact hdone.await (h.notSent hsent) (List.mem_append_right _ (List.mem_singleton_self _)) ⟨hacc, rfl⟩

/-- A reply takes its entry off the ack table. -/
theorem Sound.acked (h : m.Sound) (refid : ℤ) :
    ({ m with commands := (m.commands.handleCommandAck refid).2 } : Manager).Sound :=
  { h with
    wired := h.wired.handleCommandAck refid
    entry := by
      intro i ack hack
      rw [CommandHandler.acks_handleCommandAck] at hack
      split at hack
      · simp at hack
      · obtain ⟨hi, hown⟩ := h.entry i ack hack
        exact ⟨hi, hown⟩ }

theorem Sound.timedOut (h : m.Sound) {t : ℕ} {cb : AckCb AckBody} {commands : CommandHandler AckBody}
    (ht : m.commands.timedOut t = some (cb, commands)) :
    ({ m with commands }.ackTimedOut cb).Sound := by
  obtain ⟨hp, hacks, -⟩ := CommandHandler.timedOut_eq_some ht
  have hsettled : ({ m with commands, settled := m.settled ++ [cb.msgid] } : Manager).Sound :=
    { h with
      wired := h.wired.timedOut ht
      entry := fun i ack hack => h.entry i ack (hacks ▸ hack)
      settled := by
        intro i hi
        rcases List.mem_append.mp hi with hi | hi
        · exact h.settled i hi
        · obtain rfl := List.mem_singleton.mp hi
          exact (h.owns hp).1 }
  unfold ackTimedOut
  cases cb.run with
  | directUpload r => exact (hsettled.onFinished _ _).erasePayload _ _
  | camEvent needSnapshot needMeta =>
    cases needSnapshot <;> cases needMeta
    · exact hsettled
    · exact hsettled.erasePayload cb.msgid .metaFile
    · exact hsettled.erasePayload cb.msgid .snapshot
    · exact (hsettled.erasePayload cb.msgid .snapshot).erasePayload cb.msgid .metaFile

theorem Sound.httpFinished (h : m.Sound) {k : ℕ} {req : UploadRequestHttp} (code : ℤ)
    (hk : m.http[k]? = some req) :
    (({ m with http := m.http.eraseIdx k } : Manager).httpFinished req code).Sound := by
  have hperm : m.http.Perm (req :: m.http.eraseIdx k) := by
    obtain ⟨hlt, rfl⟩ := List.getElem?_eq_some_iff.mp hk
    exact (List.getElem_cons_eraseIdx_perm hlt).symm
  have hcount : ∀ kind, (m.countUploading (· - 1) req.mediaType).uploading kind =
      (m.http.eraseIdx k).countP (·.mediaType = kind) := by
    intro kind
    have hc := h.counters kind
    rw [hperm.countP_eq, List.countP_cons] at hc
    revert hc
    cases req.mediaType <;> cases kind <;> simp [countUploading, uploading] <;> omega
  unfold Manager.httpFinished
  revert hcount
  cases req.mediaType with
  | snapshot => exact fun hcount => { h with counters := hcount }
  | record => exact fun hcount => { h with counters := hcount }
  | metaFile => exact fun hcount => { h with counters := hcount }

theorem isSome_lookup_storePayload {β : Type} (i j : ℤ) (b : Option β) (s : AList fun _ : ℤ => β) :
    ((storePayload i b s).lookup j).isSome = true ↔
      (j = i ∧ b.isSome = true) ∨ (s.lookup j).isSome = true := by
  cases b <;> simp [storePayload, AList.lookup_isSome, AList.mem_insert]

/-- A notified event gets the next msgid, and one more is drawn. -/
theorem Sound.createEvent (h : m.Sound) : m.createEvent.Sound := by
  have hnew : ∀ i ∈ m.notified, i ∈ m.notified ++ [m.msgid + 1] := fun i hi => List.mem_append_left _ hi
  have hdraw := h.draw (i := m.msgid + 2) (by omega)
  exact { hdraw with
    notifiedLe := by
      intro i hi
      rcases List.mem_append.mp hi with hi | hi
      · exact hdraw.notifiedLe i hi
      · rw [List.mem_singleton.mp hi]
        exact Int.add_le_add_left (by decide) _
    apart := by
      intro r hr hn
      rcases List.mem_append.mp hn with hn | hn
      · exact h.apart r hr hn
      · have := h.acceptedLe r hr
        have := List.mem_singleton.mp hn
        omega
    entry := fun i ack hack =>
      ⟨(h.entry i ack hack).1, (h.entry i ack hack).2.mono (fun _ hr => hr) (hnew i) fun _ hk _ => hk⟩
    payload := fun i kind hheld => (h.payload i kind hheld).mono (fun _ hr => hr) (hnew i) }

/-- The payloads of an event that has not been sent yet are put aside. -/
theorem Sound.store (h : m.Sound) (snapshot : Option SnapshotInfo) (metaFile : Option FileMetaInfo) {msgid : ℤ}
    (hnotified : msgid ∈ m.notified) (hsent : msgid ∉ m.sent) :
    ({ m with
      snapshots := storePayload msgid snapshot m.snapshots
      metaFiles := storePayload msgid metaFile m.metaFiles } : Manager).Sound :=
  { h with
    entry := by
      intro i ack hack
      obtain ⟨hi, hown⟩ := h.entry i ack hack
      have hne : i ≠ msgid := by
        rintro rfl
        exact hsent hi
      refine ⟨hi, hown.mono (fun _ hr => hr) id fun kind hk _ => ?_⟩
      cases kind with
      | record => exact hk
      | snapshot => simpa [holds, isSome_lookup_storePayload, hne] using hk
      | metaFile => simpa [holds, isSome_lookup_storePayload, hne] using hk
    payload := by
      intro i kind hheld
      cases kind with
      | record => exact h.payload i .record hheld
      | snapshot =>
        rcases (isSome_lookup_storePayload _ _ _ _).mp hheld with ⟨rfl, -⟩ | hheld
        · exact hnotified
        · exact h.payload i .snapshot hheld
      | metaFile =>
        rcases (isSome_lookup_storePayload _ _ _ _).mp hheld with ⟨rfl, -⟩ | hheld
        · exact hnotified
        · exact h.payload i .metaFile hheld }

/-- The command of a notified event is not the one of a planned upload. -/
theorem Sound.sendNotified (h : m.Sound) {msgid : ℤ} (hle : msgid ≤ m.msgid) (hnotified : msgid ∈ m.notified) :
    ({ m with sent := m.sent ++ [msgid] } : Manager).Sound := by
  refine h.send hle fun r hr he => ?_
  exact h.apart r (h.queued r hr).1 (he ▸ hnotified)

theorem Sound.sendEvent (h : m.Sound) (p : Profile) (env : NotifyEnv) (config : EventConfig)
    (ev : EventObject) {msgid : ℤ} (hnotified : msgid ∈ m.notified) (hsent : msgid ∉ m.sent)
    (hheld : ∀ kind, m.holds msgid kind = false) : (m.sendEvent p env config msgid ev).Sound := by
  simp only [Manager.sendEvent]
  have hstore := h.store (m.eventSnapshot p env config ev) (m.eventMetaFile p ev) hnotified hsent
  split
  · exact hstore
  · split
    · refine (hstore.sendNotified (h.notifiedLe _ hnotified) hnotified).await (h.notSent hsent)
        (List.mem_append_right _ (List.mem_singleton_self _)) ⟨hnotified, fun hs => ?_, fun hf => ?_⟩
      · have hnone : (m.snapshots.lookup msgid).isSome = false := hheld .snapshot
        simpa [holds, isSome_lookup_storePayload, hnone] using hs
      · have hnone : (m.metaFiles.lookup msgid).isSome = false := hheld .metaFile
        simpa [holds, isSome_lookup_storePayload, hnone] using hf
    · exact hstore.sendNotified (h.notifiedLe _ hnotified) hnotified

theorem Sound.unheld (h : m.Sound) (kind : MediaType) : m.holds (m.msgid + 1) kind = false := by
  by_contra hheld
  have horigin := h.payload (m.msgid + 1) kind (by simpa using hheld)
  cases kind with
  | record =>
    obtain ⟨r, hr, he⟩ := horigin
    have := h.acceptedLe r hr
    omega
  | snapshot =>
    have := h.notifiedLe _ horigin
    omega
  | metaFile =>
    have := h.notifiedLe _ horigin
    omega

/-- Every move keeps the manager sound. -/
theorem Sound.move (h : m.Sound) (hmove : Move p c m m') : m'.Sound := by
  cases hmove with
  | registered b => exact { h with }
  | timer w hw =>
    exact h.requeue (w := w) (hw.symm.append_right _).subperm h.category
  | draw => exact h.draw (Int.le_add_one le_rfl)
  | accept r w hr hw => exact h.accept hr hw
  | enqueue r w hw => exact h.enqueue hw
  | late env =>
    have hsound := h.dequeue (List.filter_sublist (p := fun r => !isLate p env r))
    exact { hsound with }
  | canceled r q hq => exact h.dequeue (hq ▸ List.sublist_cons_self r q)
  | failed r q hq => exact (h.dequeue (hq ▸ List.sublist_cons_self r q)).onFinished _ _
  | request r q clip hq => exact h.request clip hq
  | cancelTicket ticket => exact h.dequeue List.filter_sublist
  | timedOut t cb commands ht => exact h.timedOut ht
  | refused msg ack => exact (h.acked msg.refid).onFinished _ _
  | answered msg ack m' hack hvalid hok hup => exact (h.acked msg.refid).uploaded hup
  | uploaded refid m' hup => exact h.uploaded hup
  | settle msg m₀ hsent =>
    exact { h with
      settled := by
        intro i hi
        rcases List.mem_append.mp hi with hi | hi
        · exact h.settled i hi
        · exact List.mem_singleton.mp hi ▸ hsent }
  | httpFinished k req code hk => exact h.httpFinished code hk
  | notified => exact h.createEvent
  | sentEvent env config ev =>
    exact h.createEvent.sendEvent p env config ev (List.mem_append_right _ (List.mem_singleton_self _))
      h.fresh h.unheld

end Manager
end CloudAgent.Agent
