import CloudAgent.Agent.Manager.Run

/-! Every planned upload is answered exactly once. It is in one place at a time, a timer, a queue, the
ack table or an HTTP request, until `on_finished` is called for it; what is counted is the places
and the calls together. -/
namespace CloudAgent.Agent
open Utils Proto Transition
namespace Manager

variable {p : Profile} {m m' : Manager}

/-- How often `on_finished` has been called for a planned upload. -/
def answers (m : Manager) (i : ℤ) : ℕ := m.finished.countP (·.1 = i)

/-- The planned upload is queued or scheduled to be queued, its ack is awaited or its HTTP upload is
running. -/
def inProgress (m : Manager) (i : ℤ) : Bool :=
  m.enqueuing.any (·.msgid = i) || m.directUploadVideoQ.any (·.msgid = i) ||
    m.directUploadSnapshotQ.any (·.msgid = i) || m.commands.awaits i || m.http.any (·.initiator = some i)

/-- No planned upload is dropped on its way: it is of a kind that has a queue, it is not canceled
when its turn comes, no queued upload has a ticket that is canceled, and the reply to its command
comes in time if and only if it does not have status `OK` without an URL. -/
def answerConditions : Conditions where
  enqueue r := r.category = .record || r.category = .snapshot
  canceled _ := false
  cancel ticket m := m.directUploadVideoQ.all fun r => !isOfTicket ticket r
  reply msg m :=
    match m.commands.acks msg.refid with
    | some ⟨⟨_, .directUpload _⟩, _⟩ =>
      m.commands.awaits msg.refid != (msg.status = "OK" && msg.url = unsetString)
    | _ => true

/-- The places where a planned upload is. -/
def places (m : Manager) (i : ℤ) : ℕ :=
  m.enqueuing.countP (·.msgid = i) + m.directUploadVideoQ.countP (·.msgid = i) +
    m.directUploadSnapshotQ.countP (·.msgid = i) +
    m.commands.transport.pendingCbs.countP (·.run.initiator = some i) +
    m.http.countP (·.initiator = some i)

/-- Every accepted upload is in one place or was answered once. -/
def Accounted (m : Manager) : Prop :=
  ∀ i, m.places i + m.answers i = m.accepted.countP (·.msgid = i)

theorem answers_onFinished (m : Manager) (initiator : Option ℤ) (ok : Bool) (i : ℤ) :
    (m.onFinished initiator ok).answers i = m.answers i + if initiator = some i then 1 else 0 := by
  cases initiator with
  | none => simp [answers, onFinished]
  | some j => simp [answers, onFinished, List.countP_append, List.countP_singleton]

theorem places_erasePayload (m : Manager) (j : ℤ) (kind : MediaType) (i : ℤ) :
    (m.erasePayload j kind).places i = m.places i := by
  cases kind <;> rfl

theorem answers_erasePayload (m : Manager) (j : ℤ) (kind : MediaType) (i : ℤ) :
    (m.erasePayload j kind).answers i = m.answers i := by
  cases kind <;> rfl

theorem accepted_erasePayload (m : Manager) (j : ℤ) (kind : MediaType) :
    (m.erasePayload j kind).accepted = m.accepted := by
  cases kind <;> rfl

theorem Accounted.erasePayload (h : Accounted m) (j : ℤ) (kind : MediaType) :
    Accounted (m.erasePayload j kind) := by
  intro i
  rw [places_erasePayload, answers_erasePayload, accepted_erasePayload]
  exact h i

/-- An upload that starts takes a place, and one that does not is answered. -/
theorem uploaded_balance {initiator : Option ℤ} {refid : ℤ} (hup : Uploaded initiator refid m m') (i : ℤ) :
    m'.places i + m'.answers i = m.places i + m.answers i + (if initiator = some i then 1 else 0) ∧
      m'.accepted = m.accepted := by
  cases hup with
  | missing =>
    refine ⟨?_, rfl⟩
    rw [answers_onFinished, ← Nat.add_assoc]
    rfl
  | dropped kind hheld =>
    refine ⟨?_, accepted_erasePayload m refid kind⟩
    rw [answers_onFinished, answers_erasePayload, ← Nat.add_assoc, ← places_erasePayload m refid kind]
    rfl
  | started req hheld hinit =>
    have hcount : (m.http ++ [req]).countP (·.initiator = some i) =
        m.http.countP (·.initiator = some i) + if initiator = some i then 1 else 0 := by
      simp [List.countP_append, List.countP_singleton, hinit]
    cases req.mediaType <;> refine ⟨?_, rfl⟩ <;>
      simp only [Manager.erasePayload, countUploading, places, answers, enqueuing, hcount] <;> omega

/-- A reply takes the place of the ack that was still awaited. -/
theorem countP_handleCommandAck (hs : m.Sound) {refid : ℤ} {ack : CommandAck AckBody}
    (hack : m.commands.acks refid = some ack) (i : ℤ) :
    m.commands.transport.pendingCbs.countP (·.run.initiator = some i) =
      (m.commands.handleCommandAck refid).2.transport.pendingCbs.countP (·.run.initiator = some i) +
        if m.commands.awaits refid && ack.ackCb.run.initiator = some i then 1 else 0 := by
  have he : (m.commands.handleCommandAck refid).2.transport =
      m.commands.transport.cancelTimedCb ack.timeoutCb := by
    simp [CommandHandler.handleCommandAck, hack]
  rw [he]
  cases hp : m.commands.transport.pendingCb ack.timeoutCb with
  | none =>
    rw [Net.LwsCommon.cancelTimedCb_of_not_pending hp]
    simp [CommandHandler.awaits, hack, hp]
  | some cb =>
    have hpending := Net.LwsCommon.pendingCb_eq_some.mp hp
    obtain rfl := hs.wired.entry refid ack cb hack hpending
    rw [(Net.LwsCommon.pendingCbs_perm_cancelTimedCb hpending).countP_eq, List.countP_cons]
    simp [CommandHandler.awaits, hack, hp]

/-- In time and well-formed, or too late and ill-formed: the reply answers what it takes. -/
theorem reply_directUpload {msg : DirectUploadUrl} {ack : CommandAck AckBody}
    (hack : m.commands.acks msg.refid = some ack) (hok : answerConditions.reply msg m = true) {i : ℤ}
    (hi : ack.ackCb.run.initiator = some i) :
    m.commands.awaits msg.refid = (msg.status != "OK" || msg.url != unsetString) := by
  obtain ⟨⟨j, body⟩, t⟩ := ack
  cases body with
  | camEvent needSnapshot needMeta => simp [AckBody.initiator] at hi
  | directUpload r =>
    simp only [answerConditions, hack, bne_iff_ne, ne_eq] at hok
    by_cases hs : msg.status = "OK" <;> by_cases hu : msg.url = unsetString <;> simp_all

theorem Accounted.onFinished_requeue (h : Accounted m) {q : List GetDirectUploadUrl}
    {r : GetDirectUploadUrl} (hq : m.directUploadVideoQ = r :: q) :
    Accounted (({ m with directUploadVideoQ := q } : Manager).onFinished r.msgid false) := by
  intro i
  have hi := h i
  have hq : m.directUploadVideoQ.countP (·.msgid = i) =
      q.countP (·.msgid = i) + if some r.msgid = some i then 1 else 0 := by
    simp [hq, List.countP_cons]
  have ha := answers_onFinished { m with directUploadVideoQ := q } (some r.msgid) false i
  simp only [places, answers, enqueuing] at hi ha ⊢
  simp only [Manager.onFinished] at ha ⊢
  omega

theorem Accounted.enqueue (h : Accounted m) {r : GetDirectUploadUrl}
    {w : Net.LwsCommon DirectUploadCb}
    (hw : m.enqueuing.Perm (r :: w.pendingCbs.filterMap DirectUploadCb.request))
    (hok : answerConditions.enqueue r = true) :
    Accounted { m with
      directUploadTimer := w
      directUploadVideoQ := m.directUploadVideoQ ++ if r.category = .record then [r] else []
      directUploadSnapshotQ := m.directUploadSnapshotQ ++ if r.category = .snapshot then [r] else [] } := by
  intro i
  have hi := h i
  have hcount := hw.countP_eq fun s => decide (s.msgid = i)
  simp only [places, answers, enqueuing, List.countP_append, List.countP_cons] at hi hcount ⊢
  simp only [answerConditions, Bool.or_eq_true, decide_eq_true_eq] at hok
  rcases hok with hr | hr <;> simp only [hr, reduceCtorEq, if_true, if_false, List.countP_nil,
    List.countP_singleton] <;> omega

/-- Late uploads are answered as they leave the queue. -/
theorem Accounted.late (h : Accounted m) (env : UploadEnv) :
    Accounted (m.updateDirectUploadQueueLatency p env) := by
  intro i
  have hi := h i
  have hcount := (List.filter_append_perm (isLate p env) m.directUploadVideoQ).countP_eq
    fun r => decide (r.msgid = i)
  simp only [places, answers, enqueuing, updateDirectUploadQueueLatency, List.countP_append,
    List.countP_map] at hi hcount ⊢
  have hmap : ((fun x : ℤ × Bool => decide (x.1 = i)) ∘ fun r : GetDirectUploadUrl => (r.msgid, false)) =
      fun r => decide (r.msgid = i) := rfl
  rw [hmap]
  omega

theorem Accounted.ackTimedOut (h : Accounted m) {t : ℕ} {cb : AckCb AckBody}
    {commands : CommandHandler AckBody} (ht : m.commands.timedOut t = some (cb, commands)) :
    Accounted ({ m with commands }.ackTimedOut cb) := by
  obtain ⟨-, -, -, hperm, -⟩ := CommandHandler.timedOut_eq_some ht
  have hfinished : Accounted (({ m with commands, settled := m.settled ++ [cb.msgid] } :
      Manager).onFinished cb.run.initiator false) := by
    intro i
    have hi := h i
    have hcount := hperm.countP_eq fun c => decide (c.run.initiator = some i)
    have ha := answers_onFinished
      { m with commands, settled := m.settled ++ [cb.msgid] } cb.run.initiator false i
    simp only [places, answers, enqueuing, List.countP_cons, decide_eq_true_eq] at hi ha hcount ⊢
    simp only [Manager.onFinished] at ha ⊢
    omega
  unfold Manager.ackTimedOut
  cases hrun : cb.run with
  | directUpload r =>
    rw [hrun] at hfinished
    exact hfinished.erasePayload r.msgid .record
  | camEvent needSnapshot needMeta =>
    rw [hrun, AckBody.initiator, onFinished_none] at hfinished
    cases needSnapshot <;> cases needMeta
    · exact hfinished
    · exact hfinished.erasePayload cb.msgid .metaFile
    · exact hfinished.erasePayload cb.msgid .snapshot
    · exact (hfinished.erasePayload cb.msgid .snapshot).erasePayload cb.msgid .metaFile

/-- A reply that is not used fails the upload, unless the timeout has done so. -/
theorem Accounted.refused (hs : m.Sound) (h : Accounted m) {msg : DirectUploadUrl}
    {ack : CommandAck AckBody} (hack : m.commands.acks msg.refid = some ack) (hvalid : msg.valid = false)
    (hok : answerConditions.reply msg m = true) :
    Accounted (({ m with commands := (m.commands.handleCommandAck msg.refid).2 } : Manager).onFinished
      (if msg.status = "OK" then none else ack.ackCb.run.initiator) false) := by
  intro i
  have hi := h i
  have hcount := countP_handleCommandAck hs hack i
  have ha := answers_onFinished { m with commands := (m.commands.handleCommandAck msg.refid).2 }
    (if msg.status = "OK" then none else ack.ackCb.run.initiator) false i
  have hsame : (if (if msg.status = "OK" then none else ack.ackCb.run.initiator) = some i then 1 else 0) =
      if m.commands.awaits msg.refid && ack.ackCb.run.initiator = some i then 1 else 0 := by
    by_cases hinit : ack.ackCb.run.initiator = some i
    · rw [reply_directUpload hack hok hinit]
      by_cases hstatus : msg.status = "OK"
      · have hurl : msg.url = unsetString := by
          by_contra hurl
          have hv : msg.valid = true := by
            rw [DirectUploadUrl.valid, hstatus, decide_eq_true hurl]
            rfl
          simp [hv] at hvalid
        simp [hstatus, hurl]
      · simp [hstatus, hinit]
    · by_cases hstatus : msg.status = "OK" <;> simp [hstatus, hinit]
  simp only [places, answers, enqueuing] at hi ha ⊢
  simp only [Manager.onFinished] at ha ⊢
  omega

/-- A reply that is used moves the upload from its ack to an HTTP request, or answers it. -/
theorem Accounted.answered (hs : m.Sound) (h : Accounted m) {msg : DirectUploadUrl}
    {ack : CommandAck AckBody} (hack : m.commands.acks msg.refid = some ack) (hvalid : msg.valid = true)
    (hok : answerConditions.reply msg m = true)
    (hup : Uploaded ack.ackCb.run.initiator msg.refid
      { m with commands := (m.commands.handleCommandAck msg.refid).2 } m') : Accounted m' := by
  intro i
  have hi := h i
  have hcount := countP_handleCommandAck hs hack i
  obtain ⟨hbalance, hacc⟩ := uploaded_balance hup i
  have hsame : (if m.commands.awaits msg.refid && ack.ackCb.run.initiator = some i then 1 else 0) =
      if ack.ackCb.run.initiator = some i then 1 else 0 := by
    by_cases hinit : ack.ackCb.run.initiator = some i
    · have hurl : msg.url ≠ unsetString := by
        simp only [DirectUploadUrl.valid, Bool.and_eq_true, decide_eq_true_eq] at hvalid
        exact hvalid.1.2
      simp [reply_directUpload hack hok hinit, hurl]
    · simp [hinit]
  rw [hacc, hbalance]
  simp only [places, answers, enqueuing] at hi ⊢
  omega

theorem Accounted.finishUpload (h : Accounted m) (kind : MediaType) :
    Accounted (m.countUploading (· - 1) kind) := by
  cases kind <;> exact h

/-- The response of an HTTP upload answers it. -/
theorem Accounted.httpFinished (h : Accounted m) {k : ℕ} {req : UploadRequestHttp} (code : ℤ)
    (hk : m.http[k]? = some req) :
    Accounted (({ m with http := m.http.eraseIdx k } : Manager).httpFinished req code) := by
  have hperm : m.http.Perm (req :: m.http.eraseIdx k) := by
    obtain ⟨hlt, rfl⟩ := List.getElem?_eq_some_iff.mp hk
    exact (List.getElem_cons_eraseIdx_perm hlt).symm
  apply Accounted.finishUpload
  intro i
  have hi := h i
  have hcount := hperm.countP_eq fun q => decide (q.initiator = some i)
  have ha := answers_onFinished { m with http := m.http.eraseIdx k } req.initiator (code = 200) i
  simp only [places, answers, enqueuing, List.countP_cons, decide_eq_true_eq] at hi ha hcount ⊢
  simp only [Manager.onFinished] at ha ⊢
  omega

/-- The commands of events have no planned upload. -/
theorem Accounted.sendEvent (h : Accounted m) (env : NotifyEnv) (config : EventConfig) (msgid : ℤ)
    (ev : EventObject) : Accounted (m.sendEvent p env config msgid ev) := by
  simp only [Manager.sendEvent]
  split
  · exact h
  · split
    · intro i
      have hi := h i
      have hcbs : ∀ body : AckBody, (m.commands.sendCommandWaitAck msgid body 20).transport.pendingCbs =
          m.commands.transport.pendingCbs ++ [⟨msgid, body⟩] :=
        fun _ => Net.LwsCommon.pendingCbs_scheduleTimedCb _ _ _
      simp only [places, answers, enqueuing, hcbs, List.countP_append, List.countP_cons, List.countP_nil,
        AckBody.initiator, reduceCtorEq, decide_false, Bool.false_eq_true, if_false] at hi ⊢
      omega
    · exact h

/-- An upload that is not in progress is in no place. -/
theorem Sound.places_eq_zero (hs : m.Sound) {i : ℤ} (hidle : m.inProgress i = false) : m.places i = 0 := by
  simp only [inProgress, Bool.or_eq_false_iff, List.any_eq_false, decide_eq_true_eq] at hidle
  obtain ⟨⟨⟨⟨henqueuing, hvideo⟩, hsnapshot⟩, hack⟩, hhttp⟩ := hidle
  have hcbs : ∀ cb ∈ m.commands.transport.pendingCbs, ¬ decide (cb.run.initiator = some i) = true := by
    intro cb hcb hinit
    obtain ⟨t, hp⟩ := Net.LwsCommon.mem_pendingCbs.mp hcb
    have hawaits := hs.wired.awaits_of_pending hp
    have howns := (hs.owns hp).2
    cases hrun : cb.run with
    | camEvent needSnapshot needMeta => simp [hrun, AckBody.initiator] at hinit
    | directUpload r =>
      rw [hrun] at howns
      have hr : r.msgid = i := by simpa [hrun, AckBody.initiator] using hinit
      rw [← howns.2, hr, hack] at hawaits
      simp at hawaits
  have h₁ := List.countP_eq_zero.mpr hcbs
  have h₂ : m.enqueuing.countP (·.msgid = i) = 0 := List.countP_eq_zero.mpr (by simpa using henqueuing)
  have h₃ : m.directUploadVideoQ.countP (·.msgid = i) = 0 := List.countP_eq_zero.mpr (by simpa using hvideo)
  have h₄ : m.directUploadSnapshotQ.countP (·.msgid = i) = 0 :=
    List.countP_eq_zero.mpr (by simpa using hsnapshot)
  have h₅ : m.http.countP (·.initiator = some i) = 0 := List.countP_eq_zero.mpr (by simpa using hhttp)
  unfold places
  omega

theorem accounted_move (hs : m.Sound) (h : Accounted m) (hmove : Move p answerConditions m m') :
    Accounted m' := by
  cases hmove with
  | registered b => exact h
  | timer w hw =>
    intro i
    have hi := h i
    have hcount := hw.countP_eq fun r => decide (r.msgid = i)
    simp only [places, answers, enqueuing] at hi hcount ⊢
    omega
  | draw => exact h
  | accept r w hr hw =>
    intro i
    have hi := h i
    simp only [places, answers, enqueuing, List.countP_append] at hi hw ⊢
    rw [hw, List.countP_append]
    omega
  | enqueue r w hw hok => exact h.enqueue hw hok
  | late env => exact h.late env
  | canceled r q hq hok => simp [answerConditions] at hok
  | failed r q hq => exact h.onFinished_requeue hq
  | request r q clip hq =>
    intro i
    have hi := h i
    have hcbs : (m.commands.sendCommandWaitAck r.msgid (.directUpload r) 20).transport.pendingCbs =
        m.commands.transport.pendingCbs ++ [⟨r.msgid, .directUpload r⟩] :=
      Net.LwsCommon.pendingCbs_scheduleTimedCb _ _ _
    simp only [places, answers, enqueuing, hq, hcbs, List.countP_append, List.countP_cons,
      List.countP_nil, AckBody.initiator, Option.some.injEq] at hi ⊢
    omega
  | cancelTicket ticket hok =>
    have hall : m.directUploadVideoQ.filter (fun r => !isOfTicket ticket r) = m.directUploadVideoQ := by
      simp only [answerConditions, List.all_eq_true] at hok
      exact List.filter_eq_self.mpr hok
    have hsame : m.cancelByTicket ticket = m := by
      unfold cancelByTicket
      rw [hall]
    rw [hsame]
    exact h
  | timedOut t cb commands ht => exact h.ackTimedOut ht
  | refused msg ack hack hvalid hok => exact Accounted.refused hs h hack hvalid hok
  | answered msg ack m' hack hvalid hok hup => exact Accounted.answered hs h hack hvalid hok hup
  | uploaded refid m' hup =>
    intro i
    have hi := h i
    obtain ⟨hbalance, hacc⟩ := uploaded_balance hup i
    rw [hacc, hbalance]
    simpa using hi
  | settle msg m₀ => exact h
  | httpFinished k req code hk => exact h.httpFinished code hk
  | notified => exact h
  | sentEvent env config ev => exact Accounted.sendEvent (m := m.createEvent) h env config _ ev

/-- In every run that meets the conditions, `on_finished` is called once for each planned upload that
was accepted, as soon as it is no longer in progress, and not before. -/
theorem uploads_answered_once (p : Profile) (camId : ℤ) (as : List Action) (u : Manager)
    (hm : Meets (step p) (fun m a => answerConditions.Admits p m a = true) (start camId) as)
    (he : exec (step p) (start camId) as = some u) :
    ∀ r ∈ u.accepted, u.answers r.msgid ≤ 1 ∧ (u.inProgress r.msgid = false → u.answers r.msgid = 1) := by
  have hstart : Accounted (start camId) := fun i => rfl
  obtain ⟨hsound, haccounted⟩ :=
    run_invariant (fun v v' hs hv hmove => accounted_move hs hv hmove) hstart hm he
  intro r hr
  have hone : u.accepted.countP (·.msgid = r.msgid) = 1 := by
    have hcount := List.count_eq_one_of_mem hsound.acceptedOnce (List.mem_map_of_mem hr)
    rw [List.count, List.countP_map] at hcount
    exact hcount
  have hbalance := haccounted r.msgid
  refine ⟨by omega, fun hidle => ?_⟩
  have hnone := hsound.places_eq_zero hidle
  omega

/-- Fifteen seconds of recording. -/
def plannedRecord : GetDirectUploadUrl where
  msgid := 0
  category := .record
  streamId := "cam"
  fileTime := seconds 1000
  duration := 15000
  durationUs := 0
  memorycardSyncTicket := ""

/-- A stream that exports whatever is asked for, while nothing is canceled. -/
def exportEnv : UploadEnv where
  now := seconds 1000
  isCanceled _ := false
  lookupStream _ := some fun start stop => { tpStart := start, tpStop := stop, data := [0] }

/-- A record is scheduled, queued, and requested by the next callback of the scheduler. -/
def requestedRecord : List Action :=
  [.setRegistered true, .scheduleDirectUpload plannedRecord false, .fireUploadTimer 1 exportEnv,
    .fireUploadTimer 0 exportEnv]

theorem uploads_answered_once_uploaded :
    ∃ u, exec (step {}) (start 7) (requestedRecord ++
        [.directUploadUrl (reply 1 "OK") fun _ => false, .httpFinished 0 200]) = some u ∧
      u.finished = [(1, true)] ∧ ∀ r ∈ u.accepted,
        u.answers r.msgid ≤ 1 ∧ (u.inProgress r.msgid = false → u.answers r.msgid = 1) := by
  have hrun : ∃ u ∈ exec (step {}) (start 7) (requestedRecord ++
      [.directUploadUrl (reply 1 "OK") fun _ => false, .httpFinished 0 200]),
        u.finished = [(1, true)] := by
    decide +kernel
  obtain ⟨u, hu, hfinished⟩ := hrun
  exact ⟨u, hu, hfinished, uploads_answered_once {} 7 _ u (by decide +kernel) hu⟩

/-- The reply comes after the timeout, and the upload fails for a second time. -/
theorem upload_answered_twice :
    ∃ u ∈ exec (step {}) (start 7) (requestedRecord ++
        [.fireAckTimer 0, .directUploadUrl (reply 1 "OK") fun _ => false]),
      u.accepted.map (·.msgid) = [1] ∧ u.answers 1 = 2 := by
  decide +kernel

end Manager
end CloudAgent.Agent
