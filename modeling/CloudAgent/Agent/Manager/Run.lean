import CloudAgent.Agent.Manager.Sound

/-! Every step of the manager is a chain of moves, and the conditions on the moves are conditions on
the steps. -/
namespace CloudAgent.Agent
open Utils Proto Transition
namespace Manager

variable {p : Profile} {c : Conditions} {m m' : Manager}

/-- The conditions along the loop of `direct_upload_sync_cb`. -/
def Conditions.queueMeets (c : Conditions) (p : Profile) (env : UploadEnv) :
    List GetDirectUploadUrl → Manager → Bool
  | [], _ => true
  | r :: q, m =>
    if m.recordsUploading < p.maxConcurentVideoUploads &&
        m.pending .record < p.maxConcurentVideoUploads then
      let popped := { m with directUploadVideoQ := q }
      if env.isCanceled r.msgid then c.canceled r && c.queueMeets p env q popped
      else if r.category = .record then
        match popped.requestDirectUploadVideo env r with
        | (true, _) => c.request m
        | (false, m) => c.queueMeets p env q m
      else c.queueMeets p env q popped
    else true

/-- The step meets the conditions. -/
def Conditions.Admits (c : Conditions) (p : Profile) (m : Manager) : Action → Bool
  | .fireUploadTimer t env =>
    match m.directUploadTimer.sulCb t with
    | none => true
    | some (.enqueue r, _) => c.enqueue r
    | some (.cancelByTicket ticket, directUploadTimer) => c.cancel ticket { m with directUploadTimer }
    | some (.directUploadSyncCb, directUploadTimer) =>
      let m := { m with directUploadTimer }.updateDirectUploadQueueLatency p env
      !m.registered || c.queueMeets p env m.directUploadVideoQ m
  | .directUploadUrl msg _ =>
    m.refuses msg || (m.commands.acks msg.refid).isNone || c.reply msg m
  | .notifyEvent ev env =>
    match m.eventConfig env ev with
    | none => true
    | some config => streamOnly env config ev || c.notify env config ev (m.cancelUploads ev)
  | _ => true

/-- A chain of moves. -/
abbrev Chain (p : Profile) (c : Conditions) : Manager → Manager → Prop :=
  Relation.ReflTransGen (Move p c)

/-- What every move keeps, a chain keeps. -/
theorem Chain.invariant {P : Manager → Prop}
    (hP : ∀ v v', v.Sound → P v → Move p c v v' → P v') (h : Chain p c m m') (hs : m.Sound)
    (hm : P m) : m'.Sound ∧ P m' := by
  induction h with
  | refl => exact ⟨hs, hm⟩
  | tail _ hmove ih => exact ⟨ih.1.move hmove, hP _ _ ih.1 ih.2 hmove⟩

/-! ### Timers and queues -/

theorem enqueuing_scheduleTimedCb (m : Manager) (cb : DirectUploadCb) (ms : ℕ) :
    ((m.directUploadTimer.scheduleTimedCb cb ms).2.pendingCbs).filterMap DirectUploadCb.request =
      m.enqueuing ++ cb.request.toList := by
  rw [Net.LwsCommon.pendingCbs_scheduleTimedCb, List.filterMap_append]
  cases hcb : cb.request <;> simp [enqueuing, hcb]

theorem enqueuing_sulCb {t : ℕ} {cb : DirectUploadCb} {w : Net.LwsCommon DirectUploadCb}
    (h : m.directUploadTimer.sulCb t = some (cb, w)) :
    m.enqueuing.Perm (cb.request.toList ++ w.pendingCbs.filterMap DirectUploadCb.request) := by
  have hperm := (Net.LwsCommon.pendingCbs_perm_sulCb h).filterMap DirectUploadCb.request
  cases hcb : cb.request <;> simpa [enqueuing, hcb] using hperm

/-- A timer without an upload is scheduled. -/
theorem Move.schedule (p : Profile) (c : Conditions) (m : Manager) {cb : DirectUploadCb}
    (hcb : cb.request = none) (ms : ℕ) :
    Move p c m { m with directUploadTimer := (m.directUploadTimer.scheduleTimedCb cb ms).2 } := by
  refine .timer _ ?_
  rw [enqueuing_scheduleTimedCb, hcb]
  simp

/-- A record is exported and its command sent, or the planned upload fails at once. -/
theorem requestDirectUploadVideo_cases (env : UploadEnv) (m : Manager) (r : GetDirectUploadUrl) :
    m.requestDirectUploadVideo env r = (false, m.onFinished r.msgid false) ∨
      ∃ clip, m.requestDirectUploadVideo env r = (true, { m with
        records := m.records.insert r.msgid clip
        commands := m.commands.sendCommandWaitAck r.msgid (.directUpload r) 20
        sent := m.sent ++ [r.msgid] }) := by
  unfold requestDirectUploadVideo
  cases env.lookupStream r.streamId with
  | none => exact Or.inl rfl
  | some recordExport =>
    dsimp only
    generalize recordExport r.fileTime _ = clip
    split
    · exact Or.inr ⟨clip, rfl⟩
    · exact Or.inl rfl

theorem requestQueued_chain (env : UploadEnv) {l : List GetDirectUploadUrl} (hs : m.Sound)
    (hl : m.directUploadVideoQ = l) (hok : c.queueMeets p env l m = true) :
    Chain p c m (m.requestQueued p env l) := by
  induction l generalizing m with
  | nil => exact .refl
  | cons r q ih =>
    have hcat : r.category = .record := hs.category r (hl ▸ List.mem_cons_self)
    simp only [Conditions.queueMeets, hcat, if_true] at hok
    simp only [requestQueued, hcat, if_true]
    split at hok
    · rename_i hroom
      rw [if_pos hroom]
      split at hok
      · rename_i hcanceled
        rw [if_pos hcanceled]
        simp only [Bool.and_eq_true] at hok
        have hmove : Move p c m { m with directUploadVideoQ := q } := .canceled r q hl hok.1
        exact .head hmove (ih (hs.move hmove) rfl hok.2)
      · rename_i hcanceled
        rw [if_neg hcanceled]
        have hfailed : Move p c m (({ m with directUploadVideoQ := q } : Manager).onFinished r.msgid false) :=
          .failed r q hl
        rcases requestDirectUploadVideo_cases env { m with directUploadVideoQ := q } r with he | ⟨clip, he⟩ <;>
          rw [he] at hok ⊢
        · exact .head hfailed (ih (hs.move hfailed) rfl hok)
        · exact .single (.request r q clip hl hok)
    · rename_i hroom
      rw [if_neg hroom]

theorem directUploadSyncCb_chain (env : UploadEnv) (hs : m.Sound)
    (hok : (!(m.updateDirectUploadQueueLatency p env).registered ||
      c.queueMeets p env (m.updateDirectUploadQueueLatency p env).directUploadVideoQ
        (m.updateDirectUploadQueueLatency p env)) = true) :
    Chain p c m (m.directUploadSyncCb p env) := by
  have hlate : Move p c m (m.updateDirectUploadQueueLatency p env) := .late env
  have hloop : Chain p c (m.updateDirectUploadQueueLatency p env)
      (if (m.updateDirectUploadQueueLatency p env).registered then
        (m.updateDirectUploadQueueLatency p env).requestQueued p env
          (m.updateDirectUploadQueueLatency p env).directUploadVideoQ
      else m.updateDirectUploadQueueLatency p env) := by
    split
    · rename_i hreg
      rw [hreg] at hok
      exact requestQueued_chain env (hs.move hlate) rfl hok
    · exact .refl
  exact (Relation.ReflTransGen.head hlate hloop).tail (.schedule p c _ rfl 1000)

/-! ### Replies -/

theorem uploaded_onDirectUploadUrl (isCanceled : ℤ → Bool) (m : Manager)
    (d : DirectUploadUrlBase) (initiator : Option ℤ) (refid : ℤ)
    (hkind : initiator ≠ none → ∀ kind, m.holds refid kind = true → kind = .record) :
    Uploaded initiator refid m (m.onDirectUploadUrl isCanceled d initiator refid) := by
  unfold onDirectUploadUrl
  cases hfind : m.payloadKind d refid with
  | none => exact .missing
  | some kind =>
    have hheld : m.holds refid kind = true := by
      have := List.find?_some hfind
      simp only [Bool.and_eq_true] at this
      exact this.1
    by_cases hdata : m.payloadData refid kind = []
    · simp only [hdata, ne_eq, not_true_eq_false, decide_false, Bool.false_and, Bool.false_eq_true,
        if_false]
      exact .dropped kind hheld
    · cases hcanceled : initiator.any isCanceled with
      | false =>
        simp only [hdata, ne_eq, not_false_eq_true, decide_true, Bool.not_false, Bool.or_true,
          Bool.true_and, if_true]
        have hstarted : Uploaded initiator refid m _ := .started
          ⟨refid, kind, d.url, d.headers.filter (·.1 ≠ "Content-Length"), m.payloadData refid kind,
            initiator⟩ hheld rfl
        cases kind <;> exact hstarted
      | true =>
        have hrecord : kind = .record := by
          refine hkind ?_ kind hheld
          rintro rfl
          simp at hcanceled
        subst hrecord
        simp only [hdata, ne_eq, not_false_eq_true, decide_true, not_true_eq_false, decide_false,
          Bool.not_true, Bool.or_self, Bool.and_false, Bool.false_eq_true, if_false]
        exact .dropped .record hheld

@[simp] theorem holds_countUploading (m : Manager) (f : ℕ → ℕ) (kind : MediaType) (i : ℤ) (k : MediaType) :
    (m.countUploading f kind).holds i k = m.holds i k := by
  cases kind <;> cases k <;> rfl

/-- The first payload that is held and allowed is the one that is taken off the held ones. -/
theorem filter_eraseP {α : Type} [DecidableEq α] (f g : α → Bool) {l : List α} (hl : l.Nodup) :
    (l.filter f).eraseP g =
      l.filter fun k => f k && decide (l.find? (fun k => f k && g k) ≠ some k) := by
  induction l with
  | nil => rfl
  | cons a l ih =>
    obtain ⟨ha, hl⟩ := List.nodup_cons.mp hl
    have hrest : ∀ k ∈ l, a ≠ k := by
      rintro k hk rfl
      exact ha hk
    cases hf : f a with
    | false => simp [hf, ih hl]
    | true =>
      cases hg : g a with
      | true =>
        simp only [hf, hg, List.filter_cons_of_pos, List.eraseP_cons_of_pos, List.find?_cons_of_pos,
          Bool.and_self, ne_eq, Option.some.injEq, not_true_eq_false, decide_false, Bool.and_false,
          Bool.false_eq_true, not_false_eq_true, List.filter_cons_of_neg]
        exact List.filter_congr fun k hk => by simp [hrest k hk]
      | false =>
        have hne : l.find? (fun k => f k && g k) ≠ some a := fun h => ha (List.mem_of_find?_eq_some h)
        simp [hf, hg, hne, ih hl]

/-- An URL takes the first payload that it allows. -/
theorem heldKinds_onDirectUploadUrl (isCanceled : ℤ → Bool) (m : Manager) (d : DirectUploadUrlBase)
    (initiator : Option ℤ) (refid : ℤ) :
    (m.onDirectUploadUrl isCanceled d initiator refid).heldKinds refid =
      (m.heldKinds refid).eraseP d.allows := by
  have hholds : ∀ k, (m.onDirectUploadUrl isCanceled d initiator refid).holds refid k =
      (m.holds refid k && decide (m.payloadKind d refid ≠ some k)) := by
    intro k
    unfold onDirectUploadUrl
    cases hfind : m.payloadKind d refid with
    | none => simp [holds, onFinished]
    | some kind =>
      have herase : ∀ v : Manager, (v.erasePayload refid kind).holds refid k =
          (v.holds refid k && decide (some kind ≠ some k)) := by
        intro v
        rw [Bool.eq_iff_iff, holds_erasePayload]
        by_cases hk : kind = k
        · simp [hk]
        · simp [hk, Ne.symm hk]
      dsimp only
      split <;> split <;> exact (herase _).trans (by simp)
  unfold heldKinds
  rw [filter_eraseP _ _ (by decide)]
  exact List.filter_congr fun k _ => hholds k

theorem sent_onDirectUploadUrl (isCanceled : ℤ → Bool) (m : Manager) (d : DirectUploadUrlBase)
    (initiator : Option ℤ) (refid : ℤ) :
    (m.onDirectUploadUrl isCanceled d initiator refid).sent = m.sent := by
  have hcount : ∀ (v : Manager) f kind, (v.countUploading f kind).sent = v.sent := by
    intro v f kind
    cases kind <;> rfl
  have herase : ∀ (v : Manager) kind, (v.erasePayload refid kind).sent = v.sent := by
    intro v kind
    cases kind <;> rfl
  unfold onDirectUploadUrl
  cases m.payloadKind d refid with
  | none => rfl
  | some kind =>
    dsimp only
    split <;> split <;> exact (herase _ kind).trans (by simp [hcount])

/-- The extra URLs of a reply, one after the other. -/
theorem extra_chain (isCanceled : ℤ → Bool) (refid : ℤ) (ds : List DirectUploadUrlBase) (m : Manager) :
    Chain p c m (ds.foldl (fun m d => m.onDirectUploadUrl isCanceled d none refid) m) ∧
      (ds.foldl (fun m d => m.onDirectUploadUrl isCanceled d none refid) m).heldKinds refid =
        leftover (m.heldKinds refid) ds ∧
      (ds.foldl (fun m d => m.onDirectUploadUrl isCanceled d none refid) m).sent = m.sent := by
  induction ds generalizing m with
  | nil => exact ⟨.refl, rfl, rfl⟩
  | cons d ds ih =>
    obtain ⟨hchain, hheld, hsent⟩ := ih (m.onDirectUploadUrl isCanceled d none refid)
    have hup := uploaded_onDirectUploadUrl isCanceled m d none refid fun h => absurd rfl h
    refine ⟨.head (.uploaded refid _ hup) hchain, hheld.trans ?_, hsent.trans ?_⟩
    · rw [heldKinds_onDirectUploadUrl]
      rfl
    · exact sent_onDirectUploadUrl isCanceled m d none refid

@[simp] theorem onFinished_none (m : Manager) (ok : Bool) : m.onFinished none ok = m := by
  simp [onFinished]

/-- A reply with status `OK` gets the callbacks of the planned upload, any other one fails it. -/
theorem ackReplied_eq (m : Manager) (msg : DirectUploadUrl) (cb : AckCb AckBody) :
    m.ackReplied msg cb = (if msg.status = "OK" then cb.run.initiator else none,
      m.onFinished (if msg.status = "OK" then none else cb.run.initiator) false) := by
  unfold ackReplied
  cases cb.run with
  | directUpload r => by_cases hs : msg.status = "OK" <;> simp [AckBody.initiator, hs]
  | camEvent needSnapshot needMeta => simp [AckBody.initiator]

theorem handleMessage_chain (isCanceled : ℤ → Bool) (msg : DirectUploadUrl) (hs : m.Sound)
    (hok : (m.refuses msg || (m.commands.acks msg.refid).isNone || c.reply msg m) = true) :
    Chain p c m (m.handleMessage isCanceled msg) := by
  unfold handleMessage
  cases hrefuses : m.refuses msg with
  | true =>
    simp only [if_true]
    exact .refl
  | false =>
    simp only [Bool.false_eq_true, if_false]
    rcases m.commands.handleCommandAck_cases msg.refid with ⟨hack, he⟩ | ⟨ack, hack, he⟩
    · rw [he]
      dsimp only
      unfold handleDirectUploadUrl
      split
      · have hup := uploaded_onDirectUploadUrl isCanceled m msg.toDirectUploadUrlBase none msg.refid
          fun h => absurd rfl h
        exact .head (.uploaded msg.refid _ hup) (extra_chain isCanceled msg.refid _ _).1
      · exact .refl
    · simp only [hrefuses, hack, Option.isNone_some, Bool.false_or] at hok
      have hsent := (hs.entry msg.refid ack hack).1
      rw [he]
      dsimp only
      rw [ackReplied_eq]
      unfold handleDirectUploadUrl
      cases hvalid : msg.valid with
      | false =>
        have hmove := Move.refused (p := p) (c := c) (m := m) msg ack hack hvalid hok
        rw [he] at hmove
        refine .head hmove (.single ?_)
        exact .settle msg m hsent (by simp [hack]) hok (by simp [hvalid]; rfl)
      | true =>
        have hstatus : msg.status = "OK" := by
          simp only [DirectUploadUrl.valid, Bool.and_eq_true, decide_eq_true_eq] at hvalid
          exact hvalid.2
        simp only [hstatus, if_true, onFinished_none]
        have hup := uploaded_onDirectUploadUrl isCanceled
          { m with commands := (m.commands.handleCommandAck msg.refid).2 } msg.toDirectUploadUrlBase
          ack.ackCb.run.initiator msg.refid fun hinit kind hheld => by
            obtain ⟨j, hj⟩ := Option.ne_none_iff_exists'.mp hinit
            exact hs.kind_of_initiator hack hj hheld
        have hmove := Move.answered (p := p) msg ack _ hack hvalid hok hup
        rw [he] at hmove
        obtain ⟨hchain, hheld, hkept⟩ := extra_chain (p := p) (c := c) isCanceled msg.refid
          (msg.extra.filter (·.status = "OK"))
          (({ m with commands := _ } : Manager).onDirectUploadUrl isCanceled msg.toDirectUploadUrlBase
            ack.ackCb.run.initiator msg.refid)
        refine (Relation.ReflTransGen.head hmove hchain).tail ?_
        refine .settle msg m ?_ (by simp [hack]) hok ?_
        · rw [hkept, sent_onDirectUploadUrl]
          exact hsent
        · rw [hheld, heldKinds_onDirectUploadUrl, if_pos hvalid]
          rfl

theorem cancelUploads_chain (ev : EventObject) : Chain p c m (m.cancelUploads ev) := by
  unfold cancelUploads
  split
  · exact .single (.schedule p c m rfl 1)
  · exact .refl

/-- `notify_event` may as well schedule the cancellation before it creates the command. -/
theorem notifyEvent_eq (env : NotifyEnv) (m : Manager) (ev : EventObject) :
    m.notifyEvent p env ev =
      match m.eventConfig env ev with
      | none => m.createEvent
      | some config =>
        if streamOnly env config ev then (m.cancelUploads ev).createEvent
        else (m.cancelUploads ev).createEvent.sendEvent p env config ((m.cancelUploads ev).msgid + 1) ev := by
  have hconfig : m.createEvent.eventConfig env ev = m.eventConfig env ev := rfl
  have hcreate : m.createEvent.cancelUploads ev = (m.cancelUploads ev).createEvent := by
    unfold cancelUploads
    split <;> rfl
  have hmsgid : (m.cancelUploads ev).msgid = m.msgid := by
    unfold cancelUploads
    split <;> rfl
  unfold notifyEvent
  dsimp only
  rw [hconfig]
  cases m.eventConfig env ev with
  | none => rfl
  | some config => simp only [hcreate, hmsgid]

theorem notifyEvent_chain (ev : EventObject) (env : NotifyEnv)
    (hok : c.Admits p m (.notifyEvent ev env) = true) : Chain p c m (m.notifyEvent p env ev) := by
  rw [notifyEvent_eq]
  simp only [Conditions.Admits] at hok
  cases hc : m.eventConfig env ev with
  | none => exact .single .notified
  | some config =>
    simp only [hc] at hok
    dsimp only
    split
    · exact (cancelUploads_chain ev).tail .notified
    · rename_i hstream
      have hnotify : c.notify env config ev (m.cancelUploads ev) = true := by simpa [hstream] using hok
      exact (cancelUploads_chain ev).tail (.sentEvent env config ev hnotify)

/-- A step that meets the conditions is a chain of moves that meet them. -/
theorem step_chain {a : Action} (hs : m.Sound) (hok : c.Admits p m a = true)
    (h : step p m a = some m') : Chain p c m m' := by
  cases a with
  | setRegistered registered =>
    obtain rfl := Option.some.inj h
    exact .single (.registered registered)
  | scheduleDirectUpload r isCanceled =>
    obtain rfl := Option.some.inj h
    unfold scheduleDirectUpload
    cases isCanceled with
    | true => exact .single .draw
    | false => exact .single (.accept _ _ rfl (enqueuing_scheduleTimedCb m _ 1))
  | cancelDirectUploadsByTicket ticket =>
    obtain rfl := Option.some.inj h
    exact .single (.schedule p c m rfl 1)
  | fireUploadTimer t env =>
    obtain ⟨⟨cb, w⟩, hw, rfl⟩ := Option.map_eq_some_iff.mp h
    have hperm := enqueuing_sulCb hw
    simp only [Conditions.Admits, hw] at hok
    cases cb with
    | enqueue r =>
      have hmove := Move.enqueue (p := p) (c := c) (m := m) r w hperm hok
      refine .single ?_
      simp only [runUploadCb, Manager.enqueue]
      by_cases hr : r.category = .record
      · simpa [hr] using hmove
      · by_cases hsnap : r.category = .snapshot
        · simpa [hr, hsnap] using hmove
        · simpa [hr, hsnap] using hmove
    | cancelByTicket ticket =>
      exact .head (.timer w hperm) (.single (.cancelTicket ticket hok))
    | directUploadSyncCb =>
      have hmove : Move p c m { m with directUploadTimer := w } := .timer w hperm
      exact .head hmove (directUploadSyncCb_chain env (hs.move hmove) hok)
  | fireAckTimer t =>
    obtain ⟨⟨cb, commands⟩, ht, rfl⟩ := Option.map_eq_some_iff.mp h
    exact .single (.timedOut t cb commands ht)
  | directUploadUrl msg isCanceled =>
    obtain rfl := Option.some.inj h
    exact handleMessage_chain isCanceled msg hs hok
  | httpFinished k code =>
    obtain ⟨req, hk, rfl⟩ := Option.map_eq_some_iff.mp h
    exact .single (.httpFinished k req code hk)
  | notifyEvent ev env =>
    obtain rfl := Option.some.inj h
    exact notifyEvent_chain ev env hok

/-! ### Runs -/

theorem queued_start (camId : ℤ) :
    (start camId).enqueuing ++ (start camId).directUploadVideoQ = [] := rfl

theorem sound_start (camId : ℤ) : (start camId).Sound where
  wired := CommandHandler.wired_empty
  acceptedLe := by simp [start]
  acceptedOnce := List.nodup_nil
  notifiedLe := by simp [start]
  apart := by simp [start]
  sentLe := by simp [start]
  queued r hr := by simp [queued_start] at hr
  queuedOnce := by simp [queued_start]
  category := by simp [start]
  entry := by simp [start, CommandHandler.empty]
  payload i kind h := by cases kind <;> simp [start, holds] at h
  settled := by simp [start]
  counters kind := by cases kind <;> rfl

/-- What every move that meets the conditions keeps holds at the end of every run that does. -/
theorem run_invariant {P : Manager → Prop} (hP : ∀ v v', v.Sound → P v → Move p c v v' → P v')
    {camId : ℤ} (h : P (start camId)) {as : List Action}
    (hm : Meets (step p) (fun m a => c.Admits p m a = true) (start camId) as)
    (he : exec (step p) (start camId) as = some m) : m.Sound ∧ P m :=
  Transition.invariant (P := fun v => v.Sound ∧ P v)
    (fun _ _ _ hv hok hw => (step_chain hv.1 hok hw).invariant hP hv.1 hv.2)
    ⟨sound_start camId, h⟩ hm he

/-- A stateless event that is configured to take a snapshot. -/
def snapshotEnv : NotifyEnv where
  config := some { snapshot := true }
  statefulEventHandled := true
  snapshotStream := some fun _ => some { size := 1, imageData := [0] }

/-- A reply to the command with a msgid, for any kind of payload. -/
def reply (refid : ℤ) (status : String) : DirectUploadUrl where
  category := .invalid
  status := status
  url := "https://upload"
  headers := []
  camId := unsetInt
  refid := refid
  extra := []

end Manager
end CloudAgent.Agent
