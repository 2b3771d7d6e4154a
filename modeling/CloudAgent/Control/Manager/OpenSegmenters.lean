import CloudAgent.Control.Media.Starts

/-! Who will finalize an open segmenter. An active event holds the segmenter that it opened until it stops or
switches its delivery, and both finalize it; only another start of the active event, or the start of an event
that cannot be stopped, leaves an open segmenter behind. -/
namespace CloudAgent.Control
open Proto Net Transition

namespace Delivery
variable {d d' : Delivery} {op : Op} {i : ℕ} {k name : String} {st : EventState}

/-- A segmenter was handed to the uploader while it was open, and was never finalized. -/
def IsOpen (d : Delivery) (i : ℕ) : Prop := i ∈ d.scheduledOpen ∧ i ∉ d.finalized

/-- Every open segmenter is that of an active event. -/
def Owned (d : Delivery) : Prop :=
  ∀ i, d.IsOpen i → ∃ name, (d.state name).active = true ∧ (d.state name).segmenter = i

theorem owned_iff_lookup : d.Owned ↔ ∀ i ∈ d.scheduledOpen, i ∈ d.finalized ∨
    ∃ name st, d.eventsStates.lookup name = some st ∧ st.active = true ∧ st.segmenter = i := by
  have hactive (i : ℕ) : (∃ name, (d.state name).active = true ∧ (d.state name).segmenter = i) ↔
      ∃ name st, d.eventsStates.lookup name = some st ∧ st.active = true ∧ st.segmenter = i := by
    refine exists_congr fun name => ?_
    cases h : d.eventsStates.lookup name with
    | none => simp [state_of_none h]
    | some st => simp [state_of_lookup h]
  unfold Owned IsOpen
  simp only [hactive, and_imp, or_iff_not_imp_left]

/-- A start leaves no open segmenter behind. -/
def StartsOwned (d : Delivery) (name : String) (mode : StreamDeliveryMode) (event : EventObject) : Prop :=
  ¬ ((d.state name).active = true ∧ d.IsOpen (d.state name).segmenter) ∧
    (d.opens name mode event = true → (d.state name).stateful = true)

/-! ### States that stay what they are -/

/-- The state under this name is the same for what follows. A state that is not there gets its segmenter
when it is created. -/
structure SameState (d d' : Delivery) (k : String) : Prop where
  stateful : (d'.state k).stateful = (d.state k).stateful
  attached : (d'.state k).attached = (d.state k).attached
  active : (d'.state k).active = (d.state k).active
  deliveryMode : (d'.state k).deliveryMode = (d.state k).deliveryMode
  segmenter : (d.state k).attached = true → (d'.state k).segmenter = (d.state k).segmenter

theorem SameState.of_core (h : d'.core k = d.core k) : SameState d d' k := by
  by_cases hk : k ∈ d.eventsStates
  · have hst : (d'.state k).core = (d.state k).core := core_state (h.trans (core_of_mem hk))
    have hfields (st st' : EventState) (h : st'.core = st.core) : st'.stateful = st.stateful ∧
        st'.attached = st.attached ∧ st'.active = st.active ∧ st'.deliveryMode = st.deliveryMode ∧
        st'.segmenter = st.segmenter := by
      simp only [EventState.core, EventState.mk.injEq] at h
      tauto
    obtain ⟨h₁, h₂, h₃, h₄, h₅⟩ := hfields _ _ hst
    exact ⟨h₁, h₂, h₃, h₄, fun _ => h₅⟩
  · have hk' : k ∉ d'.eventsStates := by
      rw [← core_eq_none, h, core_eq_none]
      exact hk
    rw [← AList.lookup_eq_none] at hk hk'
    constructor
    all_goals simp [state_of_none hk, state_of_none hk']

theorem SameState.of_update (h : d'.core = Function.update d.core name (some st)) (hk : k ≠ name) :
    SameState d d' k :=
  .of_core (by rw [h, Function.update_of_ne hk])

/-- The state under a name that was touched. -/
theorem core_state_of_update (h : d'.core = Function.update d.core name (some st)) : (d'.state name).core = st :=
  core_state (by rw [h, Function.update_self])

/-! ### The invariant -/

/-- Attached states have segmenters of their own, and a stateful event whose segmenter is open is active
and uploads. -/
structure Segmented (d : Delivery) : Prop where
  fresh : ∀ k, (d.state k).attached = true → (d.state k).segmenter < d.nextSegmenter
  distinct : ∀ j k, (d.state j).attached = true → (d.state k).attached = true →
    (d.state j).segmenter = (d.state k).segmenter → j = k
  scheduled : ∀ i ∈ d.scheduledOpen, i < d.nextSegmenter
  finalized : ∀ i ∈ d.finalized, i < d.nextSegmenter
  uploading : ∀ k, (d.state k).stateful = true → d.IsOpen (d.state k).segmenter →
    (d.state k).active = true ∧ (d.state k).deliveryMode = .upload

theorem Segmented.empty : empty.Segmented where
  fresh _ := nofun
  distinct _ _ := nofun
  scheduled _ := nofun
  finalized _ := nofun
  uploading _ := nofun

theorem isOpen_congr (hopen : d'.scheduledOpen = d.scheduledOpen) (hfin : d'.finalized = d.finalized) :
    d'.IsOpen i ↔ d.IsOpen i := by
  unfold IsOpen
  rw [hopen, hfin]

theorem Sound.attached_of_active (h : d.Sound) (ha : (d.state k).active = true) : (d.state k).attached = true :=
  (h.states k).attached_of_stateful ((h.states k).stateful_of_active ha)

/-! ### Operations that touch no segmenter -/

/-- The states, the open segmenters and the finalized ones are the same. -/
structure Idle (d d' : Delivery) : Prop where
  states : ∀ k, SameState d d' k
  next : d.nextSegmenter ≤ d'.nextSegmenter
  scheduled : d'.scheduledOpen = d.scheduledOpen
  finalized : d'.finalized = d.finalized

theorem Segmented.idle (h : d.Segmented) (hd : d.Sound) (hidle : Idle d d') : d'.Segmented where
  fresh k ha := by
    have hd := (hidle.states k).attached.symm.trans ha
    rw [(hidle.states k).segmenter hd]
    exact (h.fresh k hd).trans_le hidle.next
  distinct j k hj hk hjk := by
    have hj' := (hidle.states j).attached.symm.trans hj
    have hk' := (hidle.states k).attached.symm.trans hk
    rw [(hidle.states j).segmenter hj', (hidle.states k).segmenter hk'] at hjk
    exact h.distinct j k hj' hk' hjk
  scheduled i hi := (h.scheduled i (hidle.scheduled ▸ hi)).trans_le hidle.next
  finalized i hi := (h.finalized i (hidle.finalized ▸ hi)).trans_le hidle.next
  uploading k hk ho := by
    have hstateful := (hidle.states k).stateful.symm.trans hk
    rw [(hidle.states k).segmenter ((hd.states k).attached_of_stateful hstateful),
      isOpen_congr hidle.scheduled hidle.finalized] at ho
    rw [(hidle.states k).active, (hidle.states k).deliveryMode]
    exact h.uploading k hstateful ho

theorem owned_idle (h : d.Sound) (hidle : Idle d d') : d'.Owned ↔ d.Owned := by
  refine forall_congr' fun i => imp_congr (isOpen_congr hidle.scheduled hidle.finalized) (exists_congr fun k => ?_)
  rw [(hidle.states k).active]
  refine and_congr_right fun ha => ?_
  rw [(hidle.states k).segmenter (h.attached_of_active ha)]

theorem idle_touch (d : Delivery) (name : String) : Idle d (d.touch name) where
  states k := by
    by_cases hk : k = name
    · subst hk
      constructor
      all_goals simp
    · exact .of_update (core_touch d name) hk
  next := nextSegmenter_le_touch d name
  scheduled := scheduledOpen_touch d name
  finalized := finalized_touch d name

theorem idle_runHttpCb (http : LwsCommon HttpCb) (cb : HttpCb) (d : Delivery) :
    Idle d ({ d with http }.runHttpCb cb).2 := by
  cases cb with
  | startStream streamId => exact ⟨fun k => .of_core rfl, le_rfl, rfl, rfl⟩
  | stopStream name =>
    refine ⟨fun k => ?_, le_rfl, rfl, rfl⟩
    have hcore : ({ d with http }.runHttpCb (.stopStream name)).2.core =
        Function.update d.core name (some (d.state name).core) := core_setState _ _ _
    by_cases hk : k = name
    · subst hk
      have hst := core_state_of_update hcore
      exact ⟨(congrArg EventState.stateful hst :), (congrArg EventState.attached hst :),
        (congrArg EventState.active hst :), (congrArg EventState.deliveryMode hst :),
        fun _ => (congrArg EventState.segmenter hst :)⟩
    · exact .of_update hcore hk

/-! ### Operations that settle a segmenter -/

/-- Only the segmenter of the event `name` can be opened again or finalized, and if it is open then, the event
is active and uploads. -/
structure Settles (d d' : Delivery) (name : String) : Prop where
  states : ∀ k ≠ name, SameState d d' k
  stateful : (d'.state name).stateful = (d.state name).stateful
  attached : (d'.state name).attached = (d.state name).attached
  segmenter : (d'.state name).segmenter = (d.state name).segmenter
  next : d.nextSegmenter ≤ d'.nextSegmenter
  isOpen : ∀ i ≠ (d.state name).segmenter, d'.IsOpen i ↔ d.IsOpen i
  scheduled : ∀ i ∈ d'.scheduledOpen, i ∈ d.scheduledOpen ∨ i = (d.state name).segmenter
  finalized : ∀ i ∈ d'.finalized, i ∈ d.finalized ∨ i = (d.state name).segmenter
  uploading : d'.IsOpen (d.state name).segmenter →
    (d'.state name).active = true ∧ (d'.state name).deliveryMode = .upload

namespace Settles

theorem attached_state (h : Settles d d' name) (k : String) : (d'.state k).attached = (d.state k).attached := by
  by_cases hk : k = name
  · rw [hk, h.attached]
  · exact (h.states k hk).attached

theorem segmenter_state (h : Settles d d' name) (ha : (d.state k).attached = true) :
    (d'.state k).segmenter = (d.state k).segmenter := by
  by_cases hk : k = name
  · rw [hk, h.segmenter]
  · exact (h.states k hk).segmenter ha

theorem segmented (h : Settles d d' name) (hd : d.Sound) (hs : d.Segmented) (hname : (d.state name).attached = true) :
    d'.Segmented where
  fresh k ha := by
    have hk := (h.attached_state k).symm.trans ha
    rw [h.segmenter_state hk]
    exact (hs.fresh k hk).trans_le h.next
  distinct j k hj hk hjk := by
    have hj' := (h.attached_state j).symm.trans hj
    have hk' := (h.attached_state k).symm.trans hk
    rw [h.segmenter_state hj', h.segmenter_state hk'] at hjk
    exact hs.distinct j k hj' hk' hjk
  scheduled i hi := by
    obtain hi | rfl := h.scheduled i hi
    · exact (hs.scheduled i hi).trans_le h.next
    · exact (hs.fresh name hname).trans_le h.next
  finalized i hi := by
    obtain hi | rfl := h.finalized i hi
    · exact (hs.finalized i hi).trans_le h.next
    · exact (hs.fresh name hname).trans_le h.next
  uploading k hk ho := by
    by_cases hkn : k = name
    · subst hkn
      rw [h.segmenter] at ho
      exact h.uploading ho
    · have hsame := h.states k hkn
      have hstateful := hsame.stateful.symm.trans hk
      have hattached := (hd.states k).attached_of_stateful hstateful
      have hne : (d.state k).segmenter ≠ (d.state name).segmenter :=
        fun heq => hkn (hs.distinct k name hattached hname heq)
      rw [hsame.segmenter hattached, h.isOpen _ hne] at ho
      rw [hsame.active, hsame.deliveryMode]
      exact hs.uploading k hstateful ho

/-- The other open segmenters are owned as before. -/
theorem owned_iff (h : Settles d d' name) (hd : d.Sound) (hs : d.Segmented) (hname : (d.state name).stateful = true) :
    d'.Owned ↔ d.Owned := by
  have hother (i : ℕ) (hi : i ≠ (d.state name).segmenter) (k : String) :
      (d'.state k).active = true ∧ (d'.state k).segmenter = i ↔
        (d.state k).active = true ∧ (d.state k).segmenter = i := by
    by_cases hk : k = name
    · subst hk
      rw [h.segmenter]
      exact iff_of_false (fun hc => hi hc.2.symm) fun hc => hi hc.2.symm
    · rw [(h.states k hk).active]
      refine and_congr_right fun ha => ?_
      rw [(h.states k hk).segmenter (hd.attached_of_active ha)]
  refine forall_congr' fun i => ?_
  by_cases hi : i = (d.state name).segmenter
  · subst hi
    exact iff_of_true (fun ho => ⟨name, (h.uploading ho).1, h.segmenter⟩)
      fun ho => ⟨name, (hs.uploading name hname ho).1, rfl⟩
  · rw [h.isOpen i hi]
    exact imp_congr_right fun _ => exists_congr (hother i hi)

end Settles

/-- What a stop or a switch finalizes. -/
theorem mem_finalized_iff :
    i ∈ (if d.uploads name then (d.state name).segmenter :: d.finalized else d.finalized) ↔
      i ∈ d.finalized ∨ d.uploads name = true ∧ i = (d.state name).segmenter := by
  split_ifs with h
  · simp [h, or_comm]
  · simp [h]

/-- The open segmenter of a stateful event is finalized when its delivery stops. -/
theorem uploads_of_isOpen (hd : d.Sound) (hs : d.Segmented) (hname : (d.state name).stateful = true)
    (ho : d.IsOpen (d.state name).segmenter) : d.uploads name = true := by
  simp [uploads, (hs.uploading name hname ho).2, (hd.states name).attached_of_stateful hname]

theorem settles_stop (now time : Time) (hd : d.Sound) (hs : d.Segmented) (hname : (d.state name).stateful = true) :
    Settles d (d.stop now name time) name := by
  obtain ⟨states, segmenters, http, heq, hcore⟩ := stop_eq now name time d
  have hcore' : (d.stop now name time).core = Function.update d.core name (some (d.stoppedCore name)) := by
    rw [heq]
    exact hcore
  have hst := core_state_of_update hcore'
  have hopen (i : ℕ) : (d.stop now name time).IsOpen i ↔
      d.IsOpen i ∧ ¬ (d.uploads name = true ∧ i = (d.state name).segmenter) := by
    rw [heq, IsOpen, IsOpen, mem_finalized_iff, not_or, and_assoc]
  generalize d.stop now name time = d' at heq hcore' hst hopen ⊢
  refine ⟨fun k hk => .of_update hcore' hk, (congrArg EventState.stateful hst :),
    (congrArg EventState.attached hst :), (congrArg EventState.segmenter hst :), ?_, fun i hi => ?_, fun i hi => ?_,
    fun i hi => ?_, fun ho => ?_⟩
  · rw [heq]
    exact nextSegmenter_le_touch d name
  · rw [hopen]
    exact and_iff_left fun h => hi h.2
  · rw [heq] at hi
    exact .inl hi
  · rw [heq] at hi
    exact (mem_finalized_iff.mp hi).imp_right And.right
  · rw [hopen] at ho
    exact absurd ⟨uploads_of_isOpen hd hs hname ho.1, rfl⟩ ho.2

theorem settles_updateDeliveryMode (now : Time) {mode : StreamDeliveryMode} (segProvider : Option String) (hd : d.Sound)
    (hs : d.Segmented) (hname : (d.state name).stateful = true) (hactive : (d.state name).active = true ∨ mode = .none)
    (hmode : mode ≠ (d.state name).deliveryMode) :
    Settles d (d.updateDeliveryMode now name mode segProvider) name := by
  obtain ⟨states, segmenters, http, isOpen, heq, hcore⟩ :=
    updateDeliveryMode_eq now segProvider (mem_of_stateful hname) hmode
  have hcore' : (d.updateDeliveryMode now name mode segProvider).core =
      Function.update d.core name (some { (d.state name).core with deliveryMode := mode }) := by
    rw [heq]
    exact hcore
  have hst := core_state_of_update hcore'
  generalize hd' : d.updateDeliveryMode now name mode segProvider = d' at heq hcore' hst ⊢
  have hsched (i : ℕ) : i ∈ d'.scheduledOpen ↔ i ∈ d.scheduledOpen ∨
      (mode = .upload ∧ (d.state name).attached = true ∧ isOpen = true) ∧ i = (d.state name).segmenter := by
    rw [heq]
    dsimp only
    split_ifs with h
    · simp only [Bool.and_eq_true, decide_eq_true_eq, and_assoc] at h
      simp [h, or_comm]
    · simp only [Bool.and_eq_true, decide_eq_true_eq, and_assoc] at h
      simp [h]
  have hfin (i : ℕ) : i ∈ d'.finalized ↔ i ∈ d.finalized ∨ d.uploads name = true ∧ i = (d.state name).segmenter := by
    rw [heq, mem_finalized_iff]
  refine ⟨fun k hk => .of_update hcore' hk, (congrArg EventState.stateful hst :),
    (congrArg EventState.attached hst :), (congrArg EventState.segmenter hst :), ?_, fun i hi => ?_, fun i hi => ?_,
    fun i hi => ?_, fun ho => ?_⟩
  · rw [heq]
  · simp [IsOpen, hsched, hfin, hi]
  · exact ((hsched i).mp hi).imp_right And.right
  · exact ((hfin i).mp hi).imp_right And.right
  · obtain ⟨hi, hnot⟩ := ho
    rw [hfin, not_or] at hnot
    obtain hi | ⟨⟨hupload, -⟩, -⟩ := (hsched _).mp hi
    · exact absurd ⟨uploads_of_isOpen hd hs hname ⟨hi, hnot.1⟩, rfl⟩ hnot.2
    · refine ⟨(congrArg EventState.active hst :).trans ?_, (congrArg EventState.deliveryMode hst :).trans hupload⟩
      exact hactive.resolve_right (by simp [hupload])

/-! ### Starting an event -/

/-- The event `name` gets a new segmenter, which is handed over open if `opens` says so. -/
structure Begins (d d' : Delivery) (name : String) (n : ℕ) (opens : Bool) : Prop where
  states : ∀ k ≠ name, SameState d d' k
  stateful : (d'.state name).stateful = (d.state name).stateful
  active : (d'.state name).active = (d.state name).stateful
  segmenter : (d'.state name).segmenter = n
  le : d.nextSegmenter ≤ n
  next : d'.nextSegmenter = n + 1
  isOpen : ∀ i, d'.IsOpen i ↔ d.IsOpen i ∨ i = n ∧ opens = true
  scheduled : ∀ i ∈ d'.scheduledOpen, i ∈ d.scheduledOpen ∨ i = n
  finalized : d'.finalized = d.finalized
  uploading : opens = true → (d'.state name).deliveryMode = .upload

namespace Begins
variable {n : ℕ} {opens : Bool}

/-- The other attached states have older segmenters. -/
theorem lt (h : Begins d d' name n opens) (hs : d.Segmented) (hk : k ≠ name) (ha : (d'.state k).attached = true) :
    (d.state k).attached = true ∧ (d'.state k).segmenter = (d.state k).segmenter ∧ (d.state k).segmenter < n := by
  have hattached := (h.states k hk).attached.symm.trans ha
  exact ⟨hattached, (h.states k hk).segmenter hattached, (hs.fresh k hattached).trans_le h.le⟩

theorem segmented (h : Begins d d' name n opens) (hd : d.Sound) (hs : d.Segmented) : d'.Segmented where
  fresh k ha := by
    rw [h.next]
    by_cases hk : k = name
    · rw [hk, h.segmenter]
      exact Nat.lt_succ_self n
    · obtain ⟨-, hseg, hlt⟩ := h.lt hs hk ha
      rw [hseg]
      exact hlt.trans (Nat.lt_succ_self n)
  distinct j k hj hk hjk := by
    by_cases hjn : j = name
    · by_cases hkn : k = name
      · exact hjn.trans hkn.symm
      · obtain ⟨-, hseg, hlt⟩ := h.lt hs hkn hk
        rw [hjn, h.segmenter, hseg] at hjk
        exact absurd hjk hlt.ne'
    · obtain ⟨hj', hseg, hlt⟩ := h.lt hs hjn hj
      by_cases hkn : k = name
      · rw [hkn, h.segmenter, hseg] at hjk
        exact absurd hjk hlt.ne
      · obtain ⟨hk', hseg', -⟩ := h.lt hs hkn hk
        rw [hseg, hseg'] at hjk
        exact hs.distinct j k hj' hk' hjk
  scheduled i hi := by
    rw [h.next]
    obtain hi | rfl := h.scheduled i hi
    · exact ((hs.scheduled i hi).trans_le h.le).trans (Nat.lt_succ_self n)
    · exact Nat.lt_succ_self i
  finalized i hi := by
    rw [h.next]
    rw [h.finalized] at hi
    exact ((hs.finalized i hi).trans_le h.le).trans (Nat.lt_succ_self n)
  uploading k hk ho := by
    by_cases hkn : k = name
    · subst hkn
      have hstateful := h.stateful.symm.trans hk
      rw [h.segmenter, h.isOpen] at ho
      obtain ho | ⟨-, hopens⟩ := ho
      · exact absurd ((hs.scheduled n ho.1).trans_le h.le) (lt_irrefl n)
      · exact ⟨h.active.trans hstateful, h.uploading hopens⟩
    · have hsame := h.states k hkn
      have hstateful := hsame.stateful.symm.trans hk
      have hattached := (hd.states k).attached_of_stateful hstateful
      obtain ⟨-, hseg, hlt⟩ := h.lt hs hkn (hsame.attached.trans hattached)
      rw [hseg, h.isOpen] at ho
      rw [hsame.active, hsame.deliveryMode]
      exact hs.uploading k hstateful (ho.resolve_right fun heq => hlt.ne heq.1)

/-- The start leaves no open segmenter behind: neither that of the event, nor the new one. -/
theorem owned_iff (h : Begins d d' name n opens) (hd : d.Sound) (hs : d.Segmented) :
    d'.Owned ↔ d.Owned ∧ ¬ ((d.state name).active = true ∧ d.IsOpen (d.state name).segmenter) ∧
      (opens = true → (d.state name).stateful = true) := by
  -- the open segmenters of the others are theirs before and after
  have hother (i : ℕ) (k : String) (hk : k ≠ name) :
      (d'.state k).active = true ∧ (d'.state k).segmenter = i ↔
        (d.state k).active = true ∧ (d.state k).segmenter = i := by
    rw [(h.states k hk).active]
    refine and_congr_right fun ha => ?_
    rw [(h.states k hk).segmenter (hd.attached_of_active ha)]
  constructor
  · intro ho
    refine ⟨fun i hi => ?_, ?_, fun hopens => ?_⟩
    · obtain ⟨k, hk⟩ := ho i ((h.isOpen i).mpr (.inl hi))
      by_cases hkn : k = name
      · rw [hkn, h.segmenter] at hk
        exact absurd ((hs.scheduled i hi.1).trans_le h.le) hk.2.not_gt
      · exact ⟨k, (hother i k hkn).mp hk⟩
    · rintro ⟨ha, hi⟩
      obtain ⟨k, hk⟩ := ho _ ((h.isOpen _).mpr (.inl hi))
      by_cases hkn : k = name
      · rw [hkn, h.segmenter] at hk
        exact absurd ((hs.fresh name (hd.attached_of_active ha)).trans_le h.le) hk.2.not_gt
      · obtain ⟨hka, hseg⟩ := (hother _ k hkn).mp hk
        exact hkn (hs.distinct k name (hd.attached_of_active hka) (hd.attached_of_active ha) hseg)
    · obtain ⟨k, hk⟩ := ho n ((h.isOpen n).mpr (.inr ⟨rfl, hopens⟩))
      by_cases hkn : k = name
      · rw [hkn, h.active] at hk
        exact hk.1
      · obtain ⟨ha, hseg⟩ := (hother n k hkn).mp hk
        exact absurd (hseg.symm.trans_lt ((hs.fresh k (hd.attached_of_active ha)).trans_le h.le)) (lt_irrefl n)
  · rintro ⟨ho, hold, hnew⟩ i hi
    obtain hi | ⟨rfl, hopens⟩ := (h.isOpen i).mp hi
    · obtain ⟨k, hk⟩ := ho i hi
      by_cases hkn : k = name
      · subst hkn
        exact absurd ⟨hk.1, hk.2.symm ▸ hi⟩ hold
      · exact ⟨k, (hother i k hkn).mpr hk⟩
    · exact ⟨name, h.active.trans (hnew hopens), h.segmenter⟩

end Begins

theorem begins_start (dev : Device) (now : Time) (name : String) (mode : StreamDeliveryMode) (event : EventObject)
    (pre post : Duration) (segProvider : Option String) (uploadToken : String) (hd : d.Sound) (hs : d.Segmented) :
    Begins d (d.start dev now name mode event pre post segProvider uploadToken) name (d.touch name).nextSegmenter
      (d.opens name mode event) := by
  obtain ⟨states, segmenters, http, heq, hcore⟩ := start_eq dev now name mode event pre post segProvider uploadToken d
  have hcore' : (d.start dev now name mode event pre post segProvider uploadToken).core =
      Function.update d.core name (some (d.startedCore name mode)) := by
    rw [heq]
    exact hcore
  have hst := core_state_of_update hcore'
  have hle := nextSegmenter_le_touch d name
  have hsched (i : ℕ) : i ∈ (d.start dev now name mode event pre post segProvider uploadToken).scheduledOpen ↔
      i ∈ d.scheduledOpen ∨ i = (d.touch name).nextSegmenter ∧ d.opens name mode event = true := by
    rw [heq]
    dsimp only
    split_ifs with h
    · simp [h, or_comm]
    · simp [h]
  have hfin : (d.start dev now name mode event pre post segProvider uploadToken).finalized = d.finalized := by rw [heq]
  refine ⟨fun k hk => .of_update hcore' hk, (congrArg EventState.stateful hst :), ?_,
    (congrArg EventState.segmenter hst :), hle, ?_, fun i => ?_, fun i hi => ?_, hfin, fun ho => ?_⟩
  · refine (congrArg EventState.active hst :).trans ?_
    cases hactive : (d.state name).active
    · simp [startedCore, EventState.core, hactive]
    · simp [startedCore, EventState.core, hactive, (hd.states name).stateful_of_active hactive]
  · rw [heq]
  · rw [IsOpen, IsOpen, hsched, hfin, or_and_right]
    refine or_congr_right (and_iff_left_of_imp ?_)
    rintro ⟨rfl, -⟩ hi
    exact absurd ((hs.finalized _ hi).trans_le hle) (lt_irrefl _)
  · exact ((hsched i).mp hi).imp_right And.left
  · simp only [opens, Bool.and_eq_true, decide_eq_true_eq] at ho
    exact (congrArg EventState.deliveryMode hst :).trans ho.1.1

/-! ### Building the states -/

/-- Attached states have segmenters of their own, none older than `n`. -/
structure Numbered (n : ℕ) (d : Delivery) : Prop where
  le : n ≤ d.nextSegmenter
  fresh : ∀ k, (d.state k).attached = true → n ≤ (d.state k).segmenter ∧ (d.state k).segmenter < d.nextSegmenter
  distinct : ∀ j k, (d.state j).attached = true → (d.state k).attached = true →
    (d.state j).segmenter = (d.state k).segmenter → j = k

theorem Numbered.addState {n : ℕ} (h : Numbered n d) (name : String) (st : EventState) :
    Numbered n (d.addState name st) := by
  have hcore := core_addState d name st
  have hseg : ((d.addState name st).state name).segmenter = d.nextSegmenter :=
    (congrArg EventState.segmenter (core_state_of_update hcore) :)
  have hnext : (d.addState name st).nextSegmenter = d.nextSegmenter + 1 := rfl
  have hother (k : String) (hk : k ≠ name) (ha : ((d.addState name st).state k).attached = true) :
      (d.state k).attached = true ∧ ((d.addState name st).state k).segmenter = (d.state k).segmenter := by
    have hsame := SameState.of_update hcore hk
    have hattached := hsame.attached.symm.trans ha
    exact ⟨hattached, hsame.segmenter hattached⟩
  refine ⟨h.le.trans (Nat.le_succ _), fun k ha => ?_, fun j k hj hk hjk => ?_⟩
  · rw [hnext]
    by_cases hk : k = name
    · rw [hk, hseg]
      exact ⟨h.le, Nat.lt_succ_self _⟩
    · obtain ⟨hattached, heq⟩ := hother k hk ha
      rw [heq]
      exact ⟨(h.fresh k hattached).1, (h.fresh k hattached).2.trans (Nat.lt_succ_self _)⟩
  · by_cases hjn : j = name
    · by_cases hkn : k = name
      · exact hjn.trans hkn.symm
      · obtain ⟨hattached, heq⟩ := hother k hkn hk
        rw [hjn, hseg, heq] at hjk
        exact absurd hjk (h.fresh k hattached).2.ne'
    · obtain ⟨hattached, heq⟩ := hother j hjn hj
      by_cases hkn : k = name
      · rw [hkn, hseg, heq] at hjk
        exact absurd hjk (h.fresh j hattached).2.ne
      · obtain ⟨hattached', heq'⟩ := hother k hkn hk
        rw [heq, heq'] at hjk
        exact h.distinct j k hattached hattached' hjk

theorem Numbered.addStates {n : ℕ} (h : Numbered n d) (states : List (String × EventState)) :
    Numbered n (states.foldl (fun d p => d.addState p.1 p.2) d) := by
  induction states generalizing d with
  | nil => exact h
  | cons p states ih => exact ih (h.addState p.1 p.2)

theorem state_of_keys_nil (hkeys : d.eventsStates.keys = []) (k : String) :
    d.state k = { segmenter := d.nextSegmenter } :=
  state_of_none (AList.lookup_eq_none.mpr (core_eq_none.mp (core_of_keys_nil hkeys k)))

/-- No state is active when it was just built. -/
theorem active_initEventsStates (hkeys : d.eventsStates.keys = []) (events : List EventConfig) (k : String) :
    ((d.initEventsStates events).state k).active = false := by
  obtain ⟨-, h⟩ | ⟨p, hp, -, n, h⟩ := core_addStates (builtStates events) d k
  all_goals rw [← core_initEventsStates hkeys] at h
  · rw [(SameState.of_core h).active, state_of_keys_nil hkeys]
  · exact (congrArg EventState.active (core_state h) :).trans (of_mem_builtStates hp).2

theorem segmented_initEventsStates (hs : d.Segmented) (hkeys : d.eventsStates.keys = []) (events : List EventConfig) :
    (d.initEventsStates events).Segmented ∧ ((d.initEventsStates events).Owned ↔ d.Owned) := by
  have hnumbered : Numbered d.nextSegmenter (d.initEventsStates events) := by
    have hempty : Numbered d.nextSegmenter d := by
      refine ⟨le_rfl, fun k ha => ?_, fun j k ha => ?_⟩
      all_goals
        rw [state_of_keys_nil hkeys] at ha
        cases ha
    have h := hempty.addStates (builtStates events)
    rw [initEventsStates_of_nil hkeys]
    exact ⟨h.le, h.fresh, h.distinct⟩
  obtain ⟨hsched, hfin⟩ : (d.initEventsStates events).scheduledOpen = d.scheduledOpen ∧
      (d.initEventsStates events).finalized = d.finalized := by
    rw [initEventsStates_of_nil hkeys]
    obtain ⟨_, _, _, h⟩ := addStates_eq (builtStates events) d
    rw [h]
    exact ⟨rfl, rfl⟩
  have hopen (i : ℕ) : (d.initEventsStates events).IsOpen i ↔ d.IsOpen i := isOpen_congr hsched hfin
  constructor
  · refine ⟨fun k ha => (hnumbered.fresh k ha).2, hnumbered.distinct, fun i hi => ?_, fun i hi => ?_, fun k hk ho => ?_⟩
    · rw [hsched] at hi
      exact (hs.scheduled i hi).trans_le hnumbered.le
    · rw [hfin] at hi
      exact (hs.finalized i hi).trans_le hnumbered.le
    · have hattached := ((sound_initEventsStates hkeys events).states k).attached_of_stateful hk
      rw [hopen] at ho
      exact absurd ((hs.scheduled _ ho.1).trans_le (hnumbered.fresh k hattached).1) (lt_irrefl _)
  · refine forall_congr' fun i => imp_congr (hopen i) (exists_congr fun k => ?_)
    rw [active_initEventsStates hkeys, state_of_keys_nil hkeys]
    simp

/-! ### Every operation -/

theorem segmented_step (hd : d.Sound) (hs : d.Segmented) (h : op.step d = some d') :
    d'.Segmented ∧ (d'.Owned ↔ d.Owned ∧ op.Starts StartsOwned d) := by
  have hfree : d'.Segmented ∧ (d'.Owned ↔ d.Owned) → d'.Segmented ∧ (d'.Owned ↔ d.Owned ∧ True) :=
    fun h => ⟨h.1, h.2.trans (and_iff_left trivial).symm⟩
  have hsettles {name : String} (hsettles : Settles d d' name) (hname : (d.state name).stateful = true) :
      d'.Segmented ∧ (d'.Owned ↔ d.Owned) :=
    ⟨hsettles.segmented hd hs ((hd.states name).attached_of_stateful hname), hsettles.owned_iff hd hs hname⟩
  have hidle (hidle : Idle d d') : d'.Segmented ∧ (d'.Owned ↔ d.Owned) := ⟨hs.idle hd hidle, owned_idle hd hidle⟩
  have hsame (h : d' = d) : d'.Segmented ∧ (d'.Owned ↔ d.Owned) := by
    rw [h]
    exact ⟨hs, Iff.rfl⟩
  cases op with
  | touch name =>
    obtain rfl := Option.some.inj h
    exact hfree (hidle (idle_touch d name))
  | start dev now name mode event pre post segProvider uploadToken =>
    obtain rfl := Option.some.inj h
    have hbegins := begins_start dev now name mode event pre post segProvider uploadToken hd hs
    exact ⟨hbegins.segmented hd hs, hbegins.owned_iff hd hs⟩
  | stop now name time =>
    simp only [Op.step, Option.ite_none_right_eq_some, Option.some.injEq] at h
    obtain ⟨hname, rfl⟩ := h
    exact hfree (hsettles (settles_stop now time hd hs hname) hname)
  | updateDeliveryMode now name mode segProvider =>
    simp only [Op.step, Option.ite_none_right_eq_some, Option.some.injEq, Bool.and_eq_true, Bool.or_eq_true,
      decide_eq_true_eq] at h
    obtain ⟨⟨hname, hactive⟩, rfl⟩ := h
    by_cases hmode : mode = (d.state name).deliveryMode
    · exact hfree (hsame (if_pos hmode))
    · exact hfree (hsettles (settles_updateDeliveryMode now segProvider hd hs hname hactive hmode) hname)
  | initEventsStates events =>
    obtain rfl := Option.some.inj h
    by_cases hkeys : d.eventsStates.keys = []
    · exact hfree (segmented_initEventsStates hs hkeys events)
    · exact hfree (hsame (if_neg hkeys))
  | fireHttpTimer http cb =>
    obtain rfl := Option.some.inj h
    exact hfree (hidle (idle_runHttpCb http cb d))

end Delivery

namespace Manager
variable {dev : Device} {c c' : Manager} {a : Action}

theorem owned_step (h : c.Sound) (hseg : c.media.delivery.Segmented) (hs : c.step dev a = some c') :
    c'.media.delivery.Segmented ∧
      (c'.media.delivery.Owned ↔ c.media.delivery.Owned ∧ c.StartsWell Delivery.StartsOwned dev a) := by
  have hleads := leads_step (P := Delivery.StartsOwned) h hs
  have hbase (u : Delivery) (b : Delivery.Op) (v : Delivery) (hu : u.Sound ∧ u.Segmented) (hv : b.step u = some v) :
      v.Sound ∧ v.Segmented := ⟨hu.1.step hv, (Delivery.segmented_step hu.1 hu.2 hv).1⟩
  exact ⟨(hleads.preserves hbase ⟨h.delivery, hseg⟩).2,
    hleads.exact hbase (fun u b v hu hv => (Delivery.segmented_step hu.1 hu.2 hv).2) ⟨h.delivery, hseg⟩⟩

/-- Every segmenter that was handed over open is finalized or still that of an active event, exactly in those
runs where no start leaves one behind. -/
theorem open_segmenters_owned_iff {as : List Action} {v : Manager} (he : exec (step dev) (start dev) as = some v) :
    (∀ i ∈ v.media.delivery.scheduledOpen, i ∈ v.media.delivery.finalized ∨
        ∃ name st, v.media.delivery.eventsStates.lookup name = some st ∧ st.active = true ∧ st.segmenter = i) ↔
      Meets (step dev) (fun c a => c.StartsWell Delivery.StartsOwned dev a) (start dev) as := by
  have hrun : Leads (step dev) (fun c a => c.StartsWell Delivery.StartsOwned dev a) (start dev) _ v :=
    ⟨as, he, Iff.rfl⟩
  have hstart : (start dev).media.delivery.Owned := fun _ h => absurd h.1 List.not_mem_nil
  rw [← Delivery.owned_iff_lookup]
  exact (hrun.exact (B := fun c => c.Sound ∧ c.media.delivery.Segmented) (G := fun c => c.media.delivery.Owned)
    (fun _ _ _ hu hs => ⟨hu.1.step hs, (owned_step hu.1 hu.2 hs).1⟩)
    (fun _ _ _ hu hs => (owned_step hu.1 hu.2 hs).2) ⟨Sound.start dev, Delivery.Segmented.empty⟩).trans
      (and_iff_right hstart)

/-- A recording to the storage opens a segmenter, and its stop finalizes it. -/
theorem open_segmenters_owned_direct : ∃ v,
    exec (step twoStreams) (start twoStreams)
        [.getCamEvents .working (some {}), .streamStart .working "front" .recordDirect,
          .streamStop .working "front" .record] = some v ∧
      v.media.delivery.scheduledOpen ≠ [] ∧
      Meets (step twoStreams) (fun c a => c.StartsWell Delivery.StartsOwned twoStreams a) (start twoStreams)
        [.getCamEvents .working (some {}), .streamStart .working "front" .recordDirect,
          .streamStop .working "front" .record] := by
  obtain ⟨v, hv⟩ : ∃ v, exec (step twoStreams) (start twoStreams)
      [.getCamEvents .working (some {}), .streamStart .working "front" .recordDirect,
        .streamStop .working "front" .record] = some v := ⟨_, rfl⟩
  have hend : ∀ w ∈ exec (step twoStreams) (start twoStreams)
      [.getCamEvents .working (some {}), .streamStart .working "front" .recordDirect,
        .streamStop .working "front" .record],
      w.media.delivery.scheduledOpen ≠ [] ∧
        ∀ i ∈ w.media.delivery.scheduledOpen, i ∈ w.media.delivery.finalized := by decide +kernel
  obtain ⟨hopened, hfinalized⟩ := hend v hv
  exact ⟨v, hv, hopened, (open_segmenters_owned_iff hv).mp fun i hi => .inl (hfinalized i hi)⟩

/-- A recording to the storage is started twice: its stop finalizes the second segmenter, and the first one
stays open without an event. -/
theorem second_start_orphans : ∃ v,
    exec (step twoStreams) (start twoStreams)
        [.getCamEvents .working (some {}), .streamStart .working "front" .recordDirect,
          .streamStart .working "front" .recordDirect, .streamStop .working "front" .record] = some v ∧
      ¬ ∀ i ∈ v.media.delivery.scheduledOpen, i ∈ v.media.delivery.finalized ∨
        ∃ name st, v.media.delivery.eventsStates.lookup name = some st ∧ st.active = true ∧ st.segmenter = i := by
  obtain ⟨v, hv⟩ : ∃ v, exec (step twoStreams) (start twoStreams)
      [.getCamEvents .working (some {}), .streamStart .working "front" .recordDirect,
        .streamStart .working "front" .recordDirect, .streamStop .working "front" .record] = some v := ⟨_, rfl⟩
  have hend : ∀ w ∈ exec (step twoStreams) (start twoStreams)
      [.getCamEvents .working (some {}), .streamStart .working "front" .recordDirect,
        .streamStart .working "front" .recordDirect, .streamStop .working "front" .record],
      (∃ i ∈ w.media.delivery.scheduledOpen, i ∉ w.media.delivery.finalized) ∧
        ∀ e ∈ w.media.delivery.eventsStates.entries, e.2.active = false := by decide +kernel
  obtain ⟨⟨i, hi, hopen⟩, hactive⟩ := hend v hv
  refine ⟨v, hv, fun h => ?_⟩
  obtain hfinalized | ⟨name, st, hst, ha, -⟩ := h i hi
  · exact hopen hfinalized
  · rw [hactive _ (AList.mem_lookup_iff.mp hst)] at ha
    cases ha

end Manager
end CloudAgent.Control
