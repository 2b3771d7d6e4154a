import CloudAgent.Agent.Upload.Run

/-! The segmenters that the uploader works on: those in its list and those that wait for the timer
that enqueues them. What holds of each of them when it is scheduled, and survives what callbacks do
to a segmenter, holds of them throughout, and of the uploads planned for them. -/
namespace CloudAgent.Agent
open Utils Transition

/-- What every callback leaves true of a segmenter. -/
structure Segmenter.Evolves (x y : Segmenter) : Prop where
  ticket : y.ticket = x.ticket ∨ y.ticket = ""
  canceled : x.canceled = true → y.canceled = true
  processed : x.processed = true → y.processed = true

theorem Segmenter.evolves_withReport (x : Segmenter) {c : Bool} {t : String}
    (hc : x.canceled = true → c = true) (ht : t = "" ∨ t = x.ticket) : x.Evolves (x.withReport c t) :=
  ⟨ht.symm, hc, id⟩

namespace SegmentedUploader

variable {std : StdSort} {u v : SegmentedUploader} {s : SegId} {n : ℕ}
  {P : SegId → Segmenter → Prop} {Q : UploadRequest → Prop}

/-- The segmenter is in the list, or it waits for the timer that enqueues it. -/
def Active (u : SegmentedUploader) (s : SegId) : Prop :=
  s ∈ u.segmenters ∨ .segmenterEnqueue s ∈ u.http.pendingCbs

/-- The active segmenters satisfy `P`, and the uploads after the first `n` satisfy `Q`. -/
structure OnActive (P : SegId → Segmenter → Prop) (Q : UploadRequest → Prop) (n : ℕ)
    (u : SegmentedUploader) : Prop where
  seg : ∀ s, u.Active s → P s (u.heap s)
  planned : ∀ r ∈ u.planned.drop n, Q r

/-- `P` survives every callback, and the current segmenter plans uploads that satisfy `Q`. -/
structure ActiveRule (P : SegId → Segmenter → Prop) (Q : UploadRequest → Prop) : Prop where
  evolve : ∀ s x y, P s x → x.Evolves y → P s y
  plan : ∀ s x clip, P s x → x.processed = false → x.canceled = false → Q (uploadRequest s x clip)

/-- What is required of the segmenters that are scheduled. -/
def ScheduleMeets (P : SegId → Segmenter → Prop) (u : SegmentedUploader) : Action → Prop
  | .scheduleUpload s => P s (u.heap s)
  | _ => True

theorem OnActive.setSeg {x : Segmenter} (h : OnActive P Q n u) (rule : ActiveRule P Q)
    (hx : (u.heap s).Evolves x) : OnActive P Q n (u.setSeg s x) := by
  refine ⟨fun j hj => ?_, h.planned⟩
  simp only [setSeg_heap]
  split
  · rename_i hjs
    subst hjs
    exact rule.evolve j _ x (h.seg j hj) hx
  · exact h.seg j hj

theorem OnActive.send (h : OnActive P Q n u) (rule : ActiveRule P Q) (progress : ℕ) :
    OnActive P Q n (u.sendTimelineSynchronizationStatus progress s) := by
  refine ⟨fun j hj => ?_, by simpa using h.planned⟩
  exact heap_send progress s j
    (fun x _ _ hx hc ht => rule.evolve j x _ hx (x.evolves_withReport hc ht))
    (h.seg j (by simpa [Active] using hj))

theorem OnActive.setSeg_send {x : Segmenter} (h : OnActive P Q n u) (rule : ActiveRule P Q)
    (progress : ℕ) (hx : (u.heap s).Evolves x) :
    OnActive P Q n ((u.setSeg s x).sendTimelineSynchronizationStatus progress s) :=
  (h.setSeg rule hx).send rule progress

theorem OnActive.plan {r : UploadRequest} (h : OnActive P Q n u) (hr : Q r) :
    OnActive P Q n { u with planned := u.planned ++ [r] } := by
  refine ⟨h.seg, fun q hq => ?_⟩
  simp only [List.drop_append] at hq
  rcases List.mem_append.mp hq with hq | hq
  · exact h.planned q hq
  · obtain rfl := List.mem_singleton.mp (List.mem_of_mem_drop hq)
    exact hr

theorem evolves_takenWindow (env : TickEnv) (hcur : u.Current s) :
    (u.heap s).Evolves (takenWindow env u s) :=
  ⟨Or.inl rfl, id, fun hp => by simp [hcur.processed] at hp⟩

theorem onActive_tick (std : StdSort) (env : TickEnv) (rule : ActiveRule P Q) (n : ℕ) :
    TickInvariant std env (fun _ _ _ => true) (OnActive P Q n) where
  list u l h hl := ⟨fun s hs => h.seg s (hs.imp_left (hl s)), h.planned⟩
  adjust u s v h hcur _ hv := by
    cases hv with
    | same => exact h
    | moved => exact h.setSeg rule ⟨Or.inl rfl, id, id⟩
    | outside => exact h.setSeg_send rule 100 ⟨Or.inl rfl, id, fun _ => rfl⟩
  check u s upload v h hcur _ hv := by
    cases hv with
    | moved => exact h.setSeg rule ⟨Or.inl rfl, id, id⟩
    | onCloudUnplanned => exact h.setSeg_send rule 100 ⟨Or.inl rfl, id, fun _ => rfl⟩
    | onCloudPlanned => exact h.setSeg rule ⟨Or.inl rfl, id, fun _ => rfl⟩
  step u s v h hcur _ hv := by
    have htaken := evolves_takenWindow env hcur
    cases hv with
    | outsideUnplanned => exact h.setSeg_send rule 0 ⟨Or.inl rfl, id, fun _ => rfl⟩
    | outsidePlanned => exact h.setSeg rule ⟨Or.inl rfl, id, fun _ => rfl⟩
    | empty => exact h.setSeg rule ⟨Or.inl rfl, id, id⟩
    | exported =>
      have hset : OnActive P Q n (u.setSeg s (takenWindow env u s).countPlanned) :=
        h.setSeg rule ⟨htaken.ticket, htaken.canceled, htaken.processed⟩
      have hplan := rule.plan s (u.heap s) (requestClip env u s) (h.seg s (Or.inl hcur.listed))
        hcur.processed hcur.canceled
      exact hset.plan hplan
    | finalUnplanned => exact h.setSeg_send rule 0 ⟨Or.inl rfl, id, fun _ => rfl⟩
    | skipped => exact h.setSeg rule htaken

/-! ### Timers -/

theorem OnActive.service (h : OnActive P Q n u) (http : Net.LwsCommon UploaderCb) (loop : ℕ)
    (starts : SegId → Option ℕ)
    (hhttp : ∀ j, .segmenterEnqueue j ∈ http.pendingCbs → u.Active j ∨ P j (u.heap j)) :
    OnActive P Q n { u with http := http, loop := loop, scheduledSyncStarts := starts } := by
  refine ⟨fun j hj => ?_, h.planned⟩
  rcases hj with hj | hj
  · exact h.seg j (Or.inl hj)
  · rcases hhttp j hj with hj | hj
    · exact h.seg j hj
    · exact hj

/-- Scheduling a callback that enqueues nothing. -/
theorem OnActive.schedule (h : OnActive P Q n u) (cb : UploaderCb) (ms loop : ℕ)
    (hcb : ∀ j, .segmenterEnqueue j ≠ cb) :
    OnActive P Q n { u with http := (u.http.scheduleTimedCb cb ms).2, loop := loop } :=
  h.service _ loop u.scheduledSyncStarts fun j hj =>
    ((Net.LwsCommon.mem_pendingCbs_scheduleTimedCb _ _ _ _).mp hj).elim (fun hj => Or.inl (Or.inr hj))
      fun hj => absurd hj (hcb j)

/-- Canceling one segmenter only lets segmenters evolve, activates none and plans nothing. -/
theorem cancelSegmenter_keeps (rule : ActiveRule P Q) (u : SegmentedUploader) (s : SegId) :
    (∀ j, P j (u.heap j) → P j ((u.cancelSegmenter s).heap j)) ∧
      (∀ j, (u.cancelSegmenter s).Active j → u.Active j) ∧ (u.cancelSegmenter s).planned = u.planned := by
  have hset : ∀ j, P j (u.heap j) → P j ((u.setSeg s (((u.heap s).withState true
      true).withReport true (u.heap s).ticket)).heap j) := by
    intro j hj
    simp only [setSeg_heap]
    split
    · rename_i hjs
      subst hjs
      exact rule.evolve j _ _ hj ⟨Or.inl rfl, fun _ => rfl, fun _ => rfl⟩
    · exact hj
  have hsend : ∀ (w : SegmentedUploader) (j : SegId), P j (w.heap j) →
      P j ((w.sendTimelineSynchronizationStatus 100 s).heap j) := fun w j hj =>
    heap_send 100 s j (fun x _ _ hx hc ht => rule.evolve j x _ hx (x.evolves_withReport hc ht)) hj
  unfold SegmentedUploader.cancelSegmenter
  simp only [setSeg_scheduledSyncStarts, setSeg_http]
  split
  · refine ⟨fun j hj => hsend _ j (hset j hj), fun j hj => ?_, by simp⟩
    simp only [Active, send_segmenters, send_http, setSeg_segmenters] at hj
    exact hj.imp_right Net.LwsCommon.mem_pendingCbs_of_cancelTimedCb
  · refine ⟨fun j hj => hsend _ j (hset j hj), fun j hj => ?_, by simp⟩
    simpa [Active] using hj

theorem cancelFrom_keeps (rule : ActiveRule P Q) (ticket : String) (l : List SegId)
    (u : SegmentedUploader) :
    (∀ j, P j (u.heap j) → P j ((cancelFrom ticket l u).heap j)) ∧
      (∀ j, (cancelFrom ticket l u).Active j → u.Active j) ∧
        (cancelFrom ticket l u).planned = u.planned := by
  induction l generalizing u with
  | nil => exact ⟨fun _ h => h, fun _ h => h, rfl⟩
  | cons s l ih =>
    simp only [SegmentedUploader.cancelFrom]
    split
    · obtain ⟨h1, h2, h3⟩ := cancelSegmenter_keeps rule u s
      obtain ⟨g1, g2, g3⟩ := ih (u.cancelSegmenter s)
      exact ⟨fun j hj => g1 j (h1 j hj), fun j hj => h2 j (g2 j hj), g3.trans h3⟩
    · exact ih u

theorem OnActive.cancelFrom (h : OnActive P Q n u) (rule : ActiveRule P Q) (ticket : String)
    (l : List SegId) : OnActive P Q n (cancelFrom ticket l u) := by
  obtain ⟨h1, h2, h3⟩ := cancelFrom_keeps rule ticket l u
  exact ⟨fun j hj => h1 j (h.seg j (h2 j hj)), h3 ▸ h.planned⟩

theorem OnActive.step {a : Action} (h : OnActive P Q n u) (rule : ActiveRule P Q) (hs : u.Sound)
    (hok : ScheduleMeets P u a) (hv : step std u a = some v) : OnActive P Q n v := by
  cases a with
  | scheduleUpload s =>
    obtain rfl := Option.some.inj hv
    refine h.service _ u.loop _ fun j hj => ?_
    rcases (Net.LwsCommon.mem_pendingCbs_scheduleTimedCb _ _ _ _).mp hj with hj | hj
    · exact Or.inl (Or.inr hj)
    · obtain rfl := UploaderCb.segmenterEnqueue.inj hj
      exact Or.inr hok
  | finalizeUpload s stop =>
    obtain rfl := Option.some.inj hv
    exact h.schedule _ _ u.loop (by simp)
  | cancelUpload other =>
    obtain rfl := Option.some.inj hv
    exact h.schedule _ _ u.loop (by simp)
  | fire i env =>
    obtain ⟨⟨cb, http⟩, hf, rfl⟩ := Option.map_eq_some_iff.mp hv
    obtain ⟨hcb, hrest⟩ := Net.LwsCommon.mem_pendingCbs_of_sulCb hf
    have hw := h.service http u.loop u.scheduledSyncStarts fun j hj => Or.inl (Or.inr (hrest _ hj))
    have hsw : ({ u with http := http } : SegmentedUploader).Sound := hs
    cases cb with
    | asyncLoop =>
      obtain ⟨-, htick⟩ := (onActive_tick std env rule n).tick hsw hw (tickMeets_true _)
      exact htick.schedule _ _ _ (by simp)
    | segmenterEnqueue s =>
      refine ⟨fun j hj => ?_, h.planned⟩
      rcases hj with hj | hj
      · simp only [runCb, segmenterEnqueue, StdSort.mem_sort, List.mem_append,
          List.mem_singleton] at hj
        rcases hj with hj | rfl
        · exact h.seg j (Or.inl hj)
        · exact h.seg j (Or.inr hcb)
      · exact h.seg j (Or.inr (hrest _ hj))
    | segmenterFinalize s stop => exact hw.setSeg rule ⟨Or.inl rfl, id, id⟩
    | segmenterCancelByTicket ticket =>
      simp only [runCb, segmenterCancelByTicket]
      split
      · exact hw
      · have := hw.cancelFrom rule ticket ({ u with http } : SegmentedUploader).segmenters
        exact ⟨this.seg, this.planned⟩
  | reportFinished k ok =>
    obtain ⟨r, hr, rfl⟩ := Option.map_eq_some_iff.mp hv
    have hx : (u.heap r.segment).Evolves (answerSeg (u.heap r.segment) ok) := ⟨Or.inl rfl, id, id⟩
    rw [onFinished_eq]
    have := h.setSeg_send rule (syncProgress ((u.heap r.segment).countAnswer ok)) hx
    exact ⟨this.seg, this.planned⟩

theorem OnActive.run {as : List Action} (h : OnActive P Q n u) (rule : ActiveRule P Q) (hs : u.Sound)
    (hm : Meets (SegmentedUploader.step std) (ScheduleMeets P) u as)
    (he : exec (SegmentedUploader.step std) u as = some v) : OnActive P Q n v :=
  (Transition.invariant (P := fun x => x.Sound ∧ OnActive P Q n x)
    (fun _ _ _ hx hok hy => ⟨hx.1.step hy, hx.2.step rule hx.1 hok hy⟩) ⟨hs, h⟩ hm he).2

end SegmentedUploader
end CloudAgent.Agent
