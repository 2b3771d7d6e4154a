import CloudAgent.Agent.Upload.Run

/-! The status messages of a memory-card synchronization. A segmenter has been reported for good
once its ticket is gone or it is canceled, and only a late answer to an upload of a canceled
segmenter reports it again. -/
namespace CloudAgent.Agent.SegmentedUploader
open Utils Transition

variable {std : StdSort} {u v : SegmentedUploader} {s : SegId}

/-- The statuses sent for one segmenter, in order. -/
def statusLog (u : SegmentedUploader) (s : SegId) : List MemorycardSyncStatus :=
  (u.sent.filter (·.1 = s)).map (·.2.status)

/-- No status follows a terminal one. -/
def EndsOnce (l : List MemorycardSyncStatus) : Prop := l.Pairwise fun m _ => m.terminal = false

instance (l : List MemorycardSyncStatus) : Decidable (EndsOnce l) :=
  inferInstanceAs (Decidable (l.Pairwise _))

@[simp] theorem statusLog_setSeg (u : SegmentedUploader) (s j : SegId) (x : Segmenter) :
    statusLog (u.setSeg s x) j = statusLog u j := rfl

/-- What the fields of a segmenter say about the statuses sent for it. -/
structure Reported (x : Segmenter) (log : List MemorycardSyncStatus) : Prop where
  endsOnce : EndsOnce log
  closed : ∀ m ∈ log, m.terminal = true → x.ticket = "" ∨ x.canceled = true
  canceled : x.canceled = true → x.ticket ≠ "" → ∃ m ∈ log, m.terminal = true

/-- Every segmenter of the heap agrees with its log. -/
def AllReported (u : SegmentedUploader) : Prop := ∀ s, Reported (u.heap s) (statusLog u s)

theorem Reported.congr {x y : Segmenter} {log : List MemorycardSyncStatus} (h : Reported x log)
    (hc : y.canceled = x.canceled) (ht : y.ticket = x.ticket) : Reported y log :=
  ⟨h.endsOnce, by rw [hc, ht]; exact h.closed, by rw [hc, ht]; exact h.canceled⟩

/-- An answer that comes while its segmenter is canceled finds the ticket gone. -/
def statusConditions : Conditions where
  report u k _ := (u.planned[k]?).all fun r =>
    !(u.heap r.segment).canceled || (u.heap r.segment).ticket = ""

theorem AllReported.setSeg {x : Segmenter} (h : AllReported u) (hc : x.canceled = (u.heap s).canceled)
    (ht : x.ticket = (u.heap s).ticket) : AllReported (u.setSeg s x) := by
  intro j
  simp only [setSeg_heap]
  split
  · rename_i hj
    subst hj
    exact (h j).congr hc ht
  · exact h j

theorem syncStatus_terminal (x : Segmenter) :
    (syncStatus x).terminal = true ↔ x.canceled = true ∨ (syncStatus x).closing = true := by
  unfold syncStatus
  cases x.canceled
  · cases x.processed && x.answered
    · simp [MemorycardSyncStatus.terminal, MemorycardSyncStatus.closing]
    · by_cases h : x.uploadsDone = 0 <;>
        simp [h, MemorycardSyncStatus.terminal, MemorycardSyncStatus.closing]
  · simp [MemorycardSyncStatus.terminal]

theorem statusLog_send (progress : ℕ) (j : SegId) (h : (u.heap s).ticket ≠ "") :
    statusLog (u.sendTimelineSynchronizationStatus progress s) j =
      statusLog u j ++ if j = s then [syncStatus (u.markCanceled (u.heap s))] else [] := by
  rw [send_of_ticket_ne progress h]
  by_cases hj : j = s
  · simp [statusLog, statusMessage, List.filter_append, hj]
  · simp [statusLog, List.filter_append, hj, Ne.symm hj]

/-- Sending a status for a segmenter whose log is still open keeps every log in order. -/
theorem AllReported.send (progress : ℕ) (h : ∀ j ≠ s, Reported (u.heap j) (statusLog u j))
    (hgone : (u.heap s).ticket = "" → Reported (u.heap s) (statusLog u s))
    (hopen : (u.heap s).ticket ≠ "" → ∀ m ∈ statusLog u s, m.terminal = false) :
    AllReported (u.sendTimelineSynchronizationStatus progress s) := by
  intro j
  by_cases ht : (u.heap s).ticket = ""
  · rw [send_of_ticket_eq progress ht]
    by_cases hj : j = s
    · exact hj ▸ hgone ht
    · exact h j hj
  · rw [statusLog_send progress j ht]
    by_cases hj : j = s
    · subst hj
      have hlog := hopen ht
      set x := u.markCanceled (u.heap j) with hx
      have hheap : (u.sendTimelineSynchronizationStatus progress j).heap j =
          x.withReport x.canceled (if (syncStatus x).closing then "" else (u.heap j).ticket) := by
        rw [send_of_ticket_ne progress ht]
        simp [hx]
      rw [hheap, if_pos rfl]
      refine ⟨?_, ?_, ?_⟩
      · refine List.pairwise_append.mpr ⟨?_, by simp, fun m hm _ _ => hlog m hm⟩
        exact List.pairwise_of_forall_mem_list fun m hm _ _ => hlog m hm
      · intro m hm hterm
        rcases List.mem_append.mp hm with hm | hm
        · simp [hlog m hm] at hterm
        · obtain rfl := List.mem_singleton.mp hm
          rcases (syncStatus_terminal x).mp hterm with hc | hc
          · exact Or.inr hc
          · exact Or.inl (by simp [hc])
      · intro hc _
        exact ⟨_, List.mem_append_right _ (List.mem_singleton_self _),
          (syncStatus_terminal x).mpr (Or.inl hc)⟩
    · rw [if_neg hj, List.append_nil]
      have hheap : (u.sendTimelineSynchronizationStatus progress s).heap j = u.heap j := by
        rw [send_of_ticket_ne progress ht]
        exact setSeg_heap_of_ne u _ hj
      rw [hheap]
      exact h j hj

/-- A segmenter with a ticket that is not canceled has not been reported for good. -/
theorem Reported.open {x : Segmenter} {log : List MemorycardSyncStatus} (h : Reported x log)
    (hc : x.canceled = false) (ht : x.ticket ≠ "") : ∀ m ∈ log, m.terminal = false := by
  intro m hm
  by_contra hn
  rcases h.closed m hm (by simpa using hn) with h' | h'
  · exact ht h'
  · simp [hc] at h'

/-- Writing a segmenter back and reporting it, while it is not canceled. -/
theorem AllReported.setSeg_send {x : Segmenter} (progress : ℕ) (h : AllReported u)
    (ht : x.ticket = (u.heap s).ticket) (hc : (u.heap s).ticket ≠ "" → (u.heap s).canceled = false)
    (hx : (u.heap s).ticket = "" → x.canceled = (u.heap s).canceled) :
    AllReported ((u.setSeg s x).sendTimelineSynchronizationStatus progress s) := by
  refine AllReported.send progress (fun j hj => ?_) (fun hgone => ?_) (fun hne => ?_)
  · rw [setSeg_heap_of_ne u x hj]
    exact h j
  · rw [setSeg_heap_self] at hgone ⊢
    exact (h s).congr (hx (ht ▸ hgone)) ht
  · rw [setSeg_heap_self, ht] at hne
    exact (h s).open (hc hne) hne

theorem allReported_tick (std : StdSort) (env : TickEnv) :
    TickInvariant std env (statusConditions.window env) AllReported where
  list _ _ h _ := h
  adjust u s v h hcur _ hv := by
    cases hv with
    | same => exact h
    | moved => exact h.setSeg rfl rfl
    | outside => exact h.setSeg_send 100 rfl (fun _ => hcur.canceled) fun _ => rfl
  check u s upload v h hcur _ hv := by
    cases hv with
    | moved => exact h.setSeg rfl rfl
    | onCloudUnplanned => exact h.setSeg_send 100 rfl (fun _ => hcur.canceled) fun _ => rfl
    | onCloudPlanned => exact h.setSeg rfl rfl
  step u s v h hcur _ hv := by
    cases hv with
    | outsideUnplanned => exact h.setSeg_send 0 rfl (fun _ => hcur.canceled) fun _ => rfl
    | outsidePlanned => exact h.setSeg rfl rfl
    | empty => exact h.setSeg rfl rfl
    | exported => exact h.setSeg rfl rfl
    | finalUnplanned => exact h.setSeg_send 0 rfl (fun _ => hcur.canceled) fun _ => rfl
    | skipped => exact h.setSeg rfl rfl

theorem allReported_step (std : StdSort) : StepInvariant std statusConditions AllReported where
  service _ _ _ _ h := h
  enqueue _ _ _ h _ _ := h
  finalize _ _ _ h _ := h.setSeg rfl rfl
  cancel u s h _ ht hc := h.setSeg_send 100 rfl (fun _ => hc) fun hn => absurd hn ht
  canceledTicket _ _ h := h
  tick env := allReported_tick std env
  report u k r ok h hr hok := by
    rw [onFinished_eq]
    refine h.setSeg_send _ rfl (fun ht => ?_) fun _ => rfl
    simpa [statusConditions, hr, ht] using hok

theorem allReported_start (camId : ℤ) (created : SegId → NewSegmenter) :
    AllReported (start camId created) := by
  intro s
  have hf := (created s).2
  simp only [Segmenter.fresh, Bool.and_eq_true, Bool.not_eq_true'] at hf
  refine ⟨List.Pairwise.nil, by simp [statusLog, start], fun hc => ?_⟩
  simp [start, hf.1.1.1.1.2] at hc

/-- Statuses that end more than once are never mended. -/
theorem endsOnce_of_step {a : Action} (hs : u.Sound) (h : step std u a = some v) (hv : ∀ s, EndsOnce (statusLog v s)) :
    ∀ s, EndsOnce (statusLog u s) := by
  intro s
  have hsub := ((step_grows hs h).sent.sublist.filter (·.1 = s)).map (·.2.status)
  exact (hv s).sublist hsub

/-- A late answer for a canceled segmenter that still has its ticket breaks its log. -/
theorem not_endsOnce_of_late {a : Action} (hu : AllReported u) (hok : ¬ statusConditions.Admits std u a)
    (h : step std u a = some v) : ¬ ∀ s, EndsOnce (statusLog v s) := by
  cases a with
  | fire t env => exact absurd (admits_default u (.fire t env)) hok
  | reportFinished k ok =>
    obtain ⟨r, hr, rfl⟩ := Option.map_eq_some_iff.mp h
    simp only [Conditions.Admits, statusConditions, hr, Option.all_some, Bool.or_eq_true,
      Bool.not_eq_true', decide_eq_true_eq, not_or, Bool.not_eq_false] at hok
    obtain ⟨hc, ht⟩ := hok
    obtain ⟨m, hm, hterm⟩ := (hu r.segment).canceled hc ht
    intro hgood
    have hlog : statusLog (u.onFinished r.segment ok) r.segment =
        statusLog u r.segment ++ [.canceled] := by
      rw [onFinished_eq, statusLog_send]
      · simp [syncStatus, markCanceled, answerSeg, hc]
      · simpa [answerSeg] using ht
    have hpair : EndsOnce (statusLog u r.segment ++ [.canceled]) := hlog ▸ hgood r.segment
    have := (List.pairwise_append.mp hpair).2.2 m hm .canceled (by simp)
    simp [hterm] at this
  | scheduleUpload => exact absurd trivial hok
  | finalizeUpload => exact absurd trivial hok
  | cancelUpload => exact absurd trivial hok

/-- At most one terminal status is sent for each segmenter, and nothing after it, in exactly those
runs where no answer comes for a segmenter that is canceled and still has its ticket. -/
theorem statuses_end_once_iff (std : StdSort) (camId : ℤ) (created : SegId → NewSegmenter)
    (as : List Action) (he : exec (step std) (start camId created) as = some u) :
    (∀ s, EndsOnce (statusLog u s)) ↔
      Meets (step std) (statusConditions.Admits std) (start camId created) as :=
  good_iff_meets (fun _ _ _ hs hv => hs.step hv)
    (fun _ a _ hs hu hok hv => (allReported_step std).step a hs hu hok hv) (fun _ hu s => (hu s).endsOnce)
    (fun _ _ _ hu hok hv => not_endsOnce_of_late hu hok hv) (fun _ _ _ hs hv => endsOnce_of_step hs hv)
    (sound_start camId created) (allReported_start camId created) he

/-- Fifteen seconds of recording, synchronized on request. -/
def syncRequest : NewSegmenter :=
  .ofEvent false (seconds 1000) (seconds 1010) 0 0 (seconds 15) 0 "cam" "request" 0

theorem statuses_end_once_done :
    ∃ u, exec (step .insertion) (start 7 fun _ => syncRequest)
        [.scheduleUpload 0, .fire 1 (.exact []), .fire 0 (.exact []), .reportFinished 0 true] = some u ∧
      statusLog u 0 = [.done] ∧ ∀ s, EndsOnce (statusLog u s) := by
  have hrun : ∃ u ∈ exec (step .insertion) (start 7 fun _ => syncRequest)
      [.scheduleUpload 0, .fire 1 (.exact []), .fire 0 (.exact []), .reportFinished 0 true],
        statusLog u 0 = [.done] := by
    decide +kernel
  obtain ⟨u, hu, hlog⟩ := hrun
  exact ⟨u, hu, hlog, (statuses_end_once_iff .insertion 7 _ _ hu).mpr (by decide +kernel)⟩

/-- The request is planned for upload, canceled, and only then answered. -/
def lateAnswerRun : List Action :=
  [.scheduleUpload 0, .fire 1 (.exact []), .fire 0 (.exact []), .cancelUpload "request",
    .fire 3 (.exact []), .reportFinished 0 true]

theorem statuses_end_twice :
    ∃ u ∈ exec (step .insertion) (start 7 fun _ => syncRequest) lateAnswerRun,
      statusLog u 0 = [.canceled, .canceled] ∧ ¬ EndsOnce (statusLog u 0) := by
  decide +kernel

end CloudAgent.Agent.SegmentedUploader
