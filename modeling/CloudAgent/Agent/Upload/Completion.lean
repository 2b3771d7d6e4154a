import CloudAgent.Agent.Upload.Run
import Mathlib.Data.List.Perm.Subperm

/-! Completion accounting. A segmenter counts its planned and answered uploads; it is to be finished
exactly when it is processed and every planned upload is answered, and the client that asked for it
is to be told once. -/
namespace CloudAgent.Agent.SegmentedUploader
open Utils Transition

variable {std : StdSort} {u v : SegmentedUploader} {s : SegId}

/-- A message that tells that the synchronization of `s` under `ticket` is done or failed. -/
def closes (s : SegId) (ticket : String) (m : SegId × SynchronizeStatus) : Bool :=
  m.1 = s && m.2.status.closing && m.2.requestId = ticket

def closings (sent : List (SegId × SynchronizeStatus)) (s : SegId) (ticket : String) : ℕ :=
  sent.countP (closes s ticket)

/-- The uploads planned for a segmenter. -/
def plans (planned : List UploadRequest) (s : SegId) : ℕ := planned.countP (·.segment = s)

/-- The answers to uploads of a segmenter. -/
def answers (planned : List UploadRequest) (reported : List ℕ) (s : SegId) : ℕ :=
  reported.countP fun k => planned[k]?.any (·.segment = s)

/-- Distinct answers are at most as many as the uploads that they answer. -/
theorem answers_le_plans (planned : List UploadRequest) (reported : List ℕ) (s : SegId)
    (hn : reported.Nodup) (hb : ∀ k ∈ reported, k < planned.length) :
    answers planned reported s ≤ plans planned s := by
  have hsub : reported.Subperm (List.range planned.length) :=
    List.subperm_of_subset hn fun k hk => List.mem_range.mpr (hb k hk)
  have hindex : (List.range planned.length).map (fun k => planned[k]?) = planned.map some := by
    apply List.ext_getElem
    · simp
    · intro k h1 h2
      simp at h1
      simp [h1]
  calc answers planned reported s
      ≤ (List.range planned.length).countP (fun k => planned[k]?.any (·.segment = s)) :=
        hsub.countP_le _
    _ = ((List.range planned.length).map (fun k => planned[k]?)).countP (Option.any (·.segment = s)) := by
        rw [List.countP_map]
        rfl
    _ = plans planned s := by
        rw [hindex, List.countP_map]
        rfl

theorem plans_append (planned : List UploadRequest) (r : UploadRequest) (s : SegId) :
    plans (planned ++ [r]) s = plans planned s + if r.segment = s then 1 else 0 := by
  simp [plans, List.countP_append, List.countP_singleton]

theorem answers_append (planned rest : List UploadRequest) (reported : List ℕ) (s : SegId)
    (hb : ∀ k ∈ reported, k < planned.length) :
    answers (planned ++ rest) reported s = answers planned reported s := by
  apply List.countP_congr
  intro k hk
  rw [List.getElem?_append_left (hb k hk)]

/-- A segmenter agrees with the messages and the uploads that the run recorded for it. -/
structure Accounted (ticket : String) (x : Segmenter) (closings plans answers : ℕ) : Prop where
  planned : x.uploadsPlanned = plans
  answers : x.uploadsDone + x.uploadsFailed = answers
  finished : x.canceled = false → (x.finished = true ↔ x.processed = true ∧ x.answered = true)
  opened : x.canceled = false → ¬(x.processed = true ∧ x.answered = true) →
    x.ticket = ticket ∧ closings = 0
  closed : x.canceled = false → ticket ≠ "" → x.processed = true → x.answered = true →
    closings = 1 ∧ x.ticket = ""

/-- The accounts of all segmenters, where `tickets` are the tickets they were created with. -/
structure AllAccounted (tickets : SegId → String) (u : SegmentedUploader) : Prop where
  seg : ∀ s, Accounted (tickets s) (u.heap s) (closings u.sent s (tickets s)) (plans u.planned s)
    (answers u.planned u.reported s)
  nodup : u.reported.Nodup
  bound : ∀ k ∈ u.reported, k < u.planned.length

/-- The surroundings answer each upload at most once, and a place that closes a segmenter finds its
uploads as it assumes them: all answered where it declares them finished (and the request reported
where it does not report), some unanswered where it leaves the last answer to close it. -/
def completionConditions (std : StdSort) : Conditions where
  report u k _ := k ∉ u.reported
  window env phase s u :=
    let x := u.heap s
    match phase with
    | .adjust => (u.others s).all fun q =>
        !(q.processed && x.intersects q && x.curSegStart < q.curSegStart && !x.isOpen &&
          x.lastTime ≤ q.curSegStart) || x.answered
    | .choose => true
    | .check => !(x.checkSlices true (cloudSlices std env u s)).alreadyOnCloud ||
        x.uploadsPlanned = 0 || (x.answered && x.ticket = "")
    | .step => x.isOpen ||
        !(x.lastTime ≤ x.curSegStart || (!(requestClip env u s).valid && x.lastTime ≤ x.clippedStop)) ||
        x.uploadsPlanned = 0 || !x.answered

section
variable {tickets : SegId → String}

theorem closings_send (progress : ℕ) (j : SegId) (ticket : String) (h : (u.heap s).ticket ≠ "") :
    closings (u.sendTimelineSynchronizationStatus progress s).sent j ticket =
      closings u.sent j ticket +
        if j = s ∧ (syncStatus (u.markCanceled (u.heap s))).closing = true ∧ (u.heap s).ticket = ticket
        then 1 else 0 := by
  rw [send_of_ticket_ne progress h]
  simp only [closings, List.countP_append, List.countP_singleton]
  congr 1
  by_cases hj : j = s
  · simp [closes, statusMessage, markCanceled, hj]
  · simp [closes, hj, Ne.symm hj]

theorem heap_send_of_ne (progress : ℕ) {j : SegId} (hj : j ≠ s) :
    (u.sendTimelineSynchronizationStatus progress s).heap j = u.heap j := by
  obtain ⟨c, t, ct, m, -, -, he⟩ := send_eq u progress s
  rw [he]
  exact setSeg_heap_of_ne u _ hj

/-- A status is closing exactly when the segmenter is done and was not canceled. -/
theorem syncStatus_closing (x : Segmenter) :
    (syncStatus x).closing = true ↔
      x.canceled = false ∧ x.processed = true ∧ x.answered = true := by
  unfold syncStatus
  cases x.canceled
  · cases x.processed
    · simp [MemorycardSyncStatus.closing]
    · cases x.answered
      · simp [MemorycardSyncStatus.closing]
      · by_cases h : x.uploadsDone = 0 <;> simp [h, MemorycardSyncStatus.closing]
  · simp [MemorycardSyncStatus.closing]

/-- Reporting a segmenter that has not been closed so far settles its account. -/
theorem Accounted.send {ticket : String} {plans answers : ℕ} (progress : ℕ)
    (hplans : (u.heap s).uploadsPlanned = plans)
    (hanswers : (u.heap s).uploadsDone + (u.heap s).uploadsFailed = answers)
    (hfin : (u.heap s).canceled = false →
      ((u.heap s).finished = true ↔ (u.heap s).processed = true ∧ (u.heap s).answered = true))
    (hopen : (u.heap s).canceled = false → (u.heap s).ticket = ticket ∧ closings u.sent s ticket = 0) :
    Accounted ticket ((u.sendTimelineSynchronizationStatus progress s).heap s)
      (closings (u.sendTimelineSynchronizationStatus progress s).sent s ticket) plans answers := by
  by_cases ht : (u.heap s).ticket = ""
  · rw [send_of_ticket_eq progress ht]
    refine ⟨hplans, hanswers, hfin, fun hc _ => hopen hc, fun hc hne _ _ => ?_⟩
    exact absurd ((hopen hc).1.symm.trans ht) hne
  · set y := u.markCanceled (u.heap s) with hy
    have hheap : (u.sendTimelineSynchronizationStatus progress s).heap s =
        y.withReport y.canceled (if (syncStatus y).closing then "" else (u.heap s).ticket) := by
      rw [send_of_ticket_ne progress ht]
      simp [hy]
    have hcan : y.canceled = false → (u.heap s).canceled = false := by
      intro hc
      simp only [hy, markCanceled, Segmenter.withReport_canceled, Bool.or_eq_false_iff] at hc
      exact hc.1
    rw [hheap, closings_send progress s ticket ht, ← hy]
    refine ⟨hplans, hanswers, fun hc => hfin (hcan hc), fun hc hn => ?_, fun hc _ hp ha => ?_⟩
    · have hclosing : ¬ (syncStatus y).closing = true := fun hcl =>
        hn ((syncStatus_closing y).mp hcl).2
      simp [hclosing, hopen (hcan hc)]
    · have hclosing : (syncStatus y).closing = true := (syncStatus_closing y).mpr ⟨hc, hp, ha⟩
      simp [hclosing, hopen (hcan hc)]

/-- A segmenter that is not yet closed still has its ticket, and nothing has closed it. -/
theorem AllAccounted.open (h : AllAccounted tickets u) (hc : (u.heap s).canceled = false)
    (hn : ¬((u.heap s).processed = true ∧ (u.heap s).answered = true)) :
    (u.heap s).ticket = tickets s ∧ closings u.sent s (tickets s) = 0 :=
  (h.seg s).opened hc hn

/-- Writing back a segmenter that is not closed before: either it is not closed now, or it had
no ticket. -/
theorem AllAccounted.setSeg {x : Segmenter} (h : AllAccounted tickets u)
    (hopen : (u.heap s).ticket = tickets s ∧ closings u.sent s (tickets s) = 0)
    (ht : x.ticket = (u.heap s).ticket)
    (hplans : x.uploadsPlanned = (u.heap s).uploadsPlanned)
    (hanswers : x.uploadsDone + x.uploadsFailed = (u.heap s).uploadsDone + (u.heap s).uploadsFailed)
    (hfin : x.finished = true ↔ x.processed = true ∧ x.answered = true)
    (hdone : x.processed = true → x.answered = true → (u.heap s).ticket = "") :
    AllAccounted tickets (u.setSeg s x) := by
  refine ⟨fun j => ?_, h.nodup, h.bound⟩
  simp only [setSeg_heap]
  split
  · rename_i hj
    subst hj
    have hs := h.seg j
    refine ⟨hplans.trans hs.planned, hanswers.trans hs.answers, fun _ => hfin,
      fun _ _ => ⟨ht.trans hopen.1, hopen.2⟩, fun _ hne hp ha => ?_⟩
    exact absurd (hopen.1.symm.trans (hdone hp ha)) hne
  · exact h.seg j

/-- Moving the window, or anything else that no account mentions. -/
theorem AllAccounted.congr {x : Segmenter} (h : AllAccounted tickets u)
    (ht : x.ticket = (u.heap s).ticket) (hc : x.canceled = (u.heap s).canceled)
    (hf : x.finished = (u.heap s).finished) (hp : x.processed = (u.heap s).processed)
    (h1 : x.uploadsPlanned = (u.heap s).uploadsPlanned) (h2 : x.uploadsDone = (u.heap s).uploadsDone)
    (h3 : x.uploadsFailed = (u.heap s).uploadsFailed) : AllAccounted tickets (u.setSeg s x) := by
  refine ⟨fun j => ?_, h.nodup, h.bound⟩
  simp only [setSeg_heap]
  split
  · rename_i hj
    subst hj
    have ha : x.answered = (u.heap j).answered := by simp [Segmenter.answered, h1, h2, h3]
    obtain ⟨g1, g2, g3, g4, g5⟩ := h.seg j
    exact ⟨h1.trans g1, by rw [h2, h3]; exact g2, by rw [hc, hf, hp, ha]; exact g3,
      by rw [hc, hp, ha, ht]; exact g4, by rw [hc, hp, ha, ht]; exact g5⟩
  · exact h.seg j

theorem closings_send_of_ne (progress : ℕ) {j : SegId} (ticket : String) (hj : j ≠ s) :
    closings (u.sendTimelineSynchronizationStatus progress s).sent j ticket = closings u.sent j ticket := by
  by_cases ht : (u.heap s).ticket = ""
  · rw [send_of_ticket_eq progress ht]
  · rw [closings_send progress j ticket ht, if_neg (fun h => hj h.1), Nat.add_zero]

/-- Writing back and reporting a segmenter that is canceled, or not closed before. -/
theorem AllAccounted.setSeg_send {x : Segmenter} (progress : ℕ) (h : AllAccounted tickets u)
    (hopen : x.canceled = false → (u.heap s).ticket = tickets s ∧ closings u.sent s (tickets s) = 0)
    (ht : x.ticket = (u.heap s).ticket)
    (hplans : x.uploadsPlanned = (u.heap s).uploadsPlanned)
    (hanswers : x.uploadsDone + x.uploadsFailed = (u.heap s).uploadsDone + (u.heap s).uploadsFailed)
    (hfin : x.canceled = false → (x.finished = true ↔ x.processed = true ∧ x.answered = true)) :
    AllAccounted tickets ((u.setSeg s x).sendTimelineSynchronizationStatus progress s) := by
  refine ⟨fun j => ?_, by simpa using h.nodup, by simpa using h.bound⟩
  simp only [send_planned, send_reported, setSeg_planned, setSeg_reported]
  by_cases hj : j = s
  · subst hj
    apply Accounted.send
    · simpa [hplans] using (h.seg j).planned
    · simpa [hanswers] using (h.seg j).answers
    · simpa using hfin
    · simpa [ht] using hopen
  · rw [heap_send_of_ne progress hj, closings_send_of_ne progress _ hj, setSeg_heap_of_ne u x hj]
    exact h.seg j

/-- The counters never overshoot. -/
theorem AllAccounted.le (h : AllAccounted tickets u) (s : SegId) :
    (u.heap s).uploadsDone + (u.heap s).uploadsFailed ≤ (u.heap s).uploadsPlanned := by
  rw [(h.seg s).answers, (h.seg s).planned]
  exact answers_le_plans _ _ _ h.nodup h.bound

theorem AllAccounted.answered_of_unplanned (h : AllAccounted tickets u)
    (hp : (u.heap s).uploadsPlanned = 0) : (u.heap s).answered = true := by
  have := h.le s
  simp only [Segmenter.answered, decide_eq_true_eq]
  omega

/-- Planning an upload of a segmenter that is not closed before. -/
theorem AllAccounted.plan {x : Segmenter} {r : UploadRequest} (h : AllAccounted tickets u)
    (hr : r.segment = s) (hopen : (u.heap s).ticket = tickets s ∧ closings u.sent s (tickets s) = 0)
    (hfin : (u.heap s).finished = false) (ht : x.ticket = (u.heap s).ticket)
    (hplans : x.uploadsPlanned = (u.heap s).uploadsPlanned + 1)
    (hanswers : x.uploadsDone + x.uploadsFailed = (u.heap s).uploadsDone + (u.heap s).uploadsFailed)
    (hx : x.finished = (u.heap s).finished) :
    AllAccounted tickets { u.setSeg s x with planned := u.planned ++ [r] } := by
  have hle := h.le s
  have hanswered : x.answered = false := by
    simp only [Segmenter.answered, decide_eq_false_iff_not]
    omega
  refine ⟨fun j => ?_, h.nodup, fun k hk => ?_⟩
  · simp only [answers_append _ _ _ _ h.bound, setSeg_reported, plans_append, hr, setSeg_sent]
    by_cases hj : j = s
    · subst hj
      simp only [setSeg_heap_self]
      refine ⟨?_, hanswers.trans (h.seg j).answers, fun _ => ?_, fun _ _ => ?_, fun _ _ _ ha => ?_⟩
      · simpa [hplans] using (h.seg j).planned
      · simp [hx, hfin, hanswered]
      · exact ⟨ht.trans hopen.1, hopen.2⟩
      · simp [hanswered] at ha
    · simp only [setSeg_heap_of_ne u x hj]
      simpa [Ne.symm hj] using h.seg j
  · simpa using Nat.lt_succ_of_lt (h.bound k hk)

/-- The current segmenter is not closed yet. -/
theorem AllAccounted.current (h : AllAccounted tickets u) (hcur : u.Current s) :
    ((u.heap s).ticket = tickets s ∧ closings u.sent s (tickets s) = 0) ∧ (u.heap s).finished = false := by
  refine ⟨h.open hcur.canceled (by simp [hcur.processed]), ?_⟩
  have := (h.seg s).finished hcur.canceled
  simpa [hcur.processed] using this

theorem accounted_tick (std : StdSort) (env : TickEnv) (tickets : SegId → String) :
    TickInvariant std env ((completionConditions std).window env) (AllAccounted tickets) where
  list _ _ h _ := ⟨h.seg, h.nodup, h.bound⟩
  adjust u s v h hcur hok hv := by
    obtain ⟨hopen, hfin⟩ := h.current hcur
    cases hv with
    | same => exact h
    | moved => exact h.congr rfl rfl rfl rfl rfl rfl rfl
    | outside q hq hproc hint hlt hclosed hpast =>
      have ha : (u.heap s).answered = true := by
        simp only [completionConditions, List.all_eq_true] at hok
        simpa [hproc, hint, hlt, hclosed, hpast] using hok q hq
      exact h.setSeg_send 100 (fun _ => hopen) rfl rfl rfl (by simp [ha])
  check u s upload v h hcur hok hv := by
    obtain ⟨hopen, hfin⟩ := h.current hcur
    cases hv with
    | moved => exact h.congr rfl rfl rfl rfl rfl rfl rfl
    | onCloudUnplanned a b hcloud hplanned =>
      exact h.setSeg_send 100 (fun _ => hopen) rfl rfl rfl (by simp [h.answered_of_unplanned hplanned])
    | onCloudPlanned a b hcloud hplanned =>
      have hok : (u.heap s).answered = true ∧ (u.heap s).ticket = "" := by
        simpa [completionConditions, hcloud, hplanned] using hok
      exact h.setSeg hopen rfl rfl rfl (by simp [hok.1]) fun _ _ => hok.2
  step u s v h hcur hok hv := by
    obtain ⟨hopen, hfin⟩ := h.current hcur
    cases hv with
    | outsideUnplanned hclosed hpast hplanned =>
      refine h.setSeg_send 0 (fun _ => hopen) rfl rfl rfl ?_
      have ha : (requestWindow u s).answered = true := h.answered_of_unplanned hplanned
      simp [ha]
    | outsidePlanned hclosed hpast hplanned =>
      have ha : (u.heap s).answered = false := by
        simpa [completionConditions, hclosed, hpast, hplanned] using hok
      have ha : (requestWindow u s).answered = false := ha
      refine h.setSeg hopen rfl rfl rfl ?_ fun _ => ?_
      · simp [hfin, ha]
      · simp [ha]
    | empty => exact h.congr rfl rfl rfl rfl rfl rfl rfl
    | exported hin hclip => exact h.plan rfl hopen hfin rfl rfl rfl rfl
    | finalUnplanned hin hclip hclosed hlast hplanned =>
      refine h.setSeg_send 0 (fun _ => hopen) rfl rfl rfl ?_
      have ha : (takenWindow env u s).answered = true := h.answered_of_unplanned hplanned
      simp [ha]
    | skipped hin hclip hmore =>
      have ha : (takenWindow env u s).processed = true → (takenWindow env u s).answered = false := by
        intro hp
        rw [takenWindow_processed env hcur.processed, takenWindow_curSegStart hclip] at hp
        simp only [Bool.and_eq_true, Bool.not_eq_true', decide_eq_true_eq] at hp
        have hplanned := hmore hp.1 hp.2
        have : (u.heap s).answered = false := by
          simpa [completionConditions, hclip, hp.1, hp.2, hplanned] using hok
        exact this
      refine h.setSeg hopen rfl rfl rfl ?_ fun hp => ?_
      · have hf : (takenWindow env u s).finished = false := hfin
        rw [hf]
        simpa using ha
      · simp [ha hp]

/-- The first answer to an upload moves the account of its segmenter and no other. -/
theorem AllAccounted.report {k : ℕ} {r : UploadRequest} (ok : Bool) (h : AllAccounted tickets u)
    (hr : u.planned[k]? = some r) (hk : k ∉ u.reported) :
    AllAccounted tickets { u.onFinished r.segment ok with reported := k :: u.reported } := by
  obtain ⟨hlt, -⟩ := List.getElem?_eq_some_iff.mp hr
  have hnodup : (k :: u.reported).Nodup := List.nodup_cons.mpr ⟨hk, h.nodup⟩
  have hbound : ∀ i ∈ k :: u.reported, i < u.planned.length := by
    intro i hi
    rcases List.mem_cons.mp hi with rfl | hi
    · exact hlt
    · exact h.bound i hi
  have hanswers : ∀ j, answers u.planned (k :: u.reported) j =
      answers u.planned u.reported j + if r.segment = j then 1 else 0 := by
    intro j
    simp [answers, List.countP_cons, hr]
  rw [onFinished_eq]
  refine ⟨fun j => ?_, hnodup, by simpa using hbound⟩
  simp only [send_planned, setSeg_planned, hanswers]
  by_cases hj : j = r.segment
  · subst hj
    have hs := h.seg r.segment
    have hle := answers_le_plans u.planned _ r.segment hnodup hbound
    rw [hanswers, if_pos rfl, ← hs.answers, ← hs.planned] at hle
    rw [if_pos rfl]
    apply Accounted.send
    · simpa [answerSeg] using hs.planned
    · have := hs.answers
      cases ok <;> simp [answerSeg] <;> omega
    · simp [answerSeg]
    · intro hc
      simp only [setSeg_heap_self, answerSeg, Segmenter.withState_canceled,
        Segmenter.countAnswer_canceled] at hc
      have hopen := hs.opened hc fun hdone => by
        have := hdone.2
        simp only [Segmenter.answered, decide_eq_true_eq] at this
        omega
      simpa [answerSeg] using hopen
  · rw [if_neg (fun hs => hj hs.symm), heap_send_of_ne _ hj, closings_send_of_ne _ _ hj,
      setSeg_heap_of_ne _ _ hj]
    exact h.seg j

theorem accounted_step (std : StdSort) (tickets : SegId → String) :
    StepInvariant std (completionConditions std) (AllAccounted tickets) where
  service _ _ _ _ h := ⟨h.seg, h.nodup, h.bound⟩
  enqueue _ _ _ h _ _ := ⟨h.seg, h.nodup, h.bound⟩
  finalize _ _ _ h _ := h.congr rfl rfl rfl rfl rfl rfl rfl
  cancel u s h _ _ _ := h.setSeg_send 100 (by simp) rfl rfl rfl (by simp)
  canceledTicket _ _ h := ⟨h.seg, h.nodup, h.bound⟩
  tick env := accounted_tick std env tickets
  report u k r ok h hr hok := h.report ok hr (by simpa [completionConditions] using hok)

theorem accounted_start (camId : ℤ) (created : SegId → NewSegmenter) :
    AllAccounted (fun s => (created s).1.ticket) (start camId created) := by
  refine ⟨fun s => ?_, List.nodup_nil, by simp [start]⟩
  have hf := (created s).2
  simp only [Segmenter.fresh, Bool.and_eq_true, Bool.not_eq_true', decide_eq_true_eq] at hf
  obtain ⟨⟨⟨⟨⟨hp, -⟩, hfin⟩, h1⟩, h2⟩, h3⟩ := hf
  refine ⟨?_, ?_, ?_, ?_, ?_⟩ <;> simp [start, plans, answers, closings, hp, hfin, h1, h2, h3]

end

/-- In every run that meets the conditions, a segmenter that is not canceled is finished exactly
when it is processed and all its uploads are answered, and the step that makes this true for a
segmenter with a ticket sends exactly one status that says so. -/
theorem completion_exact (std : StdSort) (camId : ℤ) (created : SegId → NewSegmenter)
    (as : List Action)
    (hm : Meets (step std) ((completionConditions std).Admits std) (start camId created) as)
    (he : exec (step std) (start camId created) as = some u) :
    (∀ s, (u.heap s).canceled = false →
      ((u.heap s).finished = true ↔ (u.heap s).processed = true ∧ (u.heap s).answered = true)) ∧
    ∀ a v, (completionConditions std).Admits std u a → step std u a = some v →
      ∀ s, (v.heap s).canceled = false → (u.heap s).ticket ≠ "" →
        ¬((u.heap s).processed = true ∧ (u.heap s).answered = true) →
        (v.heap s).processed = true → (v.heap s).answered = true →
        (v.sent.drop u.sent.length).countP (closes s (u.heap s).ticket) = 1 := by
  obtain ⟨hsound, hu⟩ :=
    (accounted_step std _).run (sound_start camId created) (accounted_start camId created) hm he
  refine ⟨fun s hc => (hu.seg s).finished hc, fun a v hok hv s hc ht hn hp ha => ?_⟩
  have hs := (accounted_step std _).step a hsound hu hok hv
  have hcu : (u.heap s).canceled = false := by
    by_contra hcu
    simp [(step_grows hsound hv).canceled s (by simpa using hcu)] at hc
  obtain ⟨hticket, hzero⟩ := hu.open hcu hn
  have hone := ((hs.seg s).closed hc (hticket ▸ ht) hp ha).1
  obtain ⟨rest, hrest⟩ := (step_grows hsound hv).sent
  rw [← hrest, List.drop_left, hticket]
  simp only [closings] at hone hzero
  rw [← hrest, List.countP_append, hzero, Nat.zero_add] at hone
  exact hone

/-- Twenty seconds of recording, synchronized on request in two windows. -/
def twoWindows : NewSegmenter :=
  .ofEvent false (seconds 1000) (seconds 1020) 0 0 (seconds 15) 0 "cam" "request" 0

/-- A tick that finds no recording. -/
def noRecording : TickEnv := { TickEnv.exact [] with recordGetList := fun _ _ _ => [] }

/-- The request is enqueued, and its first window is uploaded. -/
def firstWindow : List Action :=
  [.scheduleUpload 0, .fire 1 (.exact []), .fire 0 (.exact []), .reportFinished 0 true]

theorem completion_exact_done :
    ∃ u v, exec (step .insertion) (start 7 fun _ => twoWindows) (firstWindow ++ [.fire 2 (.exact [])]) =
        some u ∧ step .insertion u (.reportFinished 1 false) = some v ∧ (u.heap 0).finished = false ∧
      (v.sent.drop u.sent.length).countP (closes 0 "request") = 1 := by
  have hrun : ∃ u ∈ exec (step .insertion) (start 7 fun _ => twoWindows)
      (firstWindow ++ [.fire 2 (.exact [])]), ∃ v ∈ step .insertion u (.reportFinished 1 false),
        (u.heap 0).finished = false ∧ (u.heap 0).ticket = "request" ∧
        (completionConditions .insertion).Admits .insertion u (.reportFinished 1 false) ∧
        (v.heap 0).canceled = false ∧
        ¬((u.heap 0).processed = true ∧ (u.heap 0).answered = true) ∧
        (v.heap 0).processed = true ∧ (v.heap 0).answered = true := by
    decide +kernel
  obtain ⟨u, hu, v, hv, hfin, hticket, hok, hc, hn, hp, ha⟩ := hrun
  have h := completion_exact .insertion 7 (fun _ => twoWindows) _ (by decide +kernel) hu
  exact ⟨u, v, hu, hv, hfin, hticket ▸ h.2 _ v hok hv 0 hc (by simp [hticket]) hn hp ha⟩

/-- The last window has no recording once the first one has been uploaded and answered: nothing
marks the segmenter as finished, and the request is never told. -/
theorem completion_lost :
    ∃ u ∈ exec (step .insertion) (start 7 fun _ => twoWindows) (firstWindow ++ [.fire 2 noRecording]),
      (u.heap 0).canceled = false ∧ (u.heap 0).processed = true ∧ (u.heap 0).answered = true ∧
        (u.heap 0).finished = false ∧ closings u.sent 0 "request" = 0 := by
  decide +kernel

end CloudAgent.Agent.SegmentedUploader
