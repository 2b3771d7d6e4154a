import CloudAgent.Agent.Upload

/-! What the parts of a tick do, said once: status messages, the choice of the current segmenter,
and every outcome of adjusting it, checking it against the cloud and stepping it. -/
namespace CloudAgent.Agent.SegmentedUploader
open Utils Segmenter

variable {std : StdSort} {env : TickEnv} {u : SegmentedUploader} {s : SegId}

/-! ### Status messages -/

theorem send_of_ticket_eq (progress : ℕ) (h : (u.heap s).ticket = "") :
    u.sendTimelineSynchronizationStatus progress s = u := by
  simp [sendTimelineSynchronizationStatus, markCanceled, h]

theorem send_of_ticket_ne (progress : ℕ) (h : (u.heap s).ticket ≠ "") :
    u.sendTimelineSynchronizationStatus progress s =
      { u.setSeg s ((u.markCanceled (u.heap s)).withReport (u.markCanceled (u.heap s)).canceled
          (if (syncStatus (u.markCanceled (u.heap s))).closing then "" else (u.heap s).ticket)) with
        canceledTickets := u.canceledTickets.filter (· ≠ (u.heap s).ticket)
        sent := u.sent ++ [(s, u.statusMessage progress (u.markCanceled (u.heap s)))] } := by
  simp [sendTimelineSynchronizationStatus, markCanceled, h]

/-- What a status message leaves as it was. -/
theorem send_eq (u : SegmentedUploader) (progress : ℕ) (s : SegId) :
    ∃ c t ct m, ((u.heap s).canceled = true → c = true) ∧ (t = "" ∨ t = (u.heap s).ticket) ∧
      u.sendTimelineSynchronizationStatus progress s =
        { u.setSeg s ((u.heap s).withReport c t) with canceledTickets := ct, sent := u.sent ++ m } := by
  by_cases h : (u.heap s).ticket = ""
  · refine ⟨(u.heap s).canceled, (u.heap s).ticket, u.canceledTickets, [], id, Or.inr rfl, ?_⟩
    have hset : u.setSeg s ((u.heap s).withReport (u.heap s).canceled (u.heap s).ticket) = u :=
      u.setSeg_self s
    rw [send_of_ticket_eq progress h, hset, List.append_nil]
  · refine ⟨_, _, _, _, ?_, ?_, send_of_ticket_ne progress h⟩
    · intro hc
      simp [markCanceled, hc]
    · split
      · exact Or.inl rfl
      · exact Or.inr rfl

/-- What a status message keeps of one segmenter, it keeps of all of them. -/
theorem heap_send {P : Segmenter → Prop} (progress : ℕ) (s j : SegId)
    (hP : ∀ x c t, P x → (x.canceled = true → c = true) → (t = "" ∨ t = x.ticket) →
      P (x.withReport c t)) (h : P (u.heap j)) :
    P ((u.sendTimelineSynchronizationStatus progress s).heap j) := by
  obtain ⟨c, t, ct, m, hc, ht, he⟩ := send_eq u progress s
  rw [he]
  simp only [setSeg_heap]
  split
  · rename_i hj
    exact hP _ c t (hj ▸ h) hc ht
  · exact h

@[simp] theorem send_planned (progress : ℕ) :
    (u.sendTimelineSynchronizationStatus progress s).planned = u.planned := by
  obtain ⟨c, t, ct, m, -, -, he⟩ := send_eq u progress s
  rw [he]
  rfl

theorem sent_prefix_send (u : SegmentedUploader) (progress : ℕ) (s : SegId) :
    u.sent <+: (u.sendTimelineSynchronizationStatus progress s).sent := by
  obtain ⟨c, t, ct, m, -, -, he⟩ := send_eq u progress s
  rw [he]
  exact List.prefix_append _ _

@[simp] theorem send_segmenters (progress : ℕ) :
    (u.sendTimelineSynchronizationStatus progress s).segmenters = u.segmenters := by
  obtain ⟨c, t, ct, m, -, -, he⟩ := send_eq u progress s
  rw [he]
  rfl

@[simp] theorem send_http (progress : ℕ) :
    (u.sendTimelineSynchronizationStatus progress s).http = u.http := by
  obtain ⟨c, t, ct, m, -, -, he⟩ := send_eq u progress s
  rw [he]
  rfl

@[simp] theorem send_reported (progress : ℕ) :
    (u.sendTimelineSynchronizationStatus progress s).reported = u.reported := by
  obtain ⟨c, t, ct, m, -, -, he⟩ := send_eq u progress s
  rw [he]
  rfl

/-- An answered segmenter is finished once it is processed. -/
def answerSeg (x : Segmenter) (ok : Bool) : Segmenter :=
  (x.countAnswer ok).withState x.processed (x.processed && (x.countAnswer ok).answered)

/-- An answer counts, and it reports unless the ticket is gone. -/
theorem onFinished_eq (u : SegmentedUploader) (s : SegId) (ok : Bool) :
    u.onFinished s ok = (u.setSeg s (answerSeg (u.heap s) ok)).sendTimelineSynchronizationStatus
      (syncProgress ((u.heap s).countAnswer ok)) s := by
  by_cases h : (u.heap s).ticket = ""
  · rw [send_of_ticket_eq]
    · simp only [onFinished, countAnswer_ticket, h, if_true]
      rfl
    · simpa [answerSeg] using h
  · simp only [onFinished, countAnswer_ticket, h, if_false]
    rfl

/-! ### The parts of a tick -/

theorem purge_sublist (removable : SegId → Bool) (n : ℕ) (l : List SegId) :
    (purge removable n l).Sublist l := by
  induction l generalizing n with
  | nil => cases n <;> exact List.Sublist.refl _
  | cons s l ih =>
    cases n with
    | zero => exact List.Sublist.refl _
    | succ n =>
      simp only [purge]
      split
      · exact (ih n).cons s
      · exact (ih (n + 1)).cons_cons s

theorem mem_purge {removable : SegId → Bool} {l : List SegId} (n : ℕ) (hs : s ∈ l)
    (hr : removable s = false) : s ∈ purge removable n l := by
  induction l generalizing n with
  | nil => simp at hs
  | cons q l ih =>
    cases n with
    | zero => exact hs
    | succ n =>
      simp only [purge]
      rcases List.mem_cons.mp hs with rfl | hs
      · simp [hr]
      · split
        · exact ih n hs
        · exact List.mem_cons_of_mem _ (ih (n + 1) hs)

/-- Only processed segmenters are finished, as `__dump_segmenters` asserts. -/
def Sound (u : SegmentedUploader) : Prop :=
  ∀ s, (u.heap s).finished = true → (u.heap s).processed = true

/-- The segmenter that `__get_current` has just chosen. -/
structure Current (u : SegmentedUploader) (s : SegId) : Prop where
  processed : (u.heap s).processed = false
  canceled : (u.heap s).canceled = false
  listed : s ∈ u.segmenters

/-- `__get_current` only drops and reorders listed segmenters. -/
theorem getCurrent_segmenters (std : StdSort) (u : SegmentedUploader) :
    ∃ l, (u.getCurrent std).2 = { u with segmenters := l } ∧ (∀ s ∈ l, s ∈ u.segmenters) ∧
      ∀ s ∈ u.segmenters, (u.heap s).canceled = false → (u.heap s).finished = false → s ∈ l := by
  unfold getCurrent
  split
  · exact ⟨u.segmenters, rfl, fun _ h => h, fun _ h _ _ => h⟩
  · refine ⟨_, rfl, ?_, ?_⟩
    · intro s hs
      have := (purge_sublist _ _ _).subset hs
      simp only [StdSort.mem_sort, List.mem_filter] at this
      exact this.1
    · intro s hs hc hf
      apply mem_purge
      · simp [hs, hc]
      · simp [hf]

/-- Counting the leading processed segmenters finds the first one that is not processed. -/
theorem getElem?_length_takeWhile {α : Type*} (p : α → Bool) (l : List α) :
    l[(l.takeWhile p).length]? = l.find? fun a => !p a := by
  induction l with
  | nil => rfl
  | cons a l ih =>
    by_cases h : p a = true
    · simpa [h] using ih
    · simp [h]

theorem getCurrent_current (hsound : u.Sound) (h : (u.getCurrent std).1 = some s) :
    (u.getCurrent std).2.Current s := by
  obtain ⟨l, hv, -, hkeep⟩ := getCurrent_segmenters std u
  have hs : s ∈ u.segmenters ∧ (u.heap s).canceled = false ∧ (u.heap s).processed = false := by
    unfold getCurrent at h
    split at h
    · simp at h
    · simp only [getElem?_length_takeWhile] at h
      have hmem := List.mem_of_find?_eq_some h
      have hproc := List.find?_some h
      simp only [StdSort.mem_sort, List.mem_filter, Bool.not_eq_true'] at hmem hproc
      exact ⟨hmem.1, hmem.2, hproc⟩
  have hf : (u.heap s).finished = false := by
    by_contra hf
    simp [hsound s (by simpa using hf)] at hs
  rw [hv]
  exact ⟨hs.2.2, hs.2.1, hkeep s hs.1 hs.2.1 hf⟩

/-- A window that is to be uploaded has only been moved. -/
theorem checkClipSegment_upload (h : (u.checkClipSegment std env s).1 = true) :
    ∃ a b, (u.checkClipSegment std env s).2 = u.setSeg s ((u.heap s).withWindow a b) := by
  unfold checkClipSegment at h ⊢
  simp only at h ⊢
  split at h
  · simp at h
  · rename_i hc
    obtain ⟨a, b, hw⟩ := (u.heap s).checkSlices_window true
      (timelineSlices std (env.storageObjects (u.heap s).curSegStart (u.heap s).curSegStop))
    exact ⟨a, b, by rw [if_neg hc, hw]⟩

/-- The segmenter whose window is to be uploaded stays the current one. -/
theorem Current.upload (hc : u.Current s) (h : (u.checkClipSegment std env s).1 = true) :
    (u.checkClipSegment std env s).2.Current s := by
  obtain ⟨a, b, hw⟩ := checkClipSegment_upload h
  rw [hw]
  exact ⟨by simpa using hc.processed, by simpa using hc.canceled, hc.listed⟩

/-! ### Outcomes -/

/-- What adjusting the current segmenter `s` can make of `u`. -/
inductive Adjusted (u : SegmentedUploader) (s : SegId) : SegmentedUploader → Prop
  | same : Adjusted u s u
  | moved (q : Segmenter) (hq : q ∈ u.others s) (hproc : q.processed = true)
      (hint : (u.heap s).intersects q = true) (hlt : (u.heap s).curSegStart < q.curSegStart) :
      Adjusted u s
        (u.setSeg s ((u.heap s).withWindow q.curSegStart (q.curSegStart + (u.heap s).step)))
  | outside (q : Segmenter) (hq : q ∈ u.others s) (hproc : q.processed = true)
      (hint : (u.heap s).intersects q = true) (hlt : (u.heap s).curSegStart < q.curSegStart)
      (hclosed : (u.heap s).isOpen = false) (hpast : (u.heap s).lastTime ≤ q.curSegStart) :
      Adjusted u s
        ((u.setSeg s (((u.heap s).withWindow q.curSegStart
          (q.curSegStart + (u.heap s).step)).withState true true)).sendTimelineSynchronizationStatus 100 s)

theorem adjusted (u : SegmentedUploader) (s : SegId) : Adjusted u s (u.adjustCurrent s).2 := by
  simp only [adjustCurrent]
  rcases hadj : (u.heap s).adjustTo (u.others s) with ⟨x, outside⟩
  have hwin := (u.heap s).adjustTo_window (u.others s)
  have hout := (u.heap s).adjustTo_outside (u.others s)
  simp only [hadj] at hwin hout
  cases outside with
  | false =>
    simp only [Bool.false_eq_true, if_false]
    rcases hwin with rfl | ⟨q, hq, hproc, hint, hlt, rfl⟩
    · rw [setSeg_self]
      exact .same
    · exact .moved q hq hproc hint hlt
  | true =>
    obtain ⟨hclosed, q, hq, hproc, hint, hlt, hpast, rfl⟩ := hout rfl
    exact .outside q hq hproc hint hlt hclosed hpast

theorem mem_others {q : Segmenter} :
    q ∈ u.others s ↔ ∃ j ∈ u.segmenters, j ≠ s ∧ u.heap j = q := by
  simp [others, and_assoc]

/-- The slices of the cloud inside the window of `s`. -/
def cloudSlices (std : StdSort) (env : TickEnv) (u : SegmentedUploader) (s : SegId) : List Period :=
  timelineSlices std (env.storageObjects (u.heap s).curSegStart (u.heap s).curSegStop)

/-- What checking `s` against the cloud can make of `u`. -/
inductive Checked (std : StdSort) (env : TickEnv) (u : SegmentedUploader) (s : SegId) :
    Bool → SegmentedUploader → Prop
  | moved (a b : Time) (upload : Bool)
      (hcloud : (u.heap s).checkSlices true (cloudSlices std env u s) =
        ⟨(u.heap s).withWindow a b, upload, false⟩) :
      Checked std env u s upload (u.setSeg s ((u.heap s).withWindow a b))
  | onCloudUnplanned (a b : Time)
      (hcloud : (u.heap s).checkSlices true (cloudSlices std env u s) =
        ⟨(u.heap s).withWindow a b, false, true⟩)
      (hplanned : (u.heap s).uploadsPlanned = 0) :
      Checked std env u s false
        ((u.setSeg s (((u.heap s).withWindow a b).withState true true)).sendTimelineSynchronizationStatus
          100 s)
  | onCloudPlanned (a b : Time)
      (hcloud : (u.heap s).checkSlices true (cloudSlices std env u s) =
        ⟨(u.heap s).withWindow a b, false, true⟩)
      (hplanned : (u.heap s).uploadsPlanned ≠ 0) :
      Checked std env u s false (u.setSeg s (((u.heap s).withWindow a b).withState true true))

theorem checked (std : StdSort) (env : TickEnv) (u : SegmentedUploader) (s : SegId) :
    Checked std env u s (u.checkClipSegment std env s).1 (u.checkClipSegment std env s).2 := by
  obtain ⟨a, b, hw⟩ := (u.heap s).checkSlices_window true (cloudSlices std env u s)
  have hstop := (u.heap s).checkSlices_alreadyOnCloud_upload true (cloudSlices std env u s)
  rcases hc : (u.heap s).checkSlices true (cloudSlices std env u s) with ⟨w, upload, onCloud⟩
  rw [hc] at hw hstop
  obtain rfl : w = (u.heap s).withWindow a b := hw
  have hcheck : u.checkClipSegment std env s =
      if onCloud then
        (false,
          if (u.heap s).uploadsPlanned = 0 then
            (u.setSeg s (((u.heap s).withWindow a b).withState true true)
              ).sendTimelineSynchronizationStatus 100 s
          else u.setSeg s (((u.heap s).withWindow a b).withState true true))
      else (upload, u.setSeg s ((u.heap s).withWindow a b)) := by
    unfold cloudSlices at hc
    simp only [checkClipSegment, hc, withWindow_uploadsPlanned]
  rw [hcheck]
  cases onCloud with
  | false => exact .moved a b upload hc
  | true =>
    obtain rfl : upload = false := hstop rfl
    by_cases hp : (u.heap s).uploadsPlanned = 0
    · simp only [if_true, hp]
      exact .onCloudUnplanned a b hc hp
    · simp only [if_true, hp, if_false]
      exact .onCloudPlanned a b hc hp

/-- The window that the current segmenter requests from its provider. -/
def requestWindow (u : SegmentedUploader) (s : SegId) : Segmenter :=
  (u.heap s).withWindow (u.heap s).curSegStart (u.heap s).clippedStop

/-- The clip that the current segmenter gets for that window. -/
def requestClip (env : TickEnv) (u : SegmentedUploader) (s : SegId) : VideoClipInfo :=
  exportClip env (requestWindow u s)

/-- The current segmenter once its window has been requested. -/
def takenWindow (env : TickEnv) (u : SegmentedUploader) (s : SegId) : Segmenter :=
  (requestWindow u s).takeWindow env.now (requestClip env u s)

/-- What stepping the current segmenter `s` can make of `u`. -/
inductive Stepped (env : TickEnv) (u : SegmentedUploader) (s : SegId) : SegmentedUploader → Prop
  | outsideUnplanned (hclosed : (u.heap s).isOpen = false)
      (hpast : (u.heap s).lastTime ≤ (u.heap s).curSegStart)
      (hplanned : (u.heap s).uploadsPlanned = 0) :
      Stepped env u s
        ((u.setSeg s ((requestWindow u s).withState true true)).sendTimelineSynchronizationStatus 0 s)
  | outsidePlanned (hclosed : (u.heap s).isOpen = false)
      (hpast : (u.heap s).lastTime ≤ (u.heap s).curSegStart)
      (hplanned : (u.heap s).uploadsPlanned ≠ 0) :
      Stepped env u s (u.setSeg s ((requestWindow u s).withState true (u.heap s).finished))
  | empty (hin : (u.heap s).isOpen = false → (u.heap s).curSegStart < (u.heap s).lastTime)
      (hempty : (u.heap s).curSegStart = (u.heap s).clippedStop) :
      Stepped env u s (u.setSeg s ((u.heap s).withWindow (u.heap s).curSegStart
        ((u.heap s).curSegStart + (u.heap s).step)))
  | exported (hin : (u.heap s).isOpen = false → (u.heap s).curSegStart < (u.heap s).lastTime)
      (hclip : (requestClip env u s).valid = true) :
      Stepped env u s { u.setSeg s (takenWindow env u s).countPlanned with
        planned := u.planned ++ [uploadRequest s (takenWindow env u s) (requestClip env u s)] }
  | finalUnplanned (hin : (u.heap s).isOpen = false → (u.heap s).curSegStart < (u.heap s).lastTime)
      (hclip : (requestClip env u s).valid = false) (hclosed : (u.heap s).isOpen = false)
      (hlast : (u.heap s).lastTime ≤ (u.heap s).clippedStop)
      (hplanned : (u.heap s).uploadsPlanned = 0) :
      Stepped env u s
        ((u.setSeg s ((takenWindow env u s).withState true true)).sendTimelineSynchronizationStatus 0 s)
  | skipped (hin : (u.heap s).isOpen = false → (u.heap s).curSegStart < (u.heap s).lastTime)
      (hclip : (requestClip env u s).valid = false)
      (hmore : (u.heap s).isOpen = false → (u.heap s).lastTime ≤ (u.heap s).clippedStop →
        (u.heap s).uploadsPlanned ≠ 0) :
      Stepped env u s (u.setSeg s (takenWindow env u s))

/-- Without a clip the next window starts where this one stops. -/
theorem takenWindow_curSegStart (h : (requestClip env u s).valid = false) :
    (takenWindow env u s).curSegStart = (u.heap s).clippedStop := by
  simp only [takenWindow, takeWindow_curSegStart, nextStart, h, Bool.false_eq_true, if_false]
  rfl

/-- A segmenter is processed once its next window starts at its last time or later. -/
theorem takenWindow_processed (env : TickEnv) (h : (u.heap s).processed = false) :
    (takenWindow env u s).processed =
      (!(u.heap s).isOpen && decide ((u.heap s).lastTime ≤ (takenWindow env u s).curSegStart)) := by
  simp only [takenWindow, takeWindow_processed, takeWindow_curSegStart, requestWindow,
    withWindow_processed, h, Bool.false_or]
  rfl

theorem stepped (env : TickEnv) (h : u.Current s) : Stepped env u s (u.segmentStep env s) := by
  have hx : (u.heap s).withWindow (u.heap s).curSegStart (u.heap s).clippedStop =
    requestWindow u s := rfl
  have hclip : exportClip env (requestWindow u s) = requestClip env u s := rfl
  have hnext : (requestWindow u s).takeWindow env.now (requestClip env u s) = takenWindow env u s := rfl
  simp only [segmentStep, h.processed, h.canceled, Bool.or_self, Bool.false_eq_true, if_false, hx,
    hclip, hnext]
  by_cases hout : (!(requestWindow u s).isOpen &&
      decide ((requestWindow u s).curSegStart ≥ (requestWindow u s).lastTime)) = true
  · rw [if_pos hout]
    simp only [requestWindow, isOpen_withWindow, lastTime_withWindow, withWindow_curSegStart,
      Bool.and_eq_true, Bool.not_eq_true', decide_eq_true_eq] at hout
    by_cases hp : (u.heap s).uploadsPlanned = 0
    · rw [if_pos (by exact hp)]
      exact .outsideUnplanned hout.1 hout.2 hp
    · rw [if_neg (by exact hp)]
      exact .outsidePlanned hout.1 hout.2 hp
  · rw [if_neg hout]
    have hin : (u.heap s).isOpen = false → (u.heap s).curSegStart < (u.heap s).lastTime := by
      intro ho
      by_contra hn
      exact hout (by simp [requestWindow, ho, not_lt.mp hn])
    by_cases hempty : (requestWindow u s).curSegStart = (requestWindow u s).curSegStop
    · rw [if_pos hempty]
      exact .empty hin hempty
    · rw [if_neg hempty]
      cases hvalid : (requestClip env u s).valid with
      | true =>
        rw [if_pos rfl, planUpload_setSeg]
        exact .exported hin hvalid
      | false =>
        have hproc := takenWindow_processed env h.processed
        rw [takenWindow_curSegStart hvalid] at hproc
        simp only [Bool.false_eq_true, if_false]
        by_cases hfin : ((takenWindow env u s).processed &&
            decide ((takenWindow env u s).uploadsPlanned = 0)) = true
        · rw [if_pos hfin]
          simp only [Bool.and_eq_true, decide_eq_true_eq] at hfin
          rw [hfin.1]
          rw [hfin.1, eq_comm] at hproc
          simp only [Bool.and_eq_true, Bool.not_eq_true', decide_eq_true_eq] at hproc
          exact .finalUnplanned hin hvalid hproc.1 hproc.2 hfin.2
        · rw [if_neg hfin]
          refine .skipped hin hvalid fun ho hl hp => hfin ?_
          simp only [hproc, ho, hl, Bool.not_false, decide_true, Bool.true_and, decide_eq_true_eq]
          exact hp

/-! ### Finished segmenters are processed -/

theorem Sound.setSeg {x : Segmenter} (h : u.Sound) (hx : x.finished = true → x.processed = true) :
    (u.setSeg s x).Sound := by
  intro j
  simp only [setSeg_heap]
  split
  · exact hx
  · exact h j

theorem Sound.setSeg_send {x : Segmenter} (h : u.Sound) (progress : ℕ)
    (hx : x.finished = true → x.processed = true) :
    ((u.setSeg s x).sendTimelineSynchronizationStatus progress s).Sound := fun j =>
  heap_send (P := fun x => x.finished = true → x.processed = true) progress s j
    (fun _ _ _ h _ _ => h) (h.setSeg hx j)

/-- Nothing that is not processed is finished, so the flags of `s` may change freely. -/
theorem Sound.current (h : u.Sound) (hcur : u.Current s) : (u.heap s).finished = false := by
  by_contra hf
  have hp := hcur.processed
  rw [h s (by simpa using hf)] at hp
  simp at hp

theorem Sound.adjusted {v : SegmentedUploader} (h : u.Sound) (hv : Adjusted u s v) : v.Sound := by
  cases hv with
  | same => exact h
  | moved => exact h.setSeg (h s)
  | outside => exact h.setSeg_send 100 fun _ => rfl

theorem Sound.checked {v : SegmentedUploader} {upload : Bool} (h : u.Sound)
    (hv : Checked std env u s upload v) : v.Sound := by
  cases hv with
  | moved => exact h.setSeg (h s)
  | onCloudUnplanned => exact h.setSeg_send 100 fun _ => rfl
  | onCloudPlanned => exact h.setSeg fun _ => rfl

theorem Sound.stepped {v : SegmentedUploader} (h : u.Sound) (hcur : u.Current s)
    (hv : Stepped env u s v) : v.Sound := by
  have hf := h.current hcur
  have htaken : (takenWindow env u s).finished = true → (takenWindow env u s).processed = true := by
    simp [takenWindow, requestWindow, hf]
  cases hv with
  | outsideUnplanned => exact h.setSeg_send 0 fun _ => rfl
  | outsidePlanned => exact h.setSeg fun _ => rfl
  | empty => exact h.setSeg (h s)
  | exported => exact h.setSeg htaken
  | finalUnplanned => exact h.setSeg_send 0 fun _ => rfl
  | skipped => exact h.setSeg htaken

end CloudAgent.Agent.SegmentedUploader
