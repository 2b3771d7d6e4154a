import CloudAgent.Agent.Upload.Run

/-! The adjusting loop of a tick. Every iteration but the last one marks a listed segmenter as
processed, so the loop ends, and its last iteration has moved the current segmenter past every
processed segmenter of the list that it intersects. -/
namespace CloudAgent.Agent.SegmentedUploader
open Utils

variable {std : StdSort} {u v : SegmentedUploader} {s : SegId}

def unprocessed (u : SegmentedUploader) (s : SegId) : Bool := !(u.heap s).processed

/-- The first segmenter of the list that is not processed. -/
def firstUnprocessed (u : SegmentedUploader) : Option SegId := u.segmenters.find? u.unprocessed

theorem find?_purge {removable p : SegId → Bool} (n : ℕ) (l : List SegId)
    (h : ∀ s, removable s = true → p s = false) : (purge removable n l).find? p = l.find? p := by
  induction l generalizing n with
  | nil => cases n <;> rfl
  | cons s l ih =>
    cases n with
    | zero => rfl
    | succ n =>
      simp only [purge]
      split
      · rename_i hs
        simp [h s hs, ih n]
      · simp [List.find?_cons, ih (n + 1)]

/-- What `__get_current` chooses is still the first unprocessed segmenter after its purge. -/
theorem getCurrent_fst (std : StdSort) (hs : u.Sound) :
    (u.getCurrent std).1 = (u.getCurrent std).2.firstUnprocessed := by
  unfold getCurrent
  split
  · rename_i h
    simp only [List.isEmpty_iff] at h
    simp [firstUnprocessed, h]
  · simp only [getElem?_length_takeWhile, firstUnprocessed, purgeSegmenters]
    refine (find?_purge _ _ fun j hj => ?_).symm
    have hf : (u.heap j).finished = true := by simpa using hj
    simp [hs j hf]

theorem countP_getCurrent_le (std : StdSort) (u : SegmentedUploader) :
    (u.getCurrent std).2.segmenters.countP u.unprocessed ≤ u.segmenters.countP u.unprocessed := by
  unfold getCurrent
  split
  · exact le_rfl
  · calc _ ≤ (std.sort u.segKey (u.segmenters.filter fun s => !(u.heap s).canceled)).countP
            u.unprocessed := (purge_sublist _ _ _).countP_le
      _ = (u.segmenters.filter fun s => !(u.heap s).canceled).countP u.unprocessed :=
          (std.perm _ _).countP_eq _
      _ ≤ u.segmenters.countP u.unprocessed := List.filter_sublist.countP_le

/-- Fewer elements satisfy a stricter predicate that rules one of them out. -/
theorem countP_lt_countP {α : Type*} {p q : α → Bool} {l : List α} {a : α} (ha : a ∈ l)
    (h : ∀ b, p b = true → q b = true) (hp : p a = false) (hq : q a = true) :
    l.countP p < l.countP q := by
  induction l with
  | nil => simp at ha
  | cons b l ih =>
    have hle := List.countP_mono_left (l := l) fun c _ => h c
    simp only [List.countP_cons]
    rcases List.mem_cons.mp ha with rfl | ha
    · simp only [hp, hq, Bool.false_eq_true, if_false, if_true]
      omega
    · have hlt := ih ha
      have hb := h b
      cases hpb : p b
      · simp only [Bool.false_eq_true, if_false]
        omega
      · simp only [hb hpb, if_true]
        omega

theorem adjustCurrent_outside (h : (u.adjustCurrent s).1 = true) :
    ∃ x : Segmenter, x.processed = true ∧
      (u.adjustCurrent s).2 = (u.setSeg s x).sendTimelineSynchronizationStatus 100 s := by
  simp only [adjustCurrent] at h ⊢
  split at h
  · rename_i ho
    rw [if_pos ho]
    exact ⟨_, rfl, rfl⟩
  · simp at h

theorem adjustCurrent_inside (h : (u.adjustCurrent s).1 = false) :
    ((u.heap s).adjustTo (u.others s)).2 = false ∧
      (u.adjustCurrent s).2 = u.setSeg s ((u.heap s).adjustTo (u.others s)).1 := by
  simp only [adjustCurrent] at h ⊢
  split at h
  · simp at h
  · rename_i ho
    rw [if_neg ho]
    exact ⟨by simpa using ho, rfl⟩

/-- Closing the current segmenter leaves fewer unprocessed segmenters in the list. -/
theorem countP_adjustCurrent_lt (hlisted : s ∈ u.segmenters) (hp : (u.heap s).processed = false)
    (h : (u.adjustCurrent s).1 = true) :
    (u.adjustCurrent s).2.segmenters.countP (u.adjustCurrent s).2.unprocessed <
      u.segmenters.countP u.unprocessed := by
  obtain ⟨x, hx, he⟩ := adjustCurrent_outside h
  have hheap : ∀ j, ((u.adjustCurrent s).2.heap j).processed =
      if j = s then true else (u.heap j).processed := by
    intro j
    have hsend := heap_send (P := fun y => y.processed = ((u.setSeg s x).heap j).processed) 100 s j
      (fun _ _ _ hy _ _ => hy) (u := u.setSeg s x) rfl
    rw [he, hsend, setSeg_heap]
    split
    · exact hx
    · rfl
  have hlist : (u.adjustCurrent s).2.segmenters = u.segmenters := by
    rw [he, send_segmenters, setSeg_segmenters]
  rw [hlist]
  refine countP_lt_countP hlisted (fun j => ?_) ?_ ?_
  · simp only [unprocessed, hheap]
    split <;> simp
  · simp [unprocessed, hheap]
  · simp [unprocessed, hp]

/-- Adjusting that stays inside the borders leaves all segmenters as processed as they were. -/
theorem adjustCurrent_firstUnprocessed (h : (u.adjustCurrent s).1 = false) :
    (u.adjustCurrent s).2.firstUnprocessed = u.firstUnprocessed := by
  obtain ⟨-, he⟩ := adjustCurrent_inside h
  rw [he]
  have hsame : ∀ j, (u.setSeg s ((u.heap s).adjustTo (u.others s)).1).unprocessed j =
      u.unprocessed j := by
    intro j
    by_cases hj : j = s
    · rcases (u.heap s).adjustTo_window (u.others s) with hw | ⟨p, _, _, _, _, hw⟩ <;>
        simp [unprocessed, hj, hw]
    · simp [unprocessed, hj]
  simp only [firstUnprocessed, setSeg_segmenters, funext hsame]

/-- A round of the adjusting loop leaves one segmenter less to process. -/
theorem adjustRound_lt (hs : u.Sound) {j : SegId} (hc : (u.getCurrent std).1 = some j)
    (ha : ((u.getCurrent std).2.adjustCurrent j).1 = true) :
    ((u.getCurrent std).2.adjustCurrent j).2.Sound ∧
      ((u.getCurrent std).2.adjustCurrent j).2.segmenters.countP ((u.getCurrent std).2.adjustCurrent j).2.unprocessed <
        u.segmenters.countP u.unprocessed := by
  obtain ⟨l, hl, -, -⟩ := getCurrent_segmenters std u
  have hsound : (u.getCurrent std).2.Sound := hl ▸ hs
  have hcount := countP_getCurrent_le std u
  have hheap : (u.getCurrent std).2.unprocessed = u.unprocessed := by rw [hl]; rfl
  have hcur := getCurrent_current hs hc
  have hlt := countP_adjustCurrent_lt hcur.listed hcur.processed ha
  rw [hheap] at hlt
  exact ⟨hsound.adjusted (adjusted _ j), hlt.trans_le hcount⟩

/-- The adjusting loop ends within the number of unprocessed segmenters in the list, and the first
of them that is left is the one that its last iteration has adjusted. -/
theorem adjustLoop_last {ok : SegId → SegmentedUploader → Bool} (n : ℕ) (hs : u.Sound)
    (hn : u.segmenters.countP u.unprocessed < n) (hm : AdjustLoopMeets std ok n u = true)
    (hfirst : (adjustLoop std n u).firstUnprocessed = some s) :
    ∃ w, ok s w = true ∧ (w.adjustCurrent s).1 = false ∧ adjustLoop std n u = (w.adjustCurrent s).2 := by
  induction n generalizing u with
  | zero => omega
  | succ n ih =>
    have hfst := getCurrent_fst std hs
    cases hc : (u.getCurrent std).1 with
    | none =>
      rw [adjustLoop_succ_none n hc, ← hfst, hc] at hfirst
      simp at hfirst
    | some j =>
      obtain ⟨hok, hrest⟩ := adjustLoopMeets_succ_some n hc hm
      rw [adjustLoop_succ_some n hc] at hfirst ⊢
      split at hfirst
      · rename_i ha
        rw [if_pos ha]
        obtain ⟨hsound, hlt⟩ := adjustRound_lt hs hc ha
        exact ih hsound (by omega) (hrest ha) hfirst
      · rename_i ha
        have ha : ((u.getCurrent std).2.adjustCurrent j).1 = false := by simpa using ha
        rw [adjustCurrent_firstUnprocessed ha, ← hfst, hc] at hfirst
        obtain rfl := Option.some.inj hfirst
        exact ⟨_, hok, ha, by simp [ha]⟩

end CloudAgent.Agent.SegmentedUploader
