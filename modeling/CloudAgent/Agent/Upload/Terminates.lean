import CloudAgent.Agent.Upload.Active
import CloudAgent.Agent.Upload.Adjusting
import Mathlib.Algebra.BigOperators.Group.Finset.Basic
import Mathlib.Algebra.Order.BigOperators.Group.Finset
import Mathlib.Tactic.Linarith

/-! Segment processing terminates. Nothing takes a closed segmenter further away from its last time,
and every tick that finds a current segmenter brings that one nearer. -/
namespace CloudAgent.Agent
open Utils Transition

namespace Segmenter

/-- Nothing is left to do for the segmenter. -/
def settled (x : Segmenter) : Bool := x.processed || x.canceled

/-- A bound on the number of ticks that still work on the segmenter. -/
def remaining (x : Segmenter) : ℕ := if x.settled then 0 else (x.lastTime - x.curSegStart).toNat + 1

/-- A closed segmenter as `event_state::start` initialises it. -/
def Built (x : Segmenter) : Prop :=
  x.isOpen = false ∧ 0 ≤ x.pre ∧ 0 ≤ x.post ∧ 0 < x.step ∧ x.curSegStart = x.firstTime ∧
    x.curSegStop = min (x.beginTime + x.step) x.lastTime

instance (x : Segmenter) : Decidable x.Built := by unfold Built; infer_instance

theorem eventStateStart_built (time timeEnd : Time) (pre post step startDelay : Duration)
    (segProvider uploadToken : String) (now : Time) (ht : time ≠ Time.null) (hpre : 0 ≤ pre)
    (hpost : 0 ≤ post) (hstep : 0 < step) :
    (eventStateStart false time timeEnd pre post step startDelay segProvider uploadToken now).Built := by
  by_cases h : timeEnd = Time.null
  · simp [Built, isOpen, eventStateStart, firstTime, lastTime, h, ht, hpre, hpost, hstep]
  · simp [Built, isOpen, eventStateStart, firstTime, lastTime, h, hpre, hpost, hstep]

/-- The window stands at the last time already, or it is not empty. -/
def WindowOpen (x : Segmenter) : Prop := x.lastTime ≤ x.curSegStart ∨ x.curSegStart < x.curSegStop

/-- The segmenter is closed, and its window is not empty unless it is past the last time. -/
structure Steady (x : Segmenter) : Prop where
  closed : x.isOpen = false
  step : 0 < x.step
  window : x.WindowOpen

variable {x y : Segmenter}

theorem Built.steady (h : x.Built) : x.Steady := by
  obtain ⟨hclosed, hpre, -, hstep, hstart, hstop⟩ := h
  refine ⟨hclosed, hstep, ?_⟩
  unfold WindowOpen
  rcases le_or_gt x.lastTime x.curSegStart with hlast | hlast
  · exact .inl hlast
  · rw [hstop, hstart]
    refine .inr (lt_min ?_ (hstart ▸ hlast))
    simp only [firstTime]
    linarith

theorem remaining_eq_zero_iff : x.remaining = 0 ↔ x.settled = true := by
  unfold remaining
  split <;> simp_all

theorem remaining_of_processed (h : x.processed = true) : x.remaining = 0 :=
  remaining_eq_zero_iff.mpr (by rw [settled, h, Bool.true_or])

/-- Only a segmenter that moves forward, or is settled, comes nearer. -/
theorem remaining_le (hsettled : x.settled = true → y.settled = true) (hlast : y.lastTime ≤ x.lastTime)
    (hstart : x.curSegStart ≤ y.curSegStart) : y.remaining ≤ x.remaining := by
  unfold remaining
  split
  · exact Nat.zero_le _
  · rename_i hy
    rw [if_neg fun hx => hy (hsettled hx)]
    have hdist : y.lastTime - y.curSegStart ≤ x.lastTime - x.curSegStart := by linarith
    exact Nat.succ_le_succ (Int.toNat_le_toNat hdist)

theorem remaining_lt (hx : x.settled = false) (hlast : y.lastTime = x.lastTime)
    (hbefore : x.curSegStart < x.lastTime) (hstart : x.curSegStart < y.curSegStart) :
    y.remaining < x.remaining := by
  unfold remaining
  rw [hx, hlast]
  have hdist : (x.lastTime - y.curSegStart).toNat < (x.lastTime - x.curSegStart).toNat :=
    (Int.toNat_lt_toNat (by linarith)).mpr (by linarith)
  split
  · exact Nat.succ_pos _
  · exact Nat.succ_lt_succ hdist

theorem renewWindow_open (h : 0 < x.step) : x.renewWindow.WindowOpen := by
  unfold renewWindow
  split
  · exact .inr (lt_add_of_pos_right _ h)
  · rename_i hn
    simp only [covered, decide_eq_true_eq, not_le] at hn
    exact .inr hn

/-- A slice that intersects the window moves its start forward, or leaves something of it. -/
theorem cutSlice_nearer (x : Segmenter) {slice : Period} (hend : x.curSegStart < slice.endTime) :
    let x' := (x.cutSlice slice).renewWindow
    x.curSegStart < x'.curSegStart ∨
      (x'.curSegStart = x.curSegStart ∧ (x.cutSlice slice).covered = false) := by
  obtain ⟨d, hrenew⟩ := renewWindow_window (x.cutSlice slice)
  simp only [hrenew, withWindow_curSegStart]
  unfold cutSlice
  split
  · exact .inl hend
  · rename_i hbegin
    exact .inr ⟨rfl, by simpa [covered] using hbegin⟩

/-- Slices of the cloud take the window forward. Where they cover it, the segmenter is past its last
time, or it has come nearer to it. -/
theorem checkSlices_nearer (x : Segmenter) (upload : Bool) (slices : List Period)
    (hends : ∀ p ∈ slices, p.endTime ≠ Time.null) (hstep : 0 < x.step) (hopen : x.WindowOpen) :
    let c := x.checkSlices upload slices
    x.curSegStart ≤ c.window.curSegStart ∧ c.window.WindowOpen ∧ (c.alreadyOnCloud = false →
      (x.curSegStart ≤ x.lastTime → c.window.curSegStart ≤ x.lastTime) ∧
      (upload = true → c.uploadCurrentWindow = false →
        x.curSegStart < c.window.curSegStart ∧ c.window.curSegStart ≤ x.lastTime)) := by
  induction slices generalizing x upload with
  | nil => exact ⟨le_rfl, hopen, fun _ => ⟨id, fun h h' => by simp [h] at h'⟩⟩
  | cons slice rest ih =>
    have hrest : ∀ p ∈ rest, p.endTime ≠ Time.null := fun p hp => hends p (List.mem_cons_of_mem _ hp)
    simp only [checkSlices]
    split
    · rename_i hi
      have hmeet := (Period.intersects_make_iff (hends slice List.mem_cons_self)).mp hi
      obtain ⟨a, b, hcut⟩ := cutSlice_window x slice
      obtain ⟨d, hrenew⟩ := renewWindow_window (x.cutSlice slice)
      have hlast : (x.cutSlice slice).renewWindow.lastTime = x.lastTime := by
        rw [hrenew, hcut]
        rfl
      have hstep' : 0 < (x.cutSlice slice).renewWindow.step := by rwa [hrenew, hcut]
      have hopen' := renewWindow_open (x := x.cutSlice slice) (by rwa [hcut])
      have hmoved := cutSlice_nearer x hmeet.2
      have hforward := x.curSegStart_le_cutSlice hmeet.2
      split
      · exact ⟨hforward, hopen', fun h => by simp at h⟩
      · rename_i hpast
        obtain ⟨h1, h2, h3⟩ := ih _ (upload && !(x.cutSlice slice).covered) hrest hstep' hopen'
        refine ⟨hforward.trans h1, h2, fun hcloud => ?_⟩
        obtain ⟨h4, h5⟩ := h3 hcloud
        rw [hlast] at h4 h5 hpast
        have hinside := h4 (not_lt.mp hpast)
        refine ⟨fun _ => hinside, fun hup hnot => ⟨?_, hinside⟩⟩
        rcases hmoved with hmoved | ⟨hsame, hleft⟩
        · exact hmoved.trans_le h1
        · have hboth : (upload && !(x.cutSlice slice).covered) = true := by rw [hup, hleft]; rfl
          exact hsame ▸ (h5 hboth hnot).1
    · exact ih x upload hrest hstep hopen

end Segmenter

namespace SegmentedUploader

variable {std : StdSort} {env : TickEnv} {u v w : SegmentedUploader} {s : SegId} {x : Segmenter}

/-! ### Coming nearer -/

/-- Steady segmenters stay so, and none has more left to do. -/
def Nearer (u v : SegmentedUploader) : Prop :=
  ∀ s, (u.heap s).Steady → (v.heap s).Steady ∧ (v.heap s).remaining ≤ (u.heap s).remaining

theorem Nearer.refl (u : SegmentedUploader) : Nearer u u := fun _ h => ⟨h, le_rfl⟩

theorem Nearer.trans (h : Nearer u v) (h' : Nearer v w) : Nearer u w := fun s hs =>
  have hv := h s hs
  have hw := h' s hv.1
  ⟨hw.1, hw.2.trans hv.2⟩

theorem Nearer.setSeg (h : Nearer u v)
    (hx : (v.heap s).Steady → x.Steady ∧ x.remaining ≤ (v.heap s).remaining) : Nearer u (v.setSeg s x) := by
  intro j hj
  obtain ⟨hsteady, hle⟩ := h j hj
  simp only [setSeg_heap]
  split
  · rename_i hjs
    subst hjs
    exact ⟨(hx hsteady).1, (hx hsteady).2.trans hle⟩
  · exact ⟨hsteady, hle⟩

theorem Segmenter.settled_withReport {c : Bool} (t : String) (hc : x.canceled = true → c = true)
    (h : x.settled = true) : (x.withReport c t).settled = true := by
  simp only [Segmenter.settled, Bool.or_eq_true] at h ⊢
  exact h.imp_right hc

theorem Segmenter.remaining_withReport (x : Segmenter) {c : Bool} (t : String)
    (hc : x.canceled = true → c = true) : (x.withReport c t).remaining ≤ x.remaining :=
  Segmenter.remaining_le (Segmenter.settled_withReport t hc) le_rfl le_rfl

theorem Nearer.send (h : Nearer u v) (progress : ℕ) (s : SegId) :
    Nearer u (v.sendTimelineSynchronizationStatus progress s) := by
  intro j hj
  refine heap_send (P := fun x => x.Steady ∧ x.remaining ≤ (u.heap j).remaining) progress s j ?_ (h j hj)
  intro x c t hx hc _
  exact ⟨⟨hx.1.closed, hx.1.step, hx.1.window⟩, (Segmenter.remaining_withReport x t hc).trans hx.2⟩

theorem Nearer.setSeg_send (h : Nearer u v) (progress : ℕ)
    (hx : (v.heap s).Steady → x.Steady ∧ x.remaining ≤ (v.heap s).remaining) :
    Nearer u ((v.setSeg s x).sendTimelineSynchronizationStatus progress s) :=
  (h.setSeg hx).send progress s

/-- The provider's clip stops after the start of the window that is requested. -/
def clipAdvances (env : TickEnv) (u : SegmentedUploader) (s : SegId) : Bool :=
  !(requestClip env u s).valid || (u.heap s).curSegStart < (requestClip env u s).tpStop

/-- No segmenter is prolonged, and the clips take their windows forward. -/
def terminationConditions : Conditions where
  finalize u s stop := stop ≠ Time.null && stop ≤ (u.heap s).endTime
  window env phase s u := phase ≠ .step || clipAdvances env u s

theorem settled_eq_false (h : u.Current s) : (u.heap s).settled = false := by
  rw [Segmenter.settled, h.processed, h.canceled, Bool.or_self]

/-- A window that is not past the last time stops after its start. -/
theorem lt_clippedStop (h : (u.heap s).Steady) (hin : (u.heap s).curSegStart < (u.heap s).lastTime) :
    (u.heap s).curSegStart < (u.heap s).clippedStop := by
  have hlt := h.window.resolve_left (not_le.mpr hin)
  unfold Segmenter.clippedStop
  split
  · exact hin
  · exact hlt

/-- The next window starts where the requested one stops, or its start has moved with the clip. -/
theorem takenWindow_start (hclip : clipAdvances env u s = true) :
    (takenWindow env u s).curSegStart = (u.heap s).clippedStop ∨
      (u.heap s).curSegStart < (takenWindow env u s).curSegStart := by
  simp only [takenWindow, Segmenter.takeWindow_curSegStart, Segmenter.nextStart]
  split
  · rename_i hvalid
    split
    · exact .inl rfl
    · have hvalid : (requestClip env u s).valid = true := hvalid
      refine .inr ?_
      simpa only [clipAdvances, hvalid, Bool.not_true, Bool.false_or, decide_eq_true_eq] using hclip
  · exact .inl rfl

/-- Taking a window moves its start. -/
theorem takenWindow_nearer (h : (u.heap s).Steady) (hcur : u.Current s)
    (hin : (u.heap s).isOpen = false → (u.heap s).curSegStart < (u.heap s).lastTime)
    (hclip : clipAdvances env u s = true) :
    (takenWindow env u s).Steady ∧ (takenWindow env u s).remaining < (u.heap s).remaining := by
  have hin := hin h.closed
  have hstop := lt_clippedStop h hin
  have hstart : (u.heap s).curSegStart < (takenWindow env u s).curSegStart :=
    (takenWindow_start hclip).elim (fun h => hstop.trans_eq h.symm) id
  refine ⟨⟨h.closed, h.step, .inr (lt_add_of_pos_right _ h.step)⟩, ?_⟩
  exact Segmenter.remaining_lt (settled_eq_false hcur) rfl hin hstart

/-- A segmenter that is marked as processed has nothing left to do. -/
theorem processed_nearer (h : x.Steady) (f : Bool) (y : Segmenter) :
    (x.withState true f).Steady ∧ (x.withState true f).remaining ≤ y.remaining :=
  ⟨⟨h.closed, h.step, h.window⟩, (Segmenter.remaining_of_processed rfl).trans_le (Nat.zero_le _)⟩

theorem Nearer.adjusted (h : Nearer u v) (hw : Adjusted v s w) : Nearer u w := by
  have hmoved : ∀ q : Segmenter, (v.heap s).Steady →
      ((v.heap s).withWindow q.curSegStart (q.curSegStart + (v.heap s).step)).Steady := fun q hs =>
    ⟨hs.closed, hs.step, .inr (lt_add_of_pos_right _ hs.step)⟩
  cases hw with
  | same => exact h
  | moved q hq hproc hint hlt =>
    exact h.setSeg fun hs => ⟨hmoved q hs, Segmenter.remaining_le id le_rfl hlt.le⟩
  | outside q =>
    exact h.setSeg_send 100 fun hs => processed_nearer (hmoved q hs) true _

theorem cloudSlices_nearer {a b : Time} {upload onCloud : Bool} (hs : (u.heap s).Steady)
    (hcloud : (u.heap s).checkSlices true (cloudSlices std env u s) =
      ⟨(u.heap s).withWindow a b, upload, onCloud⟩) :
    (u.heap s).curSegStart ≤ a ∧ ((u.heap s).withWindow a b).Steady ∧
      (onCloud = false → upload = false → (u.heap s).curSegStart < a ∧ a ≤ (u.heap s).lastTime) := by
  obtain ⟨h1, h2, h3⟩ := (u.heap s).checkSlices_nearer true (cloudSlices std env u s)
    (timelineSlices_endTime_ne_null std _) hs.step hs.window
  rw [hcloud] at h1 h2 h3
  exact ⟨h1, ⟨hs.closed, hs.step, h2⟩, fun honCloud hup => (h3 honCloud).2 rfl hup⟩

theorem Nearer.checked {upload : Bool} (h : Nearer u v) (hw : Checked std env v s upload w) : Nearer u w := by
  cases hw with
  | moved a b upload hcloud =>
    refine h.setSeg fun hs => ?_
    obtain ⟨hforward, hsteady, -⟩ := cloudSlices_nearer hs hcloud
    exact ⟨hsteady, Segmenter.remaining_le id le_rfl hforward⟩
  | onCloudUnplanned a b hcloud =>
    exact h.setSeg_send 100 fun hs => processed_nearer (cloudSlices_nearer hs hcloud).2.1 true _
  | onCloudPlanned a b hcloud =>
    exact h.setSeg fun hs => processed_nearer (cloudSlices_nearer hs hcloud).2.1 true _

theorem Nearer.stepped (h : Nearer u v) (hcur : v.Current s) (hclip : clipAdvances env v s = true)
    (hw : Stepped env v s w) : Nearer u w := by
  cases hw with
  | outsideUnplanned hclosed hpast =>
    exact h.setSeg_send 0 fun hs =>
      processed_nearer (x := requestWindow v s) ⟨hclosed, hs.step, .inl hpast⟩ true _
  | outsidePlanned hclosed hpast =>
    exact h.setSeg fun hs => processed_nearer (x := requestWindow v s) ⟨hclosed, hs.step, .inl hpast⟩ _ _
  | empty hin hempty =>
    exact h.setSeg fun hs => ⟨⟨hs.closed, hs.step, .inr (lt_add_of_pos_right _ hs.step)⟩,
      Segmenter.remaining_le id le_rfl le_rfl⟩
  | exported hin =>
    have hset : Nearer u (v.setSeg s (takenWindow env v s).countPlanned) := h.setSeg fun hs => by
      obtain ⟨hsteady, hlt⟩ := takenWindow_nearer hs hcur hin hclip
      exact ⟨⟨hsteady.closed, hsteady.step, hsteady.window⟩, hlt.le⟩
    exact hset
  | finalUnplanned hin =>
    exact h.setSeg_send 0 fun hs => processed_nearer (takenWindow_nearer hs hcur hin hclip).1 true _
  | skipped hin =>
    exact h.setSeg fun hs => (takenWindow_nearer hs hcur hin hclip).imp_right le_of_lt

theorem nearer_tick (std : StdSort) (env : TickEnv) (u : SegmentedUploader) :
    TickInvariant std env (terminationConditions.window env) (Nearer u) where
  list _ _ h _ := h
  adjust _ _ _ h _ _ hw := h.adjusted hw
  check _ _ _ _ h _ _ hw := h.checked hw
  step _ _ _ h hcur hok hw := h.stepped hcur (by simpa [terminationConditions] using hok) hw

theorem nearer_step (std : StdSort) (u : SegmentedUploader) :
    StepInvariant std terminationConditions (Nearer u) where
  service _ _ _ _ h := h
  enqueue _ _ _ h _ _ := h
  finalize v s stop h hok := by
    simp only [terminationConditions, Bool.and_eq_true, decide_eq_true_eq, ne_eq] at hok
    refine h.setSeg fun hs => ?_
    have hlast : stop + (v.heap s).post ≤ (v.heap s).lastTime := add_le_add_left hok.2 _
    exact ⟨⟨decide_eq_false hok.1, hs.step, hs.window.imp_left hlast.trans⟩,
      Segmenter.remaining_le id hlast le_rfl⟩
  cancel v s h _ _ _ := h.setSeg_send 100 fun hs =>
    ⟨⟨hs.closed, hs.step, hs.window⟩, (Segmenter.remaining_of_processed rfl).trans_le (Nat.zero_le _)⟩
  canceledTicket _ _ h := h
  tick env := nearer_tick std env u
  report v _ r ok h _ _ := by
    have hv : Nearer u (v.onFinished r.segment ok) := by
      rw [onFinished_eq]
      exact h.setSeg_send _ fun hs =>
        ⟨⟨hs.closed, hs.step, hs.window⟩, Segmenter.remaining_le id le_rfl le_rfl⟩
    exact hv

/-! ### A tick brings its current segmenter nearer -/

theorem remaining_pos (h : u.Current s) : 0 < (u.heap s).remaining := by
  rw [Nat.pos_iff_ne_zero, Ne, Segmenter.remaining_eq_zero_iff, settled_eq_false h]
  exact Bool.false_ne_true

theorem remaining_processed_send (progress : ℕ) (h : x.processed = true) :
    (((u.setSeg s x).sendTimelineSynchronizationStatus progress s).heap s).remaining = 0 :=
  heap_send (P := fun y => y.remaining = 0) progress s s
    (fun y _ t hy hc _ => Nat.le_zero.mp ((Segmenter.remaining_withReport y t hc).trans_eq hy))
    (by rw [setSeg_heap_self]; exact Segmenter.remaining_of_processed h)

theorem stepped_lt (hs : (u.heap s).Steady) (hcur : u.Current s) (hclip : clipAdvances env u s = true)
    (hv : Stepped env u s v) : (v.heap s).remaining < (u.heap s).remaining := by
  have hpos := remaining_pos hcur
  cases hv with
  | outsideUnplanned => rwa [remaining_processed_send 0 rfl]
  | outsidePlanned =>
    rw [setSeg_heap_self, Segmenter.remaining_of_processed rfl]
    exact hpos
  | empty hin hempty => exact absurd hempty (lt_clippedStop hs (hin hs.closed)).ne
  | exported hin =>
    have hheap : ((u.setSeg s (takenWindow env u s).countPlanned).heap s).remaining =
        (takenWindow env u s).remaining := by rw [setSeg_heap_self]; rfl
    exact hheap.trans_lt (takenWindow_nearer hs hcur hin hclip).2
  | finalUnplanned => rwa [remaining_processed_send 0 rfl]
  | skipped hin =>
    rw [setSeg_heap_self]
    exact (takenWindow_nearer hs hcur hin hclip).2

theorem processCurrent_lt (hs : (u.heap s).Steady) (hcur : u.Current s)
    (hclip : (u.checkClipSegment std env s).1 = true →
      clipAdvances env (u.checkClipSegment std env s).2 s = true) :
    ((u.processCurrent std env s).heap s).remaining < (u.heap s).remaining := by
  have hpos := remaining_pos hcur
  have hchk := checked std env u s
  have hnear := (Nearer.refl u).checked hchk s hs
  unfold SegmentedUploader.processCurrent
  cases hup : (u.checkClipSegment std env s).1 with
  | true =>
    have hcur' := hcur.upload hup
    have hlt := stepped_lt hnear.1 hcur' (hclip hup) (stepped env hcur')
    have hpair : u.checkClipSegment std env s = (true, (u.checkClipSegment std env s).2) := by rw [← hup]
    rw [hpair]
    exact hlt.trans_le hnear.2
  | false =>
    have hpair : u.checkClipSegment std env s = (false, (u.checkClipSegment std env s).2) := by rw [← hup]
    rw [hpair]
    rw [hup] at hchk
    generalize (u.checkClipSegment std env s).2 = v at hchk
    cases hchk with
    | moved a b _ hcloud =>
      obtain ⟨-, -, hmoved⟩ := cloudSlices_nearer hs hcloud
      obtain ⟨hlt, hle⟩ := hmoved rfl rfl
      rw [setSeg_heap_self]
      exact Segmenter.remaining_lt (settled_eq_false hcur) rfl (hlt.trans_le hle) hlt
    | onCloudUnplanned => exact (remaining_processed_send 100 rfl).trans_lt hpos
    | onCloudPlanned =>
      rw [setSeg_heap_self, Segmenter.remaining_of_processed rfl]
      exact hpos

/-! ### Nothing leaves the list before it is settled -/

/-- Every segmenter of the list stays there as long as it is not settled. -/
def Keeps (u v : SegmentedUploader) : Prop :=
  ∀ s, s ∈ u.segmenters ∨ (u.heap s).settled = true → s ∈ v.segmenters ∨ (v.heap s).settled = true

theorem Keeps.refl (u : SegmentedUploader) : Keeps u u := fun _ => id

theorem Keeps.trans (h : Keeps u v) (h' : Keeps v w) : Keeps u w := fun s hs => h' s (h s hs)

theorem Keeps.setSeg (h : Keeps u v) (hx : (v.heap s).settled = true → x.settled = true) :
    Keeps u (v.setSeg s x) := by
  intro j hj
  refine (h j hj).imp_right fun hsettled => ?_
  simp only [setSeg_heap]
  split
  · rename_i hjs
    exact hx (hjs ▸ hsettled)
  · exact hsettled

theorem Keeps.send (h : Keeps u v) (progress : ℕ) (s : SegId) :
    Keeps u (v.sendTimelineSynchronizationStatus progress s) := by
  intro j hj
  rw [send_segmenters]
  apply (h j hj).imp_right
  exact heap_send (P := fun x => x.settled = true) progress s j
    fun x c t hx hc _ => Segmenter.settled_withReport t hc hx

theorem Keeps.setSeg_send (h : Keeps u v) (progress : ℕ) (hx : (v.heap s).settled = true → x.settled = true) :
    Keeps u ((v.setSeg s x).sendTimelineSynchronizationStatus progress s) := (h.setSeg hx).send progress s

theorem keeps_getCurrent (std : StdSort) (hs : u.Sound) : Keeps u (u.getCurrent std).2 := by
  obtain ⟨l, hv, -, hkeep⟩ := getCurrent_segmenters std u
  rw [hv]
  rintro s (hlisted | hsettled)
  · by_cases hsettled : (u.heap s).settled = true
    · exact .inr hsettled
    · simp only [Segmenter.settled, Bool.or_eq_true, not_or, Bool.not_eq_true] at hsettled
      refine .inl (hkeep s hlisted hsettled.2 ?_)
      by_contra hf
      simp [hs s (by simpa using hf)] at hsettled
  · exact .inr hsettled

/-- While a segmenter is current, whatever happens to its window does not matter. -/
theorem Keeps.current (h : Keeps u v) (hcur : v.Current s) : Keeps u (v.setSeg s x) :=
  h.setSeg fun hsettled => absurd hsettled (by rw [settled_eq_false hcur]; exact Bool.false_ne_true)

theorem Keeps.adjusted (h : Keeps u v) (hcur : v.Current s) (hw : Adjusted v s w) : Keeps u w := by
  cases hw with
  | same => exact h
  | moved => exact h.current hcur
  | outside => exact (h.current hcur).send 100 s

theorem Keeps.checked {upload : Bool} (h : Keeps u v) (hcur : v.Current s)
    (hw : Checked std env v s upload w) : Keeps u w := by
  cases hw with
  | moved => exact h.current hcur
  | onCloudUnplanned => exact (h.current hcur).send 100 s
  | onCloudPlanned => exact h.current hcur

theorem Keeps.stepped (h : Keeps u v) (hcur : v.Current s) (hw : Stepped env v s w) : Keeps u w := by
  cases hw with
  | outsideUnplanned => exact (h.current hcur).send 0 s
  | outsidePlanned => exact h.current hcur
  | empty => exact h.current hcur
  | exported =>
    have hset : Keeps u (v.setSeg s (takenWindow env v s).countPlanned) := h.current hcur
    exact hset
  | finalUnplanned => exact (h.current hcur).send 0 s
  | skipped => exact h.current hcur

theorem keeps_adjustLoop (std : StdSort) (n : ℕ) (hs : u.Sound) : Keeps u (adjustLoop std n u) := by
  induction n generalizing u with
  | zero => exact Keeps.refl u
  | succ n ih =>
    have hget := keeps_getCurrent std hs
    cases hc : (u.getCurrent std).1 with
    | none =>
      rw [adjustLoop_succ_none n hc]
      exact hget
    | some s =>
      obtain ⟨l, hl, -, -⟩ := getCurrent_segmenters std u
      have hsound : (u.getCurrent std).2.Sound := hl ▸ hs
      have hadj := adjusted (u.getCurrent std).2 s
      have hkeep := hget.adjusted (getCurrent_current hs hc) hadj
      rw [adjustLoop_succ_some n hc]
      split
      · exact hkeep.trans (ih (hsound.adjusted hadj))
      · exact hkeep

theorem keeps_processCurrent (hcur : u.Current s) : Keeps u (u.processCurrent std env s) := by
  have hkeep := (Keeps.refl u).checked hcur (checked std env u s)
  unfold SegmentedUploader.processCurrent
  split
  · rename_i v hu
    have hup : (u.checkClipSegment std env s).1 = true := by rw [hu]
    have hcur' := hcur.upload hup
    rw [hu] at hkeep hcur'
    exact hkeep.stepped hcur' (stepped env hcur')
  · rename_i v hu
    rw [hu] at hkeep
    exact hkeep

theorem listed_tick (std : StdSort) (env : TickEnv) (ok : Phase → SegId → SegmentedUploader → Bool)
    (u : SegmentedUploader) : TickInvariant std env ok fun v => ∀ s ∈ v.segmenters, s ∈ u.segmenters where
  list _ _ h hl s hs := h s (hl s hs)
  adjust _ _ _ h _ _ hv := by
    cases hv with
    | same => exact h
    | moved => exact h
    | outside => simpa using h
  check _ _ _ _ h _ _ hv := by
    cases hv with
    | moved => exact h
    | onCloudUnplanned => simpa using h
    | onCloudPlanned => exact h
  step _ _ _ h _ _ hv := by
    cases hv with
    | outsideUnplanned => simpa using h
    | outsidePlanned => exact h
    | empty => exact h
    | exported => exact h
    | finalUnplanned => simpa using h
    | skipped => exact h

theorem keeps_tick (hs : u.Sound) : Keeps u (u.tick std env).1 := by
  obtain ⟨hsound, -⟩ := (listed_tick std env (fun _ _ _ => true) u).adjustLoop (u.segmenters.length + 1) hs
    (fun _ => id) (adjustLoopMeets_true _ u)
  have hkeep := keeps_adjustLoop std (u.segmenters.length + 1) hs
  simp only [SegmentedUploader.tick]
  generalize adjustLoop std (u.segmenters.length + 1) u = v at *
  have hget := hkeep.trans (keeps_getCurrent std hsound)
  split
  · exact hkeep
  · split
    · rename_i w hw
      rw [hw] at hget
      exact hget
    · rename_i s w hw
      have hcur : (v.getCurrent std).2.Current s := getCurrent_current hsound (by rw [hw])
      rw [hw] at hget hcur
      exact hget.trans (keeps_processCurrent hcur)

/-- A tick brings a listed segmenter nearer, unless they all are settled. -/
theorem tick_progress (std : StdSort) (env : TickEnv) (hs : u.Sound)
    (hsteady : ∀ s ∈ u.segmenters, (u.heap s).Steady)
    (hm : TickMeets std env (terminationConditions.window env) u = true) :
    (∃ s ∈ u.segmenters, ((u.tick std env).1.heap s).remaining < (u.heap s).remaining) ∨
      ∀ s ∈ u.segmenters, ((u.tick std env).1.heap s).settled = true := by
  obtain ⟨hadj, hrest⟩ := tickMeets_iff.mp hm
  obtain ⟨hsound, hnear⟩ := (nearer_tick std env u).adjustLoop _ hs (Nearer.refl u) hadj
  obtain ⟨-, hlisted⟩ := (listed_tick std env (terminationConditions.window env) u).adjustLoop _ hs
    (fun _ => id) hadj
  have hkeep := keeps_adjustLoop std (u.segmenters.length + 1) hs
  have hrest := hrest _ rfl
  simp only [SegmentedUploader.tick]
  generalize adjustLoop std (u.segmenters.length + 1) u = v at *
  obtain ⟨l, hl, hsub, -⟩ := getCurrent_segmenters std v
  split
  · rename_i hempty
    refine .inr fun s hs => (hkeep s (.inl hs)).resolve_left fun hv => ?_
    rw [List.isEmpty_iff.mp hempty] at hv
    exact absurd hv List.not_mem_nil
  · split
    · rename_i w hw
      -- nothing in the list is left to be processed
      have hget := hkeep.trans (keeps_getCurrent std hsound)
      have hnone := getCurrent_fst std hsound
      rw [hw] at hnone hget
      refine .inr fun s hs => (hget s (.inl hs)).elim (fun hlisted => ?_) id
      have hproc : (w.heap s).processed = true := by
        simpa [unprocessed] using List.find?_eq_none.mp hnone.symm s hlisted
      rw [Segmenter.settled, hproc, Bool.true_or]
    · rename_i s w hw
      have hcur : (v.getCurrent std).2.Current s := getCurrent_current hsound (by rw [hw])
      obtain ⟨-, -, hclip⟩ := hrest s (by rw [hw])
      rw [hw] at hcur hclip hl
      simp only at hl
      have hin : s ∈ l := by
        have := hcur.listed
        rwa [hl] at this
      have hmem : s ∈ u.segmenters := hlisted s (hsub s hin)
      have hheap : w.heap s = v.heap s := by rw [hl]
      obtain ⟨hws, hle⟩ := hnear s (hsteady s hmem)
      rw [← hheap] at hws hle
      have hlt := processCurrent_lt hws hcur fun hup => by simpa [terminationConditions] using hclip hup
      exact .inl ⟨s, hmem, hlt.trans_le hle⟩

theorem keeps_cancelFrom (ticket : String) (l : List SegId) (u : SegmentedUploader) :
    Keeps u (cancelFrom ticket l u) := by
  induction l generalizing u with
  | nil => exact Keeps.refl u
  | cons s l ih =>
    simp only [cancelFrom]
    refine Keeps.trans ?_ (ih _)
    split
    · have hsettled : (u.heap s).settled = true → ((((u.heap s).withState true true).withReport true
          (u.heap s).ticket)).settled = true := fun _ => rfl
      have hset : Keeps u (u.setSeg s (((u.heap s).withState true true).withReport true
          (u.heap s).ticket)) := (Keeps.refl u).setSeg hsettled
      unfold cancelSegmenter
      simp only [setSeg_scheduledSyncStarts, setSeg_http]
      split
      · refine Keeps.send ?_ 100 s
        exact fun j hj => hset j hj
      · exact hset.send 100 s
    · exact Keeps.refl u

theorem step_keeps {a : Action} (hs : u.Sound) (hv : step std u a = some v) : Keeps u v := by
  cases a with
  | scheduleUpload s =>
    obtain rfl := Option.some.inj hv
    exact Keeps.refl u
  | finalizeUpload s stop =>
    obtain rfl := Option.some.inj hv
    exact Keeps.refl u
  | cancelUpload ticket =>
    obtain rfl := Option.some.inj hv
    exact Keeps.refl u
  | fire i env =>
    obtain ⟨⟨cb, http⟩, hf, rfl⟩ := Option.map_eq_some_iff.mp hv
    cases cb with
    | asyncLoop =>
      have htick : Keeps { u with http } (({ u with http } : SegmentedUploader).tick std env).1 := keeps_tick hs
      exact htick
    | segmenterEnqueue s =>
      intro j hj
      exact hj.imp_left fun hj => by simp [runCb, segmenterEnqueue, hj]
    | segmenterFinalize s stop =>
      have hset : Keeps ({ u with http } : SegmentedUploader) (u.segmenterFinalize s stop) :=
        (Keeps.refl u).setSeg id
      exact hset
    | segmenterCancelByTicket ticket =>
      simp only [runCb, segmenterCancelByTicket]
      split
      · exact Keeps.refl u
      · exact keeps_cancelFrom ticket u.segmenters { u with http }
  | reportFinished k ok =>
    obtain ⟨r, hr, rfl⟩ := Option.map_eq_some_iff.mp hv
    have hset : Keeps u (u.onFinished r.segment ok) := by
      rw [onFinished_eq]
      exact (Keeps.refl u).setSeg_send _ id
    exact hset

/-! ### The adjusting loop -/

/-- `while (__adjust_segmenters_current_to_finished());` ends, and leaves the second state. -/
inductive AdjustingEnds (std : StdSort) : SegmentedUploader → SegmentedUploader → Prop
  | done {u v : SegmentedUploader} (h : u.adjustSegmentersCurrentToFinished std = (false, v)) :
      AdjustingEnds std u v
  | again {u v w : SegmentedUploader} (h : u.adjustSegmentersCurrentToFinished std = (true, w))
      (hrest : AdjustingEnds std w v) : AdjustingEnds std u v

theorem adjustingEnds (std : StdSort) (n : ℕ) (hs : u.Sound) (hn : u.segmenters.countP u.unprocessed < n) :
    AdjustingEnds std u (adjustLoop std n u) := by
  induction n generalizing u with
  | zero => omega
  | succ n ih =>
    cases hc : (u.getCurrent std).1 with
    | none =>
      rw [adjustLoop_succ_none n hc]
      refine .done ?_
      rcases hget : u.getCurrent std with ⟨c, w⟩
      obtain rfl : c = none := by rw [← hc, hget]
      simp only [adjustSegmentersCurrentToFinished, hget]
    | some s =>
      have hadjust : u.adjustSegmentersCurrentToFinished std = (u.getCurrent std).2.adjustCurrent s := by
        rcases hget : u.getCurrent std with ⟨c, w⟩
        obtain rfl : c = some s := by rw [← hc, hget]
        simp only [adjustSegmentersCurrentToFinished, hget]
      rw [adjustLoop_succ_some n hc]
      cases ha : ((u.getCurrent std).2.adjustCurrent s).1 with
      | false =>
        rw [if_neg Bool.false_ne_true]
        exact .done (by rw [hadjust, ← ha])
      | true =>
        obtain ⟨hsound, hlt⟩ := adjustRound_lt hs hc ha
        rw [if_pos rfl]
        exact .again (by rw [hadjust, ← ha]) (ih hsound (by omega))

/-! ### Runs -/

/-- The action is a tick of the loop. -/
def ticks (u : SegmentedUploader) : Action → Bool
  | .fire t _ => u.http.pendingCb t = some .asyncLoop
  | _ => false

/-- What a run of the segmenters in `F` keeps: they are steady, nobody else is at work, and those
that were listed in `u₀` are still there unless they are settled. -/
structure AtWork (F : Finset SegId) (u₀ u : SegmentedUploader) : Prop where
  sound : u.Sound
  active : OnActive (fun s _ => s ∈ F) (fun _ => True) 0 u
  steady : ∀ s ∈ F, (u.heap s).Steady
  listed : ∀ s ∈ u₀.segmenters, s ∈ F
  keeps : Keeps u₀ u

/-- The number of ticks that are still needed, at most. -/
def totalRemaining (F : Finset SegId) (u : SegmentedUploader) : ℕ := ∑ s ∈ F, (u.heap s).remaining

variable {F : Finset SegId} {u₀ : SegmentedUploader} {a : Action}

/-- The conditions of a run of the segmenters in `F`. -/
def WorkMeets (std : StdSort) (F : Finset SegId) (u : SegmentedUploader) (a : Action) : Prop :=
  terminationConditions.Admits std u a ∧ ScheduleMeets (fun s _ => s ∈ F) u a

instance (std : StdSort) (F : Finset SegId) (u : SegmentedUploader) : ∀ a, Decidable (WorkMeets std F u a)
  | .scheduleUpload _ => inferInstanceAs (Decidable (_ ∧ _ ∈ F))
  | .finalizeUpload _ _ => inferInstanceAs (Decidable (_ ∧ True))
  | .cancelUpload _ => inferInstanceAs (Decidable (_ ∧ True))
  | .fire _ _ => inferInstanceAs (Decidable (_ ∧ True))
  | .reportFinished _ _ => inferInstanceAs (Decidable (_ ∧ True))

theorem AtWork.step (h : AtWork F u₀ u) (hok : WorkMeets std F u a)
    (hv : SegmentedUploader.step std u a = some v) : AtWork F u₀ v ∧ Nearer u v := by
  have hnear := (nearer_step std u).step a h.sound (Nearer.refl u) hok.1 hv
  have rule : ActiveRule (fun s _ => s ∈ F) (fun _ => True) := ⟨fun _ _ _ h _ => h, fun _ _ _ _ _ _ => trivial⟩
  exact ⟨⟨h.sound.step hv, h.active.step rule h.sound hok.2 hv, fun s hs => (hnear s (h.steady s hs)).1,
    h.listed, h.keeps.trans (step_keeps h.sound hv)⟩, hnear⟩

theorem Nearer.settled (h : Nearer u v) (hs : (u.heap s).Steady) (hsettled : (u.heap s).settled = true) :
    (v.heap s).settled = true := by
  have hle := (h s hs).2
  rw [Segmenter.remaining_eq_zero_iff.mpr hsettled] at hle
  exact Segmenter.remaining_eq_zero_iff.mp (Nat.le_zero.mp hle)

theorem Nearer.totalRemaining_le (h : Nearer u v) (hs : ∀ s ∈ F, (u.heap s).Steady) :
    totalRemaining F v ≤ totalRemaining F u := Finset.sum_le_sum fun s hF => (h s (hs s hF)).2

/-- A tick that does not find everything settled takes one off the total. -/
theorem AtWork.tick (h : AtWork F u₀ u) (hok : WorkMeets std F u a)
    (hv : SegmentedUploader.step std u a = some v) (ht : ticks u a = true) :
    (∀ s ∈ u₀.segmenters, (v.heap s).settled = true) ∨ totalRemaining F v < totalRemaining F u := by
  cases a with
  | fire i env =>
    obtain ⟨hwork, hnear⟩ := h.step hok hv
    have hcb : u.http.pendingCb i = some .asyncLoop := of_decide_eq_true ht
    obtain ⟨⟨cb, http⟩, hf, rfl⟩ := Option.map_eq_some_iff.mp hv
    obtain ⟨cb', hcb', hpair⟩ := Option.map_eq_some_iff.mp hf
    obtain ⟨rfl, -⟩ := Prod.mk.inj hpair
    obtain rfl : cb' = .asyncLoop := Option.some.inj (hcb'.symm.trans hcb)
    have hlisted : ∀ s ∈ u.segmenters, s ∈ F := fun s hs => h.active.seg s (.inl hs)
    have hu : ({ u with http } : SegmentedUploader).Sound := h.sound
    obtain ⟨s, hs, hlt⟩ | hsettled := tick_progress std env hu
      (fun s hs => h.steady s (hlisted s hs)) (hok.1 _ hf)
    · exact .inr (Finset.sum_lt_sum (fun j hj => (hnear j (h.steady j hj)).2) ⟨s, hlisted s hs, hlt⟩)
    · refine .inl fun s hs => ?_
      rcases h.keeps s (.inl hs) with hlisted | hdone
      · exact hsettled s hlisted
      · exact hnear.settled (h.steady s (h.listed s hs)) hdone
  | scheduleUpload => simp [ticks] at ht
  | finalizeUpload => simp [ticks] at ht
  | cancelUpload => simp [ticks] at ht
  | reportFinished => simp [ticks] at ht

theorem atWork_start (camId : ℤ) (created : SegId → NewSegmenter) (hbuilt : ∀ s ∈ F, (created s).1.Built) :
    AtWork F (start camId created) (start camId created) := by
  refine ⟨sound_start camId created, ⟨fun s hs => ?_, fun _ _ => trivial⟩, fun s hs => (hbuilt s hs).steady,
    by simp [start], Keeps.refl _⟩
  rcases hs with hs | hs
  · simp [start] at hs
  · rcases (Net.LwsCommon.mem_pendingCbs_scheduleTimedCb _ _ _ _).mp hs with hs | hs
    · obtain ⟨id, hid⟩ := Net.LwsCommon.mem_pendingCbs.mp hs
      simp at hid
    · cases hs

/-- In every run of a finite set of closed segmenters whose clips take the windows forward, the adjusting
loop of each tick ends, and more ticks than the total distance to the last times leave every listed
segmenter processed or canceled. -/
theorem processing_terminates (std : StdSort) (camId : ℤ) (created : SegId → NewSegmenter) (F : Finset SegId)
    (hbuilt : ∀ s ∈ F, (created s).1.Built) (as bs : List Action)
    (hm : Meets (step std) (WorkMeets std F) (start camId created) (as ++ bs))
    (hu : exec (step std) (start camId created) as = some u) (hv : exec (step std) u bs = some v) :
    (∀ http, AdjustingEnds std { v with http } (adjustLoop std (v.segmenters.length + 1) { v with http })) ∧
      (∑ s ∈ F, (created s).1.remaining < countSteps (step std) ticks u bs →
        ∀ s ∈ u.segmenters, (v.heap s).processed = true ∨ (v.heap s).canceled = true) := by
  obtain ⟨hmas, hmbs⟩ := (meets_append hu).mp hm
  have hstart := atWork_start (F := F) camId created hbuilt
  have hwork : AtWork F (start camId created) u ∧ totalRemaining F u ≤ ∑ s ∈ F, (created s).1.remaining :=
    Transition.invariant
      (P := fun w => AtWork F (start camId created) w ∧ totalRemaining F w ≤ ∑ s ∈ F, (created s).1.remaining)
      (fun w a w' hw hok hstep =>
        have hnext := hw.1.step hok hstep
        ⟨hnext.1, (hnext.2.totalRemaining_le hw.1.steady).trans hw.2⟩) ⟨hstart, le_rfl⟩ hmas hu
  have hatu : AtWork F u u :=
    ⟨hwork.1.sound, hwork.1.active, hwork.1.steady, fun s hs => hwork.1.active.seg s (.inl hs), Keeps.refl u⟩
  have hatv : AtWork F u v :=
    Transition.invariant (fun w a w' hw hok hstep => (hw.step hok hstep).1) hatu hmbs hv
  refine ⟨fun http => adjustingEnds std _ hatv.sound (Nat.lt_succ_of_le List.countP_le_length),
    fun hcount => ?_⟩
  have hsettled : ∀ s ∈ u.segmenters, (v.heap s).settled = true := by
    refine reaches_of_rank (totalRemaining F) (D := fun w => ∀ s ∈ u.segmenters, (w.heap s).settled = true)
      (I := AtWork F u) (p := ticks) ?_ ?_ hatu hmbs hv
      (.inr (hwork.2.trans_lt hcount))
    · intro w a w' hw hok hstep
      obtain ⟨hnext, hnear⟩ := hw.step hok hstep
      exact ⟨hnext, hnear.totalRemaining_le hw.steady, fun hD s hs =>
        hnear.settled (hw.steady s (hw.listed s hs)) (hD s hs)⟩
    · exact fun w a w' hw hok hstep ht => hw.tick hok hstep ht
  exact fun s hs => by simpa [Segmenter.settled] using hsettled s hs

/-- A recording of two windows that the cloud does not have. -/
def twoSteps : SegId → NewSegmenter := fun _ => .ofEvent false 10 12 0 0 1 0 "cam" "" 0

theorem processing_terminates_twoSteps :
    ∃ u v, exec (step .insertion) (start 7 twoSteps) [.scheduleUpload 0, .fire 1 (.exact [])] = some u ∧
      exec (step .insertion) u
        [.fire 0 (.exact []), .fire 2 (.exact []), .fire 3 (.exact []), .fire 4 (.exact [])] = some v ∧
      ∀ s ∈ u.segmenters, (v.heap s).processed = true ∨ (v.heap s).canceled = true := by
  have hrun : ∃ u ∈ exec (step .insertion) (start 7 twoSteps) [.scheduleUpload 0, .fire 1 (.exact [])],
      ∃ v ∈ exec (step .insertion) u
        [.fire 0 (.exact []), .fire 2 (.exact []), .fire 3 (.exact []), .fire 4 (.exact [])],
        ∑ s ∈ {0}, (twoSteps s).1.remaining < countSteps (step .insertion) ticks u
          [.fire 0 (.exact []), .fire 2 (.exact []), .fire 3 (.exact []), .fire 4 (.exact [])] := by
    decide +kernel
  obtain ⟨u, hu, v, hv, hcount⟩ := hrun
  exact ⟨u, v, hu, hv, (processing_terminates .insertion 7 twoSteps {0} (by decide) _ _ (by decide +kernel)
    hu hv).2 hcount⟩

end SegmentedUploader
end CloudAgent.Agent
