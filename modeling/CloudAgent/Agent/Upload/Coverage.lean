import CloudAgent.Agent.Upload.Active
import CloudAgent.Agent.Upload.Disjoint
import Mathlib.Data.Int.Range
import Mathlib.Data.Set.Lattice

/-! No requested recording time is lost. A segmenter is moved to the position of a processed
neighbour because the neighbour is taken to have planned everything up to there, which its own
borders do not promise. -/
namespace CloudAgent.Agent
open Utils Transition

/-- The recording time that a segmenter asks for. -/
def Segmenter.span (s : Segmenter) : Set Time := Set.Ico s.firstTime s.lastTime

namespace SegmentedUploader

variable {std : StdSort} {env : TickEnv} {u v : SegmentedUploader} {s : SegId}
  {created : SegId → NewSegmenter}

/-- The recording time planned for upload so far. -/
def plannedTime (u : SegmentedUploader) : Set Time := ⋃ r ∈ u.planned, r.span

theorem mem_plannedTime {t : Time} :
    t ∈ u.plannedTime ↔ ∃ r ∈ u.planned, r.tpStart ≤ t ∧ t < r.tpStop := by
  simp only [plannedTime, UploadRequest.span, Set.mem_iUnion, Set.mem_Ico, exists_prop]

/-- Everything up to the window of a segmenter is planned, and nothing outside its borders is. -/
structure Covered (created : SegId → NewSegmenter) (u : SegmentedUploader) : Prop extends Windowed u where
  span : ∀ s, (u.heap s).firstTime = (created s).1.firstTime ∧
    (u.heap s).lastTime = (created s).1.lastTime
  first : ∀ s, (u.heap s).firstTime ≤ (u.heap s).curSegStart
  covered : ∀ s, ∀ t ∈ (u.heap s).span, t < (u.heap s).curSegStart → t ∈ u.plannedTime
  processed : ∀ s, (u.heap s).processed = true → (u.heap s).lastTime ≤ (u.heap s).curSegStart
  inside : ∀ r ∈ u.planned, r.span ⊆ (created r.segment).1.span

theorem Covered.congr (h : Covered created u) (hheap : v.heap = u.heap) (hplanned : v.planned = u.planned) :
    Covered created v := by
  have htime : v.plannedTime = u.plannedTime := by
    unfold plannedTime
    rw [hplanned]
  refine ⟨h.toWindowed.congr hheap hplanned, ?_, ?_, ?_, ?_, ?_⟩
  · exact hheap ▸ h.span
  · exact hheap ▸ h.first
  · rw [hheap, htime]
    exact h.covered
  · exact hheap ▸ h.processed
  · exact hplanned ▸ h.inside

/-- The neighbour asks for every time that is skipped by moving to it, or it is planned already. -/
def skipsOnlyPlanned (u : SegmentedUploader) (s : SegId) (q : Segmenter) : Bool :=
  (Int.range (u.heap s).curSegStart (min q.curSegStart (u.heap s).lastTime)).all fun t =>
    (q.firstTime ≤ t && t < q.lastTime) || u.planned.any fun r => r.tpStart ≤ t && t < r.tpStop

/-- The cloud timeline is empty, the provider returns exactly the requested window, and no event is
ended or canceled. A neighbour to which a segmenter is moved asks for the time that is skipped, and
a window that is requested neither starts nor stops at the null time. -/
def coverageConditions : Conditions where
  finalize _ _ _ := false
  cancel _ _ := false
  window env phase s u :=
    let x := u.heap s
    let clip := requestClip env u s
    match phase with
    | .adjust => (u.others s).all fun q =>
        !(q.processed && x.intersects q && x.curSegStart < q.curSegStart) || skipsOnlyPlanned u s q
    | .choose => true
    | .check => (env.storageObjects x.curSegStart x.curSegStop).isEmpty
    | .step => (clip.tpStart = x.curSegStart && clip.tpStop = x.clippedStop) &&
        (x.lastTime ≤ x.curSegStart || (x.curSegStart ≠ Time.null && x.clippedStop ≠ Time.null))

/-- Writing back a segmenter that has moved over planned time only. -/
theorem Covered.setSeg {x : Segmenter} (h : Covered created u) (hx : (u.heap s).Forward x)
    (hfirst : x.firstTime = (u.heap s).firstTime) (hlast : x.lastTime = (u.heap s).lastTime)
    (hskip : ∀ t, (u.heap s).curSegStart ≤ t → t < x.curSegStart → t < (u.heap s).lastTime →
      t ∈ u.plannedTime)
    (hproc : x.processed = true → (u.heap s).lastTime ≤ x.curSegStart) :
    Covered created (u.setSeg s x) := by
  have hw := h.toWindowed.setSeg hx
  refine ⟨hw, fun j => ?_, fun j => ?_, fun j => ?_, fun j => ?_, h.inside⟩ <;>
    simp only [setSeg_heap] <;> split
  · rename_i hj
    rw [hfirst, hlast, hj]
    exact h.span s
  · exact h.span j
  · rw [hfirst]
    exact (h.first s).trans hx.start
  · exact h.first j
  · rintro t ⟨h1, h2⟩ ht
    rw [hfirst] at h1
    rw [hlast] at h2
    rcases lt_or_ge t (u.heap s).curSegStart with hold | hnew
    · exact h.covered s t ⟨h1, h2⟩ hold
    · exact hskip t hnew ht h2
  · exact h.covered j
  · rw [hlast]
    exact hproc
  · exact h.processed j

theorem Covered.send (h : Covered created u) (progress : ℕ) :
    Covered created (u.sendTimelineSynchronizationStatus progress s) := by
  obtain ⟨c, t, ct, m, -, -, he⟩ := send_eq u progress s
  have hset : Covered created (u.setSeg s ((u.heap s).withReport c t)) :=
    h.setSeg ⟨rfl, rfl, le_rfl, id⟩ rfl rfl (fun t h1 h2 => absurd (h1.trans_lt h2) (lt_irrefl _))
      (h.processed s)
  rw [he]
  exact hset.congr rfl rfl

theorem Covered.setSeg_send {x : Segmenter} (h : Covered created u) (progress : ℕ)
    (hx : (u.heap s).Forward x) (hfirst : x.firstTime = (u.heap s).firstTime)
    (hlast : x.lastTime = (u.heap s).lastTime)
    (hskip : ∀ t, (u.heap s).curSegStart ≤ t → t < x.curSegStart → t < (u.heap s).lastTime →
      t ∈ u.plannedTime)
    (hproc : x.processed = true → (u.heap s).lastTime ≤ x.curSegStart) :
    Covered created ((u.setSeg s x).sendTimelineSynchronizationStatus progress s) :=
  (h.setSeg hx hfirst hlast hskip hproc).send progress

/-- A neighbour that may be moved to has planned what is skipped. -/
theorem Covered.skip {q : Segmenter} (h : Covered created u) (hq : q ∈ u.others s)
    (hskip : skipsOnlyPlanned u s q = true) (t : Time) (h1 : (u.heap s).curSegStart ≤ t)
    (h2 : t < q.curSegStart) (h3 : t < (u.heap s).lastTime) : t ∈ u.plannedTime := by
  obtain ⟨j, -, -, rfl⟩ := mem_others.mp hq
  simp only [skipsOnlyPlanned, List.all_eq_true, Int.mem_range_iff, Bool.or_eq_true, Bool.and_eq_true,
    decide_eq_true_eq, List.any_eq_true] at hskip
  rcases hskip t ⟨h1, lt_min h2 h3⟩ with hin | hplanned
  · exact h.covered j t hin h2
  · exact mem_plannedTime.mpr hplanned

/-- Nothing is skipped where the window stays. -/
theorem skip_nothing {a : Time} {T : Set Time} (t : Time) (h1 : a ≤ t) (h2 : t < a) : t ∈ T :=
  absurd (h1.trans_lt h2) (lt_irrefl a)

/-- The provider exports the window that is requested. -/
theorem clipInside_of_exact (h : Windowed u) (hcur : u.Current s)
    (hin : (u.heap s).isOpen = false → (u.heap s).curSegStart < (u.heap s).lastTime)
    (hstart : (requestClip env u s).tpStart = (u.heap s).curSegStart)
    (hstop : (requestClip env u s).tpStop = (u.heap s).clippedStop) : clipInside env u s = true := by
  have hle := h.le_clippedStop hcur hin
  simp [clipInside, hstart, hstop, hle]

/-- The exported window is planned, and the next window starts where it stops. -/
theorem Covered.plan (h : Covered created u) (hcur : u.Current s)
    (hin : (u.heap s).isOpen = false → (u.heap s).curSegStart < (u.heap s).lastTime)
    (hvalid : (requestClip env u s).valid = true)
    (hstart : (requestClip env u s).tpStart = (u.heap s).curSegStart)
    (hstop : (requestClip env u s).tpStop = (u.heap s).clippedStop) :
    Covered created { u.setSeg s (takenWindow env u s).countPlanned with
      planned := u.planned ++ [uploadRequest s (takenWindow env u s) (requestClip env u s)] } := by
  set r := uploadRequest s (takenWindow env u s) (requestClip env u s) with hr
  have hinside := clipInside_of_exact h.toWindowed hcur hin hstart hstop
  have hforward := (takenWindow_forward h.toWindowed hcur hin hinside).1
  have hnext : (takenWindow env u s).curSegStart = (u.heap s).clippedStop := by
    simp only [takenWindow, Segmenter.takeWindow_curSegStart, Segmenter.nextStart, hvalid, if_true,
      hstop]
    exact ite_self _
  have hold : u.plannedTime ⊆ ({ u with planned := u.planned ++ [r] } : SegmentedUploader).plannedTime := by
    intro t ht
    obtain ⟨q, hq, hqt⟩ := mem_plannedTime.mp ht
    exact mem_plannedTime.mpr ⟨q, List.mem_append_left _ hq, hqt⟩
  have hskip : ∀ t, (u.heap s).curSegStart ≤ t → t < (takenWindow env u s).curSegStart →
      t ∈ ({ u with planned := u.planned ++ [r] } : SegmentedUploader).plannedTime := by
    intro t h1 h2
    refine mem_plannedTime.mpr ⟨r, List.mem_append_right _ (List.mem_singleton_self _), ?_, ?_⟩
    · exact hstart.trans_le h1
    · exact (hnext ▸ h2).trans_eq hstop.symm
  have hspan : r.span ⊆ (created s).1.span := by
    intro t ht
    obtain ⟨hfirst, hlast⟩ := h.span s
    have hend := (u.heap s).clippedStop_le_lastTime (h.closed s)
    exact ⟨hfirst ▸ (h.first s).trans (hstart.ge.trans ht.1),
      hlast ▸ ht.2.trans_le (hstop.trans_le hend)⟩
  refine ⟨h.toWindowed.plan hcur hin hvalid hinside, fun j => ?_, fun j => ?_, fun j => ?_, fun j => ?_,
    fun q hq => ?_⟩
  · simp only [setSeg_heap]
    split
    · rename_i hj
      exact hj ▸ h.span s
    · exact h.span j
  · simp only [setSeg_heap]
    split
    · exact (h.first s).trans hforward.start
    · exact h.first j
  · simp only [setSeg_heap]
    split
    · intro t hspan ht
      rcases lt_or_ge t (u.heap s).curSegStart with hlt | hge
      · exact hold (h.covered s t hspan hlt)
      · exact hskip t hge ht
    · exact fun t hspan ht => hold (h.covered j t hspan ht)
  · simp only [setSeg_heap]
    split
    · intro hp
      have hp : (takenWindow env u s).processed = true := hp
      rw [takenWindow_processed env hcur.processed] at hp
      simp only [Bool.and_eq_true, decide_eq_true_eq] at hp
      exact hp.2
    · exact h.processed j
  · rcases List.mem_append.mp hq with hq | hq
    · exact h.inside q hq
    · obtain rfl := List.mem_singleton.mp hq
      exact hspan

theorem covered_tick (std : StdSort) (env : TickEnv) (created : SegId → NewSegmenter) :
    TickInvariant std env (coverageConditions.window env) (Covered created) where
  list _ _ h _ := h.congr rfl rfl
  adjust u s v h hcur hok hv := by
    have hstep := Int.le_of_lt (h.step s)
    have hskip : ∀ q ∈ u.others s, q.processed = true → (u.heap s).intersects q = true →
        (u.heap s).curSegStart < q.curSegStart → skipsOnlyPlanned u s q = true := by
      simp only [coverageConditions, List.all_eq_true] at hok
      intro q hq hproc hint hlt
      simpa [hproc, hint, hlt] using hok q hq
    cases hv with
    | same => exact h
    | moved q hq hproc hint hlt =>
      have hplanned := h.skip hq (hskip q hq hproc hint hlt)
      exact h.setSeg ⟨rfl, rfl, hlt.le, fun _ _ => Int.le_add_of_nonneg_right hstep⟩ rfl rfl hplanned
        fun hp => by simp [hcur.processed] at hp
    | outside q hq hproc hint hlt hclosed hpast =>
      have hplanned := h.skip hq (hskip q hq hproc hint hlt)
      exact h.setSeg_send 100 ⟨rfl, rfl, hlt.le, fun _ _ => Int.le_add_of_nonneg_right hstep⟩ rfl rfl
        hplanned fun _ => hpast
  check u s upload v h hcur hok hv := by
    have hslices : cloudSlices std env u s = [] := by
      have hobjects : env.storageObjects (u.heap s).curSegStart (u.heap s).curSegStop = [] := by
        simpa [coverageConditions] using hok
      rw [cloudSlices, hobjects, timelineSlices_nil]
    cases hv with
    | moved a b upload hcloud =>
      rw [hslices, Segmenter.checkSlices_nil] at hcloud
      have hsame : (u.heap s).withWindow a b = u.heap s :=
        (congrArg Segmenter.CheckedWindow.window hcloud).symm
      rw [hsame, setSeg_self]
      exact h
    | onCloudUnplanned a b hcloud => simp [hslices] at hcloud
    | onCloudPlanned a b hcloud => simp [hslices] at hcloud
  step u s v h hcur hok hv := by
    have hstep := Int.le_of_lt (h.step s)
    simp only [coverageConditions, Bool.and_eq_true, Bool.or_eq_true, decide_eq_true_eq] at hok
    obtain ⟨⟨hstart, hstop⟩, hnull⟩ := hok
    have hvalid : ((u.heap s).isOpen = false → (u.heap s).curSegStart < (u.heap s).lastTime) →
        (requestClip env u s).valid = true := by
      intro hin
      rcases hnull with hout | hnull
      · exact absurd hout (not_le.mpr (hin (h.closed s)))
      · simp [VideoClipInfo.valid, hstart, hstop, hnull]
    cases hv with
    | outsideUnplanned hclosed hpast =>
      exact h.setSeg_send 0 ⟨rfl, rfl, le_rfl, fun _ hp => by simp at hp⟩ rfl rfl
        (fun t h1 h2 _ => skip_nothing t h1 h2) fun _ => hpast
    | outsidePlanned hclosed hpast =>
      exact h.setSeg ⟨rfl, rfl, le_rfl, fun _ hp => by simp at hp⟩ rfl rfl
        (fun t h1 h2 _ => skip_nothing t h1 h2) fun _ => hpast
    | empty =>
      exact h.setSeg ⟨rfl, rfl, le_rfl, fun _ _ => Int.le_add_of_nonneg_right hstep⟩ rfl rfl
        (fun t h1 h2 _ => skip_nothing t h1 h2) fun hp => by simp [hcur.processed] at hp
    | exported hin hclip => exact h.plan hcur hin hclip hstart hstop
    | finalUnplanned hin hclip => simp [hvalid hin] at hclip
    | skipped hin hclip => simp [hvalid hin] at hclip

theorem covered_step (std : StdSort) (created : SegId → NewSegmenter) :
    StepInvariant std coverageConditions (Covered created) where
  service _ _ _ _ h := h.congr rfl rfl
  enqueue _ _ _ h _ _ := h.congr rfl rfl
  finalize _ _ _ _ hok := by simp [coverageConditions] at hok
  cancel _ _ _ hok _ _ := by simp [coverageConditions] at hok
  canceledTicket _ _ h := h.congr rfl rfl
  tick env := covered_tick std env created
  report u k r ok h _ _ := by
    have hv : Covered created (u.onFinished r.segment ok) := by
      rw [onFinished_eq]
      exact h.setSeg_send _ ⟨rfl, rfl, le_rfl, id⟩ rfl rfl (fun t h1 h2 _ => skip_nothing t h1 h2)
        (h.processed r.segment)
    exact hv.congr rfl rfl

theorem covered_start (camId : ℤ) (created : SegId → NewSegmenter)
    (hstarted : ∀ s, (created s).1.Started) : Covered created (start camId created) := by
  have hfirst : ∀ s, (created s).1.curSegStart = (created s).1.firstTime := fun s =>
    (hstarted s).2.2.2.2.2.1
  refine ⟨(separated_start camId created hstarted).toWindowed, fun _ => ⟨rfl, rfl⟩, fun s => ?_,
    fun s t ht hlt => ?_, fun s hp => ?_, by simp [start]⟩
  · exact (hfirst s).ge
  · exact absurd (ht.1.trans_lt (hlt.trans_eq (hfirst s))) (lt_irrefl _)
  · have hf := (created s).2
    simp only [Segmenter.fresh, Bool.and_eq_true, Bool.not_eq_true'] at hf
    have hp : (created s).1.processed = true := hp
    simp [hf.1.1.1.1.1] at hp

/-- Uploads are planned for scheduled segmenters only. -/
theorem planned_scheduled (std : StdSort) (camId : ℤ) (created : SegId → NewSegmenter)
    (as : List Action) (he : exec (step std) (start camId created) as = some u) :
    ∀ r ∈ u.planned, .scheduleUpload r.segment ∈ as := by
  have rule : ActiveRule (fun s _ => Action.scheduleUpload s ∈ as)
      fun r => Action.scheduleUpload r.segment ∈ as := ⟨fun _ _ _ h _ => h, fun _ _ _ h _ _ => h⟩
  have hstart : OnActive (fun s _ => Action.scheduleUpload s ∈ as)
      (fun r => Action.scheduleUpload r.segment ∈ as) 0 (start camId created) := by
    refine ⟨fun s hs => ?_, by simp [start]⟩
    rcases hs with hs | hs
    · simp [start] at hs
    · rcases (Net.LwsCommon.mem_pendingCbs_scheduleTimedCb _ _ _ _).mp hs with hs | hs
      · obtain ⟨id, hid⟩ := Net.LwsCommon.mem_pendingCbs.mp hs
        simp at hid
      · cases hs
  have hm : Meets (step std) (ScheduleMeets fun s _ => Action.scheduleUpload s ∈ as)
      (start camId created) as := by
    refine Meets.of_forall_mem fun a ha w => ?_
    cases a with
    | scheduleUpload s => exact ha
    | finalizeUpload => trivial
    | cancelUpload => trivial
    | fire => trivial
    | reportFinished => trivial
  exact (hstart.run rule (sound_start camId created) hm he).planned

/-- In every run that meets the conditions, once the scheduled segmenters are processed, the
recording time planned for upload is exactly the recording time that they ask for. -/
theorem planned_covers (std : StdSort) (camId : ℤ) (created : SegId → NewSegmenter)
    (hstarted : ∀ s, (created s).1.Started) (as : List Action)
    (hm : Meets (step std) (coverageConditions.Admits std) (start camId created) as)
    (he : exec (step std) (start camId created) as = some u)
    (hall : ∀ s, .scheduleUpload s ∈ as → (u.heap s).processed = true) :
    u.plannedTime = ⋃ s ∈ {s | Action.scheduleUpload s ∈ as}, (created s).1.span := by
  have h := ((covered_step std created).run (sound_start camId created)
    (covered_start camId created hstarted) hm he).2
  apply Set.Subset.antisymm
  · intro t ht
    obtain ⟨r, hr, hrt⟩ := mem_plannedTime.mp ht
    exact Set.mem_biUnion (planned_scheduled std camId created as he r hr) (h.inside r hr hrt)
  · refine Set.iUnion₂_subset fun s hs t ht => ?_
    obtain ⟨hfirst, hlast⟩ := h.span s
    have hspan : t ∈ (u.heap s).span := ⟨hfirst ▸ ht.1, hlast ▸ ht.2⟩
    exact h.covered s t hspan (hspan.2.trans_le (h.processed s (hall s hs)))

/-- Two short events, the second with borders that reach into the first. -/
def shortEvents : SegId → NewSegmenter := fun s =>
  if s = 0 then .ofEvent false 1000 1030 0 0 15 0 "cam" "" 0
  else .ofEvent false 1020 1040 5 2 15 0 "cam" "" 0

theorem shortEvents_started (s : SegId) : (shortEvents s).1.Started := by
  by_cases h : s = 0 <;> simp only [shortEvents, h, if_true, if_false] <;> decide

/-- Both events are enqueued before the first tick, and four ticks process them. -/
def shortEventsRun : List Action :=
  [.scheduleUpload 0, .scheduleUpload 1, .fire 1 (.exact []), .fire 2 (.exact []),
    .fire 0 (.exact []), .fire 3 (.exact []), .fire 4 (.exact []), .fire 5 (.exact [])]

theorem planned_covers_shortEvents :
    ∃ u, exec (step .insertion) (start 7 shortEvents) shortEventsRun = some u ∧
      u.planned.map (fun r => (r.tpStart, r.tpStop)) = [(1000, 1015), (1015, 1030), (1030, 1042)] ∧
      u.plannedTime =
        ⋃ s ∈ {s | Action.scheduleUpload s ∈ shortEventsRun}, (shortEvents s).1.span := by
  have hrun : ∃ u ∈ exec (step .insertion) (start 7 shortEvents) shortEventsRun,
      u.planned.map (fun r => (r.tpStart, r.tpStop)) = [(1000, 1015), (1015, 1030), (1030, 1042)] ∧
        (u.heap 0).processed = true ∧ (u.heap 1).processed = true := by
    decide +kernel
  obtain ⟨u, hu, hplanned, h0, h1⟩ := hrun
  refine ⟨u, hu, hplanned, planned_covers .insertion 7 shortEvents shortEvents_started _
    (by decide +kernel) hu fun s hs => ?_⟩
  have hs : s = 0 ∨ s = 1 := by simpa [shortEventsRun] using hs
  rcases hs with rfl | rfl
  · exact h0
  · exact h1

/-- The second recording starts first, but it is enqueued when the first one is planned already. -/
def lateStart : SegId → NewSegmenter :=
  twoEvents fun s => if s = 0 then (seconds 1000, seconds 1015) else (seconds 995, seconds 1020)

theorem lateStart_started (s : SegId) : (lateStart s).1.Started := by
  by_cases h : s = 0 <;> simp only [lateStart, twoEvents, h, if_true, if_false] <;> decide

theorem planned_loses_start :
    (∀ s, (lateStart s).1.Started) ∧
      ∃ u ∈ exec (step .insertion) (start 7 lateStart)
          [.scheduleUpload 0, .fire 1 (.exact []), .fire 0 (.exact []), .scheduleUpload 1,
            .fire 3 (.exact []), .fire 2 (.exact []), .fire 4 (.exact [])],
        (u.heap 0).processed = true ∧ (u.heap 1).processed = true ∧
          u.plannedTime ≠ (lateStart 0).1.span ∪ (lateStart 1).1.span := by
  refine ⟨lateStart_started, ?_⟩
  have hrun : ∃ u ∈ exec (step .insertion) (start 7 lateStart)
      [.scheduleUpload 0, .fire 1 (.exact []), .fire 0 (.exact []), .scheduleUpload 1,
        .fire 3 (.exact []), .fire 2 (.exact []), .fire 4 (.exact [])],
      (u.heap 0).processed = true ∧ (u.heap 1).processed = true ∧
        ¬ ∃ r ∈ u.planned, r.tpStart ≤ seconds 995 ∧ seconds 995 < r.tpStop := by
    decide +kernel
  obtain ⟨u, hu, h0, h1, hlost⟩ := hrun
  refine ⟨u, hu, h0, h1, fun heq => hlost (mem_plannedTime.mp (heq ▸ Or.inr ?_))⟩
  constructor <;> decide

end SegmentedUploader
end CloudAgent.Agent
