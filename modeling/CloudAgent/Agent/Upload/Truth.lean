import CloudAgent.Agent.Timeline.Squash
import CloudAgent.Agent.Upload.Disjoint

/-! What a terminal status says about a memory-card synchronization. It counts the uploads of its own
segmenter only, while the recording time may also have come to the cloud in other ways. -/
namespace CloudAgent.Agent
open Utils Transition

namespace SegmentedUploader

variable {std : StdSort} {env : TickEnv} {u v w : SegmentedUploader} {s : SegId} {x : Segmenter}

/-! ### Where recording time is -/

/-- The instants between the borders of `x` that its provider has a recording of at some tick. -/
def available (as : List Action) (x : Segmenter) : Set Time :=
  {t | x.firstTime ≤ t ∧ t ≤ x.lastTime ∧ ∃ i env, Action.fire i env ∈ as ∧
    ∃ start stop, ∃ clip ∈ env.recordGetList x.segProvider start stop, clip.valid = true ∧
      clip.tpStart ≤ t ∧ t < clip.tpStop}

/-- The instants that are on the cloud already at some tick. -/
def alreadyOnCloud (std : StdSort) (as : List Action) : Set Time :=
  {t | ∃ i env, Action.fire i env ∈ as ∧ ∃ start stop, t ∈ instants (timelineSlices std (env.storageObjects start stop))}

/-- An upload of `j` has succeeded. -/
def Succeeded (as : List Action) (u : SegmentedUploader) (r : UploadRequest) : Prop :=
  ∃ k, Action.reportFinished k true ∈ as ∧ u.planned[k]? = some r

/-- The instants that were uploaded successfully for a segmenter as `p` says. -/
def uploadedFor (as : List Action) (u : SegmentedUploader) (p : SegId → Prop) : Set Time :=
  {t | ∃ r, Succeeded as u r ∧ p r.segment ∧ t ∈ r.span}

/-- The instants of the segmenter `s` that have come to the cloud. -/
def satisfied (std : StdSort) (as : List Action) (u : SegmentedUploader) (s : SegId) : Set Time :=
  uploadedFor as u (· = s) ∪ alreadyOnCloud std as ∪ uploadedFor as u (· ≠ s)

/-- A terminal status of `s` is `done` if all that was available is on the cloud, and `error` only if
something is not. -/
structure Truthful (std : StdSort) (as : List Action) (u : SegmentedUploader) (s : SegId)
    (status : MemorycardSyncStatus) : Prop where
  done : (available as (u.heap s)).Nonempty → available as (u.heap s) ⊆ satisfied std as u s → status = .done
  error : status = .error →
    available as (u.heap s) = ∅ ∨ ∃ t ∈ available as (u.heap s), t ∉ satisfied std as u s

/-- Nothing was available, or something that only uploads of `s` can bring to the cloud, or one of
them has succeeded. -/
def OwnSuccess (std : StdSort) (as : List Action) (u : SegmentedUploader) (s : SegId) : Prop :=
  available as (u.heap s) = ∅ ∨
    (∃ t ∈ available as (u.heap s), t ∉ alreadyOnCloud std as ∪ uploadedFor as u (· ≠ s)) ∨
    ∃ r, Succeeded as u r ∧ r.segment = s

/-- A status that is `done` exactly after a success of its own. -/
theorem truthful_iff {as : List Action} {status : MemorycardSyncStatus}
    (hstatus : (status = .done ∧ ∃ r, Succeeded as u r ∧ r.segment = s) ∨
      (status = .error ∧ ¬ ∃ r, Succeeded as u r ∧ r.segment = s)) :
    Truthful std as u s status ↔ OwnSuccess std as u s := by
  rcases hstatus with ⟨rfl, hown⟩ | ⟨rfl, hnone⟩
  · exact ⟨fun _ => .inr (.inr hown), fun _ => ⟨fun _ _ => rfl, fun h => by cases h⟩⟩
  · have hempty : uploadedFor as u (· = s) = ∅ :=
      Set.eq_empty_of_forall_notMem fun t ⟨r, hr, hs, _⟩ => hnone ⟨r, hr, hs⟩
    have hsatisfied : satisfied std as u s = alreadyOnCloud std as ∪ uploadedFor as u (· ≠ s) := by
      rw [satisfied, hempty, Set.empty_union]
    constructor
    · intro h
      rcases h.error rfl with h | h
      · exact .inl h
      · exact .inr (.inl (hsatisfied ▸ h))
    · intro h
      have hfails : available as (u.heap s) = ∅ ∨
          ∃ t ∈ available as (u.heap s), t ∉ satisfied std as u s := by
        rw [hsatisfied]
        rcases h with h | h | h
        · exact .inl h
        · exact .inr h
        · exact absurd h hnone
      refine ⟨fun hne hsub => ?_, fun _ => hfails⟩
      rcases hfails with h | ⟨t, ht, hnot⟩
      · exact absurd h hne.ne_empty
      · exact absurd (hsub ht) hnot

/-! ### What a step sends -/

/-- No cancellation has run. -/
structure Running (u : SegmentedUploader) : Prop where
  tickets : u.canceledTickets = []
  canceled : ∀ s, (u.heap s).canceled = false

/-- The segmenters have the successes `d`, and every status sent after the first `n` tells by them. -/
structure Told (d : SegId → ℕ) (n : ℕ) (u : SegmentedUploader) : Prop extends Running u where
  done : ∀ s, (u.heap s).uploadsDone = d s
  length : n ≤ u.sent.length
  status : ∀ m ∈ u.sent.drop n, m.2.status = .pending ∨ m.2.status = if d m.1 = 0 then .error else .done

/-- Nothing cancels an upload. -/
def withoutCancellation : Conditions where
  cancel _ _ := false

variable {d : SegId → ℕ} {n : ℕ} {a : Action}

theorem Running.told (h : Running u) : Told (fun s => (u.heap s).uploadsDone) u.sent.length u :=
  ⟨h, fun _ => rfl, le_rfl, by simp⟩

theorem Told.setSeg (h : Told d n u) (hdone : x.uploadsDone = d s) (hc : x.canceled = false) :
    Told d n (u.setSeg s x) := by
  refine ⟨⟨h.tickets, fun j => ?_⟩, fun j => ?_, h.length, h.status⟩ <;> simp only [setSeg_heap] <;> split
  · exact hc
  · exact h.canceled j
  · rename_i hjs
    rw [hdone, hjs]
  · exact h.done j

theorem syncStatus_of_running (x : Segmenter) (hc : x.canceled = false) :
    syncStatus x = .pending ∨ syncStatus x = if x.uploadsDone = 0 then .error else .done := by
  unfold syncStatus
  rw [hc]
  cases x.processed && x.answered with
  | true => exact .inr rfl
  | false => exact .inl rfl

theorem Told.send (h : Told d n u) (progress : ℕ) (s : SegId) :
    Told d n (u.sendTimelineSynchronizationStatus progress s) := by
  by_cases hticket : (u.heap s).ticket = ""
  · rw [send_of_ticket_eq progress hticket]
    exact h
  · have hmark : u.markCanceled (u.heap s) = (u.heap s).withReport false (u.heap s).ticket := by
      rw [markCanceled, h.tickets, h.canceled s]
      rfl
    rw [send_of_ticket_ne progress hticket, hmark]
    have hset := h.setSeg (s := s) (x := (u.heap s).withReport false
      (if (syncStatus ((u.heap s).withReport false (u.heap s).ticket)).closing then "" else (u.heap s).ticket))
      (h.done s) rfl
    refine ⟨⟨by simp [h.tickets], hset.canceled⟩, hset.done, ?_, fun m hm => ?_⟩
    · simpa using Nat.le_succ_of_le h.length
    · simp only [List.drop_append_of_le_length h.length] at hm
      rcases List.mem_append.mp hm with hm | hm
      · exact h.status m hm
      · obtain rfl := List.mem_singleton.mp hm
        have hstatus := syncStatus_of_running ((u.heap s).withReport false (u.heap s).ticket) rfl
        rw [Segmenter.withReport_uploadsDone, h.done s] at hstatus
        exact hstatus

theorem Told.setSeg_send (h : Told d n u) (progress : ℕ) (hdone : x.uploadsDone = d s)
    (hc : x.canceled = false) : Told d n ((u.setSeg s x).sendTimelineSynchronizationStatus progress s) :=
  (h.setSeg hdone hc).send progress s

theorem told_tick (std : StdSort) (env : TickEnv) (d : SegId → ℕ) (n : ℕ) :
    TickInvariant std env (withoutCancellation.window env) (Told d n) where
  list _ _ h _ := ⟨⟨h.tickets, h.canceled⟩, h.done, h.length, h.status⟩
  adjust u s _ h _ _ hv := by
    cases hv with
    | same => exact h
    | moved => exact h.setSeg (h.done s) (h.canceled s)
    | outside => exact h.setSeg_send 100 (h.done s) (h.canceled s)
  check u s _ _ h _ _ hv := by
    cases hv with
    | moved => exact h.setSeg (h.done s) (h.canceled s)
    | onCloudUnplanned => exact h.setSeg_send 100 (h.done s) (h.canceled s)
    | onCloudPlanned => exact h.setSeg (h.done s) (h.canceled s)
  step u s _ h _ _ hv := by
    cases hv with
    | outsideUnplanned => exact h.setSeg_send 0 (h.done s) (h.canceled s)
    | outsidePlanned => exact h.setSeg (h.done s) (h.canceled s)
    | empty => exact h.setSeg (h.done s) (h.canceled s)
    | exported =>
      have hset : Told d n (u.setSeg s (takenWindow env u s).countPlanned) :=
        h.setSeg (h.done s) (h.canceled s)
      exact ⟨⟨hset.tickets, hset.canceled⟩, hset.done, hset.length, hset.status⟩
    | finalUnplanned => exact h.setSeg_send 0 (h.done s) (h.canceled s)
    | skipped => exact h.setSeg (h.done s) (h.canceled s)

/-- Whether the step is a success of an upload of `s`. -/
def succeeds (u : SegmentedUploader) (s : SegId) : Action → Bool
  | .reportFinished k ok => ok && (u.planned[k]?).any (·.segment = s)
  | _ => false

theorem succeeds_iff : succeeds u s a = true ↔
    ∃ r, (∃ k, a = .reportFinished k true ∧ u.planned[k]? = some r) ∧ r.segment = s := by
  cases a with
  | reportFinished k ok =>
    cases ok <;> cases hr : u.planned[k]? <;> simp [succeeds, hr]
  | scheduleUpload => simp [succeeds]
  | finalizeUpload => simp [succeeds]
  | cancelUpload => simp [succeeds]
  | fire => simp [succeeds]

/-- The answer to an upload plans nothing. -/
theorem planned_of_report {k : ℕ} {ok : Bool} (hv : step std u (.reportFinished k ok) = some v) :
    v.planned = u.planned := by
  obtain ⟨r, -, rfl⟩ := Option.map_eq_some_iff.mp hv
  rw [onFinished_eq]
  exact send_planned _

/-- A step counts its success, and what it sends tells by all successes so far. -/
theorem told_step (hs : u.Sound) (h : Running u) (hok : withoutCancellation.Admits std u a)
    (hv : step std u a = some v) :
    Told (fun s => (u.heap s).uploadsDone + (succeeds u s a).toNat) u.sent.length v := by
  have htold := h.told
  cases a with
  | scheduleUpload s =>
    obtain rfl := Option.some.inj hv
    exact ⟨⟨h.tickets, h.canceled⟩, htold.done, htold.length, htold.status⟩
  | finalizeUpload s stop =>
    obtain rfl := Option.some.inj hv
    exact ⟨⟨h.tickets, h.canceled⟩, htold.done, htold.length, htold.status⟩
  | cancelUpload ticket =>
    obtain rfl := Option.some.inj hv
    exact ⟨⟨h.tickets, h.canceled⟩, htold.done, htold.length, htold.status⟩
  | fire i env =>
    obtain ⟨⟨cb, http⟩, hf, rfl⟩ := Option.map_eq_some_iff.mp hv
    have hw : Told (fun s => (u.heap s).uploadsDone) u.sent.length { u with http } :=
      ⟨⟨h.tickets, h.canceled⟩, htold.done, htold.length, htold.status⟩
    cases cb with
    | asyncLoop =>
      have hsw : ({ u with http } : SegmentedUploader).Sound := hs
      obtain ⟨-, ht⟩ := (told_tick std env _ _).tick hsw hw (hok _ hf)
      exact ⟨⟨ht.tickets, ht.canceled⟩, ht.done, ht.length, ht.status⟩
    | segmenterEnqueue s => exact ⟨⟨h.tickets, h.canceled⟩, htold.done, htold.length, htold.status⟩
    | segmenterFinalize s stop => exact hw.setSeg rfl (h.canceled s)
    | segmenterCancelByTicket ticket => exact absurd (hok _ hf) Bool.false_ne_true
  | reportFinished k ok =>
    obtain ⟨r, hr, rfl⟩ := Option.map_eq_some_iff.mp hv
    have hdone : ∀ j, ((u.setSeg r.segment (answerSeg (u.heap r.segment) ok)).heap j).uploadsDone =
        (u.heap j).uploadsDone + (succeeds u j (.reportFinished k ok)).toNat := by
      intro j
      by_cases hj : j = r.segment
      · rw [hj, setSeg_heap_self]
        simp [succeeds, hr, answerSeg]
      · rw [setSeg_heap_of_ne _ _ hj]
        simp [succeeds, hr, Ne.symm hj]
    have hcanceled : ∀ j, ((u.setSeg r.segment (answerSeg (u.heap r.segment) ok)).heap j).canceled = false := by
      intro j
      by_cases hj : j = r.segment
      · rw [hj, setSeg_heap_self]
        exact h.canceled r.segment
      · rw [setSeg_heap_of_ne _ _ hj]
        exact h.canceled j
    have hset : Told (fun j => (u.heap j).uploadsDone + (succeeds u j (.reportFinished k ok)).toNat)
        u.sent.length (u.setSeg r.segment (answerSeg (u.heap r.segment) ok)) :=
      ⟨⟨h.tickets, hcanceled⟩, hdone, le_rfl, by simp⟩
    have hsend := hset.send (syncProgress ((u.heap r.segment).countAnswer ok)) r.segment
    rw [onFinished_eq]
    exact ⟨⟨hsend.tickets, hsend.canceled⟩, hsend.done, hsend.length, hsend.status⟩

/-! ### Runs -/

/-- What a run without cancellation keeps: answers belong to planned uploads, and the successes of a
segmenter are those that it has counted. -/
structure Counted (as : List Action) (u : SegmentedUploader) : Prop extends Running u where
  sound : u.Sound
  planned : ∀ k ok, Action.reportFinished k ok ∈ as → k < u.planned.length
  done : ∀ s, 0 < (u.heap s).uploadsDone ↔ ∃ r, Succeeded as u r ∧ r.segment = s

/-- A longer list of plans keeps the successes. -/
theorem Counted.succeeded_iff {as : List Action} (h : Counted as u) (hp : u.planned <+: v.planned)
    (r : UploadRequest) : Succeeded as v r ↔ Succeeded as u r := by
  obtain ⟨rest, hrest⟩ := hp
  refine exists_congr fun k => and_congr_right fun hk => ?_
  rw [← hrest, List.getElem?_append_left (h.planned k true hk)]

theorem succeeded_append {as : List Action} {r : UploadRequest} :
    Succeeded (as ++ [a]) u r ↔ Succeeded as u r ∨ ∃ k, a = .reportFinished k true ∧ u.planned[k]? = some r := by
  simp only [Succeeded, List.mem_append, List.mem_singleton, or_and_right, exists_or]
  exact or_congr_right (exists_congr fun k => and_congr_left fun _ => eq_comm)

theorem Counted.step {as : List Action} (h : Counted as u) (hok : withoutCancellation.Admits std u a)
    (hv : SegmentedUploader.step std u a = some v) : Counted (as ++ [a]) v := by
  have htold := told_step h.sound h.toRunning hok hv
  have hgrows := (step_grows h.sound hv).planned
  refine ⟨htold.toRunning, h.sound.step hv, fun k ok hk => ?_, fun s => ?_⟩
  · rcases List.mem_append.mp hk with hk | hk
    · exact (h.planned k ok hk).trans_le hgrows.length_le
    · obtain rfl := List.mem_singleton.mp hk
      obtain ⟨r, hr, -⟩ := Option.map_eq_some_iff.mp hv
      obtain ⟨hlt, -⟩ := List.getElem?_eq_some_iff.mp hr
      exact hlt.trans_le hgrows.length_le
  · have hnew : succeeds u s a = true ↔
        ∃ r, (∃ k, a = .reportFinished k true ∧ v.planned[k]? = some r) ∧ r.segment = s := by
      rw [succeeds_iff]
      refine exists_congr fun r => and_congr_left fun _ => exists_congr fun k => and_congr_right fun ha => ?_
      rw [ha] at hv
      rw [planned_of_report hv]
    have hsum : 0 < (u.heap s).uploadsDone + (succeeds u s a).toNat ↔
        0 < (u.heap s).uploadsDone ∨ succeeds u s a = true := by
      cases succeeds u s a <;> simp
    rw [htold.done s, hsum, h.done s, hnew, ← exists_or]
    refine exists_congr fun r => ?_
    rw [succeeded_append, h.succeeded_iff hgrows, or_and_right]

theorem counted_start (camId : ℤ) (created : SegId → NewSegmenter) : Counted [] (start camId created) := by
  have hfresh : ∀ s, ((start camId created).heap s).canceled = false ∧
      ((start camId created).heap s).uploadsDone = 0 := by
    intro s
    have hs := (created s).2
    simp only [Segmenter.fresh, Bool.and_eq_true, Bool.not_eq_true', decide_eq_true_eq] at hs
    exact ⟨hs.1.1.1.1.2, hs.1.2⟩
  refine ⟨⟨rfl, fun s => (hfresh s).1⟩, sound_start camId created, by simp, fun s => ?_⟩
  rw [(hfresh s).2]
  simp [Succeeded]

/-- In every run without cancellation, a terminal status tells the truth exactly when nothing of its
segmenter's time was available, or an upload of its own was needed, or one has succeeded. -/
theorem status_truthful_iff (std : StdSort) (camId : ℤ) (created : SegId → NewSegmenter) (as : List Action)
    (a : Action) (hm : Meets (step std) (withoutCancellation.Admits std) (start camId created) (as ++ [a]))
    (hu : exec (step std) (start camId created) as = some u) (hv : step std u a = some v)
    {m : SynchronizeStatus} (hsent : (s, m) ∈ v.sent.drop u.sent.length) (hterminal : m.status.terminal = true) :
    Truthful std (as ++ [a]) v s m.status ↔ OwnSuccess std (as ++ [a]) v s := by
  obtain ⟨hmas, hma⟩ := (meets_append hu).mp hm
  have hcounted : Counted as u :=
    run_history (fun _ _ _ _ hc hok hstep => hc.step hok hstep) (counted_start camId created) hmas hu
  have htold := told_step hcounted.sound hcounted.toRunning hma.1 hv
  have hnext := hcounted.step hma.1 hv
  have hown := hnext.done s
  rw [htold.done s] at hown
  have hstatus : m.status = if (u.heap s).uploadsDone + (succeeds u s a).toNat = 0 then .error else .done := by
    rcases htold.status _ hsent with hpending | hstatus
    · rw [hpending] at hterminal
      exact absurd hterminal (by decide)
    · exact hstatus
  apply truthful_iff
  by_cases hzero : (u.heap s).uploadsDone + (succeeds u s a).toNat = 0
  · rw [if_pos hzero] at hstatus
    exact .inr ⟨hstatus, fun h => (hown.mpr h).ne' hzero⟩
  · rw [if_neg hzero] at hstatus
    exact .inl ⟨hstatus, hown.mp (Nat.pos_of_ne_zero hzero)⟩

/-- A request for one window. -/
def oneWindow : SegId → NewSegmenter := fun _ => .ofEvent false 1000 1010 0 0 15 0 "cam" "sync" 0

/-- The window is uploaded. -/
theorem status_truthful_uploaded :
    ∃ u ∈ exec (step .insertion) (start 7 oneWindow)
        [.scheduleUpload 0, .fire 1 (.exact []), .fire 0 (.exact [])],
      ∃ v ∈ step .insertion u (.reportFinished 0 true), ∃ m, (0, m) ∈ v.sent.drop u.sent.length ∧
        m.status = .done ∧ Truthful .insertion
          ([.scheduleUpload 0, .fire 1 (.exact []), .fire 0 (.exact [])] ++ [.reportFinished 0 true]) v 0 m.status := by
  have hrun : ∃ u ∈ exec (step .insertion) (start 7 oneWindow)
        [.scheduleUpload 0, .fire 1 (.exact []), .fire 0 (.exact [])],
      ∃ v ∈ step .insertion u (.reportFinished 0 true), ∃ p ∈ v.sent.drop u.sent.length,
        p.1 = 0 ∧ p.2.status = .done ∧ ∃ r ∈ v.planned[0]?, r.segment = 0 := by decide +kernel
  obtain ⟨u, hu, v, hv, ⟨_, m⟩, hm, rfl, hdone, r, hr, hsegment⟩ := hrun
  refine ⟨u, hu, v, hv, m, hm, hdone, ?_⟩
  exact (status_truthful_iff .insertion 7 oneWindow _ _ (by decide +kernel) hu hv hm (by rw [hdone]; decide)).mpr
    (.inr (.inr ⟨r, ⟨0, by simp, hr⟩, hsegment⟩))

/-- The window is on the cloud already, and the request is reported as failed. -/
theorem status_error_onCloud :
    ∃ u ∈ exec (step .insertion) (start 7 oneWindow) [.scheduleUpload 0, .fire 1 (.exact [(900, 1200)])],
      ∃ v ∈ step .insertion u (.fire 0 (.exact [(900, 1200)])), ∃ m, (0, m) ∈ v.sent.drop u.sent.length ∧
        m.status.terminal = true ∧ ¬ Truthful .insertion
          ([.scheduleUpload 0, .fire 1 (.exact [(900, 1200)])] ++ [.fire 0 (.exact [(900, 1200)])]) v 0 m.status := by
  have hrun : ∃ u ∈ exec (step .insertion) (start 7 oneWindow)
        [.scheduleUpload 0, .fire 1 (.exact [(900, 1200)])],
      ∃ v ∈ step .insertion u (.fire 0 (.exact [(900, 1200)])), ∃ p ∈ v.sent.drop u.sent.length,
        p.1 = 0 ∧ p.2.status = .error ∧ (v.heap 0).firstTime = 1000 ∧ (v.heap 0).lastTime = 1010 := by
    decide +kernel
  obtain ⟨u, hu, v, hv, ⟨_, m⟩, hm, rfl, herror, hfirst, hlast⟩ := hrun
  refine ⟨u, hu, v, hv, m, hm, by rw [herror]; decide, fun h => ?_⟩
  have hdone := h.done ⟨1000, ?_⟩ fun t ht => ?_
  · rw [herror] at hdone
    cases hdone
  · refine ⟨by rw [hfirst], by rw [hlast]; decide, 0, .exact [(900, 1200)], by simp, 1000, 1010, _,
      List.mem_singleton.mpr rfl, by decide, by decide, by decide⟩
  · refine .inl (.inr ⟨0, .exact [(900, 1200)], by simp, 1000, 1010, mem_instants.mpr ⟨⟨900, 1200⟩, by decide, ?_⟩⟩)
    obtain ⟨h1, h2, -⟩ := ht
    rw [hfirst] at h1
    rw [hlast] at h2
    constructor <;> linarith

end SegmentedUploader
end CloudAgent.Agent
