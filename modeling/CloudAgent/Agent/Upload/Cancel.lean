import CloudAgent.Agent.Upload.Active

/-! Canceling a synchronization. The callback of `cancel_upload` marks the listed segmenters of the
ticket; a segmenter of the ticket that still waits for its delayed start is listed later. -/
namespace CloudAgent.Agent
open Utils Transition

/-- A segmenter with this ticket plans no more uploads. -/
def Segmenter.Muted (ticket : String) (x : Segmenter) : Prop :=
  x.ticket = ticket → x.canceled = true ∨ x.processed = true

instance (ticket : String) (x : Segmenter) : Decidable (x.Muted ticket) :=
  inferInstanceAs (Decidable (x.ticket = ticket → x.canceled = true ∨ x.processed = true))

namespace SegmentedUploader

variable {std : StdSort} {u v : SegmentedUploader} {s : SegId} {ticket : String} {n : ℕ}

/-- Nothing works on the ticket any more, and no upload after the first `n` has it. -/
def Quiet (ticket : String) : ℕ → SegmentedUploader → Prop :=
  OnActive (fun _ x => x.Muted ticket) fun r => r.memorycardSyncTicket ≠ ticket

theorem quiet_rule (ht : ticket ≠ "") :
    ActiveRule (fun _ x => x.Muted ticket) fun r => r.memorycardSyncTicket ≠ ticket where
  evolve _ x y hx hy he := by
    rcases hy.ticket with hxy | hy'
    · exact (hx (hxy ▸ he)).imp hy.canceled hy.processed
    · exact absurd (he.symm.trans hy') ht
  plan _ x clip hx hp hc he := by
    rcases hx he with h | h
    · simp [hc] at h
    · simp [hp] at h

/-- The callback mutes every segmenter that it visits. -/
theorem muted_cancelFrom (ht : ticket ≠ "") (l : List SegId) (u : SegmentedUploader) {j : SegId}
    (hj : j ∈ l) : ((cancelFrom ticket l u).heap j).Muted ticket := by
  induction l generalizing u with
  | nil => simp at hj
  | cons s l ih =>
    simp only [SegmentedUploader.cancelFrom]
    rcases List.mem_cons.mp hj with rfl | hj
    · apply (cancelFrom_keeps (quiet_rule ht) ticket l _).1
      split
      · rename_i hcancel
        refine fun _ => Or.inl ?_
        unfold SegmentedUploader.cancelSegmenter
        simp only [setSeg_scheduledSyncStarts, setSeg_http]
        split <;> exact heap_send (P := fun x => x.canceled = true) 100 j j (fun _ _ _ h hc _ => hc h)
          (by simp)
      · rename_i hskip
        intro htj
        simp only [htj, decide_true, Bool.true_and, Bool.not_eq_true', Bool.not_eq_false] at hskip
        exact Or.inl hskip
    · exact ih _ hj

/-- The segmenters that wait for their delayed start. -/
def waiting (u : SegmentedUploader) : List SegId :=
  u.http.pendingCbs.filterMap fun
    | .segmenterEnqueue s => some s
    | _ => none

theorem mem_waiting : s ∈ u.waiting ↔ .segmenterEnqueue s ∈ u.http.pendingCbs := by
  simp only [waiting, List.mem_filterMap]
  constructor
  · rintro ⟨cb, hcb, hs⟩
    cases cb <;> simp at hs
    exact hs ▸ hcb
  · intro h
    exact ⟨_, h, rfl⟩

/-- What the callback of `cancel_upload` leaves behind. -/
theorem quiet_of_cancel {env : TickEnv} {t : ℕ} (ht : ticket ≠ "")
    (hcb : u.http.pendingCb t = some (.segmenterCancelByTicket ticket))
    (hwait : ∀ s ∈ u.waiting, s ∈ u.segmenters ∨ (u.heap s).Muted ticket)
    (hv : SegmentedUploader.step std u (.fire t env) = some v) : Quiet ticket v.planned.length v := by
  obtain ⟨⟨cb, http⟩, hf, rfl⟩ := Option.map_eq_some_iff.mp hv
  obtain ⟨-, hrest⟩ := Net.LwsCommon.mem_pendingCbs_of_sulCb hf
  obtain ⟨hp, -, -⟩ := Net.LwsCommon.sulCb_eq_some hf
  obtain rfl := hp.unique (Net.LwsCommon.pendingCb_eq_some.mp hcb)
  simp only [runCb, segmenterCancelByTicket, ht, if_false]
  obtain ⟨h1, h2, h3⟩ := cancelFrom_keeps (quiet_rule ht) ticket u.segmenters { u with http := http }
  refine ⟨fun j hj => ?_, by simp⟩
  rcases h2 j hj with hlisted | hpending
  · exact muted_cancelFrom ht _ _ hlisted
  · rcases hwait j (mem_waiting.mpr (hrest _ hpending)) with hlisted | hmuted
    · exact muted_cancelFrom ht _ _ hlisted
    · exact h1 j hmuted

/-- Once the callback of `cancel_upload` has run, no upload is planned for its ticket, if no
segmenter of the ticket was still waiting for its start and none is scheduled afterwards. -/
theorem cancel_effective (std : StdSort) (camId : ℤ) (created : SegId → NewSegmenter)
    (as bs : List Action) (t : ℕ) (env : TickEnv) (ticket : String) (u v w : SegmentedUploader)
    (hu : exec (SegmentedUploader.step std) (start camId created) as = some u)
    (hcb : u.http.pendingCb t = some (.segmenterCancelByTicket ticket)) (ht : ticket ≠ "")
    (hwait : ∀ s ∈ u.waiting, s ∈ u.segmenters ∨ (u.heap s).Muted ticket)
    (hv : SegmentedUploader.step std u (.fire t env) = some v)
    (hm : Meets (SegmentedUploader.step std) (ScheduleMeets fun _ x => x.Muted ticket) v bs)
    (hw : exec (SegmentedUploader.step std) v bs = some w) :
    ∀ r ∈ w.planned.drop v.planned.length, r.memorycardSyncTicket ≠ ticket := by
  have hsound : u.Sound := ((sound_step std).run (sound_start camId created)
    (sound_start camId created) (meets_default _ _) hu).1
  have hquiet := quiet_of_cancel ht hcb hwait hv
  exact (hquiet.run (quiet_rule ht) (hsound.step hv) hm hw).planned

/-- A recording to be synchronized after a delay. -/
def delayedSync : NewSegmenter :=
  .ofEvent false (seconds 1000) 0 (seconds 5) (seconds 5) (seconds 15) (seconds 10) "cam" "request" 0

theorem cancel_effective_listed :
    ∃ u v w, exec (SegmentedUploader.step .insertion) (start 7 fun _ => delayedSync)
        [.scheduleUpload 0, .fire 1 (.exact []), .cancelUpload "request"] = some u ∧
      SegmentedUploader.step .insertion u (.fire 2 (.exact [])) = some v ∧
      exec (SegmentedUploader.step .insertion) v [.fire 0 (.exact [])] = some w ∧
      ∀ r ∈ w.planned.drop v.planned.length, r.memorycardSyncTicket ≠ "request" := by
  have hrun : ∃ u ∈ exec (SegmentedUploader.step .insertion) (start 7 fun _ => delayedSync)
      [.scheduleUpload 0, .fire 1 (.exact []), .cancelUpload "request"],
      u.http.pendingCb 2 = some (.segmenterCancelByTicket "request") ∧
      (∀ s ∈ u.waiting, s ∈ u.segmenters ∨ (u.heap s).Muted "request") ∧
      ∃ v ∈ SegmentedUploader.step .insertion u (.fire 2 (.exact [])),
      (exec (SegmentedUploader.step .insertion) v [.fire 0 (.exact [])]).isSome := by
    decide +kernel
  obtain ⟨u, hu, hcb, hwait, v, hv, hw⟩ := hrun
  obtain ⟨w, hw⟩ := Option.isSome_iff_exists.mp hw
  exact ⟨u, v, w, hu, hv, hw, cancel_effective .insertion 7 _ _ [.fire 0 (.exact [])] 2 (.exact [])
    "request" u v w hu hcb (by decide) hwait hv ⟨trivial, fun _ _ => trivial⟩ hw⟩

/-- The request is canceled while its segmenter waits for its start: the segmenter is enqueued all
the same, and the next tick plans an upload for it. -/
theorem cancel_lost :
    ∃ u ∈ exec (SegmentedUploader.step .insertion) (start 7 fun _ => delayedSync)
        [.scheduleUpload 0, .cancelUpload "request"],
      u.http.pendingCb 2 = some (.segmenterCancelByTicket "request") ∧
      ∃ v ∈ SegmentedUploader.step .insertion u (.fire 2 (.exact [])),
      ∃ w ∈ exec (SegmentedUploader.step .insertion) v [.fire 1 (.exact []), .fire 0 (.exact [])],
      ∃ r ∈ w.planned.drop v.planned.length, r.memorycardSyncTicket = "request" := by
  decide +kernel

end SegmentedUploader
end CloudAgent.Agent
