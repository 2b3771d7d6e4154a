import CloudAgent.Agent.Manager.Limits

/-! The counters of running uploads, which the scheduling of uploads relies on. -/
namespace CloudAgent.Agent
open Utils Proto Transition
namespace Manager

variable {p : Profile} {m m' : Manager}

/-- Conditions that ask for nothing are met by every queue. -/
theorem queueMeets_free (env : UploadEnv) (q : List GetDirectUploadUrl) (m : Manager) :
    ({} : Conditions).queueMeets p env q m = true := by
  induction q generalizing m with
  | nil => rw [Conditions.queueMeets]
  | cons r q ih =>
    rw [Conditions.queueMeets]
    split
    · dsimp only
      split
      · exact ih _
      · split
        · split
          · rfl
          · exact ih _
        · exact ih _
    · rfl

theorem admits_free (m : Manager) (a : Action) : ({} : Conditions).Admits p m a = true := by
  cases a with
  | fireUploadTimer t env =>
    rw [Conditions.Admits]
    split
    · rfl
    · rfl
    · rfl
    · dsimp only
      rw [queueMeets_free, Bool.or_true]
  | directUploadUrl msg isCanceled => exact Bool.or_true _
  | notifyEvent ev env =>
    rw [Conditions.Admits]
    split
    · rfl
    · exact Bool.or_true _
  | setRegistered | scheduleDirectUpload | cancelDirectUploadsByTicket | fireAckTimer | httpFinished => rfl

/-- Whatever has happened, the manager is sound. -/
theorem sound_of_exec {camId : ℤ} {as : List Action} (he : exec (step p) (start camId) as = some m) : m.Sound :=
  (run_invariant (c := {}) (P := fun _ => True) (fun _ _ _ _ _ => trivial) trivial
    (Meets.of_forall_mem fun a _ u => admits_free u a) he).1

theorem uploading_httpFinished (m : Manager) (req : UploadRequestHttp) (code : ℤ) (kind : MediaType) :
    (m.httpFinished req code).uploading kind =
      if kind = req.mediaType then m.uploading kind - 1 else m.uploading kind :=
  uploading_countUploading (m.onFinished req.initiator (code = 200)) (· - 1) req.mediaType kind

/-- In every state of every run the counters are the numbers of running uploads, and the end of an upload takes one from
the counter of its kind, which is not zero, and leaves the others. -/
theorem counters_exact (p : Profile) (camId : ℤ) (as : List Action) (u : Manager)
    (he : exec (step p) (start camId) as = some u) :
    (∀ kind, u.uploading kind = u.http.countP (·.mediaType = kind)) ∧
      ∀ k req code v, u.http[k]? = some req → u.step p (.httpFinished k code) = some v →
        ∀ kind, u.uploading kind = v.uploading kind + if kind = req.mediaType then 1 else 0 := by
  have hcount := (sound_of_exec he).counters
  refine ⟨hcount, fun k req code v hk hs kind => ?_⟩
  obtain ⟨r, hr, rfl⟩ := Option.map_eq_some_iff.mp hs
  obtain rfl := Option.some.inj (hk.symm.trans hr)
  have hrest : ({ u with http := u.http.eraseIdx k } : Manager).uploading kind = u.uploading kind := by
    cases kind <;> rfl
  rw [uploading_httpFinished, hrest]
  split
  next heq =>
    -- the upload that ends is one of those that are counted
    have hpos : 0 < u.http.countP (·.mediaType = kind) :=
      List.countP_pos_iff.mpr ⟨req, List.mem_of_getElem? hk, decide_eq_true heq.symm⟩
    have := hcount kind
    omega
  · rfl

/-- A snapshot is uploaded, and the upload fails. -/
theorem counters_exact_snapshot : ∃ u, exec (step {}) (start 7)
    [.setRegistered true, .notifyEvent {} snapshotEnv, .directUploadUrl (reply 1 "OK") fun _ => false] = some u ∧
      u.uploading .snapshot = 1 ∧ (∀ kind, u.uploading kind = u.http.countP (·.mediaType = kind)) ∧
        ∃ req v, u.http[0]? = some req ∧ u.step {} (.httpFinished 0 500) = some v ∧
          ∀ kind, u.uploading kind = v.uploading kind + if kind = req.mediaType then 1 else 0 := by
  have hrun : ∃ u ∈ exec (step {}) (start 7) [.setRegistered true, .notifyEvent {} snapshotEnv,
      .directUploadUrl (reply 1 "OK") fun _ => false], u.uploading .snapshot = 1 ∧ u.http[0]?.isSome := by
    decide +kernel
  obtain ⟨u, hu, hone, hsome⟩ := hrun
  obtain ⟨req, hreq⟩ := Option.isSome_iff_exists.mp hsome
  obtain ⟨hcount, hfinish⟩ := counters_exact {} 7 _ u hu
  have hs : u.step {} (.httpFinished 0 500) =
      some (({ u with http := u.http.eraseIdx 0 } : Manager).httpFinished req 500) := by
    rw [step, hreq, Option.map_some]
  exact ⟨u, hu, hone, hcount, req, _, hreq, hs, hfinish 0 req 500 _ hreq hs⟩

end Manager
end CloudAgent.Agent
