import CloudAgent.Net.HttpReply

/-! The upload of previews over the HTTP transport, whose other requests go on beside them. -/
namespace CloudAgent.Control
open Net Transition

/-- The manager's part in the upload of previews. `previews` are the requests that `on_update_preview` made. -/
structure Preview where
  http : Http
  previewUploading : Bool
  previews : List ℕ

namespace Preview

def start : Preview := ⟨.start, false, []⟩

/-- `on_update_preview`; `snapshot` is the result of `get_snapshot`, if there is a snapshot stream, and `r`
the new request. -/
def onUpdatePreview (p : Preview) (snapshot : Option Bool) (r : ℕ) : Preview × Bool :=
  match snapshot with
  | none => (p, false)
  | some taken =>
    if p.previewUploading then (p, false)
    else if taken then (⟨p.http.make r, true, p.previews ++ [r]⟩, true)
    else (p, false)

/-- The transport goes on; a call of the `response_` of a preview takes the flag back. -/
def advance (p : Preview) (http : Http) : Preview :=
  { p with
    http
    previewUploading := p.previewUploading &&
      (http.answers.drop p.http.answers.length).all (·.req ∉ p.previews) }

/-- The cloud asks for a preview, or something else happens to the transport. -/
inductive Event
  | updatePreview (snapshot : Option Bool) (r : ℕ)
  | http (e : Http.Event)
  deriving DecidableEq

/-- A preview is a new request, and nothing else makes it. The flag is set without the lock of the queue: a preview
that is asked for while the loop over the queue deals with a failure only comes behind the request at the front. -/
def step (p : Preview) : Event → Option Preview
  | .updatePreview snapshot r => if r ∈ p.http.made then none else some (p.onUpdatePreview snapshot r).1
  | .http e => if ∃ r ∈ Http.makes e, r ∈ p.previews then none else (p.http.step e).map p.advance

/-- No upload of a preview had a connection error before there was a connection. -/
def NoneFailed (p : Preview) : Prop := ∀ r ∈ p.previews, r ∉ p.http.failed

variable {p p' : Preview} {e : Event} {r : ℕ}

/-- One request of a preview is outstanding while the flag is set, and none otherwise. -/
structure Flagged (p : Preview) : Prop where
  accounted : p.http.Accounted
  once : ∀ r ∈ p.previews, p.http.made.count r = 1
  idle : p.previewUploading = false → ∀ r ∈ p.previews, p.http.outstanding r = 0
  busy : p.previewUploading = true →
    ∃ r ∈ p.previews, p.http.outstanding r = 1 ∧ ∀ s ∈ p.previews, s ≠ r → p.http.outstanding s = 0

theorem flagged_start : start.Flagged :=
  ⟨Http.accounted_start, fun _ hr => absurd hr List.not_mem_nil, fun _ _ hr => absurd hr List.not_mem_nil,
    fun h => by simp [start] at h⟩

theorem Flagged.onUpdatePreview (hf : p.Flagged) (snapshot : Option Bool) (hr : r ∉ p.http.made) :
    (p.onUpdatePreview snapshot r).1.Flagged := by
  obtain _ | _ | _ := snapshot
  · exact hf
  · cases hu : p.previewUploading <;> simpa [Preview.onUpdatePreview, hu] using hf
  · cases hu : p.previewUploading with
    | true => simpa [Preview.onUpdatePreview, hu] using hf
    | false =>
      have hnew : ∀ s ∈ p.previews, s ≠ r := by
        rintro s hs rfl
        exact hr (List.count_pos_iff.mp (by rw [hf.once s hs]; decide))
      have hzero := hf.accounted.outstanding_le r
      rw [List.count_eq_zero.mpr hr] at hzero
      have hout := p.http.outstanding_make r
      simp only [Preview.onUpdatePreview, hu, Bool.false_eq_true, if_false, if_true]
      refine ⟨hf.accounted.make r, fun s hs => ?_, fun h => by simp at h, fun _ => ?_⟩
      · obtain hs | hs := List.mem_append.mp hs
        · simp [Http.make, List.count_append, hf.once s hs, (hnew s hs).symm]
        · obtain rfl := List.mem_singleton.mp hs
          simp [Http.make, List.count_append, List.count_eq_zero.mpr hr]
      · refine ⟨r, List.mem_append_right _ List.mem_cons_self, ?_, fun s hs hne => ?_⟩
        · rw [hout, if_pos rfl]
          omega
        · have hs := (List.mem_append.mp hs).resolve_right (by simpa using hne)
          rw [hout, if_neg (Ne.symm hne), hf.idle hu s hs]

theorem count_made_of_step {h h' : Http} {e : Http.Event} (hs : h.step e = some h') (hr : r ∉ Http.makes e) :
    h'.made.count r = h.made.count r := by
  have hnone : (Http.makes e).toList.count r = 0 := List.count_eq_zero.mpr (by simpa using hr)
  rw [Http.step_made hs, List.count_append, hnone, Nat.add_zero]

/-- A request that no further call of `make` is for is outstanding until it is answered, if it has no connection
error before there is a connection. -/
theorem outstanding_step {h h' : Http} {e : Http.Event} {new : List HttpAnswer} (ha : h.Accounted)
    (hs : h.step e = some h') (hnew : h'.answers = h.answers ++ new) (hr : r ∉ Http.makes e) (hfailed : r ∉ h'.failed) :
    h'.outstanding r + (new.map HttpAnswer.req).count r = h.outstanding r := by
  have hmade := count_made_of_step hs hr
  have hbefore := ha.made r
  have hafter := (ha.step hs).made r
  have hnone : r ∉ h.failed := fun hm => hfailed ((Http.step_history hs).2.subset hm)
  rw [List.count_eq_zero.mpr hnone] at hbefore
  rw [List.count_eq_zero.mpr hfailed] at hafter
  simp only [Http.answered, hnew, List.map_append, List.count_append] at hbefore hafter
  omega

theorem Flagged.advance (hf : p.Flagged) {e : Http.Event} {http : Http} (hs : p.http.step e = some http)
    (hother : ∀ r ∈ p.previews, r ∉ Http.makes e) (hn : (p.advance http).NoneFailed) : (p.advance http).Flagged := by
  obtain ⟨new, hnew⟩ := (Http.step_history hs).1
  have hout : ∀ r ∈ p.previews, http.outstanding r + (new.map HttpAnswer.req).count r = p.http.outstanding r :=
    fun r hr => outstanding_step hf.accounted hs hnew.symm (hother r hr) (hn r hr)
  have hflag : (p.advance http).previewUploading =
      (p.previewUploading && new.all (·.req ∉ p.previews)) := by
    simp [Preview.advance, ← hnew]
  refine ⟨hf.accounted.step hs, fun r hr => (count_made_of_step hs (hother r hr)).trans (hf.once r hr),
    fun hidle r hr => ?_, fun hbusy => ?_⟩
  · have hr' := hout r hr
    cases hu : p.previewUploading with
    | false =>
      have := hf.idle hu r hr
      exact Nat.eq_zero_of_add_eq_zero_right (hr'.trans this)
    | true =>
      -- the answer that took the flag back was for the one preview that was outstanding
      obtain ⟨s, hs, hone, hzero⟩ := hf.busy hu
      rw [hflag, hu, Bool.true_and, List.all_eq_false] at hidle
      obtain ⟨a, ha, hmem⟩ := hidle
      have hmem : a.req ∈ p.previews := by simpa using hmem
      have hpos : 0 < (new.map HttpAnswer.req).count a.req :=
        List.count_pos_iff.mpr (List.mem_map_of_mem ha)
      obtain rfl : a.req = s := by
        by_contra hne
        have := hout a.req hmem
        have := hzero a.req hmem hne
        omega
      by_cases hra : r = a.req
      · subst hra
        exact show http.outstanding a.req = 0 by omega
      · have := hzero r hr hra
        exact show http.outstanding r = 0 by omega
  · rw [hflag, Bool.and_eq_true, List.all_eq_true] at hbusy
    obtain ⟨s, hs, hone, hzero⟩ := hf.busy hbusy.1
    have hno : ∀ r ∈ p.previews, (new.map HttpAnswer.req).count r = 0 := by
      intro r hr
      apply List.count_eq_zero.mpr
      intro hm
      obtain ⟨a, ha, rfl⟩ := List.mem_map.mp hm
      simpa [hr] using hbusy.2 a ha
    refine ⟨s, hs, ?_, fun r hr hne => ?_⟩
    · exact (hno s hs ▸ hout s hs).trans hone
    · exact (hno r hr ▸ hout r hr).trans (hzero r hr hne)

/-- Failures and previews stay what they are. -/
theorem noneFailed_of_step (hs : p.step e = some p') (hn : p'.NoneFailed) : p.NoneFailed := by
  cases e with
  | updatePreview snapshot r =>
    obtain ⟨-, hs⟩ := Option.ite_none_left_eq_some.mp hs
    obtain rfl := Option.some.inj hs
    intro s hmem hfailed
    obtain _ | _ | _ := snapshot
    · exact hn s hmem hfailed
    · cases hu : p.previewUploading with
      | true =>
        simp only [onUpdatePreview, hu, if_true] at hn
        exact hn s hmem hfailed
      | false =>
        simp only [onUpdatePreview, hu, Bool.false_eq_true, if_false] at hn
        exact hn s hmem hfailed
    · cases hu : p.previewUploading with
      | true =>
        simp only [onUpdatePreview, hu, if_true] at hn
        exact hn s hmem hfailed
      | false =>
        simp only [onUpdatePreview, hu, Bool.false_eq_true, if_false, if_true] at hn
        exact hn s (List.mem_append_left _ hmem) hfailed
  | http e =>
    obtain ⟨-, hs⟩ := Option.ite_none_left_eq_some.mp hs
    obtain ⟨http, hhttp, rfl⟩ := Option.map_eq_some_iff.mp hs
    exact fun s hs hfailed => hn s hs ((Http.step_history hhttp).2.subset hfailed)

theorem Flagged.step (hf : p.Flagged) (hs : p.step e = some p') (hn : p'.NoneFailed) : p'.Flagged := by
  cases e with
  | updatePreview snapshot r =>
    obtain ⟨hr, hs⟩ := Option.ite_none_left_eq_some.mp hs
    exact Option.some.inj hs ▸ hf.onUpdatePreview snapshot hr
  | http e =>
    obtain ⟨hother, hs⟩ := Option.ite_none_left_eq_some.mp hs
    obtain ⟨http, hhttp, rfl⟩ := Option.map_eq_some_iff.mp hs
    exact hf.advance hhttp (fun r hr hm => hother ⟨r, hm, hr⟩) hn

theorem flagged_of_exec {es : List Event} (he : exec Preview.step start es = some p) (hn : p.NoneFailed) : p.Flagged :=
  run_invariant (P := fun p => p.NoneFailed → p.Flagged)
    (fun _ _ _ hf hs hn => (hf (noneFailed_of_step hs hn)).step hs hn) (fun _ => flagged_start) he hn

/-- While the flag is set, some preview is outstanding. -/
structure Uploading (p : Preview) : Prop where
  accounted : p.http.Accounted
  outstanding : p.previewUploading = true → ∃ r ∈ p.previews, p.http.outstanding r ≠ 0

theorem Uploading.onUpdatePreview (hf : p.Uploading) (snapshot : Option Bool) (r : ℕ) :
    (p.onUpdatePreview snapshot r).1.Uploading := by
  obtain _ | _ | _ := snapshot
  · exact hf
  · cases hu : p.previewUploading <;> simpa [Preview.onUpdatePreview, hu] using hf
  · cases hu : p.previewUploading with
    | true => simpa [Preview.onUpdatePreview, hu] using hf
    | false =>
      simp only [Preview.onUpdatePreview, hu, Bool.false_eq_true, if_false, if_true]
      refine ⟨hf.accounted.make r, fun _ => ⟨r, List.mem_append_right _ List.mem_cons_self, ?_⟩⟩
      rw [Http.outstanding_make, if_pos rfl]
      exact Nat.succ_ne_zero _

/-- The flag stays only where no preview is answered, and without an answer a preview stays outstanding. -/
theorem Uploading.advance (hf : p.Uploading) {e : Http.Event} {http : Http} (hs : p.http.step e = some http)
    (hother : ∀ r ∈ p.previews, r ∉ Http.makes e) : (p.advance http).Uploading := by
  obtain ⟨⟨new, hnew⟩, hfailed⟩ := Http.step_history hs
  refine ⟨hf.accounted.step hs, fun hbusy => ?_⟩
  simp only [Preview.advance, ← hnew, List.drop_left, Bool.and_eq_true, List.all_eq_true] at hbusy
  obtain ⟨r, hr, hout⟩ := hf.outstanding hbusy.1
  refine ⟨r, hr, ?_⟩
  have hnone : (new.map HttpAnswer.req).count r = 0 := by
    apply List.count_eq_zero.mpr
    intro hm
    obtain ⟨a, ha, rfl⟩ := List.mem_map.mp hm
    simpa [hr] using hbusy.2 a ha
  have hmade := count_made_of_step hs (hother r hr)
  have hbefore := hf.accounted.made r
  have hafter := (hf.accounted.step hs).made r
  have hle := hfailed.sublist.count_le r
  simp only [Http.answered, ← hnew, List.map_append, List.count_append, hnone] at hbefore hafter
  change http.outstanding r ≠ 0
  omega

theorem uploading_of_exec {es : List Event} (he : exec Preview.step start es = some p) : p.Uploading := by
  refine run_invariant (fun p e p' hf hs => ?_) ⟨Http.accounted_start, fun h => by simp [start] at h⟩ he
  cases e with
  | updatePreview snapshot r =>
    obtain ⟨-, hs⟩ := Option.ite_none_left_eq_some.mp hs
    exact Option.some.inj hs ▸ hf.onUpdatePreview snapshot r
  | http e =>
    obtain ⟨hother, hs⟩ := Option.ite_none_left_eq_some.mp hs
    obtain ⟨http, hhttp, rfl⟩ := Option.map_eq_some_iff.mp hs
    exact hf.advance hhttp fun r hr hm => hother ⟨r, hm, hr⟩

/-- As long as no upload of a preview has a connection error before there is a connection, two previews are never
uploaded at a time, and the flag tells whether one is. Once nothing is queued and no connection is open the next preview
is accepted, whatever became of the ones before. -/
theorem one_preview_at_a_time {es : List Event} (he : exec Preview.step start es = some p) :
    (p.NoneFailed →
      (∀ r ∈ p.previews, ∀ s ∈ p.previews, p.http.outstanding r ≠ 0 → p.http.outstanding s ≠ 0 → r = s) ∧
        (p.previewUploading = true ↔ ∃ r ∈ p.previews, p.http.outstanding r ≠ 0)) ∧
      (p.http.requestsQ = [] → p.http.wsis = [] → ∀ r, (p.onUpdatePreview (some true) r).2 = true) := by
  refine ⟨fun hn => ?_, fun hq hw r => ?_⟩
  · have hf := flagged_of_exec he hn
    have hiff : p.previewUploading = true ↔ ∃ r ∈ p.previews, p.http.outstanding r ≠ 0 := by
      refine ⟨(uploading_of_exec he).outstanding, fun ⟨r, hr, hout⟩ => ?_⟩
      by_contra hu
      exact hout (hf.idle (by simpa using hu) r hr)
    refine ⟨fun r hr s hs hrout hsout => ?_, hiff⟩
    obtain ⟨t, -, -, hzero⟩ := hf.busy (hiff.mpr ⟨r, hr, hrout⟩)
    have hrt : r = t := by
      by_contra hne
      exact hrout (hzero r hr hne)
    have hst : s = t := by
      by_contra hne
      exact hsout (hzero s hs hne)
    exact hrt.trans hst.symm
  · have hu : p.previewUploading = false := by
      by_contra hu
      obtain ⟨s, -, hout⟩ := (uploading_of_exec he).outstanding (by simpa using hu)
      simp [Http.outstanding, hq, hw] at hout
    simp [onUpdatePreview, hu]

/-- The second preview is turned down while the first one is on its way, and the third one is accepted after
the first one failed on its connection. -/
def previewsThree : List Event :=
  [.updatePreview (some true) 1, .http (.makeBlocked 2), .updatePreview (some true) 3,
    .http (.doRequest .connected), .http (.doRequest .connected), .http (.lwsCallback 0 .clientConnectionError),
    .updatePreview (some true) 4]

instance (p : Preview) : Decidable p.NoneFailed := List.decidableBAll _ _

theorem one_preview_at_a_time_three :
    ∃ p, exec Preview.step start previewsThree = some p ∧ p.previews = [1, 4] ∧
      (p.previewUploading = true ↔ ∃ r ∈ p.previews, p.http.outstanding r ≠ 0) := by
  have hrun : ∃ p ∈ exec Preview.step start previewsThree, p.previews = [1, 4] ∧ p.NoneFailed := by decide +kernel
  obtain ⟨p, hp, hpreviews, hn⟩ := hrun
  exact ⟨p, hp, hpreviews, ((one_preview_at_a_time hp).1 hn).2⟩

-- The second answer of the first preview takes the flag of the second one back, so that a third one goes out beside it.
example : ∃ p ∈ exec Preview.step start [.updatePreview (some true) 1, .http (.doRequest .failed),
    .updatePreview (some true) 2, .http .giveUp, .updatePreview (some true) 3],
    p.http.outstanding 2 = 1 ∧ p.http.outstanding 3 = 1 := by decide +kernel

end Preview
end CloudAgent.Control
