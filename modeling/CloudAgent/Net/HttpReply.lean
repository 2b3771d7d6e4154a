import CloudAgent.Net.Http
import Mathlib.Tactic.ByContra

/-! What a request that is made once holds: the answer says what came from the peer, and a thread that
waits for the reply finds it complete as far as the transport can tell. -/
namespace CloudAgent.Net
open Transition

/-- The request has what came from the peer on the connection. -/
def HttpExchange.Holds (q : HttpExchange) (w : HttpWsi) : Prop :=
  q.responseBody = w.read ∧ q.status = w.response.getD (-1)

/-- The answer is what came from the peer on its connection, or says that there was none. -/
def HttpAnswer.Faithful (a : HttpAnswer) : Prop :=
  match a.wsi with
  | none => a.body = [] ∧ a.status = -2
  | some w => w.req = a.req ∧ a.body = w.read ∧ a.status = w.response.getD (-1)

/-- The answer agrees with the request, but for the status that a connection error takes away and the loop over the
queue sets when there is no connection. -/
def HttpAnswer.Left (a : HttpAnswer) (q : HttpExchange) : Prop :=
  q.responseBody = a.body ∧ (q.status = a.status ∨ a.wsi.isSome = true ∧ (q.status = -1 ∨ q.status = -2))

theorem HttpExchange.Holds.next {q : HttpExchange} {w : HttpWsi} (hq : q.Holds w) {reason : HttpReason}
    (hl : reason.last = false) : (q.lwsCallback reason).1.Holds (w.receive reason) := by
  cases reason with
  | establishedClientHttp response => exact ⟨hq.1, rfl⟩
  | receiveClientHttpRead data => exact ⟨congrArg (· ++ data) hq.1, hq.2⟩
  | completedClientHttp | default => exact hq
  | closedClientHttp | clientConnectionError => cases hl

theorem HttpExchange.Holds.ends {q : HttpExchange} {w : HttpWsi} (hq : q.Holds w) {reason : HttpReason}
    (hl : reason.last = true) :
    HttpAnswer.Faithful ⟨w.req, q.responseBody, q.status, some w⟩ ∧
      HttpAnswer.Left ⟨w.req, q.responseBody, q.status, some w⟩ (q.lwsCallback reason).1 := by
  refine ⟨⟨rfl, hq.1, hq.2⟩, ?_⟩
  cases reason with
  | closedClientHttp => exact ⟨rfl, .inl rfl⟩
  | clientConnectionError => exact ⟨rfl, .inr ⟨rfl, .inl rfl⟩⟩
  | establishedClientHttp response | receiveClientHttpRead data | completedClientHttp | default => cases hl

namespace Http
variable {h h' : Http} {k r : ℕ} {reason : HttpReason} {result : HttpConnect} {e : Event}

/-- The loop over the queue has still to deal with the request, which had a connection error before there was a
connection. -/
structure Failing (h : Http) (r : ℕ) : Prop where
  failing : h.failing = true
  front : h.requestsQ.head? = some r
  failed : r ∈ h.failed

/-- What is true of a request that `make` is called with at most once. While it is queued it is as it was
made, on a connection it has what came from the peer, and its thread goes on only when that is complete, or when
there is no connection. -/
structure Once (h : Http) (r : ℕ) : Prop where
  unmade : r ∉ h.made → h.requests r = {}
  queued : r ∈ h.requestsQ → (h.requests r).status = -1 ∧ (h.requests r).responseBody = [] ∧
    ∀ a ∈ h.answers, a.req = r → a.wsi.isSome = true
  connected : ∀ w ∈ h.wsis, w.req = r → (h.requests r).Holds w
  answered : ∀ a ∈ h.answers, a.req = r → a.Faithful ∧ a.Left (h.requests r)
  woken : r ∈ h.waiting → (h.requests r).closeConnection = true →
    (r ∈ h.requestsQ → h.Failing r) ∧ ∀ w ∈ h.wsis, w.req = r → w.completed = true

/-- A step that brings nothing new for the request. -/
theorem Once.frame (ho : h.Once r) (hrequest : h'.requests r = h.requests r) (hmade : r ∈ h.made → r ∈ h'.made)
    (hq : r ∈ h'.requestsQ → r ∈ h.requestsQ) (hwsis : ∀ w ∈ h'.wsis, w.req = r → w ∈ h.wsis)
    (hanswers : ∀ a ∈ h'.answers, a.req = r → a ∈ h.answers) (hwaiting : r ∈ h'.waiting → r ∈ h.waiting)
    (hfailing : h.Failing r → h'.Failing r) : h'.Once r where
  unmade hr := hrequest.trans (ho.unmade fun hm => hr (hmade hm))
  queued hr := by
    obtain ⟨hstatus, hbody, hwsi⟩ := ho.queued (hq hr)
    exact ⟨hrequest ▸ hstatus, hrequest ▸ hbody, fun a ha har => hwsi a (hanswers a ha har) har⟩
  connected w hw hwr := hrequest ▸ ho.connected w (hwsis w hw hwr) hwr
  answered a ha har := hrequest ▸ ho.answered a (hanswers a ha har) har
  woken hr hc := by
    obtain ⟨hqueue, hopen⟩ := ho.woken (hwaiting hr) (hrequest ▸ hc)
    exact ⟨fun hm => hfailing (hqueue (hq hm)), fun w hw hwr => hopen w (hwsis w hw hwr) hwr⟩

theorem forall_ne_of_count_map {α : Type*} {f : α → ℕ} {l : List α} (hl : (l.map f).count r = 0) :
    ∀ x ∈ l, f x ≠ r :=
  fun x hx hxr => List.count_eq_zero.mp hl (List.mem_map.mpr ⟨x, hx, hxr⟩)

theorem Accounted.unmade (ha : h.Accounted) (hr : r ∉ h.made) :
    r ∉ h.requestsQ ∧ (∀ w ∈ h.wsis, w.req ≠ r) ∧ (∀ a ∈ h.answers, a.req ≠ r) ∧ r ∉ h.waiting := by
  have hmade := ha.made r
  have hfailed := ha.failed_le r
  have hout := ha.outstanding_le r
  have hwaiting := ha.waiting r
  rw [List.count_eq_zero.mpr hr] at hmade hfailed hout hwaiting
  simp only [Http.answered, Http.outstanding] at hmade hout
  exact ⟨List.count_eq_zero.mp (by omega), forall_ne_of_count_map (by omega),
    forall_ne_of_count_map (by omega), List.count_eq_zero.mp (by omega)⟩

/-- Whatever is queued, on a connection or waited for was made. -/
theorem Accounted.mem_made (ha : h.Accounted)
    (hr : r ∈ h.requestsQ ∨ (∃ w ∈ h.wsis, w.req = r) ∨ r ∈ h.waiting) : r ∈ h.made := by
  by_contra hm
  obtain ⟨hq, hwsis, -, hwaiting⟩ := ha.unmade hm
  obtain hr | ⟨w, hw, hwr⟩ | hr := hr
  · exact hq hr
  · exact hwsis w hw hwr
  · exact hwaiting hr

/-- The queue holds the one call of `make` for the request, which is answered only after a connection error. -/
theorem Accounted.of_queued (ha : h.Accounted) (hone : h.made.count r ≤ 1) {rest : List ℕ}
    (hq : h.requestsQ = r :: rest) :
    r ∉ rest ∧ (∀ w ∈ h.wsis, w.req ≠ r) ∧ (h.failing = false → ∀ a ∈ h.answers, a.req ≠ r) := by
  have hmade := ha.made r
  have hout := ha.outstanding_le r
  have hfailed := ha.failed r
  rw [outstanding_of_queue hq, if_pos rfl] at hmade hout hfailed
  refine ⟨List.count_eq_zero.mp (by omega), forall_ne_of_count_map (by omega), fun hf => ?_⟩
  rw [atFront_of_not hf, Bool.toNat_false] at hfailed
  simp only [Http.answered] at hmade
  exact forall_ne_of_count_map (by omega)

/-- The connection holds the one call of `make` for its request. -/
theorem Accounted.of_connected (ha : h.Accounted) {w : HttpWsi} (hone : h.made.count w.req ≤ 1)
    (hw : h.wsis[k]? = some w) :
    w.req ∉ h.requestsQ ∧ (∀ v ∈ h.wsis.eraseIdx k, v.req ≠ w.req) ∧ ∀ a ∈ h.answers, a.req ≠ w.req := by
  have hmade := ha.made w.req
  have hout := ha.outstanding_le w.req
  have hfailed := ha.failed w.req
  have hfront := h.atFront_le_queue w.req
  simp only [Http.answered, Http.outstanding, count_req_eraseIdx hw, if_true] at hmade hout hfailed
  exact ⟨List.count_eq_zero.mp (by omega), forall_ne_of_count_map (by omega), forall_ne_of_count_map (by omega)⟩

theorem once_start (r : ℕ) : start.Once r where
  unmade _ := rfl
  queued hr := absurd hr List.not_mem_nil
  connected _ hw := absurd hw List.not_mem_nil
  answered _ ha := absurd ha List.not_mem_nil
  woken hr := absurd hr List.not_mem_nil

/-- The first call of `make` for a request queues it as it was constructed. -/
theorem once_of_unmade (ha : h.Accounted) (hr : r ∉ h.made) (hrequest : h'.requests r = {})
    (hmade : r ∈ h'.made) (hwsis : h'.wsis = h.wsis) (hanswers : h'.answers = h.answers) : h'.Once r := by
  obtain ⟨-, hw, hans, -⟩ := ha.unmade hr
  refine ⟨absurd hmade, fun _ => ⟨by simp [hrequest], by simp [hrequest], ?_⟩, ?_, ?_, fun _ hc => ?_⟩
  · exact fun a hm har => absurd har (hans a (hanswers ▸ hm))
  · exact fun w hm hwr => absurd hwr (hw w (hwsis ▸ hm))
  · exact fun a hm har => absurd har (hans a (hanswers ▸ hm))
  · simp [hrequest] at hc

theorem notMem_of_count_append (h1 : (h.made ++ [r]).count r ≤ 1) : r ∉ h.made := by
  rw [List.count_append, List.count_singleton_self] at h1
  exact List.count_eq_zero.mp (by omega)

theorem mem_of_mem_concat {α : Type*} {f : α → ℕ} {l : List α} {x y : α} (hx : x ∈ l ++ [y]) (hxr : f x = r)
    (hne : r ≠ f y) : x ∈ l := by
  apply (List.mem_append.mp hx).resolve_right
  intro hy
  apply hne
  rw [← hxr, List.mem_singleton.mp hy]

theorem head?_append_of_head? {l : List ℕ} (hl : l.head? = some r) (s : ℕ) : (l ++ [s]).head? = some r := by
  rw [List.head?_append, hl]
  rfl

theorem Once.make (ha : h.Accounted) (s : ℕ) (h1 : (h.make s).made.count r ≤ 1) (ho : h.Once r) :
    (h.make s).Once r := by
  by_cases hrs : r = s
  · subst hrs
    have hr := notMem_of_count_append h1
    exact once_of_unmade ha hr (ho.unmade hr) (by simp [Http.make]) rfl rfl
  · exact ho.frame rfl (by simp +contextual [Http.make]) (by simp [Http.make, hrs]) (fun _ hw _ => hw)
      (fun _ ha _ => ha) id fun hf => ⟨hf.failing, head?_append_of_head? hf.front s, hf.failed⟩

theorem Once.makeBlocked (ha : h.Accounted) (s : ℕ) (h1 : (h.makeBlocked s).made.count r ≤ 1) (ho : h.Once r) :
    (h.makeBlocked s).Once r := by
  by_cases hrs : r = s
  · subst hrs
    have hr := notMem_of_count_append h1
    exact once_of_unmade ha hr (by simp [Http.makeBlocked, Http.make, ho.unmade hr])
      (by simp [Http.makeBlocked, Http.make]) rfl rfl
  · exact ho.frame (by simp [Http.makeBlocked, Http.make, Function.update_of_ne hrs])
      (by simp +contextual [Http.makeBlocked, Http.make]) (by simp [Http.makeBlocked, Http.make, hrs])
      (fun _ hw _ => hw) (fun _ ha _ => ha) (by simp [Http.makeBlocked, Http.make, hrs])
      fun hf => ⟨hf.failing, head?_append_of_head? hf.front s, hf.failed⟩

theorem Once.wake (ha : h.Accounted) {s : ℕ} (hs : s ∈ h.waiting) (h1 : h.made.count r ≤ 1) (ho : h.Once r) :
    (h.wake s).Once r := by
  by_cases hc : (h.requests s).closeConnection = true
  · rw [Http.wake, if_pos hc]
    exact ho.frame rfl id id (fun _ hw _ => hw) (fun _ ha _ => ha) List.mem_of_mem_erase
      fun hf => ⟨hf.failing, hf.front, hf.failed⟩
  rw [Http.wake, if_neg hc]
  by_cases hrs : r = s
  · subst hrs
    have hleft : r ∉ h.waiting.erase r := by
      have := ha.waiting r
      exact List.count_eq_zero.mp (by rw [List.count_erase_self]; omega)
    have hmade : r ∈ h.made := ha.mem_made (.inr (.inr hs))
    exact ⟨absurd hmade, fun hr => by simpa using ho.queued hr,
      fun w hw hwr => by simpa [HttpExchange.Holds] using ho.connected w hw hwr,
      fun a hans har => by simpa [HttpAnswer.Left] using ho.answered a hans har, fun hr => absurd hr hleft⟩
  · exact ho.frame (by simp [Function.update_of_ne hrs]) id id (fun _ hw _ => hw) (fun _ ha _ => ha)
      List.mem_of_mem_erase fun hf => ⟨hf.failing, hf.front, hf.failed⟩

/-- The service thread takes up another request. -/
theorem Once.frame_request (ho : h.Once r) (hf : h.failing = false) {s : ℕ} {rest : List ℕ} (hrs : r ≠ s)
    (hq : h.requestsQ = s :: rest) (hs : h.doRequest result = some h') : h'.Once r := by
  have hnot : h.Failing r → h'.Failing r := fun hfail => absurd (hf.symm.trans hfail.failing) Bool.false_ne_true
  obtain ⟨-, t, rest', hq', hcases⟩ := doRequest_cases hs
  obtain ⟨rfl, rfl⟩ := List.cons.inj (hq.symm.trans hq')
  obtain ⟨-, rfl⟩ | ⟨-, rfl⟩ | ⟨-, rfl⟩ | ⟨-, rfl⟩ := hcases
  · exact ho.frame rfl id id (fun _ hw _ => hw) (fun _ ha _ => ha) id hnot
  · exact ho.frame (by simp [Function.update_of_ne hrs]) id id (fun _ hw _ => hw) (fun _ ha _ => ha) id hnot
  · exact ho.frame (by simp [Function.update_of_ne hrs]) id id (fun _ hw _ => hw)
      (fun _ hans har => mem_of_mem_concat hans har hrs) id hnot
  · exact ho.frame (by simp [Function.update_of_ne hrs]) id (fun hr => hq ▸ List.mem_cons_of_mem s hr)
      (fun _ hw hwr => mem_of_mem_concat hw hwr hrs) (fun _ ha _ => ha) id hnot

theorem Once.doRequest (ha : h.Accounted) (h1 : h.made.count r ≤ 1) (ho : h.Once r)
    (hs : h.doRequest result = some h') : h'.Once r := by
  obtain ⟨hf, s, rest, hq, hcases⟩ := doRequest_cases hs
  by_cases hrs : r = s
  · subst hrs
    obtain ⟨hr, hwsis, hnone⟩ := ha.of_queued h1 hq
    have hanswers := hnone hf
    obtain ⟨hstatus, hbody, -⟩ := ho.queued (hq ▸ List.mem_cons_self)
    have hmade : r ∈ h.made := ha.mem_made (.inl (hq ▸ List.mem_cons_self))
    obtain ⟨-, rfl⟩ | ⟨-, rfl⟩ | ⟨-, rfl⟩ | ⟨-, rfl⟩ := hcases
    · refine ⟨absurd hmade, ho.queued, ho.connected, ho.answered, fun hwait hc => ?_⟩
      -- the thread cannot have been woken before
      have hfail := (ho.woken hwait hc).1 (hq ▸ List.mem_cons_self)
      exact absurd (hf.symm.trans hfail.failing) Bool.false_ne_true
    · refine ⟨absurd hmade, fun _ => ⟨by simpa using hstatus, by simpa using hbody, fun a hans har => ?_⟩,
        fun w hw hwr => absurd hwr (hwsis w hw), fun a hans har => absurd har (hanswers a hans), fun _ hc => ?_⟩
      · exact absurd har (hanswers a hans)
      · simp at hc
    · refine ⟨absurd hmade, fun _ => ⟨by simp, by simpa using hbody, fun a hans har => ?_⟩,
        fun w hw hwr => absurd hwr (hwsis w hw), fun a hans har => ?_,
        fun _ _ => ⟨fun _ => ⟨rfl, by simp [hq], by simp⟩, fun w hw hwr => absurd hwr (hwsis w hw)⟩⟩
      · obtain hans | hans := List.mem_append.mp hans
        · exact absurd har (hanswers a hans)
        · rw [List.mem_singleton.mp hans]
          rfl
      · obtain hans | hans := List.mem_append.mp hans
        · exact absurd har (hanswers a hans)
        · obtain rfl := List.mem_singleton.mp hans
          simp [HttpAnswer.Faithful, HttpAnswer.Left, hbody, hstatus]
    · refine ⟨absurd hmade, fun hm => absurd hm hr, fun w hw hwr => ?_,
        fun a hans har => absurd har (hanswers a hans), fun _ hc => ?_⟩
      · obtain hw | hw := List.mem_append.mp hw
        · exact absurd hwr (hwsis w hw)
        · obtain rfl := List.mem_singleton.mp hw
          simp [HttpExchange.Holds, hstatus, hbody]
      · simp at hc
  · exact ho.frame_request hf hrs hq hs

theorem Once.giveUp (ha : h.Accounted) (h1 : h.made.count r ≤ 1) (ho : h.Once r) (hs : h.giveUp = some h') :
    h'.Once r := by
  obtain ⟨hf, s, rest, hq, rfl⟩ := giveUp_cases hs
  by_cases hrs : r = s
  · subst hrs
    obtain ⟨hr, hwsis, -⟩ := ha.of_queued h1 hq
    obtain ⟨-, hbody, hwsi⟩ := ho.queued (hq ▸ List.mem_cons_self)
    have hmade : r ∈ h.made := ha.mem_made (.inl (hq ▸ List.mem_cons_self))
    refine ⟨absurd hmade, fun hm => absurd hm hr, fun w hw hwr => absurd hwr (hwsis w hw),
      fun a hans har => ?_, fun _ _ => ⟨fun hm => absurd hm hr, fun w hw hwr => absurd hwr (hwsis w hw)⟩⟩
    obtain hans | hans := List.mem_append.mp hans
    · obtain ⟨hfaithful, hleft, -⟩ := ho.answered a hans har
      exact ⟨hfaithful, by simpa using hleft, .inr ⟨hwsi a hans har, .inr (by simp)⟩⟩
    · obtain rfl := List.mem_singleton.mp hans
      simp [HttpAnswer.Faithful, HttpAnswer.Left, hbody]
  · refine ho.frame (by simp [Function.update_of_ne hrs]) id (fun hr => hq ▸ List.mem_cons_of_mem s hr)
      (fun _ hw _ => hw) (fun _ hans har => mem_of_mem_concat hans har hrs) id fun hfail => ?_
    have hfront := hfail.front
    rw [hq, List.head?_cons] at hfront
    exact absurd (Option.some.inj hfront).symm hrs

theorem mem_set_of_eraseIdx {l : List HttpWsi} {w v x : HttpWsi} (hk : l[k]? = some w) (hv : v ∈ l.set k x) :
    v = x ∨ v ∈ l.eraseIdx k := by
  obtain ⟨hlt, -⟩ := List.getElem?_eq_some_iff.mp hk
  exact List.mem_cons.mp ((List.set_perm_cons_eraseIdx hlt x).mem_iff.mp hv)

/-- Before the exchange is complete a callback that goes on leaves the wish to close the connection. -/
theorem closeConnection_of_receive {q : HttpExchange} {w : HttpWsi} (hl : reason.last = false)
    (hc : (w.receive reason).completed = false) :
    (q.lwsCallback reason).1.closeConnection = q.closeConnection ∧ w.completed = false := by
  cases reason with
  | establishedClientHttp response | receiveClientHttpRead data | default => exact ⟨rfl, hc⟩
  | completedClientHttp => cases hc
  | closedClientHttp | clientConnectionError => cases hl

theorem Once.lwsCallback (ha : h.Accounted) (h1 : h.made.count r ≤ 1) (ho : h.Once r)
    (hs : h.lwsCallback k reason = some h') : h'.Once r := by
  obtain ⟨w, hw, ⟨hlast, rfl⟩ | ⟨hlast, rfl⟩⟩ := lwsCallback_cases hs
  · by_cases hrw : r = w.req
    · subst hrw
      obtain ⟨hq, hwsis, hanswers⟩ := ha.of_connected h1 hw
      have hmem := List.mem_of_getElem? hw
      have hmade : w.req ∈ h.made := ha.mem_made (.inr (.inl ⟨w, hmem, rfl⟩))
      have hthis : ∀ v ∈ h.wsis.set k (w.receive reason), v.req = w.req → v = w.receive reason := fun v hv hvr =>
        (mem_set_of_eraseIdx hw hv).resolve_right fun hv => hwsis v hv hvr
      refine ⟨absurd hmade, fun hm => absurd hm hq, fun v hv hvr => ?_,
        fun a hans har => absurd har (hanswers a hans), fun hwait hc => ⟨fun hm => absurd hm hq, fun v hv hvr => ?_⟩⟩
      · rw [hthis v hv hvr]
        simpa using (ho.connected w hmem rfl).next hlast
      · rw [hthis v hv hvr]
        by_contra hne
        obtain ⟨hclose, hopen⟩ :=
          closeConnection_of_receive (q := h.requests w.req) hlast (Bool.eq_false_iff.mpr hne)
        have hcompleted := (ho.woken hwait (by simpa [hclose] using hc)).2 w hmem rfl
        exact absurd (hopen.symm.trans hcompleted) Bool.false_ne_true
    · refine ho.frame (by simp [Function.update_of_ne hrw]) id id (fun v hv hvr => ?_) (fun _ ha _ => ha) id
        fun hf => ⟨hf.failing, hf.front, hf.failed⟩
      obtain rfl | hv := mem_set_of_eraseIdx hw hv
      · exact absurd (hvr.symm.trans (receive_req w reason)) hrw
      · exact List.mem_of_mem_eraseIdx hv
  · by_cases hrw : r = w.req
    · subst hrw
      obtain ⟨hq, hwsis, hanswers⟩ := ha.of_connected h1 hw
      have hmem := List.mem_of_getElem? hw
      have hmade : w.req ∈ h.made := ha.mem_made (.inr (.inl ⟨w, hmem, rfl⟩))
      refine ⟨absurd hmade, fun hm => absurd hm hq, fun v hv hvr => absurd hvr (hwsis v hv),
        fun a hans har => ?_, fun _ _ => ⟨fun hm => absurd hm hq, fun v hv hvr => absurd hvr (hwsis v hv)⟩⟩
      obtain hans | hans := List.mem_append.mp hans
      · exact absurd har (hanswers a hans)
      · obtain rfl := List.mem_singleton.mp hans
        simpa using (ho.connected w hmem rfl).ends hlast
    · exact ho.frame (by simp [Function.update_of_ne hrw]) id id (fun v hv _ => List.mem_of_mem_eraseIdx hv)
        (fun _ hans har => mem_of_mem_concat hans har hrw) id fun hf => ⟨hf.failing, hf.front, hf.failed⟩

theorem count_made_le_step (hs : h.step e = some h') (r : ℕ) : h.made.count r ≤ h'.made.count r := by
  rw [step_made hs, List.count_append]
  exact Nat.le_add_right _ _

theorem count_made_le_exec {es : List Event} (he : exec Http.step h es = some h') (r : ℕ) :
    h.made.count r ≤ h'.made.count r :=
  run_invariant (P := fun g => h.made.count r ≤ g.made.count r)
    (fun _ _ _ hg hs => Nat.le_trans hg (count_made_le_step hs r)) (Nat.le_refl _) he

/-- The accounts are right, and right for each request that is made at most once. -/
structure Tracked (h : Http) : Prop where
  accounted : h.Accounted
  once : ∀ r, h.made.count r ≤ 1 → h.Once r

theorem Tracked.step (ht : h.Tracked) (hs : h.step e = some h') : h'.Tracked := by
  have hle : ∀ {g : Http} {s r : ℕ}, (g.made ++ [s]).count r ≤ 1 → g.made.count r ≤ 1 := fun h1 =>
    Nat.le_trans (by simp [List.count_append]) h1
  refine step_preserves ?_ ?_ ?_ ?_ ?_ ?_ ht hs
  · exact fun g s ht => ⟨ht.accounted.make s, fun r h1 => (ht.once r (hle h1)).make ht.accounted s h1⟩
  · exact fun g s ht => ⟨ht.accounted.makeBlocked s, fun r h1 => (ht.once r (hle h1)).makeBlocked ht.accounted s h1⟩
  · refine fun g s ht hs => ⟨ht.accounted.wake s, fun r h1 => ?_⟩
    rw [wake_made] at h1
    exact (ht.once r h1).wake ht.accounted hs h1
  · refine fun g result g' ht hs => ⟨ht.accounted.doRequest hs, fun r h1 => ?_⟩
    rw [doRequest_made hs] at h1
    exact (ht.once r h1).doRequest ht.accounted h1 hs
  · refine fun g g' ht hs => ⟨ht.accounted.giveUp hs, fun r h1 => ?_⟩
    rw [giveUp_made hs] at h1
    exact (ht.once r h1).giveUp ht.accounted h1 hs
  · refine fun g k reason g' ht hs => ⟨ht.accounted.lwsCallback hs, fun r h1 => ?_⟩
    rw [lwsCallback_made hs] at h1
    exact (ht.once r h1).lwsCallback ht.accounted h1 hs

theorem tracked_of_exec {es : List Event} (he : exec Http.step start es = some h) : h.Tracked :=
  run_invariant (fun _ _ _ ht hs => ht.step hs) ⟨accounted_start, fun r _ => once_start r⟩ he

/-- `response_` is called for a request that is made once with just what was read on its connection and the
status of the reply, -1 if there was none, or with nothing and -2 if there was no connection. -/
theorem answer_faithful {es : List Event} (he : exec Http.step start es = some h) :
    ∀ a ∈ h.answers, h.made.count a.req ≤ 1 → a.Faithful := fun a ha h1 =>
  (((tracked_of_exec he).once a.req h1).answered a ha rfl).1

theorem answer_faithful_fourRequests :
    ∃ h, exec Http.step start fourRequests = some h ∧
      ∃ a ∈ h.answers, a.req = 3 ∧ a.status = -1 ∧ a.Faithful := by
  have hrun : ∃ h ∈ exec Http.step start fourRequests, ∃ a ∈ h.answers,
      a.req = 3 ∧ a.status = -1 ∧ h.made.count a.req ≤ 1 := by decide +kernel
  obtain ⟨h, he, a, ha, hreq, hstatus, h1⟩ := hrun
  exact ⟨h, he, a, ha, hreq, hstatus, answer_faithful he a ha h1⟩

/-! ### What a thread that waits for a reply finds -/

/-- What is taken for granted of libwebsockets: once an exchange is completed it reads nothing more, and the closure is
the last reason. -/
def ClosesCompleted (h : Http) : Event → Prop
  | .lwsCallback k reason => ∀ w ∈ h.wsis[k]?, w.completed = true → reason = .closedClientHttp ∨ reason = .default
  | .make _ | .makeBlocked _ | .wake _ | .doRequest _ | .giveUp => True

instance (h : Http) (e : Event) : Decidable (h.ClosesCompleted e) := by
  cases e <;> unfold ClosesCompleted <;> infer_instance

/-- Nothing but the end of a complete exchange is left to happen for the request. -/
structure Settled (h : Http) (r : ℕ) (body : List Char) (status : ℤ) : Prop where
  made : r ∈ h.made
  notQueued : r ∉ h.requestsQ
  completed : ∀ w ∈ h.wsis, w.req = r → w.completed = true
  body_eq : (h.requests r).responseBody = body
  status_eq : (h.requests r).status = status

variable {body : List Char} {status : ℤ}

theorem Settled.frame (hd : h.Settled r body status)
    (hfields : (h'.requests r).responseBody = (h.requests r).responseBody ∧
      (h'.requests r).status = (h.requests r).status)
    (hmade : r ∈ h'.made) (hq : r ∈ h'.requestsQ → r ∈ h.requestsQ)
    (hwsis : ∀ w ∈ h'.wsis, w.req = r → w ∈ h.wsis) : h'.Settled r body status :=
  ⟨hmade, fun hr => hd.notQueued (hq hr), fun w hw hwr => hd.completed w (hwsis w hw hwr) hwr,
    hfields.1.trans hd.body_eq, hfields.2.trans hd.status_eq⟩

theorem wake_fields (h : Http) (s r : ℕ) : ((h.wake s).requests r).responseBody = (h.requests r).responseBody ∧
    ((h.wake s).requests r).status = (h.requests r).status := by
  by_cases hc : (h.requests s).closeConnection = true
  · rw [Http.wake, if_pos hc]
    exact ⟨rfl, rfl⟩
  rw [Http.wake, if_neg hc]
  by_cases hrs : r = s
  · simp [hrs]
  · simp [Function.update_of_ne hrs]

theorem wake_frame (h : Http) (s : ℕ) : (h.wake s).requestsQ = h.requestsQ ∧ (h.wake s).wsis = h.wsis ∧
    (h.wake s).failing = h.failing ∧ (h.wake s).failed = h.failed := by
  by_cases hc : (h.requests s).closeConnection = true <;> simp [Http.wake, hc]

theorem Settled.wake (hd : h.Settled r body status) (s : ℕ) : (h.wake s).Settled r body status := by
  obtain ⟨hq, hw, -, -⟩ := h.wake_frame s
  exact hd.frame (h.wake_fields s r) (h.wake_made s ▸ hd.made) (hq ▸ id) fun _ hv _ => hw ▸ hv

theorem Settled.doRequest (hd : h.Settled r body status) (hs : h.doRequest result = some h') :
    h'.Settled r body status := by
  obtain ⟨-, s, rest, hq, hcases⟩ := doRequest_cases hs
  have hrs : r ≠ s := by
    rintro rfl
    exact hd.notQueued (hq ▸ List.mem_cons_self)
  obtain ⟨-, rfl⟩ | ⟨-, rfl⟩ | ⟨-, rfl⟩ | ⟨-, rfl⟩ := hcases
  · exact hd.frame ⟨rfl, rfl⟩ hd.made id fun _ hw _ => hw
  · exact hd.frame (by simp [Function.update_of_ne hrs]) hd.made id fun _ hw _ => hw
  · exact hd.frame (by simp [Function.update_of_ne hrs]) hd.made id fun _ hw _ => hw
  · exact hd.frame (by simp [Function.update_of_ne hrs]) hd.made (fun hr => hq ▸ List.mem_cons_of_mem s hr)
      fun _ hw hwr => mem_of_mem_concat hw hwr hrs

theorem Settled.giveUp (hd : h.Settled r body status) (hs : h.giveUp = some h') : h'.Settled r body status := by
  obtain ⟨-, s, rest, hq, rfl⟩ := giveUp_cases hs
  have hrs : r ≠ s := by
    rintro rfl
    exact hd.notQueued (hq ▸ List.mem_cons_self)
  exact hd.frame (by simp [Function.update_of_ne hrs]) hd.made (fun hr => hq ▸ List.mem_cons_of_mem s hr)
    fun _ hw _ => hw

theorem Settled.lwsCallback (hd : h.Settled r body status) (hc : h.ClosesCompleted (.lwsCallback k reason))
    (hs : h.lwsCallback k reason = some h') : h'.Settled r body status := by
  obtain ⟨w, hw, ⟨hlast, rfl⟩ | ⟨hlast, rfl⟩⟩ := lwsCallback_cases hs
  · by_cases hrw : r = w.req
    · subst hrw
      have hcompleted := hd.completed w (List.mem_of_getElem? hw) rfl
      obtain rfl | rfl := hc w hw hcompleted
      · cases hlast
      · refine ⟨hd.made, hd.notQueued, fun v hv hvr => ?_, by simpa [HttpExchange.lwsCallback] using hd.body_eq,
          by simpa [HttpExchange.lwsCallback] using hd.status_eq⟩
        obtain rfl | hv := mem_set_of_eraseIdx hw hv
        · exact hcompleted
        · exact hd.completed v (List.mem_of_mem_eraseIdx hv) hvr
    · refine hd.frame (by simp [Function.update_of_ne hrw]) hd.made id fun v hv hvr => ?_
      obtain rfl | hv := mem_set_of_eraseIdx hw hv
      · exact absurd (hvr.symm.trans (receive_req w reason)) hrw
      · exact List.mem_of_mem_eraseIdx hv
  · refine hd.frame ?_ hd.made id fun v hv _ => List.mem_of_mem_eraseIdx hv
    by_cases hrw : r = w.req
    · subst hrw
      -- a complete exchange ends with a closure, which leaves the reply as it is
      obtain rfl | rfl := hc w hw (hd.completed w (List.mem_of_getElem? hw) rfl)
      · simp [HttpExchange.lwsCallback]
      · cases hlast
    · simp [Function.update_of_ne hrw]

/-- A settled request stays as it is while `make` is not called for it again. -/
theorem Settled.step (hd : h.Settled r body status) (h1 : h'.made.count r ≤ 1) (hc : h.ClosesCompleted e)
    (hs : h.step e = some h') : h'.Settled r body status := by
  have hnew {s : ℕ} (h1 : (h.made ++ [s]).count r ≤ 1) : r ≠ s := by
    rintro rfl
    exact notMem_of_count_append h1 hd.made
  cases e with
  | make s =>
    obtain ⟨-, hs⟩ := Option.ite_none_left_eq_some.mp hs
    obtain rfl := Option.some.inj hs
    have hrs := hnew h1
    exact hd.frame ⟨rfl, rfl⟩ (List.mem_append_left _ hd.made) (by simp [Http.make, hrs]) fun _ hw _ => hw
  | makeBlocked s =>
    obtain ⟨-, hs⟩ := Option.ite_none_left_eq_some.mp hs
    obtain rfl := Option.some.inj hs
    have hrs := hnew h1
    exact hd.frame (by simp [Http.makeBlocked, Http.make, Function.update_of_ne hrs])
      (List.mem_append_left _ hd.made) (by simp [Http.makeBlocked, Http.make, hrs]) fun _ hw _ => hw
  | wake s =>
    obtain ⟨-, hs⟩ := Option.ite_none_right_eq_some.mp hs
    exact Option.some.inj hs ▸ hd.wake s
  | doRequest result => exact hd.doRequest hs
  | giveUp => exact hd.giveUp hs
  | lwsCallback k reason =>
    obtain ⟨-, hs⟩ := Option.ite_none_left_eq_some.mp hs
    exact hd.lwsCallback hc hs

/-- The request had a connection error, its thread may go on, and the loop over the queue has still to deal with it. -/
structure Pending (h : Http) (r : ℕ) (body : List Char) : Prop extends h.Failing r where
  made : r ∈ h.made
  unconnected : ∀ w ∈ h.wsis, w.req ≠ r
  once : r ∉ h.requestsQ.tail
  body_eq : (h.requests r).responseBody = body
  status_eq : (h.requests r).status = -1

/-- Until the loop deals with it, threads can only wake. -/
theorem Pending.step (hp : h.Pending r body) (hs : h.step e = some h') :
    h'.Pending r body ∨ h'.Settled r body (-2) := by
  have hf := hp.failing
  cases e with
  | make s | makeBlocked s | lwsCallback k reason =>
    obtain ⟨hnot, -⟩ := Option.ite_none_left_eq_some.mp hs
    exact absurd hf hnot
  | doRequest result =>
    obtain ⟨hnot, -⟩ := doRequest_cases hs
    exact absurd (hnot.symm.trans hf) Bool.false_ne_true
  | wake s =>
    obtain ⟨-, hs⟩ := Option.ite_none_right_eq_some.mp hs
    obtain rfl := Option.some.inj hs
    obtain ⟨hq, hw, hfailing, hfailed⟩ := h.wake_frame s
    obtain ⟨hbody, hstatus⟩ := h.wake_fields s r
    exact .inl ⟨⟨hfailing.trans hf, hq ▸ hp.front, hfailed ▸ hp.failed⟩, h.wake_made s ▸ hp.made,
      hw ▸ hp.unconnected, hq ▸ hp.once, hbody.trans hp.body_eq, hstatus.trans hp.status_eq⟩
  | giveUp =>
    obtain ⟨-, s, rest, hq, rfl⟩ := giveUp_cases hs
    have hfront := hp.front
    have honce := hp.once
    rw [hq] at hfront honce
    obtain rfl := Option.some.inj hfront
    exact .inr ⟨hp.made, honce, fun w hw hwr => absurd hwr (hp.unconnected w hw), by simpa using hp.body_eq, by simp⟩

theorem settled_of_exec {es : List Event} (he : exec Http.step h es = some h') (h1 : h'.made.count r ≤ 1)
    (hc : Meets Http.step ClosesCompleted h es) (hd : h.Settled r body status) : h'.Settled r body status := by
  induction es generalizing h with
  | nil =>
    obtain rfl : h = h' := by simpa using he
    exact hd
  | cons e es ih =>
    obtain ⟨g, hg, he⟩ := exec_cons_eq_some.mp he
    have hle := Nat.le_trans (count_made_le_exec he r) h1
    exact ih he (hc.2 g hg) (hd.step hle hc.1 hg)

/-- The status changes at most once more, when the loop deals with the request. -/
theorem pending_or_settled_of_exec {es : List Event} (he : exec Http.step h es = some h') (h1 : h'.made.count r ≤ 1)
    (hc : Meets Http.step ClosesCompleted h es) (hp : h.Pending r body) :
    h'.Pending r body ∨ h'.Settled r body (-2) := by
  induction es generalizing h with
  | nil =>
    obtain rfl : h = h' := by simpa using he
    exact .inl hp
  | cons e es ih =>
    obtain ⟨g, hg, he⟩ := exec_cons_eq_some.mp he
    have hc' := hc.2 g hg
    obtain hp | hd := hp.step hg
    · exact ih he hc' hp
    · exact .inr (settled_of_exec he h1 hc' hd)

/-- The reply that a settled request has is the one of its connection. -/
theorem Tracked.reply (ht : h.Tracked) (hd : h.Settled r body status) (h1 : h.made.count r ≤ 1)
    (hno : status ≠ -1 ∧ status ≠ -2) :
    ∃ w, (w ∈ h.wsis ∨ ∃ a ∈ h.answers, a.wsi = some w) ∧ w.req = r ∧ w.response = some status ∧
      w.read = body := by
  have ho := ht.once r h1
  have hresponse : ∀ w : HttpWsi, status = w.response.getD (-1) → w.response = some status := by
    intro w hw
    cases hr : w.response with
    | none => exact absurd (by simpa [hr] using hw) hno.1
    | some n => rw [hw, hr, Option.getD_some]
  have hmade := ht.accounted.made r
  have hcalled := List.count_pos_iff.mpr hd.made
  rw [outstanding, List.count_eq_zero.mpr hd.notQueued, Nat.zero_add] at hmade
  obtain hpos | hpos : 0 < h.answered r ∨ 0 < (h.wsis.map HttpWsi.req).count r := by omega
  · obtain ⟨a, ha, rfl⟩ := List.mem_map.mp (List.count_pos_iff.mp hpos)
    obtain ⟨hfaithful, hbody, hstatus⟩ := ho.answered a ha rfl
    rw [hd.body_eq] at hbody
    rw [hd.status_eq] at hstatus
    have hstatus := hstatus.resolve_right fun h => h.2.elim hno.1 hno.2
    cases hw : a.wsi with
    | none =>
      simp only [HttpAnswer.Faithful, hw] at hfaithful
      exact absurd (hstatus.trans hfaithful.2) hno.2
    | some w =>
      simp only [HttpAnswer.Faithful, hw] at hfaithful
      exact ⟨w, .inr ⟨a, ha, hw⟩, hfaithful.1, hresponse w (hstatus.trans hfaithful.2.2),
        (hbody.trans hfaithful.2.1).symm⟩
  · obtain ⟨w, hw, rfl⟩ := List.mem_map.mp (List.count_pos_iff.mp hpos)
    obtain ⟨hbody, hstatus⟩ := ho.connected w hw rfl
    exact ⟨w, .inl hw, rfl, hresponse w (hd.status_eq.symm.trans hstatus), hbody.symm.trans hd.body_eq⟩

/-- When `make_blocked` returns true for a request that is made once, the reply is the one of its connection. It never
changes any more, but for the status -1 of a connection error before there was a connection, which may become -2. -/
theorem makeBlocked_true_final {es : List Event} (he : exec Http.step start es = some h)
    (h1 : h.made.count r ≤ 1) (hs : h.step (.wake r) = some h') (htrue : h'.returned = h.returned ++ [(r, true)]) :
    (∀ n, n ≠ -1 → n ≠ -2 → (h.requests r).status = n →
      ∃ w, (w ∈ h.wsis ∨ ∃ a ∈ h.answers, a.wsi = some w) ∧ w.req = r ∧ w.response = some n ∧
        w.read = (h.requests r).responseBody) ∧
      ∀ fs g, exec Http.step h' fs = some g → Meets Http.step ClosesCompleted h' fs → g.made.count r ≤ 1 →
        (g.requests r).responseBody = (h.requests r).responseBody ∧
          ((g.requests r).status = (h.requests r).status ∨
            r ∈ h.failed ∧ (h.requests r).status = -1 ∧ (g.requests r).status = -2) := by
  have ht := tracked_of_exec he
  obtain ⟨hwait, hs⟩ := Option.ite_none_right_eq_some.mp hs
  obtain rfl := Option.some.inj hs
  have hclose : (h.requests r).closeConnection = true := by
    by_contra hc
    simp [Http.wake, hc] at htrue
  have hmade : r ∈ h.made := ht.accounted.mem_made (.inr (.inr hwait))
  have ho := ht.once r h1
  obtain ⟨hqueue, hopen⟩ := ho.woken hwait hclose
  by_cases hq : r ∈ h.requestsQ
  · have hfail := hqueue hq
    obtain ⟨rest, hrest⟩ : ∃ rest, h.requestsQ = r :: rest := List.head?_eq_some_iff.mp hfail.front
    obtain ⟨hstatus, -, -⟩ := ho.queued hq
    obtain ⟨hnot, hwsis, -⟩ := ht.accounted.of_queued h1 hrest
    have hp : h.Pending r (h.requests r).responseBody :=
      ⟨hfail, hmade, hwsis, by rw [hrest]; exact hnot, rfl, hstatus⟩
    refine ⟨fun n hn _ hstatus' => absurd (hstatus'.symm.trans hstatus) hn, fun fs g hg hc hg1 => ?_⟩
    have hp' : (h.wake r).Pending r (h.requests r).responseBody := by
      apply (hp.step (e := .wake r) (if_pos hwait)).resolve_right
      intro hd
      have hstatus' := hd.status_eq
      rw [(h.wake_fields r r).2, hstatus] at hstatus'
      exact absurd hstatus' (by decide)
    obtain hp | hd := pending_or_settled_of_exec hg hg1 hc hp'
    · exact ⟨hp.body_eq, .inl (hp.status_eq.trans hstatus.symm)⟩
    · exact ⟨hd.body_eq, .inr ⟨hfail.failed, hstatus, hd.status_eq⟩⟩
  · have hd : h.Settled r (h.requests r).responseBody (h.requests r).status := ⟨hmade, hq, hopen, rfl, rfl⟩
    refine ⟨fun n hn hn' hstatus => ?_, fun fs g hg hc hg1 => ?_⟩
    · exact hstatus ▸ ht.reply hd h1 (hstatus ▸ ⟨hn, hn'⟩)
    · have hd := settled_of_exec hg hg1 hc (hd.wake r)
      exact ⟨hd.body_eq, .inl hd.status_eq⟩

theorem makeBlocked_true_final_fourRequests :
    ∃ h, exec Http.step start fourRequests = some h ∧ (h.requests 1).responseBody = "ok".toList ∧
      (∃ w, (w ∈ h.wsis ∨ ∃ a ∈ h.answers, a.wsi = some w) ∧ w.req = 1 ∧ w.response = some 200 ∧
        w.read = "ok".toList) ∧
      ∃ g, exec Http.step (h.wake 1) [.lwsCallback 0 .closedClientHttp] = some g ∧
        (g.requests 1).responseBody = (h.requests 1).responseBody := by
  have hrun : ∃ h ∈ exec Http.step start fourRequests, h.made.count 1 ≤ 1 ∧ 1 ∈ h.waiting ∧
      (h.wake 1).returned = h.returned ++ [(1, true)] ∧ (h.requests 1).status = 200 ∧
      (h.requests 1).responseBody = "ok".toList ∧
      Meets Http.step ClosesCompleted (h.wake 1) [.lwsCallback 0 .closedClientHttp] ∧
      ∃ g ∈ exec Http.step (h.wake 1) [.lwsCallback 0 .closedClientHttp], g.made.count 1 ≤ 1 := by decide +kernel
  obtain ⟨h, he, h1, hwait, htrue, hstatus, hbody, hcloses, g, hg, hg1⟩ := hrun
  obtain ⟨hreply, hfinal⟩ := makeBlocked_true_final he h1 (if_pos hwait) htrue
  refine ⟨h, he, hbody, hbody ▸ hreply 200 (by decide) (by decide) hstatus, g, hg, ?_⟩
  exact (hfinal _ g hg hcloses hg1).1

/-! ### A reply that is cut off -/

/-- The reply is read in chunks on the only connection. -/
def receiving (r : ℕ) (response : ℤ) (read : List Char) : Http where
  requests := Function.update start.requests r { status := response, responseBody := read }
  requestsQ := []
  failing := false
  wsis := [⟨r, false, some response, read⟩]
  waiting := [r]
  made := [r]
  failed := []
  answers := []
  returned := []

/-- `make_blocked` for a request whose reply comes in chunks and is complete or not when the connection
is closed. -/
def exchange (r : ℕ) (response : ℤ) (chunks : List (List Char)) (complete : Bool) : List Event :=
  [.makeBlocked r, .doRequest .connected, .lwsCallback 0 (.establishedClientHttp response)] ++
    chunks.map (fun data => .lwsCallback 0 (.receiveClientHttpRead data)) ++
    (if complete then [.lwsCallback 0 .completedClientHttp] else []) ++ [.lwsCallback 0 .closedClientHttp, .wake r]

theorem exec_receiving (r : ℕ) (response : ℤ) (chunks : List (List Char)) (read : List Char) :
    exec Http.step (receiving r response read) (chunks.map fun data => .lwsCallback 0 (.receiveClientHttpRead data)) =
      some (receiving r response (read ++ chunks.flatten)) := by
  induction chunks generalizing read with
  | nil => simp
  | cons data chunks ih =>
    have hnext : (receiving r response read).step (.lwsCallback 0 (.receiveClientHttpRead data)) =
        some (receiving r response (read ++ data)) := by
      simp [Http.step, Http.lwsCallback, receiving, HttpExchange.lwsCallback, HttpWsi.receive, setRequest]
    rw [List.map_cons, exec_cons, hnext, Option.bind_some, ih, List.flatten_cons, List.append_assoc]

/-- A reply that is cut off looks like a complete one: whether the exchange was completed or the connection
was closed after any of the chunks, `make_blocked` returns true and the status is the one of the reply. -/
theorem cut_reply_looks_complete (r : ℕ) (response : ℤ) (chunks : List (List Char)) (complete : Bool) :
    ∃ h, exec Http.step start (exchange r response chunks complete) = some h ∧ h.returned = [(r, true)] ∧
      h.requests r = ⟨response, response ≠ 200, true, chunks.flatten⟩ ∧
      h.answers.map (fun a => (a.req, a.body, a.status)) = [(r, chunks.flatten, response)] := by
  have hbegin : exec Http.step start
      [.makeBlocked r, .doRequest .connected, .lwsCallback 0 (.establishedClientHttp response)] =
      some (receiving r response []) := by
    simp [exec, Http.step, Http.makeBlocked, Http.make, Http.doRequest, Http.lwsCallback, start, setRequest,
      HttpExchange.lwsCallback, HttpWsi.receive, receiving]
  rw [exchange, List.append_assoc, exec_append, exec_append, hbegin, Option.bind_some, exec_receiving]
  cases complete <;>
    simp [exec, Http.step, Http.lwsCallback, Http.wake, receiving, setRequest, HttpExchange.lwsCallback,
      HttpWsi.receive]

end Http
end CloudAgent.Net
