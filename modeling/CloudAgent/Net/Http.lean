import CloudAgent.Lib.Transition
import Mathlib.Data.Int.Notation
import Mathlib.Data.List.Basic
import Mathlib.Data.List.Count
import Mathlib.Data.List.Perm.Basic
import Mathlib.Logic.Function.Basic

/-! The exchange of requests and replies over the HTTP transport. Any thread puts requests into a queue;
the service thread takes them out, opens a connection for each and is called back by libwebsockets for
what happens on it. A request is a shared object: the thread that waits for the reply in `make_blocked`
reads the fields that the service thread writes. Nothing is taken for granted of libwebsockets but that a
connection is gone after its closure or its connection error. -/
namespace CloudAgent.Net
open Transition

/-- What the exchange writes in a request. -/
structure HttpExchange where
  status : ℤ := -1
  bad : Bool := false
  closeConnection : Bool := false
  responseBody : List Char := []
  deriving DecidableEq

/-- The reasons of the callback that concern a reply, with what libwebsockets knows of it. `default` is any
reason for which the callback only looks whether the connection is to be closed. -/
inductive HttpReason
  | establishedClientHttp (response : ℤ)
  | receiveClientHttpRead (data : List Char)
  | completedClientHttp
  | closedClientHttp
  | clientConnectionError
  | default
  deriving DecidableEq

/-- A closure and a connection error are the last reason of a connection. -/
def HttpReason.last : HttpReason → Bool
  | .closedClientHttp | .clientConnectionError => true
  | .establishedClientHttp _ | .receiveClientHttpRead _ | .completedClientHttp | .default => false

/-- An open connection: the request it is for, whether the exchange was completed, and what has come from the
peer. -/
structure HttpWsi where
  req : ℕ
  completed : Bool := false
  response : Option ℤ := none
  read : List Char := []
  deriving DecidableEq

/-- A call of `response_`, with the connection that it ended. -/
structure HttpAnswer where
  req : ℕ
  body : List Char
  status : ℤ
  wsi : Option HttpWsi
  deriving DecidableEq

/-- How `_do_request` ends: the url is too long or cannot be parsed, or libwebsockets returns no connection, or
it calls back with a connection error before it returns none, or there is a connection. -/
inductive HttpConnect
  | badUrl
  | refused
  | failed
  | connected
  deriving DecidableEq

/-- The transport. A request is known by its number. `failing`: `_do_request` has returned false for the request at
the front of the queue. `waiting` are the requests that a thread is blocked on, `made` those that `make` was called
with, `failed` those with a connection error before there was a connection, `returned` what `make_blocked`
returned. -/
structure Http where
  requests : ℕ → HttpExchange
  requestsQ : List ℕ
  failing : Bool
  wsis : List HttpWsi
  waiting : List ℕ
  made : List ℕ
  failed : List ℕ
  answers : List HttpAnswer
  returned : List (ℕ × Bool)

/-- The callback, as far as it concerns the request: its fields, and what `response_` is called with. Its result only
asks libwebsockets to close the connection. -/
def HttpExchange.lwsCallback (q : HttpExchange) : HttpReason → HttpExchange × Option (List Char × ℤ)
  | .establishedClientHttp response => ({ q with status := response }, none)
  | .receiveClientHttpRead data => ({ q with responseBody := q.responseBody ++ data }, none)
  | .completedClientHttp => ({ q with bad := q.status ≠ 200, closeConnection := true }, none)
  | .closedClientHttp =>
    ({ q with bad := q.status ≠ 200, closeConnection := true }, some (q.responseBody, q.status))
  | .clientConnectionError => ({ q with closeConnection := true, status := -1 }, some (q.responseBody, q.status))
  | .default => (q, none)

/-- What has come from the peer with the reason. -/
def HttpWsi.receive (w : HttpWsi) : HttpReason → HttpWsi
  | .establishedClientHttp response => { w with response := some response }
  | .receiveClientHttpRead data => { w with read := w.read ++ data }
  | .completedClientHttp => { w with completed := true }
  | .closedClientHttp | .clientConnectionError | .default => w

namespace Http

/-- No request was made; the objects are as constructed. -/
def start : Http where
  requests := fun _ => {}
  requestsQ := []
  failing := false
  wsis := []
  waiting := []
  made := []
  failed := []
  answers := []
  returned := []

def setRequest (h : Http) (r : ℕ) (q : HttpExchange) : Http :=
  { h with requests := Function.update h.requests r q }

/-- `make`. -/
def make (h : Http) (r : ℕ) : Http := { h with requestsQ := h.requestsQ ++ [r], made := h.made ++ [r] }

/-- `make_blocked` up to the wait. -/
def makeBlocked (h : Http) (r : ℕ) : Http :=
  { (h.setRequest r { h.requests r with responseBody := [] }).make r with waiting := h.waiting ++ [r] }

/-- The end of the wait: its predicate is `close_connection_`. If it holds when the thread wakes,
`make_blocked` returns true; if not by the timeout, it asks to close the connection and returns false. -/
def wake (h : Http) (r : ℕ) : Http :=
  if (h.requests r).closeConnection then
    { h with waiting := h.waiting.erase r, returned := h.returned ++ [(r, true)] }
  else
    { h.setRequest r { h.requests r with closeConnection := true } with
      waiting := h.waiting.erase r, returned := h.returned ++ [(r, false)] }

/-- The loop body of `LWS_CALLBACK_EVENT_WAIT_CANCELLED` up to the return of `_do_request`, and to its end where
there is a connection. A url that is refused is refused before `close_connection_` is taken back; a connection
error is called back for a connection that is given up at once. -/
def doRequest (h : Http) (result : HttpConnect) : Option Http :=
  match h.failing, h.requestsQ with
  | true, _ | false, [] => none
  | false, r :: rest =>
    let q := { h.requests r with closeConnection := false }
    match result with
    | .badUrl => some { h with failing := true }
    | .refused => some { h.setRequest r q with failing := true }
    | .failed =>
      some { h.setRequest r (q.lwsCallback .clientConnectionError).1 with
        failing := true
        failed := h.failed ++ [r]
        answers := h.answers ++ [⟨r, q.responseBody, q.status, some { req := r }⟩] }
    | .connected => some { h.setRequest r q with requestsQ := rest, wsis := h.wsis ++ [{ req := r }] }

/-- The rest of the loop body where `_do_request` has returned false. -/
def giveUp (h : Http) : Option Http :=
  match h.failing, h.requestsQ with
  | false, _ | true, [] => none
  | true, r :: rest =>
    some { h.setRequest r { h.requests r with bad := true, status := -2, closeConnection := true } with
      requestsQ := rest
      failing := false
      answers := h.answers ++ [⟨r, (h.requests r).responseBody, -2, none⟩] }

/-- A callback for a connection. With the last reason the connection goes, and `response_` is called. -/
def lwsCallback (h : Http) (k : ℕ) (reason : HttpReason) : Option Http :=
  h.wsis[k]?.map fun w =>
    match (h.requests w.req).lwsCallback reason with
    | (q, some (body, status)) =>
      { h.setRequest w.req q with
        wsis := h.wsis.eraseIdx k, answers := h.answers ++ [⟨w.req, body, status, some w⟩] }
    | (q, none) => { h.setRequest w.req q with wsis := h.wsis.set k (w.receive reason) }

/-- A thread makes a request, or makes one and waits, or wakes; or the service thread takes a request out of the
queue, or is called back for a connection. -/
inductive Event
  | make (r : ℕ)
  | makeBlocked (r : ℕ)
  | wake (r : ℕ)
  | doRequest (result : HttpConnect)
  | giveUp
  | lwsCallback (k : ℕ) (reason : HttpReason)
  deriving DecidableEq

/-- In the loop over the queue the service thread holds its lock, and is not called back for a connection. -/
def step (h : Http) : Event → Option Http
  | .make r => if h.failing then none else some (h.make r)
  | .makeBlocked r => if h.failing then none else some (h.makeBlocked r)
  | .wake r => if r ∈ h.waiting then some (h.wake r) else none
  | .doRequest result => h.doRequest result
  | .giveUp => h.giveUp
  | .lwsCallback k reason => if h.failing then none else h.lwsCallback k reason

/-- The request that the event calls `make` for. -/
def makes : Event → Option ℕ
  | .make r | .makeBlocked r => some r
  | .wake _ | .doRequest _ | .giveUp | .lwsCallback _ _ => none

variable {h h' : Http} {k r : ℕ} {reason : HttpReason} {result : HttpConnect} {e : Event}

@[simp] theorem setRequest_requests (h : Http) (r : ℕ) (q : HttpExchange) :
    (h.setRequest r q).requests = Function.update h.requests r q := rfl

@[simp] theorem setRequest_frame (h : Http) (r : ℕ) (q : HttpExchange) :
    (h.setRequest r q).requestsQ = h.requestsQ ∧ (h.setRequest r q).failing = h.failing ∧
      (h.setRequest r q).wsis = h.wsis ∧ (h.setRequest r q).waiting = h.waiting ∧
      (h.setRequest r q).made = h.made ∧ (h.setRequest r q).failed = h.failed ∧
      (h.setRequest r q).answers = h.answers ∧ (h.setRequest r q).returned = h.returned :=
  ⟨rfl, rfl, rfl, rfl, rfl, rfl, rfl, rfl⟩

/-- A callback goes on with the connection, or ends it with an answer that has the fields of the request. -/
theorem lwsCallback_cases (hs : h.lwsCallback k reason = some h') :
    ∃ w, h.wsis[k]? = some w ∧
      ((reason.last = false ∧
          h' = { h.setRequest w.req ((h.requests w.req).lwsCallback reason).1 with
            wsis := h.wsis.set k (w.receive reason) }) ∨
        (reason.last = true ∧
          h' = { h.setRequest w.req ((h.requests w.req).lwsCallback reason).1 with
            wsis := h.wsis.eraseIdx k
            answers := h.answers ++
              [⟨w.req, (h.requests w.req).responseBody, (h.requests w.req).status, some w⟩] })) := by
  obtain ⟨w, hw, rfl⟩ := Option.map_eq_some_iff.mp hs
  refine ⟨w, hw, ?_⟩
  cases reason with
  | establishedClientHttp response | receiveClientHttpRead data | completedClientHttp | default =>
    exact .inl ⟨rfl, rfl⟩
  | closedClientHttp | clientConnectionError => exact .inr ⟨rfl, rfl⟩

/-- The request at the front is taken out, or stays there until the loop deals with it. -/
theorem doRequest_cases (hs : h.doRequest result = some h') :
    h.failing = false ∧ ∃ r rest, h.requestsQ = r :: rest ∧
      ((result = .badUrl ∧ h' = { h with failing := true }) ∨
        (result = .refused ∧
          h' = { h.setRequest r { h.requests r with closeConnection := false } with failing := true }) ∨
        (result = .failed ∧
          h' = { h.setRequest r { h.requests r with closeConnection := true, status := -1 } with
            failing := true
            failed := h.failed ++ [r]
            answers := h.answers ++
              [⟨r, (h.requests r).responseBody, (h.requests r).status, some { req := r }⟩] }) ∨
        (result = .connected ∧
          h' = { h.setRequest r { h.requests r with closeConnection := false } with
            requestsQ := rest, wsis := h.wsis ++ [{ req := r }] })) := by
  unfold doRequest at hs
  split at hs
  · cases hs
  · cases hs
  · rename_i r rest hf hq
    refine ⟨hf, r, rest, hq, ?_⟩
    cases result with
    | badUrl => exact .inl ⟨rfl, (Option.some.inj hs).symm⟩
    | refused => exact .inr (.inl ⟨rfl, (Option.some.inj hs).symm⟩)
    | failed => exact .inr (.inr (.inl ⟨rfl, (Option.some.inj hs).symm⟩))
    | connected => exact .inr (.inr (.inr ⟨rfl, (Option.some.inj hs).symm⟩))

theorem giveUp_cases (hs : h.giveUp = some h') :
    h.failing = true ∧ ∃ r rest, h.requestsQ = r :: rest ∧
      h' = { h.setRequest r { h.requests r with bad := true, status := -2, closeConnection := true } with
        requestsQ := rest
        failing := false
        answers := h.answers ++ [⟨r, (h.requests r).responseBody, -2, none⟩] } := by
  unfold giveUp at hs
  split at hs
  · cases hs
  · cases hs
  · rename_i r rest hf hq
    exact ⟨hf, r, rest, hq, (Option.some.inj hs).symm⟩

/-- What each of its parts preserves, a step preserves. -/
theorem step_preserves {P : Http → Prop} (hmake : ∀ h r, P h → P (h.make r))
    (hblocked : ∀ h r, P h → P (h.makeBlocked r)) (hwake : ∀ h r, P h → r ∈ h.waiting → P (h.wake r))
    (hrequest : ∀ h result h', P h → h.doRequest result = some h' → P h')
    (hgiveUp : ∀ h h', P h → h.giveUp = some h' → P h')
    (hcallback : ∀ h k reason h', P h → h.lwsCallback k reason = some h' → P h') (hp : P h)
    (hs : h.step e = some h') : P h' := by
  cases e with
  | make r =>
    obtain ⟨-, hs⟩ := Option.ite_none_left_eq_some.mp hs
    exact Option.some.inj hs ▸ hmake h r hp
  | makeBlocked r =>
    obtain ⟨-, hs⟩ := Option.ite_none_left_eq_some.mp hs
    exact Option.some.inj hs ▸ hblocked h r hp
  | wake r =>
    obtain ⟨hr, hs⟩ := Option.ite_none_right_eq_some.mp hs
    exact Option.some.inj hs ▸ hwake h r hp hr
  | doRequest result => exact hrequest h result h' hp hs
  | giveUp => exact hgiveUp h h' hp hs
  | lwsCallback k reason =>
    obtain ⟨-, hs⟩ := Option.ite_none_left_eq_some.mp hs
    exact hcallback h k reason h' hp hs

@[simp] theorem wake_made (h : Http) (r : ℕ) : (h.wake r).made = h.made := by
  by_cases hc : (h.requests r).closeConnection = true <;> simp [wake, hc]

theorem doRequest_made (hs : h.doRequest result = some h') : h'.made = h.made := by
  obtain ⟨-, r, rest, -, ⟨-, rfl⟩ | ⟨-, rfl⟩ | ⟨-, rfl⟩ | ⟨-, rfl⟩⟩ := doRequest_cases hs <;> rfl

theorem giveUp_made (hs : h.giveUp = some h') : h'.made = h.made := by
  obtain ⟨-, r, rest, -, rfl⟩ := giveUp_cases hs
  rfl

theorem lwsCallback_made (hs : h.lwsCallback k reason = some h') : h'.made = h.made := by
  obtain ⟨w, -, ⟨-, rfl⟩ | ⟨-, rfl⟩⟩ := lwsCallback_cases hs <;> rfl

theorem step_made (hs : h.step e = some h') : h'.made = h.made ++ (makes e).toList := by
  cases e with
  | make r | makeBlocked r =>
    obtain ⟨-, hs⟩ := Option.ite_none_left_eq_some.mp hs
    exact congrArg Http.made (Option.some.inj hs).symm
  | wake r =>
    obtain ⟨-, hs⟩ := Option.ite_none_right_eq_some.mp hs
    simp [← Option.some.inj hs, makes]
  | doRequest result => simpa [makes] using doRequest_made hs
  | giveUp => simpa [makes] using giveUp_made hs
  | lwsCallback k reason =>
    obtain ⟨-, hs⟩ := Option.ite_none_left_eq_some.mp hs
    simpa [makes] using lwsCallback_made hs

/-- No step takes an answer or a failure back. -/
theorem step_history (hs : h.step e = some h') : h.answers <+: h'.answers ∧ h.failed <+: h'.failed := by
  refine step_preserves (P := fun g => h.answers <+: g.answers ∧ h.failed <+: g.failed) ?_ ?_ ?_ ?_ ?_ ?_
    ⟨List.prefix_rfl, List.prefix_rfl⟩ hs
  · exact fun g s hg => hg
  · exact fun g s hg => hg
  · intro g s hg _
    by_cases hc : (g.requests s).closeConnection = true <;> simpa [wake, hc] using hg
  · rintro g result g' ⟨hanswers, hfailed⟩ hs
    obtain ⟨-, s, rest, -, ⟨-, rfl⟩ | ⟨-, rfl⟩ | ⟨-, rfl⟩ | ⟨-, rfl⟩⟩ := doRequest_cases hs
    · exact ⟨hanswers, hfailed⟩
    · exact ⟨hanswers, hfailed⟩
    · exact ⟨hanswers.trans (List.prefix_append _ _), hfailed.trans (List.prefix_append _ _)⟩
    · exact ⟨hanswers, hfailed⟩
  · rintro g g' ⟨hanswers, hfailed⟩ hs
    obtain ⟨-, s, rest, -, rfl⟩ := giveUp_cases hs
    exact ⟨hanswers.trans (List.prefix_append _ _), hfailed⟩
  · rintro g k reason g' ⟨hanswers, hfailed⟩ hs
    obtain ⟨w, -, ⟨-, rfl⟩ | ⟨-, rfl⟩⟩ := lwsCallback_cases hs
    · exact ⟨hanswers, hfailed⟩
    · exact ⟨hanswers.trans (List.prefix_append _ _), hfailed⟩

/-! ### Every request is answered -/

/-- How often `response_` was called for a request. -/
def answered (h : Http) (r : ℕ) : ℕ := (h.answers.map HttpAnswer.req).count r

/-- How often a request is queued or has an open connection. -/
def outstanding (h : Http) (r : ℕ) : ℕ := h.requestsQ.count r + (h.wsis.map HttpWsi.req).count r

/-- `_do_request` has returned false for this request. -/
def atFront (h : Http) (r : ℕ) : Bool := h.failing && h.requestsQ.head? = some r

/-- Every call of `make` is answered or outstanding, and a request is answered once more for each connection error
before there was a connection, of which there is at most one for each call. A request that is not outstanding any
more asks its thread to go on. -/
structure Accounted (h : Http) : Prop where
  made : ∀ r, h.made.count r + h.failed.count r = h.answered r + h.outstanding r
  outstanding_le : ∀ r, h.outstanding r ≤ h.made.count r
  failed : ∀ r, h.failed.count r + h.outstanding r ≤ h.made.count r + (h.atFront r).toNat
  waiting : ∀ r, h.waiting.count r ≤ h.made.count r
  finished : ∀ r, r ∈ h.made → h.outstanding r = 0 → (h.requests r).closeConnection = true

theorem accounted_start : start.Accounted where
  made _ := rfl
  outstanding_le _ := Nat.le_refl 0
  failed _ := Nat.le_refl 0
  waiting _ := Nat.le_refl 0
  finished _ hr := absurd hr List.not_mem_nil

theorem map_req_set {l : List HttpWsi} {w v : HttpWsi} (hk : l[k]? = some w) (hv : v.req = w.req) :
    (l.set k v).map HttpWsi.req = l.map HttpWsi.req := by
  obtain ⟨hlt, rfl⟩ := List.getElem?_eq_some_iff.mp hk
  rw [List.map_set, hv]
  exact (List.getElem_map (l := l) HttpWsi.req) ▸ List.set_getElem_self (by simpa using hlt)

theorem count_req_eraseIdx {l : List HttpWsi} {w : HttpWsi} (hk : l[k]? = some w) (r : ℕ) :
    (l.map HttpWsi.req).count r = ((l.eraseIdx k).map HttpWsi.req).count r + if w.req = r then 1 else 0 := by
  obtain ⟨hlt, rfl⟩ := List.getElem?_eq_some_iff.mp hk
  have hperm := (List.getElem_cons_eraseIdx_perm hlt).map HttpWsi.req
  rw [← hperm.count_eq, List.map_cons, List.count_cons]
  simp only [beq_iff_eq]

@[simp] theorem receive_req (w : HttpWsi) (reason : HttpReason) : (w.receive reason).req = w.req := by
  cases reason <;> rfl

/-- The request at the front is counted once more while the loop has still to deal with it. -/
theorem front_toNat {s : ℕ} {rest : List ℕ} (hq : h.requestsQ = s :: rest) (r : ℕ) :
    (true && decide (h.requestsQ.head? = some r)).toNat = if s = r then 1 else 0 := by
  rw [hq]
  by_cases hs : s = r <;> simp [hs]

theorem atFront_of_not (hf : h.failing = false) (r : ℕ) : h.atFront r = false := by
  rw [atFront, hf, Bool.false_and]

theorem outstanding_of_queue {s : ℕ} {rest : List ℕ} (hq : h.requestsQ = s :: rest) (r : ℕ) :
    h.outstanding r = rest.count r + (if s = r then 1 else 0) + (h.wsis.map HttpWsi.req).count r := by
  rw [outstanding, hq, List.count_cons]
  simp only [beq_iff_eq]

theorem count_concat (l : List ℕ) (s r : ℕ) : (l ++ [s]).count r = l.count r + if s = r then 1 else 0 := by
  rw [List.count_append, List.count_singleton]
  simp only [beq_iff_eq]

theorem count_req_concat (l : List HttpAnswer) (a : HttpAnswer) (r : ℕ) :
    ((l ++ [a]).map HttpAnswer.req).count r = (l.map HttpAnswer.req).count r + if a.req = r then 1 else 0 := by
  rw [List.map_append]
  exact count_concat _ _ _

theorem outstanding_make (h : Http) (r s : ℕ) :
    (h.make r).outstanding s = h.outstanding s + if r = s then 1 else 0 := by
  simp only [make, outstanding, count_concat]
  omega

theorem Accounted.make (ha : h.Accounted) (r : ℕ) : (h.make r).Accounted := by
  have hout := h.outstanding_make r
  have hmade (s : ℕ) : (h.make r).made.count s = h.made.count s + if r = s then 1 else 0 := count_concat _ _ _
  have hfront (s : ℕ) : (h.atFront s).toNat ≤ ((h.make r).atFront s).toNat := by
    have hhead (b : Bool) (l : List ℕ) :
        (b && decide (l.head? = some s)).toNat ≤ (b && decide ((l ++ [r]).head? = some s)).toNat := by
      cases l <;> simp
    exact hhead h.failing h.requestsQ
  refine ⟨fun s => ?_, fun s => ?_, fun s => ?_, fun s => ?_, fun s hs hzero => ?_⟩
  · rw [hout, hmade]
    have := ha.made s
    change _ + h.failed.count s = h.answered s + _
    omega
  · rw [hout, hmade]
    exact Nat.add_le_add_right (ha.outstanding_le s) _
  · rw [hout, hmade]
    have := ha.failed s
    have := hfront s
    change h.failed.count s + _ ≤ _
    omega
  · rw [hmade]
    exact Nat.le_add_right_of_le (ha.waiting s)
  · rw [hout] at hzero
    have hne : r ≠ s := by
      rintro rfl
      simp at hzero
    rw [if_neg hne] at hzero
    refine ha.finished s ((List.mem_append.mp hs).resolve_right fun hr => hne ?_) hzero
    exact (List.mem_singleton.mp hr).symm

theorem Accounted.makeBlocked (ha : h.Accounted) (r : ℕ) : (h.makeBlocked r).Accounted where
  made s := (ha.make r).made s
  outstanding_le s := (ha.make r).outstanding_le s
  failed s := (ha.make r).failed s
  waiting s := by
    have := ha.waiting s
    simp only [Http.makeBlocked, Http.make, setRequest_frame, List.count_append]
    omega
  finished s hs hout := by
    have := (ha.make r).finished s hs hout
    by_cases hsr : s = r
    · subst hsr
      simpa [Http.makeBlocked, Http.make] using this
    · simpa [Http.makeBlocked, Http.make, Function.update_of_ne hsr] using this

theorem Accounted.wake (ha : h.Accounted) (r : ℕ) : (h.wake r).Accounted := by
  have hcount : ∀ s, (h.waiting.erase r).count s ≤ h.made.count s := fun s =>
    Nat.le_trans (List.erase_sublist.count_le s) (ha.waiting s)
  by_cases hc : (h.requests r).closeConnection = true
  · rw [Http.wake, if_pos hc]
    exact ⟨ha.made, ha.outstanding_le, ha.failed, hcount, ha.finished⟩
  · rw [Http.wake, if_neg hc]
    refine ⟨ha.made, ha.outstanding_le, ha.failed, hcount, fun s hs hout => ?_⟩
    by_cases hsr : s = r
    · simp [hsr]
    · simpa [Function.update_of_ne hsr] using ha.finished s hs hout

theorem Accounted.doRequest (ha : h.Accounted) (hs : h.doRequest result = some h') : h'.Accounted := by
  obtain ⟨hf, r, rest, hq, hcases⟩ := doRequest_cases hs
  have hfailed (s : ℕ) : h.failed.count s + h.outstanding s ≤ h.made.count s := by
    have := ha.failed s
    rwa [atFront_of_not hf s] at this
  have hqueued (s : ℕ) := outstanding_of_queue hq s
  -- while the request stays in the queue it is outstanding
  have hkept (q : HttpExchange) (s : ℕ) (hm : s ∈ h.made) (hout : h.outstanding s = 0) :
      ((h.setRequest r q).requests s).closeConnection = true := by
    have hsr : s ≠ r := by
      rintro rfl
      rw [hqueued, if_pos rfl] at hout
      omega
    simpa [Function.update_of_ne hsr] using ha.finished s hm hout
  obtain ⟨-, rfl⟩ | ⟨-, rfl⟩ | ⟨-, rfl⟩ | ⟨-, rfl⟩ := hcases
  · exact ⟨ha.made, ha.outstanding_le, fun s => Nat.le_add_right_of_le (hfailed s), ha.waiting, ha.finished⟩
  · exact ⟨ha.made, ha.outstanding_le, fun s => Nat.le_add_right_of_le (hfailed s), ha.waiting, hkept _⟩
  · refine ⟨fun s => ?_, ha.outstanding_le, fun s => ?_, ha.waiting, hkept _⟩
    · have := ha.made s
      change h.made.count s + (h.failed ++ [r]).count s =
        ((h.answers ++ [_]).map HttpAnswer.req).count s + h.outstanding s
      rw [count_concat, count_req_concat]
      change _ = h.answered s + (if r = s then 1 else 0) + h.outstanding s
      omega
    · have := hfailed s
      change (h.failed ++ [r]).count s + h.outstanding s ≤
        h.made.count s + (true && decide (h.requestsQ.head? = some s)).toNat
      rw [count_concat, front_toNat hq]
      omega
  · have hout (s : ℕ) : ({ h.setRequest r { h.requests r with closeConnection := false } with
        requestsQ := rest, wsis := h.wsis ++ [{ req := r }] } : Http).outstanding s = h.outstanding s := by
      rw [hqueued]
      simp only [Http.outstanding, List.map_append, List.map_cons, List.map_nil, count_concat]
      omega
    refine ⟨fun s => ?_, fun s => ?_, fun s => ?_, ha.waiting, fun s hm hzero => ?_⟩
    · rw [hout]
      exact ha.made s
    · rw [hout]
      exact ha.outstanding_le s
    · rw [hout]
      exact Nat.le_add_right_of_le (hfailed s)
    · rw [hout] at hzero
      exact hkept _ s hm hzero

theorem Accounted.giveUp (ha : h.Accounted) (hs : h.giveUp = some h') : h'.Accounted := by
  obtain ⟨hf, r, rest, hq, rfl⟩ := giveUp_cases hs
  have hqueued (s : ℕ) := outstanding_of_queue hq s
  have hfront (s : ℕ) : (h.atFront s).toNat = if r = s then 1 else 0 := by
    rw [atFront, hf, front_toNat hq]
  refine ⟨fun s => ?_, fun s => ?_, fun s => ?_, ha.waiting, fun s hm hout => ?_⟩
  · have := ha.made s
    rw [hqueued] at this
    simp only [answered, outstanding, setRequest_frame, List.map_append, List.map_cons, List.map_nil,
      count_concat] at this ⊢
    omega
  · have := ha.outstanding_le s
    rw [hqueued] at this
    simp only [outstanding, setRequest_frame]
    omega
  · have := ha.failed s
    rw [hqueued, hfront] at this
    simp only [outstanding, setRequest_frame]
    omega
  · by_cases hsr : s = r
    · simp [hsr]
    · refine (congrArg HttpExchange.closeConnection (Function.update_of_ne hsr _ _)).trans ?_
      refine ha.finished s hm ?_
      rw [hqueued, if_neg (Ne.symm hsr)]
      exact hout

/-- The last reason of a connection asks the thread to go on. -/
theorem closeConnection_of_last {q : HttpExchange} (hl : reason.last = true) :
    (q.lwsCallback reason).1.closeConnection = true := by
  cases reason <;> first | rfl | cases hl

/-- No callback takes back that the thread is to go on. -/
theorem closeConnection_lwsCallback {q : HttpExchange} (hq : q.closeConnection = true) (reason : HttpReason) :
    (q.lwsCallback reason).1.closeConnection = true := by
  cases reason <;> first | rfl | exact hq

theorem Accounted.lwsCallback (ha : h.Accounted) (hs : h.lwsCallback k reason = some h') : h'.Accounted := by
  obtain ⟨w, hw, ⟨-, rfl⟩ | ⟨hlast, rfl⟩⟩ := lwsCallback_cases hs
  · have hreqs := map_req_set hw (receive_req w reason)
    have hout (s : ℕ) : h.requestsQ.count s + ((h.wsis.set k (w.receive reason)).map HttpWsi.req).count s =
        h.outstanding s := by rw [hreqs, outstanding]
    refine ⟨fun s => ?_, fun s => ?_, fun s => ?_, ha.waiting, fun s hm hs => ?_⟩
    · exact (ha.made s).trans (congrArg (h.answered s + ·) (hout s).symm)
    · exact Nat.le_trans (Nat.le_of_eq (hout s)) (ha.outstanding_le s)
    · exact Nat.le_trans (Nat.add_le_add_left (Nat.le_of_eq (hout s)) _) (ha.failed s)
    · have hf := ha.finished s hm ((hout s).symm.trans hs)
      by_cases hsw : s = w.req
      · simpa [hsw] using closeConnection_lwsCallback (hsw ▸ hf) reason
      · simpa [Function.update_of_ne hsw] using hf
  · have hcount := count_req_eraseIdx hw
    have hout (s : ℕ) : h.outstanding s = h.requestsQ.count s + ((h.wsis.eraseIdx k).map HttpWsi.req).count s +
        if w.req = s then 1 else 0 := by
      rw [outstanding, hcount, Nat.add_assoc]
    refine ⟨fun s => ?_, fun s => ?_, fun s => ?_, ha.waiting, fun s hm hs => ?_⟩
    · have := ha.made s
      rw [hout] at this
      simp only [answered, outstanding, setRequest_frame, List.map_append, List.map_cons, List.map_nil,
        count_concat] at this ⊢
      omega
    · have := ha.outstanding_le s
      rw [hout] at this
      exact Nat.le_of_add_right_le this
    · have := ha.failed s
      rw [hout] at this
      change h.failed.count s + (h.requestsQ.count s + ((h.wsis.eraseIdx k).map HttpWsi.req).count s) ≤
        h.made.count s + (h.atFront s).toNat
      omega
    · by_cases hsw : s = w.req
      · simpa [hsw] using closeConnection_of_last hlast
      · have hf := ha.finished s hm (by rw [hout, if_neg (Ne.symm hsw)]; exact hs)
        simpa [Function.update_of_ne hsw] using hf

theorem Accounted.step (ha : h.Accounted) (hs : h.step e = some h') : h'.Accounted :=
  step_preserves (fun _ r ha => ha.make r) (fun _ r ha => ha.makeBlocked r) (fun _ r ha _ => ha.wake r)
    (fun _ _ _ ha hs => ha.doRequest hs) (fun _ _ ha hs => ha.giveUp hs) (fun _ _ _ _ ha hs => ha.lwsCallback hs) ha hs

theorem accounted_of_exec {es : List Event} (he : exec Http.step start es = some h) : h.Accounted :=
  run_invariant (fun _ _ _ ha hs => ha.step hs) accounted_start he

/-- The request at the front is in the queue. -/
theorem atFront_le_queue (h : Http) (r : ℕ) : (h.atFront r).toNat ≤ h.requestsQ.count r := by
  rw [atFront]
  cases hq : h.requestsQ with
  | nil => simp
  | cons s rest =>
    by_cases hs : s = r
    · subst hs
      rw [List.count_cons_self]
      exact Nat.le_add_left_of_le (Bool.toNat_le _)
    · simp [hs]

theorem Accounted.failed_le (ha : h.Accounted) (r : ℕ) : h.failed.count r ≤ h.made.count r := by
  have hfailed := ha.failed r
  have hfront := h.atFront_le_queue r
  rw [outstanding] at hfailed
  omega

theorem Accounted.perm (ha : h.Accounted) (hq : h.requestsQ = []) (hw : h.wsis = []) :
    (h.answers.map HttpAnswer.req).Perm (h.made ++ h.failed) := by
  apply List.perm_iff_count.mpr
  intro r
  have := ha.made r
  simp only [outstanding, hq, hw, List.map_nil, List.count_nil] at this
  rw [List.count_append]
  exact this.symm

/-- `response_` is called once for each call of `make`, and once more just for those where libwebsockets calls back
with a connection error before there is a connection; no call is missing when nothing is queued and no connection is
open; and a thread whose request is not outstanding any more does not wait for its timeout. -/
theorem response_once {es : List Event} (he : exec step start es = some h) :
    (∀ r, h.answered r + h.outstanding r = h.made.count r + h.failed.count r ∧
        h.failed.count r ≤ h.made.count r) ∧
      (h.requestsQ = [] → h.wsis = [] → (h.answers.map HttpAnswer.req).Perm (h.made ++ h.failed)) ∧
      ∀ r ∈ h.waiting, h.outstanding r = 0 →
        ∃ h', h.step (.wake r) = some h' ∧ h'.returned = h.returned ++ [(r, true)] := by
  have ha := accounted_of_exec he
  refine ⟨fun r => ⟨(ha.made r).symm, ha.failed_le r⟩, ha.perm, fun r hr hout => ?_⟩
  have hmade : r ∈ h.made := by
    have := ha.waiting r
    have := List.count_pos_iff.mpr hr
    apply List.count_pos_iff.mp
    omega
  refine ⟨h.wake r, if_pos hr, ?_⟩
  rw [wake, if_pos (ha.finished r hmade hout)]

/-- Four requests. The second one gets no connection, the third one, whose thread has given up by the time it is taken
out of the queue, fails on its connection, and the fourth one before there is a connection. -/
def fourRequests : List Event :=
  [.makeBlocked 1, .make 2, .makeBlocked 3, .make 4, .wake 3, .doRequest .connected, .doRequest .refused, .giveUp,
    .doRequest .connected, .doRequest .failed, .giveUp, .lwsCallback 0 (.establishedClientHttp 200),
    .lwsCallback 1 .clientConnectionError, .lwsCallback 0 (.receiveClientHttpRead "o".toList),
    .lwsCallback 0 (.receiveClientHttpRead "k".toList), .lwsCallback 0 .completedClientHttp]

theorem response_once_fourRequests :
    ∃ h, exec Http.step start fourRequests = some h ∧ h.answers.map HttpAnswer.req = [2, 4, 4, 3] ∧
      h.outstanding 1 = 1 ∧
        ∀ r, h.answered r + h.outstanding r = h.made.count r + h.failed.count r ∧
          h.failed.count r ≤ h.made.count r := by
  have hrun : ∃ h ∈ exec Http.step start fourRequests,
      h.answers.map HttpAnswer.req = [2, 4, 4, 3] ∧ h.outstanding 1 = 1 := by decide +kernel
  obtain ⟨h, he, hanswers, hout⟩ := hrun
  exact ⟨h, he, hanswers, hout, (response_once he).1⟩

end Http
end CloudAgent.Net
