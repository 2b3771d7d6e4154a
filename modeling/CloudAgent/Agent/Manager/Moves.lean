import CloudAgent.Agent.Manager
import CloudAgent.Lib.Transition
import Mathlib.Logic.Relation
import Mathlib.Data.List.Count

/-! What a step of the manager can do, as a chain of small moves. A condition on the surroundings is
attached to the moves it is about, so that an invariant only looks at moves. -/
namespace CloudAgent.Agent
open Utils Proto Transition

/-- The planned upload that a callback of the upload timer puts in a queue. -/
def DirectUploadCb.request : DirectUploadCb → Option GetDirectUploadUrl
  | .enqueue r => some r
  | _ => none

/-- The planned upload whose `on_finished` an acknowledgement callback captures. -/
def AckBody.initiator : AckBody → Option ℤ
  | .directUpload r => some r.msgid
  | .camEvent _ _ => none

namespace Manager

variable {p : Profile} {m m' : Manager}

/-- The planned uploads that wait for their timer. -/
def enqueuing (m : Manager) : List GetDirectUploadUrl :=
  m.directUploadTimer.pendingCbs.filterMap DirectUploadCb.request

/-- The kinds of payload held under a msgid, in the order in which they are used. -/
def heldKinds (m : Manager) (i : ℤ) : List MediaType :=
  [.snapshot, .record, .metaFile].filter (m.holds i)

/-- What is left of the held payloads when each URL takes the first one it allows. -/
def leftover (held : List MediaType) (urls : List DirectUploadUrlBase) : List MediaType :=
  urls.foldl (fun held d => held.eraseP d.allows) held

/-- Conditions on what happens to the manager: on a planned upload that gets queued, one that is
canceled when its turn comes, a record for which an URL is requested, a ticket that is canceled, a
reply to a command in the ack table, and an event that is sent or hidden. -/
structure Conditions where
  enqueue : GetDirectUploadUrl → Bool := fun _ => true
  canceled : GetDirectUploadUrl → Bool := fun _ => true
  request : Manager → Bool := fun _ => true
  cancel : String → Manager → Bool := fun _ _ => true
  reply : DirectUploadUrl → Manager → Bool := fun _ _ => true
  notify : NotifyEnv → EventConfig → EventObject → Manager → Bool := fun _ _ _ _ => true

/-- Everything that `on_direct_upload_url` can do. -/
inductive Uploaded (initiator : Option ℤ) (refid : ℤ) (m : Manager) : Manager → Prop
  | missing : Uploaded initiator refid m (m.onFinished initiator false)
  | dropped (kind : MediaType) (hheld : m.holds refid kind = true) :
      Uploaded initiator refid m ((m.erasePayload refid kind).onFinished initiator false)
  | started (req : UploadRequestHttp) (hheld : m.holds refid req.mediaType = true)
      (hinit : req.initiator = initiator) :
      Uploaded initiator refid m
        { (m.countUploading (· + 1) req.mediaType).erasePayload refid req.mediaType with
          http := m.http ++ [req] }

/-- The small moves. -/
inductive Move (p : Profile) (c : Conditions) (m : Manager) : Manager → Prop
  | registered (b : Bool) : Move p c m { m with registered := b }
  | timer (w : Net.LwsCommon DirectUploadCb)
      (hw : m.enqueuing.Perm (w.pendingCbs.filterMap DirectUploadCb.request)) :
      Move p c m { m with directUploadTimer := w }
  | draw : Move p c m { m with msgid := m.msgid + 1 }
  | accept (r : GetDirectUploadUrl) (w : Net.LwsCommon DirectUploadCb) (hr : r.msgid = m.msgid + 1)
      (hw : w.pendingCbs.filterMap DirectUploadCb.request = m.enqueuing ++ [r]) :
      Move p c m { m with
        msgid := m.msgid + 1, directUploadTimer := w, accepted := m.accepted ++ [r] }
  | enqueue (r : GetDirectUploadUrl) (w : Net.LwsCommon DirectUploadCb)
      (hw : m.enqueuing.Perm (r :: w.pendingCbs.filterMap DirectUploadCb.request))
      (hok : c.enqueue r = true) :
      Move p c m { m with
        directUploadTimer := w
        directUploadVideoQ := m.directUploadVideoQ ++ if r.category = .record then [r] else []
        directUploadSnapshotQ := m.directUploadSnapshotQ ++ if r.category = .snapshot then [r] else [] }
  | late (env : UploadEnv) : Move p c m (m.updateDirectUploadQueueLatency p env)
  | canceled (r : GetDirectUploadUrl) (q : List GetDirectUploadUrl) (hq : m.directUploadVideoQ = r :: q)
      (hok : c.canceled r = true) : Move p c m { m with directUploadVideoQ := q }
  | failed (r : GetDirectUploadUrl) (q : List GetDirectUploadUrl) (hq : m.directUploadVideoQ = r :: q) :
      Move p c m (({ m with directUploadVideoQ := q } : Manager).onFinished r.msgid false)
  | request (r : GetDirectUploadUrl) (q : List GetDirectUploadUrl) (clip : VideoClipInfo)
      (hq : m.directUploadVideoQ = r :: q) (hok : c.request m = true) :
      Move p c m { m with
        directUploadVideoQ := q
        records := m.records.insert r.msgid clip
        commands := m.commands.sendCommandWaitAck r.msgid (.directUpload r) 20
        sent := m.sent ++ [r.msgid] }
  | cancelTicket (ticket : String) (hok : c.cancel ticket m = true) :
      Move p c m (m.cancelByTicket ticket)
  | timedOut (t : ℕ) (cb : AckCb AckBody) (commands : CommandHandler AckBody)
      (ht : m.commands.timedOut t = some (cb, commands)) :
      Move p c m ({ m with commands }.ackTimedOut cb)
  | refused (msg : DirectUploadUrl) (ack : CommandAck AckBody)
      (hack : m.commands.acks msg.refid = some ack) (hvalid : msg.valid = false)
      (hok : c.reply msg m = true) :
      Move p c m ({ m with commands := (m.commands.handleCommandAck msg.refid).2 }.onFinished
        (if msg.status = "OK" then none else ack.ackCb.run.initiator) false)
  | answered (msg : DirectUploadUrl) (ack : CommandAck AckBody) (m' : Manager)
      (hack : m.commands.acks msg.refid = some ack) (hvalid : msg.valid = true)
      (hok : c.reply msg m = true)
      (hup : Uploaded ack.ackCb.run.initiator msg.refid
        { m with commands := (m.commands.handleCommandAck msg.refid).2 } m') : Move p c m m'
  | uploaded (refid : ℤ) (m' : Manager) (hup : Uploaded none refid m m') : Move p c m m'
  | settle (msg : DirectUploadUrl) (m₀ : Manager) (hsent : msg.refid ∈ m.sent)
      (hack : m₀.commands.acks msg.refid ≠ none) (hok : c.reply msg m₀ = true)
      (hheld : m.heldKinds msg.refid =
        leftover (m₀.heldKinds msg.refid) (if msg.valid then msg.urls else [])) :
      Move p c m { m with settled := m.settled ++ [msg.refid] }
  | httpFinished (k : ℕ) (req : UploadRequestHttp) (code : ℤ) (hk : m.http[k]? = some req) :
      Move p c m (({ m with http := m.http.eraseIdx k } : Manager).httpFinished req code)
  | notified : Move p c m m.createEvent
  | sentEvent (env : NotifyEnv) (config : EventConfig) (ev : EventObject)
      (hok : c.notify env config ev m = true) :
      Move p c m (m.createEvent.sendEvent p env config (m.msgid + 1) ev)

/-! ### The payload maps -/

theorem holds_erasePayload (m : Manager) (i j : ℤ) (kind k : MediaType) :
    (m.erasePayload i kind).holds j k = true ↔ m.holds j k = true ∧ ¬(j = i ∧ k = kind) := by
  cases kind <;> cases k <;>
    simp [holds, erasePayload, AList.lookup_isSome, AList.mem_erase, and_comm]

theorem pending_erasePayload {i : ℤ} {kind : MediaType} (h : m.holds i kind = true) (k : MediaType) :
    (m.erasePayload i kind).pending k = m.pending k - if k = kind then 1 else 0 := by
  cases kind <;> cases k <;> simp_all [holds, erasePayload, pending, AList.lookup_isSome,
    AList.mem_keys, List.length_erase_of_mem]

end Manager
end CloudAgent.Agent
