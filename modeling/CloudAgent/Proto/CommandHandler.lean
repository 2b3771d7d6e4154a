import CloudAgent.Lib.Transition
import CloudAgent.Net.LwsCommon
import Mathlib.Logic.Function.Basic

/-! Commands that wait for an acknowledgement. Each has an entry in the ack table and a timer on the
transport; the reply and the timer both run its callback, and only the reply erases the entry. -/
namespace CloudAgent.Proto
open Net Transition

variable {κ : Type*}

/-- An acknowledgement callback: the command it was sent with, and what it does. -/
structure AckCb (κ : Type*) where
  msgid : ℤ
  run : κ

/-- `command_ack`. -/
structure CommandAck (κ : Type*) where
  ackCb : AckCb κ
  timeoutCb : ℕ

/-- The part of `command_handler` that keeps track of acknowledgements. The timers of its transport
hold the callbacks that are bound to a timeout. -/
structure CommandHandler (κ : Type*) where
  transport : LwsCommon (AckCb κ)
  acks : ℤ → Option (CommandAck κ)

namespace CommandHandler

def empty : CommandHandler κ := ⟨.empty, fun _ => none⟩

/-- `send_command_wait_ack`, for a timeout in seconds. -/
def sendCommandWaitAck (h : CommandHandler κ) (msgid : ℤ) (run : κ) (ackTimeout : ℕ) :
    CommandHandler κ :=
  let (timeoutCb, transport) := h.transport.scheduleTimedCb ⟨msgid, run⟩ (ackTimeout * 1000)
  { transport, acks := Function.update h.acks msgid (some ⟨⟨msgid, run⟩, timeoutCb⟩) }

/-- `_handle_command_ack`: the callback that a command with this `refid` runs, if any. -/
def handleCommandAck (h : CommandHandler κ) (refid : ℤ) : Option (AckCb κ) × CommandHandler κ :=
  match h.acks refid with
  | none => (none, h)
  | some ack =>
    (some ack.ackCb,
      { transport := h.transport.cancelTimedCb ack.timeoutCb
        acks := Function.update h.acks refid none })

/-- A timer of the transport fires: the callback that it runs. -/
def timedOut (h : CommandHandler κ) (t : ℕ) : Option (AckCb κ × CommandHandler κ) :=
  (h.transport.sulCb t).map fun (cb, transport) => (cb, { h with transport })

/-- The command is in the ack table and its timer has not fired. -/
def awaits (h : CommandHandler κ) (msgid : ℤ) : Bool :=
  match h.acks msgid with
  | none => false
  | some ack => (h.transport.pendingCb ack.timeoutCb).isSome

/-! ### The ack table and the timers -/

/-- An entry of the table and a timer that is still pending belong together. -/
structure Wired (h : CommandHandler κ) : Prop where
  key : ∀ m ack, h.acks m = some ack → ack.ackCb.msgid = m
  lt : ∀ m ack, h.acks m = some ack → ack.timeoutCb < h.transport.nextId
  entry : ∀ m ack cb, h.acks m = some ack → h.transport.Pending ack.timeoutCb cb → cb = ack.ackCb
  timer : ∀ t cb, h.transport.Pending t cb → h.acks cb.msgid = some ⟨cb, t⟩

theorem wired_empty : (empty : CommandHandler κ).Wired := by
  constructor <;> simp [empty]

variable {h h' : CommandHandler κ} {cb : AckCb κ} {m : ℤ} {t : ℕ}

theorem acks_sendCommandWaitAck (h : CommandHandler κ) (m : ℤ) (run : κ) (s : ℕ) (j : ℤ) :
    (h.sendCommandWaitAck m run s).acks j =
      if j = m then some ⟨⟨m, run⟩, h.transport.nextId⟩ else h.acks j :=
  Function.update_apply h.acks m _ j

theorem pending_sendCommandWaitAck (h : CommandHandler κ) (m : ℤ) (run : κ) (s t : ℕ) (cb : AckCb κ) :
    (h.sendCommandWaitAck m run s).transport.Pending t cb ↔
      h.transport.Pending t cb ∨ (t = h.transport.nextId ∧ cb = ⟨m, run⟩) :=
  LwsCommon.pending_scheduleTimedCb _ _ _ _ _

/-- Sending a command with a msgid that is not in the table keeps both apart. -/
theorem Wired.sendCommandWaitAck (w : h.Wired) (hm : h.acks m = none) (run : κ) (s : ℕ) :
    (h.sendCommandWaitAck m run s).Wired := by
  constructor
  · intro j ack hj
    rw [acks_sendCommandWaitAck] at hj
    split at hj
    · obtain rfl := Option.some.inj hj
      exact Eq.symm ‹_›
    · exact w.key j ack hj
  · intro j ack hj
    rw [acks_sendCommandWaitAck] at hj
    split at hj
    · obtain rfl := Option.some.inj hj
      exact Nat.lt_succ_self _
    · exact Nat.lt_succ_of_lt (w.lt j ack hj)
  · intro j ack cb hj hp
    rw [acks_sendCommandWaitAck] at hj
    rw [pending_sendCommandWaitAck] at hp
    split at hj
    · obtain rfl := Option.some.inj hj
      rcases hp with hp | hp
      · exact absurd hp.lt (lt_irrefl _)
      · exact hp.2
    · rcases hp with hp | hp
      · exact w.entry j ack cb hj hp
      · exact absurd hp.1 (Nat.ne_of_lt (w.lt j ack hj))
  · intro t cb hp
    rw [pending_sendCommandWaitAck] at hp
    rw [acks_sendCommandWaitAck]
    rcases hp with hp | ⟨rfl, rfl⟩
    · have hcb := w.timer t cb hp
      rw [if_neg]
      · exact hcb
      · rintro rfl
        simp [hm] at hcb
    · simp

/-- Everything a received command does to the table and to the timers. -/
theorem handleCommandAck_cases (h : CommandHandler κ) (refid : ℤ) :
    (h.acks refid = none ∧ h.handleCommandAck refid = (none, h)) ∨
      ∃ ack, h.acks refid = some ack ∧
        h.handleCommandAck refid = (some ack.ackCb,
          { transport := h.transport.cancelTimedCb ack.timeoutCb
            acks := Function.update h.acks refid none }) := by
  cases hr : h.acks refid with
  | none => exact Or.inl ⟨rfl, by simp [handleCommandAck, hr]⟩
  | some ack => exact Or.inr ⟨ack, rfl, by simp [handleCommandAck, hr]⟩

theorem acks_handleCommandAck (h : CommandHandler κ) (refid j : ℤ) :
    (h.handleCommandAck refid).2.acks j = if j = refid then none else h.acks j := by
  rcases h.handleCommandAck_cases refid with ⟨hr, he⟩ | ⟨ack, hr, he⟩ <;> rw [he]
  · split
    · rename_i hj
      exact hj ▸ hr
    · rfl
  · exact Function.update_apply h.acks refid none j

theorem pending_handleCommandAck (w : h.Wired) (refid : ℤ) (t : ℕ) (cb : AckCb κ) :
    (h.handleCommandAck refid).2.transport.Pending t cb ↔
      cb.msgid ≠ refid ∧ h.transport.Pending t cb := by
  rcases h.handleCommandAck_cases refid with ⟨hr, he⟩ | ⟨ack, hr, he⟩ <;> rw [he]
  · refine ⟨fun hp => ⟨?_, hp⟩, And.right⟩
    rintro rfl
    simp [w.timer t cb hp] at hr
  · simp only [LwsCommon.pending_cancelTimedCb]
    refine and_congr_left fun hp => not_congr ⟨?_, ?_⟩
    · rintro rfl
      rw [w.entry _ ack cb hr hp]
      exact w.key _ ack hr
    · rintro rfl
      have := hr.symm.trans (w.timer t cb hp)
      obtain rfl := Option.some.inj this
      rfl

theorem Wired.handleCommandAck (w : h.Wired) (refid : ℤ) : (h.handleCommandAck refid).2.Wired := by
  have hnext : (h.handleCommandAck refid).2.transport.nextId = h.transport.nextId := by
    rcases h.handleCommandAck_cases refid with ⟨-, he⟩ | ⟨ack, -, he⟩ <;> rw [he]
    rfl
  have hacks : ∀ j ack, (h.handleCommandAck refid).2.acks j = some ack →
      j ≠ refid ∧ h.acks j = some ack := by
    intro j ack hj
    rw [acks_handleCommandAck] at hj
    split at hj
    · simp at hj
    · exact ⟨‹_›, hj⟩
  constructor
  · exact fun j ack hj => w.key j ack (hacks j ack hj).2
  · exact fun j ack hj => hnext ▸ w.lt j ack (hacks j ack hj).2
  · intro j ack cb hj hp
    exact w.entry j ack cb (hacks j ack hj).2 ((pending_handleCommandAck w refid _ cb).mp hp).2
  · intro t cb hp
    obtain ⟨hne, hp⟩ := (pending_handleCommandAck w refid t cb).mp hp
    rw [acks_handleCommandAck, if_neg hne]
    exact w.timer t cb hp

/-- A timer that fires runs the callback it was scheduled with, and the table stays as it is. -/
theorem timedOut_eq_some (he : h.timedOut t = some (cb, h')) :
    h.transport.Pending t cb ∧ h'.acks = h.acks ∧ h'.transport.nextId = h.transport.nextId ∧
      h.transport.pendingCbs.Perm (cb :: h'.transport.pendingCbs) ∧
      ∀ j c, h'.transport.Pending j c ↔ j ≠ t ∧ h.transport.Pending j c := by
  obtain ⟨⟨c, w⟩, hs, he⟩ := Option.map_eq_some_iff.mp he
  obtain ⟨rfl, rfl⟩ := Prod.mk.inj he
  obtain ⟨hp, hnext, hrest⟩ := LwsCommon.sulCb_eq_some hs
  exact ⟨hp, rfl, hnext, LwsCommon.pendingCbs_perm_sulCb hs, hrest⟩

theorem Wired.timedOut (w : h.Wired) (he : h.timedOut t = some (cb, h')) : h'.Wired := by
  obtain ⟨-, hacks, hnext, -, hrest⟩ := timedOut_eq_some he
  constructor
  · exact fun j ack hj => w.key j ack (hacks ▸ hj)
  · exact fun j ack hj => hnext ▸ w.lt j ack (hacks ▸ hj)
  · exact fun j ack c hj hp => w.entry j ack c (hacks ▸ hj) ((hrest _ c).mp hp).2
  · exact fun j c hp => hacks ▸ w.timer j c ((hrest j c).mp hp).2

/-- A pending timer means that the command is awaited. -/
theorem Wired.awaits_of_pending (w : h.Wired) (hp : h.transport.Pending t cb) :
    h.awaits cb.msgid = true := by
  simp [awaits, w.timer t cb hp, LwsCommon.pendingCb_eq_some.mpr hp]

end CommandHandler

/-! ### Runs of the ack table -/

/-- A command handler with the msgids of the commands sent so far and of the callbacks run so far. -/
structure AckSession (κ : Type*) where
  handler : CommandHandler κ
  sent : List ℤ
  called : List ℤ

namespace AckSession

def start : AckSession κ := ⟨.empty, [], []⟩

/-- `receive` is a command from the cloud that carries `refid`, `timeout` a timer that fires. -/
inductive Action (κ : Type*)
  | send (msgid : ℤ) (run : κ) (ackTimeout : ℕ)
  | receive (refid : ℤ)
  | timeout (t : ℕ)

/-- A command object draws a msgid of its own, so no msgid is sent twice. -/
def step (u : AckSession κ) : Action κ → Option (AckSession κ)
  | .send m run s =>
    if m ∈ u.sent then none
    else some { u with handler := u.handler.sendCommandWaitAck m run s, sent := m :: u.sent }
  | .receive refid =>
    let (cb, handler) := u.handler.handleCommandAck refid
    some { u with handler, called := (cb.map AckCb.msgid).toList ++ u.called }
  | .timeout t =>
    (u.handler.timedOut t).map fun (cb, handler) => { u with handler, called := cb.msgid :: u.called }

/-- Every callback was run at most once, and the commands of those that ran left the table. -/
def Settled (u : AckSession κ) : Prop :=
  u.called.Nodup ∧ ∀ m ∈ u.called, (u.handler.acks m).isNone

instance (u : AckSession κ) : Decidable u.Settled := by unfold Settled; infer_instance

/-- Only commands that were sent are in the table or were called. -/
structure Known (u : AckSession κ) : Prop where
  wired : u.handler.Wired
  acks : ∀ m, m ∉ u.sent → u.handler.acks m = none
  called : ∀ m ∈ u.called, m ∈ u.sent

def answered : AckSession κ → Action κ → Prop
  | _, .timeout _ => False
  | _, _ => True

instance : ∀ (u : AckSession κ) (a : Action κ), Decidable (answered u a)
  | _, .send .. => inferInstanceAs (Decidable True)
  | _, .receive _ => inferInstanceAs (Decidable True)
  | _, .timeout _ => inferInstanceAs (Decidable False)

variable {u v : AckSession κ}

/-- Everything a step can do. -/
theorem step_cases {a : Action κ} (h : u.step a = some v) :
    (∃ m run s, a = .send m run s ∧ m ∉ u.sent ∧
      v = ⟨u.handler.sendCommandWaitAck m run s, m :: u.sent, u.called⟩) ∨
    (∃ refid, a = .receive refid ∧ v = ⟨(u.handler.handleCommandAck refid).2, u.sent,
      ((u.handler.handleCommandAck refid).1.map AckCb.msgid).toList ++ u.called⟩) ∨
    ∃ t cb handler, a = .timeout t ∧ u.handler.timedOut t = some (cb, handler) ∧
      v = ⟨handler, u.sent, cb.msgid :: u.called⟩ := by
  cases a with
  | send m run s =>
    simp only [step] at h
    split at h
    · simp at h
    · exact Or.inl ⟨m, run, s, rfl, ‹_›, (Option.some.inj h).symm⟩
  | receive refid => exact Or.inr (Or.inl ⟨refid, rfl, (Option.some.inj h).symm⟩)
  | timeout t =>
    obtain ⟨⟨cb, handler⟩, ht, rfl⟩ := Option.map_eq_some_iff.mp h
    exact Or.inr (Or.inr ⟨t, cb, handler, rfl, ht, rfl⟩)

theorem known_start : (start : AckSession κ).Known := by
  refine ⟨CommandHandler.wired_empty, ?_, ?_⟩ <;> simp [start, CommandHandler.empty]

/-- The command that a reply answers was sent, and the reply erases it from the table. -/
theorem Known.reply (hu : u.Known) {refid m : ℤ}
    (hm : m ∈ ((u.handler.handleCommandAck refid).1.map AckCb.msgid).toList) :
    m = refid ∧ u.handler.acks refid ≠ none ∧ m ∈ u.sent := by
  rcases u.handler.handleCommandAck_cases refid with ⟨-, he⟩ | ⟨ack, hr, he⟩ <;> rw [he] at hm
  · simp at hm
  · have hkey := hu.wired.key refid ack hr
    obtain rfl : m = refid := by simpa [hkey] using hm
    refine ⟨rfl, by simp [hr], ?_⟩
    by_contra hns
    simp [hu.acks m hns] at hr

theorem Known.step (hu : u.Known) {a : Action κ} (h : u.step a = some v) : v.Known := by
  rcases step_cases h with ⟨m, run, s, -, hm, rfl⟩ | ⟨refid, -, rfl⟩ | ⟨t, cb, handler, -, ht, rfl⟩
  · refine ⟨hu.wired.sendCommandWaitAck (hu.acks m hm) run s, fun j hj => ?_, fun j hj => ?_⟩
    · simp only [List.mem_cons, not_or] at hj
      rw [CommandHandler.acks_sendCommandWaitAck, if_neg hj.1]
      exact hu.acks j hj.2
    · exact List.mem_cons_of_mem m (hu.called j hj)
  · refine ⟨hu.wired.handleCommandAck refid, fun j hj => ?_, fun j hj => ?_⟩
    · rw [CommandHandler.acks_handleCommandAck]
      split
      · rfl
      · exact hu.acks j hj
    · rcases List.mem_append.mp hj with hj | hj
      · exact (hu.reply hj).2.2
      · exact hu.called j hj
  · obtain ⟨hp, hacks, -⟩ := CommandHandler.timedOut_eq_some ht
    refine ⟨hu.wired.timedOut ht, fun j hj => ?_, fun j hj => ?_⟩
    · exact hacks ▸ hu.acks j hj
    · rcases List.mem_cons.mp hj with rfl | hj
      · by_contra hns
        have hentry := hu.wired.timer t cb hp
        simp [hu.acks _ hns] at hentry
      · exact hu.called j hj

theorem Settled.step (hu : u.Known) (hs : u.Settled) {a : Action κ} (hok : answered u a)
    (h : u.step a = some v) : v.Settled := by
  rcases step_cases h with ⟨m, run, s, -, hm, rfl⟩ | ⟨refid, -, rfl⟩ | ⟨t, cb, handler, rfl, -, -⟩
  · refine ⟨hs.1, fun j hj => ?_⟩
    have hne : j ≠ m := by
      rintro rfl
      exact hm (hu.called j hj)
    rw [CommandHandler.acks_sendCommandWaitAck, if_neg hne]
    exact hs.2 j hj
  · refine ⟨?_, fun j hj => ?_⟩
    · rcases u.handler.handleCommandAck_cases refid with ⟨-, he⟩ | ⟨ack, hr, he⟩ <;> rw [he]
      · exact hs.1
      · refine List.nodup_cons.mpr ⟨fun hc => ?_, hs.1⟩
        have hnone := hs.2 _ hc
        rw [hu.wired.key refid ack hr, hr] at hnone
        simp at hnone
    · rw [CommandHandler.acks_handleCommandAck]
      split
      · rfl
      · rename_i hne
        rcases List.mem_append.mp hj with hj | hj
        · exact absurd (hu.reply hj).1 hne
        · exact hs.2 j hj
  · exact absurd hok id

/-- A timeout leaves the entry of its command in the table. -/
theorem not_settled_of_timeout (hu : u.Known) {a : Action κ} (hok : ¬ answered u a)
    (h : u.step a = some v) : ¬ v.Settled := by
  rcases step_cases h with ⟨m, run, s, rfl, -, -⟩ | ⟨refid, rfl, -⟩ | ⟨t, cb, handler, -, ht, rfl⟩
  · exact absurd trivial hok
  · exact absurd trivial hok
  · obtain ⟨hp, hacks, -⟩ := CommandHandler.timedOut_eq_some ht
    intro hs
    have hnone := hs.2 cb.msgid List.mem_cons_self
    simp [hacks, hu.wired.timer t cb hp] at hnone

/-- What went wrong once stays wrong. -/
theorem settled_of_step (hu : u.Known) {a : Action κ} (h : u.step a = some v) (hs : v.Settled) :
    u.Settled := by
  rcases step_cases h with ⟨m, run, s, -, hm, rfl⟩ | ⟨refid, -, rfl⟩ | ⟨t, cb, handler, -, ht, rfl⟩
  · refine ⟨hs.1, fun j hj => ?_⟩
    have hne : j ≠ m := by
      rintro rfl
      exact hm (hu.called j hj)
    have hnone := hs.2 j hj
    rwa [CommandHandler.acks_sendCommandWaitAck, if_neg hne] at hnone
  · refine ⟨hs.1.of_append_right, fun j hj => ?_⟩
    have hnone := hs.2 j (List.mem_append_right _ hj)
    rw [CommandHandler.acks_handleCommandAck] at hnone
    split at hnone
    · rename_i hne
      subst hne
      rcases u.handler.handleCommandAck_cases j with ⟨hr, -⟩ | ⟨ack, hr, he⟩
      · simp [hr]
      · have hnodup := hs.1
        simp only [he, Option.map_some, Option.toList_some, hu.wired.key j ack hr] at hnodup
        exact absurd hj (List.nodup_cons.mp hnodup).1
    · exact hnone
  · obtain ⟨-, hacks, -⟩ := CommandHandler.timedOut_eq_some ht
    exact ⟨(List.nodup_cons.mp hs.1).2, fun j hj => hacks ▸ hs.2 j (List.mem_cons_of_mem _ hj)⟩

/-- Every callback is run at most once, and its command leaves the table, in exactly those runs
where no timer fires. -/
theorem acks_called_once_iff (as : List (Action κ)) (he : exec step start as = some u) :
    u.Settled ↔ Meets step answered start as :=
  good_iff_meets (B := Known) (I := fun w => w.Known ∧ w.Settled) (fun _ _ _ hb hv => hb.step hv)
    (fun _ _ _ hb hu hok hv => ⟨hb.step hv, hu.2.step hb hok hv⟩) (fun _ hu => hu.2)
    (fun _ _ _ hu hok hv => not_settled_of_timeout hu.1 hok hv)
    (fun _ _ _ hb hv hs => settled_of_step hb hv hs) known_start
    ⟨known_start, List.nodup_nil, by simp [start]⟩ he

/-- Two commands, the second of which gets two replies. -/
def repliedRun : List (Action Unit) :=
  [.send 1 () 20, .send 2 () 20, .receive 2, .receive 2, .receive 1]

theorem acks_called_once_replied :
    ∃ u, exec step start repliedRun = some u ∧ u.called = [1, 2] ∧ u.Settled := by
  have hrun : ∃ u ∈ exec step start repliedRun, u.called = [1, 2] := by decide +kernel
  obtain ⟨u, hu, hcalled⟩ := hrun
  exact ⟨u, hu, hcalled, (acks_called_once_iff _ hu).mpr (by decide +kernel)⟩

/-- The reply comes after the timeout, and the callback is run for a second time. -/
theorem acks_called_twice :
    ∃ u ∈ exec step (start : AckSession Unit) [.send 1 () 20, .timeout 0, .receive 1],
      u.called = [1, 1] ∧ ¬ u.Settled := by
  decide +kernel

end AckSession
end CloudAgent.Proto
