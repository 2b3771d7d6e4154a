import CloudAgent.Lib.Transition
import CloudAgent.Streamer.Queue

/-! A queue and the threads that call `push(const T&)` and `pop`, each critical section being a step: whether the
queue stays empty from `flush` to `flush_stop`. -/
namespace CloudAgent.Streamer
open Transition

/-- The two overloads of `pop`: the one that returns the item, and the one that writes it to its argument. -/
inductive PopKind
  | value | into
  deriving DecidableEq

namespace Queue
variable {α : Type*}

/-- What `pop` waits for. -/
def canPop (q : Queue α) : PopKind → Bool
  | .value => !q.queue.isEmpty || q.flushing || q.eos
  | .into => !q.queue.isEmpty || q.flushing

/-- `pop` once it need not wait. -/
def take (q : Queue α) : PopKind → Option α × Queue α
  | .value => (q.queue.head?, { q with queue := q.queue.tail })
  | .into => if q.flushing then (none, q) else (q.queue.head?, { q with queue := q.queue.tail })

def apply (q : Queue α) (p : Pushed α) : Queue α := { q with queue := p.queue, waitVideoKey := p.waitVideoKey }

/-- A queue, the items of the producers that wait in `push(const T&)`, and the consumers that wait in `pop`. -/
structure Monitor (α : Type*) where
  q : Queue α
  pushing : List α
  popping : List PopKind
  deriving DecidableEq

/-- One critical section: a call up to where it waits or returns, or a waiting thread that wakes up. -/
inductive Section (α : Type*)
  | push (item : α) | wakePush (thread : ℕ) | pop (kind : PopKind) | wakePop (thread : ℕ)
  | flush | flushStop | setEos (eos : Bool)
  deriving DecidableEq

/-- A thread that wakes up tests what it waits for, and waits on where it is not so. -/
def step (c : CanDrop α) (m : Monitor α) : Section α → Option (Monitor α)
  | .push item =>
    if m.q.flushing then some { m with q := m.q.apply (m.q.refuse item) }
    else if m.q.canPush then some { m with q := m.q.apply (m.q.store c item) }
    else some { m with pushing := m.pushing ++ [item] }
  | .wakePush i =>
    match m.pushing[i]? with
    | none => none
    | some item =>
      if m.q.canPush then some { m with q := m.q.apply (m.q.store c item), pushing := m.pushing.eraseIdx i }
      else some m
  | .pop kind =>
    if m.q.canPop kind then some { m with q := (m.q.take kind).2 }
    else some { m with popping := m.popping ++ [kind] }
  | .wakePop i =>
    match m.popping[i]? with
    | none => none
    | some kind =>
      if m.q.canPop kind then some { m with q := (m.q.take kind).2, popping := m.popping.eraseIdx i }
      else some m
  | .flush => some { m with q := m.q.flush }
  | .flushStop => some { m with q := m.q.flushStop }
  | .setEos eos => some { m with q := m.q.setEos eos }

def Monitor.new (drop : Bool) (direction : DropDirection) : Monitor α := ⟨Queue.new drop direction, [], []⟩

variable {c : CanDrop α} {m n : Monitor α} {q : Queue α}

/-! ### What a critical section leaves as it was -/

@[simp] theorem take_drop (q : Queue α) (kind : PopKind) : (q.take kind).2.drop = q.drop := by
  cases kind with
  | value => rfl
  | into => rw [take]; split <;> rfl

@[simp] theorem take_flushing (q : Queue α) (kind : PopKind) : (q.take kind).2.flushing = q.flushing := by
  cases kind with
  | value => rfl
  | into => rw [take]; split <;> rfl

theorem take_nil {kind : PopKind} (h : q.queue = []) : (q.take kind).2.queue = [] := by
  cases kind with
  | value => simp [take, h]
  | into => rw [take]; split <;> simp [h]

@[simp] theorem apply_drop (q : Queue α) (p : Pushed α) : (q.apply p).drop = q.drop := rfl
@[simp] theorem apply_flushing (q : Queue α) (p : Pushed α) : (q.apply p).flushing = q.flushing := rfl

theorem drop_of_not_canPush (h : q.canPush = false) : q.drop = false := by
  simp only [canPush, Bool.or_eq_false_iff] at h
  exact h.2

/-- What a critical section can do. -/
theorem step_cases {a : Section α} (h : step c m a = some n) :
    (n.pushing = m.pushing ∧ (n.q = m.q ∨ (∃ kind, n.q = (m.q.take kind).2) ∨ ∃ eos, n.q = m.q.setEos eos)) ∨
      (m.q.flushing = false ∧ m.q.drop = false ∧ n.q = m.q) ∨
      (m.q.flushing = false ∧ n.pushing = m.pushing ∧ ∃ p, n.q = m.q.apply p) ∨
      (∃ i, m.pushing ≠ [] ∧ n.pushing = m.pushing.eraseIdx i ∧ ∃ p, n.q = m.q.apply p) ∨
      (a = .flush ∧ n.pushing = m.pushing ∧ n.q = m.q.flush) ∨
      (a = .flushStop ∧ n.pushing = m.pushing ∧ n.q = m.q.flushStop) := by
  cases a with
  | push item =>
    rw [step] at h
    split at h
    · cases h
      exact .inl ⟨rfl, .inl rfl⟩
    · rename_i hf
      have hf : m.q.flushing = false := Bool.eq_false_iff.mpr hf
      split at h
      · cases h
        exact .inr (.inr (.inl ⟨hf, rfl, _, rfl⟩))
      · rename_i hc
        cases h
        exact .inr (.inl ⟨hf, drop_of_not_canPush (Bool.eq_false_iff.mpr hc), rfl⟩)
  | wakePush i =>
    rw [step] at h
    split at h
    · cases h
    · rename_i item hi
      split at h
      · cases h
        refine .inr (.inr (.inr (.inl ⟨i, ?_, rfl, _, rfl⟩)))
        rintro hnil
        rw [hnil] at hi
        cases hi
      · cases h
        exact .inl ⟨rfl, .inl rfl⟩
  | pop kind =>
    rw [step] at h
    split at h
    · cases h
      exact .inl ⟨rfl, .inr (.inl ⟨kind, rfl⟩)⟩
    · cases h
      exact .inl ⟨rfl, .inl rfl⟩
  | wakePop i =>
    rw [step] at h
    split at h
    · cases h
    · rename_i kind hi
      split at h
      · cases h
        exact .inl ⟨rfl, .inr (.inl ⟨kind, rfl⟩)⟩
      · cases h
        exact .inl ⟨rfl, .inl rfl⟩
  | flush =>
    cases h
    exact .inr (.inr (.inr (.inr (.inl ⟨rfl, rfl, rfl⟩))))
  | flushStop =>
    cases h
    exact .inr (.inr (.inr (.inr (.inr ⟨rfl, rfl, rfl⟩))))
  | setEos eos =>
    cases h
    exact .inl ⟨rfl, .inr (.inr ⟨eos, rfl⟩)⟩

theorem step_drop {a : Section α} (h : step c m a = some n) : n.q.drop = m.q.drop := by
  obtain ⟨-, hq⟩ | ⟨-, -, hq⟩ | ⟨-, -, p, hq⟩ | ⟨i, -, -, p, hq⟩ | ⟨-, -, hq⟩ | ⟨-, -, hq⟩ := step_cases h
  · obtain hq | ⟨kind, hq⟩ | ⟨eos, hq⟩ := hq <;> simp [hq, setEos]
  all_goals simp [hq, flush, flushStop]

/-- Threads wait in `push(const T&)` only where the queue does not drop. -/
def Monitor.Sound (m : Monitor α) : Prop := m.q.drop = true → m.pushing = []

/-- While the queue is flushed it is empty, and no producer waits to fill it. -/
def Monitor.Flushed (m : Monitor α) : Prop := m.q.flushing = true → m.pushing = [] ∧ m.q.queue = []

theorem Monitor.Sound.step {a : Section α} (hm : m.Sound) (h : step c m a = some n) : n.Sound := by
  intro hd
  obtain ⟨hp, hq⟩ | ⟨-, hdrop, hq⟩ | ⟨-, hp, p, hq⟩ | ⟨i, hne, hp, p, hq⟩ | ⟨-, hp, hq⟩ | ⟨-, hp, hq⟩ := step_cases h
  · rw [hp]
    obtain hq | ⟨kind, hq⟩ | ⟨eos, hq⟩ := hq
    · exact hm (by rwa [← hq])
    · exact hm (by rwa [hq, take_drop] at hd)
    · exact hm (by rwa [hq] at hd)
  · rw [hq, hdrop] at hd
    cases hd
  · rw [hp]
    exact hm (by rwa [hq] at hd)
  · exact absurd (hm (by rwa [hq] at hd)) hne
  · rw [hp]
    exact hm (by rwa [hq] at hd)
  · rw [hp]
    exact hm (by rwa [hq] at hd)

/-- Only `flush` can find a producer that waits. -/
theorem Monitor.Flushed.step {a : Section α} (hm : m.Flushed) (hflush : a = .flush → m.pushing = [])
    (h : step c m a = some n) : n.Flushed := by
  intro hf
  obtain ⟨hp, hq⟩ | ⟨hno, -, hq⟩ | ⟨hno, -, p, hq⟩ | ⟨i, hne, -, p, hq⟩ | ⟨ha, hp, hq⟩ | ⟨-, -, hq⟩ := step_cases h
  · rw [hp]
    obtain hq | ⟨kind, hq⟩ | ⟨eos, hq⟩ := hq
    · rw [hq] at hf ⊢
      exact hm hf
    · rw [hq, take_flushing] at hf
      rw [hq]
      exact ⟨(hm hf).1, take_nil (hm hf).2⟩
    · rw [hq] at hf ⊢
      exact hm hf
  · rw [hq, hno] at hf
    cases hf
  · rw [hq, apply_flushing, hno] at hf
    cases hf
  · rw [hq] at hf
    exact absurd (hm hf).1 hne
  · rw [hp, hq]
    exact ⟨hflush ha, rfl⟩
  · rw [hq] at hf
    cases hf

theorem Monitor.Sound.of_exec {drop : Bool} {direction : DropDirection} {as : List (Section α)}
    (h : exec (Queue.step c) (.new drop direction) as = some m) : m.Sound :=
  run_invariant (fun _ _ _ hm hs => hm.step hs) (fun _ => rfl) h

/-! ### From `flush` to `flush_stop` -/

/-- Whatever the threads do from `flush` on, the queue is empty until `flush_stop`. -/
def StaysEmpty (c : CanDrop α) (m : Monitor α) : Prop :=
  ∀ as n, .flushStop ∉ as → exec (step c) m (.flush :: as) = some n → n.q.queue = []

/-- An empty queue takes the item of a thread that wakes up, where nothing is dropped. -/
theorem store_of_empty {item : α} (hq : q.queue = []) (hd : q.drop = false) : (q.store c item).queue = [item] := by
  cases hdir : q.direction with
  | dropFront => simp [store, hdir, hq, dropOld]
  | dropBack => simp [store, hdir, hq, hd, dropNew, c.keeps]

/-- A critical section other than `flush_stop` keeps the queue flushed. -/
theorem step_flushing {a : Section α} (hf : m.q.flushing = true) (ha : a ≠ .flushStop) (h : step c m a = some n) :
    n.q.flushing = true := by
  obtain ⟨-, hq⟩ | ⟨-, -, hq⟩ | ⟨-, -, p, hq⟩ | ⟨i, -, -, p, hq⟩ | ⟨-, -, hq⟩ | ⟨hstop, -, -⟩ := step_cases h
  · obtain hq | ⟨kind, hq⟩ | ⟨eos, hq⟩ := hq
    · rwa [hq]
    · rwa [hq, take_flushing]
    · rwa [hq]
  · rwa [hq]
  · rwa [hq]
  · rwa [hq]
  · rw [hq]
    rfl
  · exact absurd hstop ha

theorem staysEmpty_of_no_producer (hp : m.pushing = []) : StaysEmpty c m := by
  intro as n has h
  obtain ⟨m', hm', h⟩ := exec_cons_eq_some.mp h
  obtain rfl : { m with q := m.q.flush } = m' := Option.some.inj hm'
  have hstart : m.q.flush.flushing = true ∧ Monitor.Flushed { m with q := m.q.flush } := ⟨rfl, fun _ => ⟨hp, rfl⟩⟩
  have hmeets : Meets (step c) (fun _ a => a ≠ .flushStop) { m with q := m.q.flush } as := by
    refine Meets.of_forall_mem fun a ha u => ?_
    rintro rfl
    exact has ha
  have hend : n.q.flushing = true ∧ n.Flushed := by
    refine invariant (P := fun m : Monitor α => m.q.flushing = true ∧ m.Flushed) (fun u a v hu ha hs => ?_)
      hstart hmeets h
    exact ⟨step_flushing hu.1 ha hs, hu.2.step (fun _ => (hu.2 hu.1).1) hs⟩
  exact (hend.2 hend.1).2

/-- The first producer that waits fills the queue once `flush` has made room and woken it. -/
theorem not_staysEmpty_of_producer (hm : m.Sound) (hp : m.pushing ≠ []) : ¬ StaysEmpty c m := by
  intro hstays
  obtain ⟨item, rest, hcons⟩ := List.exists_cons_of_ne_nil hp
  have hd : m.q.flush.drop = false := by
    by_contra hd
    exact hp (hm (Bool.not_eq_false _ ▸ hd))
  have hwake : exec (step c) m [.flush, .wakePush 0] =
      some { m with q := m.q.flush.apply (m.q.flush.store c item), pushing := rest } := by
    have hroom : m.q.flush.canPush = true := by simp [canPush, flush, full, MediaFrameQueue.maxItems]
    simp [exec, step, hcons, hroom]
  have hempty : (m.q.flush.store c item).queue = [] := hstays [.wakePush 0] _ (by simp) hwake
  rw [store_of_empty rfl hd] at hempty
  cases hempty

/-- A flushed queue stays empty until `flush_stop` exactly if no thread waits in `push(const T&)` when `flush` is
called, and it does so along every run that calls `flush` at such times only. -/
theorem flushed_queue_stays_empty (c : CanDrop α) (drop : Bool) (direction : DropDirection) {as : List (Section α)}
    (h : exec (step c) (.new drop direction) as = some m) :
    (StaysEmpty c m ↔ m.pushing = []) ∧
      (Meets (step c) (fun n a => a = .flush → n.pushing = []) (.new drop direction) as →
        Throughout (step c) (fun n => n.q.flushing = true → n.q.queue = []) (.new drop direction) as) := by
  have hm : m.Sound := .of_exec h
  refine ⟨⟨fun hs => ?_, staysEmpty_of_no_producer⟩, fun hmeets => ?_⟩
  · by_contra hp
    exact not_staysEmpty_of_producer hm hp hs
  · have hflushed : Throughout (step c) Monitor.Flushed (.new drop direction) as :=
      throughout_of_meets (fun _ _ _ hu hok hs => hu.step hok hs) (fun hf => by cases hf) hmeets
    exact hflushed.mono fun u hu hf => (hu hf).2

/-- A queue that drops stays empty whenever it is flushed. -/
theorem staysEmpty_of_drop (direction : DropDirection) {as : List (Section α)}
    (h : exec (step c) (.new true direction) as = some m) : StaysEmpty c m := by
  have hdrop : m.q.drop = true :=
    run_invariant (P := fun m : Monitor α => m.q.drop = true) (fun _ _ _ hm hs => (step_drop hs).trans hm) rfl h
  exact staysEmpty_of_no_producer (Monitor.Sound.of_exec h hdrop)

theorem flushed_queue_stays_empty_of_one_frame :
    StaysEmpty .media (⟨⟨[none], false, .dropBack, false, false, false⟩, [], []⟩ : Monitor (Option MediaFrame)) ∧
      Throughout (step .media) (fun n => n.q.flushing = true → n.q.queue = []) (.new false .dropBack)
        [.pop .value, .push none, .wakePop 0, .flush, .push none] := by
  have h : exec (step .media) (.new false .dropBack) [.push none] =
    some (⟨⟨[none], false, .dropBack, false, false, false⟩, [], []⟩ : Monitor (Option MediaFrame)) := rfl
  have h' : exec (step .media) (.new false .dropBack) [.pop .value, .push none, .wakePop 0, .flush, .push none] =
    some (⟨⟨[], false, .dropBack, false, true, false⟩, [], []⟩ : Monitor (Option MediaFrame)) := rfl
  exact ⟨(flushed_queue_stays_empty .media false .dropBack h).1.mpr rfl,
    (flushed_queue_stays_empty .media false .dropBack h').2 (by decide)⟩

/-- With as many frames as it holds and one more, the queue is not empty when the thread that waits has woken up. -/
theorem not_flushed_queue_stays_empty : ¬ ∀ (drop : Bool) (direction : DropDirection)
    (as : List (Section (Option MediaFrame))) (m : Monitor (Option MediaFrame)),
    exec (step .media) (.new drop direction) as = some m → StaysEmpty .media m := by
  intro h
  have hrun := h false .dropFront (List.replicate 91 (.push none)) _ rfl
  have hempty := hrun [.wakePush 0] _ (by decide) rfl
  cases hempty

end Queue
end CloudAgent.Streamer
