import CloudAgent.Streamer.MultiFrag

/-! Which runs of the fragmenting sink hand every frame to the internal sink. -/
namespace CloudAgent.Streamer.MultiFrag
open Transition

namespace Pipeline
variable {p p' : Pipeline} {f : MediaFrame}

/-- What the runs keep as long as every step meets `Keeps`. Between two fragments the internal sink's
thread is gone; otherwise it is running, or it left the loop on its own. -/
structure Inv (p : Pipeline) : Prop where
  kept : p.NothingLost
  wait : p.queue.waitVideoKey = false
  key : p.sink.videoKeyFrameReceived = p.started
  current : ∀ q ∈ p.held ++ p.queue.queue, q.fragment = p.fragment
  phase : match p.pc with
    | .ready | .stop _ => p.thread = .exited ∨ p.running = true ∧ p.queue.flushing = false
    | .push q => q.fragment = p.fragment ∧
        (p.thread = .exited ∨ p.running = true ∧ p.queue.flushing = false)
    | .flush _ | .join _ => True
    | .init _ | .start _ => p.thread = .exited

theorem Inv.opened (mode : Mode) (param : ℕ) (droppable : Bool) : Inv (opened mode param droppable) where
  kept := ⟨rfl, by simp [Pipeline.opened], by simp [Pipeline.opened]⟩
  wait := rfl
  key := rfl
  current := by simp [Pipeline.opened, held]
  phase := Or.inr ⟨rfl, rfl⟩

/-! ### The end of `process` -/

theorem finish_of_first (h : p.sink.noFirst f = false) :
    ∃ g, p.finish f = { p with sink := (p.sink.stamp f).1, pc := .push ⟨g, f, p.fragment⟩ } := by
  have hne : (p.sink.stamp f).2 ≠ none := by
    intro hn
    rw [Sink.stamp_eq_none, h] at hn
    exact Bool.noConfusion hn
  obtain ⟨g, hg⟩ := Option.ne_none_iff_exists'.mp hne
  exact ⟨g, by rw [finish, hg]⟩

theorem finish_of_noFirst (h : p.sink.noFirst f = true) :
    p.finish f = { p with sink := (p.sink.stamp f).1, pc := .ready } := by
  rw [finish, (Sink.stamp_eq_none _ _).mpr h]

/-- A frame that is dropped at the end of `process` is missing afterwards. -/
theorem not_nothingLost_finish (h : p.sink.noFirst f = true)
    (hf : (p.handed.map (·.1.source) ++ p.held.map (·.source) ++ p.queue.queue.map (·.source)) ++ [f] = p.seen) :
    ¬ (p.finish f).NothingLost := by
  intro hk
  have hfr := hk.frames
  rw [finish_of_noFirst h] at hfr
  have hlen := congrArg List.length (hfr.trans hf.symm)
  simp only [frames, held, pending, List.length_append, List.length_nil, List.length_singleton] at hlen
  omega

/-- The invariant after `process` of a frame that is not dropped, wherever it took its last part up. -/
theorem Inv.finish (h : p.sink.noFirst f = false)
    (hf : (p.handed.map (·.1.source) ++ p.held.map (·.source) ++ p.queue.queue.map (·.source)) ++ [f] = p.seen)
    (hfrag : ∀ h ∈ p.handed, h.1.fragment = h.2) (hserved : p.thread = .exited → p.queue.queue = [])
    (hw : p.queue.waitVideoKey = false) (hkey : p.sink.videoKeyFrameReceived = p.started)
    (hcur : ∀ q ∈ p.held ++ p.queue.queue, q.fragment = p.fragment)
    (hph : p.thread = .exited ∨ p.running = true ∧ p.queue.flushing = false) : Inv (p.finish f) := by
  obtain ⟨g, hg⟩ := finish_of_first h
  rw [hg]
  exact ⟨⟨hf, hfrag, hserved⟩, hw, (Sink.stamp_key _ _).trans hkey, hcur, rfl, hph⟩

/-! ### One step -/

theorem Inv.process (h : Inv p) (hpc : p.pc = .ready) (hok : p.Keeps (.process f)) : Inv (p.process f) := by
  obtain ⟨⟨hfr, hfrag, hserved⟩, hw, hkey, hcur, hph⟩ := h
  rw [hpc] at hph
  have hsplit : p.handed.map (·.1.source) ++ p.held.map (·.source) ++ p.queue.queue.map (·.source) = p.seen := by
    simpa [frames, pending, hpc] using hfr
  cases hc : p.counts f with
  | true =>
    obtain ⟨hadm, hfirst⟩ := hok hc
    have hseen : (p.note f).seen = p.seen ++ [f] := by simp [note, hc]
    have hkey' : (p.note f).sink.videoKeyFrameReceived = (p.note f).started := by
      change (p.sink.accept f).1.videoKeyFrameReceived = p.counts f
      rw [Sink.accept_key, hadm, hc]
    have hall : (p.handed.map (·.1.source) ++ p.held.map (·.source) ++ p.queue.queue.map (·.source)) ++ [f] =
        (p.note f).seen := by rw [hseen, hsplit]
    rw [Pipeline.process, if_pos hadm]
    split
    · exact ⟨⟨hall, hfrag, hserved⟩, hw, hkey', hcur, hph⟩
    · rename_i hrot
      have hno : (p.note f).sink.noFirst f = false := hfirst (Bool.eq_false_iff.mpr hrot)
      exact Inv.finish hno hall hfrag hserved hw hkey' hcur hph
  | false =>
    obtain ⟨hst, hnk⟩ : p.started = false ∧ f.isKey = false := by simpa [counts] using hc
    have hadm : p.sink.accept f = (p.sink, false) := by simp [Sink.accept, hkey, hst, hnk]
    have hnote : p.note f = p := by
      rw [note, hadm, hc, if_neg Bool.false_ne_true, ← hst]
    have hsame : p.process f = p := by
      rw [Pipeline.process, hadm, hnote, if_neg Bool.false_ne_true]
    rw [hsame]
    exact ⟨⟨hfr, hfrag, hserved⟩, hw, hkey, hcur, by rw [hpc]; exact hph⟩

theorem Inv.restarted (h : Inv p) (hex : p.thread = .exited) (hfr : p.pending = [f])
    (hno : p.sink.rotateStats.noFirst f = false) {q : MediaFrameQueue} {r : Bool} {t : Thread} {n : ℕ}
    (hq : q.queue = []) (hw : q.waitVideoKey = false) (ht : t = .exited ∨ t = .check)
    (hph : t = .exited ∨ r = true ∧ q.flushing = false) :
    Inv ({ p with queue := q, running := r, thread := t, fragment := n }.restarted f) := by
  have hall : (p.handed.map (·.1.source) ++ ([] : List MediaFrame) ++ []) ++ [f] = p.seen := by
    have hfr' := h.kept.frames
    rw [frames, h.kept.served hex, hfr] at hfr'
    simpa [held, hex] using hfr'
  have hheld : held { p with queue := q, running := r, thread := t, fragment := n } = [] := by
    obtain rfl | rfl := ht <;> rfl
  apply Inv.finish hno
  · change (p.handed.map (·.1.source) ++ (held { p with queue := q, running := r, thread := t, fragment := n }).map
      (·.source) ++ q.queue.map (·.source)) ++ [f] = p.seen
    rw [hheld, hq]
    exact hall
  · exact h.kept.fragment
  · exact fun _ => hq
  · exact hw
  · exact h.key
  · intro x hx
    change x ∈ held { p with queue := q, running := r, thread := t, fragment := n } ++ q.queue at hx
    rw [hheld, hq] at hx
    exact absurd hx List.not_mem_nil
  · exact hph

theorem Inv.push {q : QueuedFrame} (h : Inv p) (hpc : p.pc = .push q) (hok : p.Keeps .push) :
    Inv { p with queue := p.queue.push q, pc := .ready } := by
  obtain ⟨⟨hfr, hfrag, hserved⟩, hw, hkey, hcur, hph⟩ := h
  obtain ⟨hflush, hthr, hroom⟩ := hok
  rw [hpc] at hph
  rw [MediaFrameQueue.push_of_room hflush hw hroom]
  refine ⟨⟨?_, hfrag, fun hex => absurd hex hthr⟩, hw, hkey, ?_, hph.2⟩
  · rw [← hfr]
    simp [frames, held, pending, hpc]
  · intro x hx
    rw [← List.append_assoc] at hx
    obtain hx | hx := List.mem_append.mp hx
    · exact hcur x hx
    · rw [List.mem_singleton.mp hx]
      exact hph.1

theorem Inv.check (h : Inv p) (hthr : p.thread = .check) (hok : p.Keeps .check) :
    Inv { p with thread := if p.running then .pop else .exited } := by
  obtain ⟨⟨hfr, hfrag, hserved⟩, hw, hkey, hcur, hph⟩ := h
  have hheld : p.held = [] := by simp [held, hthr]
  cases hr : p.running with
  | true =>
    refine ⟨⟨?_, hfrag, fun hex => Thread.noConfusion hex⟩, hw, hkey, ?_, ?_⟩
    · simpa [frames, held, pending, hthr] using hfr
    · rw [hheld] at hcur
      exact hcur
    · cases hpc : p.pc <;> simp_all
  | false =>
    have hempty : p.queue.queue = [] := hok.resolve_left (by simp [hr])
    refine ⟨⟨?_, hfrag, fun _ => hempty⟩, hw, hkey, ?_, ?_⟩
    · simpa [frames, held, pending, hthr] using hfr
    · rw [hheld] at hcur
      exact hcur
    · cases hpc : p.pc <;> simp_all

theorem Inv.pop_cons {q : QueuedFrame} {qs : List QueuedFrame} (h : Inv p) (hthr : p.thread = .pop)
    (hq : p.queue.queue = q :: qs) :
    Inv { p with thread := .handle q, queue := { p.queue with queue := qs } } := by
  obtain ⟨⟨hfr, hfrag, hserved⟩, hw, hkey, hcur, hph⟩ := h
  have hheld : p.held = [] := by simp [held, hthr]
  refine ⟨⟨?_, hfrag, fun hex => Thread.noConfusion hex⟩, hw, hkey, ?_, ?_⟩
  · rw [← hfr]
    simp [frames, held, pending, hthr, hq]
  · rw [hheld, hq] at hcur
    exact hcur
  · cases hpc : p.pc <;> simp_all

theorem Inv.pop_nil (h : Inv p) (hthr : p.thread = .pop) (hq : p.queue.queue = []) :
    Inv { p with thread := .exited } := by
  obtain ⟨⟨hfr, hfrag, hserved⟩, hw, hkey, hcur, hph⟩ := h
  have hheld : p.held = [] := by simp [held, hthr]
  refine ⟨⟨?_, hfrag, fun _ => hq⟩, hw, hkey, ?_, ?_⟩
  · rw [← hfr]
    simp [frames, held, pending, hthr]
  · rw [hheld] at hcur
    exact hcur
  · cases hpc : p.pc <;> simp_all

theorem Inv.handle {q : QueuedFrame} (h : Inv p) (hthr : p.thread = .handle q) :
    Inv { p with thread := .check, handed := p.handed ++ [(q, p.fragment)] } := by
  obtain ⟨⟨hfr, hfrag, hserved⟩, hw, hkey, hcur, hph⟩ := h
  have hheld : p.held = [q] := by simp [held, hthr]
  refine ⟨⟨?_, ?_, fun hex => Thread.noConfusion hex⟩, hw, hkey, ?_, ?_⟩
  · rw [← hfr]
    simp [frames, held, pending, hthr]
  · intro x hx
    obtain hx | hx := List.mem_append.mp hx
    · exact hfrag x hx
    · rw [List.mem_singleton.mp hx]
      exact hcur q (by simp [hheld])
  · exact fun x hx => hcur x (List.mem_append_right _ hx)
  · cases hpc : p.pc <;> simp_all

theorem Inv.step {op : Op} (h : Inv p) (hok : p.Keeps op) (hs : step p op = some p') : Inv p' := by
  cases op with
  | process f =>
    simp only [Pipeline.step, Option.ite_none_right_eq_some, Option.some.injEq] at hs
    obtain ⟨⟨hpc, -⟩, rfl⟩ := hs
    exact h.process hpc hok
  | stop =>
    cases hpc : p.pc <;> simp only [Pipeline.step, hpc, Option.some.injEq, reduceCtorEq] at hs
    subst hs
    have hfr := h.kept.frames
    simp only [frames, pending, hpc] at hfr
    exact ⟨⟨hfr, h.kept.fragment, h.kept.served⟩, h.wait, h.key, h.current, trivial⟩
  | flush =>
    cases hpc : p.pc <;> simp only [Pipeline.step, hpc, Option.some.injEq, reduceCtorEq] at hs
    subst hs
    have hempty : p.queue.queue = [] := hok
    have hfr := h.kept.frames
    have hcur := h.current
    simp only [frames, pending, hpc, hempty] at hfr
    rw [hempty] at hcur
    exact ⟨⟨hfr, h.kept.fragment, fun _ => rfl⟩, h.wait, h.key, hcur, trivial⟩
  | join =>
    cases hpc : p.pc <;> simp only [Pipeline.step, hpc, Option.ite_none_right_eq_some, Option.some.injEq,
      reduceCtorEq] at hs
    obtain ⟨hex, rfl⟩ := hs
    have hfr := h.kept.frames
    simp only [frames, pending, hpc] at hfr
    exact ⟨⟨hfr, h.kept.fragment, h.kept.served⟩, h.wait, h.key, h.current, hex⟩
  | init ok =>
    cases hpc : p.pc <;> simp only [Pipeline.step, hpc, reduceCtorEq] at hs
    rename_i f
    have hpend : p.pending = [f] := by simp [pending, hpc]
    have hex : p.thread = .exited := by simpa [hpc] using h.phase
    have hempty : p.queue.queue = [] := h.kept.served hex
    cases ok with
    | true =>
      simp only [if_true, Option.some.injEq] at hs
      subst hs
      have hfr := h.kept.frames
      simp only [frames, pending, hpc] at hfr
      refine ⟨⟨hfr, h.kept.fragment, h.kept.served⟩, h.wait, h.key, ?_, hex⟩
      intro x hx
      simp [held, hex, hempty] at hx
    | false =>
      simp only [Bool.false_eq_true, if_false, Option.some.injEq] at hs
      subst hs
      have hno := hok rfl f (by simp [hpend])
      exact h.restarted hex hpend hno hempty h.wait (Or.inl hex) (Or.inl hex)
  | start =>
    cases hpc : p.pc <;> simp only [Pipeline.step, hpc, Option.some.injEq, reduceCtorEq] at hs
    rename_i f
    subst hs
    have hpend : p.pending = [f] := by simp [pending, hpc]
    have hex : p.thread = .exited := by simpa [hpc] using h.phase
    have hempty : p.queue.queue = [] := h.kept.served hex
    exact h.restarted hex hpend (hok f (by simp [hpend])) hempty h.wait (Or.inr rfl) (Or.inr ⟨rfl, rfl⟩)
  | push =>
    cases hpc : p.pc <;> simp only [Pipeline.step, hpc, Option.ite_none_right_eq_some, Option.some.injEq,
      reduceCtorEq] at hs
    obtain ⟨-, rfl⟩ := hs
    exact h.push hpc hok
  | check =>
    cases hthr : p.thread <;> simp only [Pipeline.step, hthr, Option.some.injEq, reduceCtorEq] at hs
    subst hs
    exact h.check hthr hok
  | pop =>
    cases hthr : p.thread <;> cases hq : p.queue.queue <;>
      simp only [Pipeline.step, hthr, hq, Option.ite_none_right_eq_some, Option.some.injEq, reduceCtorEq] at hs
    · obtain ⟨-, rfl⟩ := hs
      exact h.pop_nil hthr hq
    · subst hs
      exact h.pop_cons hthr hq
  | handle =>
    cases hthr : p.thread <;> simp only [Pipeline.step, hthr, Option.some.injEq, reduceCtorEq] at hs
    subst hs
    exact h.handle hthr
  | setEos =>
    simp only [Pipeline.step, Option.some.injEq] at hs
    subst hs
    exact ⟨⟨h.kept.frames, h.kept.fragment, h.kept.served⟩, h.wait, h.key, h.current, h.phase⟩

/-! ### A step that loses a frame -/

/-- Fewer frames than were seen. -/
theorem not_nothingLost_of_lt (h : p'.frames.length < p'.seen.length) : ¬ p'.NothingLost := by
  intro hk
  rw [hk.frames] at h
  omega

theorem Inv.not_nothingLost_process (h : Inv p) (hpc : p.pc = .ready) (hok : ¬ p.Keeps (.process f)) :
    ¬ (p.process f).NothingLost := by
  have hfr : p.handed.map (·.1.source) ++ p.held.map (·.source) ++ p.queue.queue.map (·.source) = p.seen := by
    simpa [frames, pending, hpc] using h.kept.frames
  obtain ⟨hc, hbad⟩ : p.counts f = true ∧ ((p.sink.accept f).2 = true →
      (p.sink.accept f).1.rotates f = false ∧ (p.sink.accept f).1.noFirst f = true) := by
    simpa [Keeps] using hok
  have hseen : (p.note f).seen = p.seen ++ [f] := by simp [note, hc]
  cases hadm : (p.sink.accept f).2 with
  | true =>
    obtain ⟨hrot, hno⟩ := hbad hadm
    have hcalc : p.process f = (p.note f).finish f := by
      rw [Pipeline.process, if_pos hadm, if_neg]
      exact Bool.eq_false_iff.mp hrot
    rw [hcalc]
    exact not_nothingLost_finish hno (by rw [hseen, ← hfr]; rfl)
  | false =>
    have hcalc : p.process f = p.note f := by
      rw [Pipeline.process, hadm, if_neg Bool.false_ne_true]
    rw [hcalc]
    apply not_nothingLost_of_lt
    have hsame : (p.note f).frames = p.frames := rfl
    rw [hsame, h.kept.frames, hseen, List.length_append]
    exact Nat.lt_succ_self _

theorem Inv.not_nothingLost_push {q : QueuedFrame} (h : Inv p) (hpc : p.pc = .push q)
    (hok : ¬ p.Keeps .push) : ¬ Pipeline.NothingLost { p with queue := p.queue.push q, pc := .ready } := by
  have hlen := congrArg List.length h.kept.frames
  simp only [frames, pending, hpc, List.length_append, List.length_map, List.length_singleton] at hlen
  cases hf : p.queue.flushing with
  | true =>
    apply not_nothingLost_of_lt
    have hsame : p.queue.push q = p.queue := by simp [MediaFrameQueue.push, hf]
    rw [hsame]
    simp only [frames, held, pending, List.length_append, List.length_map, List.length_nil] at hlen ⊢
    omega
  | false =>
    by_cases hex : p.thread = .exited
    · intro hk
      have hempty : (p.queue.push q).queue = [] := hk.served hex
      simp [MediaFrameQueue.push, hf] at hempty
    · obtain ⟨hfull, hdrop⟩ : MediaFrameQueue.full p.queue.queue = true ∧ p.queue.drop = true := by
        simpa [Keeps, hf, hex] using hok
      have hle := MediaFrameQueue.push_of_full (q := q) hf hfull hdrop
      apply not_nothingLost_of_lt
      simp only [frames, held, pending, List.length_append, List.length_map, List.length_nil] at hlen ⊢
      omega

theorem Inv.not_nothingLost_restarted (h : Inv p) (hex : p.thread = .exited) (hfr : p.pending = [f])
    (hno : p.sink.rotateStats.noFirst f = true) {q : MediaFrameQueue} {r : Bool} {t : Thread} {n : ℕ}
    (hq : q.queue = []) (ht : t = .exited ∨ t = .check) :
    ¬ ({ p with queue := q, running := r, thread := t, fragment := n }.restarted f).NothingLost := by
  have hheld : held { p with queue := q, running := r, thread := t, fragment := n } = [] := by
    obtain rfl | rfl := ht <;> rfl
  apply not_nothingLost_finish hno
  change (p.handed.map (·.1.source) ++ (held { p with queue := q, running := r, thread := t, fragment := n }).map
    (·.source) ++ q.queue.map (·.source)) ++ [f] = p.seen
  have hall := h.kept.frames
  rw [frames, h.kept.served hex, hfr] at hall
  rw [hheld, hq]
  simpa [held, hex] using hall

theorem Inv.not_nothingLost {op : Op} (h : Inv p) (hok : ¬ p.Keeps op) (hs : Pipeline.step p op = some p') :
    ¬ p'.NothingLost := by
  cases op with
  | process f =>
    simp only [Pipeline.step, Option.ite_none_right_eq_some, Option.some.injEq] at hs
    obtain ⟨⟨hpc, -⟩, rfl⟩ := hs
    exact h.not_nothingLost_process hpc hok
  | flush =>
    cases hpc : p.pc <;> simp only [Pipeline.step, hpc, Option.some.injEq, reduceCtorEq] at hs
    subst hs
    have hpos : 0 < p.queue.queue.length := List.length_pos_of_ne_nil hok
    have hlen := congrArg List.length h.kept.frames
    apply not_nothingLost_of_lt
    simp only [frames, held, pending, hpc, MediaFrameQueue.flush, List.length_append, List.length_map,
      List.length_nil, List.length_singleton] at hlen ⊢
    omega
  | init ok =>
    cases hpc : p.pc <;> simp only [Pipeline.step, hpc, reduceCtorEq] at hs
    rename_i f
    have hpend : p.pending = [f] := by simp [pending, hpc]
    have hex : p.thread = .exited := by simpa [hpc] using h.phase
    obtain ⟨rfl, hno⟩ : ok = false ∧ p.sink.rotateStats.noFirst f = true := by
      simpa [Keeps, hpend] using hok
    simp only [Bool.false_eq_true, if_false, Option.some.injEq] at hs
    subst hs
    exact h.not_nothingLost_restarted hex hpend hno (h.kept.served hex) (Or.inl hex)
  | start =>
    cases hpc : p.pc <;> simp only [Pipeline.step, hpc, Option.some.injEq, reduceCtorEq] at hs
    rename_i f
    subst hs
    have hpend : p.pending = [f] := by simp [pending, hpc]
    have hex : p.thread = .exited := by simpa [hpc] using h.phase
    have hno : p.sink.rotateStats.noFirst f = true := by simpa [Keeps, hpend] using hok
    exact h.not_nothingLost_restarted hex hpend hno (h.kept.served hex) (Or.inr rfl)
  | push =>
    cases hpc : p.pc <;> simp only [Pipeline.step, hpc, Option.ite_none_right_eq_some, Option.some.injEq,
      reduceCtorEq] at hs
    obtain ⟨-, rfl⟩ := hs
    exact h.not_nothingLost_push hpc hok
  | check =>
    cases hthr : p.thread <;> simp only [Pipeline.step, hthr, Option.some.injEq, reduceCtorEq] at hs
    subst hs
    obtain ⟨hr, hne⟩ : p.running = false ∧ p.queue.queue ≠ [] := by simpa [Keeps] using hok
    intro hk
    exact hne (hk.served (by simp [hr]))
  | stop => exact absurd trivial hok
  | join => exact absurd trivial hok
  | pop => exact absurd trivial hok
  | handle => exact absurd trivial hok
  | setEos => exact absurd trivial hok

/-! ### What is on its way arrives -/

/-- Steps of the internal sink's thread alone lead from `p` to `p'`. -/
def Drains (p p' : Pipeline) : Prop :=
  ∃ ops : List Op, (∀ op ∈ ops, op.internal = true) ∧ exec step p ops = some p'

theorem Drains.head {op : Op} {p'' : Pipeline} (hop : op.internal = true) (hs : step p op = some p')
    (h : Drains p' p'') : Drains p p'' := by
  obtain ⟨ops, hall, he⟩ := h
  exact ⟨op :: ops, List.forall_mem_cons.mpr ⟨hop, hall⟩, exec_cons_eq_some.mpr ⟨p', hs, he⟩⟩

/-- From the head of its loop the thread empties the queue while it is not being stopped. -/
theorem drains_check (hr : p.running = true) (hthr : p.thread = .check) :
    ∃ p', Drains p p' ∧ p'.queue.queue = [] ∧ p'.held = [] ∧ p'.pc = p.pc := by
  generalize hl : p.queue.queue = l
  induction l generalizing p with
  | nil => exact ⟨p, ⟨[], by simp, rfl⟩, hl, by simp [held, hthr], rfl⟩
  | cons q qs ih =>
    let p₁ : Pipeline := { p with thread := .pop }
    let p₂ : Pipeline := { p₁ with thread := .handle q, queue := { p.queue with queue := qs } }
    let p₃ : Pipeline := { p₂ with thread := .check, handed := p.handed ++ [(q, p.fragment)] }
    obtain ⟨p', hd, hrest⟩ := ih (p := p₃) hr rfl rfl
    have h₁ : step p .check = some p₁ := by simp [step, hthr, hr, p₁]
    have h₂ : step p₁ .pop = some p₂ := by simp [step, hl, p₁, p₂]
    have h₃ : step p₂ .handle = some p₃ := rfl
    exact ⟨p', .head rfl h₁ (.head rfl h₂ (.head rfl h₃ hd)), hrest⟩

theorem Inv.drains (h : Inv p) (hpc : p.pc = .ready) :
    ∃ p', Drains p p' ∧ p'.queue.queue = [] ∧ p'.held = [] ∧ p'.pc = .ready := by
  have hph := h.phase
  rw [hpc] at hph
  cases hthr : p.thread with
  | exited => exact ⟨p, ⟨[], by simp, rfl⟩, h.kept.served hthr, by simp [held, hthr], hpc⟩
  | check =>
    obtain ⟨hr, -⟩ := hph.resolve_left (by simp [hthr])
    obtain ⟨p', hd, hq, hh, hp⟩ := drains_check hr hthr
    exact ⟨p', hd, hq, hh, hp.trans hpc⟩
  | handle q =>
    obtain ⟨hr, -⟩ := hph.resolve_left (by simp [hthr])
    let p₁ : Pipeline := { p with thread := .check, handed := p.handed ++ [(q, p.fragment)] }
    have h₁ : Pipeline.step p .handle = some p₁ := by simp [Pipeline.step, hthr, p₁]
    obtain ⟨p', hd, hq, hh, hp⟩ := drains_check (p := p₁) hr rfl
    exact ⟨p', .head rfl h₁ hd, hq, hh, hp.trans hpc⟩
  | pop =>
    obtain ⟨hr, -⟩ := hph.resolve_left (by simp [hthr])
    cases hq : p.queue.queue with
    | nil => exact ⟨p, ⟨[], by simp, rfl⟩, hq, by simp [held, hthr], hpc⟩
    | cons q qs =>
      let p₁ : Pipeline := { p with thread := .handle q, queue := { p.queue with queue := qs } }
      let p₂ : Pipeline := { p₁ with thread := .check, handed := p.handed ++ [(q, p.fragment)] }
      have h₁ : Pipeline.step p .pop = some p₁ := by simp [Pipeline.step, hthr, hq, p₁]
      have h₂ : Pipeline.step p₁ .handle = some p₂ := rfl
      obtain ⟨p', hd, hq', hh, hp⟩ := drains_check (p := p₂) hr rfl
      exact ⟨p', .head rfl h₁ (.head rfl h₂ hd), hq', hh, hp.trans hpc⟩

/-- While `process` is not running, the other thread's steps meet `Keeps`. -/
theorem Inv.keeps_of_internal {op : Op} (h : Inv p) (hpc : p.pc = .ready) (hop : op.internal = true)
    (hs : Pipeline.step p op = some p') : p.Keeps op := by
  cases op <;> first | exact trivial | exact Bool.noConfusion hop | skip
  have hthr : p.thread = .check := by
    cases hthr : p.thread <;> simp [Pipeline.step, hthr] at hs
    rfl
  have hph := h.phase
  rw [hpc] at hph
  exact Or.inl (hph.resolve_left (by simp [hthr])).1

theorem step_internal {op : Op} (hop : op.internal = true) (hs : step p op = some p') :
    p'.pc = p.pc ∧ p'.seen = p.seen := by
  cases op <;> first | exact Bool.noConfusion hop | skip
  · cases hthr : p.thread <;> simp only [step, hthr, Option.some.injEq, reduceCtorEq] at hs
    subst hs
    exact ⟨rfl, rfl⟩
  · cases hthr : p.thread <;> cases hq : p.queue.queue <;>
      simp only [step, hthr, hq, Option.ite_none_right_eq_some, Option.some.injEq, reduceCtorEq] at hs
    · obtain ⟨-, rfl⟩ := hs
      exact ⟨rfl, rfl⟩
    · subst hs
      exact ⟨rfl, rfl⟩
  · cases hthr : p.thread <;> simp only [step, hthr, Option.some.injEq, reduceCtorEq] at hs
    subst hs
    exact ⟨rfl, rfl⟩

theorem Drains.kept (hd : Drains p p') (h : Inv p) (hpc : p.pc = .ready) : Inv p' ∧ p'.seen = p.seen := by
  obtain ⟨ops, hall, he⟩ := hd
  induction ops generalizing p with
  | nil =>
    obtain rfl : p = p' := by simpa using he
    exact ⟨h, rfl⟩
  | cons op ops ih =>
    obtain ⟨hop, hall⟩ := List.forall_mem_cons.mp hall
    obtain ⟨u, hu, he⟩ := exec_cons_eq_some.mp he
    obtain ⟨hpc', hseen⟩ := step_internal hop hu
    have hinv : Inv u := h.step (h.keeps_of_internal hpc hop hu) hu
    obtain ⟨hinv', hseen'⟩ := ih hinv (hpc'.trans hpc) hall he
    exact ⟨hinv', hseen'.trans hseen⟩

/-! ### Whole runs -/

variable {mode : Mode} {param : ℕ} {droppable : Bool} {ops : List Op}

/-- For every mode, parameter, interleaving and internal sink: no frame is lost in any state of the
run exactly if every step meets `Keeps`, and then, whenever `process` has returned, the thread of the
internal sink alone hands over all that was seen. -/
theorem frames_handed_over_iff (he : exec step (opened mode param droppable) ops = some p) :
    (Throughout step NothingLost (opened mode param droppable) ops ↔
      Meets step Keeps (opened mode param droppable) ops) ∧
    (Meets step Keeps (opened mode param droppable) ops → p.pc = .ready →
      ∃ p', Drains p p' ∧ p'.handed.map (·.1.source) = p.seen ∧ ∀ h ∈ p'.handed, h.1.fragment = h.2) := by
  have hopen := Inv.opened mode param droppable
  constructor
  · exact throughout_iff_meets (I := Inv) (L := fun _ => True)
      (fun u op v hu _ hok hs => hu.step hok hs) (fun u hu => hu.kept)
      (fun u op v hu _ hok hs => hu.not_nothingLost hok hs) hopen (fun _ _ => trivial) he
  · intro hm hpc
    have hinv : Inv p := invariant (fun u op v hu hok hs => hu.step hok hs) hopen hm he
    obtain ⟨p', hd, hq, hh, hp⟩ := hinv.drains hpc
    obtain ⟨hinv', hseen⟩ := hd.kept hinv hpc
    refine ⟨p', hd, ?_, hinv'.kept.fragment⟩
    have hfr := hinv'.kept.frames
    simpa [frames, hq, hh, pending, hp, hseen] using hfr

/-- A key frame or another one, one byte long, with a time in milliseconds. -/
def frameAt (ms : ℤ) (key : Bool) : MediaFrame := ⟨.video, 1, ms, ms, key, (1, 1000)⟩

/-- A rotation that finds the queue empty keeps all frames. -/
theorem frames_handed_over_rotation :
    let ops : List Op :=
      [.process (frameAt 1000 true), .push, .check, .pop, .handle, .process (frameAt 2000 false), .push, .check,
        .pop, .handle, .process (frameAt 3000 true), .stop, .flush, .check, .join, .init true, .start, .push]
    ∃ p, exec step (opened .duration 1 false) ops = some p ∧ p.fragment = 1 ∧
      Throughout step NothingLost (opened .duration 1 false) ops ∧
      ∃ p', Drains p p' ∧ p'.handed.map (·.1.source) = [frameAt 1000 true, frameAt 2000 false, frameAt 3000 true] ∧
        ∀ h ∈ p'.handed, h.1.fragment = h.2 := by
  intro ops
  have hrun : ∃ p ∈ exec step (opened .duration 1 false) ops, p.fragment = 1 ∧ p.pc = .ready ∧
      p.seen = [frameAt 1000 true, frameAt 2000 false, frameAt 3000 true] := by decide +kernel
  have hm : Meets step Keeps (opened .duration 1 false) ops := by decide +kernel
  obtain ⟨p, he, hfrag, hpc, hseen⟩ := hrun
  obtain ⟨hiff, hdrain⟩ := frames_handed_over_iff he
  rw [← hseen]
  exact ⟨p, he, hfrag, hiff.mpr hm, hdrain hm hpc⟩

/-- Two frames are still queued when the third one starts a new fragment: they are flushed, and only
the third is handed over. -/
theorem rotation_flushes_frames :
    ∃ p ∈ exec step (opened .duration 1 false)
        [.process (frameAt 1000 true), .push, .process (frameAt 2000 false), .push,
          .process (frameAt 3000 true), .stop, .flush, .check, .join, .init true, .start, .push,
          .check, .pop, .handle, .check],
      p.seen = [frameAt 1000 true, frameAt 2000 false, frameAt 3000 true] ∧
      p.handed.map (·.1.source) = [frameAt 3000 true] ∧ p.queue.queue = [] ∧ p.held = [] ∧ p.pc = .ready ∧
      ¬ p.NothingLost := by
  have hrun : ∃ p ∈ exec step (opened .duration 1 false)
        [.process (frameAt 1000 true), .push, .process (frameAt 2000 false), .push,
          .process (frameAt 3000 true), .stop, .flush, .check, .join, .init true, .start, .push,
          .check, .pop, .handle, .check],
      p.seen = [frameAt 1000 true, frameAt 2000 false, frameAt 3000 true] ∧
      p.handed.map (·.1.source) = [frameAt 3000 true] ∧ p.queue.queue = [] ∧ p.held = [] ∧ p.pc = .ready ∧
      p.frames.length < p.seen.length := by decide +kernel
  obtain ⟨p, he, hseen, hhanded, hq, hh, hpc, hlt⟩ := hrun
  exact ⟨p, he, hseen, hhanded, hq, hh, hpc, not_nothingLost_of_lt hlt⟩

end Pipeline
end CloudAgent.Streamer.MultiFrag
