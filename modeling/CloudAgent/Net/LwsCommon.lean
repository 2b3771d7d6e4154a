import Mathlib.Data.List.Nodup
import Mathlib.Data.Finset.Basic

/-! The timer service shared by the websocket and the HTTP transports, while its worker runs.
A callback is data of type `κ`; the transport that owns the timers interprets it when it fires. -/
namespace CloudAgent.Net

inductive TimedCbState
  | pending | triggered | canceled
  deriving DecidableEq, Repr

/-- A scheduled callback. The identity stands for the `timed_cb_ptr` handed to the caller. -/
structure TimedCb (κ : Type*) where
  id : ℕ
  cb : κ
  ms : ℕ
  state : TimedCbState

/-- The callbacks kept alive by the service, each under an identity of its own. -/
structure LwsCommon (κ : Type*) where
  nextId : ℕ
  scheduledCallbacks : List (TimedCb κ)
  id_lt : ∀ t ∈ scheduledCallbacks, t.id < nextId
  nodup : (scheduledCallbacks.map TimedCb.id).Nodup

namespace LwsCommon
variable {κ : Type*}

def empty : LwsCommon κ := ⟨0, [], by simp, by simp⟩

/-- `_cleanup`: drop every callback that is no longer pending. -/
def cleanup (w : LwsCommon κ) : LwsCommon κ where
  nextId := w.nextId
  scheduledCallbacks := w.scheduledCallbacks.filter (·.state = .pending)
  id_lt t h := w.id_lt t (List.mem_filter.mp h).1
  nodup := w.nodup.sublist (List.filter_sublist.map _)

/-- `schedule_timed_cb`: the new callback's identity and the service afterwards. -/
def scheduleTimedCb (w : LwsCommon κ) (cb : κ) (ms : ℕ) : ℕ × LwsCommon κ :=
  (w.nextId,
    { nextId := w.nextId + 1
      scheduledCallbacks := w.cleanup.scheduledCallbacks ++ [⟨w.nextId, cb, ms, .pending⟩]
      id_lt := by
        intro t h
        rcases List.mem_append.mp h with h | h
        · exact Nat.lt_succ_of_lt (w.cleanup.id_lt t h)
        · obtain rfl := List.mem_singleton.mp h
          exact Nat.lt_succ_self _
      nodup := by
        rw [List.map_append, List.nodup_append]
        refine ⟨w.cleanup.nodup, by simp, ?_⟩
        rintro i hi j hj rfl
        obtain ⟨t, ht, rfl⟩ := List.mem_map.mp hi
        have := w.cleanup.id_lt t ht
        simp_all [cleanup] })

/-- Give every callback with identity `id` that is still pending the state `st`. -/
def setState (w : LwsCommon κ) (id : ℕ) (st : TimedCbState) : LwsCommon κ where
  nextId := w.nextId
  scheduledCallbacks := w.scheduledCallbacks.map fun t =>
    if t.id = id ∧ t.state = .pending then { t with state := st } else t
  id_lt := by
    intro t h
    obtain ⟨u, hu, rfl⟩ := List.mem_map.mp h
    have := w.id_lt u hu
    split <;> simpa
  nodup := by
    rw [List.map_map]
    convert w.nodup using 2
    funext t
    simp only [Function.comp_apply]
    split <;> rfl

/-- `cancel_timed_cb`: only a pending callback is canceled. -/
def cancelTimedCb (w : LwsCommon κ) (id : ℕ) : LwsCommon κ := w.setState id .canceled

/-- The callback that is pending under `id`, if any. -/
def pendingCb (w : LwsCommon κ) (id : ℕ) : Option κ :=
  (w.scheduledCallbacks.find? fun t => t.id = id ∧ t.state = .pending).map TimedCb.cb

/-- `_sul_cb`: the timer `id` fires. A callback that is still pending is marked and handed to
the caller to run; one that was canceled or already ran is ignored. The source marks it when the
callback returns, and no callback looks at the state of its own timer. -/
def sulCb (w : LwsCommon κ) (id : ℕ) : Option (κ × LwsCommon κ) :=
  (w.pendingCb id).map fun cb => (cb, w.setState id .triggered)

/-! ### What is pending after each operation -/

def Pending (w : LwsCommon κ) (id : ℕ) (cb : κ) : Prop :=
  ∃ t ∈ w.scheduledCallbacks, t.id = id ∧ t.cb = cb ∧ t.state = .pending

theorem Pending.lt {w : LwsCommon κ} {id : ℕ} {cb : κ} (h : w.Pending id cb) : id < w.nextId := by
  obtain ⟨t, ht, rfl, _, _⟩ := h
  exact w.id_lt t ht

theorem Pending.unique {w : LwsCommon κ} {id : ℕ} {c d : κ} (hc : w.Pending id c)
    (hd : w.Pending id d) : c = d := by
  obtain ⟨t, ht, hti, rfl, _⟩ := hc
  obtain ⟨u, hu, hui, rfl, _⟩ := hd
  rw [List.inj_on_of_nodup_map w.nodup ht hu (hti.trans hui.symm)]

theorem pendingCb_eq_some {w : LwsCommon κ} {id : ℕ} {cb : κ} :
    w.pendingCb id = some cb ↔ w.Pending id cb := by
  constructor
  · intro h
    obtain ⟨t, ht, rfl⟩ := Option.map_eq_some_iff.mp h
    have hp := List.find?_some ht
    simp only [decide_eq_true_eq] at hp
    exact ⟨t, List.mem_of_find?_eq_some ht, hp.1, rfl, hp.2⟩
  · intro h
    have hp := h
    obtain ⟨t, ht, hi, _, hs⟩ := hp
    cases hf : w.pendingCb id with
    | none =>
      simp only [pendingCb, Option.map_eq_none_iff, List.find?_eq_none, decide_eq_true_eq] at hf
      exact absurd ⟨hi, hs⟩ (hf t ht)
    | some d =>
      obtain ⟨u, hu, rfl⟩ := Option.map_eq_some_iff.mp hf
      have hp := List.find?_some hu
      simp only [decide_eq_true_eq] at hp
      exact congrArg some (Pending.unique ⟨u, List.mem_of_find?_eq_some hu, hp.1, rfl, hp.2⟩ h)

/-- The callbacks that are still to run. -/
def pendingCbs (w : LwsCommon κ) : List κ :=
  (w.scheduledCallbacks.filter (·.state = .pending)).map TimedCb.cb

theorem mem_pendingCbs {w : LwsCommon κ} {cb : κ} : cb ∈ w.pendingCbs ↔ ∃ id, w.Pending id cb := by
  simp only [pendingCbs, List.mem_map, List.mem_filter, decide_eq_true_eq]
  constructor
  · rintro ⟨t, ⟨ht, hs⟩, hc⟩
    exact ⟨t.id, t, ht, rfl, hc, hs⟩
  · rintro ⟨id, t, ht, _, hc, hs⟩
    exact ⟨t, ⟨ht, hs⟩, hc⟩

@[simp] theorem not_pending_empty (id : ℕ) (cb : κ) : ¬ (empty : LwsCommon κ).Pending id cb := by
  simp [Pending, empty]

theorem pending_scheduleTimedCb (w : LwsCommon κ) (cb : κ) (ms id : ℕ) (c : κ) :
    (w.scheduleTimedCb cb ms).2.Pending id c ↔ w.Pending id c ∨ (id = w.nextId ∧ c = cb) := by
  constructor
  · rintro ⟨t, ht, hi, hc, hs⟩
    rcases List.mem_append.mp ht with ht | ht
    · exact Or.inl ⟨t, (List.mem_filter.mp ht).1, hi, hc, hs⟩
    · obtain rfl := List.mem_singleton.mp ht
      exact Or.inr ⟨hi.symm, hc.symm⟩
  · rintro (⟨t, ht, hi, hc, hs⟩ | ⟨rfl, rfl⟩)
    · exact ⟨t, List.mem_append_left _ (List.mem_filter.mpr ⟨ht, by simpa using hs⟩), hi, hc, hs⟩
    · exact ⟨_, List.mem_append_right _ (List.mem_singleton_self _), rfl, rfl, rfl⟩

theorem pending_setState (w : LwsCommon κ) (id : ℕ) (st : TimedCbState) (hst : st ≠ .pending)
    (j : ℕ) (c : κ) : (w.setState id st).Pending j c ↔ j ≠ id ∧ w.Pending j c := by
  constructor
  · rintro ⟨t, ht, hi, hc, hs⟩
    obtain ⟨u, hu, rfl⟩ := List.mem_map.mp ht
    split at hs
    · exact absurd hs hst
    · rename_i hn
      simp only [hn, if_false] at hi hc
      refine ⟨?_, u, hu, hi, hc, hs⟩
      rintro rfl
      exact hn ⟨hi, hs⟩
  · rintro ⟨hne, t, ht, hi, hc, hs⟩
    refine ⟨t, List.mem_map.mpr ⟨t, ht, ?_⟩, hi, hc, hs⟩
    rw [if_neg]
    rintro ⟨h, _⟩
    exact hne (hi.symm.trans h)

theorem pending_cancelTimedCb (w : LwsCommon κ) (id j : ℕ) (c : κ) :
    (w.cancelTimedCb id).Pending j c ↔ j ≠ id ∧ w.Pending j c :=
  pending_setState w id .canceled (by decide) j c

/-- Everything a firing timer does to the service. -/
theorem sulCb_eq_some {w w' : LwsCommon κ} {id : ℕ} {cb : κ} (h : w.sulCb id = some (cb, w')) :
    w.Pending id cb ∧ w'.nextId = w.nextId ∧ ∀ j c, w'.Pending j c ↔ j ≠ id ∧ w.Pending j c := by
  obtain ⟨c, hc, he⟩ := Option.map_eq_some_iff.mp h
  obtain ⟨rfl, rfl⟩ := Prod.mk.inj he
  exact ⟨pendingCb_eq_some.mp hc, rfl, pending_setState w id .triggered (by decide)⟩

theorem mem_pendingCbs_scheduleTimedCb (w : LwsCommon κ) (cb : κ) (ms : ℕ) (c : κ) :
    c ∈ (w.scheduleTimedCb cb ms).2.pendingCbs ↔ c ∈ w.pendingCbs ∨ c = cb := by
  simp only [mem_pendingCbs, pending_scheduleTimedCb]
  constructor
  · rintro ⟨id, h | h⟩
    · exact Or.inl ⟨id, h⟩
    · exact Or.inr h.2
  · rintro (⟨id, h⟩ | h)
    · exact ⟨id, Or.inl h⟩
    · exact ⟨w.nextId, Or.inr ⟨rfl, h⟩⟩

theorem mem_pendingCbs_of_cancelTimedCb {w : LwsCommon κ} {id : ℕ} {c : κ}
    (h : c ∈ (w.cancelTimedCb id).pendingCbs) : c ∈ w.pendingCbs := by
  obtain ⟨j, hj⟩ := mem_pendingCbs.mp h
  exact mem_pendingCbs.mpr ⟨j, ((pending_cancelTimedCb w id j c).mp hj).2⟩

/-- The callback that fires was to run, and those that are still to run were so before. -/
theorem mem_pendingCbs_of_sulCb {w w' : LwsCommon κ} {id : ℕ} {cb : κ}
    (h : w.sulCb id = some (cb, w')) :
    cb ∈ w.pendingCbs ∧ ∀ c ∈ w'.pendingCbs, c ∈ w.pendingCbs := by
  obtain ⟨hp, -, hrest⟩ := sulCb_eq_some h
  refine ⟨mem_pendingCbs.mpr ⟨id, hp⟩, fun c hc => ?_⟩
  obtain ⟨j, hj⟩ := mem_pendingCbs.mp hc
  exact mem_pendingCbs.mpr ⟨j, ((hrest j c).mp hj).2⟩

/-- A scheduled callback comes last among those that are still to run. -/
theorem pendingCbs_scheduleTimedCb (w : LwsCommon κ) (cb : κ) (ms : ℕ) :
    (w.scheduleTimedCb cb ms).2.pendingCbs = w.pendingCbs ++ [cb] := by
  simp [pendingCbs, scheduleTimedCb, cleanup, List.filter_append]

/-- Settling a pending timer takes its callback, and no other, off those that are still to run. -/
theorem pendingCbs_perm_setState {w : LwsCommon κ} {id : ℕ} {cb : κ} {st : TimedCbState}
    (hst : st ≠ .pending) (h : w.Pending id cb) :
    w.pendingCbs.Perm (cb :: (w.setState id st).pendingCbs) := by
  obtain ⟨t, ht, hi, rfl, hs⟩ := h
  have hnodup := w.nodup
  simp only [pendingCbs, setState]
  generalize w.scheduledCallbacks = l at ht hnodup
  induction l with
  | nil => simp at ht
  | cons u l ih =>
    obtain ⟨hu, hl⟩ := List.nodup_cons.mp hnodup
    rcases List.mem_cons.mp ht with rfl | ht
    · have hrest : (l.map fun v => if v.id = id ∧ v.state = .pending then { v with state := st } else v) =
          l := by
        refine (List.map_congr_left fun v hv => if_neg ?_).trans (List.map_id l)
        rintro ⟨hvi, -⟩
        exact hu (hi.trans hvi.symm ▸ List.mem_map_of_mem hv)
      simp [hi, hs, hst, hrest]
    · have hne : u.id ≠ id := by
        rintro rfl
        exact hu (hi ▸ List.mem_map_of_mem ht)
      have ih := ih ht hl
      by_cases hp : u.state = .pending
      · simpa [hne, hp] using (ih.cons u.cb).trans (List.Perm.swap _ _ _)
      · simpa [hne, hp] using ih

theorem pendingCbs_perm_cancelTimedCb {w : LwsCommon κ} {id : ℕ} {cb : κ} (h : w.Pending id cb) :
    w.pendingCbs.Perm (cb :: (w.cancelTimedCb id).pendingCbs) :=
  pendingCbs_perm_setState (by decide) h

theorem pendingCbs_perm_sulCb {w w' : LwsCommon κ} {id : ℕ} {cb : κ} (h : w.sulCb id = some (cb, w')) :
    w.pendingCbs.Perm (cb :: w'.pendingCbs) := by
  obtain ⟨c, hc, he⟩ := Option.map_eq_some_iff.mp h
  obtain ⟨rfl, rfl⟩ := Prod.mk.inj he
  exact pendingCbs_perm_setState (by decide) (pendingCb_eq_some.mp hc)

/-- Canceling a timer that is not pending does nothing. -/
theorem cancelTimedCb_of_not_pending {w : LwsCommon κ} {id : ℕ} (h : w.pendingCb id = none) :
    w.cancelTimedCb id = w := by
  have hall : ∀ t ∈ w.scheduledCallbacks, ¬ (t.id = id ∧ t.state = .pending) := by
    simpa [pendingCb, -not_and] using h
  have hmap : w.scheduledCallbacks.map (fun t =>
      if t.id = id ∧ t.state = .pending then { t with state := .canceled } else t) =
        w.scheduledCallbacks :=
    (List.map_congr_left fun t ht => if_neg (hall t ht)).trans (List.map_id _)
  obtain ⟨nextId, l, hlt, hnodup⟩ := w
  simp only [cancelTimedCb, setState]
  congr

end LwsCommon
end CloudAgent.Net
