import Mathlib.Data.List.Basic
import Mathlib.Data.List.Induction
import Mathlib.Data.Option.Basic

/-! Finite runs of a partial labelled step function. A run is a list of labels; a property of
every run is proved from what one step preserves. -/
namespace CloudAgent.Transition

variable {σ ι : Type*}

/-- Execute the labels from left to right; a label that is not enabled stops the run. -/
def exec (step : σ → ι → Option σ) : σ → List ι → Option σ
  | s, [] => some s
  | s, a :: as => (step s a).bind fun t => exec step t as

/-- Every step that the run takes finds a state and a label satisfying `ok`. -/
def Meets (step : σ → ι → Option σ) (ok : σ → ι → Prop) : σ → List ι → Prop
  | _, [] => True
  | s, a :: as => ok s a ∧ ∀ t ∈ step s a, Meets step ok t as

instance Meets.decidable (step : σ → ι → Option σ) (ok : σ → ι → Prop)
    [∀ s a, Decidable (ok s a)] : ∀ s as, Decidable (Meets step ok s as)
  | _, [] => isTrue trivial
  | s, a :: as =>
    match h : step s a with
    | none => decidable_of_iff (ok s a) (by simp [Meets, h])
    | some t =>
      have := Meets.decidable step ok t as
      decidable_of_iff (ok s a ∧ Meets step ok t as) (by simp [Meets, h])

/-- `G` holds in every state that the run goes through. -/
def Throughout (step : σ → ι → Option σ) (G : σ → Prop) : σ → List ι → Prop
  | s, [] => G s
  | s, a :: as => G s ∧ ∀ t ∈ step s a, Throughout step G t as

variable {step : σ → ι → Option σ} {ok : σ → ι → Prop} {s t : σ} {as : List ι} {a : ι}

@[simp] theorem exec_nil : exec step s [] = some s := rfl

theorem exec_cons : exec step s (a :: as) = (step s a).bind fun u => exec step u as := rfl

theorem exec_cons_eq_some :
    exec step s (a :: as) = some t ↔ ∃ u, step s a = some u ∧ exec step u as = some t := by
  rw [exec_cons, Option.bind_eq_some_iff]

theorem exec_append {bs : List ι} :
    exec step s (as ++ bs) = (exec step s as).bind fun u => exec step u bs := by
  induction as generalizing s with
  | nil => rfl
  | cons a as ih =>
    rw [List.cons_append, exec_cons, exec_cons, Option.bind_assoc]
    exact congrArg _ (funext fun u => ih)

theorem meets_append {bs : List ι} (he : exec step s as = some t) :
    Meets step ok s (as ++ bs) ↔ Meets step ok s as ∧ Meets step ok t bs := by
  induction as generalizing s with
  | nil =>
    obtain rfl : s = t := by simpa using he
    exact (and_iff_right trivial).symm
  | cons a as ih =>
    obtain ⟨u, hu, he⟩ := exec_cons_eq_some.mp he
    have hnext : (∀ w ∈ step s a, Meets step ok w (as ++ bs)) ↔
        (∀ w ∈ step s a, Meets step ok w as) ∧ Meets step ok t bs := by
      simp only [hu, Option.mem_some_iff, forall_eq']
      exact ih he
    rw [List.cons_append, Meets, Meets, hnext, and_assoc]

theorem Meets.of_forall_mem (h : ∀ a ∈ as, ∀ u, ok u a) : Meets step ok s as := by
  induction as generalizing s with
  | nil => trivial
  | cons a as ih =>
    exact ⟨h a List.mem_cons_self s, fun u _ => ih fun b hb => h b (List.mem_cons_of_mem a hb)⟩

theorem Meets.mono {ok' : σ → ι → Prop} (h : ∀ a ∈ as, ∀ u, ok u a → ok' u a) (hm : Meets step ok s as) :
    Meets step ok' s as := by
  induction as generalizing s with
  | nil => trivial
  | cons a as ih =>
    exact ⟨h a List.mem_cons_self s hm.1, fun u hu => ih (fun b hb => h b (List.mem_cons_of_mem a hb)) (hm.2 u hu)⟩

/-- A run that goes through consists of enabled steps. -/
theorem Meets.of_exec {ok' : σ → ι → Prop} (h : ∀ u b v, step u b = some v → ok' u b) (he : exec step s as = some t) :
    Meets step ok' s as := by
  induction as generalizing s with
  | nil => trivial
  | cons a as ih =>
    obtain ⟨u, hu, he⟩ := exec_cons_eq_some.mp he
    refine ⟨h s a u hu, fun v hv => ?_⟩
    obtain rfl : u = v := Option.some.inj (hu.symm.trans hv)
    exact ih he

/-- A run goes through exactly if it finds all its steps enabled. -/
theorem exec_isSome_iff (h : ∀ u b, (step u b).isSome = true ↔ ok u b) :
    (exec step s as).isSome = true ↔ Meets step ok s as := by
  induction as generalizing s with
  | nil => exact iff_of_true rfl trivial
  | cons a as ih =>
    rw [exec_cons, Meets, ← h]
    cases hs : step s a with
    | none => simp
    | some t => simpa using ih

theorem Throughout.head {G : σ → Prop} (h : Throughout step G s as) : G s := by
  cases as with
  | nil => exact h
  | cons a as => exact h.1

theorem Throughout.mono {G G' : σ → Prop} (hg : ∀ u, G u → G' u) (h : Throughout step G s as) :
    Throughout step G' s as := by
  induction as generalizing s with
  | nil => exact hg s h
  | cons a as ih => exact ⟨hg s h.1, fun u hu => ih (h.2 u hu)⟩

/-- What every admitted step preserves holds in all states of an admitted run. -/
theorem throughout_of_meets {P : σ → Prop} (hstep : ∀ u b v, P u → ok u b → step u b = some v → P v) (h : P s)
    (hm : Meets step ok s as) : Throughout step P s as := by
  induction as generalizing s with
  | nil => exact h
  | cons a as ih => exact ⟨h, fun u hu => ih (hstep s a u h hm.1 hu) (hm.2 u hu)⟩

/-- What every step preserves holds in all states of a run. -/
theorem throughout_of_step {P : σ → Prop} (hstep : ∀ u b v, P u → step u b = some v → P v) (h : P s) :
    Throughout step P s as :=
  throughout_of_meets (fun u b v hu (_ : True) hs => hstep u b v hu hs) h (Meets.of_forall_mem fun _ _ _ => trivial)

/-- The invariant rule: what every admitted step preserves holds at the end of every admitted run. -/
theorem invariant {P : σ → Prop}
    (hstep : ∀ u b v, P u → ok u b → step u b = some v → P v)
    (h : P s) (hm : Meets step ok s as) (he : exec step s as = some t) : P t := by
  induction as generalizing s with
  | nil =>
    obtain rfl : s = t := by simpa using he
    exact h
  | cons a as ih =>
    obtain ⟨u, hu, he⟩ := exec_cons_eq_some.mp he
    exact ih (hstep s a u h hm.1 hu) (hm.2 u hu) he

/-- What every step preserves holds at the end of every run. -/
theorem run_invariant {P : σ → Prop} (hstep : ∀ u b v, P u → step u b = some v → P v) (h : P s)
    (he : exec step s as = some t) : P t :=
  invariant (fun u b v hu (_ : True) hs => hstep u b v hu hs) h
    (Meets.of_forall_mem fun _ _ _ => trivial) he

/-- The history rule: what every step carries on holds of the state and the labels that led to it. -/
theorem run_history {P : List ι → σ → Prop}
    (hstep : ∀ bs u b v, P bs u → ok u b → step u b = some v → P (bs ++ [b]) v) (h : P [] s)
    (hm : Meets step ok s as) (he : exec step s as = some t) : P as t := by
  induction as using List.reverseRecOn generalizing t with
  | nil =>
    obtain rfl : s = t := by simpa using he
    exact h
  | append_singleton bs b ih =>
    rw [exec_append, Option.bind_eq_some_iff] at he
    obtain ⟨u, hu, he⟩ := he
    obtain ⟨hbs, hb⟩ := (meets_append hu).mp hm
    obtain ⟨v, hv, he⟩ := exec_cons_eq_some.mp he
    obtain rfl : v = t := by simpa using he
    exact hstep bs u b v (ih hbs hu) hb.1 hv

/-- The exactness rule: where `ok` fails some step makes `G` fail, and `G` never comes back
once it is lost, `G` holds at the end of a run exactly when all its steps meet `ok`. `B`
holds along every run, `I` as long as `ok` is met. -/
theorem good_iff_meets {B I G : σ → Prop}
    (hbase : ∀ u b v, B u → step u b = some v → B v)
    (hstep : ∀ u b v, B u → I u → ok u b → step u b = some v → I v)
    (hgood : ∀ u, I u → G u)
    (hbad : ∀ u b v, I u → ¬ ok u b → step u b = some v → ¬ G v)
    (hback : ∀ u b v, B u → step u b = some v → G v → G u) (hb : B s) (h : I s)
    (he : exec step s as = some t) : G t ↔ Meets step ok s as := by
  have hsteps : ∀ {u v bs}, B u → exec step u bs = some v → G v → G u := by
    intro u v bs
    induction bs generalizing u with
    | nil =>
      intro _ he hv
      obtain rfl : u = v := by simpa using he
      exact hv
    | cons b bs ih =>
      intro hb he hv
      obtain ⟨w, hw, he⟩ := exec_cons_eq_some.mp he
      exact hback u b w hb hw (ih (hbase u b w hb hw) he hv)
  constructor
  · intro ht
    induction as generalizing s with
    | nil => trivial
    | cons a as ih =>
      obtain ⟨u, hu, he⟩ := exec_cons_eq_some.mp he
      have hub := hbase s a u hb hu
      have hok : ok s a := by
        by_contra hn
        exact hbad s a u h hn hu (hsteps hub he ht)
      refine ⟨hok, fun w hw => ?_⟩
      obtain rfl : u = w := Option.some.inj (hu.symm.trans hw)
      exact ih hub (hstep s a u hb h hok hu) he
  · intro hm
    exact hgood t (invariant (P := fun u => B u ∧ I u)
      (fun u b v hu hok hv => ⟨hbase u b v hu.1 hv, hstep u b v hu.1 hu.2 hok hv⟩) ⟨hb, h⟩ hm he).2

/-- The exactness rule for all states of a run: where `ok` fails, the next step makes `G` fail. `I`
holds as long as `ok` is met, and `L` of every label. -/
theorem throughout_iff_meets {I G : σ → Prop} {L : ι → Prop}
    (hstep : ∀ u b v, I u → L b → ok u b → step u b = some v → I v) (hgood : ∀ u, I u → G u)
    (hbad : ∀ u b v, I u → L b → ¬ ok u b → step u b = some v → ¬ G v) (h : I s) (hl : ∀ b ∈ as, L b)
    (he : exec step s as = some t) : Throughout step G s as ↔ Meets step ok s as := by
  induction as generalizing s with
  | nil => exact ⟨fun _ => trivial, fun _ => hgood s h⟩
  | cons a as ih =>
    obtain ⟨u, hu, he⟩ := exec_cons_eq_some.mp he
    obtain ⟨hla, hl⟩ := List.forall_mem_cons.mp hl
    have hnext : ok s a → (Throughout step G u as ↔ Meets step ok u as) :=
      fun hok => ih (hstep s a u h hla hok hu) hl he
    constructor
    · rintro ⟨-, ht⟩
      have hok : ok s a := by
        by_contra hn
        exact hbad s a u h hla hn hu (ht u hu).head
      refine ⟨hok, fun w hw => ?_⟩
      obtain rfl : u = w := Option.some.inj (hu.symm.trans hw)
      exact (hnext hok).mp (ht u hu)
    · rintro ⟨hok, hm⟩
      refine ⟨hgood s h, fun w hw => ?_⟩
      obtain rfl : u = w := Option.some.inj (hu.symm.trans hw)
      exact (hnext hok).mpr (hm u hu)

/-- The exactness rule for what every step has to do: in states that satisfy `I`, under labels that satisfy `L`, a
step does `G` exactly if it meets `ok`. -/
theorem meets_iff_meets {I : σ → Prop} {L G : σ → ι → Prop}
    (hstep : ∀ u b v, I u → L u b → ok u b → step u b = some v → I v) (hgood : ∀ u b, I u → L u b → (G u b ↔ ok u b))
    (h : I s) (hl : Meets step L s as) : Meets step G s as ↔ Meets step ok s as := by
  induction as generalizing s with
  | nil => exact Iff.rfl
  | cons a as ih =>
    obtain ⟨hla, hl⟩ := hl
    rw [Meets, Meets, hgood s a h hla]
    refine and_congr_right fun hok => ?_
    exact forall₂_congr fun u hu => ih (hstep s a u h hla hok hu) (hl u hu)

/-! ### Runs that reach something -/

/-- The number of steps of the run that satisfy `p`. -/
def countSteps (step : σ → ι → Option σ) (p : σ → ι → Bool) : σ → List ι → ℕ
  | _, [] => 0
  | s, a :: as => (p s a).toNat + ((step s a).map fun t => countSteps step p t as).getD 0

/-- The ranking rule: where no step leads away from `D` or makes `rank` larger, and every step that
satisfies `p` leads to `D` or makes `rank` smaller, more than `rank` such steps lead to `D`. -/
theorem reaches_of_rank (rank : σ → ℕ) {p : σ → ι → Bool} {I D : σ → Prop}
    (hstep : ∀ u b v, I u → ok u b → step u b = some v → I v ∧ rank v ≤ rank u ∧ (D u → D v))
    (hwork : ∀ u b v, I u → ok u b → step u b = some v → p u b = true → D v ∨ rank v < rank u)
    (h : I s) (hm : Meets step ok s as) (he : exec step s as = some t)
    (hcount : D s ∨ rank s < countSteps step p s as) : D t := by
  induction as generalizing s with
  | nil =>
    obtain rfl : s = t := by simpa using he
    exact hcount.resolve_right (Nat.not_lt_zero _)
  | cons a as ih =>
    obtain ⟨u, hu, he⟩ := exec_cons_eq_some.mp he
    obtain ⟨hI, hrank, hD⟩ := hstep s a u h hm.1 hu
    refine ih hI (hm.2 u hu) he ?_
    rcases hcount with hs | hcount
    · exact .inl (hD hs)
    · simp only [countSteps, hu, Option.map_some, Option.getD_some] at hcount
      cases hp : p s a with
      | false =>
        rw [hp, Bool.toNat_false, Nat.zero_add] at hcount
        exact .inr (Nat.lt_of_le_of_lt hrank hcount)
      | true =>
        rw [hp, Bool.toNat_true] at hcount
        refine (hwork s a u h hm.1 hu hp).imp_right fun hlt => ?_
        omega

/-! ### Runs as single steps -/

/-- Some steps lead from `s` to `t`, and all of them meet `ok` exactly where `p` holds. -/
def Leads (step : σ → ι → Option σ) (ok : σ → ι → Prop) (s : σ) (p : Prop) (t : σ) : Prop :=
  ∃ as, exec step s as = some t ∧ (Meets step ok s as ↔ p)

namespace Leads
variable {u : σ} {p q : Prop}

theorem refl (s : σ) : Leads step ok s True s := ⟨[], rfl, Iff.rfl⟩

theorem one (h : step s a = some t) : Leads step ok s (ok s a) t := by
  refine ⟨[a], exec_cons_eq_some.mpr ⟨t, h, rfl⟩, ?_⟩
  simp [Meets]

theorem congr (h : Leads step ok s p t) (hpq : p ↔ q) : Leads step ok s q t := by
  obtain ⟨as, he, hm⟩ := h
  exact ⟨as, he, hm.trans hpq⟩

theorem trans (h : Leads step ok s p t) (h' : Leads step ok t q u) : Leads step ok s (p ∧ q) u := by
  obtain ⟨as, he, hm⟩ := h
  obtain ⟨bs, he', hm'⟩ := h'
  refine ⟨as ++ bs, ?_, ?_⟩
  · rw [exec_append, he]
    exact he'
  · rw [meets_append he, hm, hm']

/-- Where the second part always meets `ok`, the first alone decides. -/
theorem then_free (h : Leads step ok s p t) (h' : Leads step ok t True u) : Leads step ok s p u :=
  (h.trans h').congr (and_iff_left trivial)

/-- Where the first part always meets `ok`, the second alone decides. -/
theorem after_free (h : Leads step ok s True t) (h' : Leads step ok t q u) : Leads step ok s q u :=
  (h.trans h').congr (and_iff_right trivial)

/-- A loop whose rounds always meet `ok`. -/
theorem foldl {β : Type*} {f : σ → β → σ} {l : List β} (h : ∀ s, ∀ b ∈ l, Leads step ok s True (f s b)) :
    Leads step ok s True (l.foldl f s) := by
  induction l generalizing s with
  | nil => exact refl s
  | cons b l ih =>
    have hrest : Leads step ok (f s b) True (l.foldl f (f s b)) := ih fun s c hc => h s c (List.mem_cons_of_mem b hc)
    exact (h s b List.mem_cons_self).after_free hrest

/-- What every step preserves. -/
theorem preserves {P : σ → Prop} (h : Leads step ok s p t)
    (hstep : ∀ u b v, P u → step u b = some v → P v) (hs : P s) : P t := by
  obtain ⟨as, he, -⟩ := h
  exact run_invariant hstep hs he

/-- Where every step keeps `B`, and keeps `G` exactly if it meets `ok`, so do they all. -/
theorem exact {B G : σ → Prop} (h : Leads step ok s p t)
    (hbase : ∀ u b v, B u → step u b = some v → B v)
    (hgood : ∀ u b v, B u → step u b = some v → (G v ↔ G u ∧ ok u b)) (hs : B s) : G t ↔ G s ∧ p := by
  obtain ⟨as, he, hm⟩ := h
  rw [← hm]
  induction as generalizing s p with
  | nil =>
    obtain rfl : s = t := by simpa using he
    exact (and_iff_left trivial).symm
  | cons a as ih =>
    obtain ⟨u, hu, he⟩ := exec_cons_eq_some.mp he
    have hrest := ih (p := Meets step ok u as) (hbase s a u hs hu) he Iff.rfl
    rw [hrest, hgood s a u hs hu, Meets, and_assoc]
    simp [hu]

end Leads

end CloudAgent.Transition
