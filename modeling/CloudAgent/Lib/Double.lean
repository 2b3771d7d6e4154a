import Mathlib.Data.Int.Log
import Mathlib.Data.Rat.Floor
import Mathlib.Tactic.Linarith
import Mathlib.Tactic.Positivity
import Mathlib.Tactic.Ring

/-! Numbers with 53 binary digits, to which the results of arithmetic are rounded, and how far the
results are off. The exponent is not bounded. -/
namespace CloudAgent

namespace Double

/-- The nearest integer, the even one of two. -/
def halfEven (x : ℚ) : ℤ :=
  if x - ⌊x⌋ < 1 / 2 then ⌊x⌋
  else if 1 / 2 < x - ⌊x⌋ then ⌊x⌋ + 1
  else if ⌊x⌋ % 2 = 0 then ⌊x⌋ else ⌊x⌋ + 1

/-- The distance of the numbers with 53 digits around `x`. -/
def ulp (x : ℚ) : ℚ := 2 ^ (Int.log 2 |x| - 52)

/-- The nearest number with 53 digits. -/
def round (x : ℚ) : ℚ := halfEven (x / ulp x) * ulp x

/-- The largest relative error of one operation. -/
def unit : ℚ := 1 / 2 ^ 53

theorem abs_halfEven_sub (x : ℚ) : |(halfEven x : ℚ) - x| ≤ 1 / 2 := by
  have hle := Int.floor_le x
  have hlt := Int.lt_floor_add_one x
  unfold halfEven
  split_ifs with hlow hhigh
  · rw [abs_le]
    constructor <;> linarith
  · push_cast
    rw [abs_le]
    constructor <;> linarith
  · rw [abs_le]
    constructor <;> linarith
  · push_cast
    rw [abs_le]
    constructor <;> linarith

theorem ulp_pos (x : ℚ) : 0 < ulp x := zpow_pos (by decide) _

theorem ulp_le {x : ℚ} (h : x ≠ 0) : ulp x ≤ |x| / 2 ^ 52 := by
  have hlog := Int.zpow_log_le_self (b := 2) (by decide) (abs_pos.mpr h)
  rw [ulp, zpow_sub₀ (by decide)]
  push_cast at hlog
  exact div_le_div_of_nonneg_right hlog (by positivity)

/-- `y` is `x` up to the relative error `u`. -/
def Near (u x y : ℚ) : Prop := |y - x| ≤ u * |x|

variable {u v x y z x' y' : ℚ}

theorem near_refl (h : 0 ≤ u) (x : ℚ) : Near u x x := by
  rw [Near, sub_self, abs_zero]
  positivity

theorem near_round (x : ℚ) : Near unit x (round x) := by
  by_cases h : x = 0
  · subst h
    have hzero : round 0 = 0 := by
      rw [round, zero_div]
      simp [halfEven]
    rw [hzero]
    exact near_refl (by unfold unit; positivity) 0
  · have hpos := ulp_pos x
    have hsplit : round x - x = (halfEven (x / ulp x) - x / ulp x) * ulp x := by
      rw [round, sub_mul, div_mul_cancel₀ _ hpos.ne']
    calc |round x - x| = |(halfEven (x / ulp x) : ℚ) - x / ulp x| * ulp x := by
          rw [hsplit, abs_mul, abs_of_pos hpos]
      _ ≤ 1 / 2 * ulp x := mul_le_mul_of_nonneg_right (abs_halfEven_sub _) hpos.le
      _ ≤ 1 / 2 * (|x| / 2 ^ 52) := mul_le_mul_of_nonneg_left (ulp_le h) (by norm_num)
      _ = unit * |x| := by rw [unit]; ring

theorem Near.mono (h : Near u x y) (huv : u ≤ v) : Near v x y :=
  le_trans h (mul_le_mul_of_nonneg_right huv (abs_nonneg x))

theorem Near.abs_le (h : Near u x y) : |y| ≤ (1 + u) * |x| := by
  have htri := abs_sub_abs_le_abs_sub y x
  have hle : |y - x| ≤ u * |x| := h
  linarith

/-- Errors of operations one after the other. -/
theorem Near.trans (h : Near u x y) (h' : Near v y z) (hv : 0 ≤ v) : Near (u + v + u * v) x z := by
  have hy := mul_le_mul_of_nonneg_left h.abs_le hv
  have hxy : |y - x| ≤ u * |x| := h
  have hyz : |z - y| ≤ v * |y| := h'
  calc |z - x| = |(z - y) + (y - x)| := by rw [sub_add_sub_cancel]
    _ ≤ |z - y| + |y - x| := abs_add_le _ _
    _ ≤ v * ((1 + u) * |x|) + u * |x| := add_le_add (hyz.trans hy) hxy
    _ = (u + v + u * v) * |x| := by ring

theorem Near.mul_left (h : Near u x y) (z : ℚ) : Near u (z * x) (z * y) := by
  rw [Near, ← mul_sub, abs_mul, abs_mul, mul_left_comm]
  exact mul_le_mul_of_nonneg_left h (abs_nonneg z)

theorem Near.mul_right (h : Near u x y) (z : ℚ) : Near u (x * z) (y * z) := by
  rw [mul_comm x, mul_comm y]
  exact h.mul_left z

/-- The error of a product. -/
theorem Near.mul (h : Near u x y) (h' : Near v x' y') (hv : 0 ≤ v) :
    Near (u + v + u * v) (x * x') (y * y') :=
  (h.mul_right x').trans (h'.mul_left y) hv

theorem near_iff (hx : 0 ≤ x) : Near u x y ↔ x * (1 - u) ≤ y ∧ y ≤ x * (1 + u) := by
  rw [Near, abs_of_nonneg hx, abs_le]
  constructor
  · rintro ⟨h1, h2⟩
    constructor <;> linarith
  · rintro ⟨h1, h2⟩
    constructor <;> linarith

theorem Near.nonneg (h : Near u x y) (hx : 0 ≤ x) (hu : u ≤ 1) : 0 ≤ y :=
  le_trans (mul_nonneg hx (by linarith)) ((near_iff hx).mp h).1

/-- The larger one of two numbers. -/
theorem Near.max (h : Near u x y) (h' : Near u x' y') (hx : 0 ≤ x) (hx' : 0 ≤ x') (hu : 0 ≤ u) (hu1 : u ≤ 1) :
    Near u (Max.max x x') (Max.max y y') := by
  rw [near_iff hx] at h
  rw [near_iff hx'] at h'
  rw [near_iff (le_max_of_le_left hx), max_mul_of_nonneg _ _ (by linarith), max_mul_of_nonneg _ _ (by linarith)]
  exact ⟨max_le_max h.1 h'.1, max_le_max h.2 h'.2⟩

/-- The largest one of a list, computed from `a` on. -/
theorem near_foldl_max {ι : Type*} {f g : ι → ℚ} (hu : 0 ≤ u) (hu1 : u ≤ 1) (l : List ι)
    (hf : ∀ i ∈ l, 0 ≤ f i ∧ Near u (f i) (g i)) (hx : 0 ≤ x) (h : Near u x y) :
    0 ≤ l.foldl (fun m i => Max.max (f i) m) x ∧
      Near u (l.foldl (fun m i => Max.max (f i) m) x) (l.foldl (fun m i => Max.max (g i) m) y) := by
  induction l generalizing x y with
  | nil => exact ⟨hx, h⟩
  | cons i l ih =>
    obtain ⟨⟨hi, hnear⟩, hl⟩ := List.forall_mem_cons.mp hf
    exact ih hl (le_max_of_le_left hi) (hnear.max h hi hx hu hu1)

end Double
end CloudAgent
