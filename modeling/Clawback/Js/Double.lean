import Mathlib.Algebra.Order.Floor.Ring
import Mathlib.Data.Int.Log
import Mathlib.Data.Rat.Floor
import Mathlib.Order.WithBot
import Mathlib.Tactic.FieldSimp
import Mathlib.Tactic.Linarith
import Mathlib.Tactic.Positivity

/-!
# Double precision

The non-negative numbers of JavaScript: a rational number that 53 binary digits can write, or
`Infinity`. An operation is the exact one, rounded to the nearest double, to an even last digit
on a tie.

* `roundHalfEven`: the nearest integer.
* `roundRat`: the nearest number with 53 binary digits, whatever its size.
* `roundRat_mono`: rounding is monotone.
* `abs_roundRat_sub_le`: the relative error is at most `2 ^ (-53)`.
-/

namespace Js

/-! ## The nearest integer -/

/-- The nearest integer, the even one on a tie. -/
def roundHalfEven (x : ℚ) : ℤ :=
  if x - ⌊x⌋ < 1 / 2 then ⌊x⌋
  else if 1 / 2 < x - ⌊x⌋ then ⌊x⌋ + 1
  else if ⌊x⌋ % 2 = 0 then ⌊x⌋ else ⌊x⌋ + 1

theorem roundHalfEven_cases (x : ℚ) :
    (roundHalfEven x = ⌊x⌋ ∧ x - ⌊x⌋ ≤ 1 / 2) ∨ (roundHalfEven x = ⌊x⌋ + 1 ∧ 1 / 2 ≤ x - ⌊x⌋) := by
  unfold roundHalfEven
  split
  · rename_i h
    exact Or.inl ⟨rfl, h.le⟩
  · rename_i hlow
    split
    · rename_i h
      exact Or.inr ⟨rfl, h.le⟩
    · rename_i hhigh
      split
      · exact Or.inl ⟨rfl, not_lt.mp hhigh⟩
      · exact Or.inr ⟨rfl, not_lt.mp hlow⟩

@[simp] theorem roundHalfEven_intCast (n : ℤ) : roundHalfEven n = n := by
  rw [roundHalfEven, Int.floor_intCast, sub_self, if_pos (by norm_num)]

theorem abs_roundHalfEven_sub_le (x : ℚ) : |(roundHalfEven x : ℚ) - x| ≤ 1 / 2 := by
  have hfloor := Int.floor_le x
  have hceil := Int.lt_floor_add_one x
  rw [abs_le]
  rcases roundHalfEven_cases x with ⟨h, hd⟩ | ⟨h, hd⟩ <;> rw [h] <;> push_cast <;>
    constructor <;> linarith

theorem roundHalfEven_mono {x y : ℚ} (hxy : x ≤ y) : roundHalfEven x ≤ roundHalfEven y := by
  have hfloor : ⌊x⌋ ≤ ⌊y⌋ := Int.floor_le_floor hxy
  rcases hfloor.lt_or_eq with hlt | heq
  · rcases roundHalfEven_cases x with ⟨hx, -⟩ | ⟨hx, -⟩ <;>
      rcases roundHalfEven_cases y with ⟨hy, -⟩ | ⟨hy, -⟩ <;> omega
  · -- on one unit interval only the order of the fractions counts
    unfold roundHalfEven
    rw [heq]
    split_ifs <;> first | omega | linarith

/-! ## 53 binary digits -/

/-- The exponent of the last binary digit of a double near `x`. -/
def lastExponent (x : ℚ) : ℤ := max (Int.log 2 x - 52) (-1074)

/-- The nearest number with 53 binary digits. -/
def roundRat (x : ℚ) : ℚ := roundHalfEven (x / 2 ^ lastExponent x) * 2 ^ lastExponent x

theorem two_zpow_pos (e : ℤ) : (0 : ℚ) < 2 ^ e := zpow_pos (by norm_num) e

theorem lastExponent_mono {x y : ℚ} (hx : 0 < x) (hxy : x ≤ y) :
    lastExponent x ≤ lastExponent y :=
  max_le_max (sub_le_sub_right (Int.log_mono_right hx hxy) 52) le_rfl

theorem roundRat_zero : roundRat 0 = 0 := by
  simp [roundRat, roundHalfEven]

theorem le_roundRat {x : ℚ} {n : ℤ} (h : n * 2 ^ lastExponent x ≤ x) :
    n * 2 ^ lastExponent x ≤ roundRat x := by
  have hpos := two_zpow_pos (lastExponent x)
  have hn : (n : ℚ) ≤ x / 2 ^ lastExponent x := (le_div_iff₀ hpos).mpr h
  have hround : n ≤ roundHalfEven (x / 2 ^ lastExponent x) := by
    simpa using roundHalfEven_mono hn
  exact mul_le_mul_of_nonneg_right (by exact_mod_cast hround) hpos.le

theorem roundRat_le {x : ℚ} {n : ℤ} (h : x ≤ n * 2 ^ lastExponent x) :
    roundRat x ≤ n * 2 ^ lastExponent x := by
  have hpos := two_zpow_pos (lastExponent x)
  have hn : x / 2 ^ lastExponent x ≤ n := (div_le_iff₀ hpos).mpr h
  have hround : roundHalfEven (x / 2 ^ lastExponent x) ≤ n := by
    simpa using roundHalfEven_mono hn
  exact mul_le_mul_of_nonneg_right (by exact_mod_cast hround) hpos.le

theorem roundRat_nonneg {x : ℚ} (hx : 0 ≤ x) : 0 ≤ roundRat x := by
  have h := le_roundRat (x := x) (n := 0) (by simpa using hx)
  simpa using h

/-- A number lies below `2 ^ 53` of its last digits. -/
theorem lt_lastExponent (x : ℚ) : x < 2 ^ 53 * 2 ^ lastExponent x := by
  have hlog : x < 2 ^ (Int.log 2 x + 1) := by
    exact_mod_cast Int.lt_zpow_succ_log_self (b := 2) (by omega) x
  have hle : Int.log 2 x - 52 ≤ lastExponent x := le_max_left _ _
  have hgrid : (2 : ℚ) ^ (Int.log 2 x + 1) ≤ 2 ^ (53 + lastExponent x) :=
    zpow_le_zpow_right₀ (by norm_num) (by omega)
  exact hlog.trans_le (hgrid.trans_eq (zpow_add₀ (by norm_num) 53 _))

/-- It is at least `2 ^ 52` of them, if it is not subnormal. -/
theorem lastExponent_le {x : ℚ} (hx : 0 < x) (hnormal : -1074 < lastExponent x) :
    2 ^ 52 * 2 ^ lastExponent x ≤ x := by
  have hlog : (2 : ℚ) ^ Int.log 2 x ≤ x := by
    exact_mod_cast Int.zpow_log_le_self (b := 2) (by omega) hx
  have heq : Int.log 2 x = 52 + lastExponent x := by
    rcases max_choice (Int.log 2 x - 52) (-1074) with h | h
    · rw [lastExponent, h]
      omega
    · rw [lastExponent, h] at hnormal
      omega
  rw [heq, zpow_add₀ (by norm_num)] at hlog
  exact hlog

/-- Rounding is monotone: either both numbers are rounded to one grid, or a power of two that
is on both grids lies between them. -/
theorem roundRat_mono {x y : ℚ} (hx : 0 ≤ x) (hxy : x ≤ y) : roundRat x ≤ roundRat y := by
  rcases hx.eq_or_lt with rfl | hpos
  · rw [roundRat_zero]
    exact roundRat_nonneg hxy
  · rcases (lastExponent_mono hpos hxy).eq_or_lt with heq | hlt
    · have hgrid := two_zpow_pos (lastExponent y)
      have hround := roundHalfEven_mono (div_le_div_of_nonneg_right hxy hgrid.le)
      rw [roundRat, roundRat, heq]
      exact mul_le_mul_of_nonneg_right (by exact_mod_cast hround) hgrid.le
    · have hnormal : -1074 < lastExponent y :=
        lt_of_le_of_lt (le_max_right (Int.log 2 x - 52) (-1074)) hlt
      have hupper : roundRat x ≤ ((2 ^ 53 : ℤ) : ℚ) * 2 ^ lastExponent x :=
        roundRat_le (by exact_mod_cast (lt_lastExponent x).le)
      have hlower : ((2 ^ 52 : ℤ) : ℚ) * 2 ^ lastExponent y ≤ roundRat y :=
        le_roundRat (by exact_mod_cast lastExponent_le (hpos.trans_le hxy) hnormal)
      have hmiddle : (2 : ℚ) ^ (53 + lastExponent x) ≤ 2 ^ (52 + lastExponent y) :=
        zpow_le_zpow_right₀ (by norm_num) (by omega)
      rw [zpow_add₀ (by norm_num), zpow_add₀ (by norm_num)] at hmiddle
      push_cast at hupper hlower
      exact hupper.trans ((by exact_mod_cast hmiddle : _ ≤ _).trans hlower)

/-- The relative error of rounding. -/
theorem abs_roundRat_sub_le {x : ℚ} (hx : 0 < x) (hnormal : -1074 < lastExponent x) :
    |roundRat x - x| ≤ x / 2 ^ 53 := by
  have hgrid := two_zpow_pos (lastExponent x)
  have hbelow := lastExponent_le hx hnormal
  have hnearest := abs_roundHalfEven_sub_le (x / 2 ^ lastExponent x)
  have hscaled : roundRat x - x =
      (roundHalfEven (x / 2 ^ lastExponent x) - x / 2 ^ lastExponent x) * 2 ^ lastExponent x := by
    rw [roundRat, sub_mul, div_mul_cancel₀ _ hgrid.ne']
  rw [hscaled, abs_mul, abs_of_pos hgrid]
  calc |(roundHalfEven (x / 2 ^ lastExponent x) : ℚ) - x / 2 ^ lastExponent x| * 2 ^ lastExponent x
      ≤ 1 / 2 * 2 ^ lastExponent x := mul_le_mul_of_nonneg_right hnearest hgrid.le
    _ ≤ x / 2 ^ 53 := by
      rw [le_div_iff₀ (by norm_num)]
      linarith

/-- A number that is not tiny is not subnormal. -/
theorem normal_of_le {x : ℚ} (hx : 2 ^ (-1021 : ℤ) ≤ x) : -1074 < lastExponent x := by
  have hlog : (-1021 : ℤ) ≤ Int.log 2 x := by
    have h := Int.log_mono_right (b := 2) (two_zpow_pos (-1021)) hx
    have hpow : Int.log 2 ((2 : ℚ) ^ (-1021 : ℤ)) = -1021 := by
      exact_mod_cast Int.log_zpow (R := ℚ) (b := 2) (by omega) (-1021)
    rw [hpow] at h
    exact h
  have hle : Int.log 2 x - 52 ≤ lastExponent x := le_max_left _ _
  omega

/-! ## Doubles -/

/-- A non-negative number, or `Infinity`. -/
abbrev Double := WithTop ℚ

namespace Double

/-- The double nearest to a number. From `2 ^ 1024` on that is `Infinity`. -/
def ofRat (x : ℚ) : Double := if roundRat x < 2 ^ 1024 then (roundRat x : ℚ) else ⊤

/-- `x * c`, for a positive number `c`. -/
def scale (c : ℚ) : Double → Double
  | ⊤ => ⊤
  | (x : ℚ) => ofRat (x * c)

/-- `Math.round(x)`: half is rounded up. -/
def mathRound : Double → Double
  | ⊤ => ⊤
  | (x : ℚ) => ((⌊x + 1 / 2⌋ : ℤ) : ℚ)

/-- A whole number or `Infinity`. -/
def IsWhole (x : Double) : Prop := x = ⊤ ∨ ∃ n : ℕ, x = ((n : ℚ) : Double)

theorem ofRat_mono {x y : ℚ} (hx : 0 ≤ x) (hxy : x ≤ y) : ofRat x ≤ ofRat y := by
  have hmono := roundRat_mono hx hxy
  unfold ofRat
  by_cases hy : roundRat y < 2 ^ 1024
  · rw [if_pos hy, if_pos (hmono.trans_lt hy)]
    exact_mod_cast hmono
  · rw [if_neg hy]
    exact le_top

theorem ofRat_nonneg {x : ℚ} (hx : 0 ≤ x) : 0 ≤ ofRat x := by
  unfold ofRat
  split
  · exact_mod_cast roundRat_nonneg hx
  · exact le_top

theorem scale_mono {c : ℚ} (hc : 0 ≤ c) {x y : Double} (hx : 0 ≤ x) (hxy : x ≤ y) :
    scale c x ≤ scale c y := by
  induction y using WithTop.recTopCoe with
  | top => exact le_top
  | coe y =>
    induction x using WithTop.recTopCoe with
    | top => exact absurd hxy (by simp)
    | coe x =>
      have hx' : 0 ≤ x := by exact_mod_cast hx
      have hxy' : x ≤ y := by exact_mod_cast hxy
      exact ofRat_mono (mul_nonneg hx' hc) (mul_le_mul_of_nonneg_right hxy' hc)

theorem scale_nonneg {c : ℚ} (hc : 0 ≤ c) {x : Double} (hx : 0 ≤ x) : 0 ≤ scale c x := by
  induction x using WithTop.recTopCoe with
  | top => exact le_top
  | coe x => exact ofRat_nonneg (mul_nonneg (by exact_mod_cast hx) hc)

theorem mathRound_mono {x y : Double} (hxy : x ≤ y) : mathRound x ≤ mathRound y := by
  induction y using WithTop.recTopCoe with
  | top => exact le_top
  | coe y =>
    induction x using WithTop.recTopCoe with
    | top => exact absurd hxy (by simp)
    | coe x =>
      have hxy' : x ≤ y := by exact_mod_cast hxy
      have hfloor : ⌊x + 1 / 2⌋ ≤ ⌊y + 1 / 2⌋ := Int.floor_le_floor (by linarith)
      simp only [mathRound]
      exact_mod_cast hfloor

theorem isWhole_mathRound {x : Double} (hx : 0 ≤ x) : IsWhole (mathRound x) := by
  induction x using WithTop.recTopCoe with
  | top => exact Or.inl rfl
  | coe x =>
    have hx' : 0 ≤ x := by exact_mod_cast hx
    have hfloor : 0 ≤ ⌊x + 1 / 2⌋ := Int.floor_nonneg.mpr (by linarith)
    refine Or.inr ⟨⌊x + 1 / 2⌋.toNat, ?_⟩
    have hcast : ((⌊x + 1 / 2⌋ : ℤ) : ℚ) = ((⌊x + 1 / 2⌋.toNat : ℕ) : ℚ) := by
      exact_mod_cast (Int.toNat_of_nonneg hfloor).symm
    simp only [mathRound, hcast]

theorem IsWhole.nonneg {x : Double} (h : IsWhole x) : 0 ≤ x := by
  rcases h with rfl | ⟨n, rfl⟩
  · exact le_top
  · exact_mod_cast n.cast_nonneg (α := ℚ)

/-- A number near a whole number is rounded to it. -/
theorem mathRound_of_near {x : ℚ} {n : ℕ} (h : |x - n| < 1 / 2) :
    mathRound (x : Double) = ((n : ℚ) : Double) := by
  obtain ⟨hlow, hhigh⟩ := abs_lt.mp h
  have hfloor : ⌊x + 1 / 2⌋ = (n : ℤ) := by
    rw [Int.floor_eq_iff]
    push_cast
    constructor <;> linarith
  simp only [mathRound, hfloor]
  rfl

/-- A bound between two neighbouring values of a monotone function. -/
theorem le_iff_of_monotone {f : ℕ → Double} (hf : Monotone f) {bound : Double} {n : ℕ}
    (hn : f n ≤ bound) (hnext : bound < f (n + 1)) {w : ℕ} : f w ≤ bound ↔ w ≤ n := by
  constructor
  · intro h
    by_contra hlt
    have hnext' : f (n + 1) ≤ f w := hf (by omega)
    exact absurd (hnext.trans_le (hnext'.trans h)) (lt_irrefl _)
  · intro h
    exact (hf h).trans hn

end Double

end Js
