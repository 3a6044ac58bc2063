import Clawback.Payments.Fee
import Mathlib.Algebra.Order.Round
import Mathlib.Data.Rat.Floor

/-!
# The fee split

How `computeFee` divides verified savings between the fee and the user, for every rate from
`0` to `10000` basis points.

* `nearestHalfUp_round`: Mathlib's `round` is the nearest integer, and of two nearest integers
  the larger one.
* `computeFee_fair`: the split is exact, bounded and monotone.
-/

namespace Clawback

/-- The integer nearest to a rational number; of two nearest integers, the larger one. -/
def NearestHalfUp (x : ℚ) (m : Int) : Prop :=
  ∀ k : Int, |x - m| ≤ |x - k| ∧ (|x - k| = |x - m| → k ≤ m)

theorem nearestHalfUp_round (x : ℚ) : NearestHalfUp x (round x) := by
  intro k
  refine ⟨round_le x k, fun htie => ?_⟩
  obtain ⟨hlow, hhigh⟩ := round_eq_iff.mp (rfl : round x = round x)
  have hclose : |x - k| ≤ 1 / 2 := htie ▸ abs_sub_round x
  by_contra hlt
  -- a larger integer is at least one above, and no nearer than one half only when `x` is below
  have hstep : ((round x : Int) : ℚ) + 1 ≤ (k : ℚ) := by
    exact_mod_cast Int.add_one_le_iff.mpr (not_le.mp hlt)
  have hfar : (k : ℚ) - x ≤ 1 / 2 := by
    rw [abs_sub_comm] at hclose
    exact (le_abs_self _).trans hclose
  linarith

/-! ## Rounding a quotient of integers -/

theorem roundedQuotient_eq_round (n : Int) {d : Nat} (hd : 0 < d) :
    roundedQuotient n d = round ((n : ℚ) / d) := by
  have hcast : (n : ℚ) / d + 1 / 2 = ((2 * n + d : Int) : ℚ) / ((2 * d : Nat) : ℚ) := by
    have hne : (d : ℚ) ≠ 0 := Nat.cast_ne_zero.mpr hd.ne'
    push_cast
    field_simp
  rw [round_eq, hcast, Rat.floor_intCast_div_natCast, roundedQuotient]
  push_cast
  rfl

theorem roundedQuotient_mono {n m d : Int} (hd : 0 < d) (h : n ≤ m) :
    roundedQuotient n d ≤ roundedQuotient m d :=
  Int.ediv_le_ediv (by omega) (by omega)

/-- Whole multiples of the denominator pass through the rounding. -/
theorem roundedQuotient_add_mul (n k : Int) {d : Int} (hd : 0 < d) :
    roundedQuotient (n + k * d) d = roundedQuotient n d + k := by
  have hsplit : 2 * (n + k * d) + d = 2 * n + d + k * (2 * d) := by ring
  rw [roundedQuotient, hsplit, Int.add_mul_ediv_right _ _ (by omega), roundedQuotient]

theorem roundedQuotient_zero {d : Int} (hd : 0 < d) : roundedQuotient 0 d = 0 := by
  have hsmall : d / (2 * d) = 0 := Int.ediv_eq_zero_of_lt hd.le (by omega)
  simpa [roundedQuotient] using hsmall

/-! ## The split -/

/-- The fee `computeFee` finds, also where it returns early. -/
def chargedCents (savings feeBps : Int) : Int := roundedQuotient (max savings 0 * feeBps) 10000

theorem computeFee_eq (savings feeBps : Int) :
    computeFee (some savings) feeBps =
      .ok ⟨savings, feeBps, chargedCents savings feeBps,
        savings - chargedCents savings feeBps⟩ := by
  by_cases hsavings : savings ≤ 0
  · have hzero : chargedCents savings feeBps = 0 := by
      rw [chargedCents, max_eq_right hsavings, zero_mul, roundedQuotient_zero (by decide)]
    simp only [computeFee, if_pos hsavings, hzero, sub_zero]
  · have hcharged : chargedCents savings feeBps = roundedQuotient (savings * feeBps) 10000 := by
      rw [chargedCents, max_eq_left (not_le.mp hsavings).le]
    simp only [computeFee, if_neg hsavings, hcharged]

theorem chargedCents_of_nonpos {savings : Int} (h : savings ≤ 0) (feeBps : Int) :
    chargedCents savings feeBps = 0 := by
  rw [chargedCents, max_eq_right h, zero_mul, roundedQuotient_zero (by decide)]

theorem chargedCents_nearest {savings : Int} (h : 0 < savings) (feeBps : Int) :
    NearestHalfUp ((savings * feeBps : Int) / 10000) (chargedCents savings feeBps) := by
  have hround := roundedQuotient_eq_round (savings * feeBps) (d := 10000) (by decide)
  rw [chargedCents, max_eq_left h.le]
  exact hround ▸ nearestHalfUp_round _

theorem chargedCents_mono {savings savings' feeBps feeBps' : Int} (hs : savings ≤ savings')
    (hb : 0 ≤ feeBps) (hb' : feeBps ≤ feeBps') :
    chargedCents savings feeBps ≤ chargedCents savings' feeBps' := by
  apply roundedQuotient_mono (by decide)
  calc max savings 0 * feeBps ≤ max savings' 0 * feeBps :=
        mul_le_mul_of_nonneg_right (max_le_max_right 0 hs) hb
    _ ≤ max savings' 0 * feeBps' := mul_le_mul_of_nonneg_left hb' (le_max_right _ _)

/-- Of what is recovered in addition, the fee takes no more than all. -/
theorem chargedCents_le_add {savings savings' feeBps : Int} (hs : savings ≤ savings')
    (hb : 0 ≤ feeBps) (hb' : feeBps ≤ 10000) :
    chargedCents savings' feeBps ≤ chargedCents savings feeBps + (savings' - savings) := by
  have hmax : max savings' 0 ≤ max savings 0 + (savings' - savings) := by omega
  have hgain : (savings' - savings) * feeBps ≤ (savings' - savings) * 10000 :=
    mul_le_mul_of_nonneg_left hb' (by omega)
  rw [chargedCents, chargedCents, ← roundedQuotient_add_mul _ _ (by decide)]
  apply roundedQuotient_mono (by decide)
  calc max savings' 0 * feeBps ≤ (max savings 0 + (savings' - savings)) * feeBps :=
        mul_le_mul_of_nonneg_right hmax hb
    _ = max savings 0 * feeBps + (savings' - savings) * feeBps := by ring
    _ ≤ max savings 0 * feeBps + (savings' - savings) * 10000 := by omega

theorem chargedCents_bounds {savings feeBps : Int} (h : 0 < savings) (hb : 0 ≤ feeBps)
    (hb' : feeBps ≤ 10000) :
    0 ≤ chargedCents savings feeBps ∧ chargedCents savings feeBps ≤ savings := by
  have hzero := chargedCents_of_nonpos le_rfl feeBps
  have hlow := chargedCents_mono h.le hb le_rfl
  have hhigh := chargedCents_le_add h.le hb hb'
  omega

/-- In exact arithmetic the fee and what the user keeps make up the savings; the fee is the
nearest whole cent, none when nothing was saved, never more than was saved, and larger
savings or rates never make it smaller; and who recovers more never keeps less. -/
theorem computeFee_fair {b : Int} (hb : 0 ≤ b) (hb' : b ≤ 10000) (s : Int) :
    ∃ fee, computeFee (some s) b = .ok fee ∧
      fee.feeCents + fee.netToUserCents = s ∧
      (0 < s → NearestHalfUp ((s * b : Int) / 10000) fee.feeCents ∧
        0 ≤ fee.feeCents ∧ fee.feeCents ≤ s) ∧
      (s ≤ 0 → fee.feeCents = 0) ∧
      (∀ s' b' fee', s ≤ s' → b ≤ b' → b' ≤ 10000 → computeFee (some s') b' = .ok fee' →
        fee.feeCents ≤ fee'.feeCents) ∧
      (∀ s' fee', s ≤ s' → computeFee (some s') b = .ok fee' →
        fee.netToUserCents ≤ fee'.netToUserCents) := by
  refine ⟨_, computeFee_eq s b, by simp, fun hpos => ?_, fun hneg => ?_, ?_, ?_⟩
  · exact ⟨chargedCents_nearest hpos b, chargedCents_bounds hpos hb hb'⟩
  · exact chargedCents_of_nonpos hneg b
  · intro s' b' fee' hs hbb' _ hfee'
    rw [computeFee_eq] at hfee'
    cases hfee'
    exact chargedCents_mono hs hb hbb'
  · intro s' fee' hs hfee'
    rw [computeFee_eq] at hfee'
    cases hfee'
    have hgain := chargedCents_le_add hs hb hb'
    show s - chargedCents s b ≤ s' - chargedCents s' b
    omega

/-- 5% of 50 cents are two and a half cents, and the fee is three. -/
theorem computeFee_fair_half :
    ∃ fee, computeFee (some 50) 500 = .ok fee ∧ fee.feeCents + fee.netToUserCents = 50 ∧
      fee.feeCents = 3 := by
  obtain ⟨fee, hfee, hsum, -⟩ := computeFee_fair (b := 500) (by decide) (by decide) 50
  refine ⟨fee, hfee, hsum, ?_⟩
  rw [computeFee_eq] at hfee
  cases hfee
  rfl

end Clawback
