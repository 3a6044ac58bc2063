import Clawback.Js.Double
import Clawback.Providers.Sandbox
import Clawback.Web.Routes

/-!
# The range of amounts

The cents of a run in double precision, from the text of an accepted request to the product
in `computeFee`. Nothing bounds the number that a text may write.

* `doubleCents_le_iff`, `doubleCents_of_lt`: which amounts stay in the range of exact whole
  numbers, and which are read without an error.
* `amounts_range`: the same of every amount of a run.
* `refund_eq_estimate_iff`: when a refund is what the user was told to expect.
-/

namespace Clawback

open Js Async Double

/-- `Math.round(parseFloat(amount) * 100)`, when `amount` writes so many cents. -/
def doubleCents (written : ℕ) : Double := mathRound (scale 100 (ofRat (written / 100)))

/-- `Number.MAX_SAFE_INTEGER` -/
def maxSafe : Double := ((2 ^ 53 - 1 : ℕ) : ℚ)

theorem isWhole_doubleCents (written : ℕ) : IsWhole (doubleCents written) :=
  isWhole_mathRound (scale_nonneg (by norm_num) (ofRat_nonneg (by positivity)))

theorem doubleCents_mono : Monotone doubleCents := by
  intro w w' h
  have hcast : (w : ℚ) ≤ w' := by exact_mod_cast h
  have hread : ofRat ((w : ℚ) / 100) ≤ ofRat ((w' : ℚ) / 100) :=
    ofRat_mono (by positivity) (by linarith)
  exact mathRound_mono (scale_mono (by norm_num) (ofRat_nonneg (by positivity)) hread)

/-- An amount is a safe integer exactly when what is written is. -/
theorem doubleCents_le_iff {written : ℕ} : doubleCents written ≤ maxSafe ↔ written ≤ 2 ^ 53 - 1 :=
  le_iff_of_monotone doubleCents_mono (by decide +kernel) (by decide +kernel)

/-- So is the product of the fee, but only for amounts that much smaller. -/
theorem scale_doubleCents_le_iff {written : ℕ} :
    scale defaultFeeBps (doubleCents written) ≤ maxSafe ↔ written ≤ 2251799813685 := by
  have hmono : Monotone fun w => scale defaultFeeBps (doubleCents w) :=
    fun w w' h => scale_mono (by norm_num [defaultFeeBps]) (isWhole_doubleCents w).nonneg
      (doubleCents_mono h)
  exact le_iff_of_monotone hmono (by decide +kernel) (by decide +kernel)

/-- Amounts of less than `2 ^ 51` cents are read as they are written. -/
theorem doubleCents_of_lt {written : ℕ} (h : written < 2 ^ 51) :
    doubleCents written = ((written : ℚ) : Double) := by
  rcases Nat.eq_zero_or_pos written with rfl | hpos
  · decide +kernel
  · have hone : (1 : ℚ) ≤ written := by exact_mod_cast hpos
    have hbound : (written : ℚ) ≤ 2 ^ 51 - 1 := by
      have hle : written + 1 ≤ 2 ^ 51 := h
      have hcast : (written : ℚ) + 1 ≤ 2 ^ 51 := by exact_mod_cast hle
      linarith
    have htiny : (2 : ℚ) ^ (-1021 : ℤ) ≤ 1 / 200 :=
      (zpow_le_zpow_right₀ (by norm_num) (by norm_num : (-1021 : ℤ) ≤ -8)).trans (by norm_num)
    have hhuge : (2 : ℚ) ^ 60 ≤ 2 ^ 1024 := pow_le_pow_right₀ (by norm_num) (by norm_num)
    -- the two roundings, each with its error
    have hread := abs_le.mp (abs_roundRat_sub_le (x := written / 100) (by linarith)
      (normal_of_le (htiny.trans (by linarith))))
    have hsmall : roundRat ((written : ℚ) / 100) < 2 ^ 60 := by linarith
    have hfinite : ofRat ((written : ℚ) / 100) = (roundRat (written / 100) : ℚ) :=
      if_pos (hsmall.trans_le hhuge)
    have hscaled := abs_le.mp (abs_roundRat_sub_le (x := roundRat (written / 100) * 100)
      (by linarith) (normal_of_le (htiny.trans (by linarith))))
    have hsmall' : roundRat (roundRat ((written : ℚ) / 100) * 100) < 2 ^ 60 := by linarith
    have hfinite' : ofRat (roundRat ((written : ℚ) / 100) * 100) =
        (roundRat (roundRat (written / 100) * 100) : ℚ) := if_pos (hsmall'.trans_le hhuge)
    rw [doubleCents, hfinite]
    simp only [scale, hfinite']
    apply mathRound_of_near
    rw [abs_lt]
    constructor <;> linarith

/-! ## The amounts of a run -/

/-- `extractCents` and `extractAmountCents` -/
def readCents (text : Str) : Option Double :=
  (extractCents text).map fun written => doubleCents written.toNat

/-- `verifyClaimedSavings` -/
def verifyCents (claimedSavingsCents : Double) (counterpartyConfirmation : Option Str) :
    Option Double :=
  if claimedSavingsCents ≤ 0 then some claimedSavingsCents
  else match counterpartyConfirmation with
    | some confirmation => if confirmation = [] then none else some claimedSavingsCents
    | none => none

structure RunAmounts where
  estimatedRecoveryCents : Option Double
  claimedSavingsCents : Double
  verifiedSavingsCents : Option Double
  /-- `verifiedSavingsCents * feeBps`, where `computeFee` multiplies. -/
  feeProduct : Option Double

/-- The amounts of a case and of its sandboxed action. Whether there is a confirmation does not
depend on the digits in it. -/
def runAmounts (sha256Hex : Str → Str) (request : ProviderActionRequest) : RunAmounts :=
  let input := request.input
  let claimedSavingsCents : Double :=
    if isBelow (bucket sha256Hex input) 60 then
      (readCents input.subscriptionDetails <|> readCents input.desiredOutcome).getD 999
    else 0
  let verifiedSavingsCents :=
    verifyCents claimedSavingsCents (sendAction sha256Hex request).counterpartyConfirmation
  { estimatedRecoveryCents := readCents input.desiredOutcome <|> readCents input.subscriptionDetails
    claimedSavingsCents
    verifiedSavingsCents
    feeProduct := verifiedSavingsCents.bind fun savings =>
      if 0 < savings then some (scale defaultFeeBps savings) else none }

theorem firstDollarCents_nonneg {text : Str} {cents : Int}
    (h : firstDollarCents text = some cents) : 0 ≤ cents := by
  induction text with
  | nil => cases h
  | cons c rest ih =>
    have hamount : ∀ t : Str, amountCents t = some cents → 0 ≤ cents := by
      intro t ht
      rw [amountCents] at ht
      split at ht
      · cases ht
      · cases ht
        exact Int.natCast_nonneg _
    have hdollar : dollarCents (c :: rest) = some cents → 0 ≤ cents := by
      intro hd
      simp only [dollarCents] at hd
      split at hd
      · split at hd
        · split at hd <;> exact hamount _ hd
        · cases hd
      · cases hd
    rw [firstDollarCents] at h
    cases hhead : dollarCents (c :: rest) with
    | none =>
      rw [hhead] at h
      exact ih h
    | some first =>
      rw [hhead] at h
      obtain rfl : first = cents := by simpa using h
      exact hdollar hhead

/-- The first amount in one of two texts, as a double and as it is written. -/
theorem readCents_orElse (text text' : Str) :
    (readCents text <|> readCents text') =
      ((extractCents text <|> extractCents text').map fun written => doubleCents written.toNat) := by
  rw [readCents, readCents]
  cases extractCents text <;> rfl

theorem exists_written {text text' : Str} {cents : Int}
    (h : (extractCents text <|> extractCents text') = some cents) :
    ∃ written : ℕ, cents = written := by
  have hnonneg : 0 ≤ cents := by
    cases htext : extractCents text with
    | none =>
      rw [htext] at h
      exact firstDollarCents_nonneg h
    | some first =>
      rw [htext] at h
      obtain rfl : first = cents := by simpa using h
      exact firstDollarCents_nonneg htext
  exact ⟨cents.toNat, (Int.toNat_of_nonneg hnonneg).symm⟩

/-- `value` is what is read of an amount of so many cents: a whole number or `Infinity`, safe
exactly when the amount is, and exact when the amount is less than `2 ^ 51`. -/
structure ReadOf (written : ℕ) (value : Double) : Prop where
  whole : IsWhole value
  safe : value ≤ maxSafe ↔ written ≤ 2 ^ 53 - 1
  exact_of_lt : written < 2 ^ 51 → value = ((written : ℚ) : Double)

theorem readOf_doubleCents (written : ℕ) : ReadOf written (doubleCents written) :=
  ⟨isWhole_doubleCents written, doubleCents_le_iff, doubleCents_of_lt⟩

theorem verifyCents_sandbox (sha256Hex : Str → Str) (request : ProviderActionRequest) :
    (runAmounts sha256Hex request).verifiedSavingsCents =
      some (runAmounts sha256Hex request).claimedSavingsCents := by
  by_cases hrefund : isBelow (bucket sha256Hex request.input) 60 = true
  · have hconfirmed : (sendAction sha256Hex request).counterpartyConfirmation =
        some (refundConfirmation request.input ((requestedCents request.input).getD 999)) := by
      simp [sendAction, hrefund]
    have hne : refundConfirmation request.input ((requestedCents request.input).getD 999) ≠ [] := by
      intro h
      simp only [refundConfirmation, List.append_eq_nil_iff] at h
      exact absurd h.1.1.1.1.1.1 (by decide)
    simp only [runAmounts, verifyCents, hconfirmed, if_neg hne, ite_self]
  · simp [runAmounts, verifyCents, hrefund]

theorem requestedCents_eq (input : SubscriptionCaseInput) :
    requestedCents input =
      (extractCents input.subscriptionDetails <|> extractCents input.desiredOutcome) := rfl

theorem claimed_readOf {sha256Hex : Str → Str} {request : ProviderActionRequest}
    (hrefund : (sendAction sha256Hex request).outcomeType = .refundIssued) :
    ∃ written : ℕ, (sendAction sha256Hex request).claimedSavingsCents = written ∧
      (runAmounts sha256Hex request).claimedSavingsCents = doubleCents written := by
  obtain ⟨hbucket, hclaimed⟩ := sendAction_claims sha256Hex request
  have hbelow := hbucket.mp hrefund
  rw [hclaimed, if_pos hbelow]
  simp only [runAmounts, hbelow, if_true, readCents_orElse]
  rw [requestedCents_eq]
  cases hread : (extractCents request.input.subscriptionDetails <|>
      extractCents request.input.desiredOutcome) with
  | none =>
    refine ⟨999, rfl, ?_⟩
    exact (doubleCents_of_lt (by norm_num)).symm
  | some cents =>
    obtain ⟨written, rfl⟩ := exists_written hread
    exact ⟨written, rfl, rfl⟩

/-- The amounts of a run: each is null, or a whole number, or `Infinity`. The estimate and the
claimed savings are safe integers exactly when the amounts they are read from are; the savings
are verified as they are claimed; and the product of the fee is safe up to 2251799813685 cents.
Without a refund nothing is claimed and nothing multiplied. -/
theorem amounts_range (sha256Hex : Str → Str) (request : ProviderActionRequest) :
    (∀ estimate, (runAmounts sha256Hex request).estimatedRecoveryCents = some estimate →
      ∃ written : ℕ, estimateRecovery request.input = some (written : Int) ∧
        ReadOf written estimate) ∧
    (runAmounts sha256Hex request).verifiedSavingsCents =
      some (runAmounts sha256Hex request).claimedSavingsCents ∧
    ((sendAction sha256Hex request).outcomeType ≠ .refundIssued →
      (runAmounts sha256Hex request).claimedSavingsCents = 0 ∧
        (runAmounts sha256Hex request).feeProduct = none) ∧
    ((sendAction sha256Hex request).outcomeType = .refundIssued →
      ∃ written : ℕ, (sendAction sha256Hex request).claimedSavingsCents = written ∧
        ReadOf written (runAmounts sha256Hex request).claimedSavingsCents ∧
        ∀ product, (runAmounts sha256Hex request).feeProduct = some product →
          (product ≤ maxSafe ↔ written ≤ 2251799813685)) := by
  have hverified := verifyCents_sandbox sha256Hex request
  have hproduct : (runAmounts sha256Hex request).feeProduct =
      if 0 < (runAmounts sha256Hex request).claimedSavingsCents then
        some (scale defaultFeeBps (runAmounts sha256Hex request).claimedSavingsCents)
      else none := by
    have hdef : (runAmounts sha256Hex request).feeProduct =
        (runAmounts sha256Hex request).verifiedSavingsCents.bind fun savings =>
          if 0 < savings then some (scale defaultFeeBps savings) else none := rfl
    rw [hdef, hverified, Option.bind_some]
  refine ⟨fun estimate hestimate => ?_, hverified, fun hnone => ?_, fun hrefund => ?_⟩
  · simp only [runAmounts, readCents_orElse, Option.map_eq_some_iff] at hestimate
    obtain ⟨cents, hcents, rfl⟩ := hestimate
    obtain ⟨written, rfl⟩ := exists_written hcents
    exact ⟨written, hcents, readOf_doubleCents written⟩
  · have hbelow : ¬isBelow (bucket sha256Hex request.input) 60 = true :=
      fun h => hnone ((sendAction_claims sha256Hex request).1.mpr h)
    have hzero : (runAmounts sha256Hex request).claimedSavingsCents = 0 := if_neg hbelow
    refine ⟨hzero, ?_⟩
    rw [hproduct, hzero, if_neg (lt_irrefl _)]
  · obtain ⟨written, hclaimed, hdouble⟩ := claimed_readOf hrefund
    rw [hproduct, hdouble]
    refine ⟨written, hclaimed, readOf_doubleCents written, fun product h => ?_⟩
    split at h
    · cases h
      exact scale_doubleCents_le_iff
    · cases h

/-- `{ "merchantName": "Acme Gym", ..., "desiredOutcome": "Refund $90071992547409.92" }` -/
def largeBody : Json Int :=
  .obj [(js "merchantName", .str (js "Acme Gym")), (js "accountIdentifierLast4", .str (js "4242")),
    (js "subscriptionDetails", .str (js "Premium plan")),
    (js "desiredOutcome", .str (js "Refund $90071992547409.92"))]

def largeRequest : ProviderActionRequest where
  caseId := js "case_1"
  input :=
    { merchantName := js "Acme Gym"
      accountIdentifierLast4 := js "4242"
      subscriptionDetails := js "Premium plan"
      desiredOutcome := js "Refund $90071992547409.92"
      contactChannel := .sandbox
      contactAddress := js "sandbox@clawback.test" }
  exactMessage := js "Please cancel my subscription."

theorem amounts_not_safe :
    CaseBody largeBody largeRequest.input ∧
    (∃ estimate, (runAmounts Sha256.hex largeRequest).estimatedRecoveryCents = some estimate ∧
      ¬estimate ≤ maxSafe) ∧
    ¬(runAmounts Sha256.hex largeRequest).claimedSavingsCents ≤ maxSafe ∧
    (∃ product, (runAmounts Sha256.hex largeRequest).feeProduct = some product ∧
      ¬product ≤ maxSafe) := by
  have hbody : CaseBody largeBody largeRequest.input := by
    refine ⟨⟨_, _, _, _, rfl, rfl, rfl, rfl, ?_⟩, ?_, ?_, ?_, ?_, ?_⟩ <;> decide
  have hamounts : (runAmounts Sha256.hex largeRequest).claimedSavingsCents =
      ((2 ^ 53 : ℕ) : ℚ) := by decide +kernel
  refine ⟨hbody, ⟨((2 ^ 53 : ℕ) : ℚ), by decide +kernel, by decide +kernel⟩, ?_,
    ⟨scale defaultFeeBps ((2 ^ 53 : ℕ) : ℚ), by decide +kernel, by decide +kernel⟩⟩
  rw [hamounts]
  decide +kernel

/-! ## The estimate and the refund -/

/-- Two choices that prefer different sides agree exactly when one side has nothing to offer or
both offer the same. -/
theorem orElse_getD_eq_iff {α : Type} {x y : Option α} {a : α} (h : (x <|> y) = some a)
    (default : α) : (y <|> x).getD default = a ↔ x = none ∨ y = none ∨ x = y := by
  cases x with
  | none =>
    cases y with
    | none => cases h
    | some b => simpa using h
  | some b =>
    obtain rfl : b = a := by simpa using h
    cases y with
    | none => simp
    | some c => simp [eq_comm]

/-- A refund is what the user was told to expect exactly when the two fields do not name
different amounts first: the estimate prefers one field, the refund the other. -/
theorem refund_eq_estimate_iff {sha256Hex : Str → Str} {request : ProviderActionRequest}
    {estimate : Double}
    (hestimate : (runAmounts sha256Hex request).estimatedRecoveryCents = some estimate)
    (hrefund : (sendAction sha256Hex request).outcomeType = .refundIssued) :
    (runAmounts sha256Hex request).claimedSavingsCents = estimate ↔
      readCents request.input.desiredOutcome = none ∨
        readCents request.input.subscriptionDetails = none ∨
        readCents request.input.desiredOutcome = readCents request.input.subscriptionDetails := by
  have hbelow := (sendAction_claims sha256Hex request).1.mp hrefund
  have hclaimed : (runAmounts sha256Hex request).claimedSavingsCents =
      (readCents request.input.subscriptionDetails <|>
        readCents request.input.desiredOutcome).getD 999 := if_pos hbelow
  rw [hclaimed]
  exact orElse_getD_eq_iff hestimate 999

/-- Five dollars are asked back of a subscription for $19.99. -/
def partialRefund : ProviderActionRequest where
  caseId := js "case_1"
  input :=
    { merchantName := js "Acme Gym"
      accountIdentifierLast4 := js "4242"
      subscriptionDetails := js "Premium plan, $19.99/month"
      desiredOutcome := js "Cancel and refund $5"
      contactChannel := .sandbox
      contactAddress := js "Acme Gym" }
  exactMessage := js "Please cancel my subscription."

theorem partialRefund_estimate :
    (runAmounts Sha256.hex partialRefund).estimatedRecoveryCents = some (500 : ℚ) := by
  decide +kernel

theorem partialRefund_issued :
    (sendAction Sha256.hex partialRefund).outcomeType = .refundIssued := by decide +kernel

theorem refund_eq_estimate_iff_partial :
    (runAmounts Sha256.hex partialRefund).claimedSavingsCents = (500 : ℚ) ↔
      readCents partialRefund.input.desiredOutcome = none ∨
        readCents partialRefund.input.subscriptionDetails = none ∨
        readCents partialRefund.input.desiredOutcome =
          readCents partialRefund.input.subscriptionDetails :=
  refund_eq_estimate_iff partialRefund_estimate partialRefund_issued

theorem refund_differs :
    (sendAction Sha256.hex partialRefund).outcomeType = .refundIssued ∧
    (runAmounts Sha256.hex partialRefund).estimatedRecoveryCents = some (500 : ℚ) ∧
    (runAmounts Sha256.hex partialRefund).claimedSavingsCents = (1999 : ℚ) ∧
    (runAmounts Sha256.hex partialRefund).claimedSavingsCents ≠ (500 : ℚ) := by
  have hclaimed : (runAmounts Sha256.hex partialRefund).claimedSavingsCents = (1999 : ℚ) := by
    decide +kernel
  refine ⟨partialRefund_issued, partialRefund_estimate, hclaimed, ?_⟩
  rw [hclaimed]
  decide +kernel

end Clawback
