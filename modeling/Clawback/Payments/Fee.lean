import Clawback.Shared.Types

/-!
# Contingency fees and settlement

`computeFee` in exact arithmetic, and the bookkeeping of `LocalSettlementLedger` as a
function on its records.
-/

namespace Clawback

open Js Codec

/-- 40% of verified savings -/
def defaultFeeBps : Int := 4000

structure FeeCalculation where
  verifiedSavingsCents : Int
  feeBps : Int
  feeCents : Int
  netToUserCents : Int
deriving DecidableEq, Inhabited

def FeeCalculation.keys : List Str :=
  ["verifiedSavingsCents", "feeBps", "feeCents", "netToUserCents"].map js

theorem FeeCalculation.keys_nodup : FeeCalculation.keys.Nodup := by decide +kernel

instance : Codec Int FeeCalculation where
  toJson a := record FeeCalculation.keys
    [toJson a.verifiedSavingsCents, toJson a.feeBps, toJson a.feeCents, toJson a.netToUserCents]
  ofJson v :=
    match fields FeeCalculation.keys v with
    | some [v1, v2, v3, v4] =>
      FeeCalculation.mk <$> ofJson v1 <*> ofJson v2 <*> ofJson v3 <*> ofJson v4
    | _ => none
  ofJson_toJson a := by
    rw [fields_record FeeCalculation.keys_nodup rfl]
    simp
  uniqueKeys_toJson a := uniqueKeys_record FeeCalculation.keys_nodup rfl (by simp)
  toJson_ne_null _ := by simp [record]

def unverifiedSavingsError : JsError :=
  .error (js "UnverifiedSavingsError")
    (js "Cannot compute a fee against unverified savings. A case must reach " ++
      js "VERIFIED_SUCCESS with a non-null verifiedSavingsCents before any fee is owed.")

/-- `Math.round(numerator / denominator)` for a positive denominator: half is rounded up. -/
def roundedQuotient (numerator denominator : Int) : Int :=
  (2 * numerator + denominator) / (2 * denominator)

def computeFee (verifiedSavingsCents : Option Int) (feeBps : Int) :
    Except JsError FeeCalculation :=
  match verifiedSavingsCents with
  | none => .error unverifiedSavingsError
  | some savings =>
    if savings ≤ 0 then
      .ok { verifiedSavingsCents := savings, feeBps, feeCents := 0, netToUserCents := savings }
    else
      let feeCents := roundedQuotient (savings * feeBps) 10000
      .ok { verifiedSavingsCents := savings, feeBps, feeCents
            netToUserCents := savings - feeCents }

/-- Known savings have a fee. -/
theorem exists_fee (savings feeBps : Int) :
    ∃ fee, computeFee (some savings) feeBps = .ok fee ∧ fee.verifiedSavingsCents = savings := by
  by_cases hsavings : savings ≤ 0
  · exact ⟨_, if_pos hsavings, rfl⟩
  · exact ⟨_, if_neg hsavings, rfl⟩

/-! ## Settlement -/

inductive SettlementStatus where
  | assessed | collected | waived
deriving DecidableEq, Inhabited

def SettlementStatus.text : SettlementStatus → Str
  | assessed => js "assessed"
  | collected => js "collected"
  | waived => js "waived"

instance : Codec Int SettlementStatus :=
  ofTexts SettlementStatus.text [.assessed, .collected, .waived] (by intro a; cases a <;> rfl)

structure SettlementRecord where
  caseId : Str
  fee : FeeCalculation
  status : SettlementStatus
  assessedAt : Str
  collectedAt : Option Str
deriving DecidableEq, Inhabited

def SettlementRecord.keys : List Str :=
  ["caseId", "fee", "status", "assessedAt", "collectedAt"].map js

theorem SettlementRecord.keys_nodup : SettlementRecord.keys.Nodup := by decide +kernel

instance : Codec Int SettlementRecord where
  toJson a := record SettlementRecord.keys
    [toJson a.caseId, toJson a.fee, toJson a.status, toJson a.assessedAt,
      optionToJson a.collectedAt]
  ofJson v :=
    match fields SettlementRecord.keys v with
    | some [v1, v2, v3, v4, v5] =>
      SettlementRecord.mk <$> ofJson v1 <*> ofJson v2 <*> ofJson v3 <*> ofJson v4 <*>
        optionOfJson v5
    | _ => none
  ofJson_toJson a := by
    rw [fields_record SettlementRecord.keys_nodup rfl]
    simp
  uniqueKeys_toJson a := uniqueKeys_record SettlementRecord.keys_nodup rfl (by simp)
  toJson_ne_null _ := by simp [record]

/-- The record `assessFee` puts into the ledger. -/
def assessedRecord (caseId : Str) (fee : FeeCalculation) (now : Str) : SettlementRecord where
  caseId
  fee
  status := if fee.feeCents = 0 then .waived else .assessed
  assessedAt := now
  collectedAt := none

end Clawback
