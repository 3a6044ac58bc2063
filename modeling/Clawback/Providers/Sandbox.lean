import Clawback.Agent.Orchestrator
import Clawback.Receipts.Builder

/-!
# The sandbox provider

`SandboxSubscriptionProvider`, a deterministic simulator, and the dollar amounts that it and
the agent read from the text of a case.

* `extract_rendered`: an amount that is rendered as text is read back, below `1e+21` dollars.
* `extract_grouped`: of an amount with grouped digits only the first group is read.
-/

namespace Clawback

open Js

/-! ## The provider -/

/-- `extractAmountCents` -/
def extractAmountCents (text : Str) : Option Int := firstDollarCents text

/-- `parseInt(text, 16)`; `none` is `NaN`. -/
def parseIntHex (text : Str) : Option Int :=
  let trimmed := text.dropWhile isWhiteSpace
  let negative := trimmed.head? == some (unit '-')
  let unsigned := if negative || trimmed.head? == some (unit '+') then trimmed.tail else trimmed
  let digits :=
    if unsigned.take 2 = js "0x" ∨ unsigned.take 2 = js "0X" then unsigned.drop 2 else unsigned
  let values := (digits.map digitValue).takeWhile Option.isSome
  if values = [] then none
  else
    let magnitude : Nat := values.foldl (fun acc d => acc * 16 + d.getD 0) 0
    some (if negative then -magnitude else magnitude)

/-- `bucket < bound`, which is false of `NaN`. -/
def isBelow (bucket : Option Int) (bound : Int) : Bool := bucket.any (· < bound)

/-- `commit({ merchantName, accountIdentifierLast4 }).slice(2, 6)` -/
def seedHex (sha256Hex : Str → Str) (input : SubscriptionCaseInput) : Str :=
  ((commit sha256Hex (.obj [(js "merchantName", .str input.merchantName),
    (js "accountIdentifierLast4", .str input.accountIdentifierLast4)])).take 6).drop 2

/-- `parseInt(seedHex, 16) % 100` -/
def bucket (sha256Hex : Str → Str) (input : SubscriptionCaseInput) : Option Int :=
  (parseIntHex (seedHex sha256Hex input)).map (·.tmod 100)

/-- `extractAmountCents(subscriptionDetails) ?? extractAmountCents(desiredOutcome)` -/
def requestedCents (input : SubscriptionCaseInput) : Option Int :=
  extractAmountCents input.subscriptionDetails <|> extractAmountCents input.desiredOutcome

def refundConfirmation (input : SubscriptionCaseInput) (amount : Int) : Str :=
  js "Sandbox confirmation: \"" ++ input.merchantName ++ js "\" approved a refund of $" ++
    dollarsText amount ++ js " for account ending " ++ input.accountIdentifierLast4 ++ js "."

theorem refundConfirmation_eq (input : SubscriptionCaseInput) (amount : Int) :
    refundConfirmation input amount = js "Sandbox confirmation: \"" ++ input.merchantName ++
      js "\" approved a refund of " ++ js "$" ++ dollarsText amount ++
      (js " for account ending " ++ input.accountIdentifierLast4 ++ js ".") := by
  have hdollar : js "\" approved a refund of $" = js "\" approved a refund of " ++ js "$" := rfl
  rw [refundConfirmation, hdollar]
  simp only [List.append_assoc]

def sendAction (sha256Hex : Str → Str) (request : ProviderActionRequest) :
    ProviderActionResult :=
  let input := request.input
  let bucket := bucket sha256Hex input
  if isBelow bucket 60 then
    let amount := (requestedCents input).getD 999
    { outcomeType := .refundIssued
      counterpartyConfirmation := some (refundConfirmation input amount)
      claimedSavingsCents := amount
      source := .sandbox }
  else if isBelow bucket 85 then
    { outcomeType := .cancelled
      counterpartyConfirmation := some (js "Sandbox confirmation: \"" ++ input.merchantName ++
        js "\" confirmed cancellation for account ending " ++ input.accountIdentifierLast4 ++
        js ". No refund was issued for the current period.")
      claimedSavingsCents := 0
      source := .sandbox }
  else if isBelow bucket 95 then
    { outcomeType := .declined
      counterpartyConfirmation := some (js "Sandbox confirmation: \"" ++ input.merchantName ++
        js "\" declined the request, citing its stated cancellation policy.")
      claimedSavingsCents := 0
      source := .sandbox }
  else
    { outcomeType := .noResponse
      counterpartyConfirmation := none
      claimedSavingsCents := 0
      source := .sandbox }

/-- Refunds are what the first sixty buckets get, and only a refund claims savings. -/
theorem sendAction_claims (sha256Hex : Str → Str) (request : ProviderActionRequest) :
    ((sendAction sha256Hex request).outcomeType = .refundIssued ↔
      isBelow (bucket sha256Hex request.input) 60 = true) ∧
    (sendAction sha256Hex request).claimedSavingsCents =
      if isBelow (bucket sha256Hex request.input) 60 then (requestedCents request.input).getD 999
      else 0 := by
  by_cases hrefund : isBelow (bucket sha256Hex request.input) 60 = true
  · simp [sendAction, hrefund]
  · by_cases hcancel : isBelow (bucket sha256Hex request.input) 85 = true
    · simp [sendAction, hrefund, hcancel]
    · by_cases hdecline : isBelow (bucket sha256Hex request.input) 95 = true <;>
        simp [sendAction, hrefund, hcancel, hdecline]

/-! ## Rendered amounts -/

theorem digitsValue_two {d e : Nat} (hd : d < 10) (he : e < 10) :
    digitsValue [digitUnit d, digitUnit e] = d * 10 + e := by
  simp only [digitsValue, List.foldl_cons, List.foldl_nil, digitUnit_toNat_of_lt_ten hd,
    digitUnit_toNat_of_lt_ten he]
  omega

theorem dollarsText_natCast {c : Nat} (hc : c < 10 ^ 23) :
    dollarsText c = decimalText (c / 100) ++ unit '.' ::
      [digitUnit (c / 10 % 10), digitUnit (c % 10)] := by
  have hnonneg : ¬(c : Int) < 0 := by omega
  rw [dollarsText, if_neg hnonneg, Int.natAbs_natCast, if_pos hc]
  simp [js, charUnits]

/-- What `toFixed(2)` renders with two decimals is read back, whatever follows it. -/
theorem firstDollarCents_dollarsText {c : Nat} (hc : c < 10 ^ 23) {pre : Str}
    (hpre : unit '$' ∉ pre) (suf : Str) :
    firstDollarCents (pre ++ js "$" ++ dollarsText c ++ suf) = some (c : Int) := by
  have htext : pre ++ js "$" ++ dollarsText c ++ suf =
      pre ++ (unit '$' :: (decimalText (c / 100) ++
        (unit '.' :: digitUnit (c / 10 % 10) :: digitUnit (c % 10) :: suf))) := by
    rw [dollarsText_natCast hc]
    simp [js, charUnits]
  have htens : c / 10 % 10 < 10 := Nat.mod_lt _ (by omega)
  have hones : c % 10 < 10 := Nat.mod_lt _ (by omega)
  have hsum : c / 100 * 100 + (c / 10 % 10 * 10 + c % 10) = c := by omega
  rw [htext, firstDollarCents_whole (decimalText_ne_nil _)
    (fun d hd => isDigit_of_mem_decimalText hd) (by rfl) (dollarCents_of_notMem hpre),
    fractionCents_two (isDigit_digitUnit htens) (isDigit_digitUnit hones),
    digitsValue_two htens hones, digitsValue_decimalText, hsum]

/-- Rendering an amount below `1e+21` dollars and reading it again gives the amount: of any text
whose first `$` stands before it, of the outcome of a receipt, and of the confirmation of a
refund by a merchant without `$` in its name. -/
theorem extract_rendered {c : Nat} (hc : c < 10 ^ 23) {pre : Str} (hpre : unit '$' ∉ pre)
    (suf : Str) :
    (extractCents (pre ++ js "$" ++ dollarsText c ++ suf) = some (c : Int) ∧
      extractAmountCents (pre ++ js "$" ++ dollarsText c ++ suf) = some (c : Int)) ∧
    (∀ outcome : OutcomeEvidence, outcome.outcomeType = .refundIssued →
      outcome.claimedSavingsCents = c →
      extractCents (summarizeOutcome outcome ++ suf) = some (c : Int)) ∧
    ∀ input : SubscriptionCaseInput, unit '$' ∉ input.merchantName →
      extractAmountCents (refundConfirmation input c ++ suf) = some (c : Int) := by
  have hread := firstDollarCents_dollarsText hc hpre suf
  refine ⟨⟨hread, hread⟩, fun outcome htype hclaimed => ?_, fun input hname => ?_⟩
  · rw [summarizeOutcome, htype, hclaimed]
    exact firstDollarCents_dollarsText hc (by decide : unit '$' ∉ js "Refund issued: ") suf
  · have hbefore : unit '$' ∉ js "Sandbox confirmation: \"" ++ input.merchantName ++
        js "\" approved a refund of " := by
      simp only [List.mem_append, not_or]
      exact ⟨⟨by decide, hname⟩, by decide⟩
    rw [refundConfirmation_eq, List.append_assoc _ _ suf]
    exact firstDollarCents_dollarsText hc hbefore _

/-- `Refunded $19.99, at last` -/
theorem extract_rendered_sample :
    extractCents (js "Refunded $19.99, at last") = some 1999 :=
  (extract_rendered (c := 1999) (by decide) (by decide : unit '$' ∉ js "Refunded ")
    (js ", at last")).1.1

/-- `1e+21` dollars are read as one dollar. -/
theorem rendered_misread :
    dollarsText (10 ^ 23 : Nat) = js "1e+21" ∧
      extractCents (js "$" ++ dollarsText (10 ^ 23 : Nat)) = some 100 ∧
      extractCents (js "$" ++ dollarsText (10 ^ 23 : Nat)) ≠ some (10 ^ 23 : Nat) ∧
      extractAmountCents (js "$" ++ dollarsText (10 ^ 23 : Nat)) ≠ some (10 ^ 23 : Nat) := by
  decide +kernel

/-- The sandbox names the amount it refunds. -/
theorem refundConfirmation_names (input : SubscriptionCaseInput) {c : Nat} (hc : c < 10 ^ 23) :
    namesAmount (refundConfirmation input c) c = true := by
  have htens : c / 10 % 10 < 10 := Nat.mod_lt _ (by omega)
  have hones : c % 10 < 10 := Nat.mod_lt _ (by omega)
  have hsum : c / 100 * 100 + (c / 10 % 10 * 10 + c % 10) = c := by omega
  have hhead : ∀ u ∈ decimalText (c / 100), isDigit u = true :=
    fun u hu => isDigit_of_mem_decimalText hu
  have hgrouped : isGrouped [decimalText (c / 100)] = true := by
    simpa [isGrouped] using decimalText_ne_nil (c / 100)
  have hfraction : ∀ f ∈ some [digitUnit (c / 10 % 10), digitUnit (c % 10)],
      f.length = 2 ∧ ∀ u ∈ f, isDigit u = true := by
    rintro f ⟨⟩
    simp [isDigit_digitUnit htens, isDigit_digitUnit hones]
  have hvalue : digitsValue (decimalText (c / 100) ++ ([] : List Str).flatten) * 100 +
      digitsValue [digitUnit (c / 10 % 10), digitUnit (c % 10)] = c := by
    rw [List.flatten_nil, List.append_nil, digitsValue_decimalText, digitsValue_two htens hones,
      hsum]
  have hnamed : namesAmount ((js "Sandbox confirmation: \"" ++ input.merchantName ++
      js "\" approved a refund of ") ++ (unit '$' :: numberText (decimalText (c / 100)) []
        (some [digitUnit (c / 10 % 10), digitUnit (c % 10)]) ++
      (js " for account ending " ++ input.accountIdentifierLast4 ++ js "."))) _ = true :=
    namesAmount_numberText hgrouped hhead (by simp) hfraction _ rfl rfl
  rw [Option.elim_some, hvalue] at hnamed
  rw [refundConfirmation_eq, dollarsText_natCast hc]
  simpa [js, charUnits, numberText] using hnamed

/-! ## Grouped amounts -/

/-- An amount of at least one thousand dollars in ordinary notation: `$1,299` or `$1,299.00`. -/
structure GroupedAmount where
  head : Str
  groups : List Str
  cents : Option Str
  head_length : head.length ∈ [1, 2, 3]
  head_digits : ∀ c ∈ head, isDigit c = true
  head_ne_zero : head.head? ≠ some (unit '0')
  groups_ne_nil : groups ≠ []
  groups_digits : ∀ group ∈ groups, group.length = 3 ∧ ∀ c ∈ group, isDigit c = true
  cents_digits : ∀ fraction ∈ cents, fraction.length = 2 ∧ ∀ c ∈ fraction, isDigit c = true

namespace GroupedAmount

def text (a : GroupedAmount) : Str :=
  js "$" ++ a.head ++ (a.groups.map (js "," ++ ·)).flatten ++ a.cents.elim [] (js "." ++ ·)

/-- The amount in cents. -/
def value (a : GroupedAmount) : Nat :=
  digitsValue (a.head ++ a.groups.flatten) * 100 + a.cents.elim 0 digitsValue

end GroupedAmount

theorem digitsValue_append (s t : Str) :
    digitsValue (s ++ t) = digitsValue s * 10 ^ t.length + digitsValue t := by
  induction t using List.reverseRecOn with
  | nil => simp [digitsValue]
  | append_singleton t c ih =>
    have hlast : ∀ u : Str, digitsValue (u ++ [c]) = digitsValue u * 10 + (c.toNat - 48) := by
      intro u
      rw [digitsValue, List.foldl_append]
      rfl
    rw [← List.append_assoc, hlast, hlast, ih, List.length_append, List.length_singleton, pow_succ]
    ring

/-- A digit string that does not start with `0` has a positive value. -/
theorem digitsValue_pos {s : Str} (hne : s ≠ []) (hdigits : ∀ c ∈ s, isDigit c = true)
    (hzero : s.head? ≠ some (unit '0')) : 0 < digitsValue s := by
  obtain ⟨c, rest, rfl⟩ := List.exists_cons_of_ne_nil hne
  have hc : isDigit c = true := hdigits c List.mem_cons_self
  have hne : c.toNat ≠ 48 := by
    intro h
    apply hzero
    rw [List.head?_cons, Option.some.injEq]
    exact UInt16.toNat_inj.mp h
  have hpos : 0 < digitsValue [c] := by
    simp only [isDigit, Bool.and_eq_true, decide_eq_true_eq] at hc
    simp only [digitsValue, List.foldl_cons, List.foldl_nil]
    omega
  rw [← List.singleton_append, digitsValue_append]
  have hscaled : 0 < digitsValue [c] * 10 ^ rest.length := Nat.mul_pos hpos (by positivity)
  omega

namespace GroupedAmount

variable (a : GroupedAmount)

theorem head_ne_nil : a.head ≠ [] := by
  intro h
  have hlength := a.head_length
  rw [h] at hlength
  revert hlength
  decide

theorem head_pos : 0 < digitsValue a.head :=
  digitsValue_pos a.head_ne_nil a.head_digits a.head_ne_zero

theorem three_le_length : 3 ≤ a.groups.flatten.length := by
  obtain ⟨group, rest, hgroups⟩ := List.exists_cons_of_ne_nil a.groups_ne_nil
  have hgroup := (a.groups_digits group (by rw [hgroups]; exact List.mem_cons_self)).1
  rw [hgroups, List.flatten_cons, List.length_append, hgroup]
  omega

/-- The amount is at least a thousand times what its first group is worth. -/
theorem head_le_value : digitsValue a.head * 1000 * 100 ≤ a.value := by
  have hscale : 10 ^ 3 ≤ 10 ^ a.groups.flatten.length :=
    Nat.pow_le_pow_right (by omega) a.three_le_length
  have hhead : digitsValue a.head * 10 ^ 3 ≤ digitsValue (a.head ++ a.groups.flatten) := by
    rw [digitsValue_append]
    exact (Nat.mul_le_mul_left _ hscale).trans (Nat.le_add_right _ _)
  rw [value]
  omega

/-- Up to the first comma the text is a dollar amount of its own. -/
theorem text_eq : ∃ rest, a.text = unit '$' :: (a.head ++ unit ',' :: rest) := by
  obtain ⟨group, rest, hgroups⟩ := List.exists_cons_of_ne_nil a.groups_ne_nil
  refine ⟨group ++ (rest.map (js "," ++ ·)).flatten ++ a.cents.elim [] (js "." ++ ·), ?_⟩
  rw [text, hgroups]
  simp [js, charUnits]

theorem text_eq_numberText : a.text = unit '$' :: numberText a.head a.groups a.cents := by
  simp [text, numberText, js, charUnits]

theorem isGrouped_groups : isGrouped (a.head :: a.groups) = true := by
  have hlength := a.head_length
  have hthree : a.groups.all (·.length == 3) = true :=
    List.all_eq_true.mpr fun g hg => beq_iff_eq.mpr (a.groups_digits g hg).1
  obtain ⟨g, groups, hgroups⟩ := List.exists_cons_of_ne_nil a.groups_ne_nil
  rw [hgroups] at hthree ⊢
  simp only [List.mem_cons, List.not_mem_nil, or_false] at hlength
  simp only [isGrouped, hthree, Bool.and_true, Bool.and_eq_true, decide_eq_true_eq]
  omega

/-- What a reader sees is the whole amount. -/
theorem named (pre : Str) {suf : Str} (hsuf : numeral suf = [])
    (hletter : suf.head?.any isLetter = false) :
    namesAmount (pre ++ (a.text ++ suf)) a.value = true := by
  have hgroups : ∀ g ∈ a.groups, g ≠ [] ∧ ∀ c ∈ g, isDigit c = true := by
    intro g hg
    obtain ⟨hlength, hdigits⟩ := a.groups_digits g hg
    exact ⟨List.ne_nil_of_length_pos (by omega), hdigits⟩
  have hnamed := namesAmount_numberText a.isGrouped_groups a.head_digits hgroups a.cents_digits
    pre hsuf hletter
  rwa [a.text_eq_numberText]

end GroupedAmount

/-- Of a grouped amount only the first group is read: less than what is written, and never
nothing. -/
theorem extract_grouped (a : GroupedAmount) {pre suf : Str}
    (hpre : ∀ t, t ≠ [] → t <:+ pre → dollarCents (t ++ (a.text ++ suf)) = none) :
    (extractCents (pre ++ (a.text ++ suf)) = some (digitsValue a.head * 100 : Nat) ∧
      extractAmountCents (pre ++ (a.text ++ suf)) = some (digitsValue a.head * 100 : Nat)) ∧
    digitsValue a.head * 100 < a.value ∧
    ¬(extractCents (pre ++ (a.text ++ suf)) = some (a.value : Int) ∨
      extractCents (pre ++ (a.text ++ suf)) = none) ∧
    ¬(extractAmountCents (pre ++ (a.text ++ suf)) = some (a.value : Int) ∨
      extractAmountCents (pre ++ (a.text ++ suf)) = none) := by
  obtain ⟨rest, htext⟩ := a.text_eq
  have hread : firstDollarCents (pre ++ (a.text ++ suf)) =
      some ((digitsValue a.head * 100 : Nat) : Int) := by
    rw [htext] at hpre ⊢
    simp only [List.cons_append, List.append_assoc] at hpre ⊢
    rw [firstDollarCents_whole a.head_ne_nil a.head_digits (by rfl) hpre,
      fractionCents_of_ne (by decide), Nat.add_zero]
  have hless : digitsValue a.head * 100 < a.value := by
    have hpos := a.head_pos
    have hvalue := a.head_le_value
    omega
  have hwrong : ¬(firstDollarCents (pre ++ (a.text ++ suf)) = some (a.value : Int) ∨
      firstDollarCents (pre ++ (a.text ++ suf)) = none) := by
    rw [hread]
    simp only [Option.some.injEq, reduceCtorEq, or_false]
    omega
  exact ⟨⟨hread, hread⟩, hless, hwrong, hwrong⟩

/-- `$1,299.00` -/
def grouped1299 : GroupedAmount where
  head := js "1"
  groups := [js "299"]
  cents := some (js "00")
  head_length := by decide
  head_digits := List.all_eq_true.mp (by decide)
  head_ne_zero := by decide
  groups_ne_nil := by decide
  groups_digits := fun group hgroup => by
    rw [List.mem_singleton.mp hgroup]
    exact ⟨rfl, List.all_eq_true.mp (by decide)⟩
  cents_digits := fun fraction hfraction => by
    cases hfraction
    exact ⟨rfl, List.all_eq_true.mp (by decide)⟩

theorem extract_grouped_1299 :
    ¬(extractCents (grouped1299.text ++ js " a year") = some (grouped1299.value : Int) ∨
      extractCents (grouped1299.text ++ js " a year") = none) := by
  have hpre : ∀ t, t ≠ [] → t <:+ ([] : Str) →
      dollarCents (t ++ (grouped1299.text ++ js " a year")) = none :=
    fun t ht hsuffix => absurd (List.suffix_nil.mp hsuffix) ht
  exact (extract_grouped grouped1299 hpre).2.2.1

theorem grouped_misread :
    grouped1299.text = js "$1,299.00" ∧ grouped1299.value = 129900 ∧
      ¬(extractCents (js "$1,299.00") = some 129900 ∨ extractCents (js "$1,299.00") = none) ∧
      ¬(extractAmountCents (js "$1,299.00") = some 129900 ∨
        extractAmountCents (js "$1,299.00") = none) := by
  decide

end Clawback
