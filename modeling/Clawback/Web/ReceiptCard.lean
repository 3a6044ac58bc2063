import Clawback.Web.CaseView
import Clawback.Web.Deployment

/-!
# The card of a receipt

`ReceiptCard`, on the page of a case that has succeeded, and the rows of the report that it loads
when it is asked how the receipt has been verified. The receipt and the report come in two responses,
and approvals that interleave may have left more than one receipt.

* `rows_perm`, `passed_iff_no_failed`: the rows are the checks of the report, and its verdict is that
  no row is marked as failed.
* `card_agrees_with_report`: what the card says of the attestation and of the merchant is what the
  report says.
-/

namespace Clawback

open Js Async

/-! ## The card -/

inductive Tone where
  | signal | gold | neutral
deriving DecidableEq

structure ClaimTier where
  label : Str
  value : Str
  tone : Tone

structure EvidencePill where
  ok : Bool
  text : Str

structure ProofItem where
  proven : Bool
  text : Str

/-- A text, or an amount that is written in dollars. -/
inductive CardText where
  | text (s : Str)
  | dollars (cents : Int)

namespace ReceiptCard

variable (receipt : ClawbackReceipt)

def isSandbox : Bool := receipt.environment == .sandbox

def executionTier : ClaimTier where
  label := js "Execution — 0G Compute attestation"
  value := if receipt.execution.teeAttested then js "Attested" else js "Local / not attested"
  tone := if receipt.execution.teeAttested then .signal else .neutral

def claimTiers : List ClaimTier :=
  [{ label := js "Integrity — commitment chain", value := js "Verified", tone := .signal },
    executionTier receipt,
    { label := js "Financial outcome — did money move?"
      value := if isSandbox receipt then js "Simulated" else js "ReportSent, not corroborated"
      tone := .gold }]

def headline : CardText :=
  if receipt.claimedSavingsCents > 0 then .dollars receipt.claimedSavingsCents
  else .text receipt.outcome

def corroboratedSavings : CardText :=
  if isSandbox receipt then .text (js "Not available in sandbox")
  else match receipt.verifiedSavingsCents with
    | some cents => .dollars cents
    | none => .text (js "Not corroborated")

/-- `Boolean(value)` of a member that may be missing or null -/
def isPresent (value : Option Str) : Bool := value.getD [] != []

def computePill : EvidencePill where
  ok := receipt.execution.teeAttested
  text := if receipt.execution.teeAttested then js "Attested" else js "Not attested"

def storagePill : EvidencePill where
  ok := isPresent receipt.anchor.storageRootHash
  text := if isPresent receipt.anchor.storageRootHash then js "Uploaded" else js "Not configured"

def chainPill : EvidencePill where
  ok := isPresent receipt.anchor.chainTxHash
  text := if isPresent receipt.anchor.chainTxHash then js "Anchored" else js "Not configured"

def proven : List ProofItem :=
  [{ proven := true
     text := js "The commitment chain is internally consistent and independently recomputable." },
    { proven := true
      text := js "Unauthorized access to another owner's case is rejected." },
    { proven := receipt.execution.teeAttested
      text := if receipt.execution.teeAttested then
          js "0G Compute attestation passed for this execution."
        else js "0G Compute was unconfigured for this run — not attested, not claimed to be." },
    { proven := isPresent receipt.anchor.chainTxHash
      text := if isPresent receipt.anchor.chainTxHash then
          js "This receipt's commitment is anchored on 0G Chain."
        else js "This receipt was not anchored on-chain (0G Chain unconfigured for this run)." }]

end ReceiptCard

/-! ## The rows of a report -/

/-- The badge of a row; no check of a report is without a result. -/
inductive Badge where
  | notVerifiable | trustedClaim | verified | failed
deriving DecidableEq

def badgeFor (check : VerificationCheck) : Badge :=
  if check.strength = .notIndependentlyVerifiable then .notVerifiable
  else if check.strength = .trustedClaim then .trustedClaim
  else if check.result then .verified
  else .failed

namespace VerificationReport

variable (report : VerificationReport)

def cryptoChecks : List VerificationCheck :=
  report.checks.filter (·.strength == .cryptographicallyVerifiable)

def otherChecks : List VerificationCheck :=
  report.checks.filter (·.strength != .cryptographicallyVerifiable)

def rows : List VerificationCheck := report.cryptoChecks ++ report.otherChecks

/-- The rows that ask this. -/
def rowsOn (question : Str) : List VerificationCheck :=
  report.rows.filter (·.question == question)

/-- Every check of the report has its row. -/
theorem rows_perm : report.rows.Perm report.checks :=
  List.filter_append_perm _ _

end VerificationReport

section Rows

variable {sha256Hex : Str → Str} {receipt : ClawbackReceipt} {artifacts : Artifacts}

/-- Of the strengths of evidence, the checks use three. -/
theorem strength_of_check {check : VerificationCheck}
    (h : check ∈ verificationChecks sha256Hex receipt artifacts) :
    check.strength = .cryptographicallyVerifiable ∨ check.strength = .trustedClaim ∨
      check.strength = .notIndependentlyVerifiable := by
  simp only [verificationChecks, List.mem_cons, List.not_mem_nil, or_false] at h
  rcases h with rfl | rfl | rfl | rfl | rfl | rfl | rfl | rfl | rfl | rfl
  all_goals first | exact .inl rfl | (dsimp only; split <;> simp)

theorem badgeFor_ne_failed_iff {check : VerificationCheck}
    (h : check ∈ verificationChecks sha256Hex receipt artifacts) :
    badgeFor check ≠ .failed ↔
      (!(check.strength == .cryptographicallyVerifiable) || check.result) = true := by
  unfold badgeFor
  rcases strength_of_check h with hs | hs | hs <;> rw [hs] <;> cases check.result <;> decide

/-- The verdict is that no row is marked as failed. -/
theorem passed_iff_no_failed :
    (verifyReceipt sha256Hex receipt artifacts).allCryptographicChecksPassed = true ↔
      ∀ check ∈ (verifyReceipt sha256Hex receipt artifacts).rows, badgeFor check ≠ .failed := by
  rw [verifyReceipt, List.all_filter, List.all_eq_true]
  refine forall_congr' fun check => ?_
  rw [(VerificationReport.rows_perm _).mem_iff]
  exact imp_congr_right fun hcheck => (badgeFor_ne_failed_iff hcheck).symm

def attestationQuestion : Str :=
  js "Was the sensitive analysis executed inside a TEE-attested path?"

def environmentQuestion : Str :=
  js "Is the environment that produced this outcome disclosed accurately?"

def environmentDetail (environment : Environment) : Str :=
  js "This receipt is explicitly labeled environment=\"" ++ environment.text ++ js "\"."

/-- One check alone asks for what it asks. -/
theorem rowsOn_of_filter {question : Str} {check : VerificationCheck}
    (h : (verificationChecks sha256Hex receipt artifacts).filter (·.question == question) =
      [check]) : (verifyReceipt sha256Hex receipt artifacts).rowsOn question = [check] :=
  List.perm_singleton.mp (h ▸ (VerificationReport.rows_perm _).filter _)

theorem attestation_row : ((verifyReceipt sha256Hex receipt artifacts).rowsOn
    attestationQuestion).map badgeFor =
      [if receipt.execution.teeAttested then .verified else .notVerifiable] := by
  rw [rowsOn_of_filter rfl]
  rw [List.map_singleton, badgeFor]
  cases receipt.execution.teeAttested <;> rfl

theorem environment_row : ((verifyReceipt sha256Hex receipt artifacts).rowsOn
    environmentQuestion).map (·.detail) = [environmentDetail receipt.environment] := by
  rw [rowsOn_of_filter rfl]
  rfl

end Rows

/-! ## The card and the report -/

/-- The receipts of a case say the same of the attestation. -/
theorem sameAttestation_of_receipts {env : Platform} {h : AgentHistory} {w : World}
    (hl : AgentLawful env h w) {t u : Nat} {r r' : CaseRecord} (hst : Stored h t r)
    (hst' : Stored h u r') (hid : r.caseId = r'.caseId) {v v' : ClawbackReceipt}
    (hv : r.receipt = some v) (hv' : r'.receipt = some v') :
    v'.execution.teeAttested = v.execution.teeAttested := by
  obtain ⟨_, a, e, ha, hac, he, hsame, -⟩ := source_of_receipt hl hst hv
  obtain ⟨_, a', e', ha', hac', he', hsame', -⟩ := source_of_receipt hl hst' hv'
  have hcase : a.caseId = a'.caseId := (hac.trans hid).trans hac'.symm
  rw [hsame, hsame', (sameAttestation_of_stored hl ha ha' hcase he he').1]

/-- The card has the receipt of the case, and the report of the page. -/
theorem CaseView.receipt_of_card {view : CaseView} {receipt : ClawbackReceipt}
    {report : Option VerificationReport} {loading : Bool}
    (h : view.content = some (.receipt receipt report loading)) :
    view.report = report ∧ ∃ summary, view.caseData = some summary ∧
      summary.receipt = some receipt := by
  obtain ⟨summary, hdata, hcontent⟩ := Option.map_eq_some_iff.mp h
  refine ⟨?_, summary, hdata, ?_⟩
  all_goals
    split at hcontent
    · cases hcontent
    · split at hcontent
      · split at hcontent <;> cases hcontent
      · cases hcontent
      · cases hcontent
      · cases hcontent
      · split at hcontent
        · rename_i hreceipt
          cases hcontent
          first | rfl | exact hreceipt
        · cases hcontent
      · cases hcontent

section Runs

variable {N : Type} {env : Platform} {getOrchestrator : Except JsError OrchestratorDeps}
  {production : Bool} {isZero : N → Bool}
  {P : Pool (Request N) Effect Effect.Answer JsError World ApiResponse}

/-- A report that has been sent is on a receipt of the case. -/
theorem receipt_of_reportSent {place : Nat → Option Nat}
    {p : Pool Call Effect Effect.Answer JsError World CallResult} {moves : List (Move Call Choice)}
    (hserves : WebServes env getOrchestrator place P p)
    (hrun : (agent env).run (Pool.init World.empty) moves = some p) {c : Str}
    {report : VerificationReport} (hreported : ReportSent P c report) :
    ∃ u r v artifacts, Stored p.history u r ∧ r.caseId = c ∧ r.receipt = some v ∧
      report = verifyReceipt env.sha256Hex v artifacts := by
  obtain ⟨t, reader, response, hanswered, hroute, hbody⟩ := hreported
  have hshown : ¬response.body.IsError := by
    rw [hbody]
    exact id
  obtain ⟨i, k, rest, result, -, hcall, hr, htells, hmakes, -⟩ :=
    call_of_answered hserves hanswered hshown
  rw [hbody] at htells
  obtain rfl : result = _ := htells
  obtain ⟨u, r, hst, rfl, hverify⟩ := report_of_run hrun hcall hr
  obtain ⟨v, artifacts, hv, -, -, -, -, hreport⟩ := verifyRecord_eq_ok hverify
  refine ⟨u, r, v, artifacts, hst, ?_, hv, hreport⟩
  cases hmakes
  cases hroute
  rfl

/-- **The card and its report.** In every run, whichever receipts of the case the two responses are
about: the row on the attestation is marked as verified where the card says that the execution has
been attested, and as not verifiable where it does not; the row on the environment names the one
that the card discloses; and the report passes exactly if none of its rows is marked as failed. -/
theorem card_agrees_with_report {B : Browser N} {moves : List (BrowserMove N)}
    (hrun : Browser.init.run env getOrchestrator production isZero moves = some B)
    {page : OpenPage} (hpage : B.page = some page) {receipt : ClawbackReceipt}
    {report : VerificationReport} {loading : Bool}
    (hcard : page.view.content = some (.receipt receipt (some report) loading)) :
    (report.rowsOn attestationQuestion).map badgeFor =
      [if (ReceiptCard.computePill receipt).ok then .verified else .notVerifiable] ∧
    (report.rowsOn environmentQuestion).map (·.detail) =
      [environmentDetail receipt.environment] ∧
    (report.allCryptographicChecksPassed = true ↔
      ∀ check ∈ report.rows, badgeFor check ≠ .failed) := by
  have hsound := Browser.sound_of_run Browser.sound_init hrun
  obtain ⟨hreport, summary, hdata, hreceipt⟩ := CaseView.receipt_of_card hcard
  obtain ⟨summary', hdata', hcase, u, reader, response, hanswered, hbody⟩ :=
    (hsound.page page hpage).shows
  obtain rfl := Option.some.inj (hdata.symm.trans hdata')
  have hreported := (hsound.page page hpage).reports report hreport
  obtain ⟨moves', hserved⟩ := hsound.served
  obtain ⟨moves'', p, place, hinner, hserves⟩ := calls_of_run hserved
  have hl := (System.run_lawful start_obeys hinner).lawful
  -- the receipt of the card, and the one that the report is on
  obtain ⟨i, r, hst, hid, -, hsummary⟩ :=
    stored_of_shown hserves hinner hanswered (c := summary.caseId) (by rw [shownCase, hbody])
  obtain rfl := hsummary summary hbody
  obtain ⟨j, r', v, artifacts, hst', hid', hv, rfl⟩ :=
    receipt_of_reportSent hserves hinner hreported
  have hsame := sameAttestation_of_receipts hl hst hst' (hcase.trans hid'.symm) hreceipt hv
  obtain ⟨deps, hdeps⟩ : ∃ deps, getOrchestrator = .ok deps := by
    obtain ⟨_, _, _, _, hmade, -⟩ := call_of_answered hserves hanswered (by rw [hbody]; exact id)
    obtain ⟨answer, htask⟩ := hmade.task
    exact htask.deps.imp fun _ h => h.1
  have hall := allWith_of_serves hserves hinner hdeps
  have henvironment : v.environment = receipt.environment :=
    ((environment_of_stored hl hall hst').2 v hv).trans
      ((environment_of_stored hl hall hst).2 receipt hreceipt).symm
  refine ⟨?_, ?_, passed_iff_no_failed⟩
  · rw [attestation_row, hsame]
    rfl
  · rw [environment_row, henvironment]

/-- The page of the sample run asks how the receipt has been verified. -/
def sampleReport : List (BrowserMove Int) :=
  sampleVisit ++ sampleApproval :: sampleSending ++
    [.click .verify (some (js "owner_0")) true, .app (.step 3 .ok), .settle 0 true]

/-- The card on the page, with its report. -/
def OpenPage.card? (page : OpenPage) : Option (ClawbackReceipt × VerificationReport × Bool) :=
  match page.view.content with
  | some (.receipt receipt (some report) loading) => some (receipt, report, loading)
  | _ => none

theorem OpenPage.content_of_card? {page : OpenPage}
    {card : ClawbackReceipt × VerificationReport × Bool} (h : page.card? = some card) :
    page.view.content = some (.receipt card.1 (some card.2.1) card.2.2) := by
  unfold card? at h
  split at h
  · rename_i hcontent
    cases h
    exact hcontent
  · cases h

set_option maxRecDepth 10000 in
/-- In the end of the sample run, the report agrees with the card. -/
theorem card_agrees_with_report_sample : ∃ B page receipt report loading,
    sampleRun .init sampleReport = some B ∧ B.page = some page ∧
    page.view.content = some (.receipt receipt (some report) loading) ∧
    (report.rowsOn attestationQuestion).map badgeFor =
      [if (ReceiptCard.computePill receipt).ok then .verified else .notVerifiable] ∧
    (report.rowsOn environmentQuestion).map (·.detail) =
      [environmentDetail receipt.environment] := by
  have hany : ((sampleRun .init sampleReport).any fun B =>
      B.page.any fun page => page.card?.isSome) = true := by decide +kernel
  obtain ⟨B, hrun, hB⟩ := (Option.any_eq_true _ _).mp hany
  obtain ⟨page, hpage, hsome⟩ := (Option.any_eq_true _ _).mp hB
  obtain ⟨⟨receipt, report, loading⟩, hcard⟩ := Option.isSome_iff_exists.mp hsome
  have hcontent := OpenPage.content_of_card? hcard
  obtain ⟨hattestation, henvironment, -⟩ := card_agrees_with_report hrun hpage hcontent
  exact ⟨B, page, receipt, report, loading, hrun, hpage, hcontent, hattestation, henvironment⟩

end Runs

end Clawback
