import Clawback.Web.Viewers

/-!
# The page of a case

`CaseView`, the page on which a case is looked at, approved, rejected and verified, in a browser that
shares the app with any number of others. Several of its requests may be under way, and a request or
its response may get lost.

* `stepIndex_le_of_applyTransition`: no move of the case leads back in the lifecycle.
* `page_keeps_case`: the page shows the case that it has been opened for, as a response has told it.
* `sent_is_displayed`: what the page makes the app send has stood on the page.
-/

namespace Clawback

open Js Async

/-! ## The lifecycle -/

/-- `STEPS` of the stepper -/
def lifecycleSteps : List (Str × List CaseState) :=
  [(js "Case", [.draft, .submitted]),
    (js "Private analysis", [.analyzing]),
    (js "Proposed action", [.actionProposed]),
    (js "Your approval", [.awaitingApproval, .approved]),
    (js "Execution", [.executing]),
    (js "Outcome",
      [.outcomePending, .executionFailed, .outcomeUnverified, .rejected, .expired]),
    (js "Receipt", [.verifiedSuccess])]

/-- `FAILED_STATES` -/
def failedStates : List CaseState := [.executionFailed, .outcomeUnverified, .rejected, .expired]

inductive StepStatus where
  | done | current | upcoming | failed
deriving DecidableEq

/-- `STEPS.findIndex((s) => s.states.includes(current))`; `none` is -1. -/
def stepIndex (current : CaseState) : Option Nat :=
  lifecycleSteps.findIdx? fun step => step.2.contains current

/-- The status of the step `i`. -/
def stepStatus (current : Option CaseState) (i : Nat) : StepStatus :=
  match current.bind stepIndex with
  | some currentIndex =>
    if i < currentIndex then .done
    else if i = currentIndex then
      if current.any failedStates.contains then .failed else .current
    else .upcoming
  | none => .upcoming

/-- Every state belongs to exactly one step. -/
theorem step_unique (state : CaseState) :
    (lifecycleSteps.filter fun step => step.2.contains state).length = 1 := by
  cases state <;> rfl

/-- No move of the case leads back in the lifecycle. -/
theorem stepIndex_le_of_applyTransition {source next : CaseState} {event : CaseEvent}
    (h : applyTransition source event = .ok next) :
    ∃ i j, stepIndex source = some i ∧ stepIndex next = some j ∧ i ≤ j := by
  cases source <;> cases event <;> cases h <;> exact ⟨_, _, rfl, rfl, by decide⟩

/-- The step of a case is shown as failed where the case has ended without a receipt. -/
theorem stepStatus_eq_failed_iff {state : CaseState} {i : Nat} :
    stepStatus (some state) i = .failed ↔
      stepIndex state = some i ∧ isTerminal state = true ∧ state ≠ .verifiedSuccess := by
  have hfailed : failedStates.contains state = true ↔
      isTerminal state = true ∧ state ≠ .verifiedSuccess := by
    cases state <;> decide
  obtain ⟨index, hindex⟩ : ∃ index, stepIndex state = some index := by
    cases state <;> exact ⟨_, rfl⟩
  unfold stepStatus
  rw [Option.bind_some, hindex, Option.some.injEq, ← hfailed]
  dsimp only [Option.any_some]
  by_cases hbefore : i < index
  · rw [if_pos hbefore]
    exact iff_of_false nofun fun h => Nat.ne_of_gt hbefore h.1
  by_cases hhere : i = index
  · rw [if_neg hbefore, if_pos hhere]
    split
    · rename_i hin
      exact iff_of_true rfl ⟨hhere.symm, hin⟩
    · rename_i hnot
      exact iff_of_false nofun fun h => hnot h.2
  · rw [if_neg hbefore, if_neg hhere]
    exact iff_of_false nofun fun h => hhere h.1.symm

/-! ## The page -/

/-- The state of `CaseView`; `caseData` is `none` where it is `undefined`. -/
structure CaseView where
  caseData : Option CaseSummary
  executing : Bool
  error : Option Str
  report : Option VerificationReport
  loadingReport : Bool

/-- What stands on the page under the lifecycle. -/
inductive CaseContent where
  | executing
  | review (proposal : ActionProposal) (error : Option Str)
  | closed
  | noResponse (message : Str) (state : CaseState)
  | receipt (receipt : ClawbackReceipt) (report : Option VerificationReport) (loading : Bool)
  | working (state : CaseState)
  | nothing

/-- What the page asks of the app. -/
inductive Click where
  | approve | reject | verify
deriving DecidableEq

namespace CaseView

def initial (initialCase : CaseSummary) : CaseView where
  caseData := some initialCase
  executing := false
  error := none
  report := none
  loadingReport := false

def isReceiptView (c : CaseSummary) : Bool := c.state == .verifiedSuccess && c.receipt.isSome

/-- `caseData.outcome?.outcomeType === "no_response"` -/
def noResponseMessage (c : CaseSummary) : Str :=
  if c.outcome.any (·.outcomeType == .noResponse) then
    js "The counterparty didn't respond within this case's window. No fee was charged — " ++
      js "Clawback never charges against an unconfirmed outcome."
  else js "The request didn't complete successfully."

variable (view : CaseView)

/-- What the lifecycle shows as current; `none` is a page without it, whose receipt has its own. -/
def lifecycle (c : CaseSummary) : Option CaseState :=
  if isReceiptView c then none else some (if view.executing then .executing else c.state)

/-- A page whose `caseData` is `undefined` cannot be rendered. -/
def content : Option CaseContent :=
  view.caseData.map fun c =>
    if view.executing then .executing
    else match c.state with
      | .awaitingApproval =>
        match c.proposal with
        | some proposal => .review proposal view.error
        | none => .nothing
      | .rejected => .closed
      | .executionFailed | .outcomeUnverified => .noResponse (noResponseMessage c) c.state
      | .verifiedSuccess =>
        match c.receipt with
        | some receipt => .receipt receipt view.report view.loadingReport
        | none => .working c.state
      | state => .working state

/-- The buttons that the page has, and the details that load the report when they are opened. -/
def offers (c : Click) : Bool :=
  match c, view.content with
  | .approve, some (.review _ _) | .reject, some (.review _ _) => true
  | .verify, some (.receipt _ report _) => report.isNone
  | _, _ => false

/-- What is asked. -/
def route {N : Type} : Click → Option (Route N)
  | .approve => do
    let c ← view.caseData
    let proposal ← c.proposal
    return .postApproval c.caseId (.ok (.obj [(js "proposalId", .str proposal.proposalId)]))
  | .reject => view.caseData.map fun c => .postRejection c.caseId
  | .verify => view.caseData.map fun c => .getReport c.caseId

/-- Before the response. -/
def clicked : Click → CaseView
  | .approve => { view with error := none, executing := true }
  | .reject => { view with error := none }
  | .verify => { view with loadingReport := true }

end CaseView

namespace ApiBody

/-- `data.case` -/
def case? : ApiBody → Option CaseSummary
  | .response (.case summary) => some summary
  | _ => none

/-- `data.report` -/
def report? : ApiBody → Option VerificationReport
  | .report verified => some verified
  | _ => none

/-- `data.error ?? "Something went wrong."` -/
def errorText : ApiBody → Str
  | .response (.error error) => error
  | .response (.failure error _) => error
  | _ => js "Something went wrong."

end ApiBody

/-- After the response; `none` is a request that has not got through, or a response that is no
JSON. -/
def CaseView.settled (view : CaseView) : Click → Option ApiResponse → CaseView
  | .approve, some response =>
    if response.isOk then { view with caseData := response.body.case?, executing := false }
    else { view with error := some response.body.errorText, executing := false }
  | .approve, none =>
    { view with error := some (js "Couldn't reach Clawback. Try again."), executing := false }
  | .reject, some response =>
    if response.isOk then { view with caseData := response.body.case? }
    else { view with error := some response.body.errorText }
  | .reject, none => view
  | .verify, some response =>
    if response.isOk then { view with report := response.body.report?, loadingReport := false }
    else { view with loadingReport := false }
  | .verify, none => { view with loadingReport := false }

/-! ## The browser -/

section Requests

variable {N : Type}

/-- The app after a request, which may not get there. -/
def sendTo (env : Platform) (getOrchestrator : Except JsError OrchestratorDeps)
    (production : Bool) (isZero : N → Bool)
    (P : Pool (Request N) Effect Effect.Answer JsError World ApiResponse) (request : Request N)
    (arrives : Bool) : Option (Pool (Request N) Effect Effect.Answer JsError World ApiResponse) :=
  if arrives then (webApp env getOrchestrator production isZero).apply P (.call request)
  else some P

/-- The number of the request, if it gets to the app. -/
def placeIn (P : Pool (Request N) Effect Effect.Answer JsError World ApiResponse)
    (arrives : Bool) : Option Nat :=
  if arrives then some P.threads.length else none

/-- The response to a request, which may not get back. -/
def receiveFrom (P : Pool (Request N) Effect Effect.Answer JsError World ApiResponse)
    (place : Option Nat) (returns : Bool) : Option (Option ApiResponse) :=
  if returns then (place.bind (responseOf P)).map fun answer => some answer.2 else some none

end Requests

/-- The page at `/cases/[caseId]`, and its requests that are under way: what they are for, and their
number if they have got to the app. -/
structure OpenPage where
  caseId : Str
  view : CaseView
  pending : List (Click × Option Nat)

structure Browser (N : Type) where
  app : Pool (Request N) Effect Effect.Answer JsError World ApiResponse
  page : Option OpenPage

inductive BrowserMove (N : Type) where
  /-- a request of another page or browser, or a step of the app -/
  | app (m : Move (Request N) Choice)
  /-- the page is rendered, as the request `t` has been answered -/
  | visit (t : Nat)
  /-- `cookie` is what the browser sends; the request may not get to the app -/
  | click (c : Click) (cookie : Option Str) (arrives : Bool)
  /-- a request of the page has been answered, or is given up -/
  | settle (i : Nat) (returns : Bool)

section Moves

variable {N : Type} (env : Platform) (getOrchestrator : Except JsError OrchestratorDeps)
  (production : Bool) (isZero : N → Bool)

namespace Browser

def init : Browser N := ⟨Pool.init World.empty, none⟩

/-- A page asks for what it offers. -/
def click (B : Browser N) (c : Click) (cookie : Option Str) (arrives : Bool) :
    Option (Browser N) := do
  let page ← B.page
  let route ← page.view.route c
  if page.view.offers c then
    let app ← sendTo env getOrchestrator production isZero B.app { cookie, route } arrives
    let view := page.view.clicked c
    let pending := page.pending ++ [(c, placeIn B.app arrives)]
    return { app, page := some { page with view, pending } }
  else none

def settle (B : Browser N) (i : Nat) (returns : Bool) : Option (Browser N) := do
  let page ← B.page
  let (c, place) ← page.pending[i]?
  let response ← receiveFrom B.app place returns
  let view := page.view.settled c response
  return { B with page := some { page with view, pending := page.pending.eraseIdx i } }

/-- The browser after a move; `none` when the move is not possible. -/
def apply (B : Browser N) : BrowserMove N → Option (Browser N)
  | .app m => ((webApp env getOrchestrator production isZero).apply B.app m).map fun app =>
    { B with app }
  | .visit t =>
    match responseOf B.app t with
    | some (⟨_, .getCase caseId⟩, ⟨_, .response (.case summary), _⟩) =>
      some { B with page := some { caseId, view := .initial summary, pending := [] } }
    | _ => none
  | .click c cookie arrives => B.click env getOrchestrator production isZero c cookie arrives
  | .settle i returns => B.settle i returns

def run (B : Browser N) : List (BrowserMove N) → Option (Browser N)
  | [] => some B
  | m :: moves => (B.apply env getOrchestrator production isZero m).bind fun B' => run B' moves

end Browser

end Moves

theorem ApiBody.eq_of_report? {body : ApiBody} {report : VerificationReport}
    (h : body.report? = some report) : body = .report report := by
  cases body with
  | response body => cases h
  | report verified =>
    cases h
    rfl

/-! ## What the app answers -/

section Answers

variable {N : Type} {env : Platform} {getOrchestrator : Except JsError OrchestratorDeps}
  {production : Bool} {isZero : N → Bool}
  {P P' : Pool (Request N) Effect Effect.Answer JsError World ApiResponse}

/-- The app has come to this. -/
def Served (env : Platform) (getOrchestrator : Except JsError OrchestratorDeps)
    (production : Bool) (isZero : N → Bool)
    (P : Pool (Request N) Effect Effect.Answer JsError World ApiResponse) : Prop :=
  ∃ moves, (webApp env getOrchestrator production isZero).run (Pool.init World.empty) moves =
    some P

/-- The app has stayed as it is, or has made a move. -/
inductive Onward (env : Platform) (getOrchestrator : Except JsError OrchestratorDeps)
    (production : Bool) (isZero : N → Bool)
    (P : Pool (Request N) Effect Effect.Answer JsError World ApiResponse) :
    Pool (Request N) Effect Effect.Answer JsError World ApiResponse → Prop
  | refl : Onward env getOrchestrator production isZero P P
  | move {m P'} : (webApp env getOrchestrator production isZero).apply P m = some P' →
    Onward env getOrchestrator production isZero P P'

theorem Served.onward (h : Served env getOrchestrator production isZero P)
    (hnext : Onward env getOrchestrator production isZero P P') :
    Served env getOrchestrator production isZero P' := by
  cases hnext with
  | refl => exact h
  | @move m _ happly =>
    obtain ⟨moves, hrun⟩ := h
    refine ⟨moves ++ [m], System.run_append hrun ?_⟩
    rw [System.run, happly]
    rfl

/-- A request stays where it is, and so does its response. -/
theorem thread_of_onward (hnext : Onward env getOrchestrator production isZero P P') {t : Nat}
    {request : Request N} {prog : Action ApiResponse} (h : P.threads[t]? = some (request, prog)) :
    ∃ prog', P'.threads[t]? = some (request, prog') ∧
      ∀ response, prog.result? = some response → prog' = prog := by
  cases hnext with
  | refl => exact ⟨prog, h, fun _ _ => rfl⟩
  | move happly => exact System.thread_of_apply happly h

theorem Responded.onward {t : Nat} {request : Request N} {response : ApiResponse}
    (h : Responded P t request response)
    (hnext : Onward env getOrchestrator production isZero P P') :
    Responded P' t request response := by
  obtain ⟨prog, hthread, hresult⟩ := h
  obtain ⟨prog', hthread', hsame⟩ := thread_of_onward hnext hthread
  obtain rfl := hsame _ hresult
  exact ⟨prog', hthread', hresult⟩

/-- The summary has been sent to a browser. -/
def Shown (P : Pool (Request N) Effect Effect.Answer JsError World ApiResponse)
    (summary : CaseSummary) : Prop :=
  ∃ u reader response, Responded P u reader response ∧ response.body = .response (.case summary)

theorem Shown.onward {summary : CaseSummary} (h : Shown P summary)
    (hnext : Onward env getOrchestrator production isZero P P') : Shown P' summary := by
  obtain ⟨u, reader, response, hresponded, hbody⟩ := h
  exact ⟨u, reader, response, hresponded.onward hnext, hbody⟩

/-- The report on the case has been sent to a browser. -/
def ReportSent (P : Pool (Request N) Effect Effect.Answer JsError World ApiResponse)
    (caseId : Str) (report : VerificationReport) : Prop :=
  ∃ u reader response, Responded P u reader response ∧ reader.route = .getReport caseId ∧
    response.body = .report report

theorem ReportSent.onward {caseId : Str} {report : VerificationReport}
    (h : ReportSent P caseId report)
    (hnext : Onward env getOrchestrator production isZero P P') : ReportSent P' caseId report := by
  obtain ⟨u, reader, response, hresponded, hroute, hbody⟩ := h
  exact ⟨u, reader, response, hresponded.onward hnext, hroute, hbody⟩

theorem onward_of_sendTo {request : Request N} {arrives : Bool}
    (h : sendTo env getOrchestrator production isZero P request arrives = some P') :
    Onward env getOrchestrator production isZero P P' := by
  cases arrives with
  | true => exact .move (m := .call request) h
  | false => exact Option.some.inj h ▸ .refl

/-- A request that gets to the app is where it is expected. -/
theorem thread_of_sendTo {request : Request N} {arrives : Bool}
    (h : sendTo env getOrchestrator production isZero P request arrives = some P') {t : Nat}
    (ht : placeIn P arrives = some t) : ∃ prog, P'.threads[t]? = some (request, prog) := by
  cases arrives with
  | true =>
    cases ht
    obtain rfl := System.apply_call h
    exact ⟨_, List.getElem?_concat_length ..⟩
  | false => cases ht

theorem responded_of_receiveFrom {place : Option Nat} {returns : Bool} {response : ApiResponse}
    (h : receiveFrom P place returns = some (some response)) :
    ∃ t request, place = some t ∧ Responded P t request response := by
  cases returns with
  | true =>
    obtain ⟨⟨request, r⟩, hanswer, ⟨⟩⟩ := Option.map_eq_some_iff.mp h
    obtain ⟨t, ht, hanswer⟩ := Option.bind_eq_some_iff.mp hanswer
    exact ⟨t, request, ht, responded_of_responseOf hanswer⟩
  | false => cases h

/-- The route is about the case, and is answered with its summary. -/
inductive Route.Summarizes (caseId : Str) : Route N → Prop
  | look : Summarizes caseId (.getCase caseId)
  | approve {body} : Summarizes caseId (.postApproval caseId body)
  | reject : Summarizes caseId (.postRejection caseId)

/-- What is no error is the summary of the case that has been asked for. -/
theorem case_of_answered (hserved : Served env getOrchestrator production isZero P) {t : Nat}
    {request : Request N} {response : ApiResponse} (hanswered : Responded P t request response)
    (hbody : ¬response.body.IsError) {caseId : Str} (hroute : request.route.Summarizes caseId) :
    ∃ summary, response.body = .response (.case summary) ∧ summary.caseId = caseId := by
  obtain ⟨moves, hrun⟩ := hserved
  obtain ⟨moves', p, place, hinner, hserves⟩ := calls_of_run hrun
  obtain ⟨i, k, rest, r, -, hcall, hr, htells, hmakes, -⟩ :=
    call_of_answered hserves hanswered hbody
  have hnamed : ∃ ownerId, k.named = some (caseId, ownerId) ∧
      k ≠ .verifyCaseReceipt caseId ownerId := by
    obtain ⟨cookie, route⟩ := request
    cases hroute <;> cases hmakes <;> exact ⟨_, rfl, nofun⟩
  obtain ⟨ownerId, hnamed, hnot⟩ := hnamed
  cases hanswer : response.body with
  | response body =>
    rw [hanswer] at htells hbody
    cases body with
    | case summary =>
      obtain rfl : r = _ := htells
      obtain ⟨u, record, -, rfl, -, hcase⟩ := summary_of_run hinner hcall hr
      exact ⟨_, rfl, hcase caseId ownerId hnamed⟩
    | error _ | failure _ _ => exact absurd trivial hbody
  | report report =>
    rw [hanswer] at htells
    obtain rfl : r = _ := htells
    obtain ⟨u, record, -, rfl, -⟩ := report_of_run hinner hcall hr
    cases hnamed
    exact absurd rfl hnot

/-- A response that is `ok` is no error. -/
theorem not_isError_of_ok (hserved : Served env getOrchestrator production isZero P) {t : Nat}
    {request : Request N} {response : ApiResponse} (hanswered : Responded P t request response)
    (hok : response.isOk = true) : ¬response.body.IsError := by
  obtain ⟨moves, hrun⟩ := hserved
  obtain ⟨moves', p, place, hinner, hserves⟩ := calls_of_run hrun
  obtain ⟨prog, hthread, hresult⟩ := hanswered
  rcases (hserves.stands t request prog hthread).result hresult with ⟨-, ⟨x, hx⟩ | hdone⟩ | hcalled
  · cases hx
  · obtain ⟨response', heq, hrefused⟩ := hdone
    cases heq
    rw [hrefused.not_ok] at hok
    cases hok
  · obtain ⟨k, answer, i, rest, r, -, -, htask, -, -, heq, -⟩ := hcalled
    intro herror
    rw [htask.honest r response heq.symm herror] at hok
    cases hok

end Answers

/-! ## The case of the page -/

section Pages

variable {N : Type} {env : Platform} {getOrchestrator : Except JsError OrchestratorDeps}
  {production : Bool} {isZero : N → Bool}
  {P P' : Pool (Request N) Effect Effect.Answer JsError World ApiResponse}

/-- What the page of a case asks for with a click. -/
inductive Click.Asks (caseId : Str) : Click → Route N → Prop
  | approve {body} : Asks caseId .approve (.postApproval caseId body)
  | reject : Asks caseId .reject (.postRejection caseId)
  | verify : Asks caseId .verify (.getReport caseId)

theorem Click.Asks.summarizes {caseId : Str} {c : Click} {route : Route N}
    (h : c.Asks caseId route) (hc : c ≠ .verify) : route.Summarizes caseId := by
  cases h with
  | approve => exact .approve
  | reject => exact .reject
  | verify => exact absurd rfl hc

theorem Click.Asks.verifies {caseId : Str} {route : Route N} (h : Click.verify.Asks caseId route) :
    route = .getReport caseId := by
  cases h
  rfl

/-- Only the approval asks for an approval. -/
theorem Click.Asks.approves {caseId caseId' : Str} {body : Except JsError (Json N)} {c : Click}
    (h : c.Asks caseId (.postApproval caseId' body)) : c = .approve ∧ caseId' = caseId := by
  cases h
  exact ⟨rfl, rfl⟩

theorem CaseView.asks_of_route {view : CaseView} {summary : CaseSummary}
    (hdata : view.caseData = some summary) {c : Click} {route : Route N}
    (hroute : view.route c = some route) : c.Asks summary.caseId route := by
  cases c with
  | approve =>
    rw [CaseView.route, hdata] at hroute
    obtain ⟨_, ⟨⟩, hroute⟩ := Option.bind_eq_some_iff.mp hroute
    obtain ⟨proposal, -, ⟨⟩⟩ := Option.bind_eq_some_iff.mp hroute
    exact .approve
  | reject =>
    rw [CaseView.route, hdata] at hroute
    cases hroute
    exact .reject
  | verify =>
    rw [CaseView.route, hdata] at hroute
    cases hroute
    exact .verify

/-- The request has been made by a click on the page of the case. -/
def Asking (P : Pool (Request N) Effect Effect.Answer JsError World ApiResponse) (caseId : Str)
    (c : Click) (t : Nat) : Prop :=
  ∃ request prog, P.threads[t]? = some (request, prog) ∧ c.Asks caseId request.route

theorem Asking.onward {caseId : Str} {c : Click} {t : Nat} (h : Asking P caseId c t)
    (hnext : Onward env getOrchestrator production isZero P P') : Asking P' caseId c t := by
  obtain ⟨request, prog, hthread, hasks⟩ := h
  obtain ⟨prog', hthread', -⟩ := thread_of_onward hnext hthread
  exact ⟨request, prog', hthread', hasks⟩

/-- A click is answered by the response to what it asks for. -/
theorem Asking.asks {caseId : Str} {c : Click} {t : Nat} (h : Asking P caseId c t)
    {request : Request N} {response : ApiResponse} (hanswered : Responded P t request response) :
    c.Asks caseId request.route := by
  obtain ⟨request', prog, hthread, hasks⟩ := h
  obtain ⟨prog', hthread', -⟩ := hanswered
  rw [hthread] at hthread'
  cases hthread'
  exact hasks

/-- The case data and the report are of the case, as responses have shown them, and what may take
their place will be. -/
structure OpenPage.Sound (P : Pool (Request N) Effect Effect.Answer JsError World ApiResponse)
    (page : OpenPage) : Prop where
  shows : ∃ summary, page.view.caseData = some summary ∧ summary.caseId = page.caseId ∧
    Shown P summary
  reports : ∀ report, page.view.report = some report → ReportSent P page.caseId report
  asked : ∀ c t, (c, some t) ∈ page.pending → Asking P page.caseId c t

theorem OpenPage.Sound.onward {page : OpenPage} (h : page.Sound P)
    (hnext : Onward env getOrchestrator production isZero P P') : page.Sound P' := by
  obtain ⟨summary, hdata, hcase, hshown⟩ := h.shows
  exact ⟨⟨summary, hdata, hcase, hshown.onward hnext⟩,
    fun report hreport => (h.reports report hreport).onward hnext,
    fun c t hpending => (h.asked c t hpending).onward hnext⟩

/-- The case data change with a response that is `ok`. -/
theorem CaseView.settled_caseData (view : CaseView) (c : Click) (response : Option ApiResponse) :
    (view.settled c response).caseData = view.caseData ∨
      ∃ r, response = some r ∧ r.isOk = true ∧ c ≠ .verify ∧
        (view.settled c response).caseData = r.body.case? := by
  cases response with
  | none => cases c <;> exact .inl rfl
  | some r =>
    by_cases hok : r.isOk = true
    · cases c with
      | approve => exact .inr ⟨r, rfl, hok, nofun, by rw [settled, if_pos hok]⟩
      | reject => exact .inr ⟨r, rfl, hok, nofun, by rw [settled, if_pos hok]⟩
      | verify => exact .inl (by rw [settled, if_pos hok])
    · cases c <;> exact .inl (by rw [settled, if_neg hok])

/-- The report changes with a response to what has asked for it. -/
theorem CaseView.settled_report (view : CaseView) (c : Click) (response : Option ApiResponse) :
    (view.settled c response).report = view.report ∨
      ∃ r, response = some r ∧ c = .verify ∧ (view.settled c response).report = r.body.report? := by
  cases response with
  | none => cases c <;> exact .inl rfl
  | some r =>
    by_cases hok : r.isOk = true
    · cases c with
      | approve => exact .inl (by rw [settled, if_pos hok])
      | reject => exact .inl (by rw [settled, if_pos hok])
      | verify => exact .inr ⟨r, rfl, rfl, by rw [settled, if_pos hok]⟩
    · cases c <;> exact .inl (by rw [settled, if_neg hok])

/-- The app has come to its state in a run, and an open page is about its case. -/
structure Browser.Sound (env : Platform) (getOrchestrator : Except JsError OrchestratorDeps)
    (production : Bool) (isZero : N → Bool) (B : Browser N) : Prop where
  served : Served env getOrchestrator production isZero B.app
  page : ∀ page, B.page = some page → page.Sound B.app

variable {B B' : Browser N}

theorem Browser.sound_init : Sound env getOrchestrator production isZero init where
  served := ⟨[], rfl⟩
  page _ := nofun

theorem Browser.Sound.app (h : B.Sound env getOrchestrator production isZero)
    (hnext : Onward env getOrchestrator production isZero B.app P') :
    Sound env getOrchestrator production isZero { B with app := P' } where
  served := h.served.onward hnext
  page page hpage := (h.page page hpage).onward hnext

theorem Browser.Sound.visit {t : Nat} {request : Request N} {response : ApiResponse}
    {caseId : Str} {summary : CaseSummary} (h : B.Sound env getOrchestrator production isZero)
    (hanswer : responseOf B.app t = some (request, response))
    (hroute : request.route = .getCase caseId)
    (hbody : response.body = .response (.case summary)) :
    Sound env getOrchestrator production isZero
      { B with page := some { caseId, view := .initial summary, pending := [] } } where
  served := h.served
  page := by
    rintro page ⟨⟩
    have hanswered := responded_of_responseOf hanswer
    obtain ⟨summary', hbody', hcase⟩ := case_of_answered h.served hanswered
      (by rw [hbody]; exact id) (hroute ▸ Route.Summarizes.look)
    obtain rfl : summary = summary' := by
      rw [hbody] at hbody'
      cases hbody'
      rfl
    exact ⟨⟨summary, rfl, hcase, t, request, response, hanswered, hbody⟩, nofun, nofun⟩

/-- The requests of a page are those of its clicks. -/
theorem mem_pending_of_clicked {pending : List (Click × Option Nat)} {c c' : Click}
    {place : Option Nat} {t : Nat} (h : (c', some t) ∈ pending ++ [(c, place)]) :
    (c', some t) ∈ pending ∨ c' = c ∧ place = some t := by
  rcases List.mem_append.mp h with hold | hnew
  · exact .inl hold
  · obtain ⟨rfl, rfl⟩ := Prod.mk.inj (List.mem_singleton.mp hnew)
    exact .inr ⟨rfl, rfl⟩

/-- What a click comes to. -/
theorem Browser.click_spec {c : Click} {cookie : Option Str} {arrives : Bool}
    (h : B.click env getOrchestrator production isZero c cookie arrives = some B') :
    ∃ page route, B.page = some page ∧ page.view.route c = some route ∧
      page.view.offers c = true ∧ B'.page = some { page with
        view := page.view.clicked c, pending := page.pending ++ [(c, placeIn B.app arrives)] } ∧
      sendTo env getOrchestrator production isZero B.app { cookie, route } arrives =
        some B'.app := by
  obtain ⟨page, hpage, h⟩ := Option.bind_eq_some_iff.mp h
  obtain ⟨route, hroute, h⟩ := Option.bind_eq_some_iff.mp h
  split at h
  · rename_i hoffers
    obtain ⟨app, happ, ⟨⟩⟩ := Option.bind_eq_some_iff.mp h
    exact ⟨page, route, hpage, hroute, hoffers, rfl, happ⟩
  · cases h

theorem CaseView.clicked_caseData (view : CaseView) (c : Click) :
    (view.clicked c).caseData = view.caseData := by
  cases c <;> rfl

theorem CaseView.clicked_report (view : CaseView) (c : Click) :
    (view.clicked c).report = view.report := by
  cases c <;> rfl

theorem Browser.Sound.click {c : Click} {cookie : Option Str} {arrives : Bool}
    (h : B.Sound env getOrchestrator production isZero)
    (hclick : B.click env getOrchestrator production isZero c cookie arrives = some B') :
    B'.Sound env getOrchestrator production isZero := by
  obtain ⟨page, route, hpage, hroute, -, hpage', happ⟩ := click_spec hclick
  have hnext := onward_of_sendTo happ
  have hsound := h.page page hpage
  obtain ⟨summary, hdata, hcase, hshown⟩ := hsound.shows
  refine ⟨h.served.onward hnext, fun page' heq => ?_⟩
  obtain rfl := Option.some.inj (hpage'.symm.trans heq)
  refine ⟨⟨summary, (page.view.clicked_caseData c).trans hdata, hcase, hshown.onward hnext⟩,
    fun report hreport => ?_, fun c' t hpending => ?_⟩
  · rw [CaseView.clicked_report] at hreport
    exact (hsound.reports report hreport).onward hnext
  · rcases mem_pending_of_clicked hpending with hold | ⟨rfl, ht⟩
    · exact (hsound.asked c' t hold).onward hnext
    · obtain ⟨prog, hthread⟩ := thread_of_sendTo happ ht
      exact ⟨_, prog, hthread, hcase ▸ CaseView.asks_of_route hdata hroute⟩

/-- What a request is settled with. -/
theorem Browser.settle_spec {i : Nat} {returns : Bool} (h : B.settle i returns = some B') :
    ∃ page c place response, B.page = some page ∧ (c, place) ∈ page.pending ∧
      receiveFrom B.app place returns = some response ∧
      B' = { B with page := some { page with
        view := page.view.settled c response, pending := page.pending.eraseIdx i } } := by
  obtain ⟨page, hpage, h⟩ := Option.bind_eq_some_iff.mp h
  obtain ⟨⟨c, place⟩, hpending, h⟩ := Option.bind_eq_some_iff.mp h
  obtain ⟨response, hresponse, ⟨⟩⟩ := Option.bind_eq_some_iff.mp h
  exact ⟨page, c, place, response, hpage, List.mem_of_getElem? hpending, hresponse, rfl⟩

theorem Browser.Sound.settle {i : Nat} {returns : Bool}
    (h : B.Sound env getOrchestrator production isZero)
    (hsettle : B.settle i returns = some B') :
    B'.Sound env getOrchestrator production isZero := by
  obtain ⟨page, c, place, response, hpage, hmem, hresponse, rfl⟩ := settle_spec hsettle
  have hsound := h.page page hpage
  obtain ⟨summary, hdata, hcase, hshown⟩ := hsound.shows
  refine ⟨h.served, ?_⟩
  rintro page' ⟨⟩
  refine ⟨?_, fun report hreport => ?_,
    fun c' t hpending => hsound.asked c' t (List.mem_of_mem_eraseIdx hpending)⟩
  · rcases page.view.settled_caseData c response with hsame | ⟨r, rfl, hok, hc, hnew⟩
    · exact ⟨summary, hsame.trans hdata, hcase, hshown⟩
    · obtain ⟨t, request, rfl, hanswered⟩ := responded_of_receiveFrom hresponse
      have hroute := ((hsound.asked c t hmem).asks hanswered).summarizes hc
      obtain ⟨summary', hbody, hcase'⟩ :=
        case_of_answered h.served hanswered (not_isError_of_ok h.served hanswered hok) hroute
      refine ⟨summary', ?_, hcase', t, request, r, hanswered, hbody⟩
      rw [hnew, hbody]
      rfl
  · rcases page.view.settled_report c response with hsame | ⟨r, rfl, rfl, hnew⟩
    · exact hsound.reports report (hsame.symm.trans hreport)
    · obtain ⟨t, request, rfl, hanswered⟩ := responded_of_receiveFrom hresponse
      have hroute := ((hsound.asked _ t hmem).asks hanswered).verifies
      exact ⟨t, request, r, hanswered, hroute, ApiBody.eq_of_report? (hnew.symm.trans hreport)⟩

/-- Every move keeps the page about its case. -/
theorem Browser.Sound.apply {m : BrowserMove N} (h : B.Sound env getOrchestrator production isZero)
    (happly : B.apply env getOrchestrator production isZero m = some B') :
    B'.Sound env getOrchestrator production isZero := by
  cases m with
  | app m =>
    obtain ⟨P', hP', rfl⟩ := Option.map_eq_some_iff.mp happly
    exact h.app (.move hP')
  | visit t =>
    dsimp only [Browser.apply] at happly
    split at happly
    · rename_i hanswer
      cases happly
      exact h.visit hanswer rfl rfl
    · cases happly
  | click c cookie arrives => exact h.click happly
  | settle i returns => exact h.settle happly

theorem Browser.sound_of_run {moves : List (BrowserMove N)}
    (h : B.Sound env getOrchestrator production isZero)
    (hrun : B.run env getOrchestrator production isZero moves = some B') :
    B'.Sound env getOrchestrator production isZero := by
  induction moves generalizing B with
  | nil =>
    cases hrun
    exact h
  | cons m moves ih =>
    obtain ⟨B₁, happly, hrest⟩ := Option.bind_eq_some_iff.mp hrun
    exact ih (h.apply happly) hrest

/-- The sample requests, where the page of the case is opened after the second. -/
def sampleVisit : List (BrowserMove Int) := (sampleRequests.take 26).map .app ++ [.visit 1]

/-- The approval is answered, and the page shows the response. -/
def sampleSending : List (BrowserMove Int) := (sampleRequests.drop 27).map .app ++ [.settle 0 true]

def sampleApproval : BrowserMove Int := .click .approve (some (js "owner_0")) true

def sampleRun (B : Browser Int) (moves : List (BrowserMove Int)) : Option (Browser Int) :=
  B.run samplePlatform (.ok sampleDeps) false (· == 0) moves

/-- **The page keeps to its case.** In every run, whatever its requests have been answered and in
whatever order, an open page shows the case that it has been opened for, as a response of the app
has shown it, and a report that it shows is on that case. -/
theorem page_keeps_case {moves : List (BrowserMove N)}
    (hrun : Browser.init.run env getOrchestrator production isZero moves = some B)
    {page : OpenPage} (hpage : B.page = some page) :
    (∃ summary, page.view.caseData = some summary ∧ summary.caseId = page.caseId ∧
      Shown B.app summary) ∧
    ∀ report, page.view.report = some report → ReportSent B.app page.caseId report :=
  have hsound := (Browser.sound_of_run Browser.sound_init hrun).page page hpage
  ⟨hsound.shows, hsound.reports⟩

set_option maxRecDepth 10000 in
/-- In the end of the sample run, the page shows the receipt of its case. -/
theorem page_keeps_case_sample : ∃ B page summary,
    sampleRun .init (sampleVisit ++ sampleApproval :: sampleSending) = some B ∧
    B.page = some page ∧ CaseView.isReceiptView summary = true ∧
    page.view.caseData = some summary ∧ summary.caseId = page.caseId ∧ Shown B.app summary := by
  have hany : ((sampleRun .init (sampleVisit ++ sampleApproval :: sampleSending)).any fun B =>
      B.page.any fun page => page.view.caseData.any CaseView.isReceiptView) = true := by
    decide +kernel
  obtain ⟨B, hrun, hB⟩ := (Option.any_eq_true _ _).mp hany
  obtain ⟨page, hpage, hreceipt⟩ := (Option.any_eq_true _ _).mp hB
  obtain ⟨⟨summary, hdata, hcase, hshown⟩, -⟩ := page_keeps_case hrun hpage
  rw [hdata] at hreceipt
  exact ⟨B, page, summary, hrun, hpage, hreceipt, hdata, hcase, hshown⟩

/-! ## What the page sends -/

/-- A move of the browser is one of the app, or none. -/
theorem Browser.onward_of_apply {m : BrowserMove N}
    (happly : B.apply env getOrchestrator production isZero m = some B') :
    Onward env getOrchestrator production isZero B.app B'.app := by
  cases m with
  | app m =>
    obtain ⟨P', hP', rfl⟩ := Option.map_eq_some_iff.mp happly
    exact .move hP'
  | visit t =>
    dsimp only [Browser.apply] at happly
    split at happly
    · cases happly
      exact .refl
    · cases happly
  | click c cookie arrives =>
    obtain ⟨page, route, -, -, -, -, happ⟩ := click_spec happly
    exact onward_of_sendTo happ
  | settle i returns =>
    obtain ⟨page, c, place, response, -, -, -, rfl⟩ := settle_spec happly
    exact .refl

/-- What the app keeps is kept in a run of the browser. -/
theorem Browser.run_induction
    {I : Pool (Request N) Effect Effect.Answer JsError World ApiResponse → Prop}
    (hstep : ∀ P P', I P → Onward env getOrchestrator production isZero P P' → I P')
    {moves : List (BrowserMove N)} (h : I B.app)
    (hrun : B.run env getOrchestrator production isZero moves = some B') : I B'.app := by
  induction moves generalizing B with
  | nil =>
    cases hrun
    exact h
  | cons m moves ih =>
    obtain ⟨B₁, happly, hrest⟩ := Option.bind_eq_some_iff.mp hrun
    exact ih (hstep _ _ h (onward_of_apply happly)) hrest

/-- A proposal stands on the page that offers its approval. -/
theorem CaseView.review_of_offers {view : CaseView} (h : view.offers .approve = true) :
    ∃ proposal error, view.content = some (.review proposal error) := by
  unfold offers at h
  split at h
  · exact ⟨_, _, ‹_›⟩
  · rename_i hc _
    cases hc
  · rename_i hc _
    cases hc
  · cases h

/-- The proposal on the page is that of its case. -/
theorem CaseView.proposal_of_review {view : CaseView} {proposal : ActionProposal}
    {error : Option Str} (h : view.content = some (.review proposal error)) :
    ∃ summary, view.caseData = some summary ∧ summary.proposal = some proposal := by
  obtain ⟨summary, hdata, hcontent⟩ := Option.map_eq_some_iff.mp h
  refine ⟨summary, hdata, ?_⟩
  split at hcontent
  · cases hcontent
  · split at hcontent
    · split at hcontent
      · rename_i hproposal
        cases hcontent
        exact hproposal
      · cases hcontent
    · cases hcontent
    · cases hcontent
    · cases hcontent
    · split at hcontent <;> cases hcontent
    · cases hcontent

/-- **What is sent has stood on the page.** In every run, what an action sends that a click on the
page has asked for is the message that the page has shown with the button, about its case. Only the
approval sends anything. -/
theorem sent_is_displayed {before after : List (BrowserMove N)} {B₁ B₂ : Browser N} {c : Click}
    {cookie : Option Str}
    (hbefore : Browser.init.run env getOrchestrator production isZero before = some B)
    (hclick : B.apply env getOrchestrator production isZero (.click c cookie true) = some B₁)
    (hafter : B₁.run env getOrchestrator production isZero after = some B₂)
    {action : ProviderActionRequest} {result : Except JsError ProviderActionResult}
    (hsent : .did B.app.threads.length ⟨.sendAction action, result⟩ ∈ B₂.app.history) :
    c = .approve ∧ ∃ page proposal error, B.page = some page ∧
      page.view.content = some (.review proposal error) ∧
      action.exactMessage = proposal.exactMessage ∧ action.caseId = page.caseId := by
  have hsound := Browser.sound_of_run Browser.sound_init hbefore
  obtain ⟨page, route, hpage, hroute, hoffers, -, happ⟩ := Browser.click_spec hclick
  obtain ⟨summary, hdata, hcase, hshown⟩ := (hsound.page page hpage).shows
  -- the request of the click, and what the page shows, are still there in the end
  obtain ⟨⟨prog, hthread⟩, u, reader, response, hanswered, hbody⟩ :=
    Browser.run_induction
      (I := fun P => (∃ prog, P.threads[B.app.threads.length]? = some ({ cookie, route }, prog)) ∧
        Shown P summary)
      (fun P P' hP hnext =>
        have ⟨⟨prog, hthread⟩, hshown⟩ := hP
        have ⟨prog', hthread', _⟩ := thread_of_onward hnext hthread
        ⟨⟨prog', hthread'⟩, hshown.onward hnext⟩)
      ⟨thread_of_sendTo happ rfl, hshown.onward (onward_of_sendTo happ)⟩ hafter
  obtain ⟨moves, hrun⟩ :=
    (Browser.sound_of_run (hsound.click hclick) hafter).served
  obtain ⟨moves', p, place, hinner, hserves⟩ := calls_of_run hrun
  obtain ⟨request, id, ownerId, happroved⟩ := approved_of_sent hserves hinner hsent
  obtain ⟨prog', hthread'⟩ := happroved.thread
  obtain ⟨body, happroval, -⟩ := happroved.route
  obtain rfl : { cookie, route } = request := by
    rw [hthread] at hthread'
    exact congrArg Prod.fst (Option.some.inj hthread')
  obtain rfl : route = .postApproval action.caseId (.ok body) := happroval
  obtain ⟨rfl, hactionCase⟩ := (CaseView.asks_of_route hdata hroute).approves
  obtain ⟨proposal, error, hcontent⟩ := CaseView.review_of_offers hoffers
  refine ⟨rfl, page, proposal, error, hpage, hcontent, ?_, hactionCase.trans hcase⟩
  obtain ⟨summary', hdata', hproposal⟩ := CaseView.proposal_of_review hcontent
  obtain rfl := Option.some.inj (hdata.symm.trans hdata')
  obtain ⟨j, r, hst, hid', -, hsummary⟩ :=
    stored_of_shown hserves hinner hanswered (c := summary.caseId) (by rw [shownCase, hbody])
  obtain rfl := hsummary summary hbody
  exact (happroved.message j r proposal hst hactionCase.symm hproposal).2.symm

set_option maxRecDepth 10000 in
/-- The approval of the sample run sends what has stood on the page. -/
theorem sent_is_displayed_sample : ∃ B page proposal error, ∃ action : ProviderActionRequest,
    sampleRun .init sampleVisit = some B ∧ B.page = some page ∧
    page.view.content = some (.review proposal error) ∧
    action.exactMessage = proposal.exactMessage ∧ action.caseId = page.caseId := by
  have hany : ((sampleRun .init sampleVisit).any fun B =>
      (sampleRun B [sampleApproval]).any fun B₁ =>
        (sampleRun B₁ sampleSending).any fun B₂ =>
          B₂.app.history.any (sendsAction B.app.threads.length)) = true := by decide +kernel
  obtain ⟨B, hbefore, hB⟩ := (Option.any_eq_true _ _).mp hany
  obtain ⟨B₁, hclick, hB₁⟩ := (Option.any_eq_true _ _).mp hB
  obtain ⟨B₂, hafter, hB₂⟩ := (Option.any_eq_true _ _).mp hB₁
  obtain ⟨ev, hev, hsends⟩ := List.any_eq_true.mp hB₂
  obtain ⟨action, result, rfl⟩ := did_of_sendsAction hsends
  obtain ⟨B', hclick', ⟨⟩⟩ := Option.bind_eq_some_iff.mp hclick
  obtain ⟨-, page, proposal, error, hpage, hcontent, hmessage, hcase⟩ :=
    sent_is_displayed hbefore hclick' hafter hev
  exact ⟨B, page, proposal, error, action, hbefore, hpage, hcontent, hmessage, hcase⟩

end Pages

end Clawback
