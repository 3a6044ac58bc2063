import Clawback.Agent.Disclosure
import Clawback.Async.Serving
import Clawback.Web.Routes

/-!
# The web app

The five routes about cases, each with the cookie of the browser that asks. The requests
interleave at their awaits.

* `handle_eq`: a request asks for an identity, if the browser has none, and then makes one call
  to the orchestrator, or none.
* `calls_of_run`: in every run, the calls that the requests have made are a run of the agent.
-/

namespace Clawback

open Js Async

/-! ## Identities -/

structure Cookie where
  name : Str
  value : Str
  httpOnly : Bool
  sameSite : Str
  secure : Bool
  maxAge : Nat
  path : Str
deriving DecidableEq

def ownerCookie (production : Bool) (id : Str) : Cookie where
  name := js "clawback_owner_id"
  value := id
  httpOnly := true
  sameSite := js "lax"
  secure := production
  maxAge := 60 * 60 * 24 * 365
  path := js "/"

/-- The owner that a request acts for, and the cookie that its response sets. -/
structure Identity where
  ownerId : Str
  setCookie : Option Cookie

/-- `existing` is the value of the cookie `clawback_owner_id`. -/
def getOrCreateOwnerId (production : Bool) (existing : Option Str) : Action Identity :=
  if existing.getD [] ≠ [] then return { ownerId := existing.getD [], setCookie := none }
  else do
    let uuid ← Prog.perform Effect.randomUUID
    let id := js "owner_" ++ uuid
    return { ownerId := id, setCookie := some (ownerCookie production id) }

/-! ## Requests and responses -/

/-- What is asked; `body` is what `request.json()` resolves to or rejects with. -/
inductive Route (N : Type) where
  | postCase (body : Except JsError (Json N))
  | getCase (caseId : Str)
  | postApproval (caseId : Str) (body : Except JsError (Json N))
  | postRejection (caseId : Str)
  | getReport (caseId : Str)

structure Request (N : Type) where
  cookie : Option Str
  route : Route N

inductive ApiBody where
  | response (body : ResponseBody)
  | report (report : VerificationReport)

structure ApiResponse where
  status : Nat
  body : ApiBody
  setCookie : Option Cookie

/-- `response.ok` -/
def ApiResponse.isOk (response : ApiResponse) : Bool :=
  200 ≤ response.status && response.status ≤ 299

def RouteResponse.toApi (response : RouteResponse) (setCookie : Option Cookie) : ApiResponse :=
  { status := response.status, body := .response response.body, setCookie }

/-- The cookie that the browser has after the response. -/
def cookieAfter {N : Type} (request : Request N) (response : ApiResponse) : Option Str :=
  match response.setCookie with
  | some cookie => some cookie.value
  | none => request.cookie

/-! ## Handlers -/

section Handlers

variable {N : Type} (env : Platform) (getOrchestrator : Except JsError OrchestratorDeps)
  (production : Bool) (isZero : N → Bool)

/-- A call that needs nothing of the orchestrator but its store. -/
def withOrchestrator {α : Type} (call : Action α) : Action α := do
  let _ ← Prog.lift getOrchestrator
  call

/-- A route that has nothing to check before it asks who is there. -/
def respondTo (cookie : Option Str) (call : Str → Action CaseSummary) : Action ApiResponse := do
  let identity ← getOrCreateOwnerId production cookie
  let response ← respond 200 (call identity.ownerId)
  return response.toApi identity.setCookie

def handlePostCase (cookie : Option Str) (body : Except JsError (Json N)) :
    Action ApiResponse := do
  let body ← Prog.lift body
  match ← Prog.lift (validate body) with
  | some validationError =>
    return { status := 400, body := .response (.error validationError), setCookie := none }
  | none =>
    let identity ← getOrCreateOwnerId production cookie
    let input ← Prog.lift (caseInput body)
    let response ← respond 201 (submitFor env getOrchestrator identity.ownerId input)
    return response.toApi identity.setCookie

def handleGetCase (cookie : Option Str) (caseId : Str) : Action ApiResponse :=
  respondTo production cookie fun ownerId =>
    withOrchestrator getOrchestrator (getCase caseId ownerId)

def handlePostApproval (cookie : Option Str) (caseId : Str) (body : Except JsError (Json N)) :
    Action ApiResponse := do
  let body ← Prog.lift body
  let proposalId ← Prog.lift (destructure (js "proposalId") body)
  if isFalsy isZero proposalId then
    return { status := 400, body := .response (.error (js "proposalId is required."))
             setCookie := none }
  else respondTo production cookie fun ownerId =>
    approveFor env getOrchestrator ownerId caseId proposalId

def handlePostRejection (cookie : Option Str) (caseId : Str) : Action ApiResponse :=
  respondTo production cookie fun ownerId =>
    withOrchestrator getOrchestrator (rejectProposal caseId ownerId)

def handleGetReport (cookie : Option Str) (caseId : Str) : Action ApiResponse := do
  let identity ← getOrCreateOwnerId production cookie
  match ← (withOrchestrator getOrchestrator
      (verifyCaseReceipt env caseId identity.ownerId)).attempt with
  | .ok report => return { status := 200, body := .report report, setCookie := identity.setCookie }
  | .error error => return (errorResponse error).toApi identity.setCookie

def handle (request : Request N) : Action ApiResponse :=
  match request.route with
  | .postCase body => handlePostCase env getOrchestrator production request.cookie body
  | .getCase caseId => handleGetCase getOrchestrator production request.cookie caseId
  | .postApproval caseId body =>
    handlePostApproval env getOrchestrator production isZero request.cookie caseId body
  | .postRejection caseId => handlePostRejection getOrchestrator production request.cookie caseId
  | .getReport caseId => handleGetReport env getOrchestrator production request.cookie caseId

/-- Requests to the web app, which share a case store. -/
def webApp : System (Request N) Effect Effect.Answer JsError World Choice ApiResponse where
  start := handle env getOrchestrator production isZero
  exec := exec

end Handlers

/-! ## The call of a request -/

section Front

variable {N : Type} (env : Platform) (getOrchestrator : Except JsError OrchestratorDeps)
  (production : Bool) (isZero : N → Bool)

/-- What a request comes to. -/
abbrev WebTask := Task Call JsError CallResult ApiResponse

/-- The response to a call that has ended. -/
def reply (status : Nat) (setCookie : Option Cookie) :
    Except JsError CallResult → Except JsError ApiResponse
  | .ok (.summary summary) => .ok { status, body := .response (.case summary), setCookie }
  | .ok (.report report) => .ok { status, body := .report report, setCookie }
  | .ok .reloaded => .error default
  | .error error => .ok ((errorResponse error).toApi setCookie)

/-- The response to an approval of what is no text. -/
def mismatchReply (setCookie : Option Cookie) :
    Except JsError CallResult → Except JsError ApiResponse
  | .ok _ => .ok ((errorResponse proposalMismatchError).toApi setCookie)
  | .error error => .ok ((errorResponse error).toApi setCookie)

/-- The call to the orchestrator, if there is one. -/
def taskOf (setCookie : Option Cookie) (k : OrchestratorDeps → Call)
    (answer : Except JsError CallResult → Except JsError ApiResponse) : WebTask :=
  match getOrchestrator with
  | .ok deps => .call (k deps) answer
  | .error error => .done (.ok ((errorResponse error).toApi setCookie))

/-- What a request asks for itself, and the call that it then makes. -/
def front (request : Request N) : Action WebTask :=
  match request.route with
  | .postCase body => do
    let body ← Prog.lift body
    match ← Prog.lift (validate body) with
    | some validationError => return .done (.ok
        { status := 400, body := .response (.error validationError), setCookie := none })
    | none =>
      let identity ← getOrCreateOwnerId production request.cookie
      let input ← Prog.lift (caseInput body)
      return taskOf getOrchestrator identity.setCookie
        (fun deps => .submitCase deps identity.ownerId input) (reply 201 identity.setCookie)
  | .getCase caseId => do
    let identity ← getOrCreateOwnerId production request.cookie
    return taskOf getOrchestrator identity.setCookie (fun _ => .getCase caseId identity.ownerId)
      (reply 200 identity.setCookie)
  | .postApproval caseId body => do
    let body ← Prog.lift body
    let proposalId ← Prog.lift (destructure (js "proposalId") body)
    if isFalsy isZero proposalId then
      return .done (.ok { status := 400, body := .response (.error (js "proposalId is required."))
                          setCookie := none })
    else
      let identity ← getOrCreateOwnerId production request.cookie
      return match proposalId with
        | some (.str id) => taskOf getOrchestrator identity.setCookie
            (fun deps => .approveAndExecute deps caseId identity.ownerId id)
            (reply 200 identity.setCookie)
        | _ => taskOf getOrchestrator identity.setCookie
            (fun _ => .getCase caseId identity.ownerId) (mismatchReply identity.setCookie)
  | .postRejection caseId => do
    let identity ← getOrCreateOwnerId production request.cookie
    return taskOf getOrchestrator identity.setCookie
      (fun _ => .rejectProposal caseId identity.ownerId) (reply 200 identity.setCookie)
  | .getReport caseId => do
    let identity ← getOrCreateOwnerId production request.cookie
    return taskOf getOrchestrator identity.setCookie
      (fun _ => .verifyCaseReceipt caseId identity.ownerId) (reply 200 identity.setCookie)

variable {env} {getOrchestrator} {production} {isZero}

/-- What follows the `try` block around a call. -/
def caseReply (status : Nat) (setCookie : Option Cookie) :
    Except JsError CaseSummary → Action ApiResponse
  | .ok summary => return { status, body := .response (.case summary), setCookie }
  | .error error => return (errorResponse error).toApi setCookie

theorem respond_toApi (status : Nat) (setCookie : Option Cookie) (call : Action CaseSummary) :
    ((respond status call).bind fun response => .pure (response.toApi setCookie)) =
      call.attempt.bind (caseReply status setCookie) := by
  refine (Prog.bind_assoc _ _ _).trans (congrArg _ (funext fun r => ?_))
  cases r with
  | ok summary => rfl
  | error error => rfl

theorem reply_summary (status : Nat) (setCookie : Option Cookie) (p : Action CaseSummary) :
    ((p.bind fun summary => .pure (CallResult.summary summary)).attempt.bind fun r =>
        Prog.lift (reply status setCookie r)) =
      p.attempt.bind (caseReply status setCookie) := by
  rw [attempt_bind, Prog.bind_assoc]
  congr 1
  funext r
  cases r with
  | ok summary => rfl
  | error error => rfl

/-- A `try` block around a call that may lack its orchestrator. -/
theorem fulfil_taskOf {setCookie : Option Cookie} {k : OrchestratorDeps → Call}
    {answer : Except JsError CallResult → Except JsError ApiResponse} {α : Type}
    {p : OrchestratorDeps → Action α} {handler : Except JsError α → Action ApiResponse}
    (herror : ∀ error, handler (.error error) =
      pure ((errorResponse error).toApi setCookie))
    (hcall : ∀ deps, (start env (k deps)).attempt.bind (fun r => Prog.lift (answer r)) =
      (p deps).attempt.bind handler) :
    (agent env).fulfil (taskOf getOrchestrator setCookie k answer) =
      ((Prog.lift getOrchestrator).bind p).attempt.bind handler := by
  cases getOrchestrator with
  | ok deps => exact hcall deps
  | error error => exact (herror error).symm

theorem reply_mismatch (setCookie : Option Cookie) (caseId ownerId : Str) :
    ((start env (.getCase caseId ownerId)).attempt.bind fun r =>
        Prog.lift (mismatchReply setCookie r)) =
      ((getForOwner caseId ownerId).bind fun _ => .throw proposalMismatchError).attempt.bind
        (caseReply 200 setCookie) := by
  change (((getForOwner caseId ownerId).bind _).bind _).attempt.bind _ = _
  rw [Prog.bind_assoc, attempt_bind, attempt_bind, Prog.bind_assoc, Prog.bind_assoc]
  congr 1
  funext r
  cases r with
  | ok record => rfl
  | error error => rfl

theorem respondTo_eq {cookie : Option Str} {k : Str → OrchestratorDeps → Call}
    {answer : Option Cookie → Except JsError CallResult → Except JsError ApiResponse}
    {p : Str → OrchestratorDeps → Action CaseSummary}
    (hcall : ∀ setCookie ownerId deps,
      ((start env (k ownerId deps)).attempt.bind fun r => Prog.lift (answer setCookie r)) =
        (p ownerId deps).attempt.bind (caseReply 200 setCookie)) :
    respondTo production cookie (fun ownerId => (Prog.lift getOrchestrator).bind (p ownerId)) =
      ((getOrCreateOwnerId production cookie).bind fun identity => .pure (taskOf getOrchestrator
        identity.setCookie (k identity.ownerId) (answer identity.setCookie))).bind
          (agent env).fulfil := by
  rw [Prog.bind_assoc]
  change Prog.bind _ _ = Prog.bind _ _
  congr 1
  funext identity
  refine (respond_toApi 200 identity.setCookie _).trans (Eq.symm ?_)
  exact fulfil_taskOf (fun _ => rfl) fun deps => hcall identity.setCookie identity.ownerId deps

theorem respondTo_mismatch (cookie : Option Str) (caseId : Str) :
    respondTo production cookie (fun ownerId => (Prog.lift getOrchestrator).bind fun _ =>
        (getForOwner caseId ownerId).bind fun _ => .throw proposalMismatchError) =
      ((getOrCreateOwnerId production cookie).bind fun identity => .pure (taskOf getOrchestrator
        identity.setCookie (fun _ => .getCase caseId identity.ownerId)
        (mismatchReply identity.setCookie))).bind (agent env).fulfil :=
  respondTo_eq fun setCookie ownerId _ => reply_mismatch setCookie caseId ownerId

/-- A request is served by the agent. -/
theorem handle_eq (request : Request N) :
    handle env getOrchestrator production isZero request =
      (front getOrchestrator production isZero request).bind (agent env).fulfil := by
  obtain ⟨cookie, route⟩ := request
  cases route with
  | getCase caseId =>
    exact respondTo_eq (k := fun ownerId _ => .getCase caseId ownerId) fun setCookie ownerId _ =>
      reply_summary 200 setCookie (getCase caseId ownerId)
  | postRejection caseId =>
    exact respondTo_eq (k := fun ownerId _ => .rejectProposal caseId ownerId)
      fun setCookie ownerId _ => reply_summary 200 setCookie (rejectProposal caseId ownerId)
  | getReport caseId =>
    change Prog.bind _ _ = (Prog.bind _ _).bind _
    rw [Prog.bind_assoc]
    congr 1
    funext identity
    refine (fulfil_taskOf (fun _ => rfl) fun deps => ?_).symm
    change ((verifyCaseReceipt env caseId identity.ownerId).bind
      fun report => .pure (CallResult.report report)).attempt.bind _ = _
    rw [attempt_bind, Prog.bind_assoc]
    congr 1
    funext r
    cases r with
    | ok report => rfl
    | error error => rfl
  | postCase body =>
    cases body with
    | error error => rfl
    | ok body =>
      change (Prog.lift (validate body)).bind _ = ((Prog.lift (validate body)).bind _).bind _
      cases validate body with
      | error error => rfl
      | ok validationError =>
        cases validationError with
        | some message => rfl
        | none =>
          change (getOrCreateOwnerId production cookie).bind _ =
            ((getOrCreateOwnerId production cookie).bind _).bind _
          rw [Prog.bind_assoc]
          congr 1
          funext identity
          change (Prog.lift (caseInput body)).bind _ = ((Prog.lift (caseInput body)).bind _).bind _
          cases caseInput body with
          | error error => rfl
          | ok input =>
            refine (respond_toApi 201 identity.setCookie _).trans (Eq.symm ?_)
            have hcall : ∀ deps,
                ((start env (.submitCase deps identity.ownerId input)).attempt.bind fun r =>
                    Prog.lift (reply 201 identity.setCookie r)) =
                  (submitCase env deps identity.ownerId input).attempt.bind
                    (caseReply 201 identity.setCookie) :=
              fun deps => reply_summary 201 identity.setCookie
                (submitCase env deps identity.ownerId input)
            exact fulfil_taskOf (fun _ => rfl) hcall
  | postApproval caseId body =>
    cases body with
    | error error => rfl
    | ok body =>
      change (Prog.lift (destructure _ body)).bind _ =
        ((Prog.lift (destructure _ body)).bind _).bind _
      cases destructure (js "proposalId") body with
      | error error => rfl
      | ok proposalId =>
        change (if _ then _ else _) = Prog.bind (if _ then _ else _) _
        split
        · rfl
        · cases proposalId with
          | none => exact respondTo_mismatch cookie caseId
          | some value =>
            cases value with
            | str id =>
              exact respondTo_eq (k := fun ownerId deps =>
                .approveAndExecute deps caseId ownerId id) fun setCookie ownerId deps =>
                  reply_summary 200 setCookie (approveAndExecute env deps caseId ownerId id)
            | _ => exact respondTo_mismatch cookie caseId

end Front

/-! ## What a request comes to -/

section Rules

variable {N : Type}

/-- The calls that a request may make. -/
inductive Makes : Request N → Call → Prop
  | submit {cookie body input deps ownerId} : CaseBody body input →
    Makes { cookie, route := .postCase (.ok body) } (.submitCase deps ownerId input)
  | look {cookie caseId ownerId} :
    Makes { cookie, route := .getCase caseId } (.getCase caseId ownerId)
  | approve {cookie caseId body deps ownerId id} :
    body.get? (js "proposalId") = some (.str id) →
    Makes { cookie, route := .postApproval caseId (.ok body) }
      (.approveAndExecute deps caseId ownerId id)
  | mismatch {cookie caseId body ownerId} :
    Makes { cookie, route := .postApproval caseId (.ok body) } (.getCase caseId ownerId)
  | reject {cookie caseId ownerId} :
    Makes { cookie, route := .postRejection caseId } (.rejectProposal caseId ownerId)
  | verify {cookie caseId ownerId} :
    Makes { cookie, route := .getReport caseId } (.verifyCaseReceipt caseId ownerId)

/-- The body says what has gone wrong. -/
def ApiBody.IsError : ApiBody → Prop
  | .response (.case _) => False
  | .report _ => False
  | _ => True

/-- The body tells what the call has returned, or what has gone wrong. -/
def ApiBody.Tells : ApiBody → Except JsError CallResult → Prop
  | .response (.case summary), r => r = .ok (.summary summary)
  | .report verified, r => r = .ok (.report verified)
  | _, _ => True

/-- The call is made with the dependencies of the app, and for the owner whose cookie the browser
has afterwards; the response tells what the call has returned, and is `ok` only if it does. -/
structure Answers (getOrchestrator : Except JsError OrchestratorDeps) (request : Request N)
    (k : Call) (answer : Except JsError CallResult → Except JsError ApiResponse) : Prop where
  makes : Makes request k
  deps : ∃ deps, getOrchestrator = .ok deps ∧ ∀ d, k.deps? = some d → d = deps
  owner : ∀ r response, answer r = .ok response → cookieAfter request response = k.owner?
  tells : ∀ r response, answer r = .ok response → response.body.Tells r
  honest : ∀ r response, answer r = .ok response → response.body.IsError → response.isOk = false

/-- There is something wrong with the request, or with the orchestrator. -/
inductive Refusal (getOrchestrator : Except JsError OrchestratorDeps) : ApiResponse → Prop
  | invalid {message setCookie} : Refusal getOrchestrator
      { status := 400, body := .response (.error message), setCookie }
  | missing {error setCookie} : getOrchestrator = .error error →
    Refusal getOrchestrator ((errorResponse error).toApi setCookie)

/-- A request is refused, or it makes a call. -/
def ComesTo (getOrchestrator : Except JsError OrchestratorDeps) (request : Request N) :
    WebTask → Prop
  | .done result => ∃ response, result = .ok response ∧ Refusal getOrchestrator response
  | .call k answer => Answers getOrchestrator request k answer

/-- The responses that set this cookie, or none, leave the browser with the identity. -/
def Identity.Fits (identity : Identity) (request : Request N) : Prop :=
  ∀ response : ApiResponse, response.setCookie = identity.setCookie →
    cookieAfter request response = some identity.ownerId

theorem identity_only (production : Bool) (request : Request N) :
    Only (· = .randomUUID) (·.Fits request) (getOrCreateOwnerId production request.cookie) := by
  unfold getOrCreateOwnerId
  split
  · rename_i hknown
    refine Only.ret fun response hset => ?_
    rw [cookieAfter, hset]
    cases hcookie : request.cookie with
    | none =>
      rw [hcookie] at hknown
      exact absurd rfl hknown
    | some existing => rfl
  · refine Only.bind (Only.perform rfl) fun uuid _ => Only.ret fun response hset => ?_
    rw [cookieAfter, hset]
    rfl

theorem errorResponse_isError (error : JsError) (setCookie : Option Cookie) :
    ((errorResponse error).toApi setCookie).body.IsError := by
  unfold errorResponse
  split
  · trivial
  · split
    · trivial
    · split
      · trivial
      · split <;> trivial

theorem errorResponse_not_ok (error : JsError) (setCookie : Option Cookie) :
    ((errorResponse error).toApi setCookie).isOk = false := by
  unfold errorResponse
  split
  · rfl
  · split
    · rfl
    · split
      · rfl
      · split <;> rfl

theorem Refusal.isError {getOrchestrator : Except JsError OrchestratorDeps}
    {response : ApiResponse} (h : Refusal getOrchestrator response) : response.body.IsError := by
  cases h with
  | invalid => trivial
  | missing _ => exact errorResponse_isError _ _

theorem Refusal.not_ok {getOrchestrator : Except JsError OrchestratorDeps}
    {response : ApiResponse} (h : Refusal getOrchestrator response) : response.isOk = false := by
  cases h with
  | invalid => rfl
  | missing _ => exact errorResponse_not_ok _ _

theorem ApiBody.IsError.tells {body : ApiBody} (h : body.IsError) (r : Except JsError CallResult) :
    body.Tells r := by
  cases body with
  | response body => cases body <;> first | exact h.elim | trivial
  | report report => exact h.elim

theorem reply_spec {status : Nat} {setCookie : Option Cookie} {r : Except JsError CallResult}
    {response : ApiResponse} (h : reply status setCookie r = .ok response) :
    response.setCookie = setCookie ∧ response.body.Tells r ∧
      (response.body.IsError → response.isOk = false) := by
  cases r with
  | error error =>
    cases h
    exact ⟨rfl, (errorResponse_isError error setCookie).tells _,
      fun _ => errorResponse_not_ok error setCookie⟩
  | ok result => cases result <;> cases h <;> exact ⟨rfl, rfl, False.elim⟩

theorem mismatchReply_spec {setCookie : Option Cookie} {r : Except JsError CallResult}
    {response : ApiResponse} (h : mismatchReply setCookie r = .ok response) :
    response.setCookie = setCookie ∧ response.body.Tells r ∧
      (response.body.IsError → response.isOk = false) := by
  cases r with
  | error error =>
    cases h
    exact ⟨rfl, (errorResponse_isError error setCookie).tells _,
      fun _ => errorResponse_not_ok error setCookie⟩
  | ok result =>
    cases h
    exact ⟨rfl, (errorResponse_isError _ setCookie).tells _,
      fun _ => errorResponse_not_ok _ setCookie⟩

variable {getOrchestrator : Except JsError OrchestratorDeps} {production : Bool}
  {isZero : N → Bool} {request : Request N}

theorem comesTo_taskOf {identity : Identity} (hfits : identity.Fits request)
    {k : OrchestratorDeps → Call}
    {answer : Except JsError CallResult → Except JsError ApiResponse}
    (hmakes : ∀ deps, Makes request (k deps))
    (hdeps : ∀ deps d, (k deps).deps? = some d → d = deps)
    (howner : ∀ deps, (k deps).owner? = some identity.ownerId)
    (hanswer : ∀ r response, answer r = .ok response →
      response.setCookie = identity.setCookie ∧ response.body.Tells r ∧
        (response.body.IsError → response.isOk = false)) :
    ComesTo getOrchestrator request (taskOf getOrchestrator identity.setCookie k answer) := by
  cases getOrchestrator with
  | error error => exact ⟨_, rfl, .missing rfl⟩
  | ok deps =>
    refine ⟨hmakes deps, ⟨deps, rfl, hdeps deps⟩, fun r response h => ?_,
      fun r response h => (hanswer r response h).2.1,
      fun r response h => (hanswer r response h).2.2⟩
    rw [howner]
    exact hfits response (hanswer r response h).1

/-- A request without a body that is checked. -/
theorem comesTo_identity {k : Str → OrchestratorDeps → Call}
    {answer : Option Cookie → Except JsError CallResult → Except JsError ApiResponse}
    (hmakes : ∀ ownerId deps, Makes request (k ownerId deps))
    (hdeps : ∀ ownerId deps d, (k ownerId deps).deps? = some d → d = deps)
    (howner : ∀ ownerId deps, (k ownerId deps).owner? = some ownerId)
    (hanswer : ∀ setCookie r response, answer setCookie r = .ok response →
      response.setCookie = setCookie ∧ response.body.Tells r ∧
        (response.body.IsError → response.isOk = false)) :
    Only (· = .randomUUID) (ComesTo getOrchestrator request)
      ((getOrCreateOwnerId production request.cookie).bind fun identity => .pure (taskOf
        getOrchestrator identity.setCookie (k identity.ownerId) (answer identity.setCookie))) :=
  Only.bind (identity_only production request) fun identity hfits => Only.ret (comesTo_taskOf hfits
    (hmakes identity.ownerId) (hdeps identity.ownerId) (howner identity.ownerId)
    (hanswer identity.setCookie))

theorem caseBody_of_validate {body : Json N} (h : validate body = .ok none)
    {input : SubscriptionCaseInput} (hinput : caseInput body = .ok input) :
    CaseBody body input := by
  have hbody : body ≠ .null := by
    rintro rfl
    obtain ⟨x, hx⟩ := validate_null (N := N)
    rw [hx] at h
    cases h
  obtain ⟨-, hrefused, hthrows⟩ := runChecks_spec hbody caseChecks
  have haccepts : ∀ check ∈ caseChecks, check.Accepts body := by
    by_contra hnot
    by_cases hread : AllRead body caseChecks
    · obtain ⟨message, hmessage⟩ := hrefused hread hnot
      rw [validate, hmessage] at h
      cases h
    · obtain ⟨x, hx⟩ := hthrows hread
      rw [validate, hx] at h
      cases h
  obtain ⟨input', hcase⟩ := caseBody_of_accepts haccepts
  rw [hcase.caseInput_eq] at hinput
  exact Except.ok.inj hinput ▸ hcase

/-- A request asks for an identity only, before it makes the call that it is for. -/
theorem front_only (request : Request N) : Only (· = .randomUUID) (ComesTo getOrchestrator request)
    (front getOrchestrator production isZero request) := by
  obtain ⟨cookie, route⟩ := request
  cases route with
  | getCase caseId =>
    exact comesTo_identity (k := fun ownerId _ => .getCase caseId ownerId)
      (fun _ _ => .look) (fun _ _ _ => nofun) (fun _ _ => rfl) fun _ _ _ => reply_spec
  | postRejection caseId =>
    exact comesTo_identity (k := fun ownerId _ => .rejectProposal caseId ownerId)
      (fun _ _ => .reject) (fun _ _ _ => nofun) (fun _ _ => rfl) fun _ _ _ => reply_spec
  | getReport caseId =>
    exact comesTo_identity (k := fun ownerId _ => .verifyCaseReceipt caseId ownerId)
      (fun _ _ => .verify) (fun _ _ _ => nofun) (fun _ _ => rfl) fun _ _ _ => reply_spec
  | postCase body =>
    refine Only.bind (Only.lift fun _ h => h) fun body hbody => ?_
    subst hbody
    refine Only.bind (Only.lift fun _ h => h) fun validationError hvalid => ?_
    cases validationError with
    | some message => exact Only.ret ⟨_, rfl, .invalid⟩
    | none =>
      refine Only.bind (identity_only production _) fun identity hfits => ?_
      refine Only.bind (Only.lift fun _ h => h) fun input hinput => Only.ret ?_
      exact comesTo_taskOf hfits
        (fun _ => .submit (caseBody_of_validate hvalid hinput))
        (fun _ _ h => (Option.some.inj h).symm)
        (fun _ => rfl) fun _ _ => reply_spec
  | postApproval caseId body =>
    refine Only.bind (Only.lift fun _ h => h) fun body hbody => ?_
    subst hbody
    refine Only.bind (Only.lift fun _ h => h) fun proposalId hread => ?_
    have hget : body.get? (js "proposalId") = proposalId := by
      cases body <;> cases hread <;> rfl
    split
    · exact Only.ret ⟨_, rfl, .invalid⟩
    · refine Only.bind (identity_only production _) fun identity hfits => Only.ret ?_
      have hmismatch : ComesTo getOrchestrator _ (taskOf getOrchestrator identity.setCookie
          (fun _ => .getCase caseId identity.ownerId) (mismatchReply identity.setCookie)) :=
        comesTo_taskOf hfits (fun _ => .mismatch) (fun _ => nofun) (fun _ => rfl)
          fun _ _ => mismatchReply_spec
      cases proposalId with
      | none => exact hmismatch
      | some value =>
        cases value with
        | str id =>
          exact comesTo_taskOf hfits (fun _ => .approve hget)
            (fun _ _ h => (Option.some.inj h).symm) (fun _ => rfl) fun _ _ => reply_spec
        | _ => exact hmismatch

end Rules

/-! ## Runs -/

/-- The same store and ledger, where all that has been drawn in `v` has been drawn in `w`. -/
structure Shares (w v : World) : Prop where
  store : w.store = v.store
  ledger : w.ledger = v.ledger
  drawn : v.drawn ⊆ w.drawn

/-- What has been drawn matters to what is drawn only. -/
theorem exec_withDrawn {e : Effect} (he : e ≠ .randomUUID) (c : Choice) (w : World)
    (drawn : List Str) : exec e c { w with drawn } =
      (exec e c w).map fun answer => (answer.1, { answer.2 with drawn }) := by
  cases e with
  | randomUUID => exact absurd rfl he
  | get caseId =>
    cases c <;> try rfl
    simp only [exec, succeed]
    cases w.store caseId <;> rfl
  | now =>
    cases c <;> try rfl
    simp only [exec, succeed]
    split <;> rfl
  | randomBytes size =>
    cases c <;> try rfl
    simp only [exec, succeed]
    split <;> rfl
  | _ => cases c <;> rfl

theorem Shares.exec {e : Effect} {c : Choice} {w w₁ v : World} {r : Except JsError e.Answer}
    (h : Shares w v) (hexec : Clawback.exec e c w = some (r, w₁)) :
    ∃ v₁, Clawback.exec e c v = some (r, v₁) ∧ Shares w₁ v₁ := by
  obtain ⟨store, ledger, drawn⟩ := v
  obtain ⟨hstore, hledger, hdrawn⟩ := h
  obtain rfl : store = w.store := hstore.symm
  obtain rfl : ledger = w.ledger := hledger.symm
  by_cases he : e = .randomUUID
  · subst he
    cases c with
    | text uuid =>
      simp only [Clawback.exec, succeed] at hexec ⊢
      split at hexec
      · cases hexec
      · rename_i hfresh
        cases hexec
        exact ⟨_, if_neg fun hmem => hfresh (hdrawn hmem), rfl, rfl, List.cons_subset_cons _ hdrawn⟩
    | _ => cases hexec
  · refine ⟨{ w₁ with drawn }, ?_, rfl, rfl, ?_⟩
    · exact (exec_withDrawn he c w drawn).trans (by rw [hexec]; rfl)
    · exact fun uuid hmem => answered_drawn (answered_of_exec hexec) (hdrawn hmem)

/-- The identities do not concern the agent. -/
theorem agent_backs (env : Platform) : Backs (agent env) (· = .randomUUID) Shares where
  front e c w r w₁ v he h hexec := by
    subst he
    have hanswered := answered_of_exec (show exec .randomUUID c w = some (r, w₁) from hexec)
    cases hanswered with
    | failed => exact h
    | drawn _ => exact ⟨h.store, h.ledger, List.subset_cons_of_subset _ h.drawn⟩
    | external hexternal => cases hexternal
  call e c w r w₁ v h hexec := ⟨c, h.exec hexec⟩

section Runs

variable {N : Type} {env : Platform} {getOrchestrator : Except JsError OrchestratorDeps}
  {production : Bool} {isZero : N → Bool} {moves : List (Move (Request N) Choice)}
  {P : Pool (Request N) Effect Effect.Answer JsError World ApiResponse}

/-- The calls that the requests of a run have made, each in its place. -/
abbrev WebServes (env : Platform) (getOrchestrator : Except JsError OrchestratorDeps)
    (place : Nat → Option Nat) (P : Pool (Request N) Effect Effect.Answer JsError World ApiResponse)
    (p : Pool Call Effect Effect.Answer JsError World CallResult) : Prop :=
  Serves (agent env) (· = .randomUUID) (ComesTo getOrchestrator) Shares place P p

/-- **The web app runs the agent.** The calls that the requests have made are a run of the agent,
with the same store and ledger. -/
theorem calls_of_run
    (hrun : (webApp env getOrchestrator production isZero).run (Pool.init World.empty) moves =
      some P) :
    ∃ moves' p place, (agent env).run (Pool.init World.empty) moves' = some p ∧
      WebServes env getOrchestrator place P p := by
  have hserved : webApp env getOrchestrator production isZero =
      (agent env).served (front getOrchestrator production isZero) := by
    rw [webApp, System.served, funext handle_eq]
    rfl
  rw [hserved] at hrun
  have hshares : Shares World.empty World.empty := ⟨rfl, rfl, List.Subset.refl _⟩
  exact System.serves_of_run (agent_backs env) (fun q => front_only q) hshares hrun

end Runs

end Clawback
