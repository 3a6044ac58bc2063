import Clawback.Agent.Histories
import Clawback.Shared.Money

/-!
# The routes of the web app

`POST /api/cases` and `POST /api/cases/[caseId]/approve`: what they read of the body of a
request, which may be any JSON value, and how they answer. What stands outside the `try`
blocks may throw.

* `routes_exact_iff`: the bodies that are answered as the declared types promise.
-/

namespace Clawback

open Js Async

/-! ## Reading a body -/

/-- `text.trim()` -/
def trim (text : Str) : Str :=
  ((text.dropWhile isWhiteSpace).reverse.dropWhile isWhiteSpace).reverse

def typeError (message : Str) : JsError := .error (js "TypeError") message

section Reading

variable {N : Type}

/-- `body.key`. Only `null` has no members to ask for. -/
def readProperty (key : Str) : Json N → Except JsError (Option (Json N))
  | .null => .error (typeError (js "Cannot read properties of null (reading '" ++ key ++ js "')"))
  | body => .ok (body.get? key)

/-- `const { key } = await request.json()` -/
def destructure (key : Str) : Json N → Except JsError (Option (Json N))
  | .null => .error (typeError (js "Cannot destructure property '" ++ key ++
      js "' of '(intermediate value)' as it is null."))
  | body => .ok (body.get? key)

/-- `body.key?.trim()`, where `none` is `undefined`. Only a string has the method. -/
def optionalTrim (key : Str) (body : Json N) : Except JsError (Option Str) := do
  match ← readProperty key body with
  | none => return none
  | some .null => return none
  | some (.str text) => return some (trim text)
  | some _ => .error (typeError (js "body." ++ key ++ js "?.trim is not a function"))

/-- `body.key.trim()` -/
def requiredTrim (key : Str) (body : Json N) : Except JsError Str := do
  match ← readProperty key body with
  | none => .error (typeError (js "Cannot read properties of undefined (reading 'trim')"))
  | some .null => .error (typeError (js "Cannot read properties of null (reading 'trim')"))
  | some (.str text) => return trim text
  | some _ => .error (typeError (js "body." ++ key ++ js ".trim is not a function"))

/-- `!text` -/
def isBlank (text : Option Str) : Bool := text.getD [] == []

/-- `!value`, given which numbers are zero. -/
def isFalsy (isZero : N → Bool) : Option (Json N) → Bool
  | none => true
  | some .null => true
  | some (.bool b) => !b
  | some (.num n) => isZero n
  | some (.str text) => text == []
  | some (.arr _) => false
  | some (.obj _) => false

/-- A check of `validate`: the field, how long it may be, and what is said otherwise. -/
structure FieldCheck where
  key : Str
  limit : Option Nat
  message : Str

def caseChecks : List FieldCheck :=
  [{ key := js "merchantName", limit := none, message := js "Merchant name is required." },
   { key := js "accountIdentifierLast4", limit := some 6
     message := js "Enter the last few digits of your account, not the full number." },
   { key := js "subscriptionDetails", limit := none
     message := js "Tell us about the subscription." },
   { key := js "desiredOutcome", limit := none
     message := js "Tell us what you want to happen." }]

/-- One check: the message, if the field does not pass. -/
def FieldCheck.run (check : FieldCheck) (body : Json N) : Except JsError (Option Str) := do
  let text ← optionalTrim check.key body
  return if isBlank text || check.limit.any (· < (text.getD []).length) then some check.message
    else none

def runChecks (body : Json N) : List FieldCheck → Except JsError (Option Str)
  | [] => .ok none
  | check :: rest => do
    match ← check.run body with
    | some message => return some message
    | none => runChecks body rest

def validate (body : Json N) : Except JsError (Option Str) := runChecks body caseChecks

/-- The input of a case. -/
def caseInput (body : Json N) : Except JsError SubscriptionCaseInput := do
  let merchantName ← requiredTrim (js "merchantName") body
  let accountIdentifierLast4 ← requiredTrim (js "accountIdentifierLast4") body
  let subscriptionDetails ← requiredTrim (js "subscriptionDetails") body
  let desiredOutcome ← requiredTrim (js "desiredOutcome") body
  return {
    merchantName, accountIdentifierLast4, subscriptionDetails, desiredOutcome
    contactChannel := .sandbox
    contactAddress := js "sandbox@clawback.test" }

end Reading

/-! ## Responses -/

inductive ResponseBody where
  | case (summary : CaseSummary)
  | error (error : Str)
  | failure (error debug : Str)

structure RouteResponse where
  status : Nat
  body : ResponseBody

def caseEvents : List CaseEvent :=
  [.submit, .beginAnalysis, .proposeAction, .requestApproval, .approve, .reject, .beginExecution,
    .executionSucceeded, .executionFailed, .outcomeConfirmed, .outcomeUnverifiable, .expire]

/-- `error.from` of an `IllegalTransitionError`. -/
def illegalSource (error : JsError) : Option CaseState :=
  CaseState.all.find? fun source =>
    caseEvents.any fun event => error == illegalTransitionError source event

/-- `error instanceof` the class of that name. -/
def isInstance (name : Str) : JsError → Bool
  | .error errorName _ => errorName == name
  | .value _ => false

def errorResponse (error : JsError) : RouteResponse :=
  if isInstance (js "UnauthorizedCaseAccessError") error then
    { status := 403, body := .error (js "Not authorized.") }
  else if isInstance (js "CaseNotFoundError") error then
    { status := 404, body := .error (js "Case not found.") }
  else if isInstance (js "ProposalMismatchError") error then
    { status := 409, body := .error (js "That proposal no longer matches this case.") }
  else match illegalSource error with
    | some source =>
      { status := 409
        body := .error (js "This case can't do that right now (currently " ++ source.text ++
          js ").") }
    | none => { status := 500, body := .failure (js "Something went wrong.") error.text }

/-- The `try` block of a route, and its `catch`. -/
def respond (status : Nat) (call : Action CaseSummary) : Action RouteResponse := do
  match ← call.attempt with
  | .ok summary => return { status, body := .case summary }
  | .error error => return errorResponse error

/-! ## The routes -/

section Routes

variable {N : Type} (env : Platform) (getOrchestrator : Except JsError OrchestratorDeps)
  (ownerId : Str)

/-- `getOrchestrator().submitCase(ownerId, input)` -/
def submitFor (input : SubscriptionCaseInput) : Action CaseSummary := do
  let deps ← Prog.lift getOrchestrator
  submitCase env deps ownerId input

/-- `getOrchestrator().approveAndExecute(caseId, ownerId, proposalId)`. What is no string is
the id of no proposal. -/
def approveFor (caseId : Str) (proposalId : Option (Json N)) : Action CaseSummary := do
  let deps ← Prog.lift getOrchestrator
  match proposalId with
  | some (.str id) => approveAndExecute env deps caseId ownerId id
  | _ =>
    let _ ← getForOwner caseId ownerId
    Prog.throw proposalMismatchError

/-- `POST /api/cases` -/
def postCase (body : Json N) : Action RouteResponse := do
  match ← Prog.lift (validate body) with
  | some validationError => return { status := 400, body := .error validationError }
  | none =>
    let input ← Prog.lift (caseInput body)
    respond 201 (submitFor env getOrchestrator ownerId input)

/-- `POST /api/cases/[caseId]/approve` -/
def postApproval (isZero : N → Bool) (caseId : Str) (body : Json N) : Action RouteResponse := do
  let proposalId ← Prog.lift (destructure (js "proposalId") body)
  if isFalsy isZero proposalId then
    return { status := 400, body := .error (js "proposalId is required.") }
  else respond 200 (approveFor env getOrchestrator ownerId caseId proposalId)

/-! ## What is promised -/

/-- However its effects are answered, the program returns a response in `Q`. -/
def Responds (Q : RouteResponse → Prop) (p : Action RouteResponse) : Prop :=
  Obeys (fun _ _ => True) (fun r _ => ∃ response, r = .ok response ∧ Q response) p []

/-- The body has the four fields as texts, and `input` is made of them. -/
structure CaseBody (body : Json N) (input : SubscriptionCaseInput) : Prop where
  texts : ∃ m a s d : Str, body.get? (js "merchantName") = some (.str m) ∧
    body.get? (js "accountIdentifierLast4") = some (.str a) ∧
    body.get? (js "subscriptionDetails") = some (.str s) ∧
    body.get? (js "desiredOutcome") = some (.str d) ∧
    input =
      { merchantName := trim m
        accountIdentifierLast4 := trim a
        subscriptionDetails := trim s
        desiredOutcome := trim d
        contactChannel := .sandbox
        contactAddress := js "sandbox@clawback.test" }
  merchantName : input.merchantName ≠ []
  accountIdentifierLast4 : input.accountIdentifierLast4 ≠ []
  short : input.accountIdentifierLast4.length ≤ 6
  subscriptionDetails : input.subscriptionDetails ≠ []
  desiredOutcome : input.desiredOutcome ≠ []

/-- The route submits exactly the trimmed texts of a valid body, and answers any other body
with 400. -/
def CaseRouteExact (body : Json N) : Prop :=
  (∀ input, CaseBody body input →
    postCase env getOrchestrator ownerId body =
        respond 201 (submitFor env getOrchestrator ownerId input) ∧
      Responds (·.status ≠ 400) (postCase env getOrchestrator ownerId body)) ∧
  ((∀ input, ¬CaseBody body input) →
    Responds (·.status = 400) (postCase env getOrchestrator ownerId body))

/-- The route approves the proposal of a valid body, and answers any other body with 400. -/
def ApproveRouteExact (isZero : N → Bool) (caseId : Str) (body : Json N) : Prop :=
  (∀ id, body.get? (js "proposalId") = some (.str id) → id ≠ [] →
    postApproval env getOrchestrator ownerId isZero caseId body =
        respond 200 (approveFor env getOrchestrator ownerId caseId (some (.str id : Json N))) ∧
      Responds (·.status ≠ 400) (postApproval env getOrchestrator ownerId isZero caseId body)) ∧
  ((∀ id, body.get? (js "proposalId") = some (.str id) → id = []) →
    Responds (·.status = 400) (postApproval env getOrchestrator ownerId isZero caseId body))

end Routes

/-! ## Checks -/

section Checks

variable {N : Type} {body : Json N}

/-- The field passes the check. -/
def FieldCheck.Accepts (check : FieldCheck) (body : Json N) : Prop :=
  ∃ text, body.get? check.key = some (.str text) ∧ trim text ≠ [] ∧
    ∀ n ∈ check.limit, (trim text).length ≤ n

/-- The field is a text, `null` or missing. -/
def FieldCheck.Reads (check : FieldCheck) (body : Json N) : Prop :=
  body.get? check.key = none ∨ body.get? check.key = some .null ∨
    ∃ text, body.get? check.key = some (.str text)

theorem readProperty_eq (hbody : body ≠ .null) (key : Str) :
    readProperty key body = .ok (body.get? key) := by
  cases body <;> first | rfl | exact absurd rfl hbody

theorem destructure_eq (hbody : body ≠ .null) (key : Str) :
    destructure key body = .ok (body.get? key) := by
  cases body <;> first | rfl | exact absurd rfl hbody

theorem isBlank_some (text : Str) : isBlank (some text) = true ↔ text = [] := by
  simp [isBlank]

theorem FieldCheck.run_of_accepts {check : FieldCheck} (hbody : body ≠ .null)
    (h : check.Accepts body) : check.run body = .ok none := by
  obtain ⟨text, hget, hne, hlimit⟩ := h
  have hread : optionalTrim check.key body = .ok (some (trim text)) := by
    rw [optionalTrim, readProperty_eq hbody, hget]
    rfl
  have hpasses : ¬(isBlank (some (trim text)) ||
      check.limit.any (· < (trim text).length)) = true := by
    simp only [Bool.or_eq_true, isBlank_some, Option.any_eq_true, decide_eq_true_eq, not_or,
      not_exists, not_and, Nat.not_lt]
    exact ⟨hne, hlimit⟩
  rw [FieldCheck.run, hread]
  exact congrArg Except.ok (if_neg hpasses)

theorem FieldCheck.run_of_reads {check : FieldCheck} (hbody : body ≠ .null)
    (hreads : check.Reads body) (h : ¬check.Accepts body) :
    check.run body = .ok (some check.message) := by
  have hread : ∃ text, optionalTrim check.key body = .ok text ∧ (isBlank text = true ∨
      check.limit.any (· < (text.getD []).length) = true) := by
    rw [optionalTrim, readProperty_eq hbody]
    rcases hreads with hget | hget | ⟨text, hget⟩
    · exact ⟨none, by rw [hget]; rfl, Or.inl rfl⟩
    · exact ⟨none, by rw [hget]; rfl, Or.inl rfl⟩
    · refine ⟨some (trim text), by rw [hget]; rfl, ?_⟩
      by_contra hpasses
      simp only [not_or, isBlank_some, Option.any_eq_true, decide_eq_true_eq, not_exists,
        not_and, Nat.not_lt] at hpasses
      exact h ⟨text, hget, hpasses⟩
  obtain ⟨text, hread, hrefused⟩ := hread
  rw [FieldCheck.run, hread]
  exact congrArg Except.ok (if_pos (Bool.or_eq_true_iff.mpr hrefused))

theorem FieldCheck.run_of_not_reads {check : FieldCheck} (hbody : body ≠ .null)
    (h : ¬check.Reads body) : ∃ x, check.run body = .error x := by
  simp only [FieldCheck.Reads, not_or, not_exists] at h
  obtain ⟨hnone, hnull, hstr⟩ := h
  rw [FieldCheck.run, optionalTrim, readProperty_eq hbody]
  cases hget : body.get? check.key with
  | none => exact absurd hget hnone
  | some value =>
    cases value with
    | null => exact absurd hget hnull
    | str text => exact absurd hget (hstr text)
    | _ => exact ⟨_, rfl⟩

/-- A field is looked at when all fields before it pass. Every field that is looked at is a
text, `null` or missing. -/
def AllRead (body : Json N) (checks : List FieldCheck) : Prop :=
  ∀ before check after, checks = before ++ check :: after →
    (∀ earlier ∈ before, earlier.Accepts body) → check.Reads body

theorem allRead_cons {check : FieldCheck} {rest : List FieldCheck} :
    AllRead body (check :: rest) ↔
      check.Reads body ∧ (check.Accepts body → AllRead body rest) := by
  constructor
  · intro h
    refine ⟨h [] check rest rfl (by simp), fun haccepts before later after hrest hbefore => ?_⟩
    apply h (check :: before) later after (by rw [hrest]; rfl)
    intro earlier hearlier
    rcases List.mem_cons.mp hearlier with rfl | hmem
    · exact haccepts
    · exact hbefore earlier hmem
  · rintro ⟨hreads, hrest⟩ before later after heq hbefore
    cases before with
    | nil =>
      obtain ⟨rfl, rfl⟩ := List.cons.inj heq
      exact hreads
    | cons first before =>
      obtain ⟨rfl, rfl⟩ := List.cons.inj heq
      exact hrest (hbefore check List.mem_cons_self) before later after rfl
        fun earlier hmem => hbefore earlier (List.mem_cons_of_mem _ hmem)

/-- The checks of a body that is not `null`: they pass, or one refuses, or one throws. -/
theorem runChecks_spec (hbody : body ≠ .null) (checks : List FieldCheck) :
    ((∀ check ∈ checks, check.Accepts body) → runChecks body checks = .ok none) ∧
    (AllRead body checks → ¬(∀ check ∈ checks, check.Accepts body) →
      ∃ message, runChecks body checks = .ok (some message)) ∧
    (¬AllRead body checks → ∃ x, runChecks body checks = .error x) := by
  induction checks with
  | nil =>
    refine ⟨fun _ => rfl, fun _ h => absurd (by simp) h, fun h => absurd ?_ h⟩
    intro before check after hnil
    exact absurd hnil.symm (by simp)
  | cons check rest ih =>
    obtain ⟨ihaccept, ihrefuse, ihthrow⟩ := ih
    rw [allRead_cons, List.forall_mem_cons]
    by_cases haccepts : check.Accepts body
    · have hrun := FieldCheck.run_of_accepts hbody haccepts
      have hstep : runChecks body (check :: rest) = runChecks body rest := by
        rw [runChecks, hrun]
        rfl
      have hreads : check.Reads body := Or.inr (Or.inr (haccepts.imp fun _ h => h.1))
      rw [hstep]
      exact ⟨fun h => ihaccept h.2, fun hread h => ihrefuse (hread.2 haccepts)
        fun hrest => h ⟨haccepts, hrest⟩, fun h => ihthrow fun hrest => h ⟨hreads, fun _ => hrest⟩⟩
    · refine ⟨fun h => absurd h.1 haccepts, fun hread _ => ⟨check.message, ?_⟩, fun h => ?_⟩
      · rw [runChecks, FieldCheck.run_of_reads hbody hread.1 haccepts]
        rfl
      · have hthrows : ¬check.Reads body := fun hreads => h ⟨hreads, fun h' => absurd h' haccepts⟩
        obtain ⟨x, hrun⟩ := FieldCheck.run_of_not_reads hbody hthrows
        exact ⟨x, by rw [runChecks, hrun]; rfl⟩

end Checks

/-! ## Bodies -/

section Bodies

variable {N : Type} {body : Json N}

theorem CaseBody.accepts {input : SubscriptionCaseInput} (h : CaseBody body input) :
    ∀ check ∈ caseChecks, check.Accepts body := by
  obtain ⟨⟨m, a, s, d, hm, ha, hs, hd, rfl⟩, hmerchant, haccount, hshort, hdetails, hdesired⟩ := h
  simp only [caseChecks, List.forall_mem_cons, List.not_mem_nil, false_imp_iff, implies_true,
    and_true]
  exact ⟨⟨m, hm, hmerchant, by simp⟩, ⟨a, ha, haccount, by simpa using hshort⟩,
    ⟨s, hs, hdetails, by simp⟩, ⟨d, hd, hdesired, by simp⟩⟩

theorem caseBody_of_accepts (h : ∀ check ∈ caseChecks, check.Accepts body) :
    ∃ input, CaseBody body input := by
  simp only [caseChecks, List.forall_mem_cons, List.not_mem_nil, false_imp_iff, implies_true,
    and_true] at h
  obtain ⟨⟨m, hm, hmerchant, -⟩, ⟨a, ha, haccount, hshort⟩, ⟨s, hs, hdetails, -⟩,
    ⟨d, hd, hdesired, -⟩⟩ := h
  exact ⟨_, ⟨m, a, s, d, hm, ha, hs, hd, rfl⟩, hmerchant, haccount, hshort 6 rfl, hdetails,
    hdesired⟩

theorem CaseBody.ne_null {input : SubscriptionCaseInput} (h : CaseBody body input) :
    body ≠ .null := by
  obtain ⟨⟨m, a, s, d, hm, -⟩, -⟩ := h
  rintro rfl
  cases hm

theorem requiredTrim_of_get? (hbody : body ≠ .null) {key text : Str}
    (hget : body.get? key = some (.str text)) : requiredTrim key body = .ok (trim text) := by
  rw [requiredTrim, readProperty_eq hbody, hget]
  rfl

/-- The input that is submitted is the one the body stands for. -/
theorem CaseBody.caseInput_eq {input : SubscriptionCaseInput} (h : CaseBody body input) :
    caseInput body = .ok input := by
  have hbody := h.ne_null
  obtain ⟨⟨m, a, s, d, hm, ha, hs, hd, rfl⟩, -⟩ := h
  rw [caseInput, requiredTrim_of_get? hbody hm, requiredTrim_of_get? hbody ha,
    requiredTrim_of_get? hbody hs, requiredTrim_of_get? hbody hd]
  rfl

end Bodies

/-! ## Responses of a route -/

theorem errorResponse_status (error : JsError) : (errorResponse error).status ≠ 400 := by
  unfold errorResponse
  split
  · simp
  · split
    · simp
    · split
      · simp
      · split <;> simp

/-- A `try` block answers whatever happens in it. -/
theorem responds_respond {status : Nat} (hstatus : status ≠ 400) (call : Action CaseSummary) :
    Responds (·.status ≠ 400) (respond status call) := by
  refine Obeys.bind (Obeys.attempt ((Obeys.free fun _ _ => trivial).mono fun r tr _ => ?_))
  cases r with
  | ok summary => exact ⟨_, rfl, hstatus⟩
  | error error => exact ⟨_, rfl, errorResponse_status error⟩

theorem Responds.ofPure {Q : RouteResponse → Prop} {response : RouteResponse} (h : Q response) :
    Responds Q (pure response) := ⟨response, rfl, h⟩

theorem not_responds_throw {Q : RouteResponse → Prop} {x : JsError} :
    ¬Responds Q (Prog.throw x) := fun ⟨_, h, _⟩ => nomatch h

/-- Every program comes to an end when it is answered. -/
theorem exists_gives : ∀ p : Action RouteResponse, ∃ tr r, p.Gives tr r
  | .pure a => ⟨[], .ok a, rfl, rfl⟩
  | .throw x => ⟨[], .error x, rfl, rfl⟩
  | .await e next => by
    obtain ⟨tr, r, h⟩ := exists_gives (next (.error default))
    exact ⟨⟨e, .error default⟩ :: tr, r, _, tr, rfl, h⟩

/-- No program answers in two ways. -/
theorem Responds.not_of_not {Q : RouteResponse → Prop} {p : Action RouteResponse}
    (h : Responds (fun response => ¬Q response) p) : ¬Responds Q p := by
  intro h'
  obtain ⟨tr, r, hgives⟩ := exists_gives p
  obtain ⟨response, rfl, hnot⟩ := Obeys.of_gives h hgives
  obtain ⟨response', heq, hQ⟩ := Obeys.of_gives h' hgives
  cases heq
  exact hnot hQ

/-! ## The two routes -/

section Exact

variable {N : Type} (env : Platform) (getOrchestrator : Except JsError OrchestratorDeps)
  (ownerId : Str)

theorem postCase_of_valid {body : Json N} {input : SubscriptionCaseInput}
    (h : CaseBody body input) : postCase env getOrchestrator ownerId body =
      respond 201 (submitFor env getOrchestrator ownerId input) := by
  have hvalid : validate body = .ok none := (runChecks_spec h.ne_null _).1 h.accepts
  rw [postCase, hvalid, h.caseInput_eq]
  rfl

theorem postCase_of_refused {body : Json N} {message : Str}
    (h : validate body = .ok (some message)) : postCase env getOrchestrator ownerId body =
      pure { status := 400, body := .error message } := by
  rw [postCase, h]
  rfl

theorem postCase_of_throws {body : Json N} {x : JsError} (h : validate body = .error x) :
    postCase env getOrchestrator ownerId body = Prog.throw x := by
  rw [postCase, h]
  rfl

theorem validate_null : ∃ x, validate (Json.null : Json N) = .error x := ⟨_, rfl⟩

/-- `POST /api/cases` keeps its promise exactly on the bodies it can read. -/
theorem caseRouteExact_iff (body : Json N) :
    CaseRouteExact env getOrchestrator ownerId body ↔
      body ≠ .null ∧ AllRead body caseChecks := by
  constructor
  · rintro ⟨-, hrefused⟩
    by_contra hcond
    have hthrows : ∃ x, validate body = .error x := by
      by_cases hbody : body = .null
      · rw [hbody]
        exact validate_null
      · exact (runChecks_spec hbody _).2.2 fun hread => hcond ⟨hbody, hread⟩
    obtain ⟨x, hx⟩ := hthrows
    have hinvalid : ∀ input, ¬CaseBody body input := by
      intro input h
      have hvalid : validate body = .ok none := (runChecks_spec h.ne_null _).1 h.accepts
      rw [hx] at hvalid
      cases hvalid
    have hresponds := hrefused hinvalid
    rw [postCase_of_throws env getOrchestrator ownerId hx] at hresponds
    exact not_responds_throw hresponds
  · rintro ⟨hbody, hread⟩
    refine ⟨fun input h => ?_, fun hinvalid => ?_⟩
    · have hpost := postCase_of_valid env getOrchestrator ownerId h
      exact ⟨hpost, hpost ▸ responds_respond (by omega) _⟩
    · have hnot : ¬∀ check ∈ caseChecks, check.Accepts body := by
        intro haccepts
        obtain ⟨input, h⟩ := caseBody_of_accepts haccepts
        exact hinvalid input h
      obtain ⟨message, hmessage⟩ := (runChecks_spec hbody _).2.1 hread hnot
      rw [postCase_of_refused env getOrchestrator ownerId hmessage]
      exact Responds.ofPure rfl

/-- `POST /api/cases/[caseId]/approve` keeps its promise exactly when there is no proposal id
or it is a text. -/
theorem approveRouteExact_iff (isZero : N → Bool) (caseId : Str) (body : Json N) :
    ApproveRouteExact env getOrchestrator ownerId isZero caseId body ↔
      body ≠ .null ∧ (isFalsy isZero (body.get? (js "proposalId")) = true ∨
        ∃ id, body.get? (js "proposalId") = some (.str id)) := by
  have hpost : body ≠ .null → postApproval env getOrchestrator ownerId isZero caseId body =
      if isFalsy isZero (body.get? (js "proposalId")) then
        pure { status := 400, body := .error (js "proposalId is required.") }
      else respond 200 (approveFor env getOrchestrator ownerId caseId
        (body.get? (js "proposalId"))) := by
    intro hbody
    rw [postApproval, destructure_eq hbody]
    rfl
  constructor
  · rintro ⟨-, hrefused⟩
    have hbody : body ≠ .null := by
      rintro rfl
      exact not_responds_throw (hrefused fun id h => nomatch h)
    refine ⟨hbody, ?_⟩
    by_contra hcond
    simp only [not_or, not_exists] at hcond
    obtain ⟨htruthy, htext⟩ := hcond
    have hresponds := hrefused fun id h => absurd h (htext id)
    rw [hpost hbody, if_neg htruthy] at hresponds
    exact (responds_respond (by omega) _).not_of_not hresponds
  · rintro ⟨hbody, hcond⟩
    rw [ApproveRouteExact, hpost hbody]
    refine ⟨fun id hid hne => ?_, fun hinvalid => ?_⟩
    · have htruthy : ¬isFalsy isZero (body.get? (js "proposalId")) = true := by
        rw [hid]
        simpa [isFalsy] using hne
      rw [if_neg htruthy, hid]
      exact ⟨rfl, responds_respond (by omega) _⟩
    · have hfalsy : isFalsy isZero (body.get? (js "proposalId")) = true := by
        rcases hcond with hfalsy | ⟨id, hid⟩
        · exact hfalsy
        · rw [hid, hinvalid id hid]
          rfl
      rw [if_pos hfalsy]
      exact Responds.ofPure rfl

/-- Each route keeps its promise exactly on the bodies it can read: objects (or other values
that are not `null`) in which every field that is looked at has a type it is meant to have, or
counts as missing. -/
theorem routes_exact_iff (isZero : N → Bool) (caseId : Str) (body : Json N) :
    (CaseRouteExact env getOrchestrator ownerId body ↔
      body ≠ .null ∧ AllRead body caseChecks) ∧
    (ApproveRouteExact env getOrchestrator ownerId isZero caseId body ↔
      body ≠ .null ∧ (isFalsy isZero (body.get? (js "proposalId")) = true ∨
        ∃ id, body.get? (js "proposalId") = some (.str id))) :=
  ⟨caseRouteExact_iff env getOrchestrator ownerId body,
    approveRouteExact_iff env getOrchestrator ownerId isZero caseId body⟩

end Exact

/-- `null`, `{ "merchantName": 5 }` and `{ "proposalId": 5 }` -/
theorem routes_not_exact :
    ¬CaseRouteExact samplePlatform (.ok sampleDeps) (js "owner_1") (.null : Json Int) ∧
    ¬CaseRouteExact samplePlatform (.ok sampleDeps) (js "owner_1")
      (.obj [(js "merchantName", .num 5)] : Json Int) ∧
    ¬ApproveRouteExact samplePlatform (.ok sampleDeps) (js "owner_1") (fun n : Int => n == 0)
      (js "case_1") .null ∧
    ¬ApproveRouteExact samplePlatform (.ok sampleDeps) (js "owner_1") (fun n : Int => n == 0)
      (js "case_1") (.obj [(js "proposalId", .num 5)]) := by
  refine ⟨fun h => ?_, fun h => ?_, fun h => ?_, fun h => ?_⟩
  · exact ((caseRouteExact_iff _ _ _ _).mp h).1 rfl
  · have hread := ((caseRouteExact_iff _ _ _ _).mp h).2 [] _ _ rfl (by simp)
    have hget : Json.get? (js "merchantName") (.obj [(js "merchantName", .num (5 : Int))]) =
        some (.num 5) := rfl
    simp [FieldCheck.Reads, hget] at hread
  · exact ((approveRouteExact_iff _ _ _ _ _ _).mp h).1 rfl
  · rcases ((approveRouteExact_iff _ _ _ _ _ _).mp h).2 with h | ⟨id, h⟩
    · revert h
      decide
    · have hget : Json.get? (js "proposalId") (.obj [(js "proposalId", .num (5 : Int))]) =
          some (.num 5) := rfl
      rw [hget] at h
      simp at h

end Clawback
