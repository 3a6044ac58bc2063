import Clawback.Agent.Runs
import Clawback.Web.App

/-!
# Who is shown a case, and what is sent for it

The responses of the web app, over every run of interleaved requests.

* `requests_run_agent`: in every run, the requests do what a run of the agent does, and tell what
  its calls have returned.
* `shown_to_owner`: a case is shown only to browsers with the cookie of the one that opened it.
* `sent_is_shown`: what is sent for a case is the message that the responses about it show, and
  it has been approved by the id of its proposal.
-/

namespace Clawback

open Js Async

section Runs

variable {N : Type} {env : Platform} {getOrchestrator : Except JsError OrchestratorDeps}
  {production : Bool} {isZero : N → Bool} {moves : List (Move (Request N) Choice)}
  {P : Pool (Request N) Effect Effect.Answer JsError World ApiResponse}

/-! ## Responses -/

/-- The request `t` has been answered. -/
def Responded (P : Pool (Request N) Effect Effect.Answer JsError World ApiResponse) (t : Nat)
    (request : Request N) (response : ApiResponse) : Prop :=
  ∃ prog, P.threads[t]? = some (request, prog) ∧ prog.result? = some (.ok response)

/-- The request `t`, if it has been answered, and its response. -/
def responseOf (P : Pool (Request N) Effect Effect.Answer JsError World ApiResponse) (t : Nat) :
    Option (Request N × ApiResponse) :=
  match P.threads[t]? with
  | some (request, .pure response) => some (request, response)
  | _ => none

theorem responded_of_responseOf {t : Nat} {request : Request N} {response : ApiResponse}
    (h : responseOf P t = some (request, response)) : Responded P t request response := by
  unfold responseOf at h
  split at h
  · rename_i hthread
    cases h
    exact ⟨_, hthread, rfl⟩
  · cases h

/-- The case that the response shows: its summary, or a report on it. -/
def shownCase (request : Request N) (response : ApiResponse) : Option Str :=
  match response.body, request.route with
  | .response (.case summary), _ => some summary.caseId
  | .report _, .getReport caseId => some caseId
  | _, _ => none

section Requests

variable {place : Nat → Option Nat} {p : Pool Call Effect Effect.Answer JsError World CallResult}
  {moves' : List (Move Call Choice)} {t : Nat} {request : Request N} {response : ApiResponse}

/-- A response that shows something comes from a call that has returned it. -/
theorem call_of_answered (hserves : WebServes env getOrchestrator place P p)
    (hanswered : Responded P t request response) (hbody : ¬response.body.IsError) :
    ∃ i k rest r, Made (ComesTo getOrchestrator) place P p t i request k ∧
      p.threads[i]? = some (k, rest) ∧ rest.result? = some r ∧ response.body.Tells r ∧
      Makes request k ∧ cookieAfter request response = k.owner? := by
  obtain ⟨prog, hthread, hresult⟩ := hanswered
  rcases (hserves.stands t request prog hthread).result hresult with ⟨-, ⟨x, hx⟩ | hdone⟩ | hcalled
  · cases hx
  · obtain ⟨response', heq, hrefused⟩ := hdone
    cases heq
    exact absurd hrefused.isError hbody
  · obtain ⟨k, answer, i, rest, r, -, hplace, htask, hcall, hr, heq, -⟩ := hcalled
    exact ⟨i, k, rest, r, ⟨hplace, ⟨prog, hthread⟩, ⟨rest, hcall⟩, answer, htask⟩, hcall, hr,
      htask.tells r response heq.symm, htask.makes, htask.owner r response heq.symm⟩

/-- What is shown of a case is of a stored record of the case, whose owner the browser is. -/
theorem stored_of_shown (hserves : WebServes env getOrchestrator place P p)
    (hrun : (agent env).run (Pool.init World.empty) moves' = some p)
    (hanswered : Responded P t request response) {c : Str}
    (hshows : shownCase request response = some c) :
    ∃ i r, Stored p.history i r ∧ r.caseId = c ∧
      cookieAfter request response = some r.ownerId ∧
      ∀ summary, response.body = .response (.case summary) → summary = toSummary r := by
  unfold shownCase at hshows
  split at hshows
  · rename_i summary hbody
    cases hshows
    have hshown : ¬response.body.IsError := by
      rw [hbody]
      exact id
    obtain ⟨i, k, rest, r, -, hcall, hr, htells, -, howner⟩ :=
      call_of_answered hserves hanswered hshown
    rw [hbody] at htells
    obtain rfl : r = _ := htells
    obtain ⟨u, record, hst, rfl, hfor, -⟩ := summary_of_run hrun hcall hr
    refine ⟨u, record, hst, rfl, howner.trans hfor, fun summary' heq => ?_⟩
    rw [hbody] at heq
    cases heq
    rfl
  · rename_i report caseId hbody hroute
    cases hshows
    have hshown : ¬response.body.IsError := by
      rw [hbody]
      exact id
    obtain ⟨i, k, rest, r, -, hcall, hr, htells, hmakes, howner⟩ :=
      call_of_answered hserves hanswered hshown
    rw [hbody] at htells
    obtain rfl : r = _ := htells
    obtain ⟨u, record, hst, rfl, -⟩ := report_of_run hrun hcall hr
    cases hmakes
    cases hroute
    refine ⟨u, record, hst, rfl, howner, fun summary heq => ?_⟩
    rw [hbody] at heq
    cases heq
  · cases hshows

/-- The call that creates a record is the submission of its owner. -/
theorem owner_of_created (hrun : (agent env).run (Pool.init World.empty) moves' = some p)
    {i : Nat} {k : Call} (hcall : ∃ rest, p.threads[i]? = some (k, rest)) {d : CaseRecord}
    (hd : Created p.history i d) :
    ∃ deps input, k = .submitCase deps d.ownerId input := by
  have hsound := System.run_lawful start_obeys hrun
  obtain ⟨rest, hcall⟩ := hcall
  obtain ⟨h₁, h₂, heq⟩ := List.append_of_mem hd
  obtain ⟨k', _, _, _, -, hk', hcreates, -, -⟩ := hsound.lawful.split heq
  obtain rfl := hsound.lawful.called_unique (hsound.called i k rest hcall)
    (heq ▸ List.mem_append_left _ hk')
  cases hcreates
  exact ⟨_, _, rfl⟩

end Requests

/-! ## A sample run -/

def sampleBody : Json Int := .obj
  [(js "merchantName", .str (js "Acme")), (js "accountIdentifierLast4", .str (js "1003")),
    (js "subscriptionDetails", .str (js "Premium, $19.99/month.")),
    (js "desiredOutcome", .str (js " Refund $19.99. "))]

def sampleWebApp : System (Request Int) Effect Effect.Answer JsError World Choice ApiResponse :=
  webApp samplePlatform (.ok sampleDeps) false (· == 0)

/-- A browser without a cookie submits a case, looks at it and approves its proposal. -/
def sampleRequests : List (Move (Request Int) Choice) :=
  .call { cookie := none, route := .postCase (.ok sampleBody) } ::
    (.text (js "0") :: sampleChoices).map (.step 0) ++
  [.call { cookie := some (js "owner_0"), route := .getCase (js "case_1") }, .step 1 .ok] ++
  .call { cookie := some (js "owner_0")
          route := .postApproval (js "case_1")
            (.ok (.obj [(js "proposalId", .str (js "proposal_2"))])) } ::
    (sampleAnswers ++ [sampleTime, .ok, sampleTime, .ok]).map (.step 2)

/-- The event is an action of the request `t`. -/
def sendsAction {K : Type} (t : Nat) : Event K Effect Effect.Answer JsError → Bool
  | .did u ⟨.sendAction _, _⟩ => u == t
  | _ => false

theorem did_of_sendsAction {K : Type} {t : Nat} {ev : Event K Effect Effect.Answer JsError}
    (h : sendsAction t ev = true) : ∃ action result, ev = .did t ⟨.sendAction action, result⟩ := by
  unfold sendsAction at h
  split at h
  · cases eq_of_beq h
    exact ⟨_, _, rfl⟩
  · cases h

set_option maxRecDepth 10000 in
/-- The case is shown twice, and an action is sent. -/
theorem sampleRequests_run : ∃ P, sampleWebApp.run (Pool.init World.empty) sampleRequests = some P ∧
    (∃ request response, Responded P 0 request response ∧
      shownCase request response = some (js "case_1")) ∧
    (∃ request response, Responded P 1 request response ∧
      shownCase request response = some (js "case_1")) ∧
    ∃ action result, .did 2 ⟨.sendAction action, result⟩ ∈ P.history := by
  have hany : ((sampleWebApp.run (Pool.init World.empty) sampleRequests).any fun P =>
      ((responseOf P 0).any fun answer => shownCase answer.1 answer.2 == some (js "case_1")) &&
      ((responseOf P 1).any fun answer => shownCase answer.1 answer.2 == some (js "case_1")) &&
      P.history.any (sendsAction 2)) = true := by decide +kernel
  obtain ⟨P, hrun, hP⟩ := (Option.any_eq_true _ _).mp hany
  simp only [Bool.and_eq_true] at hP
  obtain ⟨⟨hfirst, hsecond⟩, hsent⟩ := hP
  obtain ⟨⟨q, r⟩, hanswer, hshown⟩ := (Option.any_eq_true _ _).mp hfirst
  obtain ⟨⟨q', r'⟩, hanswer', hshown'⟩ := (Option.any_eq_true _ _).mp hsecond
  obtain ⟨ev, hev, hsends⟩ := List.any_eq_true.mp hsent
  obtain ⟨action, result, rfl⟩ := did_of_sendsAction hsends
  exact ⟨P, hrun, ⟨q, r, responded_of_responseOf hanswer, eq_of_beq hshown⟩,
    ⟨q', r', responded_of_responseOf hanswer', eq_of_beq hshown'⟩, action, result, hev⟩

/-! ## What the app does -/

/-- The run of the app does what the run of the agent does: a request does what a call does that it
may make, and nothing else but to draw an identity, and what it shows is what the call has
returned to the one who asks. -/
structure RunsAs (P : Pool (Request N) Effect Effect.Answer JsError World ApiResponse)
    (p : Pool Call Effect Effect.Answer JsError World CallResult) : Prop where
  store : P.world.store = p.world.store
  ledger : P.world.ledger = p.world.ledger
  requests : ∀ t a, .did t a ∈ P.history → a.effect = .randomUUID ∨
    ∃ request prog i k rest, P.threads[t]? = some (request, prog) ∧
      p.threads[i]? = some (k, rest) ∧ Makes request k ∧ .did i a ∈ p.history
  calls : ∀ i a, .did i a ∈ p.history → ∃ t, .did t a ∈ P.history
  responses : ∀ t request response, Responded P t request response → ¬response.body.IsError →
    ∃ (i : Nat) (k : Call) (rest : Action CallResult) (r : Except JsError CallResult),
      p.threads[i]? = some (k, rest) ∧ rest.result? = some r ∧ Makes request k ∧
        response.body.Tells r ∧ cookieAfter request response = k.owner?

/-- **The web app runs the agent.** Every run of the web app does what some run of the agent does,
with the same store and ledger in the end. -/
theorem requests_run_agent
    (hrun : (webApp env getOrchestrator production isZero).run (Pool.init World.empty) moves =
      some P) :
    ∃ moves' p, (agent env).run (Pool.init World.empty) moves' = some p ∧ RunsAs P p := by
  obtain ⟨moves', p, place, hinner, hserves⟩ := calls_of_run hrun
  refine ⟨moves', p, hinner, hserves.world.store, hserves.world.ledger, ?_, ?_, ?_⟩
  · intro t a hdid
    refine (hserves.made_of_did hdid).imp_right ?_
    rintro ⟨i, request, k, hmade, hcalled⟩
    obtain ⟨prog, hthread⟩ := hmade.request
    obtain ⟨rest, hcall⟩ := hmade.call
    obtain ⟨answer, htask⟩ := hmade.task
    exact ⟨request, prog, i, k, rest, hthread, hcall, htask.makes, hcalled⟩
  · intro i a hdid
    obtain ⟨t, -, -, -, hdone⟩ := hserves.did_of_call hdid
    exact ⟨t, hdone⟩
  · intro t request response hanswered hshows
    obtain ⟨i, k, rest, r, -, hcall, hr, htells, hmakes, howner⟩ :=
      call_of_answered hserves hanswered hshows
    exact ⟨i, k, rest, r, hcall, hr, hmakes, htells, howner⟩

/-- A call of the agent sends what the sample requests have sent. -/
theorem requests_run_agent_sample :
    ∃ P moves p, sampleWebApp.run (Pool.init World.empty) sampleRequests = some P ∧
      (agent samplePlatform).run (Pool.init World.empty) moves = some p ∧ RunsAs P p ∧
      ∃ i k rest action result, p.threads[i]? = some (k, rest) ∧
        .did i ⟨.sendAction action, result⟩ ∈ p.history := by
  obtain ⟨P, hrun, -, -, action, result, hsent⟩ := sampleRequests_run
  obtain ⟨moves, p, hinner, hruns⟩ := requests_run_agent hrun
  refine ⟨P, moves, p, hrun, hinner, hruns, ?_⟩
  rcases hruns.requests _ _ hsent with heffect | ⟨_, _, i, k, rest, -, hcall, -, hdone⟩
  · cases heffect
  · exact ⟨i, k, rest, action, result, hcall, hdone⟩

/-! ## Who has opened a case -/

/-- The request `t` has stored the first record of a case. -/
def Opened (P : Pool (Request N) Effect Effect.Answer JsError World ApiResponse) (t : Nat)
    (d : CaseRecord) : Prop :=
  .did t ⟨.create d, .ok ()⟩ ∈ P.history

/-- The request `u` has opened the case `c` with the record `d`, and no other request has. -/
structure OpenedBy (P : Pool (Request N) Effect Effect.Answer JsError World ApiResponse) (u : Nat)
    (opener : Request N) (c : Str) (d : CaseRecord) : Prop where
  request : ∃ prog, P.threads[u]? = some (opener, prog)
  route : ∃ body, opener.route = .postCase (.ok body)
  opened : Opened P u d
  caseId : d.caseId = c
  owner : ∀ response, Responded P u opener response →
    cookieAfter opener response = some d.ownerId
  unique : ∀ u' d', Opened P u' d' → d'.caseId = c → u' = u ∧ d' = d

/-- **Who is shown a case.** In every run of the web app, a case that a response shows has been
opened by one request, and the browser that it is shown to has the cookie of its owner. -/
theorem shown_to_owner
    (hrun : (webApp env getOrchestrator production isZero).run (Pool.init World.empty) moves =
      some P) {t : Nat} {request : Request N} {response : ApiResponse}
    (hanswered : Responded P t request response) {c : Str}
    (hshows : shownCase request response = some c) :
    ∃ u opener d, OpenedBy P u opener c d ∧ cookieAfter request response = some d.ownerId := by
  obtain ⟨moves', p, place, hinner, hserves⟩ := calls_of_run hrun
  have hl := (System.run_lawful start_obeys hinner).lawful
  obtain ⟨i, r, hst, rfl, howner, -⟩ := stored_of_shown hserves hinner hanswered hshows
  obtain ⟨v, d, hd, hcore⟩ := created_of_stored hl hst
  obtain ⟨u, opener, k, hmade, hopened⟩ := hserves.did_of_call hd
  obtain ⟨deps, input, rfl⟩ := owner_of_created hinner hmade.call hd
  refine ⟨u, opener, d, ⟨hmade.request, ?_, hopened, hcore.caseId.symm, ?_, ?_⟩, ?_⟩
  · obtain ⟨answer, htask⟩ := hmade.task
    cases htask.makes
    exact ⟨_, rfl⟩
  · rintro response' ⟨prog, hthread, hresult⟩
    obtain ⟨answer, rest, r', htask, -, -, heq⟩ := hserves.reply_of_made hmade hthread hresult
    exact htask.owner r' response' heq.symm
  · intro u' d' hopened' hid
    rcases hserves.made_of_did hopened' with hquiet | ⟨j, _, _, hmade', hd'⟩
    · cases hquiet
    · obtain ⟨rfl, rfl⟩ := created_unique hl hd' hd (hid.trans hcore.caseId)
      exact ⟨hserves.injective u' u j hmade'.place hmade.place, rfl⟩
  · rw [howner, hcore.ownerId]

/-- The second request of the sample run is shown the case that the first has opened. -/
theorem shown_to_owner_sample :
    ∃ P request response u opener d,
      sampleWebApp.run (Pool.init World.empty) sampleRequests = some P ∧
      Responded P 1 request response ∧ shownCase request response = some (js "case_1") ∧
      OpenedBy P u opener (js "case_1") d ∧ cookieAfter request response = some d.ownerId := by
  obtain ⟨P, hrun, -, ⟨request, response, hanswered, hshows⟩, -⟩ := sampleRequests_run
  obtain ⟨u, opener, d, hopened, howner⟩ := shown_to_owner hrun hanswered hshows
  exact ⟨P, request, response, u, opener, d, hrun, hanswered, hshows, hopened, howner⟩

/-! ## What is sent -/

/-- The request `t` approves the proposal `id` of the case for the owner, and every stored record of
the case is the owner's, with this message in the proposal, or without a proposal. -/
structure ApprovedBy (P : Pool (Request N) Effect Effect.Answer JsError World ApiResponse)
    (p : Pool Call Effect Effect.Answer JsError World CallResult) (t : Nat)
    (action : ProviderActionRequest) (request : Request N) (id ownerId : Str) : Prop where
  thread : ∃ prog, P.threads[t]? = some (request, prog)
  route : ∃ body, request.route = .postApproval action.caseId (.ok body) ∧
    body.get? (js "proposalId") = some (.str id)
  cookie : ∀ response, Responded P t request response →
    cookieAfter request response = some ownerId
  owner : ∀ i r, Stored p.history i r → r.caseId = action.caseId → r.ownerId = ownerId
  message : ∀ i r proposal, Stored p.history i r → r.caseId = action.caseId →
    r.proposal = some proposal →
      proposal.proposalId = id ∧ proposal.exactMessage = action.exactMessage

/-- What is sent has been approved. -/
theorem approved_of_sent {place : Nat → Option Nat}
    {p : Pool Call Effect Effect.Answer JsError World CallResult} {moves' : List (Move Call Choice)}
    (hserves : WebServes env getOrchestrator place P p)
    (hrun : (agent env).run (Pool.init World.empty) moves' = some p) {t : Nat}
    {action : ProviderActionRequest} {result : Except JsError ProviderActionResult}
    (hsent : .did t ⟨.sendAction action, result⟩ ∈ P.history) :
    ∃ request id ownerId, ApprovedBy P p t action request id ownerId := by
  have hsound := System.run_lawful start_obeys hrun
  rcases hserves.made_of_did hsent with hquiet | ⟨i, asker, k, hmade, hsent'⟩
  · cases hquiet
  obtain ⟨h₁, h₂, heq⟩ := List.append_of_mem hsent'
  obtain ⟨k', _, w₁, _, hl₁, hk', hsends, -, -⟩ := hsound.lawful.split heq
  obtain ⟨rest, hcall⟩ := hmade.call
  obtain rfl := hsound.lawful.called_unique (hsound.called i k rest hcall)
    (heq ▸ List.mem_append_left _ hk')
  cases hsends with
  | @mk deps _ ownerId id _ proposal current _ _ _ _ hchecked _ _ _ _ _ =>
    obtain ⟨hget, howner, hproposal, rfl⟩ := hchecked
    have hread : .did i ⟨.get _, .ok current⟩ ∈ h₁ := mem_own.mp hget
    obtain ⟨⟨v, hst⟩, hid⟩ := stored_of_get hl₁ hread
    have hmono : Stored p.history v current := hst.mono (heq ▸ List.subset_append_left _ _)
    obtain ⟨answer, htask⟩ := hmade.task
    have hmakes := htask.makes
    cases hmakes with
    | approve hbody =>
      refine ⟨_, _, ownerId, hmade.request, ⟨_, rfl, hbody⟩, ?_, ?_, ?_⟩
      · rintro response ⟨prog, hthread, hresult⟩
        obtain ⟨answer', rest', r', htask', -, -, heq'⟩ :=
          hserves.reply_of_made hmade hthread hresult
        exact htask'.owner r' response heq'.symm
      · intro j r hst' hcase
        rw [(sameCore_of_stored hsound.lawful hmono hst' (hid.trans hcase.symm)).ownerId, howner]
      · intro j r proposal' hst' hcase hshows
        obtain rfl := proposal_unique hsound.lawful hst' hmono (hcase.trans hid.symm) hshows
          hproposal
        exact ⟨rfl, rfl⟩

/-- **What is sent has been shown.** In every run of the web app, an action is sent by a request
that approves a proposal of its case by its id. Every response that shows the case shows that
proposal or none, with the very message that is sent, and to the browser that has approved. -/
theorem sent_is_shown
    (hrun : (webApp env getOrchestrator production isZero).run (Pool.init World.empty) moves =
      some P) {t : Nat} {action : ProviderActionRequest}
    {result : Except JsError ProviderActionResult}
    (hsent : .did t ⟨.sendAction action, result⟩ ∈ P.history) :
    ∃ request body id, (∃ prog, P.threads[t]? = some (request, prog)) ∧
      request.route = .postApproval action.caseId (.ok body) ∧
      body.get? (js "proposalId") = some (.str id) ∧
      ∀ u reader response summary, Responded P u reader response →
        response.body = .response (.case summary) → summary.caseId = action.caseId →
          (∀ proposal, summary.proposal = some proposal →
            proposal.proposalId = id ∧ proposal.exactMessage = action.exactMessage) ∧
          ∀ response', Responded P t request response' →
            cookieAfter request response' = cookieAfter reader response := by
  obtain ⟨moves', p, place, hinner, hserves⟩ := calls_of_run hrun
  obtain ⟨request, id, ownerId, happroved⟩ := approved_of_sent hserves hinner hsent
  obtain ⟨body, hroute, hbody⟩ := happroved.route
  refine ⟨request, body, id, happroved.thread, hroute, hbody, ?_⟩
  intro u reader response summary hanswered hshown hcase
  obtain ⟨j, r, hst, hid, hfor, hsummary⟩ :=
    stored_of_shown hserves hinner hanswered (c := summary.caseId) (by rw [shownCase, hshown])
  obtain rfl := hsummary summary hshown
  refine ⟨fun proposal hshows => happroved.message j r proposal hst hcase hshows, ?_⟩
  intro response' hresponded
  rw [happroved.cookie response' hresponded, hfor, happroved.owner j r hst hcase]

/-- What the third request of the sample run sends has been shown to the second. -/
theorem sent_is_shown_sample :
    ∃ P request body id, ∃ action : ProviderActionRequest,
      sampleWebApp.run (Pool.init World.empty) sampleRequests = some P ∧
      (∃ prog, P.threads[2]? = some (request, prog)) ∧
      request.route = .postApproval action.caseId (.ok body) ∧
      body.get? (js "proposalId") = some (.str id) ∧
      ∀ u reader response summary, Responded P u reader response →
        response.body = .response (.case summary) → summary.caseId = action.caseId →
          ∀ proposal, summary.proposal = some proposal →
            proposal.proposalId = id ∧ proposal.exactMessage = action.exactMessage := by
  obtain ⟨P, hrun, -, -, action, result, hsent⟩ := sampleRequests_run
  obtain ⟨request, body, id, hrequest, hroute, hbody, hshown⟩ := sent_is_shown hrun hsent
  exact ⟨P, request, body, id, action, hrun, hrequest, hroute, hbody,
    fun u reader response summary hanswered hsummary hcase =>
      (hshown u reader response summary hanswered hsummary hcase).1⟩

end Runs

end Clawback
