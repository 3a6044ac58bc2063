import Clawback.Agent.Invariant
import Clawback.Chain.Network

/-!
# The agent on a network

The system of the agent, with the contract CaseAnchor and the storage network as parts of the
world. An upload puts the JSON text of the receipt under its root hash; `anchorReceipt` resolves
only when its transaction has succeeded. Before every effect third parties do what they like.

* `run_of_onNetwork`: on a network the environment answers less, so every run is a run of the
  agent, and what holds of all of these holds on the network (`consistent_onNetwork`).
-/

namespace Clawback

open Js Async

variable {env : Platform}

/-- What the environment decides at an effect: what third parties do before it, who sends the
transaction and when, and the answer. -/
structure NetworkChoice where
  foreign : List Foreign
  sender : Address
  timestamp : BitVec 256
  choice : Choice

/-- The network after an effect; `none` when the network does not allow the answer. -/
def publish (c : NetworkChoice) (n : Network) : (e : Effect) → Except JsError e.Answer →
    Option Network
  | .uploadJson receipt, .ok stored =>
    n.upload stored.rootHash (Json.stringify (toJson receipt : Json Int))
  | .anchorReceipt caseId receiptCommitment previousCommitment, .ok _ =>
    (anchorCall caseId receiptCommitment previousCommitment c.sender c.timestamp).bind n.anchor
  | _, _ => some n

def execOnNetwork (e : Effect) (c : NetworkChoice) (w : World × Network) :
    Option (Except JsError e.Answer × (World × Network)) := do
  let n ← w.2.applyAll c.foreign
  let answer ← exec e c.choice w.1
  let n' ← publish c n e answer.1
  return (answer.1, (answer.2, n'))

/-- Calls to the orchestrator that share a case store, a contract and a storage network. -/
def onNetwork (env : Platform) :
    System Call Effect Effect.Answer JsError (World × Network) NetworkChoice CallResult where
  start := start env
  exec := execOnNetwork

theorem execOnNetwork_spec {e : Effect} {c : NetworkChoice} {w w' : World × Network}
    {r : Except JsError e.Answer} (h : execOnNetwork e c w = some (r, w')) :
    ∃ n, w.2.applyAll c.foreign = some n ∧ exec e c.choice w.1 = some (r, w'.1) ∧
      publish c n e r = some w'.2 := by
  obtain ⟨n, hn, h⟩ := Option.bind_eq_some_iff.mp h
  obtain ⟨⟨r', w₁⟩, hexec, h⟩ := Option.bind_eq_some_iff.mp h
  obtain ⟨n', hpublish, h⟩ := Option.bind_eq_some_iff.mp h
  cases h
  exact ⟨n, hn, hexec, hpublish⟩

/-- Every run on a network is a run of the agent. -/
theorem run_of_onNetwork {moves : List (Move Call NetworkChoice)}
    {p p' : Pool Call Effect Effect.Answer JsError (World × Network) CallResult}
    (h : (onNetwork env).run p moves = some p') :
    (agent env).run (p.mapWorld Prod.fst) (moves.map (.mapChoice NetworkChoice.choice)) =
      some (p'.mapWorld Prod.fst) := by
  have hexec : ∀ e c w r w₁, (onNetwork env).exec e c w = some (r, w₁) →
      (agent env).exec e (NetworkChoice.choice c) (Prod.fst w) = some (r, Prod.fst w₁) := by
    intro e c w r w₁ hanswer
    obtain ⟨n, -, hsame, -⟩ := execOnNetwork_spec hanswer
    exact hsame
  have hstart : (agent env).start = (onNetwork env).start := rfl
  exact System.run_mapWorld hstart hexec h

/-- On a network too the records in the store are consistent, each under its own key. -/
theorem consistent_onNetwork {n₀ : Network} {moves : List (Move Call NetworkChoice)}
    {p : Pool Call Effect Effect.Answer JsError (World × Network) CallResult}
    (h : (onNetwork env).run (Pool.init (World.empty, n₀)) moves = some p) {c : Str}
    {r : CaseRecord} (hr : p.world.1.store c = some r) : Consistent env r ∧ r.caseId = c :=
  consistent_of_run (run_of_onNetwork h) hr

/-! ## What the network has of an effect -/

theorem publish_keeps {c : NetworkChoice} {n n' : Network} {e : Effect}
    {r : Except JsError e.Answer} (h : publish c n e r = some n') : n.Keeps n' := by
  unfold publish at h
  split at h
  · exact (Network.upload_spec h).1
  · obtain ⟨call, -, hanchor⟩ := Option.bind_eq_some_iff.mp h
    exact (Network.anchor_spec hanchor).1
  · cases h
    exact .refl _

theorem execOnNetwork_keeps {e : Effect} {c : NetworkChoice} {w w' : World × Network}
    {r : Except JsError e.Answer} (h : execOnNetwork e c w = some (r, w')) : w.2.Keeps w'.2 := by
  obtain ⟨n, hn, -, hpublish⟩ := execOnNetwork_spec h
  exact (Network.keeps_of_applyAll hn).trans (publish_keeps hpublish)

end Clawback
