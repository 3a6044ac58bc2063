import Clawback.Agent.Conformance
import Clawback.Async.Register

/-!
# Histories of the agent

The record of a case is a register. What holds of every history of calls that obey their
rules, in terms of what the effects have answered:

* `current_of_get`: a call reads the current record.
* `uuid_unique`: no two calls draw the same UUID.
* `time_nonempty`: the clock has a reading.
-/

namespace Clawback

open Js Async

abbrev AgentHistory := History Call Effect Effect.Answer JsError

/-- The histories of runs from an empty store. -/
abbrev AgentLawful (env : Platform) : AgentHistory → World → Prop :=
  Lawful (agent env) (Allowed env) World.empty

/-- The record of a case, read by `get` and written by `create` and `save`. -/
def caseRegister (c : Str) : Register Effect Effect.Answer JsError CaseRecord where
  read
    | ⟨.get caseId, .ok r⟩ => if caseId = c then some r else none
    | _ => none
  write
    | ⟨.create r, .ok _⟩ => if r.caseId = c then some r else none
    | ⟨.save r, .ok _⟩ => if r.caseId = c then some r else none
    | _ => none

section

variable {c : Str}

@[simp] theorem write_create (r : CaseRecord) :
    (caseRegister c).write ⟨.create r, .ok ()⟩ = if r.caseId = c then some r else none := rfl

@[simp] theorem write_save (r : CaseRecord) :
    (caseRegister c).write ⟨.save r, .ok ()⟩ = if r.caseId = c then some r else none := rfl

theorem write_external {e : Effect} {r : Except JsError e.Answer} (h : e.isExternal = true) :
    (caseRegister c).write ⟨e, r⟩ = none := by
  cases e <;> first | rfl | cases h

theorem write_error {e : Effect} {x : JsError} :
    (caseRegister c).write ⟨e, .error x⟩ = none := by
  cases e <;> rfl

end

/-- Serialising a record and reading it back changes nothing. -/
theorem reloaded_eq (record : CaseRecord) : reloaded record = some record :=
  ofText_stringifyIndented record

theorem Reading.settled {c : Str} {before tr : CallTrace} {r : CaseRecord}
    (h : Reading c before r tr) : (caseRegister c).Settled tr r := by
  obtain ⟨since, rfl, hsince⟩ := h
  refine ⟨before, _, since, rfl, if_pos rfl, rfl, ?_⟩
  rintro ⟨e, res⟩ ha
  have hquiet := hsince _ ha
  cases e <;> first | exact ⟨rfl, rfl⟩ | cases hquiet

/-! ## What the environment answers -/

theorem put_store (w : World) (r : CaseRecord) (c : Str) :
    (w.put r).store c = (if r.caseId = c then some r else none).or (w.store c) := by
  by_cases h : r.caseId = c
  · rw [if_pos h]
    exact if_pos h.symm
  · rw [if_neg h, Option.none_or]
    exact if_neg (Ne.symm h)

theorem answered_store {e : Effect} {w w' : World} {r : Except JsError e.Answer}
    (h : Answered w e r w') (c : Str) :
    w'.store c = ((caseRegister c).write ⟨e, r⟩).or (w.store c) := by
  cases h with
  | failed => rw [write_error, Option.none_or]
  | created => rw [put_store, write_create]
  | saved => rw [put_store, write_save]
  | @reloaded caseId =>
    change (if c = caseId then _ else _) = w.store c
    split
    · rename_i heq
      subst heq
      cases w.store c with
      | none => rfl
      | some record => rw [Option.bind_some, reloaded_eq]
    · rfl
  | external hexternal => rw [write_external hexternal, Option.none_or]
  | _ => rfl

theorem answered_get {caseId : Str} {w w' : World} {r : CaseRecord}
    (h : Answered w (.get caseId) (.ok r) w') : w.store caseId = some r := by
  cases h with
  | got hfound => exact hfound
  | external hexternal => cases hexternal

theorem answered_uuid {uuid : Str} {w w' : World}
    (h : Answered w .randomUUID (.ok uuid) w') : uuid ∉ w.drawn ∧ uuid ∈ w'.drawn := by
  cases h with
  | drawn hfresh => exact ⟨hfresh, List.mem_cons_self⟩
  | external hexternal => cases hexternal

theorem answered_drawn {e : Effect} {w w' : World} {r : Except JsError e.Answer}
    (h : Answered w e r w') {uuid : Str} (hdrawn : uuid ∈ w.drawn) : uuid ∈ w'.drawn := by
  cases h with
  | drawn _ => exact List.mem_cons_of_mem _ hdrawn
  | _ => exact hdrawn

theorem answered_now {time : Str} {w w' : World} (h : Answered w .now (.ok time) w') :
    time ≠ [] := by
  cases h with
  | now htime => exact htime
  | external hexternal => cases hexternal

theorem answered_bytes {size : Nat} {b : Bytes} {w w' : World}
    (h : Answered w (.randomBytes size) (.ok b) w') : b.length = size := by
  cases h with
  | randomBytes hlength => exact hlength
  | external hexternal => cases hexternal

/-! ## Histories -/

/-- Call `t` has stored `r`. -/
def Stored (h : AgentHistory) (t : Nat) (r : CaseRecord) : Prop :=
  .did t ⟨.create r, .ok ()⟩ ∈ h ∨ .did t ⟨.save r, .ok ()⟩ ∈ h

theorem Stored.mono {h h' : AgentHistory} {t : Nat} {r : CaseRecord} (hst : Stored h t r)
    (hsub : h ⊆ h') : Stored h' t r :=
  hst.imp (fun hmem => hsub hmem) fun hmem => hsub hmem

theorem Stored.of_called {h : AgentHistory} {t u : Nat} {k : Call} {r : CaseRecord}
    (hst : Stored (h ++ [.called t k]) u r) : Stored h u r := by
  simpa [Stored] using hst

theorem Stored.of_did {h : AgentHistory} {t u : Nat} {a : Entry Effect Effect.Answer JsError}
    {r : CaseRecord} (hst : Stored (h ++ [.did t a]) u r) :
    Stored h u r ∨ u = t ∧ (a = ⟨.create r, .ok ()⟩ ∨ a = ⟨.save r, .ok ()⟩) := by
  rcases hst with hst | hst
  · rcases List.mem_append.mp hst with hold | hnew
    · exact .inl (.inl hold)
    · cases List.mem_singleton.mp hnew
      exact .inr ⟨rfl, .inl rfl⟩
  · rcases List.mem_append.mp hst with hold | hnew
    · exact .inl (.inr hold)
    · cases List.mem_singleton.mp hnew
      exact .inr ⟨rfl, .inr rfl⟩

theorem mem_written_own {h : AgentHistory} {t : Nat} {r : CaseRecord} :
    r ∈ written (own t h) ↔ Stored h t r := by
  rw [mem_written, mem_own, mem_own, Stored]

theorem write_cases {c : Str} {a : Entry Effect Effect.Answer JsError} {r : CaseRecord}
    (h : (caseRegister c).write a = some r) :
    r.caseId = c ∧ (a = ⟨.create r, .ok ()⟩ ∨ a = ⟨.save r, .ok ()⟩) := by
  dsimp only [caseRegister] at h
  split at h
  · obtain ⟨hid, ⟨⟩⟩ := Option.ite_none_right_eq_some.mp h
    exact ⟨hid, .inl rfl⟩
  · obtain ⟨hid, ⟨⟩⟩ := Option.ite_none_right_eq_some.mp h
    exact ⟨hid, .inr rfl⟩
  · cases h

theorem read_cases {c : Str} {a : Entry Effect Effect.Answer JsError} {r : CaseRecord}
    (h : (caseRegister c).read a = some r) : a = ⟨.get c, .ok r⟩ := by
  dsimp only [caseRegister] at h
  split at h
  · obtain ⟨rfl, ⟨⟩⟩ := Option.ite_none_right_eq_some.mp h
    rfl
  · cases h

theorem mem_writes_iff {c : Str} {h : AgentHistory} {t : Nat} {r : CaseRecord} :
    (t, r) ∈ (caseRegister c).writes h ↔ Stored h t r ∧ r.caseId = c := by
  rw [Register.mem_writes, Stored]
  constructor
  · rintro ⟨a, hmem, ha⟩
    obtain ⟨hid, rfl | rfl⟩ := write_cases ha
    · exact ⟨.inl hmem, hid⟩
    · exact ⟨.inr hmem, hid⟩
  · rintro ⟨hmem | hmem, hid⟩
    · exact ⟨_, hmem, if_pos hid⟩
    · exact ⟨_, hmem, if_pos hid⟩

/-- The actions sent for a case, with the calls that sent them. -/
def sent (c : Str) (h : AgentHistory) : List (Nat × ProviderActionRequest) :=
  h.filterMap fun
    | .did t ⟨.sendAction request, _⟩ => if request.caseId = c then some (t, request) else none
    | _ => none

@[simp] theorem sent_append (c : Str) (h h' : AgentHistory) :
    sent c (h ++ h') = sent c h ++ sent c h' := List.filterMap_append

@[simp] theorem sent_called (c : Str) (t : Nat) (k : Call) : sent c [.called t k] = [] := rfl

theorem sent_did (c : Str) (t : Nat) (a : Entry Effect Effect.Answer JsError) :
    sent c [.did t a] = [] ∨ ∃ request r, a = ⟨.sendAction request, r⟩ ∧ request.caseId = c ∧
      sent c [.did t a] = [(t, request)] := by
  obtain ⟨e, r⟩ := a
  cases e with
  | sendAction request =>
    by_cases hid : request.caseId = c
    · exact .inr ⟨request, r, rfl, hid, by simp [sent, hid]⟩
    · exact .inl (by simp [sent, hid])
  | _ => exact .inl rfl

theorem mem_sent {c : Str} {h : AgentHistory} {t : Nat} {request : ProviderActionRequest}
    (hmem : (t, request) ∈ sent c h) :
    ∃ r : Except JsError (Effect.sendAction request).Answer,
      .did t ⟨.sendAction request, r⟩ ∈ h ∧ request.caseId = c := by
  obtain ⟨ev, hev, hsome⟩ := List.mem_filterMap.mp hmem
  split at hsome
  · obtain ⟨hid, ⟨⟩⟩ := Option.ite_none_right_eq_some.mp hsome
    exact ⟨_, hev, hid⟩
  · cases hsome

/-- The current record of a case. -/
def current (c : Str) (h : AgentHistory) : Option CaseRecord :=
  (caseRegister c).current none h

theorem stored_of_current {c : Str} {h : AgentHistory} {r : CaseRecord}
    (hcur : current c h = some r) : (∃ t, Stored h t r) ∧ r.caseId = c := by
  rcases Register.latest_mem hcur with hnone | ⟨t, hmem⟩
  · cases hnone
  · obtain ⟨hst, hid⟩ := mem_writes_iff.mp hmem
    exact ⟨⟨t, hst⟩, hid⟩

section Shared

variable {K α : Type} {sys : System K Effect Effect.Answer JsError World Choice α}
  {P : K → CallTrace → Effect → Prop} {w₀ w : World} {h : History K Effect Effect.Answer JsError}

/-- The store holds the current records, whatever the calls are that share it. -/
theorem store_eq_register (hsys : sys.exec = exec) (hl : Lawful sys P w₀ h w) (c : Str) :
    w.store c = (caseRegister c).current (w₀.store c) h := by
  induction hl with
  | nil => rfl
  | called _ _ ih => exact ih.trans Register.current_called.symm
  | @did h w w' t k e ch r _ _ _ hexec ih =>
    rw [hsys] at hexec
    rw [answered_store (answered_of_exec hexec), ih]
    cases hwrite : (caseRegister c).write ⟨e, r⟩ with
    | none => rw [Option.none_or, Register.current_did_none hwrite]
    | some v => rw [Option.some_or, Register.current_did hwrite]

theorem register_of_get (hsys : sys.exec = exec) (hl : Lawful sys P w₀ h w)
    {h₁ h₂ : History K Effect Effect.Answer JsError} {t : Nat} {c : Str} {r : CaseRecord}
    (heq : h = h₁ ++ .did t ⟨.get c, .ok r⟩ :: h₂) :
    (caseRegister c).current (w₀.store c) h₁ = some r := by
  obtain ⟨k, ch, w₁, w₂, hl₁, -, -, hexec, -⟩ := hl.split heq
  rw [hsys] at hexec
  exact (store_eq_register hsys hl₁ c).symm.trans (answered_get (answered_of_exec hexec))

end Shared

section Lawful

variable {env : Platform} {h : AgentHistory} {w : World}

/-- The store holds the current records. -/
theorem store_eq_current (hl : AgentLawful env h w) (c : Str) : w.store c = current c h :=
  store_eq_register rfl hl c

/-- A call reads the current record. -/
theorem current_of_get (hl : AgentLawful env h w) {h₁ h₂ : AgentHistory} {t : Nat} {c : Str}
    {r : CaseRecord} (heq : h = h₁ ++ .did t ⟨.get c, .ok r⟩ :: h₂) :
    current c h₁ = some r := register_of_get rfl hl heq

/-- What a call has read has been stored. -/
theorem stored_of_get (hl : AgentLawful env h w) {t : Nat} {c : Str} {r : CaseRecord}
    (hget : .did t ⟨.get c, .ok r⟩ ∈ h) : (∃ u, Stored h u r) ∧ r.caseId = c := by
  obtain ⟨h₁, h₂, rfl⟩ := List.append_of_mem hget
  obtain ⟨⟨u, hst⟩, hid⟩ := stored_of_current (current_of_get hl rfl)
  exact ⟨⟨u, hst.mono (List.subset_append_left _ _)⟩, hid⟩

theorem drawn_of_uuid (hl : AgentLawful env h w) {t : Nat} {uuid : Str}
    (hmem : .did t ⟨.randomUUID, .ok uuid⟩ ∈ h) : uuid ∈ w.drawn := by
  induction hl with
  | nil => cases hmem
  | called _ _ ih =>
    rcases List.mem_append.mp hmem with hmem | hmem
    · exact ih hmem
    · cases List.mem_singleton.mp hmem
  | did _ _ _ hexec ih =>
    rcases List.mem_append.mp hmem with hmem | hmem
    · exact answered_drawn (answered_of_exec hexec) (ih hmem)
    · cases List.mem_singleton.mp hmem
      exact (answered_uuid (answered_of_exec hexec)).2

/-- No two calls draw the same UUID. -/
theorem uuid_unique (hl : AgentLawful env h w) {t u : Nat} {uuid : Str}
    (ht : .did t ⟨.randomUUID, .ok uuid⟩ ∈ h) (hu : .did u ⟨.randomUUID, .ok uuid⟩ ∈ h) :
    t = u := by
  induction hl with
  | nil => cases ht
  | called _ _ ih =>
    rcases List.mem_append.mp ht with ht | ht
    · rcases List.mem_append.mp hu with hu | hu
      · exact ih ht hu
      · cases List.mem_singleton.mp hu
    · cases List.mem_singleton.mp ht
  | did hl _ _ hexec ih =>
    rcases List.mem_append.mp ht with hold | hnew
    · rcases List.mem_append.mp hu with hold' | hnew'
      · exact ih hold hold'
      · cases List.mem_singleton.mp hnew'
        exact absurd (drawn_of_uuid hl hold) (answered_uuid (answered_of_exec hexec)).1
    · rcases List.mem_append.mp hu with hold' | hnew'
      · cases List.mem_singleton.mp hnew
        exact absurd (drawn_of_uuid hl hold') (answered_uuid (answered_of_exec hexec)).1
      · cases List.mem_singleton.mp hnew
        cases List.mem_singleton.mp hnew'
        rfl

/-- The clock has a reading. -/
theorem time_nonempty (hl : AgentLawful env h w) {t : Nat} {time : Str}
    (hmem : .did t ⟨.now, .ok time⟩ ∈ h) : time ≠ [] := by
  obtain ⟨h₁, h₂, rfl⟩ := List.append_of_mem hmem
  obtain ⟨k, ch, w₁, w₂, -, -, -, hexec, -⟩ := hl.split rfl
  exact answered_now (answered_of_exec hexec)

end Lawful

/-! ## A sample run -/

/-- Blocks of bytes, each written as a number. -/
def blocks (size : Nat) (numbers : List Nat) : Bytes :=
  numbers.flatMap fun n => (List.range size).map fun i => (n / 256 ^ (size - 1 - i)).toUInt8

def sampleIv : Bytes := ofHexText (js "000102030405060708090a0b")

def sampleIv' : Bytes := ofHexText (js "6465666768696a6b6c6d6e6f")

/-- The key stream of AES-256-GCM under `sampleKey` and `sampleIv`. -/
def sampleStream : Bytes := blocks 32
  [ 0x4702d61bc5e5c21b8d41978bb1e9786d83d68734f07b5f7c3867e5851d6900b2,
    0x0110aefcafc1129874a47fed88872838ee59608d5ad6a3da3f972a1918e3f5ee,
    0xf03cc67ad3d126611c54aa6eef8f0ee8388ac96276635368fdfd9ecc78f0b98d,
    0xcbf859e6a441c81a9e1c3eb24875217fba6762abe3c5259a4dff57cd82e66e0e,
    0xbb5200c6b4d7cb5308e148a13dda4cc236f4e3353511934a8c5fe877fad2e9ee,
    0x93979e15e9ffcc7ea763ddfadf8086bb9dceca228bab73bc65dfc0c771c5b7f3,
    0x134c8afa0dddd6c93756d3e6ba41d984e17ef8763d00baf171919ac741488ffa,
    0x4323d4afe62003255247b808b5117c51a893b9759d3089a5176b67738b9c4281]

/-- The key stream under `sampleKey` and `sampleIv'`. -/
def sampleStream' : Bytes := blocks 32
  [ 0x481bde6679e9569e3e625fe8da656afd42c2060a8b6cf372a7d1ac48fba3a548,
    0x94e940c04c129b04fdf3783ffd42cacf1b5b98e7204a4128faf1acd6ef81a58a,
    0x088cdb0ed64b3b058b6fed43118a31e664781f34a7c58dc6dff136c47b134e51,
    0x8e71927e6b4db87eb3fadec5a20db8e8222b801fc179b934b27993b1dab408c7,
    0x329f98a86932422bc949560589805c8296c7fd46504b869231917e4de011a5fa,
    0x9031275c90dce1e06b58a1f7ec74a3ce96f1cda937b352cf78011148c2801fce,
    0xca2f06eaa8157401427f6b63453af2084048960287580cbdf21802d4ece511eb,
    0x4e27a2fba2852b3e1aac5cd1a85580d150d607abf3c4edcbc7f01a6b223efa9b]

def sampleKey : Str := js "000102030405060708090a0b0c0d0e0f101112131415161718191a1b1c1d1e1f"

/-- AES-256-GCM as far as the sample run uses it. -/
def sampleGcm : Gcm := tableGcm
  (fun _ iv => if iv = sampleIv then sampleStream else if iv = sampleIv' then sampleStream' else [])
  fun _ iv =>
    if iv = sampleIv then blocks 16 [0xd30af48c515af1e5029ded70176853c9]
    else blocks 16 [0xf8820ba0c57ed91ed097fbca559b3b1f]

theorem sampleGcm_lawful : sampleGcm.Lawful := by
  refine tableGcm_lawful fun key iv => ?_
  split <;> rfl

def samplePlatform : Platform where
  sha256Hex := Sha256.hex
  gcm := sampleGcm
  encryptionKey := sampleKey

def sampleInput : SubscriptionCaseInput where
  merchantName := js "Acme Streaming"
  accountIdentifierLast4 := js "1003"
  subscriptionDetails := js "Premium plan, $19.99/month."
  desiredOutcome := js "Cancel and refund this month's $19.99 charge."
  contactChannel := .sandbox
  contactAddress := js "sandbox@example.test"

/-- Only the sandbox is configured. -/
def sampleDeps : OrchestratorDeps where
  compute := none
  source := .sandbox
  hasStorageClient := false
  hasAnchorClient := false

def sampleTime : Choice := .text (js "2026-01-01T00:00:00.000Z")

/-- The first call submits a case. -/
def sampleSubmission : List (Move Call Choice) :=
  .call (.submitCase sampleDeps (js "user_1") sampleInput) ::
    [.text (js "1"), sampleTime, .bytes sampleIv, .ok, .ok, sampleTime, .ok, .ok, sampleTime, .ok,
      .text (js "2"), sampleTime, .ok, .bytes sampleIv', .text (js "3"), sampleTime, sampleTime,
      .ok, .ok, sampleTime, .ok, .ok].map (.step 0)

def approveSample : Call :=
  .approveAndExecute sampleDeps (js "case_1") (js "user_1") (js "proposal_2")

/-- A call that has begun to approve the proposal: it has read the case, and read it again in
order to apply the approval. -/
def beginApproval (t : Nat) : List (Move Call Choice) :=
  [.ok, sampleTime, .ok, sampleTime].map (.step t)

/-- The approval is stored, and the message is sent. -/
def continueApproval (t : Nat) : List (Move Call Choice) :=
  [.ok, .ok, sampleTime, .ok, .sent ⟨.refundIssued, some (js "confirmed"), 1999, .sandbox⟩].map
    (.step t)

/-- The outcome is recorded, and the case is finalized. -/
def endApproval (t : Nat) : List (Move Call Choice) :=
  [sampleTime, .ok, sampleTime, .ok, .text (js "4"), sampleTime, sampleTime, .ok, sampleTime,
    .ok].map (.step t)

/-- The case is submitted, approved and finalized. -/
def sampleMoves : List (Move Call Choice) :=
  sampleSubmission ++ .call approveSample :: beginApproval 1 ++ continueApproval 1 ++ endApproval 1

set_option maxRecDepth 10000 in
/-- In the sample run an action is sent, and a record with a receipt is stored. -/
theorem sampleMoves_run :
    ∃ p, (agent samplePlatform).runInTurn (Pool.init World.empty) sampleMoves = some p ∧
      p.idle = true ∧ sent (js "case_1") p.history ≠ [] ∧
      ∃ t r, Stored p.history t r ∧ r.receipt ≠ none := by
  have hany : (((agent samplePlatform).runInTurn (Pool.init World.empty) sampleMoves).any fun p =>
      p.idle && !(sent (js "case_1") p.history).isEmpty &&
        ((caseRegister (js "case_1")).writes p.history).any fun tr => tr.2.receipt.isSome) =
      true := by decide +kernel
  obtain ⟨p, hrun, hp⟩ := (Option.any_eq_true _ _).mp hany
  simp only [Bool.and_eq_true, Bool.not_eq_true', List.isEmpty_eq_false_iff] at hp
  obtain ⟨⟨hidle, hsent⟩, hreceipt⟩ := hp
  obtain ⟨⟨t, r⟩, hmem, hr⟩ := List.any_eq_true.mp hreceipt
  exact ⟨p, hrun, hidle, hsent, t, r, (mem_writes_iff.mp hmem).1,
    Option.isSome_iff_ne_none.mp hr⟩

end Clawback
