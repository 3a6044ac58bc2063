import Clawback.Payments.Fee

/-!
# The settlement ledger

`LocalSettlementLedger`: its map of records and the two calls that write it.

* `coherent_ledgerAfter`: what holds of every record, after any calls.
* `neverBackwards_iff`: a settlement never moves backwards exactly when no fee is assessed for
  a case that was collected, no case that was ever waived is marked as collected, and what was
  collected is not marked again at another time.
-/

namespace Clawback

open Js

/-- The records of a ledger by case. -/
abbrev Ledger := Str → Option SettlementRecord

namespace Ledger

def empty : Ledger := fun _ => none

/-- `Map.prototype.set` -/
def set (records : Ledger) (caseId : Str) (record : SettlementRecord) : Ledger :=
  fun c => if c = caseId then some record else records c

@[simp] theorem set_self (records : Ledger) (caseId : Str) (record : SettlementRecord) :
    records.set caseId record caseId = some record := if_pos rfl

theorem set_other (records : Ledger) {caseId c : Str} (record : SettlementRecord)
    (h : c ≠ caseId) : records.set caseId record c = records c := if_neg h

end Ledger

namespace LocalSettlementLedger

def assessFee (records : Ledger) (caseId : Str) (fee : FeeCalculation) (now : Str) :
    SettlementRecord × Ledger :=
  let record := assessedRecord caseId fee now
  (record, records.set caseId record)

def noSettlementRecord (caseId : Str) : JsError :=
  .ofMessage (js "No settlement record for case " ++ caseId ++ js "; call assessFee first.")

def markCollected (records : Ledger) (caseId : Str) (now : Str) :
    Except JsError (SettlementRecord × Ledger) :=
  match records caseId with
  | none => .error (noSettlementRecord caseId)
  | some existing =>
    let updated := { existing with status := .collected, collectedAt := some now }
    .ok (updated, records.set caseId updated)

def get (records : Ledger) (caseId : Str) : Option SettlementRecord := records caseId

end LocalSettlementLedger

open LocalSettlementLedger

/-- A call of the ledger, with the reading of the clock it makes. -/
inductive LedgerCall where
  | assessFee (caseId : Str) (fee : FeeCalculation) (now : Str)
  | markCollected (caseId : Str) (now : Str)

namespace LedgerCall

def caseId : LedgerCall → Str
  | assessFee c _ _ => c
  | markCollected c _ => c

/-- The records after a call; a call that throws leaves them as they are. -/
def after (records : Ledger) : LedgerCall → Ledger
  | assessFee c fee now => (LocalSettlementLedger.assessFee records c fee now).2
  | markCollected c now =>
    match LocalSettlementLedger.markCollected records c now with
    | .ok (_, records') => records'
    | .error _ => records

/-! ## What a call does -/

variable {records : Ledger}

theorem after_assessFee (c : Str) (fee : FeeCalculation) (now : Str) :
    (assessFee c fee now).after records = records.set c (assessedRecord c fee now) := rfl

theorem after_markCollected_none {c : Str} (now : Str) (h : records c = none) :
    (markCollected c now).after records = records := by
  simp only [after, LocalSettlementLedger.markCollected, h]

theorem after_markCollected_some {c : Str} {r : SettlementRecord} (now : Str)
    (h : records c = some r) : (markCollected c now).after records =
      records.set c { r with status := .collected, collectedAt := some now } := by
  simp only [after, LocalSettlementLedger.markCollected, h]

/-- A call changes no record but that of its own case. -/
theorem after_other (call : LedgerCall) {c : Str} (h : c ≠ call.caseId) :
    call.after records c = records c := by
  cases call with
  | assessFee caseId fee now => exact Ledger.set_other _ _ h
  | markCollected caseId now =>
    cases hfound : records caseId with
    | none => rw [after_markCollected_none now hfound]
    | some r =>
      rw [after_markCollected_some now hfound]
      exact Ledger.set_other _ _ h

/-- The record a call puts at its case: the old one, a new one, or the old one collected. -/
theorem after_self (call : LedgerCall) (records : Ledger) :
    call.after records call.caseId = records call.caseId ∨
    (∃ fee now, call = assessFee call.caseId fee now ∧
      call.after records call.caseId = some (assessedRecord call.caseId fee now)) ∨
    ∃ r now, call = markCollected call.caseId now ∧ records call.caseId = some r ∧
      call.after records call.caseId =
        some { r with status := .collected, collectedAt := some now } := by
  cases call with
  | assessFee c fee now =>
    refine .inr (.inl ⟨fee, now, rfl, ?_⟩)
    rw [caseId, after_assessFee, Ledger.set_self]
  | markCollected c now =>
    cases hfound : records c with
    | none => exact .inl (by rw [after_markCollected_none now hfound])
    | some r =>
      refine .inr (.inr ⟨r, now, rfl, hfound, ?_⟩)
      rw [caseId, after_markCollected_some now hfound, Ledger.set_self]

end LedgerCall

/-- The records after some calls. -/
def ledgerAfter (records : Ledger) (calls : List LedgerCall) : Ledger :=
  calls.foldl LedgerCall.after records

theorem ledgerAfter_concat (records : Ledger) (calls : List LedgerCall) (call : LedgerCall) :
    ledgerAfter records (calls ++ [call]) = call.after (ledgerAfter records calls) := by
  rw [ledgerAfter, List.foldl_append]
  rfl

/-! ## What holds of every record -/

/-- A record stands at its own case; it has a time of collection when it was collected; and
until then it is waived when the fee is zero. -/
structure SettlementRecord.Coherent (r : SettlementRecord) (c : Str) : Prop where
  caseId : r.caseId = c
  collectedAt : r.collectedAt ≠ none ↔ r.status = .collected
  waived : r.status ≠ .collected → (r.status = .waived ↔ r.fee.feeCents = 0)

/-- A fee that is assessed is not collected. -/
theorem assessedRecord_status_ne (c : Str) (fee : FeeCalculation) (now : Str) :
    (assessedRecord c fee now).status ≠ .collected := by
  by_cases hfee : fee.feeCents = 0 <;> simp [assessedRecord, hfee]

theorem coherent_assessed (c : Str) (fee : FeeCalculation) (now : Str) :
    (assessedRecord c fee now).Coherent c := by
  by_cases hfee : fee.feeCents = 0 <;> constructor <;> simp [assessedRecord, hfee]

theorem coherent_collected {r : SettlementRecord} {c : Str} (h : r.Coherent c) (now : Str) :
    SettlementRecord.Coherent { r with status := .collected, collectedAt := some now } c :=
  ⟨h.caseId, iff_of_true (Option.some_ne_none now) rfl, fun hne => absurd rfl hne⟩

theorem coherent_ledgerAfter (calls : List LedgerCall) {c : Str} {r : SettlementRecord}
    (h : ledgerAfter Ledger.empty calls c = some r) : r.Coherent c := by
  induction calls using List.reverseRecOn generalizing c r with
  | nil => cases h
  | append_singleton calls call ih =>
    rw [ledgerAfter_concat] at h
    by_cases hc : c = call.caseId
    · subst hc
      rcases call.after_self (ledgerAfter Ledger.empty calls) with
        hsame | ⟨fee, now, -, hnew⟩ | ⟨r', now, -, hold, hnew⟩
      · exact ih (hsame ▸ h)
      · cases hnew.symm.trans h
        exact coherent_assessed _ fee now
      · cases hnew.symm.trans h
        exact coherent_collected (ih hold) now
    · exact ih ((call.after_other hc).symm.trans h)

/-- Assessments alone collect nothing. -/
theorem status_ne_of_assessments {calls : List LedgerCall}
    (h : ∀ call ∈ calls, ∃ c fee now, call = .assessFee c fee now) {c : Str}
    {r : SettlementRecord} (hr : ledgerAfter Ledger.empty calls c = some r) :
    r.status ≠ .collected := by
  induction calls using List.reverseRecOn with
  | nil => cases hr
  | append_singleton calls call ih =>
    have hrest := ih fun call' hcall' => h call' (List.mem_append_left _ hcall')
    obtain ⟨c', fee, now, rfl⟩ := h call (List.mem_append_right _ (List.mem_singleton_self call))
    rw [ledgerAfter_concat, LedgerCall.after_assessFee] at hr
    by_cases hc : c = c'
    · subst hc
      rw [Ledger.set_self] at hr
      cases hr
      exact assessedRecord_status_ne _ _ _
    · rw [Ledger.set_other _ _ hc] at hr
      exact hrest hr

/-! ## Where a record comes from -/

/-- The fee of a record was assessed for its case. -/
theorem exists_assessed {calls : List LedgerCall} {c : Str} {r : SettlementRecord}
    (h : ledgerAfter Ledger.empty calls c = some r) :
    ∃ now, LedgerCall.assessFee c r.fee now ∈ calls := by
  induction calls using List.reverseRecOn generalizing r with
  | nil => cases h
  | append_singleton calls call ih =>
    have hbefore : ∀ r', ledgerAfter Ledger.empty calls c = some r' →
        ∃ now, LedgerCall.assessFee c r'.fee now ∈ calls ++ [call] := by
      intro r' hr'
      obtain ⟨now, hmem⟩ := ih hr'
      exact ⟨now, List.mem_append_left _ hmem⟩
    rw [ledgerAfter_concat] at h
    by_cases hc : c = call.caseId
    · subst hc
      rcases call.after_self (ledgerAfter Ledger.empty calls) with
        hsame | ⟨fee, now, hcall, hnew⟩ | ⟨r', now, -, hold, hnew⟩
      · exact hbefore r (hsame ▸ h)
      · cases hnew.symm.trans h
        exact ⟨now, List.mem_append_right _ (List.mem_singleton.mpr hcall.symm)⟩
      · cases hnew.symm.trans h
        exact hbefore r' hold
    · exact hbefore r ((call.after_other hc).symm.trans h)

/-- A case keeps having a record. -/
theorem exists_record {calls : List LedgerCall} {c : Str} {fee : FeeCalculation} {now : Str}
    (h : LedgerCall.assessFee c fee now ∈ calls) :
    ∃ r, ledgerAfter Ledger.empty calls c = some r := by
  induction calls using List.reverseRecOn with
  | nil => cases h
  | append_singleton calls call ih =>
    rw [ledgerAfter_concat]
    rcases List.mem_append.mp h with hbefore | hlast
    · obtain ⟨r, hr⟩ := ih hbefore
      by_cases hc : c = call.caseId
      · subst hc
        rcases call.after_self (ledgerAfter Ledger.empty calls) with
          hsame | ⟨fee', now', -, hnew⟩ | ⟨r', now', -, -, hnew⟩
        · exact ⟨r, hsame.trans hr⟩
        · exact ⟨_, hnew⟩
        · exact ⟨_, hnew⟩
      · exact ⟨r, (call.after_other hc).trans hr⟩
    · obtain rfl := List.mem_singleton.mp hlast
      exact ⟨assessedRecord c fee now, Ledger.set_self _ _ _⟩

/-! ## Settlements that move forward -/

/-- A zero fee has been assessed for the case. -/
def EverWaived (done : List LedgerCall) (c : Str) : Prop :=
  ∃ fee now, LedgerCall.assessFee c fee now ∈ done ∧ fee.feeCents = 0

/-- A case whose record is waived, or collected without a fee, was waived once. -/
theorem everWaived_of_record {calls : List LedgerCall} {c : Str} {r : SettlementRecord}
    (h : ledgerAfter Ledger.empty calls c = some r) (hfee : r.fee.feeCents = 0) :
    EverWaived calls c := by
  obtain ⟨now, hmem⟩ := exists_assessed h
  exact ⟨r.fee, now, hmem, hfee⟩

theorem EverWaived.append {done : List LedgerCall} {c : Str} (h : EverWaived done c)
    (since : List LedgerCall) : EverWaived (done ++ since) c := by
  obtain ⟨fee, now, hmem, hfee⟩ := h
  exact ⟨fee, now, List.mem_append_left _ hmem, hfee⟩

/-- What was collected is still collected, at the same time and for the same fee. -/
def KeepsCollected (before after : Ledger) : Prop :=
  ∀ c r, before c = some r → r.status = .collected → ∃ r', after c = some r' ∧
    r'.fee = r.fee ∧ r'.status = .collected ∧ r'.collectedAt = r.collectedAt

/-- What was waived is not collected. -/
def KeepsWaived (before after : Ledger) : Prop :=
  ∀ c r r', before c = some r → r.status = .waived → after c = some r' → r'.status ≠ .collected

theorem KeepsCollected.refl (records : Ledger) : KeepsCollected records records :=
  fun _ r hr hstatus => ⟨r, hr, rfl, hstatus, rfl⟩

theorem KeepsCollected.trans {l₁ l₂ l₃ : Ledger} (h : KeepsCollected l₁ l₂)
    (h' : KeepsCollected l₂ l₃) : KeepsCollected l₁ l₃ := by
  intro c r hr hstatus
  obtain ⟨r₂, hr₂, hfee₂, hstatus₂, hat₂⟩ := h c r hr hstatus
  obtain ⟨r₃, hr₃, hfee₃, hstatus₃, hat₃⟩ := h' c r₂ hr₂ hstatus₂
  exact ⟨r₃, hr₃, hfee₃.trans hfee₂, hstatus₃, hat₃.trans hat₂⟩

theorem keepsCollected_set_iff {records : Ledger} {c : Str} {new : SettlementRecord} :
    KeepsCollected records (records.set c new) ↔ ∀ r, records c = some r → r.status = .collected →
      new.fee = r.fee ∧ new.status = .collected ∧ new.collectedAt = r.collectedAt := by
  constructor
  · intro h r hr hstatus
    obtain ⟨r', hr', hkept⟩ := h c r hr hstatus
    rw [Ledger.set_self] at hr'
    cases hr'
    exact hkept
  · intro h c' r hr hstatus
    by_cases hc : c' = c
    · subst hc
      exact ⟨new, Ledger.set_self _ _ _, h r hr hstatus⟩
    · exact ⟨r, by rw [Ledger.set_other _ _ hc, hr], rfl, hstatus, rfl⟩

/-- The call does not set a settlement back: a fee is assessed only while nothing has been
collected, a case that was ever waived is not marked as collected, and what was collected is
marked again only at the same time. -/
def LedgerCall.Forward (done : List LedgerCall) : LedgerCall → Prop
  | assessFee c _ _ => ∀ r ∈ ledgerAfter Ledger.empty done c, r.status ≠ .collected
  | markCollected c now => ¬ EverWaived done c ∧
    ∀ r ∈ ledgerAfter Ledger.empty done c, r.status = .collected → r.collectedAt = some now

/-- One call goes forward exactly when it keeps what was collected and collects no case that was
ever waived. -/
theorem LedgerCall.forward_iff (call : LedgerCall) (done : List LedgerCall) :
    call.Forward done ↔
      KeepsCollected (ledgerAfter Ledger.empty done) (ledgerAfter Ledger.empty (done ++ [call])) ∧
      ∀ c now, call = markCollected c now → ¬ EverWaived done c := by
  rw [ledgerAfter_concat]
  cases call with
  | assessFee caseId fee now =>
    rw [after_assessFee, keepsCollected_set_iff]
    have hnew := assessedRecord_status_ne caseId fee now
    constructor
    · intro hforward
      exact ⟨fun r hr hstatus => absurd hstatus (hforward r hr), fun _ _ h => nomatch h⟩
    · rintro ⟨hcollected, -⟩ r hr hstatus
      exact hnew (hcollected r hr hstatus).2.1
  | markCollected caseId now =>
    have hnever : (∀ c now', markCollected caseId now = markCollected c now' →
        ¬ EverWaived done c) ↔ ¬ EverWaived done caseId := by
      constructor
      · exact fun h => h caseId now rfl
      · rintro h c now' ⟨⟩
        exact h
    rw [hnever, Forward, and_comm]
    apply and_congr_left'
    cases hfound : ledgerAfter Ledger.empty done caseId with
    | none =>
      rw [after_markCollected_none now hfound]
      exact iff_of_true (fun r hr => nomatch hr) (KeepsCollected.refl _)
    | some existing =>
      rw [after_markCollected_some now hfound, keepsCollected_set_iff, hfound]
      constructor
      · rintro hagain r ⟨⟩ hstatus
        exact ⟨rfl, rfl, (hagain existing rfl hstatus).symm⟩
      · rintro hcollected r ⟨⟩ hstatus
        exact (hcollected existing rfl hstatus).2.2.symm

/-- What was collected stays as it is at all later times, what was waived is collected at no
later time, no zero fee is ever collected, and each call leaves the other cases alone. -/
structure NeverBackwards (calls : List LedgerCall) : Prop where
  collected : ∀ done since later, calls = done ++ since ++ later →
    KeepsCollected (ledgerAfter Ledger.empty done) (ledgerAfter Ledger.empty (done ++ since))
  waived : ∀ done since later, calls = done ++ since ++ later →
    KeepsWaived (ledgerAfter Ledger.empty done) (ledgerAfter Ledger.empty (done ++ since))
  charged : ∀ done later, calls = done ++ later → ∀ c r,
    ledgerAfter Ledger.empty done c = some r → r.status = .collected → r.fee.feeCents ≠ 0
  others : ∀ done call later, calls = done ++ call :: later → ∀ c, c ≠ call.caseId →
    ledgerAfter Ledger.empty (done ++ [call]) c = ledgerAfter Ledger.empty done c

/-- Each of the calls goes forward after the ones before it. -/
def AllForward (calls : List LedgerCall) : Prop :=
  ∀ done call later, calls = done ++ call :: later → call.Forward done

theorem AllForward.left {calls more : List LedgerCall} (h : AllForward (calls ++ more)) :
    AllForward calls :=
  fun done call later heq => h done call (later ++ more) (by simp [heq])

theorem AllForward.last {calls : List LedgerCall} {call : LedgerCall}
    (h : AllForward (calls ++ [call])) : call.Forward calls :=
  h calls call [] rfl

theorem keepsCollected_of_allForward {done since : List LedgerCall}
    (h : AllForward (done ++ since)) :
    KeepsCollected (ledgerAfter Ledger.empty done) (ledgerAfter Ledger.empty (done ++ since)) := by
  induction since using List.reverseRecOn with
  | nil => simpa using KeepsCollected.refl _
  | append_singleton since call ih =>
    rw [← List.append_assoc] at h ⊢
    exact (ih h.left).trans ((call.forward_iff _).mp h.last).1

/-- A case that was ever waived is not collected. -/
theorem status_ne_of_everWaived {calls : List LedgerCall} (h : AllForward calls) {c : Str}
    (hwaived : EverWaived calls c) {r : SettlementRecord}
    (hr : ledgerAfter Ledger.empty calls c = some r) : r.status ≠ .collected := by
  induction calls using List.reverseRecOn generalizing r with
  | nil => cases hr
  | append_singleton calls call ih =>
    have hforward := h.last
    obtain ⟨fee, now, hmem, hfee⟩ := hwaived
    rw [List.mem_append, List.mem_singleton] at hmem
    rw [ledgerAfter_concat] at hr
    cases call with
    | assessFee c' fee' now' =>
      rw [LedgerCall.after_assessFee] at hr
      by_cases hc : c = c'
      · subst hc
        rw [Ledger.set_self] at hr
        cases hr
        exact assessedRecord_status_ne _ _ _
      · have hbefore := hmem.resolve_right fun heq => hc (LedgerCall.assessFee.inj heq).1
        rw [Ledger.set_other _ _ hc] at hr
        exact ih h.left ⟨fee, now, hbefore, hfee⟩ hr
    | markCollected c' now' =>
      have hbefore := hmem.resolve_right fun heq => nomatch heq
      by_cases hc : c = c'
      · subst hc
        exact absurd ⟨fee, now, hbefore, hfee⟩ hforward.1
      · rw [LedgerCall.after_other _ hc] at hr
        exact ih h.left ⟨fee, now, hbefore, hfee⟩ hr

/-- A case that is marked as collected at last was never waived, if what was waived is collected
at no later time. -/
theorem not_everWaived_of_keepsWaived {done : List LedgerCall} {c : Str} (now : Str)
    (h : ∀ before since, done ++ [.markCollected c now] = before ++ since →
      KeepsWaived (ledgerAfter Ledger.empty before)
        (ledgerAfter Ledger.empty (done ++ [.markCollected c now]))) : ¬ EverWaived done c := by
  rintro ⟨fee, at', hmem, hfee⟩
  obtain ⟨r, hr⟩ := exists_record hmem
  obtain ⟨before, since, rfl⟩ := List.append_of_mem hmem
  have hfirst : ledgerAfter Ledger.empty (before ++ [.assessFee c fee at']) c =
      some (assessedRecord c fee at') := by
    rw [ledgerAfter_concat, LedgerCall.after_assessFee, Ledger.set_self]
  have hwaived : (assessedRecord c fee at').status = .waived := by simp [assessedRecord, hfee]
  have hlast : ledgerAfter Ledger.empty
      (before ++ .assessFee c fee at' :: since ++ [.markCollected c now]) c =
      some { r with status := .collected, collectedAt := some now } := by
    rw [ledgerAfter_concat, LedgerCall.after_markCollected_some now hr, Ledger.set_self]
  exact h (before ++ [.assessFee c fee at']) (since ++ [.markCollected c now]) (by simp) c _ _
    hfirst hwaived hlast rfl

/-- A settlement never moves backwards exactly when every call goes forward. -/
theorem neverBackwards_iff (calls : List LedgerCall) :
    NeverBackwards calls ↔ AllForward calls := by
  constructor
  · intro h done call later heq
    have hsplit : calls = done ++ [call] ++ later := by simpa using heq
    refine (call.forward_iff done).mpr ⟨h.collected done [call] later hsplit, ?_⟩
    rintro c now rfl
    refine not_everWaived_of_keepsWaived now fun before since hbefore => ?_
    rw [hbefore] at hsplit ⊢
    exact h.waived before since later hsplit
  · intro h
    refine ⟨?_, ?_, ?_, ?_⟩
    · rintro done since later rfl
      exact keepsCollected_of_allForward h.left
    · rintro done since later rfl c r r' hr hstatus hr'
      have hfee : r.fee.feeCents = 0 :=
        ((coherent_ledgerAfter done hr).waived (by simp [hstatus])).mp hstatus
      exact status_ne_of_everWaived h.left ((everWaived_of_record hr hfee).append since) hr'
    · rintro done later rfl c r hr hstatus hfee
      exact status_ne_of_everWaived h.left (everWaived_of_record hr hfee) hr hstatus
    · intro done call later _ c hc
      rw [ledgerAfter_concat]
      exact call.after_other hc

/-- A fee that was collected is assessed again; a waived one is marked as collected, at once or
after another fee was assessed for its case. -/
theorem settlement_moves_backwards :
    (¬ NeverBackwards [.assessFee (js "case_1") ⟨1500, 4000, 600, 900⟩ (js "2026-01-01"),
      .markCollected (js "case_1") (js "2026-01-02"),
      .assessFee (js "case_1") ⟨1500, 4000, 600, 900⟩ (js "2026-01-03")]) ∧
    (¬ NeverBackwards [.assessFee (js "case_1") ⟨0, 4000, 0, 0⟩ (js "2026-01-01"),
      .markCollected (js "case_1") (js "2026-01-02")]) ∧
    ¬ NeverBackwards [.assessFee (js "case_1") ⟨0, 4000, 0, 0⟩ (js "2026-01-01"),
      .assessFee (js "case_1") ⟨1500, 4000, 600, 900⟩ (js "2026-01-02"),
      .markCollected (js "case_1") (js "2026-01-03")] := by
  refine ⟨fun h => ?_, fun h => ?_, fun h => ?_⟩
  · obtain ⟨r, hr, -, hstatus, -⟩ :=
      h.collected [_, _] [_] [] rfl (js "case_1") _ rfl rfl
    cases hr
    cases hstatus
  · exact h.charged [_, _] [] rfl (js "case_1") _ rfl rfl rfl
  · exact h.waived [_] [_, _] [] rfl (js "case_1") _ _ rfl rfl rfl rfl

end Clawback
