import Clawback.Agent.Store
import Clawback.Async.Sequential

/-!
# Effects of a call that runs alone

What an effect does to the world, one inversion for each kind of effect, and the rules of the
program logic for the functions of the store.

* `ensures_getForOwner`, `ensures_transition`: the rules for the two functions of the store.
* `ensures_move`: a legal transition of a record that is there goes through, unless the store
  fails.
-/

namespace Clawback

open Js Async

/-- What a call has asked, with the worlds in between. -/
abbrev Log := List (Asked Effect Effect.Answer JsError World)

/-- An effect that was answered without a change of the world. -/
def asked (w : World) (e : Effect) (r : Except JsError e.Answer) :
    Asked Effect Effect.Answer JsError World := ⟨w, ⟨e, r⟩, w⟩

/-- A record was created. -/
def created (w : World) (record : CaseRecord) : Asked Effect Effect.Answer JsError World :=
  ⟨w, ⟨.create record, .ok ()⟩, w.put record⟩

/-- A record was saved. -/
def saved (w : World) (record : CaseRecord) : Asked Effect Effect.Answer JsError World :=
  ⟨w, ⟨.save record, .ok ()⟩, w.put record⟩

/-- The world after a UUID was drawn. -/
def World.draw (w : World) (uuid : Str) : World := { w with drawn := uuid :: w.drawn }

/-- A UUID was drawn. -/
def drew (w : World) (uuid : Str) : Asked Effect Effect.Answer JsError World :=
  ⟨w, ⟨.randomUUID, .ok uuid⟩, w.draw uuid⟩

/-- The ids that were drawn. -/
def ids (l : Log) : List Str :=
  l.filterMap fun a => match a.entry with
    | ⟨.randomUUID, .ok uuid⟩ => some uuid
    | _ => none

/-- The times that were read. -/
def times (l : Log) : List Str :=
  l.filterMap fun a => match a.entry with
    | ⟨.now, .ok time⟩ => some time
    | _ => none

@[simp] theorem ids_append (l l' : Log) : ids (l ++ l') = ids l ++ ids l' :=
  List.filterMap_append

@[simp] theorem times_append (l l' : Log) : times (l ++ l') = times l ++ times l' :=
  List.filterMap_append

theorem times_of_compute {l : Log} (h : ∀ a ∈ l, a.entry.effect.isCompute = true) :
    times l = [] := by
  unfold times
  rw [List.filterMap_eq_nil_iff]
  rintro ⟨w, ⟨e, r⟩, w'⟩ ha
  have he := h _ ha
  cases e <;> first | rfl | cases he

/-! ## What an effect does -/

section Exec

variable {ch : Choice} {w w' : World}

/-- Only the effects that may fail throw. -/
theorem mayFail_of_exec {e : Effect} {x : JsError} (h : exec e ch w = some (.error x, w')) :
    e.mayFail = true := by
  cases e with
  | randomUUID | now | randomBytes _ | reload _ =>
    cases ch <;> simp [exec, succeed, Effect.mayFail] at h
  | _ => rfl

theorem exec_get {c : Str} {r : Except JsError CaseRecord}
    (h : exec (.get c) ch w = some (r, w')) :
    w' = w ∧ ((∃ x, r = .error x) ∨ ∃ record, r = .ok record ∧ w.store c = some record) := by
  cases answered_of_exec h with
  | failed => exact ⟨rfl, .inl ⟨_, rfl⟩⟩
  | got hfound => exact ⟨rfl, .inr ⟨_, rfl, hfound⟩⟩
  | external hexternal => cases hexternal

theorem exec_create {record : CaseRecord} {r : Except JsError Unit}
    (h : exec (.create record) ch w = some (r, w')) :
    (∃ x, r = .error x ∧ w' = w) ∨ (r = .ok () ∧ w' = w.put record) := by
  cases answered_of_exec h with
  | failed => exact .inl ⟨_, rfl, rfl⟩
  | created => exact .inr ⟨rfl, rfl⟩
  | external hexternal => cases hexternal

theorem exec_save {record : CaseRecord} {r : Except JsError Unit}
    (h : exec (.save record) ch w = some (r, w')) :
    (∃ x, r = .error x ∧ w' = w) ∨ (r = .ok () ∧ w' = w.put record) := by
  cases answered_of_exec h with
  | failed => exact .inl ⟨_, rfl, rfl⟩
  | saved => exact .inr ⟨rfl, rfl⟩
  | external hexternal => cases hexternal

theorem exec_now {r : Except JsError Str} (h : exec .now ch w = some (r, w')) :
    w' = w ∧ ∃ time, r = .ok time := by
  cases answered_of_exec h with
  | failed => cases mayFail_of_exec h
  | now _ => exact ⟨rfl, _, rfl⟩
  | external hexternal => cases hexternal

theorem exec_uuid {r : Except JsError Str} (h : exec .randomUUID ch w = some (r, w')) :
    ∃ uuid, uuid ∉ w.drawn ∧ r = .ok uuid ∧ w' = w.draw uuid := by
  cases answered_of_exec h with
  | failed => cases mayFail_of_exec h
  | drawn hfresh => exact ⟨_, hfresh, rfl, rfl⟩
  | external hexternal => cases hexternal

theorem exec_bytes {size : Nat} {r : Except JsError Bytes}
    (h : exec (.randomBytes size) ch w = some (r, w')) : w' = w ∧ ∃ b, r = .ok b := by
  cases answered_of_exec h with
  | failed => cases mayFail_of_exec h
  | randomBytes _ => exact ⟨rfl, _, rfl⟩
  | external hexternal => cases hexternal

end Exec

/-- The effects that leave the store, the ledger and the merchant alone. -/
def Effect.isSilent : Effect → Bool
  | randomUUID | randomBytes _ => true
  | e => e.isAnalysis

theorem exec_analysis {e : Effect} (he : e.isAnalysis = true) {ch : Choice} {w w' : World}
    {r : Except JsError e.Answer} (h : exec e ch w = some (r, w')) : w' = w := by
  cases answered_of_exec h with
  | failed | now _ | external _ => rfl
  | randomBytes _ | drawn _ | created | got _ | saved | reloaded | assessed => cases he

/-! ## Failures of the store -/

/-- The store failed: it did not get a record that was there, or did not write one. -/
def storeFails (a : Asked Effect Effect.Answer JsError World) : Bool :=
  match a.entry with
  | ⟨.get c, .error _⟩ => (a.before.store c).isSome
  | ⟨.create _, .error _⟩ => true
  | ⟨.save _, .error _⟩ => true
  | _ => false

/-- The case whose record an effect reads or writes. -/
def Effect.caseOf : Effect → Option Str
  | create record | save record => some record.caseId
  | get caseId => some caseId
  | _ => none

/-- The effects that reach the merchant, storage, the chain or the ledger. -/
def Effect.isOutward : Effect → Bool
  | sendAction _ | uploadJson _ | anchorReceipt _ _ _ | assessFee _ _ => true
  | _ => false

/-- The assessment of a fee. -/
def Effect.isFee : Effect → Bool
  | assessFee _ _ => true
  | _ => false

theorem Effect.isFee_eq_false {e : Effect} (h : e.isQuiet = false ∨ e.isSilent = true) :
    e.isFee = false := by
  cases e with
  | assessFee c fee => rcases h with h | h <;> cases h
  | _ => rfl

theorem Effect.isFee_of_isAnalysis {e : Effect} (h : e.isAnalysis = true) : e.isFee = false := by
  cases e <;> first | rfl | cases h

/-- What was asked stores no record and reaches nobody outside. -/
def harmless (a : Asked Effect Effect.Answer JsError World) : Bool :=
  !a.entry.effect.isOutward && (written [a.entry]).isEmpty

theorem harmless_append {l l' : Log} (h : l.all harmless = true) (h' : l'.all harmless = true) :
    (l ++ l').all harmless = true := by
  rw [List.all_append, h, h']
  rfl

theorem harmless_of_analysis {l : Log} (h : ∀ a ∈ l, a.entry.effect.isAnalysis = true) :
    l.all harmless = true := by
  rw [List.all_eq_true]
  rintro ⟨w, ⟨e, r⟩, w'⟩ ha
  have he := h _ ha
  cases e <;> first | rfl | cases he

/-- What a transition of a record that is there asks when it throws: the store has failed. -/
structure Cut (w : World) (c : Str) (l : Log) : Prop where
  harmless : l.all harmless = true
  fails : ∃ a ∈ l, storeFails a = true ∧ a.before = w ∧ a.entry.effect.caseOf = some c

/-- What a transition asks that goes through. -/
def moveLog (w : World) (c : Str) (record record' : CaseRecord) (time : Str) : Log :=
  [asked w (.get c) (.ok record), asked w .now (.ok time), saved w record']

/-! ## Rules for the functions of the store -/

section Rules

variable {K α β : Type} {sys : System K Effect Effect.Answer JsError World Choice α}
  {G : Log → World → Effect → Prop} {l : Log} {w : World}

theorem ensures_get (hsys : sys.exec = exec) {Q : Except JsError CaseRecord → Log → World → Prop}
    {c : Str} (hG : G l w (.get c))
    (herr : ∀ x, Q (.error x) (l ++ [asked w (.get c) (.error x)]) w)
    (hok : ∀ record, w.store c = some record →
      Q (.ok record) (l ++ [asked w (.get c) (.ok record)]) w) :
    Ensures sys G Q (Prog.perform (Effect.get c)) l w := by
  refine Ensures.perform hG fun ch r w' hexec => ?_
  rw [hsys] at hexec
  obtain ⟨rfl, ⟨x, rfl⟩ | ⟨record, rfl, hfound⟩⟩ := exec_get hexec
  · exact herr x
  · exact hok record hfound

theorem ensures_create (hsys : sys.exec = exec) {Q : Except JsError Unit → Log → World → Prop}
    {record : CaseRecord} (hG : G l w (.create record))
    (herr : ∀ x, Q (.error x) (l ++ [asked w (.create record) (.error x)]) w)
    (hok : Q (.ok ()) (l ++ [created w record]) (w.put record)) :
    Ensures sys G Q (Prog.perform (Effect.create record)) l w := by
  refine Ensures.perform hG fun ch r w' hexec => ?_
  rw [hsys] at hexec
  obtain ⟨x, rfl, rfl⟩ | ⟨rfl, rfl⟩ := exec_create hexec
  · exact herr x
  · exact hok

theorem ensures_save (hsys : sys.exec = exec) {Q : Except JsError Unit → Log → World → Prop}
    {record : CaseRecord} (hG : G l w (.save record))
    (herr : ∀ x, Q (.error x) (l ++ [asked w (.save record) (.error x)]) w)
    (hok : Q (.ok ()) (l ++ [saved w record]) (w.put record)) :
    Ensures sys G Q (Prog.perform (Effect.save record)) l w := by
  refine Ensures.perform hG fun ch r w' hexec => ?_
  rw [hsys] at hexec
  obtain ⟨x, rfl, rfl⟩ | ⟨rfl, rfl⟩ := exec_save hexec
  · exact herr x
  · exact hok

theorem ensures_now (hsys : sys.exec = exec) {Q : Except JsError Str → Log → World → Prop}
    (hG : G l w .now) (hok : ∀ time, Q (.ok time) (l ++ [asked w .now (.ok time)]) w) :
    Ensures sys G Q now l w := by
  refine Ensures.perform hG fun ch r w' hexec => ?_
  rw [hsys] at hexec
  obtain ⟨rfl, time, rfl⟩ := exec_now hexec
  exact hok time

theorem ensures_uuid (hsys : sys.exec = exec) {Q : Except JsError Str → Log → World → Prop}
    (hG : G l w .randomUUID)
    (hok : ∀ uuid, uuid ∉ w.drawn → Q (.ok uuid) (l ++ [drew w uuid]) (w.draw uuid)) :
    Ensures sys G Q (Prog.perform Effect.randomUUID) l w := by
  refine Ensures.perform hG fun ch r w' hexec => ?_
  rw [hsys] at hexec
  obtain ⟨uuid, hfresh, rfl, rfl⟩ := exec_uuid hexec
  exact hok uuid hfresh

theorem ensures_bytes (hsys : sys.exec = exec) {Q : Except JsError Bytes → Log → World → Prop}
    {size : Nat} (hG : G l w (.randomBytes size))
    (hok : ∀ b, Q (.ok b) (l ++ [asked w (.randomBytes size) (.ok b)]) w) :
    Ensures sys G Q (Prog.perform (Effect.randomBytes size)) l w := by
  refine Ensures.perform hG fun ch r w' hexec => ?_
  rw [hsys] at hexec
  obtain ⟨rfl, b, rfl⟩ := exec_bytes hexec
  exact hok b

/-- An effect that is answered from outside and leaves the world as it is. -/
theorem ensures_external (hsys : sys.exec = exec) {e : Effect} (he : e.isExternal = true)
    {Q : Except JsError e.Answer → Log → World → Prop} (hG : G l w e)
    (hQ : ∀ r, Q r (l ++ [asked w e r]) w) : Ensures sys G Q (Prog.perform e) l w := by
  refine Ensures.perform hG fun ch r w' hexec => ?_
  rw [hsys] at hexec
  cases answered_of_exec hexec with
  | failed | external _ => exact hQ _
  | now _ | randomBytes _ | drawn _ | created | got _ | saved | reloaded | assessed => cases he

/-- A part of a program that asks only 0G Compute. -/
theorem ensures_computing (hsys : sys.exec = exec) {S : β → Prop} {p : Action β}
    (hp : Only (fun e => e.isCompute = true) S p)
    (hG : ∀ l w e, e.isCompute = true → G l w e) :
    Ensures sys G (fun r l' w' => w' = w ∧ (∃ since, l' = l ++ since ∧
      ∀ a ∈ since, a.entry.effect.isCompute = true) ∧ ∀ b, r = .ok b → S b) p l w := by
  let I : Log → World → Prop := fun l' w' => w' = w ∧
    ∃ since : Log, l' = l ++ since ∧ ∀ a ∈ since, a.entry.effect.isCompute = true
  have hpart : Ensures sys G (fun r l' w' => I l' w' ∧ ∀ b, r = .ok b → S b) p l w := by
    refine Ensures.of_only (fun l' w' e _ he => hG l' w' e he) ?_ hp
      ⟨rfl, [], (List.append_nil l).symm, fun a ha => (List.not_mem_nil ha).elim⟩
    rintro l' _ e ch r w' ⟨rfl, since, rfl, hsince⟩ he hexec
    rw [hsys] at hexec
    obtain rfl := exec_analysis (Effect.isAnalysis_of_isCompute he) hexec
    refine ⟨rfl, since ++ [asked w' e r], List.append_assoc _ _ _, fun a ha => ?_⟩
    rcases List.mem_append.mp ha with ha | ha
    · exact hsince a ha
    · rw [List.mem_singleton.mp ha]
      exact he
  exact hpart.mono fun r l' w' h => ⟨h.1.1, h.1.2, h.2⟩

theorem ensures_computing_bind (hsys : sys.exec = exec) {γ : Type} {S : β → Prop}
    {p : Action β} {f : β → Action γ} {Q : Except JsError γ → Log → World → Prop}
    (hp : Only (fun e => e.isCompute = true) S p)
    (hG : ∀ l w e, e.isCompute = true → G l w e)
    (herr : ∀ x since, (∀ a ∈ since, a.entry.effect.isCompute = true) → Q (.error x) (l ++ since) w)
    (hok : ∀ b since, S b → (∀ a ∈ since, a.entry.effect.isCompute = true) →
      Ensures sys G Q (f b) (l ++ since) w) : Ensures sys G Q (p >>= f) l w := by
  refine Ensures.bind ((ensures_computing hsys hp hG).mono ?_)
  rintro r _ _ ⟨rfl, ⟨since, rfl, hsince⟩, hS⟩
  cases r with
  | error x => exact herr x since hsince
  | ok b => exact hok b since (hS b rfl) hsince

theorem ensures_getForOwner (hsys : sys.exec = exec)
    {Q : Except JsError CaseRecord → Log → World → Prop} {c ownerId : Str} (hG : G l w (.get c))
    (herr : ∀ x, Q (.error x) (l ++ [asked w (.get c) (.error x)]) w)
    (hforeign : ∀ record, w.store c = some record → record.ownerId ≠ ownerId →
      Q (.error (unauthorizedCaseAccessError c)) (l ++ [asked w (.get c) (.ok record)]) w)
    (hok : ∀ record, w.store c = some record → record.ownerId = ownerId →
      Q (.ok record) (l ++ [asked w (.get c) (.ok record)]) w) :
    Ensures sys G Q (getForOwner c ownerId) l w := by
  refine Ensures.bind (ensures_get hsys hG herr fun record hfound => ?_)
  dsimp only
  by_cases howner : record.ownerId = ownerId
  · rw [if_neg (not_not.mpr howner)]
    exact hok record hfound howner
  · rw [if_pos howner]
    exact hforeign record hfound howner

/-- The rule for a transition: it reads the record, checks the event, runs the patch, and
saves the record that it has patched. -/
theorem ensures_transition (hsys : sys.exec = exec)
    {Q : Except JsError CaseRecord → Log → World → Prop} {c : Str} {event : CaseEvent}
    {patch : CaseRecord → Action CasePatch}
    (hG : ∀ l w e, e.isQuiet = false ∨ e.isSilent = true → G l w e)
    (hread : ∀ x, Q (.error x) (l ++ [asked w (.get c) (.error x)]) w)
    (hillegal : ∀ record, w.store c = some record → ∀ x,
      applyTransition record.state event = .error x →
      Q (.error x) (l ++ [asked w (.get c) (.ok record)]) w)
    (hpatch : ∀ record, w.store c = some record → ∀ next,
      applyTransition record.state event = .ok next →
      Ensures sys G (fun r l w => match r with
        | .error x => Q (.error x) l w
        | .ok changes => ∀ time,
          (∀ x, Q (.error x) (l ++ [asked w .now (.ok time),
            asked w (.save (record.patched changes next time)) (.error x)]) w) ∧
          Q (.ok (record.patched changes next time)) (l ++ [asked w .now (.ok time),
            saved w (record.patched changes next time)])
            (w.put (record.patched changes next time)))
        (patch record) (l ++ [asked w (.get c) (.ok record)]) w) :
    Ensures sys G Q (transition c event patch) l w := by
  refine Ensures.bind (ensures_get hsys (hG _ _ _ (.inl rfl)) hread fun record hfound => ?_)
  refine Ensures.bind (Ensures.lift ?_)
  cases hnext : applyTransition record.state event with
  | error x => exact hillegal record hfound x hnext
  | ok next =>
    refine Ensures.bind ((hpatch record hfound next hnext).mono ?_)
    intro r l' w' hr
    cases r with
    | error x => exact hr
    | ok changes =>
      refine Ensures.bind (ensures_now hsys (hG _ _ _ (.inr rfl)) fun time => ?_)
      obtain ⟨herr, hok⟩ := hr time
      refine Ensures.bind (ensures_save hsys (hG _ _ _ (.inl rfl)) (fun x => ?_) ?_)
      · rw [List.append_assoc]
        exact herr x
      · rw [List.append_assoc]
        exact hok

/-- The rule for a legal transition of a record that is there. -/
theorem ensures_transition_found (hsys : sys.exec = exec)
    {Q : Except JsError CaseRecord → Log → World → Prop} {c : Str} {event : CaseEvent}
    {patch : CaseRecord → Action CasePatch} {record : CaseRecord} {next : CaseState}
    (hG : ∀ l w e, e.isQuiet = false ∨ e.isSilent = true → G l w e)
    (hfound : w.store c = some record) (hnext : applyTransition record.state event = .ok next)
    (hread : ∀ x, Q (.error x) (l ++ [asked w (.get c) (.error x)]) w)
    (hpatch : Ensures sys G (fun r l w => match r with
        | .error x => Q (.error x) l w
        | .ok changes => ∀ time,
          (∀ x, Q (.error x) (l ++ [asked w .now (.ok time),
            asked w (.save (record.patched changes next time)) (.error x)]) w) ∧
          Q (.ok (record.patched changes next time)) (l ++ [asked w .now (.ok time),
            saved w (record.patched changes next time)])
            (w.put (record.patched changes next time)))
        (patch record) (l ++ [asked w (.get c) (.ok record)]) w) :
    Ensures sys G Q (transition c event patch) l w := by
  refine ensures_transition hsys hG hread ?_ ?_
  · intro record' hfound' x hillegal
    rw [hfound] at hfound'
    cases hfound'
    rw [hnext] at hillegal
    cases hillegal
  · intro record' hfound' next' hnext'
    rw [hfound] at hfound'
    cases hfound'
    rw [hnext] at hnext'
    cases hnext'
    exact hpatch

/-- What a transition whose patch needs no effect asks before it throws: it does not get the
record, or refuses it, or does not save it. -/
inductive Stopped (w : World) (c : Str) (event : CaseEvent)
    (patch : CaseRecord → Except JsError CasePatch) : Log → Prop
  | unread (x : JsError) : Stopped w c event patch [asked w (.get c) (.error x)]
  | refused (record : CaseRecord) (x : JsError) : w.store c = some record →
    applyTransition record.state event = .error x ∨ patch record = .error x →
    Stopped w c event patch [asked w (.get c) (.ok record)]
  | unsaved (record : CaseRecord) (changes : CasePatch) (next : CaseState) (time : Str)
    (x : JsError) : w.store c = some record → patch record = .ok changes →
    Stopped w c event patch [asked w (.get c) (.ok record), asked w .now (.ok time),
      asked w (.save (record.patched changes next time)) (.error x)]

/-- The rule for a transition whose patch needs no effect. -/
theorem ensures_transition_lift (hsys : sys.exec = exec)
    {Q : Except JsError CaseRecord → Log → World → Prop} {c : Str} {event : CaseEvent}
    (patch : CaseRecord → Except JsError CasePatch)
    (hG : ∀ l w e, e.isQuiet = false ∨ e.isSilent = true → G l w e)
    (herr : ∀ x since, Stopped w c event patch since → Q (.error x) (l ++ since) w)
    (hok : ∀ record next changes time, w.store c = some record →
      applyTransition record.state event = .ok next → patch record = .ok changes →
      Q (.ok (record.patched changes next time)) (l ++ [asked w (.get c) (.ok record),
        asked w .now (.ok time), saved w (record.patched changes next time)])
        (w.put (record.patched changes next time))) :
    Ensures sys G Q (transition c event fun record => Prog.lift (patch record)) l w := by
  refine ensures_transition hsys hG (fun x => herr x _ (.unread x))
    (fun record hfound x hx => herr x _ (.refused record x hfound (.inl hx))) ?_
  intro record hfound next hnext
  apply Ensures.lift
  cases hpatch : patch record with
  | error x => exact herr x _ (.refused record x hfound (.inr hpatch))
  | ok changes =>
    intro time
    refine ⟨fun x => ?_, ?_⟩
    · rw [List.append_assoc]
      exact herr x _ (.unsaved record changes next time x hfound hpatch)
    · rw [List.append_assoc]
      exact hok record next changes time hfound hnext hpatch

/-- The rule for a transition of a record that is there, with a legal event and a patch that
needs no effect: it goes through unless the store fails. -/
theorem ensures_move (hsys : sys.exec = exec)
    {Q : Except JsError CaseRecord → Log → World → Prop} {c : Str} {event : CaseEvent}
    (patch : CaseRecord → Except JsError CasePatch) {record : CaseRecord} {next : CaseState}
    {changes : CasePatch} (hG : ∀ l w e, e.isQuiet = false ∨ e.isSilent = true → G l w e)
    (hfound : w.store c = some record) (hid : record.caseId = c)
    (hnext : applyTransition record.state event = .ok next)
    (hpatch : patch record = .ok changes) (hchanges : changes.caseId = none)
    (herr : ∀ x since, Cut w c since → Q (.error x) (l ++ since) w)
    (hok : ∀ time, Q (.ok (record.patched changes next time))
      (l ++ moveLog w c record (record.patched changes next time) time)
      (w.put (record.patched changes next time))) :
    Ensures sys G Q (transition c event fun record => Prog.lift (patch record)) l w := by
  refine ensures_transition_found hsys hG hfound hnext (fun x => herr x _ ?_) ?_
  · refine ⟨rfl, _, List.mem_cons_self, ?_, rfl, rfl⟩
    exact Option.isSome_iff_exists.mpr ⟨record, hfound⟩
  · rw [hpatch]
    refine Ensures.lift fun time => ⟨fun x => ?_, ?_⟩
    · have hkey : (record.patched changes next time).caseId = c := by
        unfold CaseRecord.patched
        rw [hchanges]
        exact hid
      rw [List.append_assoc]
      refine herr x _ ⟨rfl, _, List.mem_of_getLast? rfl, rfl, rfl, ?_⟩
      exact congrArg some hkey
    · rw [List.append_assoc]
      exact hok time

end Rules

end Clawback
