import Clawback.Js.Parse
import Clawback.Js.Visible
import Clawback.Shared.Types

/-!
# Log redaction

`redact` copies an object for a log, with a text in place of what it has under every field that the
data-flow registry does not mark as public. It looks at the object's own keys, and no deeper; and the
copy of a key `__proto__` is not a member.

* `Plain.copy_eq_of_sameVisible`: objects that differ under such fields alone have one copy, if what
  the other keys hold has no such field in it.
* `redacts_iff`: redaction is a noninterference, and keeps what is clean, if and only if that is so
  and no key is `__proto__`.
-/

namespace Clawback

open Js Json

variable {N : Type}

/-- `SENSITIVE_FIELDS` -/
def sensitiveFields : List Str :=
  (dataFlowRegistry.filter fun e => e.visibility ≠ .isPublic).map DataFlowEntry.field

/-- `SENSITIVE_FIELDS.has(key)` -/
def isSensitive (key : Str) : Bool := sensitiveFields.contains key

/-- An object of JSON values: its keys are distinct, and so are those of the objects in it. -/
structure LogObject (N : Type) where
  members : List (Str × Json N)
  keys_nodup : (members.map Prod.fst).Nodup
  uniqueKeys : UniqueKeysMembers members

/-- An object that started as `{}`: its members, and its prototype once that has been set. -/
structure Plain (N : Type) where
  members : List (Str × Json N)
  proto : Option (Json N)

def protoKey : Str := js "__proto__"

/-- What the prototype of an object can be set to. -/
def isPrototype : Json N → Bool
  | .null | .arr _ | .obj _ => true
  | _ => false

/-- `out[key] = value`; `__proto__`, which is set once at most, is an accessor: it sets the prototype
or does nothing. -/
def Plain.set (out : Plain N) (key : Str) (value : Json N) : Plain N :=
  if key = protoKey then
    if isPrototype value then { out with proto := some value } else out
  else { out with members := setMember key value out.members }

/-- What a log has under a key. -/
def redactedValue (key : Str) (value : Json N) : Json N :=
  if isSensitive key then .str (js "[redacted]") else value

/-- The loop over the entries. -/
def Plain.copy (out : Plain N) (entries : List (Str × Json N)) : Plain N :=
  entries.foldl (fun out entry => out.set entry.1 (redactedValue entry.1 entry.2)) out

def redact (obj : LogObject N) : Plain N := Plain.copy ⟨[], none⟩ obj.members

/-- What redaction promises of an object: it tells nothing of what stands under a sensitive field, at
any depth, and every other value without such a field is in the copy where it was. -/
structure Redacts (obj : LogObject N) : Prop where
  noninterference : ∀ other : LogObject N,
    SameVisibleMembers isSensitive obj.members other.members → redact other = redact obj
  unchanged : ∀ (key : Str) (path : List Step) (value : Json N),
    at? isSensitive (.key key :: path) (.obj obj.members) = some value →
      clean isSensitive value = true →
      at? isSensitive (.key key :: path) (.obj (redact obj).members) = some value

/-! ## The copy -/

theorem isSensitive_protoKey : isSensitive protoKey = false := by decide

theorem redactedValue_of_not {key : Str} (h : isSensitive key = false) (value : Json N) :
    redactedValue key value = value := by
  rw [redactedValue, h]
  rfl

theorem lookup_setMember (key key' : Str) (v : Json N) (members : List (Str × Json N)) :
    (setMember key v members).lookup key' = if key' = key then some v else members.lookup key' := by
  induction members with
  | nil =>
    by_cases h : key' = key
    · rw [if_pos h, h]
      exact List.lookup_cons_self
    · rw [if_neg h, setMember, List.lookup_cons, beq_eq_false_iff_ne.mpr h]
  | cons m rest ih =>
    obtain ⟨k, w⟩ := m
    rw [setMember]
    by_cases hk : k = key
    · rw [if_pos hk]
      subst hk
      by_cases h : key' = k
      · rw [if_pos h, h, List.lookup_cons_self]
      · rw [if_neg h, List.lookup_cons, List.lookup_cons, beq_eq_false_iff_ne.mpr h]
    · rw [if_neg hk]
      by_cases h : key' = k
      · have hne : key' ≠ key := fun heq => hk (h.symm.trans heq)
        rw [if_neg hne, h, List.lookup_cons_self, List.lookup_cons_self]
      · rw [List.lookup_cons, List.lookup_cons, beq_eq_false_iff_ne.mpr h]
        exact ih

theorem Plain.lookup_set (out : Plain N) {key key' : Str} (value : Json N)
    (hkey : key' ≠ protoKey) : (out.set key value).members.lookup key' =
      if key' = key then some value else out.members.lookup key' := by
  unfold Plain.set
  by_cases hproto : key = protoKey
  · have hne : key' ≠ key := fun heq => hkey (heq.trans hproto)
    rw [if_pos hproto, if_neg hne]
    cases isPrototype value <;> rfl
  · rw [if_neg hproto]
    exact lookup_setMember key key' value out.members

theorem Plain.lookup_set_protoKey (out : Plain N) (key : Str) (value : Json N) :
    (out.set key value).members.lookup protoKey = out.members.lookup protoKey := by
  unfold Plain.set
  by_cases hproto : key = protoKey
  · rw [if_pos hproto]
    cases isPrototype value <;> rfl
  · rw [if_neg hproto]
    exact (lookup_setMember key protoKey value out.members).trans (if_neg (Ne.symm hproto))

theorem Plain.proto_set_of_ne (out : Plain N) {key : Str} (value : Json N) (h : key ≠ protoKey) :
    (out.set key value).proto = out.proto := by
  rw [Plain.set, if_neg h]

namespace Plain

theorem copy_cons (out : Plain N) (key : Str) (value : Json N) (rest : List (Str × Json N)) :
    out.copy ((key, value) :: rest) = (out.set key (redactedValue key value)).copy rest := rfl

theorem lookup_copy {entries : List (Str × Json N)} (hnodup : (entries.map Prod.fst).Nodup)
    (out : Plain N) {key : Str} (hkey : key ≠ protoKey) :
    (out.copy entries).members.lookup key =
      ((entries.lookup key).map (redactedValue key)).or (out.members.lookup key) := by
  induction entries generalizing out with
  | nil => rfl
  | cons entry rest ih =>
    obtain ⟨k, v⟩ := entry
    obtain ⟨hfresh, hrest⟩ := List.nodup_cons.mp hnodup
    rw [copy_cons, ih hrest, lookup_set out _ hkey]
    by_cases h : key = k
    · subst h
      have hnone : rest.lookup key = none := by
        refine List.lookup_eq_none_iff.mpr fun m hm => ?_
        have hne : key ≠ m.1 := fun heq => hfresh (List.mem_map.mpr ⟨m, hm, heq.symm⟩)
        simpa using hne
      rw [if_pos rfl, hnone, List.lookup_cons_self]
      rfl
    · rw [if_neg h, List.lookup_cons, beq_eq_false_iff_ne.mpr h]

theorem lookup_copy_protoKey (entries : List (Str × Json N)) (out : Plain N) :
    (out.copy entries).members.lookup protoKey = out.members.lookup protoKey := by
  induction entries generalizing out with
  | nil => rfl
  | cons entry rest ih =>
    obtain ⟨k, v⟩ := entry
    rw [copy_cons, ih, lookup_set_protoKey]

theorem proto_copy_of_notMem {entries : List (Str × Json N)}
    (hfresh : protoKey ∉ entries.map Prod.fst) (out : Plain N) :
    (out.copy entries).proto = out.proto := by
  induction entries generalizing out with
  | nil => rfl
  | cons entry rest ih =>
    obtain ⟨k, v⟩ := entry
    rw [List.map_cons, List.mem_cons, not_or] at hfresh
    rw [copy_cons, ih hfresh.2, proto_set_of_ne out _ (Ne.symm hfresh.1)]

/-- An object under the key that is left becomes the prototype of the copy. -/
theorem proto_copy {entries : List (Str × Json N)} (hnodup : (entries.map Prod.fst).Nodup)
    {value : Json N} (hmem : (protoKey, value) ∈ entries) (hvalue : isPrototype value = true)
    (out : Plain N) : (out.copy entries).proto = some value := by
  induction entries generalizing out with
  | nil => cases hmem
  | cons entry rest ih =>
    obtain ⟨k, v⟩ := entry
    obtain ⟨hfresh, hrest⟩ := List.nodup_cons.mp hnodup
    rw [copy_cons]
    rcases List.mem_cons.mp hmem with heq | hmem
    · cases heq
      rw [proto_copy_of_notMem hfresh, redactedValue_of_not isSensitive_protoKey, set, if_pos rfl,
        if_pos hvalue]
    · exact ih hrest hmem _

/-- Entries that differ under sensitive fields alone are copied alike. -/
theorem copy_eq_of_sameVisible {entries entries' : List (Str × Json N)}
    (hsame : SameVisibleMembers isSensitive entries entries')
    (hclean : ∀ key value, (key, value) ∈ entries → isSensitive key = false →
      clean isSensitive value = true) (out : Plain N) : out.copy entries' = out.copy entries := by
  induction entries generalizing entries' out with
  | nil =>
    cases hsame
    rfl
  | cons entry rest ih =>
    have hrest : ∀ key value, (key, value) ∈ rest → isSensitive key = false →
        clean isSensitive value = true :=
      fun key value hmem => hclean key value (List.mem_cons_of_mem _ hmem)
    cases hsame with
    | hide v w hkey htail =>
      rw [copy_cons, copy_cons, ih htail hrest, redactedValue, redactedValue, if_pos hkey,
        if_pos hkey]
    | keep key hv htail =>
      rw [copy_cons, copy_cons, ih htail hrest]
      cases hkey : isSensitive key with
      | true => rw [redactedValue, redactedValue, if_pos hkey, if_pos hkey]
      | false => rw [hv.eq_of_clean (hclean key _ List.mem_cons_self hkey)]

end Plain

/-- The copy has what the object has, under every key but one. -/
theorem lookup_redact (obj : LogObject N) {key : Str} (hkey : key ≠ protoKey) :
    (redact obj).members.lookup key = (obj.members.lookup key).map (redactedValue key) :=
  (Plain.lookup_copy obj.keys_nodup _ hkey).trans Option.or_none

theorem lookup_redact_protoKey (obj : LogObject N) :
    (redact obj).members.lookup protoKey = none :=
  Plain.lookup_copy_protoKey obj.members _

theorem proto_redact (obj : LogObject N) {value : Json N} (hmem : (protoKey, value) ∈ obj.members)
    (hvalue : isPrototype value = true) : (redact obj).proto = some value :=
  Plain.proto_copy obj.keys_nodup hmem hvalue _

/-! ## A noninterference -/

/-- The object with something else under every sensitive field. -/
def LogObject.disturb (obj : LogObject N) : LogObject N where
  members := disturbMembers isSensitive obj.members
  keys_nodup := (keys_disturbMembers obj.members).symm ▸ obj.keys_nodup
  uniqueKeys := uniqueKeysMembers_disturb obj.members obj.uniqueKeys

theorem LogObject.mem_disturb {obj : LogObject N} {key : Str} {value : Json N}
    (hmem : (key, value) ∈ obj.members) (hkey : isSensitive key = false) :
    (key, Json.disturb isSensitive value) ∈ obj.disturb.members := by
  have hmap : obj.disturb.members = _ := disturbMembers_eq_map obj.members
  rw [hmap]
  refine List.mem_map.mpr ⟨(key, value), hmem, ?_⟩
  dsimp only
  rw [hkey]
  rfl

theorem isPrototype_disturb {hidden : Str → Bool} (value : Json N) :
    isPrototype (Json.disturb hidden value) = isPrototype value := by
  cases value <;> rfl

theorem clean_of_not_isPrototype {hidden : Str → Bool} {value : Json N}
    (h : isPrototype value = false) : clean hidden value = true := by
  cases value with
  | arr xs => cases h
  | obj members => cases h
  | _ => rfl

/-- What a copy that keeps the secret shows is clean. -/
theorem clean_of_redact_disturb {obj : LogObject N} (h : redact obj.disturb = redact obj)
    {key : Str} {value : Json N} (hmem : (key, value) ∈ obj.members)
    (hkey : isSensitive key = false) : clean isSensitive value = true := by
  have hmem' := LogObject.mem_disturb hmem hkey
  by_cases hproto : key = protoKey
  · subst hproto
    cases hvalue : isPrototype value with
    | false => exact clean_of_not_isPrototype hvalue
    | true =>
      have hcopy := proto_redact obj hmem hvalue
      rw [← h, proto_redact obj.disturb hmem' ((isPrototype_disturb value).trans hvalue)] at hcopy
      exact clean_of_disturb_eq value (Option.some.inj hcopy)
  · have hcopy := lookup_redact obj hproto
    rw [← h, lookup_redact obj.disturb hproto, (lookup_eq_some_iff obj.keys_nodup).mpr hmem,
      (lookup_eq_some_iff obj.disturb.keys_nodup).mpr hmem', Option.map_some, Option.map_some,
      redactedValue_of_not hkey, redactedValue_of_not hkey] at hcopy
    exact clean_of_disturb_eq value (Option.some.inj hcopy)

theorem at?_key_cons {hidden : Str → Bool} {key : Str} (hkey : hidden key = false)
    (path : List Step) (members : List (Str × Json N)) :
    at? hidden (.key key :: path) (.obj members) =
      (members.lookup key).bind (at? hidden path) := by
  rw [at?, hkey]
  rfl

/-- Redaction is a noninterference, and keeps what is clean, exactly on the objects whose public keys
hold no sensitive field and are not `__proto__`. -/
theorem redacts_iff (obj : LogObject N) : Redacts obj ↔
    ∀ key value, (key, value) ∈ obj.members → isSensitive key = false →
      clean isSensitive value = true ∧ key ≠ protoKey := by
  constructor
  · intro h key value hmem hkey
    have hsame := h.noninterference obj.disturb (sameVisibleMembers_disturb obj.members)
    have hclean := clean_of_redact_disturb hsame hmem hkey
    refine ⟨hclean, fun hproto => ?_⟩
    subst hproto
    have hlookup := (lookup_eq_some_iff obj.keys_nodup).mpr hmem
    have hthere : at? isSensitive [.key protoKey] (.obj obj.members) = some value := by
      rw [at?_key_cons hkey, hlookup]
      rfl
    have hcopy := h.unchanged protoKey [] value hthere hclean
    rw [at?_key_cons hkey, lookup_redact_protoKey] at hcopy
    cases hcopy
  · intro h
    refine ⟨fun other hsame => ?_, fun key path value hthere _ => ?_⟩
    · exact Plain.copy_eq_of_sameVisible hsame
        (fun key value hmem hkey => (h key value hmem hkey).1) _
    · cases hkey : isSensitive key with
      | true =>
        rw [at?, hkey] at hthere
        cases hthere
      | false =>
        rw [at?_key_cons hkey] at hthere ⊢
        obtain ⟨held, hheld, hpath⟩ := Option.bind_eq_some_iff.mp hthere
        have hmem := (lookup_eq_some_iff obj.keys_nodup).mp hheld
        rw [lookup_redact obj (h key held hmem hkey).2, hheld, Option.map_some,
          redactedValue_of_not hkey]
        exact hpath

/-- `{ input: { merchantName: name } }` -/
def nested (name : Str) : LogObject Int :=
  ⟨[(js "input", .obj [(js "merchantName", .str name)])], List.nodup_singleton _,
    ⟨List.nodup_singleton _, trivial, trivial⟩, trivial⟩

/-- What stands under a sensitive field is told one level down. -/
theorem nested_told :
    SameVisibleMembers isSensitive (nested (js "Acme")).members (nested (js "Other")).members ∧
      redact (nested (js "Other")) ≠ redact (nested (js "Acme")) ∧
      ¬∀ obj : LogObject Int, Redacts obj := by
  have hsame : SameVisibleMembers isSensitive (nested (js "Acme")).members
      (nested (js "Other")).members :=
    .keep _ (.obj (.hide _ _ (by decide) .nil)) .nil
  have hne : redact (nested (js "Other")) ≠ redact (nested (js "Acme")) := by
    intro h
    have hmembers : (nested (js "Other")).members = (nested (js "Acme")).members :=
      congrArg Plain.members h
    simp [nested] at hmembers
    exact absurd hmembers (by decide)
  exact ⟨hsame, hne, fun hall => hne ((hall _).noninterference _ hsame)⟩

end Clawback
