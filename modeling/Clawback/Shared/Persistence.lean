import Clawback.Js.Datum
import Clawback.Shared.Commitment

/-!
# Commitments to stored artifacts

`canonicalize` takes any value, and asks `JSON.stringify` for the text of what is not an object. Of
`undefined` that has no text: the canonical text then says `undefined` for a member and nothing at
all for an element, where `JSON.stringify` leaves the member out and writes null for the element.

* `canonicalizeUnknown_ofJson`: on JSON values this is the canonical text.
* `canonicalizeUnknown_eq_iff`: a value and what is left of it in a stored text have one canonical
  text if and only if all of the value is defined.
* `commit_survives_iff`: so a commitment recomputes from the stored text if and only if nothing in
  the artifact is undefined.
-/

namespace Clawback

open Js

section Canonical

variable {N : Type} [NumberText N]

mutual

/-- `canonicalize(value)`; none is `undefined`, which is what `JSON.stringify` returns of it. -/
def canonicalizeUnknown : Datum N → Option Str
  | .arr xs => some (js "[" ++ join (js ",") (canonicalizeUnknownElements xs) ++ js "]")
  | .obj members =>
    some (js "\x7b" ++ join (js ",") ((Json.sortMembers (canonicalizeUnknownMembers members)).map
      fun entry => quote entry.1 ++ js ":" ++ entry.2) ++ js "\x7d")
  | v => Datum.stringify v

/-- The texts that are joined: `undefined` is joined as the empty text. -/
def canonicalizeUnknownElements : List (Datum N) → List Str
  | [] => []
  | v :: vs => (canonicalizeUnknown v).getD [] :: canonicalizeUnknownElements vs

/-- The texts in the template: `undefined` is written out. -/
def canonicalizeUnknownMembers : List (Str × Datum N) → List (Str × Str)
  | [] => []
  | (key, v) :: rest =>
    (key, (canonicalizeUnknown v).getD (js "undefined")) :: canonicalizeUnknownMembers rest

end

theorem canonicalizeUnknownElements_eq_map (xs : List (Datum N)) :
    canonicalizeUnknownElements xs = xs.map fun v => (canonicalizeUnknown v).getD [] := by
  induction xs with
  | nil => rfl
  | cons v vs ih => rw [canonicalizeUnknownElements, ih, List.map_cons]

theorem canonicalizeUnknownMembers_eq_map (members : List (Str × Datum N)) :
    canonicalizeUnknownMembers members =
      members.map fun m => (m.1, (canonicalizeUnknown m.2).getD (js "undefined")) := by
  induction members with
  | nil => rfl
  | cons m rest ih => rw [canonicalizeUnknownMembers, ih, List.map_cons]

mutual

/-- A JSON value has the canonical text it had. -/
theorem canonicalizeUnknown_ofJson : ∀ v : Json N,
    canonicalizeUnknown (Datum.ofJson v) = some (canonicalize v)
  | .null => rfl
  | .bool _ => rfl
  | .num _ => rfl
  | .str _ => rfl
  | .arr xs => by
    rw [Datum.ofJson, canonicalizeUnknown, canonicalize, canonicalizeUnknownElements_ofJson]
  | .obj members => by
    rw [Datum.ofJson, canonicalizeUnknown, canonicalize, canonicalizeUnknownMembers_ofJson]

theorem canonicalizeUnknownElements_ofJson : ∀ xs : List (Json N),
    canonicalizeUnknownElements (Datum.ofJsonElements xs) = canonicalizeElements xs
  | [] => rfl
  | v :: vs => by
    rw [Datum.ofJsonElements, canonicalizeUnknownElements, canonicalizeElements,
      canonicalizeUnknown_ofJson v, canonicalizeUnknownElements_ofJson vs]
    rfl

theorem canonicalizeUnknownMembers_ofJson : ∀ members : List (Str × Json N),
    canonicalizeUnknownMembers (Datum.ofJsonMembers members) = canonicalizeMembers members
  | [] => rfl
  | (key, v) :: rest => by
    rw [Datum.ofJsonMembers, canonicalizeUnknownMembers, canonicalizeMembers,
      canonicalizeUnknown_ofJson v, canonicalizeUnknownMembers_ofJson rest]
    rfl

end

/-! ## Two texts side by side -/

/-- Texts with a comma before each. -/
def commas (texts : List Str) : Str := (texts.map (js "," ++ ·)).flatten

theorem commas_cons (text : Str) (rest : List Str) :
    commas (text :: rest) = js "," ++ (text ++ commas rest) := by
  rw [commas, List.map_cons, List.flatten_cons, List.append_assoc]
  rfl

theorem comma_join {texts : List Str} (h : texts ≠ []) :
    js "," ++ join (js ",") texts = commas texts := by
  cases texts with
  | nil => exact absurd rfl h
  | cons s rest => rw [join_cons, commas_cons, commas]

/-- Behind a value stands a comma or what closes the list. -/
theorem head?_commas_append (texts : List Str) (c : CodeUnit) (s : Str) :
    (commas texts ++ c :: s).head? = some (unit ',') ∨ (commas texts ++ c :: s).head? = some c := by
  cases texts with
  | nil => exact .inr rfl
  | cons text rest => exact .inl (by rw [commas_cons]; rfl)

/-- Where the canonical text of a value and that of what is left of it go on alike, all of the value
is defined and they end together. -/
def Faithful (v : Datum N) : Prop :=
  ∀ s s' : Str, (canonicalizeUnknown v).getD [] ++ s = canonicalize v.toJson ++ s' →
    v.allDefined = true ∧ s = s'

theorem faithful_of_eq {v : Datum N} (h : v.allDefined = true)
    (htext : canonicalizeUnknown v = some (canonicalize v.toJson)) : Faithful v := by
  intro s s' heq
  rw [htext, Option.getD_some] at heq
  exact ⟨h, List.append_cancel_left heq⟩

theorem faithful_elements {vs : List (Datum N)} (ih : ∀ v ∈ vs, v.isUndefined = false → Faithful v)
    {s s' : Str} (heq : commas (vs.map fun v => (canonicalizeUnknown v).getD []) ++ unit ']' :: s =
      commas (vs.map fun v => canonicalize v.toJson) ++ unit ']' :: s') :
    (∀ v ∈ vs, v.allDefined = true) ∧ s = s' := by
  induction vs with
  | nil => exact ⟨fun _ hv => absurd hv List.not_mem_nil, (List.cons.inj heq).2⟩
  | cons v vs ihvs =>
    rw [List.map_cons, List.map_cons, commas_cons, commas_cons, List.append_assoc,
      List.append_assoc, List.append_assoc, List.append_assoc] at heq
    have hvalue := List.append_cancel_left heq
    cases hv : v.isUndefined with
    | true =>
      -- nothing against `null`
      cases v with
      | undefined =>
        have hnull : (commas (vs.map fun v => (canonicalizeUnknown v).getD []) ++
            unit ']' :: s).head? = some (unit 'n') := congrArg List.head? hvalue
        rcases head?_commas_append (vs.map fun v => (canonicalizeUnknown v).getD []) (unit ']') s
          with hhead | hhead
        · exact absurd (hhead.symm.trans hnull) (by decide)
        · exact absurd (hhead.symm.trans hnull) (by decide)
      | _ => cases hv
    | false =>
      obtain ⟨hdefined, hrest⟩ := ih v List.mem_cons_self hv _ _ hvalue
      obtain ⟨hvs, hs⟩ := ihvs (fun v hv => ih v (List.mem_cons_of_mem _ hv)) hrest
      exact ⟨List.forall_mem_cons.mpr ⟨hdefined, hvs⟩, hs⟩

/-- The text of a member. -/
def entryText (key text : Str) : Str := quote key ++ js ":" ++ text

theorem entryText_append_inj {k k' text text' s s' : Str}
    (h : entryText k text ++ s = entryText k' text' ++ s') : k = k' ∧ text ++ s = text' ++ s' := by
  unfold entryText at h
  rw [List.append_assoc, List.append_assoc, List.append_assoc, List.append_assoc] at h
  obtain ⟨hkey, hrest⟩ := quote_append_inj h
  exact ⟨hkey, List.append_cancel_left hrest⟩

theorem exists_canonicalizeUnknown {v : Datum N} (h : v.isUndefined = false) :
    ∃ text, canonicalizeUnknown v = some text := by
  cases v with
  | undefined => cases h
  | _ => exact ⟨_, rfl⟩

/-- A key that is skipped has no place in the other text: the next key is another one. -/
theorem entryText_ne_commas {key : Str} {rest : List (Str × Datum N)}
    (hfresh : key ∉ rest.map Prod.fst) (text s s' : Str) :
    js "," ++ (entryText key text ++ s) ≠
      commas ((Datum.definedMembers rest).map fun m => entryText m.1 (canonicalize m.2.toJson)) ++
        unit '}' :: s' := by
  intro heq
  cases hmore : Datum.definedMembers rest with
  | nil =>
    rw [hmore] at heq
    have hcomma : unit ',' = unit '}' := (List.cons.inj heq).1
    exact absurd hcomma (by decide)
  | cons next more =>
    rw [hmore, List.map_cons, commas_cons, List.append_assoc, List.append_assoc] at heq
    obtain ⟨hkey, -⟩ := entryText_append_inj (List.append_cancel_left heq)
    have hnext : next ∈ Datum.definedMembers rest := hmore ▸ List.mem_cons_self
    exact hfresh (hkey ▸ List.mem_map_of_mem (List.mem_of_mem_filter hnext))

theorem faithful_members {members : List (Str × Datum N)} (hkeys : (members.map Prod.fst).Nodup)
    (ih : ∀ m ∈ members, m.2.isUndefined = false → Faithful m.2) {s s' : Str}
    (heq : commas (members.map fun m =>
          entryText m.1 ((canonicalizeUnknown m.2).getD (js "undefined"))) ++ unit '}' :: s =
      commas ((Datum.definedMembers members).map fun m => entryText m.1 (canonicalize m.2.toJson)) ++
        unit '}' :: s') :
    (∀ m ∈ members, m.2.allDefined = true) ∧ s = s' := by
  induction members with
  | nil => exact ⟨fun _ hm => absurd hm List.not_mem_nil, (List.cons.inj heq).2⟩
  | cons m rest ihrest =>
    obtain ⟨key, v⟩ := m
    obtain ⟨hfresh, hrestkeys⟩ := List.nodup_cons.mp hkeys
    rw [List.map_cons, commas_cons, List.append_assoc, List.append_assoc,
      Datum.definedMembers_cons] at heq
    cases hv : v.isUndefined with
    | true =>
      rw [hv, if_pos rfl] at heq
      exact absurd heq (entryText_ne_commas hfresh _ _ _)
    | false =>
      rw [hv, if_neg Bool.false_ne_true, List.map_cons, commas_cons, List.append_assoc,
        List.append_assoc] at heq
      obtain ⟨-, hvalue⟩ := entryText_append_inj (List.append_cancel_left heq)
      obtain ⟨text, htext⟩ := exists_canonicalizeUnknown hv
      rw [htext, Option.getD_some] at hvalue
      have hfaithful := ih (key, v) List.mem_cons_self hv
      obtain ⟨hdefined, hrest⟩ := hfaithful _ _ (by
        rw [htext, Option.getD_some]
        exact hvalue)
      obtain ⟨hvs, hs⟩ := ihrest hrestkeys (fun m hm => ih m (List.mem_cons_of_mem _ hm)) hrest
      exact ⟨List.forall_mem_cons.mpr ⟨hdefined, hvs⟩, hs⟩

theorem commas_of_join {texts texts' : List Str} (h : texts ≠ []) (h' : texts' ≠ []) {s s' : Str}
    (heq : join (js ",") texts ++ s = join (js ",") texts' ++ s') :
    commas texts ++ s = commas texts' ++ s' := by
  rw [← comma_join h, ← comma_join h', List.append_assoc, List.append_assoc, heq]

/-! ## A value and what is left of it -/

theorem canonicalizeElements_toJson (xs : List (Datum N)) :
    canonicalizeElements (Datum.toJsonElements xs) = xs.map fun v => canonicalize v.toJson := by
  induction xs with
  | nil => rfl
  | cons v vs ih => rw [Datum.toJsonElements, canonicalizeElements, ih, List.map_cons]

theorem canonicalizeMembers_toJson (members : List (Str × Datum N)) :
    canonicalizeMembers (Datum.toJsonMembers members) =
      (Datum.definedMembers members).map fun m => (m.1, canonicalize m.2.toJson) := by
  rw [Datum.toJsonMembers_eq_map]
  induction Datum.definedMembers members with
  | nil => rfl
  | cons m rest ih => rw [List.map_cons, canonicalizeMembers, ih, List.map_cons]

theorem faithful_arr {xs : List (Datum N)} (ih : ∀ v ∈ xs, v.isUndefined = false → Faithful v) :
    Faithful (.arr xs) := by
  intro s s' heq
  rw [canonicalizeUnknown, Option.getD_some, Datum.toJson, canonicalize,
    canonicalizeUnknownElements_eq_map, canonicalizeElements_toJson, List.append_assoc,
    List.append_assoc, List.append_assoc, List.append_assoc] at heq
  have hlist := List.append_cancel_left heq
  have hcommas : commas (xs.map fun v => (canonicalizeUnknown v).getD []) ++ unit ']' :: s =
      commas (xs.map fun v => canonicalize v.toJson) ++ unit ']' :: s' := by
    cases xs with
    | nil => exact hlist
    | cons v vs => exact commas_of_join (List.cons_ne_nil _ _) (List.cons_ne_nil _ _) hlist
  obtain ⟨hdefined, hs⟩ := faithful_elements ih hcommas
  exact ⟨Datum.allDefinedElements_iff.mpr hdefined, hs⟩

theorem faithful_obj {members : List (Str × Datum N)} (hkeys : (members.map Prod.fst).Nodup)
    (ih : ∀ m ∈ members, m.2.isUndefined = false → Faithful m.2) : Faithful (.obj members) := by
  intro s s' heq
  have hperm := Json.sortMembers_perm members
  rw [canonicalizeUnknown, Option.getD_some, Datum.toJson, canonicalize,
    canonicalizeUnknownMembers_eq_map, canonicalizeMembers_toJson,
    Json.sortMembers_map fun v => (canonicalizeUnknown v).getD (js "undefined"),
    Json.sortMembers_map fun v : Datum N => canonicalize v.toJson,
    Datum.sortMembers_definedMembers hkeys, List.map_map, List.map_map, List.append_assoc,
    List.append_assoc, List.append_assoc, List.append_assoc] at heq
  have hlist := List.append_cancel_left heq
  have hcommas : commas ((Json.sortMembers members).map fun m =>
        entryText m.1 ((canonicalizeUnknown m.2).getD (js "undefined"))) ++ unit '}' :: s =
      commas ((Datum.definedMembers (Json.sortMembers members)).map fun m =>
        entryText m.1 (canonicalize m.2.toJson)) ++ unit '}' :: s' := by
    cases hsorted : Json.sortMembers members with
    | nil =>
      rw [hsorted] at hlist
      exact hlist
    | cons m rest =>
      rw [hsorted] at hlist
      cases hdefined : Datum.definedMembers (m :: rest) with
      | nil =>
        -- the first key against the closing brace
        rw [hdefined, List.map_cons, join_cons] at hlist
        have hquote : unit '"' = unit '}' := (List.cons.inj hlist).1
        exact absurd hquote (by decide)
      | cons next more =>
        rw [hdefined] at hlist
        exact commas_of_join (List.cons_ne_nil _ _) (List.cons_ne_nil _ _) hlist
  obtain ⟨hdefined, hs⟩ := faithful_members ((hperm.map Prod.fst).nodup_iff.mpr hkeys)
    (fun m hm => ih m (hperm.subset hm)) hcommas
  exact ⟨Datum.allDefinedMembers_iff.mpr fun m hm => hdefined m (hperm.symm.subset hm), hs⟩

theorem faithful {v : Datum N} : v.UniqueKeys → v.isUndefined = false → Faithful v := by
  induction v using Datum.induct with
  | undefined => exact fun _ hv => nomatch hv
  | null => exact fun _ _ => faithful_of_eq rfl rfl
  | bool b => exact fun _ _ => faithful_of_eq rfl rfl
  | num n => exact fun _ _ => faithful_of_eq rfl rfl
  | str s => exact fun _ _ => faithful_of_eq rfl rfl
  | arr xs ih =>
    intro hkeys _
    have hparts := Datum.uniqueKeysElements_iff.mp hkeys
    exact faithful_arr fun v hv => ih v hv (hparts v hv)
  | obj members ih =>
    intro hkeys _
    have hparts := Datum.uniqueKeysMembers_iff.mp hkeys.2
    exact faithful_obj hkeys.1 fun m hm => ih m hm (hparts m hm)

/-- What is left of a value has its canonical text if and only if all of it is defined. -/
theorem canonicalizeUnknown_eq_iff {v : Datum N} (hkeys : v.UniqueKeys) (hv : v.isUndefined = false) :
    canonicalizeUnknown v = some (canonicalize v.toJson) ↔ v.allDefined = true := by
  constructor
  · intro htext
    have heq : (canonicalizeUnknown v).getD [] ++ [] = canonicalize v.toJson ++ [] := by
      rw [htext, Option.getD_some]
    exact (faithful hkeys hv [] [] heq).1
  · intro hdefined
    have hsame := canonicalizeUnknown_ofJson v.toJson
    rwa [Datum.ofJson_toJson hdefined] at hsame

end Canonical

/-! ## Commitments -/

section Commit

variable {N : Type} [NumberText N]

/-- `commit(artifact)`; none is the error of hashing `undefined`. -/
def commitUnknown (sha256Hex : Str → Str) (artifact : Datum N) : Option Str :=
  (canonicalizeUnknown artifact).map fun canonical => js "0x" ++ sha256Hex canonical

/-- `JSON.parse(JSON.stringify(artifact))` -/
def restored (artifact : Datum N) : Option (Datum N) :=
  artifact.stringify.bind fun text => (Json.parse text).map Datum.ofJson

/-- A value that can be stored. -/
structure Artifact (N : Type) [NumberText N] where
  value : Datum N
  uniqueKeys : value.UniqueKeys
  stored : value.stringify.isSome = true

/-- The commitment recomputes from what was stored. -/
def Artifact.Survives (artifact : Artifact N) (sha256Hex : Str → Str) : Prop :=
  (restored artifact.value).bind (commitUnknown sha256Hex) = commitUnknown sha256Hex artifact.value

/-- The canonical texts of an artifact and of what is restored of it. -/
def Artifact.texts (artifact : Artifact N) : Set Str :=
  {text | canonicalizeUnknown artifact.value = some text ∨
    (restored artifact.value).bind canonicalizeUnknown = some text}

theorem Artifact.isUndefined (artifact : Artifact N) : artifact.value.isUndefined = false := by
  have hstored := artifact.stored
  rw [Datum.stringify_eq] at hstored
  cases hv : artifact.value.isUndefined with
  | true =>
    rw [hv] at hstored
    cases hstored
  | false => rfl

theorem Artifact.restored_eq (artifact : Artifact N) :
    restored artifact.value = some (Datum.ofJson artifact.value.toJson) := by
  obtain ⟨text, htext⟩ := Option.isSome_iff_exists.mp artifact.stored
  rw [restored, htext, Option.bind_some, Datum.parse_of_stringify artifact.uniqueKeys htext]
  rfl

/-- `{ a: undefined }` -/
def absent : Artifact Int :=
  ⟨.obj [(js "a", .undefined)], ⟨List.nodup_singleton _, trivial, trivial⟩, rfl⟩

/-- `{ a: [undefined] }` -/
def holed : Artifact Int :=
  ⟨.obj [(js "a", .arr [.undefined])], ⟨List.nodup_singleton _, ⟨trivial, trivial⟩, trivial⟩, rfl⟩

theorem Artifact.text_restored (artifact : Artifact N) :
    (restored artifact.value).bind canonicalizeUnknown =
      some (canonicalize artifact.value.toJson) := by
  rw [artifact.restored_eq, Option.bind_some, canonicalizeUnknown_ofJson]

theorem Artifact.commit_restored (artifact : Artifact N) {sha256Hex : Str → Str} :
    (restored artifact.value).bind (commitUnknown sha256Hex) =
      some (js "0x" ++ sha256Hex (canonicalize artifact.value.toJson)) := by
  rw [artifact.restored_eq, Option.bind_some, commitUnknown, canonicalizeUnknown_ofJson]
  rfl

/-- A commitment survives storage if and only if nothing in the artifact is undefined, as long as
the hash function has no collision on the two texts. -/
theorem commit_survives_iff (sha256Hex : Str → Str) (artifact : Artifact N)
    (hinj : Set.InjOn sha256Hex artifact.texts) :
    artifact.Survives sha256Hex ↔ artifact.value.allDefined = true := by
  obtain ⟨text, htext⟩ := exists_canonicalizeUnknown artifact.isUndefined
  rw [Artifact.Survives, artifact.commit_restored, commitUnknown, htext, Option.map_some,
    ← canonicalizeUnknown_eq_iff artifact.uniqueKeys artifact.isUndefined, htext]
  constructor
  · intro h
    have hhash := List.append_cancel_left (Option.some.inj h)
    rw [hinj (.inr artifact.text_restored) (.inl htext) hhash]
  · intro h
    rw [Option.some.inj h]

theorem commit_survives_iff_holed : ¬holed.Survives Sha256.hex := by
  have htext : canonicalizeUnknown holed.value = some (js "\x7b\"a\":[]\x7d") := rfl
  have hrestored : canonicalize holed.value.toJson = js "\x7b\"a\":[null]\x7d" := rfl
  have hinj : Set.InjOn Sha256.hex holed.texts := by
    have htexts : holed.texts = {js "\x7b\"a\":[]\x7d", js "\x7b\"a\":[null]\x7d"} := by
      ext text
      simp [Artifact.texts, htext, holed.text_restored, hrestored, eq_comm]
    rw [htexts]
    exact Set.injOn_pair.mpr (by decide +kernel)
  exact fun h => absurd ((commit_survives_iff Sha256.hex holed hinj).mp h) (by decide)

/-- A member that is not defined is hashed, and not stored. -/
theorem commit_lost : ¬∀ artifact : Artifact Int, artifact.Survives Sha256.hex := by
  intro hall
  have hsurvives := hall absent
  rw [Artifact.Survives, absent.commit_restored] at hsurvives
  have hhash : Sha256.hex (js "\x7b\x7d") = Sha256.hex (js "\x7b\"a\":undefined\x7d") :=
    List.append_cancel_left (Option.some.inj hsurvives)
  exact absurd hhash (by decide +kernel)

end Commit

end Clawback
