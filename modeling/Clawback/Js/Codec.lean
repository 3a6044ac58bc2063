import Clawback.Js.Parse

/-!
# Data as JSON values

`Value` is a JSON value whose objects have every key once: what a JavaScript value made
of plain objects can be. `Codec N α` says how a type of the program is laid out as a JSON
value, and that the layout can be read back; `fields` reads the members of a record.

`ofText_stringify`, `ofText_stringifyIndented`: data survives `JSON.stringify` and
`JSON.parse`, in either layout of the text.
-/

namespace Js

/-- A JSON value with unique keys. -/
structure Value (N : Type) where
  json : Json N
  uniqueKeys : json.UniqueKeys

namespace Value

variable {N : Type}

/-- The value stored under a key. -/
def get? (key : Str) (v : Value N) : Option (Value N) :=
  match v with
  | ⟨.obj members, h⟩ =>
    match hm : members.lookup key with
    | some w => some ⟨w, by
        obtain ⟨l, l', rfl, _⟩ := List.lookup_eq_some_iff.mp hm
        exact Json.uniqueKeys_of_mem h.2 (m := (key, w)) (by simp)⟩
    | none => none
  | _ => none

/-- The element at an index. -/
def element? (i : Nat) (v : Value N) : Option (Value N) :=
  match v with
  | ⟨.arr xs, h⟩ =>
    match hx : xs[i]? with
    | some w => some ⟨w, Json.uniqueKeysList_iff.mp h w (List.mem_of_getElem? hx)⟩
    | none => none
  | _ => none

/-- `null`. -/
def null : Value N := ⟨.null, trivial⟩

/-- A string. -/
def ofStr (s : Str) : Value N := ⟨.str s, trivial⟩

/-- A JSON value, if its keys are unique. -/
def ofJson? (v : Json N) : Option (Value N) := if h : v.UniqueKeys then some ⟨v, h⟩ else none

@[simp] theorem ofJson?_json (v : Value N) : ofJson? v.json = some v := dif_pos v.uniqueKeys

end Value

/-- A type with a layout as JSON values. A present value is never laid out as `null`, so
an optional one can be. -/
class Codec (N α : Type) where
  toJson : α → Json N
  ofJson : Json N → Option α
  ofJson_toJson : ∀ a : α, ofJson (toJson a) = some a
  uniqueKeys_toJson : ∀ a : α, (toJson a).UniqueKeys
  toJson_ne_null : ∀ a : α, toJson a ≠ .null

export Codec (toJson ofJson)

namespace Codec

variable {N α : Type} [Codec N α]

attribute [simp] ofJson_toJson uniqueKeys_toJson toJson_ne_null

/-- An optional value; `null` when it is absent. -/
def optionToJson : Option α → Json N
  | none => .null
  | some a => toJson a

/-- `null`, or a value that is present. -/
def optionOfJson : Json N → Option (Option α)
  | .null => some none
  | v => (ofJson v).map some

@[simp] theorem optionOfJson_optionToJson (x : Option α) :
    optionOfJson (optionToJson (N := N) x) = some x := by
  cases x with
  | none => rfl
  | some a =>
    have hnull := toJson_ne_null (N := N) a
    have hread := ofJson_toJson (N := N) a
    rw [optionToJson]
    cases h : (toJson a : Json N) with
    | null => exact absurd h hnull
    | _ =>
      rw [h] at hread
      simp only [optionOfJson, hread, Option.map_some]

@[simp] theorem uniqueKeys_optionToJson (x : Option α) :
    (optionToJson (N := N) x).UniqueKeys := by
  cases x with
  | none => trivial
  | some a => exact uniqueKeys_toJson a

/-! ## Records -/

/-- A record with the given keys. -/
def record (keys : List Str) (values : List (Json N)) : Json N := .obj (keys.zip values)

/-- The members of a record under the given keys. -/
def fields (keys : List Str) (v : Json N) : Option (List (Json N)) :=
  keys.mapM fun key => v.get? key

theorem mapM_get?_zip (members : List (Str × Json N)) :
    ∀ (keys : List Str) (values : List (Json N)), keys.Nodup → keys.length = values.length →
      (∀ key ∈ keys, members.lookup key = none) →
      fields keys (.obj (members ++ keys.zip values)) = some values
  | [], [], _, _, _ => rfl
  | key :: keys, value :: values, hkeys, hlen, hfresh => by
    obtain ⟨hkey, hkeys⟩ := List.nodup_cons.mp hkeys
    have hfirst : (Json.obj (members ++ (key, value) :: keys.zip values)).get? key
        = some value := by
      rw [Json.get?, List.lookup_append, hfresh key List.mem_cons_self]
      simp
    have hfresh' : ∀ k ∈ keys, (members ++ [(key, value)]).lookup k = none := by
      intro k hk
      have hne : k ≠ key := by
        rintro rfl
        exact hkey hk
      rw [List.lookup_append, hfresh k (List.mem_cons_of_mem _ hk)]
      simp [hne]
    have hrest := mapM_get?_zip (members ++ [(key, value)]) keys values hkeys
      (Nat.succ.inj hlen) hfresh'
    rw [List.append_assoc, List.singleton_append, fields] at hrest
    rw [fields, List.zip_cons_cons, List.mapM_cons, hfirst, Option.bind_eq_bind,
      Option.bind_some, hrest]
    rfl

theorem fields_record {keys : List Str} {values : List (Json N)} (hkeys : keys.Nodup)
    (hlen : keys.length = values.length) : fields keys (record keys values) = some values :=
  mapM_get?_zip [] keys values hkeys hlen fun _ _ => rfl

theorem uniqueKeys_record {keys : List Str} {values : List (Json N)} (hkeys : keys.Nodup)
    (hlen : keys.length = values.length) (hvalues : ∀ v ∈ values, v.UniqueKeys) :
    (record keys values).UniqueKeys := by
  refine ⟨?_, Json.uniqueKeysMembers_iff.mpr ?_⟩
  · rw [List.map_fst_zip hlen.le]
    exact hkeys
  · intro m hm
    exact hvalues _ (List.of_mem_zip hm).2

/-! ## Enumerations -/

/-- An enumeration, laid out as its text. -/
@[reducible] def ofTexts {ε : Type} (text : ε → Str) (all : List ε)
    (h : ∀ a, all.find? (fun b => text b == text a) = some a) : Codec N ε where
  toJson a := .str (text a)
  ofJson
    | .str s => all.find? fun b => text b == s
    | _ => none
  ofJson_toJson a := h a
  uniqueKeys_toJson _ := trivial
  toJson_ne_null _ := by simp

/-- The data a JSON text holds. -/
def ofText [NumberText N] (text : Str) : Option α := (Json.parse (N := N) text).bind ofJson

end Codec

variable {N : Type}

instance : Codec N Str where
  toJson := .str
  ofJson
    | .str s => some s
    | _ => none
  ofJson_toJson _ := rfl
  uniqueKeys_toJson _ := trivial
  toJson_ne_null _ := by simp

instance : Codec N Bool where
  toJson := .bool
  ofJson
    | .bool b => some b
    | _ => none
  ofJson_toJson _ := rfl
  uniqueKeys_toJson _ := trivial
  toJson_ne_null _ := by simp

instance : Codec Int Int where
  toJson := .num
  ofJson
    | .num n => some n
    | _ => none
  ofJson_toJson _ := rfl
  uniqueKeys_toJson _ := trivial
  toJson_ne_null _ := by simp

variable {α : Type} [NumberText N] [Codec N α]

/-- Data survives a compact JSON text. -/
theorem ofText_stringify (a : α) :
    Codec.ofText (N := N) (Json.stringify (toJson a : Json N)) = some a := by
  rw [Codec.ofText, Json.parse_stringify (Codec.uniqueKeys_toJson a), Option.bind_some,
    Codec.ofJson_toJson]

/-- Data survives an indented JSON text. -/
theorem ofText_stringifyIndented (a : α) :
    Codec.ofText (N := N) (Json.stringifyIndented (toJson a : Json N)) = some a := by
  rw [Codec.ofText, Json.parse_stringifyIndented (Codec.uniqueKeys_toJson a), Option.bind_some,
    Codec.ofJson_toJson]

end Js
