import Clawback.Js.Parse

/-!
# Data with undefined parts

Values made of JSON values and `undefined`. A hole of an array counts as an element that is not
defined, as it does for `JSON.stringify`.

* `stringify_eq`: the text of a value is that of the JSON value `toJson` leaves of it, without the
  members that are not defined, and with null for elements that are not.
* `parse_of_stringify`: that value is what the text is read back as.
* `ofJson_toJson`: it is the value itself if all of it is defined.
-/

namespace Js

/-- A value of plain data. The members of an object are listed in the order they were created in. -/
inductive Datum (N : Type) where
  | undefined
  | null
  | bool (b : Bool)
  | num (n : N)
  | str (s : Str)
  | arr (xs : List (Datum N))
  | obj (members : List (Str × Datum N))
deriving Inhabited

namespace Datum

variable {N : Type}

/-- What holds of a value whenever it holds of its parts holds of all values. -/
@[elab_as_elim]
theorem induct {motive : Datum N → Prop} (undefined : motive .undefined) (null : motive .null)
    (bool : ∀ b, motive (.bool b)) (num : ∀ n, motive (.num n)) (str : ∀ s, motive (.str s))
    (arr : ∀ xs, (∀ v ∈ xs, motive v) → motive (.arr xs))
    (obj : ∀ members, (∀ m ∈ members, motive m.2) → motive (.obj members)) :
    ∀ v, motive v := by
  refine @Datum.rec N motive (fun xs => ∀ v ∈ xs, motive v)
    (fun members => ∀ m ∈ members, motive m.2) (fun m => motive m.2)
    undefined null bool num str arr obj ?_ ?_ ?_ ?_ ?_
  · exact fun _ h => absurd h List.not_mem_nil
  · exact fun _ _ hv hvs => List.forall_mem_cons.mpr ⟨hv, hvs⟩
  · exact fun _ h => absurd h List.not_mem_nil
  · exact fun _ _ hm hrest => List.forall_mem_cons.mpr ⟨hm, hrest⟩
  · exact fun _ _ hv => hv

def isUndefined : Datum N → Bool
  | .undefined => true
  | _ => false

mutual

/-- No part of the value is undefined. -/
def allDefined : Datum N → Bool
  | .undefined => false
  | .arr xs => allDefinedElements xs
  | .obj members => allDefinedMembers members
  | _ => true

def allDefinedElements : List (Datum N) → Bool
  | [] => true
  | v :: vs => allDefined v && allDefinedElements vs

def allDefinedMembers : List (Str × Datum N) → Bool
  | [] => true
  | (_, v) :: rest => allDefined v && allDefinedMembers rest

end

mutual

/-- Every object in the value has every key once. -/
def UniqueKeys : Datum N → Prop
  | .arr xs => UniqueKeysElements xs
  | .obj members => (members.map Prod.fst).Nodup ∧ UniqueKeysMembers members
  | _ => True

def UniqueKeysElements : List (Datum N) → Prop
  | [] => True
  | v :: vs => UniqueKeys v ∧ UniqueKeysElements vs

def UniqueKeysMembers : List (Str × Datum N) → Prop
  | [] => True
  | (_, v) :: rest => UniqueKeys v ∧ UniqueKeysMembers rest

end

mutual

/-- The JSON value as a value. -/
def ofJson : Json N → Datum N
  | .null => .null
  | .bool b => .bool b
  | .num n => .num n
  | .str s => .str s
  | .arr xs => .arr (ofJsonElements xs)
  | .obj members => .obj (ofJsonMembers members)

def ofJsonElements : List (Json N) → List (Datum N)
  | [] => []
  | v :: vs => ofJson v :: ofJsonElements vs

def ofJsonMembers : List (Str × Json N) → List (Str × Datum N)
  | [] => []
  | (key, v) :: rest => (key, ofJson v) :: ofJsonMembers rest

end

mutual

/-- The JSON value that is left of a value. -/
def toJson : Datum N → Json N
  | .undefined => .null
  | .null => .null
  | .bool b => .bool b
  | .num n => .num n
  | .str s => .str s
  | .arr xs => .arr (toJsonElements xs)
  | .obj members => .obj (toJsonMembers members)

def toJsonElements : List (Datum N) → List (Json N)
  | [] => []
  | v :: vs => toJson v :: toJsonElements vs

def toJsonMembers : List (Str × Datum N) → List (Str × Json N)
  | [] => []
  | (key, v) :: rest =>
    if v.isUndefined then toJsonMembers rest else (key, toJson v) :: toJsonMembers rest

end

section Text

variable [NumberText N]

mutual

/-- `JSON.stringify(value)`; none is `undefined`. -/
def stringify : Datum N → Option Str
  | .undefined => none
  | .null => some (js "null")
  | .bool b => some (if b then js "true" else js "false")
  | .num n => some (NumberText.toText n)
  | .str s => some (quote s)
  | .arr xs => some (js "[" ++ join (js ",") (stringifyElements xs) ++ js "]")
  | .obj members => some (js "\x7b" ++ join (js ",") (stringifyMembers members) ++ js "\x7d")

def stringifyElements : List (Datum N) → List Str
  | [] => []
  | v :: vs => (stringify v).getD (js "null") :: stringifyElements vs

def stringifyMembers : List (Str × Datum N) → List Str
  | [] => []
  | (key, v) :: rest =>
    match stringify v with
    | none => stringifyMembers rest
    | some text => (quote key ++ js ":" ++ text) :: stringifyMembers rest

end

end Text

/-! ## Part by part -/

theorem allDefinedElements_iff {xs : List (Datum N)} :
    allDefinedElements xs = true ↔ ∀ v ∈ xs, allDefined v = true := by
  induction xs with
  | nil => simp [allDefinedElements]
  | cons v vs ih => rw [allDefinedElements, Bool.and_eq_true, ih, List.forall_mem_cons]

theorem allDefinedMembers_iff {members : List (Str × Datum N)} :
    allDefinedMembers members = true ↔ ∀ m ∈ members, allDefined m.2 = true := by
  induction members with
  | nil => simp [allDefinedMembers]
  | cons m rest ih => rw [allDefinedMembers, Bool.and_eq_true, ih, List.forall_mem_cons]

theorem uniqueKeysElements_iff {xs : List (Datum N)} :
    UniqueKeysElements xs ↔ ∀ v ∈ xs, UniqueKeys v := by
  induction xs with
  | nil => simp [UniqueKeysElements]
  | cons v vs ih => rw [UniqueKeysElements, ih, List.forall_mem_cons]

theorem uniqueKeysMembers_iff {members : List (Str × Datum N)} :
    UniqueKeysMembers members ↔ ∀ m ∈ members, UniqueKeys m.2 := by
  induction members with
  | nil => simp [UniqueKeysMembers]
  | cons m rest ih => rw [UniqueKeysMembers, ih, List.forall_mem_cons]

theorem ofJsonElements_eq_map (xs : List (Json N)) : ofJsonElements xs = xs.map ofJson := by
  induction xs with
  | nil => rfl
  | cons v vs ih => rw [ofJsonElements, ih, List.map_cons]

theorem ofJsonMembers_eq_map (members : List (Str × Json N)) :
    ofJsonMembers members = members.map fun m => (m.1, ofJson m.2) := by
  induction members with
  | nil => rfl
  | cons m rest ih => rw [ofJsonMembers, ih, List.map_cons]

theorem toJsonElements_eq_map (xs : List (Datum N)) : toJsonElements xs = xs.map toJson := by
  induction xs with
  | nil => rfl
  | cons v vs ih => rw [toJsonElements, ih, List.map_cons]

/-- The members of an object that are defined. -/
def definedMembers (members : List (Str × Datum N)) : List (Str × Datum N) :=
  members.filter fun m => !m.2.isUndefined

theorem definedMembers_cons (key : Str) (v : Datum N) (rest : List (Str × Datum N)) :
    definedMembers ((key, v) :: rest) =
      if v.isUndefined then definedMembers rest else (key, v) :: definedMembers rest := by
  unfold definedMembers
  rw [List.filter_cons]
  cases v.isUndefined <;> rfl

theorem toJsonMembers_eq_map (members : List (Str × Datum N)) :
    toJsonMembers members = (definedMembers members).map fun m => (m.1, toJson m.2) := by
  induction members with
  | nil => rfl
  | cons m rest ih =>
    obtain ⟨key, v⟩ := m
    rw [toJsonMembers, ih, definedMembers_cons]
    cases v.isUndefined <;> rfl

theorem isUndefined_of_allDefined {v : Datum N} (h : allDefined v = true) :
    v.isUndefined = false := by
  cases v with
  | undefined => cases h
  | _ => rfl

theorem definedMembers_of_allDefined {members : List (Str × Datum N)}
    (h : ∀ m ∈ members, allDefined m.2 = true) : definedMembers members = members := by
  refine List.filter_eq_self.mpr fun m hm => ?_
  rw [isUndefined_of_allDefined (h m hm)]
  rfl

/-- It does not matter whether members are left out before or after the keys are sorted. -/
theorem sortMembers_definedMembers {members : List (Str × Datum N)}
    (hkeys : (members.map Prod.fst).Nodup) :
    Json.sortMembers (definedMembers members) =
      definedMembers (Json.sortMembers members) := by
  have hperm : (definedMembers members).Perm
      (definedMembers (Json.sortMembers members)) :=
    ((Json.sortMembers_perm members).filter _).symm
  have hnodup : ((definedMembers members).map Prod.fst).Nodup :=
    hkeys.sublist (List.filter_sublist.map Prod.fst)
  have hsorted : (definedMembers (Json.sortMembers members)).Pairwise Json.KeyLe :=
    (Json.sortMembers_pairwise members).filter _
  rw [Json.sortMembers_eq_of_perm hnodup hperm]
  exact hsorted.insertionSort_eq

/-! ## The value that is left -/

theorem uniqueKeys_toJson (v : Datum N) : UniqueKeys v → Json.UniqueKeys (toJson v) := by
  induction v using induct with
  | undefined => exact fun _ => trivial
  | null => exact fun _ => trivial
  | bool b => exact fun _ => trivial
  | num n => exact fun _ => trivial
  | str s => exact fun _ => trivial
  | arr xs ih =>
    intro h
    have hparts := uniqueKeysElements_iff.mp h
    show Json.UniqueKeysList (toJsonElements xs)
    rw [Json.uniqueKeysList_iff, toJsonElements_eq_map]
    exact List.forall_mem_map.mpr fun v hv => ih v hv (hparts v hv)
  | obj members ih =>
    intro h
    obtain ⟨hnodup, hvalues⟩ := h
    have hparts := uniqueKeysMembers_iff.mp hvalues
    have hsublist : (definedMembers members).Sublist members := List.filter_sublist
    refine ⟨?_, ?_⟩
    · show ((toJsonMembers members).map Prod.fst).Nodup
      rw [toJsonMembers_eq_map, List.map_map]
      exact hnodup.sublist (hsublist.map Prod.fst)
    · show Json.UniqueKeysMembers (toJsonMembers members)
      rw [Json.uniqueKeysMembers_iff, toJsonMembers_eq_map]
      refine List.forall_mem_map.mpr fun m hm => ?_
      exact ih m (hsublist.subset hm) (hparts m (hsublist.subset hm))

/-- What is defined throughout is left as it is. -/
theorem ofJson_toJson {v : Datum N} : allDefined v = true → ofJson (toJson v) = v := by
  induction v using induct with
  | undefined => exact fun h => nomatch h
  | null => exact fun _ => rfl
  | bool b => exact fun _ => rfl
  | num n => exact fun _ => rfl
  | str s => exact fun _ => rfl
  | arr xs ih =>
    intro h
    have hparts := allDefinedElements_iff.mp h
    have hid : xs.map (ofJson ∘ toJson) = xs.map id :=
      List.map_congr_left fun v hv => ih v hv (hparts v hv)
    rw [toJson, ofJson, toJsonElements_eq_map, ofJsonElements_eq_map, List.map_map, hid,
      List.map_id]
  | obj members ih =>
    intro h
    have hparts := allDefinedMembers_iff.mp h
    have hid : members.map ((fun m => (m.1, ofJson m.2)) ∘ fun m => (m.1, toJson m.2)) =
        members.map id :=
      List.map_congr_left fun m hm => congrArg (Prod.mk m.1) (ih m hm (hparts m hm))
    rw [toJson, ofJson, toJsonMembers_eq_map, ofJsonMembers_eq_map,
      definedMembers_of_allDefined hparts, List.map_map, hid, List.map_id]

section Text

variable [NumberText N]

theorem stringifyElements_eq_map (xs : List (Datum N)) :
    stringifyElements xs = xs.map fun v => (stringify v).getD (js "null") := by
  induction xs with
  | nil => rfl
  | cons v vs ih => rw [stringifyElements, ih, List.map_cons]

/-- The text of a value is the text of what is left of it. -/
theorem stringify_eq (v : Datum N) :
    stringify v = if v.isUndefined then none else some (Json.stringify (toJson v)) := by
  induction v using induct with
  | undefined => rfl
  | null => rfl
  | bool b => rfl
  | num n => rfl
  | str s => rfl
  | arr xs ih =>
    have helements : stringifyElements xs = (toJsonElements xs).map Json.stringify := by
      rw [stringifyElements_eq_map, toJsonElements_eq_map, List.map_map]
      refine List.map_congr_left fun v hv => ?_
      rw [ih v hv]
      cases v <;> rfl
    rw [stringify, helements, ← Json.stringify_arr]
    rfl
  | obj members ih =>
    have hmembers : stringifyMembers members = (toJsonMembers members).map fun m =>
        quote m.1 ++ js ":" ++ Json.stringify m.2 := by
      induction members with
      | nil => rfl
      | cons m rest ihrest =>
        obtain ⟨key, v⟩ := m
        rw [stringifyMembers, toJsonMembers, ih _ List.mem_cons_self,
          ihrest fun m hm => ih m (List.mem_cons_of_mem _ hm)]
        cases v.isUndefined <;> rfl
    rw [stringify, hmembers, ← Json.stringify_obj]
    rfl

/-- What the text is read back as. -/
theorem parse_of_stringify {v : Datum N} (hkeys : UniqueKeys v) {text : Str}
    (h : stringify v = some text) : Json.parse text = some (toJson v) := by
  rw [stringify_eq] at h
  cases hv : v.isUndefined with
  | true =>
    rw [hv] at h
    cases h
  | false =>
    rw [hv] at h
    rw [← Option.some.inj h]
    exact Json.parse_stringify (uniqueKeys_toJson v hkeys)

end Text

end Datum

end Js
