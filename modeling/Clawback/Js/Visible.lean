import Clawback.Js.Json

/-!
# Values seen without their hidden parts

`hidden` picks out keys; what is stored under such a key, at any depth, is not seen.

* `SameVisible hidden v w`: the values are equal but for what is stored under hidden keys.
* `clean hidden v`: no key in the value is hidden.
* `SameVisible.eq_of_clean`, `clean_of_disturb_eq`: nothing else looks like a value if and only if
  it is clean; `disturb` changes what is stored under every hidden key.
* `at? hidden path v`: what a way through members and elements leads to, past visible keys only.
-/

namespace Js.Json

variable {N : Type}

mutual

/-- Equality but for what is stored under hidden keys. -/
inductive SameVisible (hidden : Str → Bool) : Json N → Json N → Prop
  | null : SameVisible hidden .null .null
  | bool (b : Bool) : SameVisible hidden (.bool b) (.bool b)
  | num (n : N) : SameVisible hidden (.num n) (.num n)
  | str (s : Str) : SameVisible hidden (.str s) (.str s)
  | arr {xs ys : List (Json N)} :
      SameVisibleList hidden xs ys → SameVisible hidden (.arr xs) (.arr ys)
  | obj {members members' : List (Str × Json N)} :
      SameVisibleMembers hidden members members' →
      SameVisible hidden (.obj members) (.obj members')

/-- Element by element. -/
inductive SameVisibleList (hidden : Str → Bool) : List (Json N) → List (Json N) → Prop
  | nil : SameVisibleList hidden [] []
  | cons {v w : Json N} {vs ws : List (Json N)} :
      SameVisible hidden v w → SameVisibleList hidden vs ws →
      SameVisibleList hidden (v :: vs) (w :: ws)

/-- Member by member, under the same keys. -/
inductive SameVisibleMembers (hidden : Str → Bool) :
    List (Str × Json N) → List (Str × Json N) → Prop
  | nil : SameVisibleMembers hidden [] []
  | hide {key : Str} (v w : Json N) {vs ws : List (Str × Json N)} :
      hidden key = true → SameVisibleMembers hidden vs ws →
      SameVisibleMembers hidden ((key, v) :: vs) ((key, w) :: ws)
  | keep (key : Str) {v w : Json N} {vs ws : List (Str × Json N)} :
      SameVisible hidden v w → SameVisibleMembers hidden vs ws →
      SameVisibleMembers hidden ((key, v) :: vs) ((key, w) :: ws)

end

mutual

/-- No key of an object in the value is hidden. -/
def clean (hidden : Str → Bool) : Json N → Bool
  | .arr xs => cleanList hidden xs
  | .obj members => cleanMembers hidden members
  | _ => true

def cleanList (hidden : Str → Bool) : List (Json N) → Bool
  | [] => true
  | v :: vs => clean hidden v && cleanList hidden vs

def cleanMembers (hidden : Str → Bool) : List (Str × Json N) → Bool
  | [] => true
  | (key, v) :: rest => !hidden key && clean hidden v && cleanMembers hidden rest

end

variable {hidden : Str → Bool}

/-! ## A clean value -/

mutual

/-- Nothing else looks like a clean value. -/
theorem SameVisible.eq_of_clean : ∀ {v w : Json N}, SameVisible hidden v w →
    clean hidden v = true → w = v
  | _, _, .null, _ => rfl
  | _, _, .bool _, _ => rfl
  | _, _, .num _, _ => rfl
  | _, _, .str _, _ => rfl
  | _, _, .arr h, hclean => congrArg Json.arr (SameVisibleList.eq_of_clean h hclean)
  | _, _, .obj h, hclean => congrArg Json.obj (SameVisibleMembers.eq_of_clean h hclean)

theorem SameVisibleList.eq_of_clean : ∀ {xs ys : List (Json N)}, SameVisibleList hidden xs ys →
    cleanList hidden xs = true → ys = xs
  | _, _, .nil, _ => rfl
  | _, _, .cons hv hvs, hclean => by
    rw [cleanList, Bool.and_eq_true] at hclean
    rw [SameVisible.eq_of_clean hv hclean.1, SameVisibleList.eq_of_clean hvs hclean.2]

theorem SameVisibleMembers.eq_of_clean : ∀ {members members' : List (Str × Json N)},
    SameVisibleMembers hidden members members' → cleanMembers hidden members = true →
    members' = members
  | _, _, .nil, _ => rfl
  | _, _, .hide v w hkey hrest, hclean => by
    rw [cleanMembers, hkey] at hclean
    cases hclean
  | _, _, .keep key hv hrest, hclean => by
    rw [cleanMembers, Bool.and_eq_true, Bool.and_eq_true] at hclean
    rw [SameVisible.eq_of_clean hv hclean.1.2, SameVisibleMembers.eq_of_clean hrest hclean.2]

end

/-! ## A value with a hidden part -/

mutual

/-- The value with something else under every hidden key. -/
def disturb (hidden : Str → Bool) : Json N → Json N
  | .arr xs => .arr (disturbList hidden xs)
  | .obj members => .obj (disturbMembers hidden members)
  | v => v

def disturbList (hidden : Str → Bool) : List (Json N) → List (Json N)
  | [] => []
  | v :: vs => disturb hidden v :: disturbList hidden vs

def disturbMembers (hidden : Str → Bool) : List (Str × Json N) → List (Str × Json N)
  | [] => []
  | (key, v) :: rest =>
    (key, if hidden key then .arr [v] else disturb hidden v) :: disturbMembers hidden rest

end

theorem arr_singleton_ne (v : Json N) : Json.arr [v] ≠ v := by
  intro h
  have hsize := congrArg sizeOf h
  simp at hsize
  omega

theorem disturbMembers_eq_map (members : List (Str × Json N)) :
    disturbMembers hidden members =
      members.map fun m => (m.1, if hidden m.1 then .arr [m.2] else disturb hidden m.2) := by
  induction members with
  | nil => rfl
  | cons m rest ih => rw [disturbMembers, ih, List.map_cons]

theorem keys_disturbMembers (members : List (Str × Json N)) :
    (disturbMembers hidden members).map Prod.fst = members.map Prod.fst := by
  rw [disturbMembers_eq_map, List.map_map]
  rfl

mutual

theorem sameVisible_disturb : ∀ v : Json N, SameVisible hidden v (disturb hidden v)
  | .null => .null
  | .bool b => .bool b
  | .num n => .num n
  | .str s => .str s
  | .arr xs => .arr (sameVisibleList_disturb xs)
  | .obj members => .obj (sameVisibleMembers_disturb members)

theorem sameVisibleList_disturb :
    ∀ xs : List (Json N), SameVisibleList hidden xs (disturbList hidden xs)
  | [] => .nil
  | v :: vs => .cons (sameVisible_disturb v) (sameVisibleList_disturb vs)

theorem sameVisibleMembers_disturb : ∀ members : List (Str × Json N),
    SameVisibleMembers hidden members (disturbMembers hidden members)
  | [] => .nil
  | (key, v) :: rest => by
    rw [disturbMembers]
    cases hkey : hidden key with
    | true => exact .hide _ _ hkey (sameVisibleMembers_disturb rest)
    | false => exact .keep key (sameVisible_disturb v) (sameVisibleMembers_disturb rest)

end

mutual

theorem uniqueKeys_disturb : ∀ v : Json N, UniqueKeys v → UniqueKeys (disturb hidden v)
  | .null, _ => trivial
  | .bool _, _ => trivial
  | .num _, _ => trivial
  | .str _, _ => trivial
  | .arr xs, h => uniqueKeysList_disturb xs h
  | .obj members, ⟨hnodup, hvalues⟩ =>
    ⟨(keys_disturbMembers members).symm ▸ hnodup, uniqueKeysMembers_disturb members hvalues⟩

theorem uniqueKeysList_disturb :
    ∀ xs : List (Json N), UniqueKeysList xs → UniqueKeysList (disturbList hidden xs)
  | [], _ => trivial
  | v :: vs, ⟨hv, hvs⟩ => ⟨uniqueKeys_disturb v hv, uniqueKeysList_disturb vs hvs⟩

theorem uniqueKeysMembers_disturb : ∀ members : List (Str × Json N),
    UniqueKeysMembers members → UniqueKeysMembers (disturbMembers hidden members)
  | [], _ => trivial
  | (key, v) :: rest, ⟨hv, hrest⟩ => by
    refine ⟨?_, uniqueKeysMembers_disturb rest hrest⟩
    cases hidden key with
    | true => exact ⟨hv, trivial⟩
    | false => exact uniqueKeys_disturb v hv

end

mutual

/-- Only a clean value is left as it is. -/
theorem clean_of_disturb_eq : ∀ v : Json N, disturb hidden v = v → clean hidden v = true
  | .null, _ => rfl
  | .bool _, _ => rfl
  | .num _, _ => rfl
  | .str _, _ => rfl
  | .arr xs, h => cleanList_of_disturb_eq xs (Json.arr.inj h)
  | .obj members, h => cleanMembers_of_disturb_eq members (Json.obj.inj h)

theorem cleanList_of_disturb_eq :
    ∀ xs : List (Json N), disturbList hidden xs = xs → cleanList hidden xs = true
  | [], _ => rfl
  | v :: vs, h => by
    obtain ⟨hv, hvs⟩ := List.cons.inj h
    rw [cleanList, clean_of_disturb_eq v hv, cleanList_of_disturb_eq vs hvs]
    rfl

theorem cleanMembers_of_disturb_eq : ∀ members : List (Str × Json N),
    disturbMembers hidden members = members → cleanMembers hidden members = true
  | [], _ => rfl
  | (key, v) :: rest, h => by
    obtain ⟨hmember, hrest⟩ := List.cons.inj h
    have hvalue := (Prod.mk.inj hmember).2
    cases hkey : hidden key with
    | true =>
      rw [if_pos hkey] at hvalue
      exact absurd hvalue (arr_singleton_ne v)
    | false =>
      rw [if_neg (by simp [hkey])] at hvalue
      rw [cleanMembers, hkey, clean_of_disturb_eq v hvalue, cleanMembers_of_disturb_eq rest hrest]
      rfl

end

/-! ## Ways into a value -/

/-- A step into a value: to the member of a key, or to an element. -/
inductive Step where
  | key (key : Str)
  | index (i : Nat)
deriving DecidableEq

/-- Where a path leads that passes no hidden key. -/
def at? (hidden : Str → Bool) : List Step → Json N → Option (Json N)
  | [], v => some v
  | .key key :: path, .obj members =>
    if hidden key then none else (members.lookup key).bind (at? hidden path)
  | .index i :: path, .arr xs => xs[i]?.bind (at? hidden path)
  | _ :: _, _ => none

end Js.Json
