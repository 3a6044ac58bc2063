import Clawback.Js.Number
import Mathlib.Data.List.Sort
import Mathlib.Data.List.Forall2

/-!
# JSON values

A JSON value over a type of numbers. The members of an object are listed in the order
they were created in; a JavaScript object has every key once (`UniqueKeys`).

* `KeyPerm v w`: `v` and `w` are equal up to the order of object keys, at every depth.
* `sortKeys v`: `v` with the members of every object sorted by key.
* `sortKeys_eq_iff`: two values have the same sorted form exactly when they are equal up
  to the order of keys.
-/

namespace Js

/-- A JSON value. -/
inductive Json (N : Type) where
  | null
  | bool (b : Bool)
  | num (n : N)
  | str (s : Str)
  | arr (xs : List (Json N))
  | obj (members : List (Str × Json N))
deriving Inhabited

namespace Json

variable {N : Type}

/-- The value stored under a key: `v[key]` for an object `v`. -/
def get? (key : Str) : Json N → Option (Json N)
  | .obj members => members.lookup key
  | _ => none

/-- The value of a member that may be `null`. -/
def ofOption {α : Type} (f : α → Json N) : Option α → Json N
  | none => .null
  | some a => f a

/-! ## Unique keys -/

mutual

/-- Every object in the value has every key once. -/
def UniqueKeys : Json N → Prop
  | .null => True
  | .bool _ => True
  | .num _ => True
  | .str _ => True
  | .arr xs => UniqueKeysList xs
  | .obj members => (members.map Prod.fst).Nodup ∧ UniqueKeysMembers members

/-- `UniqueKeys` of every element. -/
def UniqueKeysList : List (Json N) → Prop
  | [] => True
  | v :: vs => UniqueKeys v ∧ UniqueKeysList vs

/-- `UniqueKeys` of every member's value. -/
def UniqueKeysMembers : List (Str × Json N) → Prop
  | [] => True
  | (_, v) :: rest => UniqueKeys v ∧ UniqueKeysMembers rest

end

mutual

def decideUniqueKeys : (v : Json N) → Decidable (UniqueKeys v)
  | .null => .isTrue trivial
  | .bool _ => .isTrue trivial
  | .num _ => .isTrue trivial
  | .str _ => .isTrue trivial
  | .arr xs => decideUniqueKeysList xs
  | .obj members =>
    @instDecidableAnd _ _ inferInstance (decideUniqueKeysMembers members)

def decideUniqueKeysList : (vs : List (Json N)) → Decidable (UniqueKeysList vs)
  | [] => .isTrue trivial
  | v :: vs => @instDecidableAnd _ _ (decideUniqueKeys v) (decideUniqueKeysList vs)

def decideUniqueKeysMembers : (ms : List (Str × Json N)) → Decidable (UniqueKeysMembers ms)
  | [] => .isTrue trivial
  | (_, v) :: rest => @instDecidableAnd _ _ (decideUniqueKeys v) (decideUniqueKeysMembers rest)

end

instance : DecidablePred (@UniqueKeys N) := decideUniqueKeys

/-- With every key once, a lookup finds what is listed. -/
theorem lookup_eq_some_iff {κ β : Type} [BEq κ] [LawfulBEq κ] {members : List (κ × β)}
    (h : (members.map Prod.fst).Nodup) {key : κ} {v : β} :
    members.lookup key = some v ↔ (key, v) ∈ members := by
  induction members with
  | nil => simp
  | cons m rest ih =>
    obtain ⟨key', w⟩ := m
    obtain ⟨hfresh, hrest⟩ := List.nodup_cons.mp h
    by_cases heq : key = key'
    · subst heq
      rw [List.lookup_cons_self, List.mem_cons]
      constructor
      · rintro ⟨⟩
        exact .inl rfl
      · rintro (hsame | hmem)
        · cases hsame
          rfl
        · exact absurd (List.mem_map.mpr ⟨_, hmem, rfl⟩) hfresh
    · rw [List.lookup_cons, beq_eq_false_iff_ne.mpr heq, List.mem_cons]
      simp only [Prod.mk.injEq, heq, false_and, false_or]
      exact ih hrest

/-! ## Equality up to the order of keys -/

mutual

/-- Equality up to the order of object keys, at every depth. -/
inductive KeyPerm : Json N → Json N → Prop
  | null : KeyPerm .null .null
  | bool (b : Bool) : KeyPerm (.bool b) (.bool b)
  | num (n : N) : KeyPerm (.num n) (.num n)
  | str (s : Str) : KeyPerm (.str s) (.str s)
  | arr {xs ys : List (Json N)} : KeyPermList xs ys → KeyPerm (.arr xs) (.arr ys)
  | obj {members reordered members' : List (Str × Json N)} :
      members.Perm reordered → KeyPermMembers reordered members' →
      KeyPerm (.obj members) (.obj members')

/-- Element by element. -/
inductive KeyPermList : List (Json N) → List (Json N) → Prop
  | nil : KeyPermList [] []
  | cons {v w : Json N} {vs ws : List (Json N)} :
      KeyPerm v w → KeyPermList vs ws → KeyPermList (v :: vs) (w :: ws)

/-- Member by member, under the same keys. -/
inductive KeyPermMembers : List (Str × Json N) → List (Str × Json N) → Prop
  | nil : KeyPermMembers [] []
  | cons (key : Str) {v w : Json N} {vs ws : List (Str × Json N)} :
      KeyPerm v w → KeyPermMembers vs ws → KeyPermMembers ((key, v) :: vs) ((key, w) :: ws)

end

@[simp] theorem keyPerm_bool {a b : Bool} : KeyPerm (.bool a : Json N) (.bool b) ↔ a = b :=
  ⟨fun h => by cases h; rfl, fun h => h ▸ .bool a⟩

@[simp] theorem keyPerm_num {a b : N} : KeyPerm (.num a) (.num b) ↔ a = b :=
  ⟨fun h => by cases h; rfl, fun h => h ▸ .num a⟩

@[simp] theorem keyPerm_str {a b : Str} : KeyPerm (.str a : Json N) (.str b) ↔ a = b :=
  ⟨fun h => by cases h; rfl, fun h => h ▸ .str a⟩

/-- Optional members agree as soon as the values that are present do. -/
theorem keyPerm_ofOption {α : Type} {f : α → Json N} (hnull : ∀ a, f a ≠ .null)
    (hf : ∀ a b, KeyPerm (f a) (f b) → a = b) {x y : Option α}
    (h : KeyPerm (ofOption f x) (ofOption f y)) : x = y := by
  cases x with
  | none =>
    cases y with
    | none => rfl
    | some b =>
      rw [ofOption, ofOption] at h
      generalize hb : f b = w at h
      cases h
      exact absurd hb (hnull b)
  | some a =>
    cases y with
    | none =>
      rw [ofOption, ofOption] at h
      generalize ha : f a = w at h
      cases h
      exact absurd ha (hnull a)
    | some b => exact congrArg some (hf a b h)

@[simp] theorem keyPermMembers_nil : KeyPermMembers ([] : List (Str × Json N)) [] := .nil

@[simp] theorem keyPermMembers_cons {key key' : Str} {v w : Json N}
    {rest rest' : List (Str × Json N)} :
    KeyPermMembers ((key, v) :: rest) ((key', w) :: rest') ↔
      key = key' ∧ KeyPerm v w ∧ KeyPermMembers rest rest' := by
  constructor
  · intro h
    cases h with
    | cons key hv hrest => exact ⟨rfl, hv, hrest⟩
  · rintro ⟨rfl, hv, hrest⟩
    exact .cons key hv hrest

theorem KeyPermMembers.keys_eq : ∀ {l l' : List (Str × Json N)}, KeyPermMembers l l' →
    l.map Prod.fst = l'.map Prod.fst
  | [], [], _ => rfl
  | (_, _) :: _, (_, _) :: _, h => by
    obtain ⟨hkey, _, hrest⟩ := keyPermMembers_cons.mp h
    rw [List.map_cons, List.map_cons, KeyPermMembers.keys_eq hrest, hkey]

/-- Equal objects have the same keys. -/
theorem KeyPerm.keys_perm {members members' : List (Str × Json N)}
    (h : KeyPerm (.obj members) (.obj members')) :
    (members.map Prod.fst).Perm (members'.map Prod.fst) := by
  cases h with
  | obj hperm hmembers => exact hmembers.keys_eq ▸ hperm.map Prod.fst

/-- Objects that list the same distinct keys in the same order are compared member by
member. -/
theorem KeyPerm.members {members members' : List (Str × Json N)}
    (h : KeyPerm (.obj members) (.obj members'))
    (hkeys : members.map Prod.fst = members'.map Prod.fst)
    (hnodup : (members.map Prod.fst).Nodup) : KeyPermMembers members members' := by
  cases h with
  | obj hperm hmembers =>
    rename_i reordered
    have hlist : members.map Prod.fst = reordered.map Prod.fst :=
      hkeys.trans hmembers.keys_eq.symm
    have hsame : members = reordered := by
      refine List.ext_getElem hperm.length_eq fun i hi hi' => ?_
      refine List.inj_on_of_nodup_map hnodup (List.getElem_mem hi)
        (hperm.symm.subset (List.getElem_mem hi')) ?_
      have hi'' := congrArg (fun l => l[i]?) hlist
      simpa [hi, hi'] using hi''
    rw [hsame]
    exact hmembers

/-! ## The sorted form -/

/-- The order of members by key. -/
def KeyLe {β : Type} (a b : Str × β) : Prop := strLe a.1 b.1 = true

instance {β : Type} : DecidableRel (KeyLe (β := β)) := fun a b =>
  inferInstanceAs (Decidable (strLe a.1 b.1 = true))

instance {β : Type} : Std.Total (KeyLe (β := β)) := ⟨fun a b => strLe_total a.1 b.1⟩

instance {β : Type} : IsTrans (Str × β) KeyLe := ⟨fun _ _ _ hab hbc => strLe_trans hab hbc⟩

/-- Members sorted by key. -/
def sortMembers {β : Type} (members : List (Str × β)) : List (Str × β) :=
  members.insertionSort KeyLe

mutual

/-- The members of every object sorted by key. -/
def sortKeys : Json N → Json N
  | .null => .null
  | .bool b => .bool b
  | .num n => .num n
  | .str s => .str s
  | .arr xs => .arr (sortKeysList xs)
  | .obj members => .obj (sortMembers (sortKeysMembers members))

/-- `sortKeys` of every element. -/
def sortKeysList : List (Json N) → List (Json N)
  | [] => []
  | v :: vs => sortKeys v :: sortKeysList vs

/-- `sortKeys` of every member's value. -/
def sortKeysMembers : List (Str × Json N) → List (Str × Json N)
  | [] => []
  | (key, v) :: rest => (key, sortKeys v) :: sortKeysMembers rest

end

theorem sortKeysMembers_eq_map (members : List (Str × Json N)) :
    sortKeysMembers members = members.map fun m => (m.1, sortKeys m.2) := by
  induction members with
  | nil => rfl
  | cons m rest ih => rw [sortKeysMembers, ih, List.map_cons]

theorem keys_sortKeysMembers (members : List (Str × Json N)) :
    (sortKeysMembers members).map Prod.fst = members.map Prod.fst := by
  rw [sortKeysMembers_eq_map, List.map_map]
  rfl

theorem sortMembers_perm {β : Type} (members : List (Str × β)) :
    (sortMembers members).Perm members :=
  List.perm_insertionSort _ _

theorem sortMembers_pairwise {β : Type} (members : List (Str × β)) :
    (sortMembers members).Pairwise KeyLe :=
  List.pairwise_insertionSort _ _

/-- Sorting by key does not look at the values. -/
theorem sortMembers_map {β γ : Type} (f : β → γ) (members : List (Str × β)) :
    sortMembers (members.map fun m => (m.1, f m.2)) =
      (sortMembers members).map fun m => (m.1, f m.2) :=
  (List.map_insertionSort KeyLe KeyLe (fun m : Str × β => (m.1, f m.2)) members
    fun _ _ _ _ => Iff.rfl).symm

/-- With every key once, sorting forgets nothing but the order. -/
theorem sortMembers_eq_of_perm {β : Type} {members members' : List (Str × β)}
    (hnodup : (members.map Prod.fst).Nodup) (hperm : members.Perm members') :
    sortMembers members = sortMembers members' := by
  have hsorted : (sortMembers members).Perm members' := (sortMembers_perm members).trans hperm
  refine List.Perm.eq_of_pairwise ?_ (sortMembers_pairwise _) (sortMembers_pairwise _)
    (hsorted.trans (sortMembers_perm members').symm)
  intro a b ha hb hab hba
  have hkey : a.1 = b.1 := strLe_antisymm hab hba
  have ha' : a ∈ members := (sortMembers_perm members).subset ha
  have hb' : b ∈ members := hperm.symm.subset ((sortMembers_perm members').subset hb)
  exact List.inj_on_of_nodup_map hnodup ha' hb' hkey

theorem uniqueKeys_of_mem {members : List (Str × Json N)} (h : UniqueKeysMembers members)
    {m : Str × Json N} (hm : m ∈ members) : UniqueKeys m.2 := by
  induction members with
  | nil => cases hm
  | cons m' rest ih =>
    rcases List.mem_cons.mp hm with rfl | hm
    · exact h.1
    · exact ih h.2 hm

theorem uniqueKeysMembers_iff {members : List (Str × Json N)} :
    UniqueKeysMembers members ↔ ∀ m ∈ members, UniqueKeys m.2 := by
  refine ⟨fun h m hm => uniqueKeys_of_mem h hm, fun h => ?_⟩
  induction members with
  | nil => trivial
  | cons m rest ih =>
    exact ⟨h m List.mem_cons_self, ih fun m' hm' => h m' (List.mem_cons_of_mem _ hm')⟩

theorem uniqueKeysList_iff {xs : List (Json N)} :
    UniqueKeysList xs ↔ ∀ v ∈ xs, UniqueKeys v := by
  induction xs with
  | nil => simp [UniqueKeysList]
  | cons v vs ih => rw [UniqueKeysList, ih, List.forall_mem_cons]

mutual

/-- Sorting keeps the keys of every object unique. -/
theorem uniqueKeys_sortKeys : ∀ v : Json N, UniqueKeys v → UniqueKeys (sortKeys v)
  | .null, _ => trivial
  | .bool _, _ => trivial
  | .num _, _ => trivial
  | .str _, _ => trivial
  | .arr xs, h => uniqueKeys_sortKeysList xs h
  | .obj members, ⟨hnodup, hvalues⟩ => by
    have hperm := sortMembers_perm (sortKeysMembers members)
    refine ⟨(hperm.map Prod.fst).nodup_iff.mpr (keys_sortKeysMembers members ▸ hnodup), ?_⟩
    have hsorted := uniqueKeysMembers_iff.mp (uniqueKeys_sortKeysMembers members hvalues)
    exact uniqueKeysMembers_iff.mpr fun m hm => hsorted m (hperm.subset hm)

theorem uniqueKeys_sortKeysList :
    ∀ xs : List (Json N), UniqueKeysList xs → UniqueKeysList (sortKeysList xs)
  | [], _ => trivial
  | v :: vs, ⟨hv, hvs⟩ => ⟨uniqueKeys_sortKeys v hv, uniqueKeys_sortKeysList vs hvs⟩

theorem uniqueKeys_sortKeysMembers : ∀ members : List (Str × Json N),
    UniqueKeysMembers members → UniqueKeysMembers (sortKeysMembers members)
  | [], _ => trivial
  | (_, v) :: rest, ⟨hv, hrest⟩ =>
    ⟨uniqueKeys_sortKeys v hv, uniqueKeys_sortKeysMembers rest hrest⟩

end

/-! ## Equal sorted forms -/

mutual

/-- Values equal up to the order of keys have the same sorted form. -/
theorem sortKeys_eq_of_keyPerm : ∀ {v w : Json N}, KeyPerm v w → UniqueKeys v →
    sortKeys v = sortKeys w
  | _, _, .null, _ => rfl
  | _, _, .bool _, _ => rfl
  | _, _, .num _, _ => rfl
  | _, _, .str _, _ => rfl
  | _, _, .arr hlist, hv => by
    rw [sortKeys, sortKeys, sortKeysList_eq_of_keyPermList hlist hv]
  | _, _, @KeyPerm.obj _ members reordered w hperm hmembers, hv => by
    have hreordered : UniqueKeysMembers reordered :=
      uniqueKeysMembers_iff.mpr fun m hm => uniqueKeys_of_mem hv.2 (hperm.symm.subset hm)
    rw [sortKeys, sortKeys, ← sortKeysMembers_eq_of_keyPermMembers hmembers hreordered]
    congr 1
    apply sortMembers_eq_of_perm (keys_sortKeysMembers members ▸ hv.1)
    rw [sortKeysMembers_eq_map, sortKeysMembers_eq_map]
    exact hperm.map _

theorem sortKeysList_eq_of_keyPermList : ∀ {xs ys : List (Json N)}, KeyPermList xs ys →
    UniqueKeysList xs → sortKeysList xs = sortKeysList ys
  | _, _, .nil, _ => rfl
  | _, _, .cons hv hvs, ⟨huv, huvs⟩ => by
    rw [sortKeysList, sortKeysList, sortKeys_eq_of_keyPerm hv huv,
      sortKeysList_eq_of_keyPermList hvs huvs]

theorem sortKeysMembers_eq_of_keyPermMembers : ∀ {l l' : List (Str × Json N)},
    KeyPermMembers l l' → UniqueKeysMembers l → sortKeysMembers l = sortKeysMembers l'
  | _, _, .nil, _ => rfl
  | _, _, .cons _ hv hvs, ⟨huv, huvs⟩ => by
    rw [sortKeysMembers, sortKeysMembers, sortKeys_eq_of_keyPerm hv huv,
      sortKeysMembers_eq_of_keyPermMembers hvs huvs]

end

/-- Two lists of members with equal sorted values are related member by member. -/
theorem keyPermMembers_of_map_eq : ∀ {l l' : List (Str × Json N)},
    (∀ m ∈ l, ∀ w, sortKeys m.2 = sortKeys w → KeyPerm m.2 w) →
    sortKeysMembers l = sortKeysMembers l' → KeyPermMembers l l'
  | [], [], _, _ => .nil
  | [], _ :: _, _, h => by simp [sortKeysMembers] at h
  | _ :: _, [], _, h => by simp [sortKeysMembers] at h
  | (key, v) :: l, (key', w) :: l', hmem, h => by
    simp only [sortKeysMembers, List.cons.injEq, Prod.mk.injEq] at h
    obtain ⟨⟨rfl, hv⟩, hrest⟩ := h
    exact .cons key (hmem _ List.mem_cons_self w hv)
      (keyPermMembers_of_map_eq (fun m hm => hmem m (List.mem_cons_of_mem _ hm)) hrest)

mutual

/-- Values of one sorted form are equal up to the order of keys. -/
theorem keyPerm_of_sortKeys_eq : ∀ (v w : Json N), sortKeys v = sortKeys w → KeyPerm v w
  | .null, w, h => by
    cases w <;> simp only [sortKeys, reduceCtorEq] at h
    exact .null
  | .bool b, w, h => by
    cases w <;> simp only [sortKeys, reduceCtorEq, Json.bool.injEq] at h
    exact h ▸ .bool b
  | .num n, w, h => by
    cases w <;> simp only [sortKeys, reduceCtorEq, Json.num.injEq] at h
    exact h ▸ .num n
  | .str s, w, h => by
    cases w <;> simp only [sortKeys, reduceCtorEq, Json.str.injEq] at h
    exact h ▸ .str s
  | .arr xs, w, h => by
    cases w <;> simp only [sortKeys, reduceCtorEq, Json.arr.injEq] at h
    exact .arr (keyPermList_of_sortKeysList_eq xs _ h)
  | .obj members, w, h => by
    cases w with
    | obj members' =>
      simp only [sortKeys, Json.obj.injEq] at h
      have hperm : (sortKeysMembers members').Perm (sortKeysMembers members) :=
        (sortMembers_perm _).symm.trans (h ▸ sortMembers_perm (sortKeysMembers members))
      -- the sorted values are permuted, so the members are, up to their sorted values
      have hsplit : Relation.Comp (· = List.map (fun m => (m.1, sortKeys m.2)) ·) List.Perm
          (sortKeysMembers members') members := by
        rw [List.eq_map_comp_perm]
        rwa [sortKeysMembers_eq_map members] at hperm
      obtain ⟨reordered, himage, hreordered⟩ := hsplit
      rw [← sortKeysMembers_eq_map] at himage
      refine .obj hreordered.symm (keyPermMembers_of_map_eq ?_ himage.symm)
      intro m hm
      exact keyPerm_of_mem members m (hreordered.subset hm)
    | _ => simp only [sortKeys, reduceCtorEq] at h

theorem keyPermList_of_sortKeysList_eq : ∀ xs ys : List (Json N),
    sortKeysList xs = sortKeysList ys → KeyPermList xs ys
  | [], ys, h => by
    cases ys <;> simp only [sortKeysList, reduceCtorEq] at h
    exact .nil
  | v :: vs, ys, h => by
    cases ys <;> simp only [sortKeysList, reduceCtorEq, List.cons.injEq] at h
    exact .cons (keyPerm_of_sortKeys_eq v _ h.1) (keyPermList_of_sortKeysList_eq vs _ h.2)

theorem keyPerm_of_mem : ∀ members : List (Str × Json N), ∀ m ∈ members, ∀ w : Json N,
    sortKeys m.2 = sortKeys w → KeyPerm m.2 w
  | [], _, hm, _, _ => by cases hm
  | (_, v) :: rest, m, hm, w, h => by
    rcases List.mem_cons.mp hm with rfl | hm
    · exact keyPerm_of_sortKeys_eq v w h
    · exact keyPerm_of_mem rest m hm w h

end

/-- Two values with unique keys have the same sorted form exactly when they are equal up
to the order of object keys. -/
theorem sortKeys_eq_iff {v w : Json N} (hv : UniqueKeys v) :
    sortKeys v = sortKeys w ↔ KeyPerm v w :=
  ⟨keyPerm_of_sortKeys_eq v w, fun h => sortKeys_eq_of_keyPerm h hv⟩

end Json

end Js
