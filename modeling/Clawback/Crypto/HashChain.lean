import Mathlib.Data.Set.Function
import Mathlib.Logic.Function.Basic

/-!
# Hash chains

A chain of digests over a list of artifacts: the root artifact is hashed on its own, and
every later one is hashed together with the digest before it. `Layout` says what text is
hashed in each case; nothing is assumed of the hash function but that it has no collision
among the texts that occur (`Set.InjOn`).

`digest_eq_iff`: two chains end in the same digest exactly when they have the same root and
the same later artifacts.
`digest_drop_eq_iff`: so do two chains that are cut off at some stage each.
`digest_ne`: a digest of a chain is not the digest of a text that no stage hashes.
-/

namespace HashChain

variable {T D A₀ A : Type}

/-- The texts that are hashed. -/
structure Layout (T D A₀ A : Type) where
  root : A₀ → T
  link : D → A → T
  root_injective : Function.Injective root
  link_injective : Function.Injective2 link
  root_ne_link : ∀ a d b, root a ≠ link d b

variable (h : T → D) (layout : Layout T D A₀ A)

/-- The last digest of a chain; the later artifacts are listed newest first. -/
def digest (a : A₀) : List A → D
  | [] => h (layout.root a)
  | b :: earlier => h (layout.link (digest a earlier) b)

/-- The texts a chain hashes. -/
def texts (a : A₀) : List A → List T
  | [] => [layout.root a]
  | b :: earlier => layout.link (digest h layout a earlier) b :: texts a earlier

/-- The hash function has no collision among the texts of two chains. -/
def NoCollision (a : A₀) (as : List A) (b : A₀) (bs : List A) : Prop :=
  Set.InjOn h {t | t ∈ texts h layout a as ∨ t ∈ texts h layout b bs}

variable {h layout}

theorem NoCollision.tail {a b : A₀} {x y : A} {as bs : List A}
    (hinj : NoCollision h layout a (x :: as) b (y :: bs)) : NoCollision h layout a as b bs := by
  apply hinj.mono
  rintro t (ht | ht)
  · exact Or.inl (List.mem_cons_of_mem _ ht)
  · exact Or.inr (List.mem_cons_of_mem _ ht)

/-- Two chains end in the same digest exactly when they are the same. -/
theorem digest_eq_iff {a b : A₀} : ∀ {as bs : List A}, NoCollision h layout a as b bs →
    (digest h layout a as = digest h layout b bs ↔ a = b ∧ as = bs)
  | [], [], hinj => by
    refine ⟨fun heq => ⟨?_, rfl⟩, fun ⟨hab, _⟩ => hab ▸ rfl⟩
    have htext := hinj (Or.inl (List.mem_singleton_self _)) (Or.inr (List.mem_singleton_self _)) heq
    exact layout.root_injective htext
  | [], y :: bs, hinj => by
    refine ⟨fun heq => ?_, fun ⟨_, hnil⟩ => by cases hnil⟩
    have htext := hinj (Or.inl (List.mem_singleton_self _)) (Or.inr List.mem_cons_self) heq
    exact absurd htext (layout.root_ne_link _ _ _)
  | x :: as, [], hinj => by
    refine ⟨fun heq => ?_, fun ⟨_, hnil⟩ => by cases hnil⟩
    have htext := hinj (Or.inl List.mem_cons_self) (Or.inr (List.mem_singleton_self _)) heq
    exact absurd htext.symm (layout.root_ne_link _ _ _)
  | x :: as, y :: bs, hinj => by
    constructor
    · intro heq
      have htext := hinj (Or.inl List.mem_cons_self) (Or.inr List.mem_cons_self) heq
      obtain ⟨hdigest, hxy⟩ := layout.link_injective htext
      obtain ⟨hab, hrest⟩ := (digest_eq_iff hinj.tail).mp hdigest
      exact ⟨hab, by rw [hxy, hrest]⟩
    · rintro ⟨rfl, hcons⟩
      rw [hcons]

/-! ## The digests of the earlier stages -/

theorem texts_drop_subset (a : A₀) : ∀ (as : List A) (n : Nat),
    texts h layout a (as.drop n) ⊆ texts h layout a as
  | _, 0 => fun _ ht => ht
  | [], _ + 1 => fun _ ht => ht
  | _ :: as, n + 1 => fun _ ht => List.mem_cons_of_mem _ (texts_drop_subset a as n ht)

theorem texts_drop (a : A₀) {as : List A} {n : Nat} (hn : n ≤ as.length) :
    (texts h layout a as).drop n = texts h layout a (as.drop n) := by
  induction as generalizing n with
  | nil =>
    obtain rfl := Nat.le_zero.mp hn
    rfl
  | cons b as ih =>
    cases n with
    | zero => rfl
    | succ n => exact ih (Nat.le_of_succ_le_succ hn)

theorem NoCollision.drop {a b : A₀} {as bs : List A} (hinj : NoCollision h layout a as b bs)
    (n m : Nat) : NoCollision h layout a (as.drop n) b (bs.drop m) := by
  apply hinj.mono
  rintro t (ht | ht)
  · exact Or.inl (texts_drop_subset a as n ht)
  · exact Or.inr (texts_drop_subset b bs m ht)

/-- A stage of one chain and a stage of another have one digest exactly when the chains up to
there are the same. -/
theorem digest_drop_eq_iff {a b : A₀} {as bs : List A} (hinj : NoCollision h layout a as b bs)
    (n m : Nat) : digest h layout a (as.drop n) = digest h layout b (bs.drop m) ↔
      a = b ∧ as.drop n = bs.drop m :=
  digest_eq_iff (hinj.drop n m)

theorem exists_text_of_digest (a : A₀) (as : List A) :
    ∃ t ∈ texts h layout a as, digest h layout a as = h t := by
  cases as with
  | nil => exact ⟨_, List.mem_singleton_self _, rfl⟩
  | cons b as => exact ⟨_, List.mem_cons_self, rfl⟩

theorem mem_texts {a : A₀} {as : List A} {t : T} (ht : t ∈ texts h layout a as) :
    t = layout.root a ∨ ∃ d, ∃ b ∈ as, t = layout.link d b := by
  induction as with
  | nil => exact Or.inl (List.mem_singleton.mp ht)
  | cons b as ih =>
    rcases List.mem_cons.mp ht with hnew | hold
    · exact Or.inr ⟨_, b, List.mem_cons_self, hnew⟩
    · rcases ih hold with hroot | ⟨d, b', hb', hlink⟩
      · exact Or.inl hroot
      · exact Or.inr ⟨d, b', List.mem_cons_of_mem _ hb', hlink⟩

/-- A digest of a chain is not the digest of a text that is no text of a chain. -/
theorem digest_ne {a : A₀} {as : List A} {t : T}
    (hinj : Set.InjOn h {t' | t' ∈ texts h layout a as ∨ t' = t})
    (hroot : layout.root a ≠ t) (hlink : ∀ d b, layout.link d b ≠ t) (n : Nat) :
    digest h layout a (as.drop n) ≠ h t := by
  intro heq
  obtain ⟨t', ht', hdigest⟩ : ∃ t' ∈ texts h layout a (as.drop n),
      digest h layout a (as.drop n) = h t' := exists_text_of_digest a (as.drop n)
  have hsame : t' = t :=
    hinj (Or.inl (texts_drop_subset a as n ht')) (Or.inr rfl) (hdigest.symm.trans heq)
  rcases mem_texts ht' with hr | ⟨d, b, -, hl⟩
  · exact hroot (hr.symm.trans hsame)
  · exact hlink d b (hl.symm.trans hsame)

end HashChain
