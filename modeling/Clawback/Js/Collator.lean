import Clawback.Js.Text

/-!
# Collation

`localeCompare` orders texts by the rules of the host. What is relied on: it is a total preorder,
and timestamps are ordered as their code units are, which is by time.
-/

namespace Js

/-- `YYYY-MM-DDTHH:mm:ss.sssZ`, as `toISOString` writes a date of the years 0 to 9999. -/
def IsTimestamp (s : Str) : Prop :=
  (s.map fun c => if isDigit c then unit '0' else c) = js "0000-00-00T00:00:00.000Z"

instance : DecidablePred IsTimestamp := fun _ => inferInstanceAs (Decidable (_ = _))

structure Collator where
  /-- `a.localeCompare(b)` -/
  localeCompare : Str → Str → Int
  swap : ∀ a b, localeCompare a b < 0 ↔ 0 < localeCompare b a
  trans : ∀ a b c, localeCompare a b ≤ 0 → localeCompare b c ≤ 0 → localeCompare a c ≤ 0
  timestamps : ∀ a b, IsTimestamp a → IsTimestamp b →
    (localeCompare a b ≤ 0 ↔ strLe a b = true)

namespace Collator

theorem total (collator : Collator) (a b : Str) :
    collator.localeCompare a b ≤ 0 ∨ collator.localeCompare b a ≤ 0 := by
  have hswap := collator.swap b a
  omega

/-- The collation by code units. -/
def codeUnits : Collator where
  localeCompare a b := if strLe a b = true then if strLe b a = true then 0 else -1 else 1
  swap a b := by
    have htotal := strLe_total a b
    cases hab : strLe a b <;> cases hba : strLe b a <;> simp_all
  trans a b c hab hbc := by
    have hle : ∀ x y : Str, (if strLe x y = true then if strLe y x = true then (0 : Int) else -1
        else 1) ≤ 0 ↔ strLe x y = true := by
      intro x y
      cases strLe x y <;> cases strLe y x <;> simp
    rw [hle] at hab hbc ⊢
    exact strLe_trans hab hbc
  timestamps a b _ _ := by
    cases strLe a b <;> cases strLe b a <;> simp

end Collator

end Js
