import Clawback.Js.Text
import Mathlib.Data.List.TakeWhile
import Mathlib.Data.List.TakeDrop

/-!
# The text of a number

The JSON text format prints a number by `Number::toString`. What the format needs of
that conversion is stated by the class `NumberText`: a text uses only the characters of
a numeric literal, and reading it back gives the number. Two numbers of one text are the
same number; the two zeros of a floating-point type count as one.

The instance for `Int` is the conversion of an integer: plain digits below `10 ^ 21`,
and a mantissa without trailing zeros with a decimal exponent from there on.
-/

namespace Js

/-- The characters of a numeric literal. -/
def isNumeric (c : CodeUnit) : Bool :=
  isDigit c || c == unit '-' || c == unit '+' || c == unit '.' || c == unit 'e' || c == unit 'E'

/-- A type of numbers with its conversion to and from text. -/
class NumberText (N : Type) where
  /-- `Number::toString`. -/
  toText : N → Str
  /-- The number of a numeric literal. -/
  ofText : Str → Option N
  isNumeric_toText : ∀ (n : N), ∀ c ∈ toText n, isNumeric c = true
  toText_ne_nil : ∀ n : N, toText n ≠ []
  ofText_toText : ∀ n : N, ofText (toText n) = some n

/-! ## Exponent notation -/

/-- The digits of `n` from the least significant one, without the zeros `n` ends in. -/
def mantissaDigits (n : Nat) : List Nat := (Nat.digits 10 n).dropWhile (· == 0)

/-- The digits of a mantissa, with a point after the first one. -/
def pointed : Str → Str
  | [] => []
  | [d] => [d]
  | d :: e :: rest => d :: unit '.' :: e :: rest

/-- The text `d.ddde+xx` of a positive natural number. -/
def exponentText (n : Nat) : Str :=
  pointed ((mantissaDigits n).map digitUnit).reverse ++ unit 'e' :: unit '+' ::
    decimalText ((Nat.digits 10 n).length - 1)

/-- The digits of a mantissa without its point. -/
def unpointed : Str → Str
  | d :: c :: rest => if c = unit '.' then d :: rest else d :: c :: rest
  | s => s

/-- The value of `d.ddde+xx`. -/
def exponentValue (s : Str) : Option Nat :=
  match s.span (· != unit 'e') with
  | (mantissa, _ :: plus :: exponent) =>
    if plus = unit '+' then do
      let m ← decimalValue (unpointed mantissa)
      let e ← decimalValue exponent
      return m * 10 ^ (e + 1 - (unpointed mantissa).length)
    else none
  | _ => none

theorem isDigit_ne_unit {c : CodeUnit} (hc : isDigit c = true) :
    c ≠ unit 'e' ∧ c ≠ unit '.' ∧ c ≠ unit '-' := by
  refine ⟨?_, ?_, ?_⟩ <;> rintro rfl <;> exact absurd hc (by decide)

theorem isNumeric_of_isDigit {c : CodeUnit} (hc : isDigit c = true) : isNumeric c = true := by
  simp [isNumeric, hc]

theorem mantissaDigits_lt {n d : Nat} (hd : d ∈ mantissaDigits n) : d < 10 :=
  Nat.digits_lt_base (by omega) ((List.dropWhile_sublist _).subset hd)

theorem isDigit_of_mem_mantissa {n : Nat} {c : CodeUnit}
    (hc : c ∈ ((mantissaDigits n).map digitUnit).reverse) : isDigit c = true := by
  obtain ⟨d, hd, rfl⟩ := List.mem_map.mp (List.mem_reverse.mp hc)
  exact isDigit_digitUnit (mantissaDigits_lt hd)

theorem unpointed_pointed {s : Str} (hs : ∀ c ∈ s, isDigit c = true) :
    unpointed (pointed s) = s := by
  match s, hs with
  | [], _ => rfl
  | [_], _ => rfl
  | d :: e :: rest, _ => simp [pointed, unpointed]

theorem mem_pointed {s : Str} {c : CodeUnit} (hc : c ∈ pointed s) : c ∈ s ∨ c = unit '.' := by
  match s, hc with
  | [d], hc => exact Or.inl hc
  | d :: e :: rest, hc =>
    simp only [pointed, List.mem_cons] at hc ⊢
    tauto

/-- Cutting the zeros a number ends in divides it by a power of ten. -/
theorem ofDigits_mantissaDigits (n : Nat) :
    Nat.ofDigits 10 (mantissaDigits n) *
      10 ^ ((Nat.digits 10 n).length - (mantissaDigits n).length) = n := by
  have hsplit := List.takeWhile_append_dropWhile (p := (· == 0)) (l := Nat.digits 10 n)
  have hlen : (Nat.digits 10 n).length - (mantissaDigits n).length =
      ((Nat.digits 10 n).takeWhile (· == 0)).length := by
    have h := congrArg List.length hsplit
    rw [List.length_append] at h
    rw [mantissaDigits]
    omega
  have hrep : (Nat.digits 10 n).takeWhile (· == 0) =
      List.replicate ((Nat.digits 10 n).takeWhile (· == 0)).length 0 :=
    List.eq_replicate_iff.mpr ⟨rfl, fun d hd => by simpa using List.mem_takeWhile_imp hd⟩
  have hzero : Nat.ofDigits 10 ((Nat.digits 10 n).takeWhile (· == 0)) = 0 := by
    rw [hrep]
    exact Nat.ofDigits_replicate_zero
  have hn : Nat.ofDigits 10 (Nat.digits 10 n) = n := Nat.ofDigits_digits 10 n
  rw [← hsplit, Nat.ofDigits_append, hzero, Nat.zero_add] at hn
  rw [hlen, Nat.mul_comm]
  exact hn

theorem mantissaDigits_ne_nil {n : Nat} (hn : n ≠ 0) : mantissaDigits n ≠ [] := by
  intro h
  have hval := ofDigits_mantissaDigits n
  rw [h] at hval
  simp only [Nat.ofDigits_nil, Nat.zero_mul] at hval
  exact hn hval.symm

theorem span_mantissa (s t : Str) (hs : ∀ c ∈ s, (c != unit 'e') = true) :
    (s ++ unit 'e' :: t).span (· != unit 'e') = (s, unit 'e' :: t) := by
  rw [List.span_eq_takeWhile_dropWhile]
  rw [List.takeWhile_append_of_pos hs, List.dropWhile_append_of_pos hs]
  simp

theorem exponentValue_exponentText {n : Nat} (hn : n ≠ 0) :
    exponentValue (exponentText n) = some n := by
  have hdigit : ∀ c ∈ ((mantissaDigits n).map digitUnit).reverse, isDigit c = true :=
    fun c hc => isDigit_of_mem_mantissa hc
  have hnoE : ∀ c ∈ pointed ((mantissaDigits n).map digitUnit).reverse,
      (c != unit 'e') = true := by
    intro c hc
    rcases mem_pointed hc with hc | rfl
    · simpa using (isDigit_ne_unit (hdigit c hc)).1
    · decide
  have hmant : decimalValue ((mantissaDigits n).map digitUnit).reverse =
      some (Nat.ofDigits 10 (mantissaDigits n)) := by
    rw [decimalValue, if_pos ⟨by simpa using mantissaDigits_ne_nil hn,
      List.all_eq_true.mpr hdigit⟩, digitsValue_map_reverse _ fun d hd => mantissaDigits_lt hd]
  have hlen : (mantissaDigits n).length ≤ (Nat.digits 10 n).length :=
    (List.dropWhile_sublist _).length_le
  have hpos : 0 < (mantissaDigits n).length :=
    List.length_pos_iff.mpr (mantissaDigits_ne_nil hn)
  have hexp : (Nat.digits 10 n).length - 1 + 1 -
      (((mantissaDigits n).map digitUnit).reverse).length =
        (Nat.digits 10 n).length - (mantissaDigits n).length := by
    rw [List.length_reverse, List.length_map]
    omega
  simp only [exponentValue, exponentText, span_mantissa _ _ hnoE, if_true,
    unpointed_pointed hdigit, hmant, decimalValue_decimalText, Option.bind_eq_bind,
    Option.bind_some, Option.pure_def, hexp, ofDigits_mantissaDigits]

/-! ## Integers -/

/-- `Number::toString` of a natural number. -/
def natText (n : Nat) : Str := if n < 10 ^ 21 then decimalText n else exponentText n

/-- `Number::toString` of an integer. -/
def intText : Int → Str
  | .ofNat n => natText n
  | .negSucc n => unit '-' :: natText (n + 1)

/-- The natural number of a literal in either notation. -/
def natOfText (s : Str) : Option Nat :=
  if s.all isDigit then decimalValue s else exponentValue s

/-- The integer of a literal. -/
def intOfText : Str → Option Int
  | [] => none
  | c :: s => if c = unit '-' then (natOfText s).map fun n => -(n : Int)
    else (natOfText (c :: s)).map fun n => (n : Int)

theorem natOfText_natText (n : Nat) : natOfText (natText n) = some n := by
  rw [natText]
  split
  · rw [natOfText, if_pos (List.all_eq_true.mpr fun c hc => isDigit_of_mem_decimalText hc),
      decimalValue_decimalText]
  · rename_i h
    have hmem : unit 'e' ∈ exponentText n := by simp [exponentText]
    have hnot : ¬ (exponentText n).all isDigit = true := by
      intro hall
      exact absurd (List.all_eq_true.mp hall _ hmem) (by decide)
    rw [natOfText, if_neg hnot]
    exact exponentValue_exponentText (by omega)

theorem isNumeric_of_mem_natText {n : Nat} {c : CodeUnit} (hc : c ∈ natText n) :
    isNumeric c = true := by
  rw [natText] at hc
  split at hc
  · exact isNumeric_of_isDigit (isDigit_of_mem_decimalText hc)
  · rw [exponentText, List.mem_append, List.mem_cons, List.mem_cons] at hc
    rcases hc with hc | rfl | rfl | hc
    · rcases mem_pointed hc with hc | rfl
      · exact isNumeric_of_isDigit (isDigit_of_mem_mantissa hc)
      · decide
    · decide
    · decide
    · exact isNumeric_of_isDigit (isDigit_of_mem_decimalText hc)

/-- A natural number's text starts with a digit. -/
theorem natText_head (n : Nat) : ∃ c s, natText n = c :: s ∧ isDigit c = true := by
  rw [natText]
  split
  · cases h : decimalText n with
    | nil => exact absurd h (decimalText_ne_nil n)
    | cons c s => exact ⟨c, s, rfl, isDigit_of_mem_decimalText (h ▸ List.mem_cons_self)⟩
  · rename_i hn
    have hne : ((mantissaDigits n).map digitUnit).reverse ≠ [] := by
      simpa using mantissaDigits_ne_nil (n := n) (by omega)
    have hdigit : ∀ c ∈ ((mantissaDigits n).map digitUnit).reverse, isDigit c = true :=
      fun c hc => isDigit_of_mem_mantissa hc
    rw [exponentText]
    match ((mantissaDigits n).map digitUnit).reverse, hne, hdigit with
    | [d], _, hdigit => exact ⟨d, _, rfl, hdigit d List.mem_cons_self⟩
    | d :: e :: rest, _, hdigit => exact ⟨d, _, rfl, hdigit d List.mem_cons_self⟩

theorem intOfText_intText (n : Int) : intOfText (intText n) = some n := by
  cases n with
  | ofNat n =>
    obtain ⟨c, s, hs, hc⟩ := natText_head n
    have hne : c ≠ unit '-' := (isDigit_ne_unit hc).2.2
    rw [intText, hs, intOfText, if_neg hne, ← hs, natOfText_natText]
    rfl
  | negSucc n =>
    rw [intText, intOfText, if_pos rfl, natOfText_natText]
    rfl

@[default_instance]
instance : NumberText Int where
  toText := intText
  ofText := intOfText
  isNumeric_toText n c hc := by
    cases n with
    | ofNat n => exact isNumeric_of_mem_natText hc
    | negSucc n =>
      rcases List.mem_cons.mp hc with rfl | hc
      · decide
      · exact isNumeric_of_mem_natText hc
  toText_ne_nil n := by
    cases n with
    | ofNat n =>
      obtain ⟨c, s, hs, _⟩ := natText_head n
      simp [intText, hs]
    | negSucc n => simp [intText]
  ofText_toText := intOfText_intText

example : intText (-1999) = js "-1999" := by decide

example : intText (15 * 10 ^ 20) = js "1.5e+21" := by decide

end Js
