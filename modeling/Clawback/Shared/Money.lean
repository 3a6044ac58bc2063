import Mathlib.Data.List.TakeWhile
import Clawback.Js.Text

/-!
# Amounts in text

The first dollar amount in a text, `text.match(/\$\s?(\d+(?:\.\d{1,2})?)/)`, in cents. The
arithmetic is exact: `Math.round(parseFloat(amount) * 100)` of an amount with at most two
decimals is the amount in cents.

Beside it stands what a text says to a reader (`namesAmount`): there a number ends where no
more of it follows, and may have its digits in groups.
-/

namespace Clawback

open Js

/-- `\s` -/
def isWhiteSpace (c : CodeUnit) : Bool :=
  let n := c.toNat
  (9 ≤ n && n ≤ 13) || n == 0x20 || n == 0xA0 || n == 0x1680 || (0x2000 ≤ n && n ≤ 0x200A) ||
    n == 0x2028 || n == 0x2029 || n == 0x202F || n == 0x205F || n == 0x3000 || n == 0xFEFF

/-- The cents of `(?:\.\d{1,2})?`, read from what follows the whole dollars. -/
def fractionCents : Str → Nat
  | point :: d :: e :: _ =>
    if point = unit '.' ∧ isDigit d then
      if isDigit e then digitsValue [d, e] else digitsValue [d] * 10
    else 0
  | [point, d] => if point = unit '.' ∧ isDigit d then digitsValue [d] * 10 else 0
  | _ => 0

/-- `\d+(?:\.\d{1,2})?` at the start of a text. -/
def amountCents (text : Str) : Option Int :=
  let whole := text.takeWhile isDigit
  if whole = [] then none
  else some (digitsValue whole * 100 + fractionCents (text.dropWhile isDigit) : Nat)

/-- `\$\s?(\d+(?:\.\d{1,2})?)` at the start of a text. -/
def dollarCents : Str → Option Int
  | dollar :: rest =>
    if dollar = unit '$' then
      match rest with
      | c :: rest' => if isWhiteSpace c then amountCents rest' else amountCents rest
      | [] => none
    else none
  | [] => none

/-- The first dollar amount in a text, in cents. -/
def firstDollarCents : Str → Option Int
  | [] => none
  | c :: rest => dollarCents (c :: rest) <|> firstDollarCents rest

/-- `extractCents` -/
def extractCents (text : Str) : Option Int := firstDollarCents text

/-! ## Reading an amount -/

theorem not_isWhiteSpace_of_isDigit {c : CodeUnit} (hc : isDigit c = true) :
    isWhiteSpace c = false := by
  simp only [isDigit, Bool.and_eq_true, decide_eq_true_eq] at hc
  simp only [isWhiteSpace, Bool.or_eq_false_iff, Bool.and_eq_false_iff, decide_eq_false_iff_not,
    beq_eq_false_iff_ne]
  omega

theorem dollarCents_of_ne {c : CodeUnit} (hc : c ≠ unit '$') (rest : Str) :
    dollarCents (c :: rest) = none := if_neg hc

/-- A text in which no dollar amount starts may be skipped. -/
theorem firstDollarCents_append {pre rest : Str}
    (hpre : ∀ t, t ≠ [] → t <:+ pre → dollarCents (t ++ rest) = none) :
    firstDollarCents (pre ++ rest) = firstDollarCents rest := by
  induction pre with
  | nil => rfl
  | cons c pre ih =>
    have hhead : dollarCents (c :: (pre ++ rest)) = none :=
      hpre (c :: pre) (List.cons_ne_nil c pre) List.suffix_rfl
    rw [List.cons_append, firstDollarCents, hhead]
    exact ih fun t ht hsuffix => hpre t ht (hsuffix.trans (List.suffix_cons c pre))

/-- Without a dollar sign there is no dollar amount. -/
theorem dollarCents_of_notMem {pre rest : Str} (hpre : unit '$' ∉ pre) :
    ∀ t, t ≠ [] → t <:+ pre → dollarCents (t ++ rest) = none := by
  intro t ht hsuffix
  obtain ⟨c, t, rfl⟩ := List.exists_cons_of_ne_nil ht
  apply dollarCents_of_ne
  rintro rfl
  exact hpre (hsuffix.subset List.mem_cons_self)

/-- A dollar sign before a digit starts an amount. -/
theorem firstDollarCents_dollar {d : CodeUnit} {rest : Str} (hd : isDigit d = true) :
    firstDollarCents (unit '$' :: d :: rest) = amountCents (d :: rest) := by
  have hdollar : dollarCents (unit '$' :: d :: rest) = amountCents (d :: rest) := by
    simp [dollarCents, not_isWhiteSpace_of_isDigit hd]
  have hsome : ∃ cents, amountCents (d :: rest) = some cents := by
    simp [amountCents, hd]
  obtain ⟨cents, hcents⟩ := hsome
  rw [firstDollarCents, hdollar, hcents]
  rfl

/-- The whole dollars end at the first code unit that is no digit. -/
theorem amountCents_append {whole : Str} (hne : whole ≠ []) (hwhole : ∀ c ∈ whole, isDigit c = true)
    {c : CodeUnit} (hc : isDigit c = false) (rest : Str) :
    amountCents (whole ++ c :: rest) =
      some ((digitsValue whole * 100 + fractionCents (c :: rest) : Nat) : Int) := by
  have htake : (whole ++ c :: rest).takeWhile isDigit = whole := by
    rw [List.takeWhile_append_of_pos hwhole, List.takeWhile_cons_of_neg (by simp [hc]),
      List.append_nil]
  have hdrop : (whole ++ c :: rest).dropWhile isDigit = c :: rest := by
    rw [List.dropWhile_append_of_pos hwhole, List.dropWhile_cons_of_neg (by simp [hc])]
  rw [amountCents, htake, hdrop, if_neg hne]

/-- Two decimals are all that is read of a fraction. -/
theorem fractionCents_two {d e : CodeUnit} (hd : isDigit d = true) (he : isDigit e = true)
    (rest : Str) : fractionCents (unit '.' :: d :: e :: rest) = digitsValue [d, e] := by
  simp [fractionCents, hd, he]

theorem fractionCents_of_ne {c : CodeUnit} (hc : c ≠ unit '.') (rest : Str) :
    fractionCents (c :: rest) = 0 := by
  unfold fractionCents
  split <;> simp_all

/-- The first amount of a text, when it is `$` and digits up to something that is no digit. -/
theorem firstDollarCents_whole {pre whole : Str}
    (hne : whole ≠ []) (hwhole : ∀ c ∈ whole, isDigit c = true) {c : CodeUnit}
    (hc : isDigit c = false) {rest : Str}
    (hpre : ∀ t, t ≠ [] → t <:+ pre →
      dollarCents (t ++ (unit '$' :: (whole ++ c :: rest))) = none) :
    firstDollarCents (pre ++ (unit '$' :: (whole ++ c :: rest))) =
      some ((digitsValue whole * 100 + fractionCents (c :: rest) : Nat) : Int) := by
  obtain ⟨d, digits, rfl⟩ := List.exists_cons_of_ne_nil hne
  have hd : isDigit d = true := hwhole d List.mem_cons_self
  rw [firstDollarCents_append hpre, List.cons_append, firstDollarCents_dollar hd,
    ← List.cons_append, amountCents_append hne hwhole hc]

/-! ## What a text says -/

/-- The text goes on with a digit. -/
def startsWithDigit (text : Str) : Bool := text.head?.any isDigit

/-- The number at the start of a text: its digits, and the commas and points that are
followed by one. -/
def numeral : Str → Str
  | [] => []
  | c :: rest =>
    if isDigit c || ((c == unit ',' || c == unit '.') && startsWithDigit rest) then
      c :: numeral rest
    else []

/-- Digits, all together or in groups of three. -/
def isGrouped : List Str → Bool
  | [] => false
  | [whole] => !whole.isEmpty
  | head :: groups => 1 ≤ head.length && head.length ≤ 3 && groups.all (·.length == 3)

/-- The cents of `1299`, `1,299` or `1,299.00`, if they are whole. -/
def numeralCents (number : Str) : Option Nat :=
  let groups := (number.takeWhile (· != unit '.')).splitOn (unit ',')
  let fraction := (number.dropWhile (· != unit '.')).tail
  let unscaled := (digitsValue groups.flatten * 10 ^ fraction.length + digitsValue fraction) * 100
  if isGrouped groups && fraction.all isDigit && unscaled % 10 ^ fraction.length == 0 then
    some (unscaled / 10 ^ fraction.length)
  else none

def isLetter (c : CodeUnit) : Bool :=
  (unit 'a' ≤ c && c ≤ unit 'z') || (unit 'A' ≤ c && c ≤ unit 'Z')

/-- The dollar amount that is written at the start of a text. -/
def writtenCents : Str → Option Int
  | [] => none
  | dollar :: rest =>
    let text := rest.dropWhile isWhiteSpace
    let number := numeral text
    -- in `$5k` there is more to the number than its digits
    if dollar = unit '$' ∧ !(text.drop number.length).head?.any isLetter then
      (numeralCents number).map Int.ofNat
    else none

/-- The text names the amount: some dollar amount that is written in it is the one. -/
def namesAmount (text : Str) (cents : Int) : Bool :=
  text.tails.any fun rest => writtenCents rest == some cents

/-! ## Reading what is written -/

/-- A number as it is written: its digits in groups, and decimals behind a point. -/
def numberText (head : Str) (groups : List Str) (fraction : Option Str) : Str :=
  head ++ ((groups.map (unit ',' :: ·)).flatten ++ fraction.elim [] (unit '.' :: ·))

theorem numeral_digits {digits : Str} (hdigits : ∀ c ∈ digits, isDigit c = true) (rest : Str) :
    numeral (digits ++ rest) = digits ++ numeral rest := by
  induction digits with
  | nil => rfl
  | cons c digits ih =>
    have hc : isDigit c = true := hdigits c List.mem_cons_self
    rw [List.cons_append, numeral, hc, Bool.true_or, if_pos rfl,
      ih fun d hd => hdigits d (List.mem_cons_of_mem _ hd), List.cons_append]

/-- A comma or a point belongs to the number when digits follow. -/
theorem numeral_mark {mark : CodeUnit} (hmark : mark = unit ',' ∨ mark = unit '.') {digits : Str}
    (hne : digits ≠ []) (hdigits : ∀ c ∈ digits, isDigit c = true) (rest : Str) :
    numeral (mark :: (digits ++ rest)) = mark :: (digits ++ numeral rest) := by
  have hstarts : startsWithDigit (digits ++ rest) = true := by
    obtain ⟨d, digits, rfl⟩ := List.exists_cons_of_ne_nil hne
    exact hdigits d List.mem_cons_self
  have hbelongs : (isDigit mark || ((mark == unit ',' || mark == unit '.') &&
      startsWithDigit (digits ++ rest))) = true := by
    rcases hmark with rfl | rfl <;> simp [hstarts]
  rw [numeral, if_pos hbelongs, numeral_digits hdigits]

/-- A mark is no digit. -/
theorem notMem_of_digits {mark : CodeUnit} (hmark : isDigit mark = false) {digits : Str}
    (hdigits : ∀ c ∈ digits, isDigit c = true) : mark ∉ digits := by
  intro h
  rw [hdigits mark h] at hmark
  cases hmark

section NumberText

variable {head : Str} {groups : List Str} {fraction : Option Str}

theorem numeral_groups (hgroups : ∀ g ∈ groups, g ≠ [] ∧ ∀ c ∈ g, isDigit c = true)
    (rest : Str) : numeral ((groups.map (unit ',' :: ·)).flatten ++ rest) =
      (groups.map (unit ',' :: ·)).flatten ++ numeral rest := by
  induction groups with
  | nil => rfl
  | cons g groups ih =>
    obtain ⟨hne, hdigits⟩ := hgroups g List.mem_cons_self
    rw [List.map_cons, List.flatten_cons, List.append_assoc, List.cons_append,
      numeral_mark (.inl rfl) hne hdigits, ih fun g' hg' => hgroups g' (List.mem_cons_of_mem _ hg'),
      List.append_assoc, List.cons_append]

/-- The number ends where no more of it follows. -/
theorem numeral_numberText (hhead : ∀ c ∈ head, isDigit c = true)
    (hgroups : ∀ g ∈ groups, g ≠ [] ∧ ∀ c ∈ g, isDigit c = true)
    (hfraction : ∀ f ∈ fraction, f ≠ [] ∧ ∀ c ∈ f, isDigit c = true) {rest : Str}
    (hrest : numeral rest = []) :
    numeral (numberText head groups fraction ++ rest) = numberText head groups fraction := by
  rw [numberText, List.append_assoc, numeral_digits hhead, List.append_assoc,
    numeral_groups hgroups]
  congr 2
  cases fraction with
  | none => exact hrest
  | some f =>
    obtain ⟨hne, hdigits⟩ := hfraction f rfl
    have hmark := numeral_mark (.inr rfl) hne hdigits rest
    rwa [hrest, List.append_nil] at hmark

/-- The groups are found again between the commas. -/
theorem splitOn_groups (hhead : ∀ c ∈ head, isDigit c = true)
    (hgroups : ∀ g ∈ groups, g ≠ [] ∧ ∀ c ∈ g, isDigit c = true) :
    (head ++ (groups.map (unit ',' :: ·)).flatten).splitOn (unit ',') = head :: groups := by
  have hcomma : isDigit (unit ',') = false := by rfl
  induction groups generalizing head with
  | nil =>
    rw [List.map_nil, List.flatten_nil, List.append_nil,
      List.splitOn_eq_singleton (notMem_of_digits hcomma hhead)]
  | cons g groups ih =>
    rw [List.map_cons, List.flatten_cons, List.cons_append,
      List.splitOn_append_cons_self_of_not_mem (notMem_of_digits hcomma hhead),
      ih (hgroups g List.mem_cons_self).2 fun g' hg' => hgroups g' (List.mem_cons_of_mem _ hg')]

theorem ne_point_of_groups (hhead : ∀ c ∈ head, isDigit c = true)
    (hgroups : ∀ g ∈ groups, g ≠ [] ∧ ∀ c ∈ g, isDigit c = true) :
    ∀ c ∈ head ++ (groups.map (unit ',' :: ·)).flatten, (c != unit '.') = true := by
  have hpoint : isDigit (unit '.') = false := by rfl
  intro c hc
  rw [bne_iff_ne]
  rintro rfl
  rcases List.mem_append.mp hc with hc | hc
  · exact notMem_of_digits hpoint hhead hc
  · obtain ⟨part, hpart, hc⟩ := List.mem_flatten.mp hc
    obtain ⟨g, hg, rfl⟩ := List.mem_map.mp hpart
    rcases List.mem_cons.mp hc with hcomma | hc
    · exact absurd hcomma (by decide)
    · exact notMem_of_digits hpoint (hgroups g hg).2 hc

/-- What is written with two decimals or none is worth its digits. -/
theorem numeralCents_numberText (hgrouped : isGrouped (head :: groups) = true)
    (hhead : ∀ c ∈ head, isDigit c = true)
    (hgroups : ∀ g ∈ groups, g ≠ [] ∧ ∀ c ∈ g, isDigit c = true)
    (hfraction : ∀ f ∈ fraction, f.length = 2 ∧ ∀ c ∈ f, isDigit c = true) :
    numeralCents (numberText head groups fraction) =
      some (digitsValue (head ++ groups.flatten) * 100 + fraction.elim 0 digitsValue) := by
  have hpoint := ne_point_of_groups hhead hgroups
  rw [numberText, ← List.append_assoc]
  cases fraction with
  | none =>
    have htake := List.takeWhile_eq_self_iff.mpr hpoint
    have hdrop := List.dropWhile_eq_nil_iff.mpr hpoint
    simp only [numeralCents, Option.elim_none, List.append_nil, htake, hdrop,
      splitOn_groups hhead hgroups, hgrouped, List.tail_nil, List.flatten_cons]
    have hzero : digitsValue [] = 0 := rfl
    simp [Nat.mod_one, hzero]
  | some f =>
    obtain ⟨hlength, hdigits⟩ := hfraction f rfl
    have htake : ∀ rest, List.takeWhile (· != unit '.')
        (head ++ (groups.map (unit ',' :: ·)).flatten ++ rest) = _ :=
      fun _ => List.takeWhile_append_of_pos hpoint
    have hdrop : ∀ rest, List.dropWhile (· != unit '.')
        (head ++ (groups.map (unit ',' :: ·)).flatten ++ rest) = _ :=
      fun _ => List.dropWhile_append_of_pos hpoint
    simp only [numeralCents, Option.elim_some, htake, hdrop, bne_self_eq_false,
      Bool.false_eq_true, not_false_eq_true, List.takeWhile_cons_of_neg,
      List.dropWhile_cons_of_neg, List.append_nil, splitOn_groups hhead hgroups, hgrouped,
      List.tail_cons, hlength, List.all_eq_true.mpr hdigits, Bool.true_and, List.flatten_cons]
    simp

/-- An amount that is written in a text, up to where its number ends, is named by it. -/
theorem namesAmount_numberText (hgrouped : isGrouped (head :: groups) = true)
    (hhead : ∀ c ∈ head, isDigit c = true)
    (hgroups : ∀ g ∈ groups, g ≠ [] ∧ ∀ c ∈ g, isDigit c = true)
    (hfraction : ∀ f ∈ fraction, f.length = 2 ∧ ∀ c ∈ f, isDigit c = true) (pre : Str)
    {rest : Str} (hrest : numeral rest = []) (hletter : rest.head?.any isLetter = false) :
    namesAmount (pre ++ (unit '$' :: (numberText head groups fraction ++ rest)))
      (digitsValue (head ++ groups.flatten) * 100 + fraction.elim 0 digitsValue : Nat) = true := by
  have hne : head ≠ [] := by
    rintro rfl
    cases groups <;> cases hgrouped
  have hnonempty : ∀ f ∈ fraction, f ≠ [] ∧ ∀ c ∈ f, isDigit c = true := by
    intro f hf
    obtain ⟨hlength, hdigits⟩ := hfraction f hf
    exact ⟨List.ne_nil_of_length_pos (by omega), hdigits⟩
  have hnumber := numeral_numberText hhead hgroups hnonempty hrest
  have hcents := numeralCents_numberText hgrouped hhead hgroups hfraction
  have hspace : (numberText head groups fraction ++ rest).dropWhile isWhiteSpace =
      numberText head groups fraction ++ rest := by
    obtain ⟨d, digits, rfl⟩ := List.exists_cons_of_ne_nil hne
    have hd : isDigit d = true := hhead d List.mem_cons_self
    rw [numberText, List.cons_append, List.cons_append,
      List.dropWhile_cons_of_neg (by simp [not_isWhiteSpace_of_isDigit hd])]
  have hwritten : writtenCents (unit '$' :: (numberText head groups fraction ++ rest)) =
      some ((digitsValue (head ++ groups.flatten) * 100 + fraction.elim 0 digitsValue : Nat) :
        Int) := by
    simp only [writtenCents, hspace, hnumber, List.drop_left, hletter, hcents]
    rfl
  rw [namesAmount, List.any_eq_true]
  exact ⟨_, (List.mem_tails _ _).mpr (List.suffix_append pre _), by rw [hwritten, beq_self_eq_true]⟩

end NumberText

example : namesAmount (js "Refund of $1,299.00 issued.") 129900 = true ∧
    namesAmount (js "Refund of $1,299.00 issued.") 100 = false ∧
    namesAmount (js "Refunded $19.99.") 1999 = true ∧
    namesAmount (js "Refunded $19.995") 1999 = false := by decide

end Clawback
