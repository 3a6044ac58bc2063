import Mathlib.Data.Nat.Digits.Lemmas
import Mathlib.Data.List.Basic

/-!
# JavaScript strings

A JavaScript string is a sequence of 16-bit code units. It need not be well-formed
UTF-16: a surrogate may stand alone. This module has the code units the JSON text
format names, the order `Array.prototype.sort` compares strings by, and the two
renderings of natural numbers used by the text format.

* `js`: the code units of a string literal.
* `isHigh`, `isLow`: the two halves of a surrogate pair.
* `hex4`, `ofHex4`: four lowercase hexadecimal digits of a code unit, and back.
* `decimalText`, `decimalValue`: decimal digits without leading zeros, and back.
-/

namespace Js

/-- One UTF-16 code unit. -/
abbrev CodeUnit := UInt16

/-- A JavaScript string. -/
abbrev Str := List CodeUnit

/-- The code unit of a character of the basic multilingual plane. -/
def unit (c : Char) : CodeUnit := c.val.toUInt16

/-- The code units of one character; a surrogate pair from U+10000 on. -/
def charUnits (c : Char) : Str :=
  if c.toNat < 0x10000 then [unit c]
  else [UInt16.ofNat (0xD800 + (c.toNat - 0x10000) / 0x400),
    UInt16.ofNat (0xDC00 + (c.toNat - 0x10000) % 0x400)]

/-- The code units of a string literal of the source. -/
def js (s : String) : Str := s.toList.flatMap charUnits

/-- `xs.join(sep)`. -/
def join (sep : Str) : List Str → Str
  | [] => []
  | [s] => s
  | s :: t :: rest => s ++ sep ++ join sep (t :: rest)

@[simp] theorem join_singleton (sep s : Str) : join sep [s] = s := rfl

@[simp] theorem join_cons_cons (sep s t : Str) (rest : List Str) :
    join sep (s :: t :: rest) = s ++ sep ++ join sep (t :: rest) := rfl

theorem join_cons (sep s : Str) (rest : List Str) :
    join sep (s :: rest) = s ++ (rest.map (sep ++ ·)).flatten := by
  induction rest generalizing s with
  | nil => simp
  | cons t rest ih =>
    rw [join_cons_cons, ih, List.map_cons, List.flatten_cons]
    simp only [List.append_assoc]

/-! ## Surrogates -/

/-- A leading surrogate. -/
def isHigh (c : CodeUnit) : Bool := 0xD800 ≤ c.toNat && c.toNat < 0xDC00

/-- A trailing surrogate. -/
def isLow (c : CodeUnit) : Bool := 0xDC00 ≤ c.toNat && c.toNat < 0xE000

/-! ## Order of strings -/

/-- Strings are sorted by their code units, lexicographically. -/
def strLe (a b : Str) : Bool := decide (a ≤ b)

theorem strLe_total (a b : Str) : strLe a b = true ∨ strLe b a = true := by
  simp only [strLe, decide_eq_true_eq]
  exact List.le_total a b

theorem strLe_trans {a b c : Str} (hab : strLe a b = true) (hbc : strLe b c = true) :
    strLe a c = true := by
  simp only [strLe, decide_eq_true_eq] at *
  exact List.le_trans hab hbc

theorem strLe_antisymm {a b : Str} (hab : strLe a b = true) (hba : strLe b a = true) :
    a = b := by
  simp only [strLe, decide_eq_true_eq] at *
  exact List.le_antisymm hab hba

/-! ## Digits -/

/-- The digit `d` of a base up to sixteen, in lowercase. -/
def digitUnit (d : Nat) : CodeUnit :=
  if d < 10 then UInt16.ofNat (48 + d) else UInt16.ofNat (87 + d)

/-- The value of a hexadecimal digit, in either case. -/
def digitValue (c : CodeUnit) : Option Nat :=
  if 48 ≤ c.toNat ∧ c.toNat ≤ 57 then some (c.toNat - 48)
  else if 97 ≤ c.toNat ∧ c.toNat ≤ 102 then some (c.toNat - 87)
  else if 65 ≤ c.toNat ∧ c.toNat ≤ 70 then some (c.toNat - 55)
  else none

/-- A decimal digit. -/
def isDigit (c : CodeUnit) : Bool := 48 ≤ c.toNat && c.toNat ≤ 57

theorem digitUnit_toNat_of_lt_ten {d : Nat} (hd : d < 10) :
    (digitUnit d).toNat = 48 + d := by
  rw [digitUnit, if_pos hd, UInt16.toNat_ofNat']
  omega

theorem digitUnit_toNat_of_ten_le {d : Nat} (hd : 10 ≤ d) (hd' : d < 16) :
    (digitUnit d).toNat = 87 + d := by
  rw [digitUnit, if_neg (by omega), UInt16.toNat_ofNat']
  omega

theorem digitValue_digitUnit {d : Nat} (hd : d < 16) :
    digitValue (digitUnit d) = some d := by
  rw [digitValue]
  rcases Nat.lt_or_ge d 10 with h | h
  · rw [digitUnit_toNat_of_lt_ten h, if_pos (by omega)]
    congr 1
    omega
  · rw [digitUnit_toNat_of_ten_le h hd, if_neg (by omega), if_pos (by omega)]
    congr 1
    omega

theorem isDigit_digitUnit {d : Nat} (hd : d < 10) : isDigit (digitUnit d) = true := by
  simp only [isDigit, digitUnit_toNat_of_lt_ten hd, Bool.and_eq_true, decide_eq_true_eq]
  omega

/-! ## Hexadecimal code units -/

/-- Four lowercase hexadecimal digits. -/
def hex4 (c : CodeUnit) : Str :=
  [digitUnit (c.toNat / 4096 % 16), digitUnit (c.toNat / 256 % 16),
    digitUnit (c.toNat / 16 % 16), digitUnit (c.toNat % 16)]

/-- The code unit of four hexadecimal digits. -/
def ofHex4 (a b c d : CodeUnit) : Option CodeUnit := do
  let a ← digitValue a
  let b ← digitValue b
  let c ← digitValue c
  let d ← digitValue d
  return UInt16.ofNat (a * 4096 + b * 256 + c * 16 + d)

theorem ofHex4_hex4 (c : CodeUnit) :
    ofHex4 (digitUnit (c.toNat / 4096 % 16)) (digitUnit (c.toNat / 256 % 16))
      (digitUnit (c.toNat / 16 % 16)) (digitUnit (c.toNat % 16)) = some c := by
  have hc : c.toNat < 65536 := c.toNat_lt
  have hsum : c.toNat / 4096 % 16 * 4096 + c.toNat / 256 % 16 * 256 +
      c.toNat / 16 % 16 * 16 + c.toNat % 16 = c.toNat := by omega
  rw [ofHex4, digitValue_digitUnit (by omega), digitValue_digitUnit (by omega),
    digitValue_digitUnit (by omega), digitValue_digitUnit (by omega)]
  simp only [Option.bind_eq_bind, Option.bind_some, Option.pure_def, hsum, UInt16.ofNat_toNat]

/-! ## Decimal numbers -/

/-- The decimal digits of a natural number, without leading zeros. -/
def decimalText (n : Nat) : Str :=
  if n = 0 then [unit '0'] else ((Nat.digits 10 n).map digitUnit).reverse

/-- The value of a run of decimal digits, most significant digit first. -/
def digitsValue (s : Str) : Nat := s.foldl (fun acc c => acc * 10 + (c.toNat - 48)) 0

/-- The value of a nonempty run of decimal digits. -/
def decimalValue (s : Str) : Option Nat :=
  if s ≠ [] ∧ s.all isDigit then some (digitsValue s) else none

theorem decimalText_ne_nil (n : Nat) : decimalText n ≠ [] := by
  rw [decimalText]
  split
  · simp
  · rename_i h
    simpa [Nat.digits_eq_nil_iff_eq_zero] using h

theorem isDigit_of_mem_decimalText {n : Nat} {c : CodeUnit} (hc : c ∈ decimalText n) :
    isDigit c = true := by
  rw [decimalText] at hc
  split at hc
  · rw [List.mem_singleton.mp hc]
    rfl
  · obtain ⟨d, hd, rfl⟩ := List.mem_map.mp (List.mem_reverse.mp hc)
    exact isDigit_digitUnit (Nat.digits_lt_base (by omega) hd)

theorem digitsValue_map_reverse (ds : List Nat) (hds : ∀ d ∈ ds, d < 10) :
    digitsValue (ds.map digitUnit).reverse = Nat.ofDigits 10 ds := by
  rw [digitsValue, List.foldl_reverse]
  induction ds with
  | nil => rfl
  | cons d ds ih =>
    have hd : (digitUnit d).toNat = 48 + d :=
      digitUnit_toNat_of_lt_ten (hds d List.mem_cons_self)
    rw [List.map_cons, List.foldr_cons, ih (fun e he => hds e (List.mem_cons_of_mem _ he)), hd,
      Nat.ofDigits_cons]
    omega

theorem digitsValue_decimalText (n : Nat) : digitsValue (decimalText n) = n := by
  rw [decimalText]
  split
  · rename_i h
    rw [h]
    rfl
  · rw [digitsValue_map_reverse _ (fun d hd => Nat.digits_lt_base (by omega) hd),
      Nat.ofDigits_digits]

theorem decimalValue_decimalText (n : Nat) : decimalValue (decimalText n) = some n := by
  have hall : (decimalText n).all isDigit = true :=
    List.all_eq_true.mpr fun c hc => isDigit_of_mem_decimalText hc
  rw [decimalValue, if_pos ⟨decimalText_ne_nil n, hall⟩, digitsValue_decimalText]

end Js
