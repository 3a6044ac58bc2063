import Clawback.Js.Text

/-!
# Errors, bytes and hexadecimal text

What the program uses of its runtime besides JSON: thrown values, `Buffer`s as lists of
bytes, the UTF-8 encoding of a string of code units (an unpaired surrogate is written as
U+FFFD, and so is every maximal part of an ill-formed sequence that is read), and
hexadecimal text (reading stops at the first pair that is not two hexadecimal digits).

`ofHexText_hexText`: bytes survive hexadecimal text.
-/

namespace Js

/-! ## Thrown values -/

/-- A thrown value: an `Error`, or anything else, with its text. -/
inductive JsError where
  | error (name message : Str)
  | value (text : Str)
deriving DecidableEq, Inhabited

/-- `error instanceof Error ? error.message : String(error)` -/
def JsError.text : JsError → Str
  | .error _ message => message
  | .value text => text

/-- `new Error(message)` -/
def JsError.ofMessage (message : Str) : JsError := .error (js "Error") message

/-- A sequence that does not throw. -/
theorem bind_eq_ok {ε α β : Type} {x : Except ε α} {f : α → Except ε β} {b : β} :
    (x >>= f) = .ok b ↔ ∃ a, x = .ok a ∧ f a = .ok b := by
  cases x with
  | ok a => exact ⟨fun h => ⟨a, rfl, h⟩, fun ⟨_, ha, h⟩ => Except.ok.inj ha ▸ h⟩
  | error e => exact ⟨fun h => (nomatch h), fun ⟨_, ha, _⟩ => (nomatch ha)⟩

/-! ## UTF-8 -/

/-- The content of a `Buffer`. -/
abbrev Bytes := List UInt8

/-- The encoding of one code point. -/
def utf8CodePoint (n : Nat) : Bytes :=
  if n < 0x80 then [n.toUInt8]
  else if n < 0x800 then [(0xC0 + n / 64).toUInt8, (0x80 + n % 64).toUInt8]
  else if n < 0x10000 then
    [(0xE0 + n / 4096).toUInt8, (0x80 + n / 64 % 64).toUInt8, (0x80 + n % 64).toUInt8]
  else
    [(0xF0 + n / 262144).toUInt8, (0x80 + n / 4096 % 64).toUInt8,
      (0x80 + n / 64 % 64).toUInt8, (0x80 + n % 64).toUInt8]

/-- The code point of a surrogate pair. -/
def pairCodePoint (high low : CodeUnit) : Nat :=
  0x10000 + (high.toNat - 0xD800) * 0x400 + (low.toNat - 0xDC00)

/-- `Buffer.from(text, "utf8")` -/
def utf8Encode : Str → Bytes
  | [] => []
  | [c] => if isHigh c || isLow c then utf8CodePoint 0xFFFD else utf8CodePoint c.toNat
  | c :: d :: rest =>
    if isHigh c && isLow d then utf8CodePoint (pairCodePoint c d) ++ utf8Encode rest
    else if isHigh c || isLow c then utf8CodePoint 0xFFFD ++ utf8Encode (d :: rest)
    else utf8CodePoint c.toNat ++ utf8Encode (d :: rest)

/-- The code units of a code point. -/
def codePointUnits (n : Nat) : Str :=
  if n < 0x10000 then [n.toUInt16]
  else [(0xD800 + (n - 0x10000) / 0x400).toUInt16, (0xDC00 + (n - 0x10000) % 0x400).toUInt16]

/-- Where a reader of UTF-8 stands: how many bytes the sequence still needs, what it has
read of the code point, and the bounds of the next byte. -/
structure Utf8State where
  needed : Nat
  codePoint : Nat
  lower : Nat
  upper : Nat

/-- Between two sequences. -/
def Utf8State.start : Utf8State := ⟨0, 0, 0x80, 0xBF⟩

/-- The first byte of a sequence. -/
def utf8Lead (b : Nat) : Str × Utf8State :=
  if b < 0x80 then ([b.toUInt16], .start)
  else if 0xC2 ≤ b && b ≤ 0xDF then ([], ⟨1, b - 0xC0, 0x80, 0xBF⟩)
  else if 0xE0 ≤ b && b ≤ 0xEF then
    ([], ⟨2, b - 0xE0, if b = 0xE0 then 0xA0 else 0x80, if b = 0xED then 0x9F else 0xBF⟩)
  else if 0xF0 ≤ b && b ≤ 0xF4 then
    ([], ⟨3, b - 0xF0, if b = 0xF0 then 0x90 else 0x80, if b = 0xF4 then 0x8F else 0xBF⟩)
  else ([0xFFFD], .start)

/-- What is read of the bytes from a state on. -/
def utf8DecodeFrom : Utf8State → Bytes → Str
  | st, [] => if st.needed = 0 then [] else [0xFFFD]
  | st, b :: rest =>
    if st.needed = 0 then
      (utf8Lead b.toNat).1 ++ utf8DecodeFrom (utf8Lead b.toNat).2 rest
    else if st.lower ≤ b.toNat && b.toNat ≤ st.upper then
      let codePoint := st.codePoint * 64 + b.toNat % 64
      if st.needed = 1 then codePointUnits codePoint ++ utf8DecodeFrom .start rest
      else utf8DecodeFrom ⟨st.needed - 1, codePoint, 0x80, 0xBF⟩ rest
    else
      -- the sequence breaks off here, and the byte begins another one
      0xFFFD :: ((utf8Lead b.toNat).1 ++ utf8DecodeFrom (utf8Lead b.toNat).2 rest)

/-- `buffer.toString("utf8")` -/
def utf8Decode (bytes : Bytes) : Str := utf8DecodeFrom .start bytes

/-! ## Hexadecimal text -/

/-- `buffer.toString("hex")` -/
def hexText : Bytes → Str
  | [] => []
  | b :: rest => digitUnit (b.toNat / 16) :: digitUnit (b.toNat % 16) :: hexText rest

/-- A hexadecimal digit; of the code unit only the low byte is read. -/
def byteDigitValue (c : CodeUnit) : Option Nat := digitValue (c &&& 0xFF)

theorem byteDigitValue_digitUnit {d : Nat} (hd : d < 16) :
    byteDigitValue (digitUnit d) = some d := by
  have hbyte : ∀ d : Fin 16, digitUnit d &&& 0xFF = digitUnit d := by decide
  rw [byteDigitValue, hbyte ⟨d, hd⟩, digitValue_digitUnit hd]

/-- `Buffer.from(text, "hex")` -/
def ofHexText : Str → Bytes
  | c :: d :: rest =>
    match byteDigitValue c, byteDigitValue d with
    | some a, some b => (16 * a + b).toUInt8 :: ofHexText rest
    | _, _ => []
  | _ => []

/-- Bytes survive hexadecimal text. -/
@[simp] theorem ofHexText_hexText (bytes : Bytes) : ofHexText (hexText bytes) = bytes := by
  induction bytes with
  | nil => rfl
  | cons b rest ih =>
    have hb : b.toNat < 256 := b.toNat_lt
    have hbyte : (16 * (b.toNat / 16) + b.toNat % 16).toUInt8 = b := by
      rw [Nat.div_add_mod]
      exact UInt8.ofNat_toNat
    rw [hexText, ofHexText, byteDigitValue_digitUnit (by omega),
      byteDigitValue_digitUnit (by omega)]
    simp only [hbyte, ih]

end Js
