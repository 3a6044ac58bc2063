import Clawback.Js.Runtime

/-!
# SHA-256

An executable SHA-256. The words are natural numbers below `2 ^ 32`.

The model takes the hash function as a parameter; this one is what a run of the program
uses, and what the concrete runs of this development use.
-/

namespace Sha256

open Js

/-! ## Words -/

def rotr (n x : Nat) : Nat := (x >>> n) ||| ((x <<< (32 - n)) % 2 ^ 32)

def add (x y : Nat) : Nat := (x + y) % 2 ^ 32

def complement (x : Nat) : Nat := x ^^^ (2 ^ 32 - 1)

/-- The round constants. -/
def roundConstants : List Nat :=
  [0x428a2f98, 0x71374491, 0xb5c0fbcf, 0xe9b5dba5, 0x3956c25b, 0x59f111f1, 0x923f82a4,
    0xab1c5ed5, 0xd807aa98, 0x12835b01, 0x243185be, 0x550c7dc3, 0x72be5d74, 0x80deb1fe,
    0x9bdc06a7, 0xc19bf174, 0xe49b69c1, 0xefbe4786, 0x0fc19dc6, 0x240ca1cc, 0x2de92c6f,
    0x4a7484aa, 0x5cb0a9dc, 0x76f988da, 0x983e5152, 0xa831c66d, 0xb00327c8, 0xbf597fc7,
    0xc6e00bf3, 0xd5a79147, 0x06ca6351, 0x14292967, 0x27b70a85, 0x2e1b2138, 0x4d2c6dfc,
    0x53380d13, 0x650a7354, 0x766a0abb, 0x81c2c92e, 0x92722c85, 0xa2bfe8a1, 0xa81a664b,
    0xc24b8b70, 0xc76c51a3, 0xd192e819, 0xd6990624, 0xf40e3585, 0x106aa070, 0x19a4c116,
    0x1e376c08, 0x2748774c, 0x34b0bcb5, 0x391c0cb3, 0x4ed8aa4a, 0x5b9cca4f, 0x682e6ff3,
    0x748f82ee, 0x78a5636f, 0x84c87814, 0x8cc70208, 0x90befffa, 0xa4506ceb, 0xbef9a3f7,
    0xc67178f2]

/-! ## Compression -/

/-- The working variables. -/
structure State where
  (a b c d e f g h : Nat)

def State.initial : State :=
  ⟨0x6a09e667, 0xbb67ae85, 0x3c6ef372, 0xa54ff53a, 0x510e527f, 0x9b05688c, 0x1f83d9ab,
    0x5be0cd19⟩

def State.words (s : State) : List Nat := [s.a, s.b, s.c, s.d, s.e, s.f, s.g, s.h]

/-- The word after the last sixteen words of the message schedule. -/
def nextWord : List Nat → Nat
  | [w0, w1, _, _, _, _, _, _, _, w9, _, _, _, _, w14, _] =>
    let s0 := rotr 7 w1 ^^^ rotr 18 w1 ^^^ (w1 >>> 3)
    let s1 := rotr 17 w14 ^^^ rotr 19 w14 ^^^ (w14 >>> 10)
    (w0 + s0 + w9 + s1) % 2 ^ 32
  | _ => 0

/-- One round, with the constant `k` and the word `w`. -/
def round (s : State) (k w : Nat) : State :=
  let s1 := rotr 6 s.e ^^^ rotr 11 s.e ^^^ rotr 25 s.e
  let choice := (s.e &&& s.f) ^^^ (complement s.e &&& s.g)
  let t1 := (s.h + s1 + choice + k + w) % 2 ^ 32
  let s0 := rotr 2 s.a ^^^ rotr 13 s.a ^^^ rotr 22 s.a
  let majority := (s.a &&& s.b) ^^^ (s.a &&& s.c) ^^^ (s.b &&& s.c)
  ⟨add t1 (add s0 majority), s.a, s.b, s.c, add s.d t1, s.e, s.f, s.g⟩

/-- The rounds with the given constants; `window` is the next sixteen words. -/
def rounds : List Nat → List Nat → State → State
  | [], _, s => s
  | _ :: _, [], s => s
  | k :: ks, w :: window, s => rounds ks (window ++ [nextWord (w :: window)]) (round s k w)

def compress (s : State) (block : List Nat) : State :=
  let r := rounds roundConstants block s
  ⟨add s.a r.a, add s.b r.b, add s.c r.c, add s.d r.d, add s.e r.e, add s.f r.f, add s.g r.g,
    add s.h r.h⟩

/-! ## Messages -/

/-- `n` in `k` bytes, most significant first. -/
def bigEndian (n : Nat) : Nat → Bytes
  | 0 => []
  | k + 1 => (n / 256 ^ k).toUInt8 :: bigEndian n k

def pad (message : Bytes) : Bytes :=
  message ++ 0x80 :: List.replicate ((119 - message.length % 64) % 64) 0 ++
    bigEndian (8 * message.length) 8

def words : Bytes → List Nat
  | a :: b :: c :: d :: rest =>
    (a.toNat * 2 ^ 24 + b.toNat * 2 ^ 16 + c.toNat * 2 ^ 8 + d.toNat) :: words rest
  | _ => []

/-- The first `n` blocks of sixteen words. -/
def blocks : Nat → List Nat → List (List Nat)
  | 0, _ => []
  | n + 1, ws => ws.take 16 :: blocks n (ws.drop 16)

def digest (message : Bytes) : Bytes :=
  let ws := words (pad message)
  ((blocks (ws.length / 16) ws).foldl compress .initial).words.flatMap (bigEndian · 4)

/-- `createHash("sha256").update(text, "utf8").digest("hex")` -/
def hex (text : Str) : Str := hexText (digest (utf8Encode text))

example : hex (js "abc") =
    js "ba7816bf8f01cfea414140de5dae2223b00361a396177a9cb410ff61f20015ad" := by
  decide +kernel

end Sha256
