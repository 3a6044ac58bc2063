import Clawback.Js.Runtime
import Clawback.Js.Stringify

/-!
# Well-formed strings

A string is well formed when no surrogate stands alone in it. UTF-8 keeps exactly such
strings, and `JSON.stringify` writes only such texts, since it escapes what stands alone.

* `utf8Decode_utf8Encode_eq`, `toWellFormed_eq_iff`: UTF-8 replaces what stands alone, so exactly
  the well-formed strings survive it.
* `wellFormed_stringify`: every JSON text is well formed.
-/

namespace Js

/-- A code unit that is no half of a surrogate pair. -/
def isPlain (c : CodeUnit) : Bool := !isHigh c && !isLow c

/-- No surrogate stands alone. -/
inductive WellFormed : Str → Prop
  | nil : WellFormed []
  | plain {c : CodeUnit} {s : Str} : isPlain c = true → WellFormed s → WellFormed (c :: s)
  | pair {c d : CodeUnit} {s : Str} : isHigh c = true → isLow d = true → WellFormed s →
    WellFormed (c :: d :: s)

theorem WellFormed.append {s t : Str} (hs : WellFormed s) (ht : WellFormed t) :
    WellFormed (s ++ t) := by
  induction hs with
  | nil => exact ht
  | plain hc _ ih => exact .plain hc ih
  | pair hc hd _ ih => exact .pair hc hd ih

theorem wellFormed_of_plain {s : Str} (h : ∀ c ∈ s, isPlain c = true) : WellFormed s := by
  induction s with
  | nil => exact .nil
  | cons c s ih =>
    exact .plain (h c List.mem_cons_self) (ih fun d hd => h d (List.mem_cons_of_mem _ hd))

/-! ## UTF-8 -/

theorem isPlain_iff {c : CodeUnit} :
    isPlain c = true ↔ c.toNat < 0xD800 ∨ 0xE000 ≤ c.toNat := by
  simp only [isPlain, isHigh, isLow, Bool.and_eq_true, Bool.not_eq_true', Bool.and_eq_false_iff,
    decide_eq_false_iff_not]
  omega

theorem isHigh_iff {c : CodeUnit} : isHigh c = true ↔ 0xD800 ≤ c.toNat ∧ c.toNat < 0xDC00 := by
  simp [isHigh]

theorem isLow_iff {c : CodeUnit} : isLow c = true ↔ 0xDC00 ≤ c.toNat ∧ c.toNat < 0xE000 := by
  simp [isLow]

theorem toUInt8_toNat {b : Nat} (hb : b < 256) : b.toUInt8.toNat = b := by
  rw [Nat.toUInt8, UInt8.toNat_ofNat']
  omega

/-- A byte of a sequence that is not the last one. -/
theorem decode_middle {needed codePoint lower upper : Nat} {b : Nat} {rest : Bytes}
    (hneeded : 2 ≤ needed) (hlower : lower ≤ b) (hupper : b ≤ upper) (hb : b < 256) :
    utf8DecodeFrom ⟨needed, codePoint, lower, upper⟩ (b.toUInt8 :: rest) =
      utf8DecodeFrom ⟨needed - 1, codePoint * 64 + b % 64, 0x80, 0xBF⟩ rest := by
  have hbyte := toUInt8_toNat hb
  rw [utf8DecodeFrom, if_neg (by simp only; omega)]
  simp only [hbyte, hlower, hupper, decide_true, Bool.and_self, if_true]
  rw [if_neg (by omega)]

/-- The last byte of a sequence. -/
theorem decode_last {codePoint lower upper : Nat} {b : Nat} {rest : Bytes}
    (hlower : lower ≤ b) (hupper : b ≤ upper) (hb : b < 256) :
    utf8DecodeFrom ⟨1, codePoint, lower, upper⟩ (b.toUInt8 :: rest) =
      codePointUnits (codePoint * 64 + b % 64) ++ utf8DecodeFrom .start rest := by
  have hbyte := toUInt8_toNat hb
  rw [utf8DecodeFrom, if_neg (by simp only; omega)]
  simp only [hbyte, hlower, hupper, decide_true, Bool.and_self, if_true]

theorem decode_lead {b : Nat} {rest : Bytes} (hb : b < 256) :
    utf8DecodeFrom .start (b.toUInt8 :: rest) =
      (utf8Lead b).1 ++ utf8DecodeFrom (utf8Lead b).2 rest := by
  have hbyte := toUInt8_toNat hb
  have hstart : Utf8State.start.needed = 0 := rfl
  rw [utf8DecodeFrom, if_pos hstart, hbyte]

/-- The encoding of a code point is read back. -/
theorem decode_codePoint {n : Nat} (hn : n < 0x110000) (hsurrogate : n < 0xD800 ∨ 0xE000 ≤ n)
    (rest : Bytes) :
    utf8DecodeFrom .start (utf8CodePoint n ++ rest) =
      codePointUnits n ++ utf8DecodeFrom .start rest := by
  rw [utf8CodePoint]
  split
  · rename_i h
    rw [List.singleton_append, decode_lead (by omega), utf8Lead, if_pos h, codePointUnits,
      if_pos (by omega)]
  split
  · rename_i h
    simp only [List.cons_append, List.nil_append]
    rw [decode_lead (by omega), utf8Lead, if_neg (by omega), if_pos (by simp; omega)]
    rw [List.nil_append, decode_last (by omega) (by omega) (by omega)]
    congr 2
    omega
  split
  · rename_i h
    simp only [List.cons_append, List.nil_append]
    rw [decode_lead (by omega), utf8Lead, if_neg (by omega), if_neg (by simp; omega),
      if_pos (by simp; omega)]
    rw [List.nil_append, decode_middle (by omega) (by split <;> omega) (by split <;> omega)
      (by omega), decode_last (by omega) (by omega) (by omega)]
    congr 2
    omega
  · simp only [List.cons_append, List.nil_append]
    rw [decode_lead (by omega), utf8Lead, if_neg (by omega), if_neg (by simp; omega),
      if_neg (by simp; omega), if_pos (by simp; omega)]
    rw [List.nil_append, decode_middle (by omega) (by split <;> omega) (by split <;> omega)
      (by omega), decode_middle (by omega) (by omega) (by omega) (by omega),
      decode_last (by omega) (by omega) (by omega)]
    congr 2
    omega

theorem codePointUnits_toNat (c : CodeUnit) : codePointUnits c.toNat = [c] := by
  have hc : c.toNat < 65536 := c.toNat_lt
  rw [codePointUnits, if_pos hc]
  congr 1
  exact UInt16.ofNat_toNat

theorem codePointUnits_pair {c d : CodeUnit} (hc : isHigh c = true) (hd : isLow d = true) :
    codePointUnits (pairCodePoint c d) = [c, d] := by
  rw [isHigh_iff] at hc
  rw [isLow_iff] at hd
  have hn : pairCodePoint c d =
      0x10000 + (c.toNat - 0xD800) * 0x400 + (d.toNat - 0xDC00) := rfl
  generalize pairCodePoint c d = n at hn ⊢
  rw [codePointUnits, if_neg (by omega)]
  have hhigh : 0xD800 + (n - 0x10000) / 0x400 = c.toNat := by omega
  have hlow : 0xDC00 + (n - 0x10000) % 0x400 = d.toNat := by omega
  rewrite [hhigh, hlow]
  exact congrArg₂ (fun a b => [a, b]) UInt16.ofNat_toNat UInt16.ofNat_toNat

/-- `text.toWellFormed()`: U+FFFD for every surrogate that stands alone. -/
def toWellFormed : Str → Str
  | [] => []
  | [c] => if isHigh c || isLow c then [0xFFFD] else [c]
  | c :: d :: rest =>
    if isHigh c && isLow d then c :: d :: toWellFormed rest
    else if isHigh c || isLow c then 0xFFFD :: toWellFormed (d :: rest)
    else c :: toWellFormed (d :: rest)

theorem decode_replacement (rest : Bytes) :
    utf8DecodeFrom .start (utf8CodePoint 0xFFFD ++ rest) = 0xFFFD :: utf8DecodeFrom .start rest :=
  decode_codePoint (by omega) (by omega) rest

theorem decode_plain {c : CodeUnit} (hc : ¬(isHigh c || isLow c) = true) (rest : Bytes) :
    utf8DecodeFrom .start (utf8CodePoint c.toNat ++ rest) = c :: utf8DecodeFrom .start rest := by
  have hlt : c.toNat < 65536 := c.toNat_lt
  have hplain : isPlain c = true := by
    simpa [isPlain] using hc
  rw [decode_codePoint (by omega) (isPlain_iff.mp hplain), codePointUnits_toNat]
  rfl

theorem decode_pair {c d : CodeUnit} (h : (isHigh c && isLow d) = true) (rest : Bytes) :
    utf8DecodeFrom .start (utf8CodePoint (pairCodePoint c d) ++ rest) =
      c :: d :: utf8DecodeFrom .start rest := by
  rw [Bool.and_eq_true] at h
  have hc := isHigh_iff.mp h.1
  have hd := isLow_iff.mp h.2
  have hrange : 0x10000 ≤ pairCodePoint c d ∧ pairCodePoint c d < 0x110000 := by
    unfold pairCodePoint
    omega
  rw [decode_codePoint hrange.2 (by omega), codePointUnits_pair h.1 h.2]
  rfl

/-- UTF-8 replaces the surrogates that stand alone, and nothing else. -/
theorem utf8Decode_utf8Encode_eq (s : Str) : utf8Decode (utf8Encode s) = toWellFormed s := by
  rw [utf8Decode]
  fun_induction toWellFormed s with
  | case1 => rfl
  | case2 c h => rw [utf8Encode, if_pos h, ← List.append_nil (utf8CodePoint _),
      decode_replacement]; rfl
  | case3 c h => rw [utf8Encode, if_neg h, ← List.append_nil (utf8CodePoint _),
      decode_plain h]; rfl
  | case4 c d rest h ih => rw [utf8Encode, if_pos h, decode_pair h, ih]
  | case5 c d rest h h' ih => rw [utf8Encode, if_neg h, if_pos h', decode_replacement, ih]
  | case6 c d rest h h' ih => rw [utf8Encode, if_neg h, if_neg h', decode_plain h', ih]

theorem wellFormed_toWellFormed (s : Str) : WellFormed (toWellFormed s) := by
  fun_induction toWellFormed s with
  | case1 => exact .nil
  | case2 c h => exact .plain (by decide) .nil
  | case3 c h => exact .plain (by simpa [isPlain] using h) .nil
  | case4 c d rest h ih =>
    rw [Bool.and_eq_true] at h
    exact .pair h.1 h.2 ih
  | case5 c d rest h h' ih => exact .plain (by decide) ih
  | case6 c d rest h h' ih => exact .plain (by simpa [isPlain] using h') ih

theorem toWellFormed_eq {s : Str} (hs : WellFormed s) : toWellFormed s = s := by
  induction hs with
  | nil => rfl
  | @plain c s hc _ ih =>
    have hnot : ¬(isHigh c || isLow c) = true := by simpa [isPlain] using hc
    cases s with
    | nil => rw [toWellFormed, if_neg hnot]
    | cons d s =>
      have hpair : ¬(isHigh c && isLow d) = true := fun h =>
        hnot (Bool.or_eq_true_iff.mpr (Or.inl (Bool.and_eq_true_iff.mp h).1))
      rw [toWellFormed, if_neg hpair, if_neg hnot, ih]
  | @pair c d s hc hd _ ih => rw [toWellFormed, if_pos (by rw [hc, hd]; rfl), ih]

/-- A well-formed string survives UTF-8. -/
theorem utf8Decode_utf8Encode {s : Str} (hs : WellFormed s) : utf8Decode (utf8Encode s) = s := by
  rw [utf8Decode_utf8Encode_eq, toWellFormed_eq hs]

/-- A string survives UTF-8 exactly when it is well formed. -/
theorem toWellFormed_eq_iff {s : Str} : toWellFormed s = s ↔ WellFormed s :=
  ⟨fun h => h ▸ wellFormed_toWellFormed s, toWellFormed_eq⟩

/-! ## JSON texts -/

theorem isPlain_of_isNumeric {c : CodeUnit} (hc : isNumeric c = true) : isPlain c = true := by
  rw [isPlain_iff]
  simp only [isNumeric, Bool.or_eq_true, isDigit, Bool.and_eq_true, decide_eq_true_eq,
    beq_iff_eq] at hc
  rcases hc with ((((⟨hlow, hhigh⟩ | rfl) | rfl) | rfl) | rfl) | rfl
  · omega
  all_goals decide

theorem isPlain_digitUnit {d : Nat} (hd : d < 16) : isPlain (digitUnit d) = true := by
  rw [isPlain_iff]
  rcases Nat.lt_or_ge d 10 with h | h
  · rw [digitUnit_toNat_of_lt_ten h]
    omega
  · rw [digitUnit_toNat_of_ten_le h hd]
    omega

theorem isPlain_shortEscape {c e : CodeUnit} (h : shortEscape c = some e) :
    isPlain e = true := by
  rw [shortEscape] at h
  repeat' split at h
  all_goals
    cases h
  all_goals decide

theorem wellFormed_quoteUnit (c : CodeUnit) : WellFormed (quoteUnit c) := by
  rw [quoteUnit]
  split
  · rename_i e he
    exact .plain (by decide) (.plain (isPlain_shortEscape he) .nil)
  · split
    · refine .plain (by decide) (.plain (by decide) (wellFormed_of_plain ?_))
      intro d hd
      simp only [hex4, List.mem_cons, List.not_mem_nil, or_false] at hd
      rcases hd with rfl | rfl | rfl | rfl <;> exact isPlain_digitUnit (Nat.mod_lt _ (by omega))
    · rename_i hnot
      refine .plain ?_ .nil
      simp only [Bool.or_eq_true, not_or, Bool.not_eq_true] at hnot
      rw [isPlain, hnot.1.2, hnot.2]
      rfl

theorem wellFormed_quoteUnits : ∀ s : Str, WellFormed (quoteUnits s)
  | [] => .nil
  | [c] => wellFormed_quoteUnit c
  | c :: d :: rest => by
    rw [quoteUnits]
    split
    · rename_i hpair
      rw [Bool.and_eq_true] at hpair
      exact .pair hpair.1 hpair.2 (wellFormed_quoteUnits rest)
    · exact (wellFormed_quoteUnit c).append (wellFormed_quoteUnits (d :: rest))

theorem wellFormed_quote (s : Str) : WellFormed (quote s) :=
  .plain (by decide) ((wellFormed_quoteUnits s).append (.plain (by decide) .nil))

namespace Json

variable {N : Type} [NumberText N]

theorem wellFormed_lineBreak {gap indent : Str} (hindent : WellFormed indent) :
    WellFormed (lineBreak gap indent) := by
  rw [lineBreak]
  split
  · exact .nil
  · exact .plain (by decide) hindent

theorem wellFormed_colon (gap : Str) : WellFormed (colon gap) := by
  rw [colon]
  split
  · exact .plain (by decide) .nil
  · exact .plain (by decide) (.plain (by decide) .nil)

mutual

theorem wellFormed_render {gap : Str} (hgap : WellFormed gap) :
    ∀ {indent : Str}, WellFormed indent → ∀ v : Json N, WellFormed (render gap indent v)
  | _, _, .null => (wellFormed_of_plain (List.all_eq_true.mp rfl) : WellFormed (js "null"))
  | _, _, .bool true => (wellFormed_of_plain (List.all_eq_true.mp rfl) : WellFormed (js "true"))
  | _, _, .bool false => (wellFormed_of_plain (List.all_eq_true.mp rfl) : WellFormed (js "false"))
  | _, _, .num n =>
    wellFormed_of_plain fun c hc => isPlain_of_isNumeric (NumberText.isNumeric_toText n c hc)
  | _, _, .str s => wellFormed_quote s
  | _, _, .arr [] => (wellFormed_of_plain (List.all_eq_true.mp rfl) : WellFormed (js "[]"))
  | indent, hindent, .arr (v :: vs) => by
    have hinner := hindent.append hgap
    have hv := wellFormed_render hgap hinner v
    have hvs := wellFormed_renderElements hgap hinner vs
    have hclose : WellFormed [unit ']'] := .plain (by decide) .nil
    exact .plain (by decide) (((((wellFormed_lineBreak hinner).append hv).append hvs).append
      (wellFormed_lineBreak hindent)).append hclose)
  | _, _, .obj [] => (wellFormed_of_plain (List.all_eq_true.mp rfl) : WellFormed (js "{}"))
  | indent, hindent, .obj ((key, v) :: rest) => by
    have hinner := hindent.append hgap
    have hv := wellFormed_render hgap hinner v
    have hrest := wellFormed_renderMembers hgap hinner rest
    have hclose : WellFormed [unit '}'] := .plain (by decide) .nil
    exact .plain (by decide) (((((((wellFormed_lineBreak hinner).append
      (wellFormed_quote key)).append (wellFormed_colon gap)).append hv).append hrest).append
      (wellFormed_lineBreak hindent)).append hclose)

theorem wellFormed_renderElements {gap : Str} (hgap : WellFormed gap) :
    ∀ {indent : Str}, WellFormed indent → ∀ vs : List (Json N),
      WellFormed (renderElements gap indent vs)
  | _, _, [] => .nil
  | _, hindent, v :: vs =>
    .plain (by decide) (((wellFormed_lineBreak hindent).append
      (wellFormed_render hgap hindent v)).append (wellFormed_renderElements hgap hindent vs))

theorem wellFormed_renderMembers {gap : Str} (hgap : WellFormed gap) :
    ∀ {indent : Str}, WellFormed indent → ∀ members : List (Str × Json N),
      WellFormed (renderMembers gap indent members)
  | _, _, [] => .nil
  | _, hindent, (key, v) :: rest =>
    .plain (by decide) (((((wellFormed_lineBreak hindent).append (wellFormed_quote key)).append
      (wellFormed_colon gap)).append (wellFormed_render hgap hindent v)).append
      (wellFormed_renderMembers hgap hindent rest))

end

/-- Every JSON text is well formed. -/
theorem wellFormed_stringify (v : Json N) : WellFormed (stringify v) :=
  wellFormed_render .nil .nil v

theorem wellFormed_stringifyIndented (v : Json N) : WellFormed (stringifyIndented v) :=
  wellFormed_render (.plain (by decide) (.plain (by decide) .nil)) .nil v

end Json

end Js
