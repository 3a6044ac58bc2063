import Clawback.Js.Json

/-!
# `JSON.stringify`

The text of a JSON value. Strings are quoted as `QuoteJSONString` does: a short escape
for seven characters, `\\uXXXX` for the other control characters and for a surrogate that
stands alone, and the code unit itself otherwise. `render gap indent` prints an array or
an object over several lines when `gap` is not empty; `stringify` is the compact form.

* `unquote_quoteUnits`: `unquote` reads a quoted string back.
* `stringify_arr`, `stringify_obj`: the compact form joins the texts of the parts.
-/

namespace Js

/-! ## Strings -/

/-- The letter of a short escape. -/
def shortEscape (c : CodeUnit) : Option CodeUnit :=
  if c = 8 then some (unit 'b')
  else if c = 9 then some (unit 't')
  else if c = 10 then some (unit 'n')
  else if c = 12 then some (unit 'f')
  else if c = 13 then some (unit 'r')
  else if c = unit '"' then some (unit '"')
  else if c = unit '\\' then some (unit '\\')
  else none

/-- The code unit of an escape's letter. -/
def unescape (e : CodeUnit) : Option CodeUnit :=
  if e = unit 'b' then some 8
  else if e = unit 't' then some 9
  else if e = unit 'n' then some 10
  else if e = unit 'f' then some 12
  else if e = unit 'r' then some 13
  else if e = unit '"' ∨ e = unit '\\' ∨ e = unit '/' then some e
  else none

/-- One code unit that is not part of a surrogate pair. -/
def quoteUnit (c : CodeUnit) : Str :=
  match shortEscape c with
  | some e => [unit '\\', e]
  | none =>
    if c < 32 || isHigh c || isLow c then unit '\\' :: unit 'u' :: hex4 c else [c]

/-- The text of a string between its quotes. -/
def quoteUnits : Str → Str
  | [] => []
  | [c] => quoteUnit c
  | c :: d :: rest =>
    if isHigh c && isLow d then c :: d :: quoteUnits rest
    else quoteUnit c ++ quoteUnits (d :: rest)

/-- `JSON.stringify` of a string. -/
def quote (s : Str) : Str := unit '"' :: (quoteUnits s ++ [unit '"'])

/-- A quoted string from behind its opening quote, and what follows the closing one. -/
def unquote : Str → Option (Str × Str)
  | [] => none
  | c :: s =>
    if c = unit '"' then some ([], s)
    else if c = unit '\\' then
      match s with
      | [] => none
      | e :: s =>
        if e = unit 'u' then
          match s with
          | w :: x :: y :: z :: s => do
            let u ← ofHex4 w x y z
            let (t, rest) ← unquote s
            return (u :: t, rest)
          | _ => none
        else do
          let u ← unescape e
          let (t, rest) ← unquote s
          return (u :: t, rest)
    else if c < 32 then none
    else do
      let (t, rest) ← unquote s
      return (c :: t, rest)

theorem unescape_shortEscape {c e : CodeUnit} (h : shortEscape c = some e) :
    e ≠ unit 'u' ∧ unescape e = some c := by
  simp only [shortEscape] at h
  split_ifs at h with h1 h2 h3 h4 h5 h6 h7
  all_goals
    cases h
    subst_vars
    exact ⟨by decide, by decide⟩

theorem shortEscape_none {c : CodeUnit} (h : shortEscape c = none) :
    c ≠ unit '"' ∧ c ≠ unit '\\' := by
  simp only [shortEscape] at h
  split_ifs at h with h1 h2 h3 h4 h5 h6 h7
  exact ⟨h6, h7⟩

@[simp] theorem unquote_closing (s : Str) : unquote (unit '"' :: s) = some ([], s) := by
  rw [unquote.eq_def]
  rfl

/-- A code unit printed as itself is read as itself. -/
theorem unquote_cons_self {c : CodeUnit} (hquote : c ≠ unit '"') (hslash : c ≠ unit '\\')
    (hctl : ¬ c < 32) (s : Str) :
    unquote (c :: s) = (unquote s).map fun r => (c :: r.1, r.2) := by
  rw [unquote.eq_def]
  simp only [if_neg hquote, if_neg hslash, if_neg hctl]
  cases unquote s <;> rfl

theorem plain_of_surrogate {c : CodeUnit} (h : 0xD800 ≤ c.toNat) :
    c ≠ unit '"' ∧ c ≠ unit '\\' ∧ ¬ c < 32 := by
  refine ⟨?_, ?_, ?_⟩
  · rintro rfl
    exact absurd h (by decide)
  · rintro rfl
    exact absurd h (by decide)
  · rw [UInt16.lt_iff_toNat_lt, show (32 : CodeUnit).toNat = 32 from rfl]
    omega

theorem isHigh_plain {c : CodeUnit} (h : isHigh c = true) :
    c ≠ unit '"' ∧ c ≠ unit '\\' ∧ ¬ c < 32 := by
  simp only [isHigh, Bool.and_eq_true, decide_eq_true_eq] at h
  exact plain_of_surrogate h.1

theorem isLow_plain {c : CodeUnit} (h : isLow c = true) :
    c ≠ unit '"' ∧ c ≠ unit '\\' ∧ ¬ c < 32 := by
  simp only [isLow, Bool.and_eq_true, decide_eq_true_eq] at h
  exact plain_of_surrogate (Nat.le_trans (by decide) h.1)

/-- One quoted code unit is read back as that code unit. -/
theorem unquote_quoteUnit (c : CodeUnit) (s : Str) :
    unquote (quoteUnit c ++ s) = (unquote s).map fun r => (c :: r.1, r.2) := by
  rw [quoteUnit]
  cases h : shortEscape c with
  | some e =>
    obtain ⟨hu, he⟩ := unescape_shortEscape h
    simp only [List.cons_append, List.nil_append]
    rw [unquote.eq_def]
    simp only [if_neg (show unit '\\' ≠ unit '"' by decide), if_true, if_neg hu, he,
      Option.bind_eq_bind, Option.bind_some, Option.pure_def]
    cases unquote s <;> rfl
  | none =>
    obtain ⟨hquote, hslash⟩ := shortEscape_none h
    simp only
    split
    · simp only [List.cons_append, hex4, List.nil_append]
      rw [unquote.eq_def]
      simp only [if_neg (show unit '\\' ≠ unit '"' by decide), if_true, ofHex4_hex4,
        Option.bind_eq_bind, Option.bind_some, Option.pure_def]
      cases unquote s <;> rfl
    · rename_i hplain
      simp only [Bool.or_eq_true, decide_eq_true_eq, not_or] at hplain
      exact unquote_cons_self hquote hslash hplain.1.1 s

/-- **Round trip of strings.** -/
theorem unquote_quoteUnits (s rest : Str) :
    unquote (quoteUnits s ++ unit '"' :: rest) = some (s, rest) := by
  induction s using quoteUnits.induct with
  | case1 => simp [quoteUnits]
  | case2 c =>
    rw [quoteUnits, unquote_quoteUnit]
    simp
  | case3 c d s hpair ih =>
    obtain ⟨hc, hd⟩ := Bool.and_eq_true_iff.mp hpair
    obtain ⟨hc1, hc2, hc3⟩ := isHigh_plain hc
    obtain ⟨hd1, hd2, hd3⟩ := isLow_plain hd
    rw [quoteUnits, if_pos hpair, List.cons_append, List.cons_append,
      unquote_cons_self hc1 hc2 hc3, unquote_cons_self hd1 hd2 hd3, ih]
    rfl
  | case4 c d s hpair ih =>
    rw [quoteUnits, if_neg hpair, List.append_assoc, unquote_quoteUnit, ih]
    rfl

/-- A quoted string ends where it ends, whatever follows. -/
theorem quote_append_inj {k k' s s' : Str} (h : quote k ++ s = quote k' ++ s') :
    k = k' ∧ s = s' := by
  have hquoted : ∀ k s : Str, quote k ++ s = unit '"' :: (quoteUnits k ++ unit '"' :: s) := by
    intro k s
    simp [quote]
  rw [hquoted, hquoted] at h
  have hunquote := congrArg unquote (List.cons.inj h).2
  rw [unquote_quoteUnits, unquote_quoteUnits] at hunquote
  exact Prod.mk.inj (Option.some.inj hunquote)

/-! ## Values -/

namespace Json

variable {N : Type} [NumberText N]

/-- The line break before an element or a closing bracket; none in the compact form. -/
def lineBreak (gap indent : Str) : Str := if gap = [] then [] else 10 :: indent

/-- The colon between a key and its value. -/
def colon (gap : Str) : Str := if gap = [] then [unit ':'] else [unit ':', unit ' ']

mutual

/-- The text of a value whose first line is indented by `indent`. -/
def render (gap : Str) : Str → Json N → Str
  | _, .null => js "null"
  | _, .bool b => if b then js "true" else js "false"
  | _, .num n => NumberText.toText n
  | _, .str s => quote s
  | _, .arr [] => js "[]"
  | indent, .arr (v :: vs) =>
    unit '[' :: lineBreak gap (indent ++ gap) ++ render gap (indent ++ gap) v ++
      renderElements gap (indent ++ gap) vs ++ lineBreak gap indent ++ [unit ']']
  | _, .obj [] => js "{}"
  | indent, .obj ((key, v) :: rest) =>
    unit '{' :: lineBreak gap (indent ++ gap) ++ quote key ++ colon gap ++
      render gap (indent ++ gap) v ++ renderMembers gap (indent ++ gap) rest ++
      lineBreak gap indent ++ [unit '}']

/-- The elements behind the first one, each behind its comma. -/
def renderElements (gap : Str) : Str → List (Json N) → Str
  | _, [] => []
  | indent, v :: vs =>
    unit ',' :: lineBreak gap indent ++ render gap indent v ++ renderElements gap indent vs

/-- The members behind the first one, each behind its comma. -/
def renderMembers (gap : Str) : Str → List (Str × Json N) → Str
  | _, [] => []
  | indent, (key, v) :: rest =>
    unit ',' :: lineBreak gap indent ++ quote key ++ colon gap ++ render gap indent v ++
      renderMembers gap indent rest

end

/-- `JSON.stringify(value)`. -/
def stringify (v : Json N) : Str := render [] [] v

/-- `JSON.stringify(value, null, 2)`. -/
def stringifyIndented (v : Json N) : Str := render [unit ' ', unit ' '] [] v

/-! ## The compact text -/

theorem renderElements_compact (vs : List (Json N)) :
    renderElements [] [] vs = ((vs.map stringify).map (js "," ++ ·)).flatten := by
  induction vs with
  | nil => rfl
  | cons v vs ih =>
    rw [renderElements, ih]
    rfl

theorem renderMembers_compact (members : List (Str × Json N)) :
    renderMembers [] [] members = ((members.map fun m => quote m.1 ++ js ":" ++
      stringify m.2).map (js "," ++ ·)).flatten := by
  induction members with
  | nil => rfl
  | cons m rest ih =>
    rw [renderMembers, ih]
    simp [lineBreak, colon, stringify, js, charUnits, unit]

theorem stringify_arr (xs : List (Json N)) :
    stringify (.arr xs) = js "[" ++ join (js ",") (xs.map stringify) ++ js "]" := by
  cases xs with
  | nil => rfl
  | cons v vs =>
    rw [List.map_cons, join_cons, ← renderElements_compact, stringify, render]
    simp [lineBreak, stringify, js, charUnits, unit]

theorem stringify_obj (members : List (Str × Json N)) :
    stringify (.obj members) = js "\x7b" ++ join (js ",") (members.map fun m =>
      quote m.1 ++ js ":" ++ stringify m.2) ++ js "\x7d" := by
  cases members with
  | nil => rfl
  | cons m rest =>
    rw [List.map_cons, join_cons, ← renderMembers_compact, stringify, render]
    simp [lineBreak, colon, stringify, js, charUnits, unit]

end Json

end Js
