import Clawback.Js.Stringify

/-!
# `JSON.parse`

A recursive-descent reader of JSON text, and the round trip: `parse` gives back every
value with unique keys that `render` printed, compact or indented.

The reader is driven by fuel; a text's length is always enough (`parseValue_render`).
-/

namespace Js.Json

variable {N : Type}

/-- White space between tokens. -/
def isSpace (c : CodeUnit) : Bool := c == unit ' ' || c == 10 || c == 13 || c == 9

/-- Drop leading white space. -/
def skipSpace (s : Str) : Str := s.dropWhile isSpace

/-- What follows a given prefix. -/
def expect : Str → Str → Option Str
  | [], s => some s
  | _ :: _, [] => none
  | c :: word, d :: s => if c = d then expect word s else none

/-- Set a member: an existing key keeps its place and takes the new value. -/
def setMember (key : Str) (v : Json N) : List (Str × Json N) → List (Str × Json N)
  | [] => [(key, v)]
  | m :: rest => if m.1 = key then (key, v) :: rest else m :: setMember key v rest

/-- The object the members of a text create one after another. -/
def createMembers (members : List (Str × Json N)) : List (Str × Json N) :=
  members.foldl (fun acc m => setMember m.1 m.2 acc) []

variable [NumberText N]

mutual

/-- Read one value. -/
def parseValue : Nat → Str → Option (Json N × Str)
  | 0, _ => none
  | fuel + 1, s =>
    match skipSpace s with
    | [] => none
    | c :: rest =>
      if c = unit '"' then do
        let (t, rest) ← unquote rest
        return (.str t, rest)
      else if c = unit '[' then
        match skipSpace rest with
        | [] => none
        | d :: rest =>
          if d = unit ']' then some (.arr [], rest)
          else do
            let (vs, rest) ← parseElements fuel (d :: rest)
            return (.arr vs, rest)
      else if c = unit '{' then
        match skipSpace rest with
        | [] => none
        | d :: rest =>
          if d = unit '}' then some (.obj [], rest)
          else do
            let (members, rest) ← parseMembers fuel (d :: rest)
            return (.obj (createMembers members), rest)
      else if c = unit 'n' then do
        let rest ← expect (js "ull") rest
        return (.null, rest)
      else if c = unit 't' then do
        let rest ← expect (js "rue") rest
        return (.bool true, rest)
      else if c = unit 'f' then do
        let rest ← expect (js "alse") rest
        return (.bool false, rest)
      else do
        let n ← NumberText.ofText ((c :: rest).takeWhile isNumeric)
        return (.num n, (c :: rest).dropWhile isNumeric)

/-- Read the elements up to a closing bracket. -/
def parseElements : Nat → Str → Option (List (Json N) × Str)
  | 0, _ => none
  | fuel + 1, s => do
    let (v, rest) ← parseValue fuel s
    match skipSpace rest with
    | [] => none
    | c :: rest =>
      if c = unit ']' then some ([v], rest)
      else if c = unit ',' then do
        let (vs, rest) ← parseElements fuel rest
        return (v :: vs, rest)
      else none

/-- Read the members up to a closing brace. -/
def parseMembers : Nat → Str → Option (List (Str × Json N) × Str)
  | 0, _ => none
  | fuel + 1, s =>
    match skipSpace s with
    | [] => none
    | q :: rest =>
      if q = unit '"' then do
        let (key, rest) ← unquote rest
        match skipSpace rest with
        | [] => none
        | c :: rest =>
          if c = unit ':' then do
            let (v, rest) ← parseValue fuel rest
            match skipSpace rest with
            | [] => none
            | c :: rest =>
              if c = unit '}' then some ([(key, v)], rest)
              else if c = unit ',' then do
                let (members, rest) ← parseMembers fuel rest
                return ((key, v) :: members, rest)
              else none
          else none
      else none

end

/-- `JSON.parse(text)`. -/
def parse (text : Str) : Option (Json N) :=
  match parseValue text.length text with
  | some (v, rest) => if skipSpace rest = [] then some v else none
  | none => none

/-! ## White space -/

omit [NumberText N] in
/-- A text that starts with a token. -/
theorem skipSpace_cons {c : CodeUnit} (hc : isSpace c = false) (s : Str) :
    skipSpace (c :: s) = c :: s := by
  simp [skipSpace, hc]

theorem skipSpace_append {ws : Str} (hws : ∀ c ∈ ws, isSpace c = true) (s : Str) :
    skipSpace (ws ++ s) = skipSpace s :=
  List.dropWhile_append_of_pos hws

/-- An indentation: white space only. -/
def Blank (s : Str) : Prop := ∀ c ∈ s, isSpace c = true

@[simp] theorem blank_append {s t : Str} : Blank (s ++ t) ↔ Blank s ∧ Blank t :=
  List.forall_mem_append

theorem blank_lineBreak (gap : Str) {indent : Str} (h : Blank indent) :
    Blank (lineBreak gap indent) := by
  rw [lineBreak]
  split
  · intro c hc
    cases hc
  · intro c hc
    rcases List.mem_cons.mp hc with rfl | hc
    · rfl
    · exact h c hc

/-- A text that does not go on with the characters of a number. -/
def Stops (s : Str) : Prop := ∀ c ∈ s.head?, isNumeric c = false

theorem stops_nil : Stops [] := fun _ hc => by cases hc

theorem stops_cons {c : CodeUnit} (hc : isNumeric c = false) (s : Str) : Stops (c :: s) := by
  intro d hd
  rw [List.head?_cons, Option.mem_some_iff] at hd
  exact hd ▸ hc

theorem isNumeric_of_isSpace {c : CodeUnit} (h : isSpace c = true) : isNumeric c = false := by
  simp only [isSpace, Bool.or_eq_true, beq_iff_eq] at h
  rcases h with ((rfl | rfl) | rfl) | rfl <;> decide

theorem stops_append {ws s : Str} (hws : Blank ws) (hs : Stops s) : Stops (ws ++ s) := by
  cases ws with
  | nil => exact hs
  | cons c ws => exact stops_cons (isNumeric_of_isSpace (hws c List.mem_cons_self)) _

/-! ## Tokens -/

theorem parseValue_blank {ws : Str} (hws : Blank ws) (fuel : Nat) (s : Str) :
    parseValue (N := N) fuel (ws ++ s) = parseValue fuel s := by
  cases fuel with
  | zero => rfl
  | succ fuel => rw [parseValue, parseValue, skipSpace_append hws]

theorem parseElements_blank {ws : Str} (hws : Blank ws) (fuel : Nat) (s : Str) :
    parseElements (N := N) fuel (ws ++ s) = parseElements fuel s := by
  cases fuel with
  | zero => rfl
  | succ fuel => rw [parseElements, parseElements, parseValue_blank hws]

theorem parseMembers_blank {ws : Str} (hws : Blank ws) (fuel : Nat) (s : Str) :
    parseMembers (N := N) fuel (ws ++ s) = parseMembers fuel s := by
  cases fuel with
  | zero => rfl
  | succ fuel => rw [parseMembers, parseMembers, skipSpace_append hws]

theorem isNumeric_not_token {c : CodeUnit} (h : isNumeric c = true) :
    isSpace c = false ∧ c ≠ unit '"' ∧ c ≠ unit '[' ∧ c ≠ unit '{' ∧ c ≠ unit 'n' ∧
      c ≠ unit 't' ∧ c ≠ unit 'f' ∧ c ≠ unit ']' := by
  refine ⟨?_, ?_, ?_, ?_, ?_, ?_, ?_, ?_⟩
  · by_contra hspace
    rw [isNumeric_of_isSpace (by simpa using hspace)] at h
    cases h
  all_goals
    rintro rfl
    exact absurd h (by decide)

/-- A value's text starts with a token that is not a closing bracket. -/
theorem render_head (gap indent : Str) (v : Json N) :
    ∃ c s, render gap indent v = c :: s ∧ isSpace c = false ∧ c ≠ unit ']' := by
  cases v with
  | null => exact ⟨_, _, rfl, by decide, by decide⟩
  | bool b => cases b <;> exact ⟨_, _, rfl, by decide, by decide⟩
  | num n =>
    cases h : NumberText.toText n with
    | nil => exact absurd h (NumberText.toText_ne_nil n)
    | cons c s =>
      have hc := isNumeric_not_token (NumberText.isNumeric_toText n c (h ▸ List.mem_cons_self))
      exact ⟨c, s, by rw [render, h], hc.1, hc.2.2.2.2.2.2.2⟩
  | str s => exact ⟨_, _, rfl, by decide, by decide⟩
  | arr xs =>
    cases xs with
    | nil => exact ⟨_, _, rfl, by decide, by decide⟩
    | cons v vs => exact ⟨unit '[', _, by rw [render]; rfl, by decide, by decide⟩
  | obj members =>
    cases members with
    | nil => exact ⟨_, _, rfl, by decide, by decide⟩
    | cons m rest => exact ⟨unit '{', _, by rw [render]; rfl, by decide, by decide⟩

theorem parseValue_num (n : N) (fuel : Nat) {rest : Str} (hrest : Stops rest) :
    parseValue (fuel + 1) (NumberText.toText n ++ rest) = some (.num n, rest) := by
  have hall := NumberText.isNumeric_toText n
  have htake : (NumberText.toText n ++ rest).takeWhile isNumeric = NumberText.toText n := by
    rw [List.takeWhile_append_of_pos hall]
    cases rest with
    | nil => simp
    | cons c rest => simp [hrest c rfl]
  have hdrop : (NumberText.toText n ++ rest).dropWhile isNumeric = rest := by
    rw [List.dropWhile_append_of_pos hall]
    cases rest with
    | nil => rfl
    | cons c rest => simp [hrest c rfl]
  have hread := NumberText.ofText_toText n
  cases h : NumberText.toText n with
  | nil => exact absurd h (NumberText.toText_ne_nil n)
  | cons c s =>
    obtain ⟨hspace, h1, h2, h3, h4, h5, h6, _⟩ :=
      isNumeric_not_token (hall c (h ▸ List.mem_cons_self))
    rw [h] at htake hdrop hread
    rw [List.cons_append] at htake hdrop ⊢
    rw [parseValue, skipSpace_cons hspace]
    simp only [if_neg h1, if_neg h2, if_neg h3, if_neg h4, if_neg h5, if_neg h6, htake, hdrop,
      hread, Option.bind_eq_bind, Option.bind_some, Option.pure_def]

omit [NumberText N] in
theorem setMember_of_not_mem {key : Str} {v : Json N} {members : List (Str × Json N)}
    (h : key ∉ members.map Prod.fst) : setMember key v members = members ++ [(key, v)] := by
  induction members with
  | nil => rfl
  | cons m rest ih =>
    rw [List.map_cons, List.mem_cons, not_or] at h
    rw [setMember, if_neg (Ne.symm h.1), ih h.2, List.cons_append]

omit [NumberText N] in
/-- Members with unique keys are created as they are listed. -/
theorem createMembers_of_nodup {members : List (Str × Json N)}
    (h : (members.map Prod.fst).Nodup) : createMembers members = members := by
  have hfold : ∀ (rest acc : List (Str × Json N)), ((acc ++ rest).map Prod.fst).Nodup →
      rest.foldl (fun acc m => setMember m.1 m.2 acc) acc = acc ++ rest := by
    intro rest
    induction rest with
    | nil => intro acc _; simp
    | cons m rest ih =>
      intro acc hnodup
      have hm : m.1 ∉ acc.map Prod.fst := by
        rw [List.map_append, List.map_cons] at hnodup
        intro hmem
        exact List.disjoint_of_nodup_append hnodup hmem List.mem_cons_self
      rw [List.foldl_cons, setMember_of_not_mem hm, ih _ (by simpa using hnodup)]
      simp
  rw [createMembers, hfold members [] h, List.nil_append]

/-! ## The round trip -/

/-- The elements of a list behind their first comma. -/
def elementsText (gap indent : Str) (vs : List (Json N)) : Str :=
  (renderElements gap indent vs).tail

/-- The members of a list behind their first comma. -/
def membersText (gap indent : Str) (members : List (Str × Json N)) : Str :=
  (renderMembers gap indent members).tail

theorem elementsText_cons (gap indent : Str) (v : Json N) (vs : List (Json N)) :
    elementsText gap indent (v :: vs) =
      lineBreak gap indent ++ (render gap indent v ++ renderElements gap indent vs) := by
  rw [elementsText, renderElements]
  simp

theorem renderElements_cons (gap indent : Str) (v : Json N) (vs : List (Json N)) :
    renderElements gap indent (v :: vs) = unit ',' :: elementsText gap indent (v :: vs) := by
  rw [elementsText, renderElements]
  simp

theorem membersText_cons (gap indent key : Str) (v : Json N) (rest : List (Str × Json N)) :
    membersText gap indent ((key, v) :: rest) = lineBreak gap indent ++
      (quote key ++ (colon gap ++ (render gap indent v ++ renderMembers gap indent rest))) := by
  rw [membersText, renderMembers]
  simp

theorem renderMembers_cons (gap indent : Str) (m : Str × Json N) (rest : List (Str × Json N)) :
    renderMembers gap indent (m :: rest) = unit ',' :: membersText gap indent (m :: rest) := by
  rw [membersText, renderMembers]
  simp

theorem render_arr_cons (gap indent : Str) (v : Json N) (vs : List (Json N)) :
    render gap indent (.arr (v :: vs)) = unit '[' ::
      (elementsText gap (indent ++ gap) (v :: vs) ++ (lineBreak gap indent ++ [unit ']'])) := by
  rw [render, elementsText_cons]
  simp

theorem render_obj_cons (gap indent : Str) (m : Str × Json N) (rest : List (Str × Json N)) :
    render gap indent (.obj (m :: rest)) = unit '{' ::
      (membersText gap (indent ++ gap) (m :: rest) ++ (lineBreak gap indent ++ [unit '}'])) := by
  rw [render, membersText_cons]
  simp

theorem render_length_pos (gap indent : Str) (v : Json N) :
    0 < (render gap indent v).length := by
  obtain ⟨c, s, h, _⟩ := render_head gap indent v
  rw [h, List.length_cons]
  omega

theorem parseValue_arr {fuel : Nat} {c : CodeUnit} {ws s t : Str} (ht : t = ws ++ c :: s)
    (hws : Blank ws) (hspace : isSpace c = false) (hc : c ≠ unit ']') :
    parseValue (N := N) (fuel + 1) (unit '[' :: t) =
      (parseElements fuel t).map fun r => (.arr r.1, r.2) := by
  rw [ht, parseElements_blank hws, parseValue, skipSpace_cons (by decide)]
  simp only [if_neg (show unit '[' ≠ unit '"' by decide), if_true, skipSpace_append hws,
    skipSpace_cons hspace, if_neg hc]
  cases parseElements (N := N) fuel (c :: s) <;> rfl

theorem parseValue_obj {fuel : Nat} {ws s t : Str} (ht : t = ws ++ unit '"' :: s)
    (hws : Blank ws) :
    parseValue (N := N) (fuel + 1) (unit '{' :: t) =
      (parseMembers fuel t).map fun r => (.obj (createMembers r.1), r.2) := by
  rw [ht, parseMembers_blank hws, parseValue, skipSpace_cons (by decide)]
  simp only [if_neg (show unit '{' ≠ unit '"' by decide),
    if_neg (show unit '{' ≠ unit '[' by decide), if_true, skipSpace_append hws,
    skipSpace_cons (show isSpace (unit '"') = false by decide),
    if_neg (show unit '"' ≠ unit '}' by decide)]
  cases parseMembers (N := N) fuel (unit '"' :: s) <;> rfl

theorem parseElements_step {fuel : Nat} {s rest : Str} {v : Json N}
    (h : parseValue fuel s = some (v, rest)) :
    parseElements (fuel + 1) s =
      match skipSpace rest with
      | [] => none
      | c :: rest =>
        if c = unit ']' then some ([v], rest)
        else if c = unit ',' then
          (parseElements fuel rest).map fun r => (v :: r.1, r.2)
        else none := by
  rw [parseElements, h]
  simp only [Option.bind_eq_bind, Option.bind_some]
  cases skipSpace rest with
  | nil => rfl
  | cons c rest =>
    simp only
    cases parseElements (N := N) fuel rest <;> rfl

theorem parseMembers_step {fuel : Nat} {key s rest : Str} {v : Json N}
    (h : parseValue fuel s = some (v, rest)) :
    parseMembers (fuel + 1) (quote key ++ unit ':' :: s) =
      match skipSpace rest with
      | [] => none
      | c :: rest =>
        if c = unit '}' then some ([(key, v)], rest)
        else if c = unit ',' then
          (parseMembers fuel rest).map fun r => ((key, v) :: r.1, r.2)
        else none := by
  rw [parseMembers, quote, List.cons_append, skipSpace_cons (by decide)]
  simp only [if_true, List.append_assoc, List.singleton_append, unquote_quoteUnits,
    Option.bind_eq_bind, Option.bind_some,
    skipSpace_cons (show isSpace (unit ':') = false by decide), h]
  cases skipSpace rest with
  | nil => rfl
  | cons c rest =>
    simp only
    cases parseMembers (N := N) fuel rest <;> rfl

omit [NumberText N] in
theorem colon_append (gap s : Str) :
    ∃ ws, Blank ws ∧ colon gap ++ s = unit ':' :: (ws ++ s) := by
  rw [colon]
  split
  · refine ⟨[], ?_, rfl⟩
    intro c hc
    cases hc
  · refine ⟨[unit ' '], ?_, rfl⟩
    intro c hc
    rw [List.mem_singleton.mp hc]
    rfl

/-- What follows a value inside an array or an object does not go on with a number. -/
theorem stops_elements (gap indent : Str) (vs : List (Json N)) {close s : Str}
    (hclose : Blank close) (hs : Stops s) :
    Stops (renderElements gap indent vs ++ (close ++ s)) := by
  cases vs with
  | nil =>
    rw [renderElements, List.nil_append]
    exact stops_append hclose hs
  | cons v vs =>
    rw [renderElements_cons]
    exact stops_cons (by decide) _

theorem stops_members (gap indent : Str) (members : List (Str × Json N)) {close s : Str}
    (hclose : Blank close) (hs : Stops s) :
    Stops (renderMembers gap indent members ++ (close ++ s)) := by
  cases members with
  | nil =>
    rw [renderMembers, List.nil_append]
    exact stops_append hclose hs
  | cons m rest =>
    rw [renderMembers_cons]
    exact stops_cons (by decide) _

mutual

/-- Reading a printed value gives the value and the text behind it. -/
theorem parseValue_render {gap : Str} (hgap : Blank gap) :
    ∀ (v : Json N) {indent rest : Str} {fuel : Nat}, UniqueKeys v →
    Blank indent → Stops rest → (render gap indent v).length ≤ fuel →
    parseValue fuel (render gap indent v ++ rest) = some (v, rest)
  | v, indent, rest, 0, _, _, _, hfuel => by
    have := render_length_pos gap indent v
    omega
  | .null, _, _, fuel + 1, _, _, _, _ => by
    rw [render, parseValue]
    rfl
  | .bool true, _, _, fuel + 1, _, _, _, _ => by
    rw [render, parseValue]
    rfl
  | .bool false, _, _, fuel + 1, _, _, _, _ => by
    rw [render, parseValue]
    rfl
  | .num n, _, _, fuel + 1, _, _, hrest, _ => by
    rw [render]
    exact parseValue_num n fuel hrest
  | .str s, _, rest, fuel + 1, _, _, _, _ => by
    rw [render, quote, parseValue, List.cons_append, skipSpace_cons (by decide)]
    simp only [if_true, List.append_assoc, List.singleton_append, unquote_quoteUnits]
    rfl
  | .arr [], _, _, fuel + 1, _, _, _, _ => by
    rw [render, parseValue]
    rfl
  | .arr (v :: vs), indent, rest, fuel + 1, hkeys, hindent, _, hfuel => by
    have hinner : Blank (indent ++ gap) := blank_append.mpr ⟨hindent, hgap⟩
    rw [render_arr_cons] at hfuel ⊢
    simp only [List.length_cons, List.length_append, List.length_nil] at hfuel
    obtain ⟨c, s, hhead, hspace, hc⟩ := render_head gap (indent ++ gap) v
    have ht : elementsText gap (indent ++ gap) (v :: vs) ++
        (lineBreak gap indent ++ unit ']' :: rest) = lineBreak gap (indent ++ gap) ++ c ::
          (s ++ (renderElements gap (indent ++ gap) vs ++
            (lineBreak gap indent ++ unit ']' :: rest))) := by
      rw [elementsText_cons, hhead]
      simp
    have hrec : parseElements fuel (elementsText gap (indent ++ gap) (v :: vs) ++
        (lineBreak gap indent ++ unit ']' :: rest)) = some (v :: vs, rest) :=
      parseElements_render hgap (v :: vs) (by simp) hkeys hinner (blank_lineBreak gap hindent)
        (by omega)
    simp only [List.cons_append, List.append_assoc, List.nil_append]
    rw [parseValue_arr ht (blank_lineBreak gap hinner) hspace hc, hrec]
    rfl
  | .obj [], _, _, fuel + 1, _, _, _, _ => by
    rw [render, parseValue]
    rfl
  | .obj ((key, v) :: members), indent, rest, fuel + 1, hkeys, hindent, _, hfuel => by
    have hinner : Blank (indent ++ gap) := blank_append.mpr ⟨hindent, hgap⟩
    rw [render_obj_cons] at hfuel ⊢
    simp only [List.length_cons, List.length_append, List.length_nil] at hfuel
    have ht : membersText gap (indent ++ gap) ((key, v) :: members) ++
        (lineBreak gap indent ++ unit '}' :: rest) = lineBreak gap (indent ++ gap) ++
          unit '"' :: (quoteUnits key ++ unit '"' :: (colon gap ++
            (render gap (indent ++ gap) v ++ (renderMembers gap (indent ++ gap) members ++
              (lineBreak gap indent ++ unit '}' :: rest))))) := by
      rw [membersText_cons, quote]
      simp
    have hrec : parseMembers fuel (membersText gap (indent ++ gap) ((key, v) :: members) ++
        (lineBreak gap indent ++ unit '}' :: rest)) = some ((key, v) :: members, rest) :=
      parseMembers_render hgap ((key, v) :: members) (by simp) hkeys.2 hinner
        (blank_lineBreak gap hindent) (by omega)
    simp only [List.cons_append, List.append_assoc, List.nil_append]
    rw [parseValue_obj ht (blank_lineBreak gap hinner), hrec, Option.map_some,
      createMembers_of_nodup hkeys.1]

theorem parseElements_render {gap : Str} (hgap : Blank gap) :
    ∀ (vs : List (Json N)) {indent close rest : Str} {fuel : Nat}, vs ≠ [] → UniqueKeysList vs → Blank indent → Blank close →
    (elementsText gap indent vs).length < fuel →
    parseElements fuel (elementsText gap indent vs ++ (close ++ unit ']' :: rest)) =
      some (vs, rest)
  | [], _, _, _, _, hne, _, _, _, _ => absurd rfl hne
  | v :: vs, indent, close, rest, 0, _, _, _, _, hfuel => by omega
  | v :: vs, indent, close, rest, fuel + 1, _, hkeys, hindent, hclose, hfuel => by
    rw [elementsText_cons] at hfuel ⊢
    simp only [List.length_append] at hfuel
    have hvalue : parseValue fuel (render gap indent v ++ (renderElements gap indent vs ++
        (close ++ unit ']' :: rest))) =
          some (v, renderElements gap indent vs ++ (close ++ unit ']' :: rest)) :=
      parseValue_render hgap v hkeys.1 hindent
        (stops_elements gap indent vs hclose (stops_cons (by decide) _)) (by omega)
    simp only [List.append_assoc]
    rw [parseElements_blank (blank_lineBreak gap hindent), parseElements_step hvalue]
    cases vs with
    | nil =>
      rw [renderElements, List.nil_append, skipSpace_append hclose, skipSpace_cons (by decide)]
      simp
    | cons w vs =>
      rw [renderElements_cons] at hfuel ⊢
      simp only [List.length_cons] at hfuel
      have hrec : parseElements fuel (elementsText gap indent (w :: vs) ++
          (close ++ unit ']' :: rest)) = some (w :: vs, rest) :=
        parseElements_render hgap (w :: vs) (by simp) hkeys.2 hindent hclose (by omega)
      rw [List.cons_append, skipSpace_cons (by decide)]
      simp only [if_neg (show unit ',' ≠ unit ']' by decide), if_true, hrec, Option.map_some]

theorem parseMembers_render {gap : Str} (hgap : Blank gap) :
    ∀ (members : List (Str × Json N)) {indent close rest : Str} {fuel : Nat}, members ≠ [] → UniqueKeysMembers members → Blank indent → Blank close →
    (membersText gap indent members).length < fuel →
    parseMembers fuel (membersText gap indent members ++ (close ++ unit '}' :: rest)) =
      some (members, rest)
  | [], _, _, _, _, hne, _, _, _, _ => absurd rfl hne
  | _ :: _, _, _, _, 0, _, _, _, _, hfuel => by omega
  | (key, v) :: members, indent, close, rest, fuel + 1, _, hkeys, hindent, hclose, hfuel => by
    rw [membersText_cons] at hfuel ⊢
    simp only [List.length_append] at hfuel
    have hvalue : parseValue fuel (render gap indent v ++ (renderMembers gap indent members ++
        (close ++ unit '}' :: rest))) =
          some (v, renderMembers gap indent members ++ (close ++ unit '}' :: rest)) :=
      parseValue_render hgap v hkeys.1 hindent
        (stops_members gap indent members hclose (stops_cons (by decide) _)) (by omega)
    obtain ⟨ws, hws, hcolon⟩ := colon_append gap (render gap indent v ++
      (renderMembers gap indent members ++ (close ++ unit '}' :: rest)))
    rw [← parseValue_blank hws] at hvalue
    simp only [List.append_assoc]
    rw [parseMembers_blank (blank_lineBreak gap hindent), hcolon, parseMembers_step hvalue]
    cases members with
    | nil =>
      rw [renderMembers, List.nil_append, skipSpace_append hclose, skipSpace_cons (by decide)]
      simp
    | cons m members =>
      rw [renderMembers_cons] at hfuel ⊢
      simp only [List.length_cons] at hfuel
      have hrec : parseMembers fuel (membersText gap indent (m :: members) ++
          (close ++ unit '}' :: rest)) = some (m :: members, rest) :=
        parseMembers_render hgap (m :: members) (by simp) hkeys.2 hindent hclose (by omega)
      rw [List.cons_append, skipSpace_cons (by decide)]
      simp only [if_neg (show unit ',' ≠ unit '}' by decide), if_true, hrec, Option.map_some]

end

/-- **Round trip.** `JSON.parse` undoes `JSON.stringify`, compact or indented. -/
theorem parse_render {gap : Str} (hgap : Blank gap) (v : Json N) (hkeys : UniqueKeys v) :
    parse (render gap [] v) = some v := by
  have hblank : Blank ([] : Str) := fun c hc => by cases hc
  have h : parseValue (render gap [] v).length (render gap [] v ++ []) = some (v, []) :=
    parseValue_render hgap v hkeys hblank stops_nil (Nat.le_refl _)
  rw [List.append_nil] at h
  rw [parse, h]
  rfl

theorem parse_stringify {v : Json N} (hkeys : UniqueKeys v) :
    parse (stringify v) = some v :=
  parse_render (fun c hc => by cases hc) v hkeys

theorem parse_stringifyIndented {v : Json N} (hkeys : UniqueKeys v) :
    parse (stringifyIndented v) = some v :=
  parse_render (fun c hc => by simp at hc; exact hc ▸ rfl) v hkeys

/-- **Unique readability.** The compact text determines the value. -/
theorem stringify_injective {v w : Json N} (hv : UniqueKeys v) (hw : UniqueKeys w)
    (h : stringify v = stringify w) : v = w := by
  have hparse := parse_stringify hv
  rw [h, parse_stringify hw] at hparse
  exact (Option.some.inj hparse).symm

end Js.Json
