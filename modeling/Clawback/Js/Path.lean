import Clawback.Js.Text

/-!
# POSIX paths

`path.posix.normalize` and `path.posix.join`, and the place that a path stands for: the names on
the way to it from the root, in a file system without symbolic links.

* `resolve_normalize`: a path and its normal form stand for the same place.
* `resolve_join`: a name joined to a directory stands for the entry of that name.
* `normalize_of_absolute`: the normal form of an absolute path is written from its place.
-/

namespace Js

namespace Path

def slash : CodeUnit := unit '/'

def dot : Str := js "."

def dotDot : Str := js ".."

/-- What stands between the separators of a path. -/
def segments (path : Str) : List Str := path.splitOn slash

/-- Names with separators between them. -/
def unite (names : List Str) : Str := [slash].intercalate names

def isAbsolute (path : Str) : Bool := path.head? == some slash

/-! ## Normal forms -/

/-- What `normalizeString` makes of one more segment; the names so far stand in reverse. -/
def step (absolute : Bool) (names : List Str) (segment : Str) : List Str :=
  if segment = [] ∨ segment = dot then names
  else if segment = dotDot then
    match names with
    | [] => if absolute then [] else [dotDot]
    | last :: before =>
      if last = dotDot then if absolute then names else dotDot :: names else before
  else segment :: names

def normalizeString (absolute : Bool) (path : Str) : List Str :=
  ((segments path).foldl (step absolute) []).reverse

/-- `posix.normalize(path)` -/
def normalize (path : Str) : Str :=
  if path = [] then dot
  else
    let names := normalizeString (isAbsolute path) path
    let trailing := if path.getLast? = some slash then [slash] else []
    if names = [] then
      if isAbsolute path then [slash] else dot ++ trailing
    else (if isAbsolute path then [slash] else []) ++ unite names ++ trailing

/-- `posix.join(...paths)` -/
def join (paths : List Str) : Str :=
  if paths.filter (fun path => path ≠ []) = [] then dot
  else normalize (unite (paths.filter fun path => path ≠ []))

theorem ne_nil_of_isAbsolute {path : Str} (h : isAbsolute path = true) : path ≠ [] := by
  rintro rfl
  cases h

/-! ## Places -/

/-- One more segment on the way from the root; the names so far stand in reverse. -/
def enter (place : List Str) (segment : Str) : List Str :=
  if segment = [] ∨ segment = dot then place
  else if segment = dotDot then place.tail
  else segment :: place

/-- The place a path stands for; a relative path starts in the working directory. -/
def resolve (cwd : List Str) (path : Str) : List Str :=
  ((segments path).foldl enter (if isAbsolute path then [] else cwd.reverse)).reverse

/-- The name of an entry of a directory. -/
structure IsName (name : Str) : Prop where
  ne_nil : name ≠ []
  ne_dot : name ≠ dot
  ne_dotDot : name ≠ dotDot
  slash_notMem : slash ∉ name

theorem enter_skip {segment : Str} (h : segment = [] ∨ segment = dot) (place : List Str) :
    enter place segment = place := if_pos h

theorem enter_dotDot (place : List Str) : enter place dotDot = place.tail := rfl

theorem enter_name {name : Str} (hskip : ¬(name = [] ∨ name = dot)) (hup : name ≠ dotDot)
    (place : List Str) : enter place name = name :: place := by
  unfold enter
  rw [if_neg hskip, if_neg hup]

theorem segments_append (s t : Str) : segments (s ++ slash :: t) = segments s ++ segments t :=
  List.splitOn_append_cons_self s t

theorem segments_of_notMem {s : Str} (h : slash ∉ s) : segments s = [s] :=
  List.splitOn_eq_singleton h

theorem segments_slash (s : Str) : segments (slash :: s) = [] :: segments s := by
  rw [← List.nil_append (slash :: s), segments_append, segments_of_notMem List.not_mem_nil]
  rfl

theorem segments_unite {names : List Str} (h : ∀ name ∈ names, slash ∉ name) (hne : names ≠ []) :
    segments (unite names) = names := List.splitOn_intercalate slash h hne

theorem slash_notMem_of_mem_segments {path s : Str} (hs : s ∈ segments path) : slash ∉ s := by
  induction path generalizing s with
  | nil =>
    rw [segments_of_notMem List.not_mem_nil] at hs
    rw [List.mem_singleton.mp hs]
    exact List.not_mem_nil
  | cons c path ih =>
    by_cases hc : c = slash
    · subst hc
      rw [segments_slash] at hs
      rcases List.mem_cons.mp hs with rfl | hs
      · exact List.not_mem_nil
      · exact ih hs
    · have hcons : segments (c :: path) = (segments path).modifyHead (List.cons c) := by
        unfold segments
        rw [List.splitOn_cons_eq_if_modifyHead, if_neg (by simpa using hc)]
      rw [hcons] at hs
      cases hrest : segments path with
      | nil => exact absurd hrest (List.splitOn_ne_nil slash path)
      | cons first rest =>
        rw [hrest, List.modifyHead_cons] at hs
        have hbefore : ∀ t ∈ first :: rest, slash ∉ t := fun t ht => ih (hrest ▸ ht)
        rcases List.mem_cons.mp hs with rfl | hs
        · intro hmem
          rcases List.mem_cons.mp hmem with heq | hmem
          · exact hc heq.symm
          · exact hbefore first List.mem_cons_self hmem
        · exact hbefore s (List.mem_cons_of_mem _ hs)

/-- What stands after the last separator. -/
def lastSegment (path : Str) : Str := (segments path).getLastD []

theorem lastSegment_of_notMem {s : Str} (h : slash ∉ s) : lastSegment s = s := by
  rw [lastSegment, segments_of_notMem h]
  rfl

theorem dropLast_append_lastSegment (path : Str) :
    (segments path).dropLast ++ [lastSegment path] = segments path := by
  have hne : segments path ≠ [] := List.splitOn_ne_nil slash path
  rw [lastSegment, List.getLastD_eq_getLast?, List.getLast?_eq_some_getLast hne, Option.getD_some,
    List.dropLast_append_getLast hne]

theorem slash_notMem_lastSegment (path : Str) : slash ∉ lastSegment path := by
  have hmem : lastSegment path ∈ segments path := by
    rw [← dropLast_append_lastSegment path]
    exact List.mem_append_right _ (List.mem_singleton_self _)
  exact slash_notMem_of_mem_segments hmem

theorem unite_append_singleton (names : List Str) (last t : Str) :
    unite (names ++ [last ++ t]) = unite (names ++ [last]) ++ t := by
  induction names with
  | nil => simp [unite, List.intercalate]
  | cons name names ih =>
    unfold unite at ih ⊢
    cases names with
    | nil => simp [List.intercalate]
    | cons next names =>
      simp only [List.cons_append, List.intercalate_cons_cons, List.append_assoc] at ih ⊢
      rw [ih]

/-- What is appended belongs to the last segment. -/
theorem segments_append_of_notMem (s : Str) {t : Str} (h : slash ∉ t) :
    segments (s ++ t) = (segments s).dropLast ++ [lastSegment s ++ t] := by
  have hslashes : ∀ name ∈ (segments s).dropLast ++ [lastSegment s ++ t], slash ∉ name := by
    intro name hname
    rcases List.mem_append.mp hname with hname | hname
    · exact slash_notMem_of_mem_segments (List.mem_of_mem_dropLast hname)
    · rw [List.mem_singleton.mp hname, List.mem_append, not_or]
      exact ⟨slash_notMem_lastSegment s, h⟩
  have hs : unite ((segments s).dropLast ++ [lastSegment s]) = s := by
    rw [dropLast_append_lastSegment]
    exact List.intercalate_splitOn slash
  rw [← segments_unite hslashes (by simp), unite_append_singleton, hs]

/-- A separator at the end leads nowhere else. -/
theorem foldl_enter_trailing (s : Str) (last : Option CodeUnit) (place : List Str) :
    (segments (s ++ if last = some slash then [slash] else [])).foldl enter place =
      (segments s).foldl enter place := by
  by_cases h : last = some slash
  · rw [if_pos h, segments_append, List.foldl_append, segments_of_notMem List.not_mem_nil]
    rfl
  · rw [if_neg h, List.append_nil]

/-! ## A path and its normal form -/

/-- What `normalizeString` has kept. -/
structure Normal (absolute : Bool) (names : List Str) : Prop where
  proper : ∀ name ∈ names, name ≠ [] ∧ name ≠ dot ∧ slash ∉ name
  above : absolute = true → dotDot ∉ names

theorem Normal.tail {absolute : Bool} {last : Str} {before : List Str}
    (h : Normal absolute (last :: before)) : Normal absolute before :=
  ⟨fun name hname => h.proper name (List.mem_cons_of_mem _ hname),
    fun habsolute hmem => h.above habsolute (List.mem_cons_of_mem _ hmem)⟩

theorem Normal.cons {absolute : Bool} {names : List Str} (h : Normal absolute names) {name : Str}
    (hname : name ≠ [] ∧ name ≠ dot ∧ slash ∉ name)
    (habove : absolute = true → name ≠ dotDot) : Normal absolute (name :: names) := by
  refine ⟨fun other hother => ?_, fun habsolute hmem => ?_⟩
  · rcases List.mem_cons.mp hother with rfl | hother
    · exact hname
    · exact h.proper other hother
  · rcases List.mem_cons.mp hmem with heq | hmem
    · exact habove habsolute heq.symm
    · exact h.above habsolute hmem

theorem Normal.step {absolute : Bool} {names : List Str} (h : Normal absolute names)
    {segment : Str} (hsegment : slash ∉ segment) :
    Normal absolute (step absolute names segment) := by
  have hup : dotDot ≠ [] ∧ dotDot ≠ dot ∧ slash ∉ dotDot := by decide
  unfold Path.step
  by_cases hskip : segment = [] ∨ segment = dot
  · rw [if_pos hskip]
    exact h
  rw [if_neg hskip]
  by_cases hdots : segment = dotDot
  · rw [if_pos hdots]
    cases names with
    | nil =>
      cases absolute with
      | true => exact h
      | false => exact h.cons hup fun hfalse => nomatch hfalse
    | cons last before =>
      dsimp only
      by_cases hlast : last = dotDot
      · rw [if_pos hlast]
        cases absolute with
        | true => exact h
        | false => exact h.cons hup fun hfalse => nomatch hfalse
      · rw [if_neg hlast]
        exact h.tail
  · rw [if_neg hdots]
    rw [not_or] at hskip
    exact h.cons ⟨hskip.1, hskip.2, hsegment⟩ fun _ => hdots

theorem normal_foldl {absolute : Bool} {rest : List Str} (hrest : ∀ s ∈ rest, slash ∉ s)
    {names : List Str} (h : Normal absolute names) :
    Normal absolute (rest.foldl (step absolute) names) := by
  induction rest generalizing names with
  | nil => exact h
  | cons segment rest ih =>
    exact ih (fun s hs => hrest s (List.mem_cons_of_mem _ hs))
      (h.step (hrest segment List.mem_cons_self))

/-- The names that are kept lead to the same place. -/
theorem enter_step {absolute : Bool} {names : List Str} (h : Normal absolute names)
    {start : List Str} (hstart : absolute = true → start = []) (segment : Str) :
    (step absolute names segment).reverse.foldl enter start =
      enter (names.reverse.foldl enter start) segment := by
  unfold step
  by_cases hskip : segment = [] ∨ segment = dot
  · rw [if_pos hskip, enter_skip hskip]
  rw [if_neg hskip]
  by_cases hdots : segment = dotDot
  · rw [if_pos hdots, hdots, enter_dotDot]
    cases names with
    | nil =>
      cases absolute with
      | true =>
        rw [hstart rfl]
        rfl
      | false => rfl
    | cons last before =>
      rw [List.reverse_cons, List.foldl_append, List.foldl_cons, List.foldl_nil]
      dsimp only
      by_cases hlast : last = dotDot
      · rw [if_pos hlast]
        cases absolute with
        | true => exact absurd (hlast ▸ List.mem_cons_self) (h.above rfl)
        | false =>
          rw [if_neg (by decide), List.reverse_cons, List.reverse_cons, List.foldl_append,
            List.foldl_append]
          rfl
      · -- the last name and the two dots cancel
        rw [if_neg hlast]
        obtain ⟨hne, hdot, -⟩ := h.proper last List.mem_cons_self
        rw [enter_name (not_or.mpr ⟨hne, hdot⟩) hlast, List.tail_cons]
  · rw [if_neg hdots, List.reverse_cons, List.foldl_append]
    rfl

theorem foldl_enter_normalizeString {absolute : Bool} {path : Str} {start : List Str}
    (hstart : absolute = true → start = []) :
    (normalizeString absolute path).foldl enter start = (segments path).foldl enter start := by
  have hall : ∀ (rest names : List Str), (∀ s ∈ rest, slash ∉ s) → Normal absolute names →
      (rest.foldl (step absolute) names).reverse.foldl enter start =
        rest.foldl enter (names.reverse.foldl enter start) := by
    intro rest
    induction rest with
    | nil => exact fun _ _ _ => rfl
    | cons segment rest ih =>
      intro names hrest hnames
      rw [List.foldl_cons, List.foldl_cons, ← enter_step hnames hstart segment]
      exact ih _ (fun s hs => hrest s (List.mem_cons_of_mem _ hs))
        (hnames.step (hrest segment List.mem_cons_self))
  refine hall _ [] (fun s hs => slash_notMem_of_mem_segments hs) ⟨?_, ?_⟩
  · exact fun _ hmem => (List.not_mem_nil hmem).elim
  · exact fun _ hmem => List.not_mem_nil hmem

theorem normal_normalizeString (absolute : Bool) (path : Str) :
    ∀ name ∈ normalizeString absolute path, name ≠ [] ∧ slash ∉ name := by
  intro name hname
  have hnormal : Normal absolute ((segments path).foldl (step absolute) []) :=
    normal_foldl (fun s hs => slash_notMem_of_mem_segments hs)
      ⟨fun _ hmem => (List.not_mem_nil hmem).elim, fun _ hmem => List.not_mem_nil hmem⟩
  obtain ⟨hne, -, hslash⟩ := hnormal.proper name (List.mem_reverse.mp hname)
  exact ⟨hne, hslash⟩

theorem isAbsolute_unite {names : List Str} (h : ∀ name ∈ names, name ≠ [] ∧ slash ∉ name)
    (hne : names ≠ []) (trailing : Str) : isAbsolute (unite names ++ trailing) = false := by
  cases names with
  | nil => exact absurd rfl hne
  | cons first rest =>
    obtain ⟨hfirst, hslash⟩ := h first List.mem_cons_self
    cases first with
    | nil => exact absurd rfl hfirst
    | cons c first =>
      have hhead : (unite ((c :: first) :: rest)).head? = some c := by
        unfold unite
        cases rest <;> simp [List.intercalate]
      have hc : c ≠ slash := fun heq => hslash (heq ▸ List.mem_cons_self)
      unfold isAbsolute
      rw [List.head?_append, hhead]
      simpa using hc

theorem resolve_of_absolute (cwd : List Str) {path : Str} (h : isAbsolute path = true) :
    resolve cwd path = ((segments path).foldl enter []).reverse := by
  unfold resolve
  rw [if_pos h]

theorem resolve_of_relative (cwd : List Str) {path : Str} (h : isAbsolute path = false) :
    resolve cwd path = ((segments path).foldl enter cwd.reverse).reverse := by
  unfold resolve
  rw [if_neg (by simp [h])]

theorem resolve_slash (cwd : List Str) (s : Str) :
    resolve cwd (slash :: s) = ((segments s).foldl enter []).reverse := by
  rw [resolve_of_absolute cwd (by simp [isAbsolute]), segments_slash]
  rfl

/-- A path and its normal form stand for the same place. -/
theorem resolve_normalize (cwd : List Str) (path : Str) :
    resolve cwd (normalize path) = resolve cwd path := by
  unfold normalize
  by_cases hpath : path = []
  · rw [if_pos hpath, hpath]
    rfl
  rw [if_neg hpath]
  dsimp only
  have hnames := normal_normalizeString (isAbsolute path) path
  have hslashes : ∀ name ∈ normalizeString (isAbsolute path) path, slash ∉ name :=
    fun name hname => (hnames name hname).2
  cases habsolute : isAbsolute path with
  | true =>
    rw [habsolute] at hslashes
    have hplace : (normalizeString true path).foldl enter [] = (segments path).foldl enter [] :=
      foldl_enter_normalizeString fun _ => rfl
    rw [resolve_of_absolute cwd habsolute, ← hplace, if_pos rfl]
    by_cases hnone : normalizeString true path = []
    · rw [if_pos hnone, hnone]
      exact resolve_slash cwd []
    · rw [if_neg hnone, List.append_assoc, if_pos rfl, List.singleton_append, resolve_slash,
        foldl_enter_trailing, segments_unite hslashes hnone]
  | false =>
    rw [habsolute] at hnames hslashes
    have hplace : (normalizeString false path).foldl enter cwd.reverse =
        (segments path).foldl enter cwd.reverse :=
      foldl_enter_normalizeString fun h => nomatch h
    rw [resolve_of_relative cwd habsolute, ← hplace, if_neg Bool.false_ne_true]
    by_cases hnone : normalizeString false path = []
    · have hrelative : ∀ last : Option CodeUnit,
          isAbsolute (dot ++ if last = some slash then [slash] else []) = false := by
        intro last
        by_cases hlast : last = some slash
        · rw [if_pos hlast]
          rfl
        · rw [if_neg hlast]
          rfl
      rw [if_pos hnone, hnone, resolve_of_relative cwd (hrelative _), foldl_enter_trailing]
      rfl
    · rw [if_neg hnone, if_neg Bool.false_ne_true, List.nil_append,
        resolve_of_relative cwd (isAbsolute_unite hnames hnone _), foldl_enter_trailing,
        segments_unite hslashes hnone]

/-- In an absolute path every segment that is kept is entered. -/
theorem step_absolute {names : List Str} (h : Normal true names) (segment : Str) :
    step true names segment = enter names segment := by
  unfold step enter
  by_cases hskip : segment = [] ∨ segment = dot
  · rw [if_pos hskip, if_pos hskip]
  rw [if_neg hskip, if_neg hskip]
  by_cases hdots : segment = dotDot
  · rw [if_pos hdots, if_pos hdots]
    cases names with
    | nil => rfl
    | cons last before =>
      have hlast : last ≠ dotDot := fun heq => h.above rfl (heq ▸ List.mem_cons_self)
      exact if_neg hlast
  · rw [if_neg hdots, if_neg hdots]

theorem foldl_step_absolute {rest : List Str} (hrest : ∀ s ∈ rest, slash ∉ s)
    {names : List Str} (h : Normal true names) :
    rest.foldl (step true) names = rest.foldl enter names := by
  induction rest generalizing names with
  | nil => rfl
  | cons segment rest ih =>
    have hnext := h.step (hrest segment List.mem_cons_self)
    rw [List.foldl_cons, List.foldl_cons, ih (fun s hs => hrest s (List.mem_cons_of_mem _ hs)) hnext,
      step_absolute h]

/-- The normal form of an absolute path that names something is written from its place. -/
theorem normalize_of_absolute {path : Str} (habsolute : isAbsolute path = true)
    (hlast : path.getLast? ≠ some slash) :
    normalize path = slash :: unite (resolve [] path) := by
  have hne := ne_nil_of_isAbsolute habsolute
  have hnames : normalizeString true path = resolve [] path := by
    rw [resolve_of_absolute [] habsolute, normalizeString,
      foldl_step_absolute (fun s hs => slash_notMem_of_mem_segments hs)
        ⟨fun _ hmem => (List.not_mem_nil hmem).elim, fun _ hmem => List.not_mem_nil hmem⟩]
  unfold normalize
  rw [if_neg hne, habsolute, hnames]
  by_cases hnone : resolve [] path = []
  · rw [hnone]
    rfl
  · simp only [hnone, hlast, if_true, if_false, List.append_nil]
    rfl

example : normalize (js "/srv/../../data//cases/") = js "/data/cases/" := by decide

theorem join_pair {dir name : Str} (hdir : dir ≠ []) (hname : name ≠ []) :
    join [dir, name] = normalize (dir ++ slash :: name) := by
  have hparts : [dir, name].filter (fun path => path ≠ []) = [dir, name] := by
    simp [hdir, hname]
  have hunite : unite [dir, name] = dir ++ slash :: name := by
    simp [unite, List.intercalate]
  unfold join
  rw [hparts, if_neg (List.cons_ne_nil _ _), hunite]

theorem isAbsolute_append {dir : Str} (hdir : dir ≠ []) (s : Str) :
    isAbsolute (dir ++ s) = isAbsolute dir := by
  unfold isAbsolute
  rw [List.head?_append_of_ne_nil _ hdir]

/-- A name joined to a directory stands for the entry of that name. -/
theorem resolve_join (cwd : List Str) {dir name : Str} (hdir : dir ≠ []) (hname : IsName name) :
    resolve cwd (join [dir, name]) = resolve cwd dir ++ [name] := by
  have henter := enter_name (not_or.mpr ⟨hname.ne_nil, hname.ne_dot⟩) hname.ne_dotDot
  rw [join_pair hdir hname.ne_nil, resolve_normalize]
  unfold resolve
  rw [isAbsolute_append hdir, segments_append, segments_of_notMem hname.slash_notMem,
    List.foldl_append, List.foldl_cons, List.foldl_nil, henter, List.reverse_cons]

example : join [js "../data/./", js "case_1.json"] = js "../data/case_1.json" := by decide

/-! ## What is appended to a joined name -/

theorem IsName.append {name s : Str} (h : IsName name) (hs : slash ∉ s) : IsName (name ++ s) := by
  have hne : ∀ {t : Str}, (∀ u ∈ t.inits, u ≠ name) → name ++ s ≠ t := by
    rintro t ht rfl
    exact ht name ((List.mem_inits name _).mpr (List.prefix_append name s)) rfl
  refine ⟨fun hnil => h.ne_nil (List.append_eq_nil_iff.mp hnil).1, hne fun u hu => ?_,
    hne fun u hu => ?_, ?_⟩
  · rcases List.mem_cons.mp (show u ∈ [[], dot] from hu) with rfl | hu
    · exact h.ne_nil.symm
    · exact (List.mem_singleton.mp hu) ▸ h.ne_dot.symm
  · rcases List.mem_cons.mp (show u ∈ [[], dot, dotDot] from hu) with rfl | hu
    · exact h.ne_nil.symm
    rcases List.mem_cons.mp hu with rfl | hu
    · exact h.ne_dot.symm
    · exact (List.mem_singleton.mp hu) ▸ h.ne_dotDot.symm
  · rw [List.mem_append, not_or]
    exact ⟨h.slash_notMem, hs⟩

theorem normalizeString_name (absolute : Bool) (dir : Str) {name : Str} (hname : IsName name) :
    normalizeString absolute (dir ++ slash :: name) = normalizeString absolute dir ++ [name] := by
  have hstep : ∀ names, step absolute names name = name :: names := by
    intro names
    unfold step
    rw [if_neg (not_or.mpr ⟨hname.ne_nil, hname.ne_dot⟩), if_neg hname.ne_dotDot]
  unfold normalizeString
  rw [segments_append, segments_of_notMem hname.slash_notMem, List.foldl_append, List.foldl_cons,
    List.foldl_nil, hstep, List.reverse_cons]

theorem join_name {dir name : Str} (hdir : dir ≠ []) (hname : IsName name) :
    join [dir, name] = (if isAbsolute dir then [slash] else []) ++
      unite (normalizeString (isAbsolute dir) dir ++ [name]) := by
  have hlast : (dir ++ slash :: name).getLast? ≠ some slash := by
    intro hlast
    rw [List.getLast?_append_of_ne_nil _ (List.cons_ne_nil _ _), List.getLast?_cons,
      List.getLast?_eq_some_getLast hname.ne_nil] at hlast
    exact hname.slash_notMem (Option.some.inj hlast ▸ List.getLast_mem hname.ne_nil)
  rw [join_pair hdir hname.ne_nil]
  unfold normalize
  rw [if_neg (List.append_ne_nil_of_left_ne_nil hdir _), if_neg hlast, isAbsolute_append hdir,
    normalizeString_name _ _ hname]
  dsimp only
  rw [if_neg (List.append_ne_nil_of_right_ne_nil _ (List.cons_ne_nil _ _)), List.append_nil]

/-- What is appended to a joined name belongs to the name. -/
theorem join_append {dir name s : Str} (hdir : dir ≠ []) (hname : IsName name) (hs : slash ∉ s) :
    join [dir, name] ++ s = join [dir, name ++ s] := by
  rw [join_name hdir hname, join_name hdir (hname.append hs), unite_append_singleton,
    List.append_assoc]

end Path

end Js
