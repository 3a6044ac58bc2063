import Clawback.Js.Json
import Clawback.Js.Path
import Clawback.Js.WellFormed

/-!
# Files

`node:fs/promises` as far as text files are concerned: `mkdir`, `readFile`, `writeFile` and
`readdir`, of paths without null characters, on a file system that has no symbolic links and does
not run out of space. A file is known by its place, not by the path it is opened with; directories
are where files can be.

* `readFile_of_content`: a well-formed text is read back under every path that stands for its
  place.
* `mem_names`: a directory lists the files that stand in it, each once.
-/

namespace Js

/-- The files of a system, with the places they stand at, and its working directory. -/
structure FileSystem where
  cwd : List Str
  files : List (List Str × Bytes)
  nodup : (files.map Prod.fst).Nodup

namespace FileSystem

/-- What the file at a place contains. -/
def content (fs : FileSystem) (place : List Str) : Option Bytes := fs.files.lookup place

/-- The file at a place is written, or written over. -/
def put (fs : FileSystem) (place : List Str) (bytes : Bytes) : FileSystem where
  cwd := fs.cwd
  files := (place, bytes) :: fs.files.filter fun file => file.1 ≠ place
  nodup := by
    rw [List.map_cons, List.nodup_cons]
    refine ⟨?_, fs.nodup.sublist (List.filter_sublist.map _)⟩
    intro hmem
    obtain ⟨file, hfile, heq⟩ := List.mem_map.mp hmem
    exact of_decide_eq_true (List.mem_filter.mp hfile).2 heq

/-- A file stands at the place, or where a directory on the way to it would stand. -/
def Blocked (fs : FileSystem) (place : List Str) : Prop :=
  ∃ above ∈ place.inits, (fs.content above).isSome = true

instance (fs : FileSystem) : DecidablePred fs.Blocked := fun _ =>
  inferInstanceAs (Decidable (∃ _ ∈ _, _))

/-- `mkdir(path, { recursive: true })` -/
def mkdir (fs : FileSystem) (path : Str) : Except JsError Unit :=
  if path = [] then
    .error (.ofMessage (js "ENOENT: no such file or directory, mkdir '" ++ path ++ js "'"))
  else if (fs.content (Path.resolve fs.cwd path)).isSome then
    .error (.ofMessage (js "EEXIST: file already exists, mkdir '" ++ path ++ js "'"))
  else if fs.Blocked (Path.resolve fs.cwd path) then
    .error (.ofMessage (js "ENOTDIR: not a directory, mkdir '" ++ path ++ js "'"))
  else .ok ()

/-- `readFile(path, "utf8")` -/
def readFile (fs : FileSystem) (path : Str) : Except JsError Str :=
  match fs.content (Path.resolve fs.cwd path) with
  | some bytes => .ok (utf8Decode bytes)
  | none =>
    .error (.ofMessage (js "ENOENT: no such file or directory, open '" ++ path ++ js "'"))

/-- `writeFile(path, data, "utf8")`, in a directory that exists -/
def writeFile (fs : FileSystem) (path data : Str) : FileSystem :=
  fs.put (Path.resolve fs.cwd path) (utf8Encode data)

/-- The name under which a file stands in a directory. -/
def nameIn (place : List Str) (file : List Str × Bytes) : Option Str :=
  if file.1.dropLast = place then file.1.getLast? else none

/-- The names of the files that stand in a directory. -/
def names (fs : FileSystem) (place : List Str) : List Str := fs.files.filterMap (nameIn place)

/-- `readdir(path)` may answer with these names: it lists them in an order of its own. -/
def Lists (fs : FileSystem) (path : Str) (listed : List Str) : Prop :=
  listed.Perm (fs.names (Path.resolve fs.cwd path))

/-- No file stands at the place, on the way to it or below it. -/
def Vacant (fs : FileSystem) (place : List Str) : Prop :=
  ∀ other, other <+: place ∨ place <+: other → fs.content other = none

variable {fs : FileSystem}

@[simp] theorem cwd_put (place : List Str) (bytes : Bytes) :
    (fs.put place bytes).cwd = fs.cwd := rfl

theorem content_eq_some_iff {place : List Str} {bytes : Bytes} :
    fs.content place = some bytes ↔ (place, bytes) ∈ fs.files := Json.lookup_eq_some_iff fs.nodup

theorem content_put (place place' : List Str) (bytes : Bytes) :
    (fs.put place bytes).content place' =
      if place' = place then some bytes else fs.content place' := by
  by_cases heq : place' = place
  · rw [if_pos heq, heq, content_eq_some_iff]
    exact List.mem_cons_self
  · rw [if_neg heq]
    apply Option.ext
    intro bytes'
    rw [content_eq_some_iff, content_eq_some_iff]
    simp [put, heq]

theorem mkdir_eq_ok {path : Str} (hpath : path ≠ [])
    (hfree : ∀ above, above <+: Path.resolve fs.cwd path → fs.content above = none) :
    fs.mkdir path = .ok () := by
  have hblocked : ¬fs.Blocked (Path.resolve fs.cwd path) := by
    rintro ⟨above, habove, hfile⟩
    rw [hfree above ((List.mem_inits above _).mp habove)] at hfile
    exact Bool.noConfusion hfile
  unfold mkdir
  rw [if_neg hpath, hfree _ (List.prefix_refl _), if_neg Bool.noConfusion, if_neg hblocked]

/-- A text is read from the place that it stands at, whatever path is used. -/
theorem readFile_of_content {path data : Str} (hdata : WellFormed data)
    (h : fs.content (Path.resolve fs.cwd path) = some (utf8Encode data)) :
    fs.readFile path = .ok data := by
  unfold readFile
  rw [h]
  exact congrArg Except.ok (utf8Decode_utf8Encode hdata)

theorem nameIn_eq_some_iff {place : List Str} {file : List Str × Bytes} {name : Str} :
    nameIn place file = some name ↔ file.1 = place ++ [name] := by
  unfold nameIn
  rw [Option.ite_none_right_eq_some]
  constructor
  · rintro ⟨hplace, hname⟩
    obtain ⟨before, hfile⟩ := List.getLast?_eq_some_iff.mp hname
    rw [hfile, List.dropLast_concat] at hplace
    rw [hfile, hplace]
  · intro hfile
    rw [hfile, List.dropLast_concat, List.getLast?_concat]
    exact ⟨rfl, rfl⟩

theorem mem_names {place : List Str} {name : Str} :
    name ∈ fs.names place ↔ ∃ bytes, fs.content (place ++ [name]) = some bytes := by
  unfold names
  rw [List.mem_filterMap]
  constructor
  · rintro ⟨file, hfile, hname⟩
    rw [nameIn_eq_some_iff] at hname
    refine ⟨file.2, content_eq_some_iff.mpr ?_⟩
    rw [← hname]
    exact hfile
  · rintro ⟨bytes, hbytes⟩
    exact ⟨_, content_eq_some_iff.mp hbytes, nameIn_eq_some_iff.mpr rfl⟩

theorem nodup_names (fs : FileSystem) (place : List Str) : (fs.names place).Nodup := by
  have hfiles : fs.files.Pairwise fun file file' => file.1 ≠ file'.1 :=
    List.pairwise_map.mp fs.nodup
  refine hfiles.filterMap _ fun file file' hne name hname name' hname' heq => ?_
  rw [nameIn_eq_some_iff] at hname hname'
  rw [hname, hname', heq] at hne
  exact hne rfl

end FileSystem

end Js
