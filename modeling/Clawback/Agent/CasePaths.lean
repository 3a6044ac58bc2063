import Clawback.Agent.FileStore

/-!
# The files of the cases

`pathFor` joins the data directory and the id of a case, which the routes pass as it was sent. What
stands before the last separator of the id is a way of its own, from the data directory to wherever
it leads; what stands after it names the file.

* `resolve_pathFor_of_absolute`: the file of a case is an entry of the directory its id leads to.
* `pathFor_eq_iff`: two ids have one path if they lead to one directory and name one file.
* `files_distinct_iff`: so each of two cases has a file of its own in the data directory if and only
  if both ids lead back there and name different files; ids without separators do.
-/

namespace Clawback

open Js Path

namespace FileCaseStore

variable (store : FileCaseStore)

/-- Where the way in a case id leads, from the data directory. -/
def caseDir (caseId : Str) : List Str :=
  ((segments caseId).dropLast.foldl enter (resolve [] store.dataDir).reverse).reverse

/-- A path of an entry of a directory itself. -/
def IsDirectChild (dir path : Str) : Prop :=
  ∃ name, IsName name ∧ resolve [] path = resolve [] dir ++ [name]

/-- Both cases have a file in the data directory, and different cases different files. -/
structure FilesDistinct (caseId caseId' : Str) : Prop where
  child : IsDirectChild store.dataDir (store.pathFor caseId)
  child' : IsDirectChild store.dataDir (store.pathFor caseId')
  distinct : caseId ≠ caseId' → store.pathFor caseId ≠ store.pathFor caseId'

end FileCaseStore

variable {store : FileCaseStore} {c c' : Str}

/-! ## The path of a case -/

theorem segments_fileName (c : Str) :
    segments (fileName c) = (segments c).dropLast ++ [fileName (lastSegment c)] :=
  segments_append_of_notMem c (by decide)

theorem pathFor_eq_normalize (habsolute : isAbsolute store.dataDir = true) (c : Str) :
    store.pathFor c = normalize (store.dataDir ++ slash :: fileName c) :=
  join_pair (ne_nil_of_isAbsolute habsolute) (fileName_ne c (by decide))

theorem isAbsolute_joined (habsolute : isAbsolute store.dataDir = true) (c : Str) :
    isAbsolute (store.dataDir ++ slash :: fileName c) = true := by
  rw [isAbsolute_append (ne_nil_of_isAbsolute habsolute), habsolute]

/-- The file of a case is an entry of the directory its id leads to. -/
theorem resolve_pathFor_of_absolute (habsolute : isAbsolute store.dataDir = true) (c : Str) :
    resolve [] (store.pathFor c) = store.caseDir c ++ [fileName (lastSegment c)] := by
  have hname := isName_fileName_of_notMem (slash_notMem_lastSegment c)
  have henter := enter_name (not_or.mpr ⟨hname.ne_nil, hname.ne_dot⟩) hname.ne_dotDot
  unfold FileCaseStore.caseDir
  rw [pathFor_eq_normalize habsolute, resolve_normalize, resolve_of_absolute [] habsolute,
    resolve_of_absolute [] (isAbsolute_joined habsolute c), segments_append, segments_fileName,
    List.foldl_append, List.foldl_append, List.reverse_reverse]
  rw [List.foldl_cons, List.foldl_nil, henter, List.reverse_cons]

theorem pathFor_of_absolute (habsolute : isAbsolute store.dataDir = true) (c : Str) :
    store.pathFor c = slash :: unite (resolve [] (store.pathFor c)) := by
  have hlast : (store.dataDir ++ slash :: fileName c).getLast? ≠ some slash := by
    have hsplit : store.dataDir ++ slash :: fileName c =
        (store.dataDir ++ slash :: c) ++ js ".json" := by
      rw [fileName, List.append_assoc, List.cons_append]
    rw [hsplit, List.getLast?_append_of_ne_nil _ (by decide)]
    decide
  rw [pathFor_eq_normalize habsolute, resolve_normalize]
  exact normalize_of_absolute (isAbsolute_joined habsolute c) hlast

/-- Paths are one if their places are. -/
theorem pathFor_eq_iff (habsolute : isAbsolute store.dataDir = true) :
    store.pathFor c = store.pathFor c' ↔
      store.caseDir c = store.caseDir c' ∧ lastSegment c = lastSegment c' := by
  have hplaces : store.pathFor c = store.pathFor c' ↔
      resolve [] (store.pathFor c) = resolve [] (store.pathFor c') := by
    constructor
    · exact congrArg (resolve [])
    · intro heq
      rw [pathFor_of_absolute habsolute c, pathFor_of_absolute habsolute c', heq]
  rw [hplaces, resolve_pathFor_of_absolute habsolute, resolve_pathFor_of_absolute habsolute]
  constructor
  · intro heq
    obtain ⟨hdir, hname⟩ := List.append_inj' heq rfl
    exact ⟨hdir, fileName_inj (List.singleton_inj.mp hname)⟩
  · rintro ⟨hdir, hname⟩
    rw [hdir, hname]

theorem isDirectChild_pathFor_iff (habsolute : isAbsolute store.dataDir = true) :
    FileCaseStore.IsDirectChild store.dataDir (store.pathFor c) ↔
      store.caseDir c = resolve [] store.dataDir := by
  unfold FileCaseStore.IsDirectChild
  rw [resolve_pathFor_of_absolute habsolute]
  constructor
  · rintro ⟨name, -, heq⟩
    exact (List.append_inj' heq rfl).1
  · intro hdir
    exact ⟨_, isName_fileName_of_notMem (slash_notMem_lastSegment c), by rw [hdir]⟩

/-! ## Two cases -/

theorem filesDistinct_of_caseDir (habsolute : isAbsolute store.dataDir = true)
    (hdir : store.caseDir c = resolve [] store.dataDir)
    (hdir' : store.caseDir c' = resolve [] store.dataDir)
    (hname : c ≠ c' → lastSegment c ≠ lastSegment c') : store.FilesDistinct c c' := by
  refine ⟨(isDirectChild_pathFor_iff habsolute).mpr hdir,
    (isDirectChild_pathFor_iff habsolute).mpr hdir', fun hne hpath => hname hne ?_⟩
  exact ((pathFor_eq_iff habsolute).mp hpath).2

/-- Two cases have files of their own in the data directory if and only if their ids lead back to it
and name different files. -/
theorem files_distinct_iff (habsolute : isAbsolute store.dataDir = true) (c c' : Str) :
    store.FilesDistinct c c' ↔
      store.caseDir c = resolve [] store.dataDir ∧ store.caseDir c' = resolve [] store.dataDir ∧
        (c ≠ c' → lastSegment c ≠ lastSegment c') := by
  constructor
  · rintro ⟨hchild, hchild', hdistinct⟩
    have hdir := (isDirectChild_pathFor_iff habsolute).mp hchild
    have hdir' := (isDirectChild_pathFor_iff habsolute).mp hchild'
    refine ⟨hdir, hdir', fun hne hname => hdistinct hne ?_⟩
    exact (pathFor_eq_iff habsolute).mpr ⟨hdir.trans hdir'.symm, hname⟩
  · rintro ⟨hdir, hdir', hname⟩
    exact filesDistinct_of_caseDir habsolute hdir hdir' hname

/-- An id that leaves the directory and comes back, and one that names the same file again. -/
theorem files_distinct_iff_back :
    (⟨js "/data"⟩ : FileCaseStore).FilesDistinct (js "case_1") (js "../data/case_2") ∧
      ¬(⟨js "/data"⟩ : FileCaseStore).FilesDistinct (js "case_1") (js "../data/case_1") := by
  constructor
  · exact (files_distinct_iff (by decide) _ _).mpr ⟨by decide, by decide, fun _ => by decide⟩
  · intro h
    have hname := ((files_distinct_iff (by decide) _ _).mp h).2.2
    exact hname (by decide) (by decide)

/-- An id that leaves the directory, and two ids with one path. -/
theorem files_not_distinct :
    (⟨js "/data"⟩ : FileCaseStore).pathFor (js "../x") = js "/x.json" ∧
      (⟨js "/data"⟩ : FileCaseStore).pathFor (js "./x") =
        (⟨js "/data"⟩ : FileCaseStore).pathFor (js "x") ∧
      ¬∀ (store : FileCaseStore) (c c' : Str), isAbsolute store.dataDir = true →
        normalize store.dataDir = store.dataDir → store.FilesDistinct c c' := by
  refine ⟨by decide, by decide, fun hall => ?_⟩
  have hfiles := hall ⟨js "/data"⟩ (js "../x") (js "x") (by decide) (by decide)
  exact absurd ((isDirectChild_pathFor_iff (by decide)).mp hfiles.child) (by decide)

theorem caseDir_of_notMem (store : FileCaseStore) (h : slash ∉ c) :
    store.caseDir c = resolve [] store.dataDir := by
  rw [FileCaseStore.caseDir, segments_of_notMem h]
  exact List.reverse_reverse _

/-- Ids without separators name files of the data directory, each its own. -/
theorem filesDistinct_of_notMem (habsolute : isAbsolute store.dataDir = true) (hc : slash ∉ c)
    (hc' : slash ∉ c') : store.FilesDistinct c c' := by
  refine filesDistinct_of_caseDir habsolute (caseDir_of_notMem store hc)
    (caseDir_of_notMem store hc') fun hne hname => hne ?_
  rwa [lastSegment_of_notMem hc, lastSegment_of_notMem hc'] at hname

end Clawback
