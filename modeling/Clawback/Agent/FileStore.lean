import Clawback.Agent.CaseStores
import Clawback.Js.Collator
import Clawback.Js.FileSystem

/-!
# The file store

`FileCaseStore` keeps one JSON file per case in a directory. `Mirrors cwd dir` relates a file system
to the records of an `InMemoryCaseStore`: the directory holds a file for each of them, and no other.

* `agrees_call`: every call to a store on the directory, whichever it is, keeps to the relation.
* `fileCaseStore_answers_as_memory`: so it returns and throws what the store in memory does, and it
  lists the records of an owner, the newest first.
-/

namespace Clawback

open Js Async

/-- `JSON.parse(raw) as CaseRecord`, of a file of the store -/
def parseRecord (raw : Str) : Except JsError CaseRecord :=
  match Codec.ofText (N := Int) raw with
  | some record => .ok record
  | none => .error (.error (js "SyntaxError") (js "Unexpected token in JSON"))

/-- `JSON.stringify(record, null, 2)` -/
def recordText (record : CaseRecord) : Str :=
  Json.stringifyIndented (Codec.toJson record : Json Int)

/-- `records.sort((a, b) => b.createdAt.localeCompare(a.createdAt))` -/
def newestFirst (collator : Collator) (records : List CaseRecord) : List CaseRecord :=
  records.mergeSort fun a b => collator.localeCompare b.createdAt a.createdAt ≤ 0

structure FileCaseStore where
  dataDir : Str

def fileName (caseId : Str) : Str := caseId ++ js ".json"

namespace FileCaseStore

variable (store : FileCaseStore)

def pathFor (caseId : Str) : Str := Path.join [store.dataDir, fileName caseId]

def get (caseId : Str) : Method JsError FileSystem CaseRecord :=
  tryCatch
    (do
      let fs ← MonadState.get
      let raw ← Method.lift (fs.readFile (store.pathFor caseId))
      Method.lift (parseRecord raw))
    fun _ => throw (caseNotFoundError caseId)

def save (record : CaseRecord) : Method JsError FileSystem Unit := do
  let fs ← MonadState.get
  Method.lift (fs.mkdir store.dataDir)
  modify fun fs => fs.writeFile (store.pathFor record.caseId) (recordText record)

def create (record : CaseRecord) : Method JsError FileSystem Unit := do
  let fs ← MonadState.get
  Method.lift (fs.mkdir store.dataDir)
  store.save record

def base : BaseCaseStore FileSystem where
  create := store.create
  get := store.get
  save := store.save

/-- The records of an owner, in the order of the files. -/
def recordsOf (fs : FileSystem) (ownerId : Str) : List Str → Except JsError (List CaseRecord)
  | [] => return []
  | file :: files => do
    if (js ".json").isSuffixOf file then
      let raw ← fs.readFile (Path.join [store.dataDir, file])
      let record ← parseRecord raw
      let records ← recordsOf fs ownerId files
      return if record.ownerId = ownerId then record :: records else records
    else recordsOf fs ownerId files

/-- `listForOwner(ownerId)`, where `readdir` answers with `files` -/
def listForOwner (collator : Collator) (files : List Str) (ownerId : Str) :
    Method JsError FileSystem (List CaseRecord) := do
  let fs ← MonadState.get
  Method.lift (fs.mkdir store.dataDir)
  let records ← Method.lift (store.recordsOf fs ownerId files)
  return newestFirst collator records

end FileCaseStore

/-! ## Case ids -/

def isWordUnit (c : CodeUnit) : Bool :=
  isDigit c || (65 ≤ c.toNat && c.toNat ≤ 90) || c = unit '_' || (97 ≤ c.toNat && c.toNat ≤ 122)

def isHexUnit (c : CodeUnit) : Bool := isDigit c || (97 ≤ c.toNat && c.toNat ≤ 102)

/-- The form of what `randomUUID()` returns. -/
def IsUuid (s : Str) : Prop :=
  (s.map fun c => if isHexUnit c then unit '0' else c) = js "00000000-0000-0000-0000-000000000000"

instance : DecidablePred IsUuid := fun _ => inferInstanceAs (Decidable (_ = _))

/-- The form of what `newId` returns, for a word. -/
def IsNewId (s : Str) : Prop :=
  ∃ word uuid, word.all isWordUnit = true ∧ IsUuid uuid ∧ s = word ++ js "_" ++ uuid

theorem slash_notMem_of_isUuid {s : Str} (h : IsUuid s) : Path.slash ∉ s := by
  intro hmem
  have hslash : (if isHexUnit Path.slash then unit '0' else Path.slash) ∈
      js "00000000-0000-0000-0000-000000000000" := h ▸ List.mem_map_of_mem hmem
  exact absurd hslash (by decide)

theorem fileName_ne (c : Str) {s : Str} (h : s.length < 5) : fileName c ≠ s := by
  rintro rfl
  rw [fileName, List.length_append] at h
  exact absurd h (Nat.not_lt.mpr (Nat.le_add_left 5 _))

theorem isName_fileName_of_notMem {c : Str} (h : Path.slash ∉ c) : Path.IsName (fileName c) := by
  refine ⟨fileName_ne c (by decide), fileName_ne c (by decide), fileName_ne c (by decide), ?_⟩
  rw [fileName, List.mem_append, not_or]
  exact ⟨h, by decide⟩

theorem isName_fileName {c : Str} (h : IsNewId c) : Path.IsName (fileName c) := by
  obtain ⟨word, uuid, hword, huuid, rfl⟩ := h
  apply isName_fileName_of_notMem
  have hslash : Path.slash ∉ word := fun hmem =>
    absurd (List.all_eq_true.mp hword _ hmem) (by decide)
  simp only [List.mem_append, not_or]
  exact ⟨⟨hslash, by decide⟩, slash_notMem_of_isUuid huuid⟩

theorem fileName_inj {c c' : Str} (h : fileName c = fileName c') : c = c' :=
  List.append_cancel_right h

/-- The case ids that are passed to the store have the form of `newId`. -/
def CaseStoreCall.Ids : CaseStoreCall → Prop
  | .create record => IsNewId record.caseId
  | .get caseId => IsNewId caseId
  | .getForOwner caseId _ => IsNewId caseId
  | .transition caseId _ patch _ => IsNewId caseId ∧
    ∀ record changes c, patch record = .ok changes → changes.caseId = some c → IsNewId c

/-! ## The directory and the records -/

/-- The store works on the directory at this place. -/
structure FileCaseStore.On (store : FileCaseStore) (cwd dir : List Str) : Prop where
  ne_nil : store.dataDir ≠ []
  resolve_dataDir : Path.resolve cwd store.dataDir = dir

/-- The directory holds a file for each of the records, and no other. -/
structure Mirrors (cwd dir : List Str) (fs : FileSystem) (records : Records) : Prop where
  cwd : fs.cwd = cwd
  free : ∀ above, above <+: dir → fs.content above = none
  file : ∀ c, fs.content (dir ++ [fileName c]) =
    (records c).map fun record => utf8Encode (recordText record)
  named : ∀ name bytes, fs.content (dir ++ [name]) = some bytes → ∃ c, name = fileName c
  keyed : ∀ c record, records c = some record → record.caseId = c ∧ IsNewId c

theorem parseRecord_recordText (record : CaseRecord) :
    parseRecord (recordText record) = .ok record := by
  unfold parseRecord recordText
  rw [ofText_stringifyIndented]

variable {cwd dir : List Str} {fs : FileSystem} {records : Records} {store : FileCaseStore}

theorem resolve_pathFor (hon : store.On cwd dir) {c : Str} (hc : IsNewId c) :
    Path.resolve cwd (store.pathFor c) = dir ++ [fileName c] := by
  unfold FileCaseStore.pathFor
  rw [Path.resolve_join cwd hon.ne_nil (isName_fileName hc), hon.resolve_dataDir]

namespace Mirrors

theorem mkdir (h : Mirrors cwd dir fs records) (hon : store.On cwd dir) :
    fs.mkdir store.dataDir = .ok () := by
  refine FileSystem.mkdir_eq_ok hon.ne_nil fun above habove => h.free above ?_
  rw [h.cwd, hon.resolve_dataDir] at habove
  exact habove

theorem readFile (h : Mirrors cwd dir fs records) {path c : Str} {record : CaseRecord}
    (hpath : Path.resolve cwd path = dir ++ [fileName c]) (hrecord : records c = some record) :
    fs.readFile path = .ok (recordText record) := by
  refine FileSystem.readFile_of_content (Json.wellFormed_stringifyIndented _) ?_
  rw [h.cwd, hpath, h.file c, hrecord]
  rfl

theorem not_readFile (h : Mirrors cwd dir fs records) {path c : Str}
    (hpath : Path.resolve cwd path = dir ++ [fileName c]) (hnone : records c = none) :
    ∃ x, fs.readFile path = .error x := by
  have hfile := h.file c
  rw [hnone, Option.map_none] at hfile
  unfold FileSystem.readFile
  rw [h.cwd, hpath, hfile]
  exact ⟨_, rfl⟩

/-- A record is written to its file. -/
theorem writeFile (h : Mirrors cwd dir fs records) {record : CaseRecord}
    (hid : IsNewId record.caseId) {path : Str}
    (hpath : Path.resolve cwd path = dir ++ [fileName record.caseId]) :
    Mirrors cwd dir (fs.writeFile path (recordText record))
      fun c => if c = record.caseId then some record else records c := by
  unfold FileSystem.writeFile
  rw [h.cwd, hpath]
  refine ⟨h.cwd, fun above habove => ?_, fun c => ?_, fun name bytes hname => ?_,
    fun c found hfound => ?_⟩
  · rw [FileSystem.content_put, if_neg ?_]
    · exact h.free above habove
    · intro heq
      have hlength := habove.length_le
      rw [heq, List.length_append] at hlength
      simp at hlength
  · rw [FileSystem.content_put]
    by_cases hc : c = record.caseId
    · rw [if_pos (by rw [hc]), if_pos hc]
      rfl
    · have hne : dir ++ [fileName c] ≠ dir ++ [fileName record.caseId] := by
        intro heq
        have hname := List.append_cancel_left heq
        exact hc (fileName_inj (List.singleton_inj.mp hname))
      rw [if_neg hne, if_neg hc]
      exact h.file c
  · rw [FileSystem.content_put] at hname
    by_cases hplace : dir ++ [name] = dir ++ [fileName record.caseId]
    · exact ⟨record.caseId, List.singleton_inj.mp (List.append_cancel_left hplace)⟩
    · rw [if_neg hplace] at hname
      exact h.named name bytes hname
  · by_cases hc : c = record.caseId
    · rw [if_pos hc] at hfound
      cases hfound
      exact ⟨hc.symm, hc ▸ hid⟩
    · rw [if_neg hc] at hfound
      exact h.keyed c found hfound

end Mirrors

/-! ## Calls -/

theorem agrees_get (hon : store.On cwd dir) {c : Str} (hc : IsNewId c) :
    Agrees (Mirrors cwd dir) (fun record => IsNewId record.caseId) (store.base.get c)
      (inMemoryCaseStore.get c) := by
  intro fs records h
  have hpath := resolve_pathFor hon hc
  have hmemory : invoke (inMemoryCaseStore.get c) records = _ := invoke_memory_get c records
  cases hfound : records c with
  | none =>
    rw [hfound] at hmemory
    obtain ⟨x, hread⟩ := h.not_readFile hpath hfound
    have hfile : invoke (store.base.get c) fs = (.error (caseNotFoundError c), fs) := by
      refine invoke_tryCatch_error (x := x) ?_
      rw [invoke_bind_ok (invoke_get fs), hread]
      exact invoke_bind_error rfl
    rw [hfile, hmemory]
    refine ⟨rfl, h, fun _ hsame => ?_⟩
    simp at hsame
  | some record =>
    rw [hfound] at hmemory
    have hfile : invoke (store.base.get c) fs = (.ok record, fs) := by
      refine invoke_tryCatch_ok ?_
      rw [invoke_bind_ok (invoke_get fs), h.readFile hpath hfound,
        invoke_bind_ok (invoke_lift _ fs), parseRecord_recordText]
      rfl
    obtain ⟨hkey, hid⟩ := h.keyed c record hfound
    rw [hfile, hmemory]
    refine ⟨rfl, h, fun found hsame => ?_⟩
    cases hsame
    exact hkey ▸ hid

theorem agrees_save (hon : store.On cwd dir) {record : CaseRecord} (hid : IsNewId record.caseId) :
    Agrees (Mirrors cwd dir) (fun _ => True) (store.base.save record)
      (inMemoryCaseStore.save record) := by
  intro fs records h
  have hfile : invoke (store.base.save record) fs =
      (.ok (), fs.writeFile (store.pathFor record.caseId) (recordText record)) := by
    refine (invoke_bind_ok (invoke_get fs)).trans ?_
    rw [h.mkdir hon, invoke_bind_ok (invoke_lift _ fs)]
    rfl
  have hmemory : invoke (inMemoryCaseStore.save record) records = _ :=
    invoke_memory_save record records
  rw [hfile, hmemory]
  exact ⟨rfl, h.writeFile hid (resolve_pathFor hon hid), fun _ _ => trivial⟩

theorem agrees_create (hon : store.On cwd dir) {record : CaseRecord} (hid : IsNewId record.caseId) :
    Agrees (Mirrors cwd dir) (fun _ => True) (store.base.create record)
      (inMemoryCaseStore.create record) := by
  intro fs records h
  have hfile : invoke (store.base.create record) fs = invoke (store.base.save record) fs := by
    refine (invoke_bind_ok (invoke_get fs)).trans ?_
    rw [h.mkdir hon, invoke_bind_ok (invoke_lift _ fs)]
    rfl
  rw [hfile]
  exact agrees_save hon hid fs records h

theorem agrees_getForOwner (hon : store.On cwd dir) {c : Str} (hc : IsNewId c) (ownerId : Str) :
    Agrees (Mirrors cwd dir) (fun _ => True) (store.base.getForOwner c ownerId)
      (inMemoryCaseStore.getForOwner c ownerId) := by
  refine (agrees_get hon hc).bind fun record _ => ?_
  by_cases howner : record.ownerId ≠ ownerId
  · rw [if_pos howner, if_pos howner]
    exact Agrees.throw
  · rw [if_neg howner, if_neg howner]
    exact Agrees.ret trivial

theorem agrees_transition (hon : store.On cwd dir) {c : Str} (hc : IsNewId c) (event : CaseEvent)
    {patch : CaseRecord → Except JsError CasePatch} (now : Str)
    (hpatch : ∀ record changes c', patch record = .ok changes → changes.caseId = some c' →
      IsNewId c') :
    Agrees (Mirrors cwd dir) (fun _ => True) (store.base.transition c event patch now)
      (inMemoryCaseStore.transition c event patch now) := by
  refine (agrees_get hon hc).bind fun current hcurrent => ?_
  refine (Agrees.lift fun _ _ => trivial).bind (Q := fun _ => True) fun nextState _ => ?_
  refine (Agrees.lift (Q := fun changes => patch current = .ok changes) fun _ h => h).bind
    fun changes hchanges => ?_
  have hid : IsNewId (current.patched changes nextState now).caseId := by
    show IsNewId (changes.caseId.getD current.caseId)
    cases hset : changes.caseId with
    | none => exact hcurrent
    | some c' => exact hpatch current changes c' hchanges hset
  exact (agrees_save hon hid).bind fun _ _ => Agrees.ret trivial

theorem agrees_call (hon : store.On cwd dir) {call : CaseStoreCall} (hids : call.Ids) :
    Agrees (Mirrors cwd dir) (fun _ => True) (store.base.call call)
      (inMemoryCaseStore.call call) := by
  cases call with
  | create record => exact (agrees_create hon hids).bind fun _ _ => Agrees.ret trivial
  | get c =>
    refine Agrees.bind (Q := fun _ => True) ((agrees_get hon hids).mono fun _ _ => trivial) ?_
    exact fun record _ => Agrees.ret trivial
  | getForOwner c ownerId =>
    exact (agrees_getForOwner hon hids ownerId).bind fun record _ => Agrees.ret trivial
  | transition c event patch now =>
    exact (agrees_transition hon hids.1 event now hids.2).bind fun record _ => Agrees.ret trivial

/-! ## Lists -/

/-- The records of an owner, each once, the newest first. -/
structure OwnersRecords (collator : Collator) (records : Records) (ownerId : Str)
    (list : List CaseRecord) : Prop where
  mem_iff : ∀ record, record ∈ list ↔ (∃ c, records c = some record) ∧ record.ownerId = ownerId
  once : (list.map CaseRecord.caseId).Nodup
  newest : list.Pairwise fun a b => collator.localeCompare b.createdAt a.createdAt ≤ 0

/-- The record of a case, if it is the owner's. -/
def ownedRecord (records : Records) (ownerId c : Str) : Option CaseRecord :=
  (records c).filter fun record => record.ownerId = ownerId

theorem ownedRecord_eq_some_iff {ownerId c : Str} {record : CaseRecord} :
    ownedRecord records ownerId c = some record ↔
      records c = some record ∧ record.ownerId = ownerId := by
  simp [ownedRecord, Option.filter_eq_some_iff]

/-- The timestamps of such records do not increase. -/
theorem OwnersRecords.timestamps {collator : Collator} {ownerId : Str} {list : List CaseRecord}
    (h : OwnersRecords collator records ownerId list)
    (htimes : ∀ record ∈ list, IsTimestamp record.createdAt) :
    list.Pairwise fun a b => strLe b.createdAt a.createdAt = true := by
  refine h.newest.imp_of_mem fun {a b} ha hb hle => ?_
  exact (collator.timestamps _ _ (htimes b hb) (htimes a ha)).mp hle

/-- The files that are listed are those of the records. -/
theorem Mirrors.exists_ids (h : Mirrors cwd dir fs records) (hon : store.On cwd dir)
    {files : List Str} (hlists : fs.Lists store.dataDir files) :
    ∃ ids : List Str, ids.map fileName = files ∧ ids.Nodup ∧
      ∀ c, c ∈ ids ↔ ∃ record, records c = some record := by
  have hperm : files.Perm (fs.names dir) := by
    unfold FileSystem.Lists at hlists
    rw [h.cwd, hon.resolve_dataDir] at hlists
    exact hlists
  have hnamed : files ∈ Set.range (List.map fileName) := by
    rw [Set.range_list_map]
    intro name hname
    obtain ⟨bytes, hbytes⟩ := FileSystem.mem_names.mp (hperm.mem_iff.mp hname)
    obtain ⟨c, hc⟩ := h.named name bytes hbytes
    exact ⟨c, hc.symm⟩
  obtain ⟨ids, rfl⟩ := hnamed
  refine ⟨ids, rfl, ?_, fun c => ?_⟩
  · exact List.Nodup.of_map _ (hperm.nodup_iff.mpr (fs.nodup_names dir))
  · rw [← List.mem_map_of_injective fun _ _ => fileName_inj, hperm.mem_iff, FileSystem.mem_names,
      h.file c]
    cases records c <;> simp

theorem recordsOf_cons {ownerId file raw : Str} {files : List Str} {record : CaseRecord}
    {list : List CaseRecord} (hjson : (js ".json").isSuffixOf file = true)
    (hread : fs.readFile (Path.join [store.dataDir, file]) = .ok raw)
    (hparse : parseRecord raw = .ok record) (hrest : store.recordsOf fs ownerId files = .ok list) :
    store.recordsOf fs ownerId (file :: files) =
      .ok (if record.ownerId = ownerId then record :: list else list) := by
  rw [FileCaseStore.recordsOf, if_pos hjson, hread]
  simp only [bind, Except.bind, hparse, hrest]
  rfl

theorem Mirrors.recordsOf (h : Mirrors cwd dir fs records) (hon : store.On cwd dir) (ownerId : Str)
    {ids : List Str} (hids : ∀ c ∈ ids, ∃ record, records c = some record) :
    store.recordsOf fs ownerId (ids.map fileName) =
      .ok (ids.filterMap (ownedRecord records ownerId)) := by
  induction ids with
  | nil => rfl
  | cons c ids ih =>
    have hrest := ih fun c' hc' => hids c' (List.mem_cons_of_mem _ hc')
    obtain ⟨record, hrecord⟩ := hids c List.mem_cons_self
    have hpath := resolve_pathFor hon (h.keyed c record hrecord).2
    have hjson : (js ".json").isSuffixOf (fileName c) = true :=
      List.isSuffixOf_iff_suffix.mpr (List.suffix_append _ _)
    have hread := h.readFile hpath hrecord
    rw [List.map_cons, recordsOf_cons hjson hread (parseRecord_recordText record) hrest,
      List.filterMap_cons, ownedRecord, hrecord, Option.filter_some]
    by_cases howner : record.ownerId = ownerId
    · simp [howner]
    · simp [howner]

theorem newestFirst_perm (collator : Collator) (list : List CaseRecord) :
    (newestFirst collator list).Perm list := List.mergeSort_perm _ _

theorem pairwise_newestFirst (collator : Collator) (list : List CaseRecord) :
    (newestFirst collator list).Pairwise fun a b =>
      collator.localeCompare b.createdAt a.createdAt ≤ 0 := by
  have hsorted : (newestFirst collator list).Pairwise fun a b =>
      decide (collator.localeCompare b.createdAt a.createdAt ≤ 0) = true := by
    apply List.pairwise_mergeSort
    · intro a b c hab hbc
      rw [decide_eq_true_eq] at hab hbc ⊢
      exact collator.trans _ _ _ hbc hab
    · intro a b
      rw [Bool.or_eq_true, decide_eq_true_eq, decide_eq_true_eq]
      exact collator.total _ _
  exact hsorted.imp fun h => of_decide_eq_true h

theorem Mirrors.listForOwner (h : Mirrors cwd dir fs records) (hon : store.On cwd dir)
    (collator : Collator) (ownerId : Str) {files : List Str}
    (hlists : fs.Lists store.dataDir files) :
    ∃ list, invoke (store.listForOwner collator files ownerId) fs = (.ok list, fs) ∧
      OwnersRecords collator records ownerId list := by
  obtain ⟨ids, rfl, hnodup, hids⟩ := h.exists_ids hon hlists
  have hfound := h.recordsOf hon ownerId fun c hc => (hids c).mp hc
  have hperm := newestFirst_perm collator (ids.filterMap (ownedRecord records ownerId))
  refine ⟨newestFirst collator (ids.filterMap (ownedRecord records ownerId)), ?_, ?_⟩
  · refine (invoke_bind_ok (invoke_get fs)).trans ?_
    rw [h.mkdir hon, invoke_bind_ok (invoke_lift _ fs), hfound, invoke_bind_ok (invoke_lift _ fs)]
    rfl
  refine ⟨fun record => ?_, ?_, pairwise_newestFirst _ _⟩
  · rw [hperm.mem_iff, List.mem_filterMap]
    constructor
    · rintro ⟨c, -, hc⟩
      obtain ⟨hrecord, howner⟩ := ownedRecord_eq_some_iff.mp hc
      exact ⟨⟨c, hrecord⟩, howner⟩
    · rintro ⟨⟨c, hrecord⟩, howner⟩
      exact ⟨c, (hids c).mpr ⟨record, hrecord⟩, ownedRecord_eq_some_iff.mpr ⟨hrecord, howner⟩⟩
  · rw [(hperm.map _).nodup_iff, List.Nodup, List.pairwise_map]
    refine List.Pairwise.filterMap _ (fun c c' hne record hrecord record' hrecord' heq => ?_) hnodup
    have hkey := (h.keyed c record (ownedRecord_eq_some_iff.mp hrecord).1).1
    have hkey' := (h.keyed c' record' (ownedRecord_eq_some_iff.mp hrecord').1).1
    exact hne (by rw [← hkey, ← hkey', heq])

/-! ## Both stores -/

/-- The calls, made one at a time, each to the store it is for. -/
def callFiles (calls : List (FileCaseStore × CaseStoreCall)) :
    FileSystem → List (Except JsError (Option CaseRecord)) × FileSystem :=
  serve (calls.map fun p => p.1.base.call p.2)

/-- The same calls to a store in memory. -/
def callMemory (calls : List (FileCaseStore × CaseStoreCall)) :
    Records → List (Except JsError (Option CaseRecord)) × Records :=
  serve (calls.map fun p => inMemoryCaseStore.call p.2)

/-- An empty directory mirrors a store without records. -/
theorem Mirrors.of_vacant (h : fs.Vacant dir) : Mirrors fs.cwd dir fs fun _ => none := by
  refine ⟨rfl, fun above habove => h above (.inl habove), fun c => ?_, fun name bytes hname => ?_,
    fun c record hrecord => absurd hrecord (Option.some_ne_none record).symm⟩
  · rw [h _ (.inr (List.prefix_append dir _)), Option.map_none]
  · have hnone := h (dir ++ [name]) (.inr (List.prefix_append dir _))
    exact absurd (hnone.symm.trans hname) (Option.some_ne_none bytes).symm

theorem forall₂_agrees {calls : List (FileCaseStore × CaseStoreCall)}
    (hcalls : ∀ p ∈ calls, p.1.On cwd dir ∧ p.2.Ids) :
    List.Forall₂ (Agrees (Mirrors cwd dir) fun _ => True)
      (calls.map fun p => p.1.base.call p.2) (calls.map fun p => inMemoryCaseStore.call p.2) := by
  rw [List.forall₂_map_left_iff, List.forall₂_map_right_iff, List.forall₂_same]
  intro p hp
  obtain ⟨hon, hids⟩ := hcalls p hp
  exact agrees_call hon hids

/-- File stores on one directory, empty at first, answer calls as one store in memory does, and
list the records of an owner that it holds. -/
theorem fileCaseStore_answers_as_memory {calls : List (FileCaseStore × CaseStoreCall)}
    (hvacant : fs.Vacant dir) (hcalls : ∀ p ∈ calls, p.1.On fs.cwd dir ∧ p.2.Ids) :
    (callFiles calls fs).1 = (callMemory calls fun _ => none).1 ∧
      ∀ store : FileCaseStore, store.On fs.cwd dir → ∀ collator ownerId files,
        (callFiles calls fs).2.Lists store.dataDir files →
        ∃ list, invoke (store.listForOwner collator files ownerId) (callFiles calls fs).2 =
            (.ok list, (callFiles calls fs).2) ∧
          OwnersRecords collator (callMemory calls fun _ => none).2 ownerId list ∧
          ((∀ record ∈ list, IsTimestamp record.createdAt) →
            list.Pairwise fun a b => strLe b.createdAt a.createdAt = true) := by
  obtain ⟨hanswers, hmirrors⟩ := serve_agrees (forall₂_agrees hcalls) (Mirrors.of_vacant hvacant)
  refine ⟨hanswers, fun store hon collator ownerId files hlists => ?_⟩
  obtain ⟨list, hlist, howners⟩ := hmirrors.listForOwner hon collator ownerId hlists
  exact ⟨list, hlist, howners, howners.timestamps⟩

/-! ## A sample -/

def firstId : Str := js "case_0b5c2f3e-8a57-4b0e-9b0a-3f1d9a6c7e21"

def secondId : Str := js "case_7d1e4a90-1c3b-4f6d-8e2f-5a4b3c2d1e0f"

def emptySystem : FileSystem := ⟨[js "srv"], [], List.nodup_nil⟩

/-- Two cases; the first is submitted, twice, and read through a store that has been opened anew. -/
def fileCalls : List (FileCaseStore × CaseStoreCall) :=
  let store : FileCaseStore := ⟨js "data"⟩
  let reopened : FileCaseStore := ⟨js "/srv/data/"⟩
  [(store, .create (bareRecord firstId .draft)),
    (store, .create { bareRecord secondId .draft with ownerId := js "user_2" }),
    (reopened, .transition firstId .submit (fun _ => .ok {}) (js "2026-01-02T00:00:00.000Z")),
    (store, .transition firstId .submit (fun _ => .ok {}) (js "2026-01-03T00:00:00.000Z")),
    (reopened, .getForOwner secondId (js "user_1")),
    (reopened, .get firstId)]

theorem isNewId_firstId : IsNewId firstId :=
  ⟨js "case", js "0b5c2f3e-8a57-4b0e-9b0a-3f1d9a6c7e21", by decide, by decide, rfl⟩

theorem isNewId_secondId : IsNewId secondId :=
  ⟨js "case", js "7d1e4a90-1c3b-4f6d-8e2f-5a4b3c2d1e0f", by decide, by decide, rfl⟩

theorem on_data : (⟨js "data"⟩ : FileCaseStore).On [js "srv"] [js "srv", js "data"] :=
  ⟨by decide, by decide⟩

theorem on_srv_data : (⟨js "/srv/data/"⟩ : FileCaseStore).On [js "srv"] [js "srv", js "data"] :=
  ⟨by decide, by decide⟩

theorem fileCalls_on : ∀ p ∈ fileCalls, p.1.On emptySystem.cwd [js "srv", js "data"] ∧ p.2.Ids := by
  unfold fileCalls
  simp only [List.forall_mem_cons]
  refine ⟨⟨on_data, isNewId_firstId⟩, ⟨on_data, isNewId_secondId⟩,
    ⟨on_srv_data, isNewId_firstId, ?_⟩, ⟨on_data, isNewId_firstId, ?_⟩,
    ⟨on_srv_data, isNewId_secondId⟩, ⟨on_srv_data, isNewId_firstId⟩, ?_⟩
  · intro record changes c hpatch hset
    cases hpatch
    cases hset
  · intro record changes c hpatch hset
    cases hpatch
    cases hset
  · exact fun _ hp => absurd hp List.not_mem_nil

theorem fileCaseStore_answers_as_memory_sample :
    (callFiles fileCalls emptySystem).1.map (fun r => r.toOption.map (·.map CaseRecord.state)) =
        [some none, some none, some (some .submitted), none, none, some (some .submitted)] ∧
      ∃ files list, (callFiles fileCalls emptySystem).2.Lists (js "data") files ∧
        invoke (FileCaseStore.listForOwner ⟨js "data"⟩ .codeUnits files (js "user_1"))
          (callFiles fileCalls emptySystem).2 = (.ok list, (callFiles fileCalls emptySystem).2) ∧
        ∃ record ∈ list, record.caseId = firstId ∧ record.state = .submitted := by
  have hvacant : emptySystem.Vacant [js "srv", js "data"] := fun _ _ => rfl
  obtain ⟨hanswers, hlist⟩ := fileCaseStore_answers_as_memory hvacant fileCalls_on
  refine ⟨?_, ?_⟩
  · rw [hanswers]
    rfl
  · obtain ⟨list, hinvoke, howners, -⟩ := hlist ⟨js "data"⟩ on_data .codeUnits (js "user_1") _
      (List.Perm.refl _)
    have hsubmitted := (howners.mem_iff _).mpr ⟨⟨firstId, rfl⟩, rfl⟩
    exact ⟨_, list, List.Perm.refl _, hinvoke, _, hsubmitted, rfl, rfl⟩

end Clawback
