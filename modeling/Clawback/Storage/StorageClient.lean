import Clawback.Async.Trace
import Clawback.Js.FileSystem
import Clawback.Js.Parse

/-!
# The storage client

`StorageClient.uploadJson` and `downloadJson`: a JSON text goes through a file in a temporary
directory, which is removed in the end. Any number of calls interleave, and the file system and the
SDK may fail at any step. The SDK names what it uploads by its Merkle root, and verifies what it
downloads.

* `happens_of_exec`: what each effect can do.
-/

namespace Clawback

open Js Async

/-- What the client is built with. -/
structure StorageConfig where
  indexerRpc : Str
  evmRpcUrl : Str
  privateKey : Str

/-- What `indexer.upload` results in. -/
inductive UploadResult where
  | single (rootHash txHash : Str)
  | fragments (rootHashes txHashes : List Str)

/-- What an upload returns; `none` is `undefined`. -/
structure UploadedArtifact where
  rootHash : Option Str
  txHash : Option Str
deriving DecidableEq

inductive StorageEffect where
  /-- `mkdtemp(pre)` -/
  | mkdtemp (pre : Str)
  /-- `writeFile(path, contents, "utf8")` -/
  | writeFile (path contents : Str)
  /-- `ZgFile.fromFilePath(path)` -/
  | fromFilePath (path : Str)
  | upload (config : StorageConfig) (file : Nat)
  | close (file : Nat)
  /-- `rm(dir, { recursive: true, force: true })` -/
  | rm (dir : Str)
  /-- `indexer.download(rootHash, path, true)` -/
  | download (indexerRpc rootHash path : Str)
  /-- `readFile(path, "utf8")` -/
  | readFile (path : Str)

/-- What an effect answers; an error of the SDK is its message. -/
@[reducible] def StorageEffect.Answer : StorageEffect → Type
  | mkdtemp _ => Str
  | writeFile _ _ => Unit
  | fromFilePath _ => Nat
  | upload _ _ => UploadResult × Option Str
  | close _ => Unit
  | rm _ => Unit
  | download _ _ _ => Option Str
  | readFile _ => Str

abbrev StorageAction := Prog StorageEffect StorageEffect.Answer JsError

abbrev StorageEntry := Entry StorageEffect StorageEffect.Answer JsError

abbrev StorageTrace := Trace StorageEffect StorageEffect.Answer JsError

/-- `try { p } finally { cleanup }` -/
def tryFinally {α : Type} (p : StorageAction α) (cleanup : StorageAction Unit) :
    StorageAction α := do
  let r ← p.attempt
  cleanup
  Prog.lift r

/-- What a call runs on: `tmpdir()`, and the constructors of ethers and the SDK, which may throw. -/
structure StoragePlatform where
  tmpdir : Str
  tmpdir_ne_nil : tmpdir ≠ []
  config : StorageConfig
  newUpload : Except JsError Unit
  newDownload : Except JsError Unit

def UploadResult.artifact : UploadResult → UploadedArtifact
  | single rootHash txHash => { rootHash := some rootHash, txHash := some txHash }
  | fragments rootHashes txHashes => { rootHash := rootHashes.head?, txHash := txHashes.head? }

/-- `JSON.parse(contents)` -/
def parseArtifact (contents : Str) : Except JsError (Json Int) :=
  match Json.parse contents with
  | some v => .ok v
  | none => .error (.error (js "SyntaxError") (js "Unexpected token in JSON"))

section Client

variable (env : StoragePlatform)

def tempPrefix (name : Str) : Str := Path.join [env.tmpdir, name]

def artifactPath (dir : Str) : Str := Path.join [dir, js "artifact.json"]

def uploadFile (path : Str) : StorageAction UploadedArtifact := do
  let file ← Prog.perform (StorageEffect.fromFilePath path)
  tryFinally
    (do
      let answer ← Prog.perform (StorageEffect.upload env.config file)
      match answer.2 with
      | some message => Prog.throw (.ofMessage (js "0G Storage upload failed: " ++ message))
      | none => return answer.1.artifact)
    (Prog.perform (StorageEffect.close file))

def uploadJson (artifact : Json Int) : StorageAction UploadedArtifact := do
  Prog.lift env.newUpload
  let dir ← Prog.perform (StorageEffect.mkdtemp (tempPrefix env (js "clawback-storage-")))
  Prog.perform (StorageEffect.writeFile (artifactPath dir) (Json.stringify artifact))
  tryFinally (uploadFile env (artifactPath dir)) (Prog.perform (StorageEffect.rm dir))

def downloadFile (rootHash path : Str) : StorageAction (Json Int) := do
  let err ← Prog.perform (StorageEffect.download env.config.indexerRpc rootHash path)
  match err with
  | some message => Prog.throw (.ofMessage (js "0G Storage download failed: " ++ message))
  | none =>
    let contents ← Prog.perform (StorageEffect.readFile path)
    Prog.lift (parseArtifact contents)

def downloadJson (rootHash : Str) : StorageAction (Json Int) := do
  Prog.lift env.newDownload
  let dir ← Prog.perform (StorageEffect.mkdtemp (tempPrefix env (js "clawback-storage-dl-")))
  tryFinally (downloadFile env rootHash (artifactPath dir)) (Prog.perform (StorageEffect.rm dir))

end Client

/-! ## The file system and the network -/

/-- The directories that `mkdtemp` has made, by their places, the files that stand in them, and the
files that are open. -/
structure TempWorld where
  dirs : List (List Str)
  files : List Str → Option Bytes
  opened : Nat → Option (List Str)

namespace TempWorld

def empty : TempWorld where
  dirs := []
  files _ := none
  opened _ := none

variable (w : TempWorld)

def mkdir (place : List Str) : TempWorld := { w with dirs := place :: w.dirs }

def put (place : List Str) (bytes : Bytes) : TempWorld :=
  { w with files := fun p => if p = place then some bytes else w.files p }

/-- The directory is removed, with all that is in it. -/
def remove (place : List Str) : TempWorld :=
  { w with
    dirs := w.dirs.filter (· ≠ place)
    files := fun p => if place <+: p then none else w.files p }

def setOpened (file : Nat) (place : Option (List Str)) : TempWorld :=
  { w with opened := fun n => if n = file then place else w.opened n }

end TempWorld

/-- What the environment decides at an effect. -/
inductive StorageChoice where
  | ok
  | fail (error : JsError)
  /-- the characters that `mkdtemp` appends -/
  | suffix (s : Str)
  | handle (file : Nat)
  | uploaded (txHash : Str)
  | fragments (rootHashes txHashes : List Str)
  /-- the SDK returns an error -/
  | refused (result : UploadResult) (message : Str)
  | downloaded (bytes : Bytes)

/-- `mkdtemp` appends six characters. -/
def IsSuffix (s : Str) : Prop := s.length = 6 ∧ Path.slash ∉ s

instance : DecidablePred IsSuffix := fun _ => inferInstanceAs (Decidable (_ ∧ _))

/-- What the SDK is relied on for: the root of a file, and how large a file may be to be uploaded in
one piece. -/
structure StorageNetwork where
  cwd : List Str
  merkleRoot : Bytes → Str
  fragmentSize : Nat

section Exec

variable (net : StorageNetwork)

/-- The answer of an effect, and the world after it; `none` when the environment cannot make this
choice. -/
def storageExec (e : StorageEffect) (c : StorageChoice) (w : TempWorld) :
    Option (Except JsError e.Answer × TempWorld) :=
  match e, c with
  | _, .fail error => some (.error error, w)
  | .mkdtemp pre, .suffix s =>
    if IsSuffix s ∧ Path.resolve net.cwd (pre ++ s) ∉ w.dirs then
      some (.ok (pre ++ s), w.mkdir (Path.resolve net.cwd (pre ++ s)))
    else none
  | .writeFile path contents, .ok =>
    if (Path.resolve net.cwd path).dropLast ∈ w.dirs then
      some (.ok (), w.put (Path.resolve net.cwd path) (utf8Encode contents))
    else none
  | .fromFilePath path, .handle file =>
    if (w.files (Path.resolve net.cwd path)).isSome ∧ w.opened file = none then
      some (.ok file, w.setOpened file (some (Path.resolve net.cwd path)))
    else none
  | .upload _ file, .uploaded txHash =>
    match (w.opened file).bind w.files with
    | some bytes =>
      if bytes.length ≤ net.fragmentSize then
        some (.ok (.single (net.merkleRoot bytes) txHash, none), w)
      else none
    | none => none
  | .upload _ file, .fragments rootHashes txHashes =>
    match (w.opened file).bind w.files with
    | some bytes =>
      if bytes.length ≤ net.fragmentSize then none
      else some (.ok (.fragments rootHashes txHashes, none), w)
    | none => none
  | .upload _ _, .refused result message => some (.ok (result, some message), w)
  | .close file, .ok => some (.ok (), w.setOpened file none)
  | .rm dir, .ok => some (.ok (), w.remove (Path.resolve net.cwd dir))
  | .download _ rootHash path, .downloaded bytes =>
    if (Path.resolve net.cwd path).dropLast ∈ w.dirs ∧ net.merkleRoot bytes = rootHash then
      some (.ok none, w.put (Path.resolve net.cwd path) bytes)
    else none
  | .download _ _ _, .refused _ message => some (.ok (some message), w)
  | .readFile path, .ok =>
    match w.files (Path.resolve net.cwd path) with
    | some bytes => some (.ok (utf8Decode bytes), w)
    | none => none
  | _, _ => none

/-- What an effect can do. -/
inductive Happens (w : TempWorld) : StorageEntry → TempWorld → Prop
  | fail {e error} : Happens w ⟨e, .error error⟩ w
  | mkdtemp {pre s} : IsSuffix s → Path.resolve net.cwd (pre ++ s) ∉ w.dirs →
    Happens w ⟨.mkdtemp pre, .ok (pre ++ s)⟩ (w.mkdir (Path.resolve net.cwd (pre ++ s)))
  | writeFile {path contents} :
    Happens w ⟨.writeFile path contents, .ok ()⟩
      (w.put (Path.resolve net.cwd path) (utf8Encode contents))
  | fromFilePath {path file} : w.opened file = none →
    Happens w ⟨.fromFilePath path, .ok file⟩
      (w.setOpened file (some (Path.resolve net.cwd path)))
  | single {config file bytes txHash} : (w.opened file).bind w.files = some bytes →
    Happens w ⟨.upload config file, .ok (.single (net.merkleRoot bytes) txHash, none)⟩ w
  | fragments {config file bytes rootHashes txHashes} :
    (w.opened file).bind w.files = some bytes → net.fragmentSize < bytes.length →
    Happens w ⟨.upload config file, .ok (.fragments rootHashes txHashes, none)⟩ w
  | notUploaded {config file result message} :
    Happens w ⟨.upload config file, .ok (result, some message)⟩ w
  | close {file} : Happens w ⟨.close file, .ok ()⟩ (w.setOpened file none)
  | rm {dir} : Happens w ⟨.rm dir, .ok ()⟩ (w.remove (Path.resolve net.cwd dir))
  | download {rpc path bytes} :
    Happens w ⟨.download rpc (net.merkleRoot bytes) path, .ok none⟩
      (w.put (Path.resolve net.cwd path) bytes)
  | notDownloaded {rpc rootHash path message} :
    Happens w ⟨.download rpc rootHash path, .ok (some message)⟩ w
  | readFile {path bytes} : w.files (Path.resolve net.cwd path) = some bytes →
    Happens w ⟨.readFile path, .ok (utf8Decode bytes)⟩ w

variable {net}

theorem happens_of_exec {e : StorageEffect} {c : StorageChoice} {w w' : TempWorld}
    {r : Except JsError e.Answer} (h : storageExec net e c w = some (r, w')) :
    Happens net w ⟨e, r⟩ w' := by
  unfold storageExec at h
  split at h
  · cases h
    exact .fail
  · split at h <;> cases h
    rename_i hfree
    exact .mkdtemp hfree.1 hfree.2
  · split at h <;> cases h
    exact .writeFile
  · split at h <;> cases h
    rename_i hfree
    exact .fromFilePath hfree.2
  · split at h
    · split at h <;> cases h
      rename_i hbytes _
      exact .single hbytes
    · cases h
  · split at h
    · split at h <;> cases h
      rename_i hbytes hlarge
      exact .fragments hbytes (Nat.lt_of_not_le hlarge)
    · cases h
  · cases h
    exact .notUploaded
  · cases h
    exact .close
  · cases h
    exact .rm
  · split at h <;> cases h
    rename_i hroot
    obtain ⟨-, rfl⟩ := hroot
    exact .download
  · cases h
    exact .notDownloaded
  · split at h <;> cases h
    rename_i hbytes
    exact .readFile hbytes
  · cases h

end Exec

/-! ## Calls -/

inductive StorageCall where
  | uploadJson (artifact : Json Int)
  | downloadJson (rootHash : Str)

inductive StorageResult where
  | uploaded (artifact : UploadedArtifact)
  | downloaded (artifact : Json Int)

def startStorage (env : StoragePlatform) : StorageCall → StorageAction StorageResult
  | .uploadJson artifact => do return .uploaded (← uploadJson env artifact)
  | .downloadJson rootHash => do return .downloaded (← downloadJson env rootHash)

/-- Calls that share a file system and a network. -/
def storageSystem (env : StoragePlatform) (net : StorageNetwork) :
    System StorageCall StorageEffect StorageEffect.Answer JsError TempWorld StorageChoice
      StorageResult where
  start := startStorage env
  exec := storageExec net

end Clawback
