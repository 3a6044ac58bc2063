import Clawback.Async.Ownership
import Clawback.Storage.StorageClient

/-!
# Temporary files

Uploads and downloads that interleave, each with a directory of its own. Every effect may fail.

* `start_asks`: what a call asks for, one thing after another, whatever it is answered.
* `temp_manages`: directories and open files belong to the call that has made them.
* `temp_released`: what is left over belongs to a call that is running, or has not been able to give
  it back.
* `download_restores`: what has been uploaded is downloaded as it was.
-/

namespace Clawback

open Js Async

/-! ## How far a call has come -/

namespace Transfer

inductive Phase where
  | begun
  | made
  | written
  | opened
  | sent (result : Except JsError StorageResult)
  | fetched
  | leaving (result : Except JsError StorageResult)
  | ended (result : Except JsError StorageResult)

end Transfer

/-- The directory and the open file of a call, and how far it has come. -/
structure Transfer where
  dir : Option Str
  file : Option Nat
  phase : Transfer.Phase

/-- What an upload has resulted in. -/
def sentResult : Except JsError (UploadResult × Option Str) → Except JsError StorageResult
  | .ok (result, none) => .ok (.uploaded result.artifact)
  | .ok (_, some message) => .error (.ofMessage (js "0G Storage upload failed: " ++ message))
  | .error error => .error error

/-- What has been read. -/
def readResult (read : Except JsError Str) : Except JsError StorageResult := do
  return .downloaded (← parseArtifact (← read))

namespace Transfer

def start : Transfer := ⟨none, none, .begun⟩

/-- An effect has been answered. -/
def after : Transfer → StorageEntry → Transfer
  | _, ⟨.mkdtemp _, .ok dir⟩ => ⟨some dir, none, .made⟩
  | s, ⟨.mkdtemp _, .error error⟩ => { s with phase := .ended (.error error) }
  | s, ⟨.writeFile _ _, .ok _⟩ => { s with phase := .written }
  | s, ⟨.writeFile _ _, .error error⟩ => { s with phase := .ended (.error error) }
  | s, ⟨.fromFilePath _, .ok file⟩ => { s with file := some file, phase := .opened }
  | s, ⟨.fromFilePath _, .error error⟩ => { s with phase := .leaving (.error error) }
  | s, ⟨.upload _ _, answer⟩ => { s with phase := .sent (sentResult answer) }
  | ⟨dir, _, .sent result⟩, ⟨.close _, .ok _⟩ => ⟨dir, none, .leaving result⟩
  | s, ⟨.close _, .error error⟩ => { s with phase := .leaving (.error error) }
  | s, ⟨.download _ _ _, .ok none⟩ => { s with phase := .fetched }
  | s, ⟨.download _ _ _, .ok (some message)⟩ =>
    { s with phase := .leaving (.error (.ofMessage (js "0G Storage download failed: " ++ message))) }
  | s, ⟨.download _ _ _, .error error⟩ => { s with phase := .leaving (.error error) }
  | s, ⟨.readFile _, read⟩ => { s with phase := .leaving (readResult read) }
  | ⟨_, file, .leaving result⟩, ⟨.rm _, .ok _⟩ => ⟨none, file, .ended result⟩
  | s, ⟨.rm _, .error error⟩ => { s with phase := .ended (.error error) }
  | s, _ => s

/-- What a call asks for next. -/
inductive Asks (env : StoragePlatform) : StorageCall → Transfer → StorageEffect → Prop
  | mkdtemp {k name} : Path.IsName name → Asks env k start (.mkdtemp (tempPrefix env name))
  | writeFile {v dir} :
    Asks env (.uploadJson v) ⟨some dir, none, .made⟩
      (.writeFile (artifactPath dir) (Json.stringify v))
  | fromFilePath {v dir} :
    Asks env (.uploadJson v) ⟨some dir, none, .written⟩ (.fromFilePath (artifactPath dir))
  | upload {v dir file} :
    Asks env (.uploadJson v) ⟨some dir, some file, .opened⟩ (.upload env.config file)
  | close {v dir file result} :
    Asks env (.uploadJson v) ⟨some dir, some file, .sent result⟩ (.close file)
  | download {rootHash dir} :
    Asks env (.downloadJson rootHash) ⟨some dir, none, .made⟩
      (.download env.config.indexerRpc rootHash (artifactPath dir))
  | readFile {rootHash dir} :
    Asks env (.downloadJson rootHash) ⟨some dir, none, .fetched⟩ (.readFile (artifactPath dir))
  | rm {k dir file result} : Asks env k ⟨some dir, file, .leaving result⟩ (.rm dir)

/-- A call has ended: it is over, or has not begun to do anything. -/
def Ended (s : Transfer) (result : Except JsError StorageResult) : Prop :=
  s.phase = .ended result ∨ s = start ∧ ∃ error, result = .error error

end Transfer

/-- How far a call has come that has been answered this. -/
def transfer (tr : StorageTrace) : Transfer := tr.foldl Transfer.after Transfer.start

theorem transfer_append (tr : StorageTrace) (a : StorageEntry) :
    transfer (tr ++ [a]) = (transfer tr).after a := by
  rw [transfer, List.foldl_append]
  rfl

/-- What a call may ask for after its trace. -/
def TransferRule (env : StoragePlatform) (k : StorageCall) (tr : StorageTrace) (e : StorageEffect) :
    Prop :=
  (transfer tr).Asks env k e

/-! ## A call asks for one thing after another -/

theorem tryFinally_obeys {α : Type} {P : StorageTrace → StorageEffect → Prop}
    {Q : Except JsError α → StorageTrace → Prop} {p : StorageAction α}
    {cleanup : StorageAction Unit} {tr : StorageTrace}
    (h : Obeys P (fun r tr' => Obeys P (fun done => Q (done >>= fun _ => r)) cleanup tr') p tr) :
    Obeys P Q (tryFinally p cleanup) tr := by
  refine Obeys.bind (Obeys.attempt (h.mono fun r tr' hcleanup => ?_))
  refine Obeys.bind (hcleanup.mono fun done tr'' hdone => ?_)
  cases done with
  | ok _ => exact Obeys.lift hdone
  | error error => exact hdone

section Asks

variable {env : StoragePlatform} {k : StorageCall} {tr : StorageTrace} {dir : Str}

/-- Whatever an effect is answered, the call has come further. -/
theorem perform_asks {s : Transfer} {e : StorageEffect}
    {Q : Except JsError e.Answer → StorageTrace → Prop} (hs : transfer tr = s)
    (he : s.Asks env k e) (hQ : ∀ r tr', transfer tr' = s.after ⟨e, r⟩ → Q r tr') :
    Obeys (TransferRule env k) Q (Prog.perform e : StorageAction e.Answer) tr := by
  have hallowed : TransferRule env k tr e := by
    unfold TransferRule
    rw [hs]
    exact he
  refine Obeys.perform hallowed fun r => hQ r _ ?_
  rw [transfer_append, hs]

/-- The directory is removed in the end. -/
theorem rm_asks {α : Type} {wrap : α → StorageResult} {r : Except JsError α}
    (hs : ∃ file, transfer tr = ⟨some dir, file, .leaving (wrap <$> r)⟩) :
    Obeys (TransferRule env k)
      (fun done tr' => (transfer tr').phase = .ended (wrap <$> (done >>= fun _ => r)))
      (Prog.perform (StorageEffect.rm dir)) tr := by
  obtain ⟨file, hs⟩ := hs
  refine perform_asks hs .rm fun done tr' hs' => ?_
  rw [hs']
  cases done <;> rfl

theorem uploadFile_asks {v : Json Int} (hs : transfer tr = ⟨some dir, none, .written⟩) :
    Obeys (TransferRule env (.uploadJson v))
      (fun r tr' => ∃ file, transfer tr' = ⟨some dir, file, .leaving (.uploaded <$> r)⟩)
      (uploadFile env (artifactPath dir)) tr := by
  refine Obeys.bind (perform_asks hs .fromFilePath fun r tr hs => ?_)
  cases r with
  | error error => exact ⟨none, hs⟩
  | ok file =>
    refine tryFinally_obeys (Obeys.bind (perform_asks hs .upload fun r tr hs => ?_))
    -- the file is closed whatever the upload has resulted in
    have hclose : ∀ result : Except JsError UploadedArtifact,
        transfer tr = ⟨some dir, some file, .sent (.uploaded <$> result)⟩ →
          Obeys (TransferRule env (.uploadJson v)) (fun done tr' => ∃ file, transfer tr' =
              ⟨some dir, file, .leaving (.uploaded <$> (done >>= fun _ => result))⟩)
            (Prog.perform (StorageEffect.close file)) tr := by
      intro result hs
      refine perform_asks hs .close fun done tr hs => ?_
      cases done with
      | ok _ => exact ⟨none, hs⟩
      | error error => exact ⟨some file, hs⟩
    rcases r with error | ⟨result, _ | message⟩
    · exact hclose _ hs
    · exact hclose _ hs
    · exact hclose _ hs

theorem downloadFile_asks {rootHash : Str} (hs : transfer tr = ⟨some dir, none, .made⟩) :
    Obeys (TransferRule env (.downloadJson rootHash))
      (fun r tr' => ∃ file, transfer tr' = ⟨some dir, file, .leaving (.downloaded <$> r)⟩)
      (downloadFile env rootHash (artifactPath dir)) tr := by
  refine Obeys.bind (perform_asks hs .download fun r tr hs => ?_)
  rcases r with error | _ | message
  · exact ⟨none, hs⟩
  · refine Obeys.bind (perform_asks hs .readFile fun r tr hs => ?_)
    cases r with
    | error error => exact ⟨none, hs⟩
    | ok contents => exact Obeys.lift ⟨none, hs⟩
  · exact ⟨none, hs⟩

/-- An error before the directory is made, or in making it, ends the call. -/
theorem ended_of_error {tr' : StorageTrace} {pre : Str} {error : JsError}
    (hs : transfer tr' = Transfer.start.after ⟨.mkdtemp pre, .error error⟩) :
    (transfer tr').Ended (.error error) := by
  rw [hs]
  exact .inl rfl

/-- Whatever it is answered, a call asks for one thing after another, and has then ended. -/
theorem start_asks (env : StoragePlatform) (k : StorageCall) :
    Obeys (TransferRule env k) (fun r tr => (transfer tr).Ended r) (startStorage env k) [] := by
  cases k with
  | uploadJson v =>
    refine Obeys.bind (Obeys.lift_bind (fun _ _ => ?_) fun error => .inr ⟨rfl, error, rfl⟩)
    refine Obeys.bind (perform_asks rfl (.mkdtemp ?_) fun r tr hs => ?_)
    · exact ⟨by decide, by decide, by decide, by decide⟩
    cases r with
    | error error => exact ended_of_error hs
    | ok dir =>
      refine Obeys.bind (perform_asks hs .writeFile fun r tr hs => ?_)
      cases r with
      | error error =>
        refine .inl ?_
        rw [hs]
        rfl
      | ok _ =>
        refine tryFinally_obeys ((uploadFile_asks hs).mono fun r tr hs => ?_)
        refine (rm_asks hs).mono fun done tr hover => ?_
        generalize (done >>= fun _ => r) = result at hover
        cases result with
        | ok artifact => exact .inl hover
        | error error => exact .inl hover
  | downloadJson rootHash =>
    refine Obeys.bind (Obeys.lift_bind (fun _ _ => ?_) fun error => .inr ⟨rfl, error, rfl⟩)
    refine Obeys.bind (perform_asks rfl (.mkdtemp ?_) fun r tr hs => ?_)
    · exact ⟨by decide, by decide, by decide, by decide⟩
    cases r with
    | error error => exact ended_of_error hs
    | ok dir =>
      refine tryFinally_obeys ((downloadFile_asks hs).mono fun r tr hs => ?_)
      refine (rm_asks hs).mono fun done tr hover => ?_
      generalize (done >>= fun _ => r) = result at hover
      cases result with
      | ok artifact => exact .inl hover
      | error error => exact .inl hover

end Asks

/-! ## Directories and open files -/

inductive Resource where
  | dir (place : List Str)
  | file (n : Nat)

/-- The call has made the directory or opened the file, and not given it back. -/
def Transfer.Holds (cwd : List Str) (s : Transfer) : Resource → Prop
  | .dir place => ∃ dir, s.dir = some dir ∧ Path.resolve cwd dir = place
  | .file n => s.file = some n

def Transfer.held (cwd : List Str) (s : Transfer) : Set Resource := {x | s.Holds cwd x}

def TempWorld.InUse (w : TempWorld) : Resource → Prop
  | .dir place => place ∈ w.dirs
  | .file n => w.opened n ≠ none

def TempWorld.live (w : TempWorld) : Set Resource := {x | w.InUse x}

section Resources

variable {cwd : List Str} {s s' : Transfer} {w : TempWorld}

namespace Transfer

/-- What a call holds depends on its directory and its file only. -/
theorem held_congr (hdir : s.dir = s'.dir) (hfile : s.file = s'.file) :
    s.held cwd = s'.held cwd := by
  ext x
  cases x with
  | dir place =>
    change (∃ dir, s.dir = some dir ∧ _) ↔ ∃ dir, s'.dir = some dir ∧ _
    rw [hdir]
  | file n =>
    change s.file = some n ↔ s'.file = some n
    rw [hfile]

theorem held_made {dir : Str} (hnone : s.dir = none) (hdir : s'.dir = some dir)
    (hfile : s'.file = s.file) :
    s'.held cwd = insert (.dir (Path.resolve cwd dir)) (s.held cwd) := by
  ext x
  cases x with
  | dir place => simp [held, Holds, hnone, hdir, eq_comm]
  | file n => simp [held, Holds, hfile]

theorem held_opened {n : Nat} (hnone : s.file = none) (hfile : s'.file = some n)
    (hdir : s'.dir = s.dir) : s'.held cwd = insert (.file n) (s.held cwd) := by
  ext x
  cases x with
  | dir place => simp [held, Holds, hdir]
  | file m => simp [held, Holds, hnone, hfile, eq_comm]

theorem held_removed {dir : Str} (hdir : s.dir = some dir) (hnone : s'.dir = none)
    (hfile : s'.file = s.file) :
    s'.held cwd = s.held cwd \ {.dir (Path.resolve cwd dir)} := by
  ext x
  cases x with
  | dir place => simp [held, Holds, hnone, hdir, eq_comm]
  | file n => simp [held, Holds, hfile]

theorem held_closed {n : Nat} (hfile : s.file = some n) (hnone : s'.file = none)
    (hdir : s'.dir = s.dir) : s'.held cwd = s.held cwd \ {.file n} := by
  ext x
  cases x with
  | dir place => simp [held, Holds, hdir]
  | file m => simp [held, Holds, hnone, hfile, eq_comm]

end Transfer

namespace TempWorld

theorem live_mkdir (place : List Str) : (w.mkdir place).live = insert (.dir place) w.live := by
  ext x
  cases x with
  | dir other => simp [live, InUse, mkdir]
  | file n => simp [live, InUse, mkdir]

theorem live_remove (place : List Str) : (w.remove place).live = w.live \ {.dir place} := by
  ext x
  cases x with
  | dir other => simp [live, InUse, remove]
  | file n => simp [live, InUse, remove]

theorem live_open (n : Nat) (place : List Str) :
    (w.setOpened n (some place)).live = insert (.file n) w.live := by
  ext x
  cases x with
  | dir other => simp [live, InUse, setOpened]
  | file m => by_cases hm : m = n <;> simp [live, InUse, setOpened, hm]

theorem live_close (n : Nat) : (w.setOpened n none).live = w.live \ {.file n} := by
  ext x
  cases x with
  | dir other => simp [live, InUse, setOpened]
  | file m => by_cases hm : m = n <;> simp [live, InUse, setOpened, hm]

end TempWorld

/-! ## Every call has its own -/

variable {env : StoragePlatform} {net : StorageNetwork} {k : StorageCall} {e : StorageEffect}
  {r : Except JsError e.Answer} {w' : TempWorld}

/-- What an effect of a call does to the directories and the open files. -/
theorem handover_of_asks (he : s.Asks env k e) (h : Happens net w ⟨e, r⟩ w') :
    Handover (s.held net.cwd) ((s.after ⟨e, r⟩).held net.cwd) w.live w'.live := by
  have hkeep : ∀ {s' : Transfer} {w' : TempWorld}, s'.dir = s.dir → s'.file = s.file →
      w'.live = w.live → Handover (s.held net.cwd) (s'.held net.cwd) w.live w'.live :=
    fun hdir hfile hlive => .keep (Transfer.held_congr hdir hfile) hlive
  cases he with
  | mkdtemp _ =>
    cases h with
    | fail => exact hkeep rfl rfl rfl
    | @mkdtemp pre suffix _ hfree =>
      exact .acquire (.dir _) hfree (Transfer.held_made rfl rfl rfl)
        (TempWorld.live_mkdir _)
  | writeFile =>
    cases h <;> exact hkeep rfl rfl rfl
  | fromFilePath =>
    cases h with
    | fail => exact hkeep rfl rfl rfl
    | fromFilePath hfree =>
      exact .acquire (.file _) (fun hused => hused hfree) (Transfer.held_opened rfl rfl rfl)
        (TempWorld.live_open _ _)
  | upload => cases h <;> exact hkeep rfl rfl rfl
  | @close _ dir file result =>
    cases h with
    | fail => exact hkeep rfl rfl rfl
    | close =>
      exact .release (.file file) rfl (Transfer.held_closed rfl rfl rfl)
        (TempWorld.live_close file)
  | download => cases h <;> exact hkeep rfl rfl rfl
  | readFile => cases h <;> exact hkeep rfl rfl rfl
  | @rm _ dir file result =>
    cases h with
    | fail => exact hkeep rfl rfl rfl
    | rm =>
      exact .release (.dir _) ⟨dir, rfl, rfl⟩ (Transfer.held_removed rfl rfl rfl)
        (TempWorld.live_remove _)

/-- Directories and open files belong to the calls that have made them. -/
theorem temp_manages (env : StoragePlatform) (net : StorageNetwork) :
    Manages (storageSystem env net) (TransferRule env)
      (fun tr => (transfer tr).held net.cwd) TempWorld.live where
  nil := by
    ext x
    cases x <;> simp [transfer, Transfer.start, Transfer.held, Transfer.Holds]
  handover := by
    intro k tr e c w r w' hasks hexec
    rw [transfer_append]
    exact handover_of_asks hasks (happens_of_exec hexec)

end Resources

/-! ## A sample -/

def sampleStorage : StoragePlatform where
  tmpdir := js "/tmp"
  tmpdir_ne_nil := by decide
  config :=
    { indexerRpc := js "https://indexer", evmRpcUrl := js "https://rpc", privateKey := js "0x1" }
  newUpload := .ok ()
  newDownload := .ok ()

/-- The root of a file spells it out. -/
def sampleNetwork : StorageNetwork where
  cwd := []
  merkleRoot bytes := bytes.map (·.toUInt16)
  fragmentSize := 256

def sampleArtifact : Json Int := .obj [(js "cents", .num 1599), (js "note", .str (js "caf\u00e9"))]

/-- An upload and a download that interleave. -/
def sampleTransfers (removed : StorageChoice) : List (Move StorageCall StorageChoice) :=
  [.call (.uploadJson sampleArtifact),
    .call (.downloadJson (sampleNetwork.merkleRoot (utf8Encode (Json.stringify sampleArtifact)))),
    .step 0 (.suffix (js "aaaaaa")), .step 1 (.suffix (js "bbbbbb")), .step 0 .ok,
    .step 0 (.handle 3), .step 1 (.downloaded (utf8Encode (Json.stringify sampleArtifact))),
    .step 0 (.uploaded (js "0x2")), .step 1 .ok, .step 0 .ok, .step 1 removed, .step 0 .ok]

/-! ## What is left over -/

/-- The call has tried to remove the directory, or has not come to that: it could not write the
file, which is done before the `try` block. -/
def NotRemoved (tr : StorageTrace) (dir : Str) : Prop :=
  ∃ error, ⟨.rm dir, .error error⟩ ∈ tr ∨
    ∃ contents, ⟨.writeFile (artifactPath dir) contents, .error error⟩ ∈ tr

def NotClosed (tr : StorageTrace) (n : Nat) : Prop := ∃ error, ⟨.close n, .error error⟩ ∈ tr

/-- The call is done with its file. -/
def Transfer.Phase.IsLeaving : Phase → Prop
  | leaving _ | ended _ => True
  | _ => False

def Transfer.Phase.IsEnded : Phase → Prop
  | ended _ => True
  | _ => False

theorem Transfer.Phase.IsEnded.isLeaving {phase : Phase} (h : phase.IsEnded) :
    phase.IsLeaving := by
  cases phase <;> first | exact trivial | exact h

section Accounts

variable {tr : StorageTrace} {s : Transfer} {a : StorageEntry}

/-- What a call holds is accounted for. -/
structure Accounted (tr : StorageTrace) (s : Transfer) : Prop where
  made : ∀ dir, s.dir = some dir → ∃ pre, ⟨.mkdtemp pre, .ok dir⟩ ∈ tr
  opened : ∀ n, s.file = some n → ∃ path, ⟨.fromFilePath path, .ok n⟩ ∈ tr
  notClosed : s.phase.IsLeaving → ∀ n, s.file = some n → NotClosed tr n
  notRemoved : s.phase.IsEnded → ∀ dir, s.dir = some dir → NotRemoved tr dir

theorem NotClosed.append {n : Nat} (h : NotClosed tr n) : NotClosed (tr ++ [a]) n := by
  obtain ⟨error, hclose⟩ := h
  exact ⟨error, List.mem_append_left _ hclose⟩

theorem accounted_start : Accounted [] Transfer.start := ⟨nofun, nofun, nofun, nofun⟩

theorem accounted_step {env : StoragePlatform} {k : StorageCall} {e : StorageEffect}
    (hacc : Accounted tr s) (he : s.Asks env k e) (r : Except JsError e.Answer) :
    Accounted (tr ++ [⟨e, r⟩]) (s.after ⟨e, r⟩) := by
  have hnew : ∀ {a : StorageEntry}, a ∈ tr ++ [a] :=
    List.mem_append_right _ (List.mem_singleton_self _)
  have hmade : ∀ {a : StorageEntry} dir, s.dir = some dir →
      ∃ pre, ⟨.mkdtemp pre, .ok dir⟩ ∈ tr ++ [a] :=
    fun dir hdir => (hacc.made dir hdir).imp fun _ => List.mem_append_left _
  have hopened : ∀ {a : StorageEntry} n, s.file = some n →
      ∃ path, ⟨.fromFilePath path, .ok n⟩ ∈ tr ++ [a] :=
    fun n hn => (hacc.opened n hn).imp fun _ => List.mem_append_left _
  cases he with
  | mkdtemp _ =>
    cases r with
    | error error => exact ⟨nofun, nofun, nofun, nofun⟩
    | ok dir =>
      refine ⟨fun _ hdir => ?_, nofun, nofun, nofun⟩
      cases hdir
      exact ⟨_, hnew⟩
  | writeFile =>
    cases r with
    | error error =>
      refine ⟨hmade, nofun, nofun, fun _ _ hdir => ?_⟩
      cases hdir
      exact ⟨error, .inr ⟨_, hnew⟩⟩
    | ok _ => exact ⟨hmade, nofun, nofun, nofun⟩
  | fromFilePath =>
    cases r with
    | error error => exact ⟨hmade, nofun, nofun, nofun⟩
    | ok file =>
      refine ⟨hmade, fun _ hfile => ?_, nofun, nofun⟩
      cases hfile
      exact ⟨_, hnew⟩
  | upload => exact ⟨hmade, hopened, nofun, nofun⟩
  | close =>
    cases r with
    | error error =>
      refine ⟨hmade, hopened, fun _ _ hfile => ?_, nofun⟩
      cases hfile
      exact ⟨error, hnew⟩
    | ok _ => exact ⟨hmade, nofun, nofun, nofun⟩
  | download => rcases r with error | _ | message <;> exact ⟨hmade, nofun, nofun, nofun⟩
  | readFile => cases r <;> exact ⟨hmade, nofun, nofun, nofun⟩
  | @rm _ dir file result =>
    have hclosed : ∀ {a : StorageEntry} n, file = some n → NotClosed (tr ++ [a]) n :=
      fun n hn => (hacc.notClosed trivial n hn).append
    cases r with
    | error error =>
      refine ⟨hmade, hopened, fun _ => hclosed, fun _ _ hdir => ?_⟩
      cases hdir
      exact ⟨error, .inl hnew⟩
    | ok _ => exact ⟨nofun, hopened, fun _ => hclosed, nofun⟩

end Accounts

section Released

variable {env : StoragePlatform} {net : StorageNetwork} {w₀ : TempWorld}

theorem accounted_of_lawful {w : TempWorld}
    {h : History StorageCall StorageEffect StorageEffect.Answer JsError}
    (hl : Lawful (storageSystem env net) (TransferRule env) w₀ h w) (t : Nat) :
    Accounted (own t h) (transfer (own t h)) := by
  induction hl with
  | nil => exact accounted_start
  | called _ _ ih =>
    rw [own_append, own_called, List.append_nil]
    exact ih
  | @did _ _ _ u _ _ _ _ _ _ hasks _ ih =>
    rw [own_did]
    split
    · rename_i htu
      subst htu
      rw [transfer_append]
      exact accounted_step ih hasks _
    · exact ih

variable {moves : List (Move StorageCall StorageChoice)}
  {p : Pool StorageCall StorageEffect StorageEffect.Answer JsError TempWorld StorageResult}

/-- A call that holds something is running, or has ended. -/
theorem running_or_ended (hsound : System.Sound (storageSystem env net) (TransferRule env)
    (fun _ r tr => (transfer tr).Ended r) w₀ p) {t : Nat} {x : Resource}
    (hx : x ∈ (transfer (own t p.history)).held net.cwd) :
    p.result? t = none ∨ (transfer (own t p.history)).phase.IsEnded := by
  cases hresult : p.result? t with
  | none => exact .inl rfl
  | some r =>
    obtain ⟨⟨k, q⟩, hthread, hr⟩ := Option.bind_eq_some_iff.mp hresult
    rcases hsound.result hthread hr with hover | ⟨hstart, -⟩
    · rw [hover]
      exact .inr trivial
    · rw [hstart] at hx
      cases x with
      | dir place =>
        obtain ⟨dir, hdir, -⟩ := hx
        cases hdir
      | file n => cases hx

/-- **What is left over.** In every run of interleaved calls, whatever fails: a temporary directory
that was not there at the start belongs to a call that is still running, or that could not remove it
or not write the file in it; and a file that is still open belongs to a call that is running or could
not close it. -/
theorem temp_released (hrun : (storageSystem env net).run (Pool.init w₀) moves = some p) :
    (∀ place ∈ p.world.dirs, place ∉ w₀.dirs → ∃ t pre dir,
      .did t ⟨.mkdtemp pre, .ok dir⟩ ∈ p.history ∧ Path.resolve net.cwd dir = place ∧
        (p.result? t = none ∨ NotRemoved (own t p.history) dir)) ∧
    (∀ n, p.world.opened n ≠ none → w₀.opened n = none → ∃ t path,
      .did t ⟨.fromFilePath path, .ok n⟩ ∈ p.history ∧
        (p.result? t = none ∨ NotClosed (own t p.history) n)) := by
  have hsound := System.run_lawful (start_asks env) hrun
  have howned := (temp_manages env net).owned hsound.lawful
  refine ⟨fun place hplace hnew => ?_, fun n hopen hnew => ?_⟩
  · rcases howned.live_subset (.dir place) hplace with hbefore | ⟨t, hheld⟩
    · exact absurd hbefore hnew
    obtain ⟨dir, hdir, rfl⟩ := hheld
    have hacc := accounted_of_lawful hsound.lawful t
    obtain ⟨pre, hmade⟩ := hacc.made dir hdir
    refine ⟨t, pre, dir, mem_own.mp hmade, rfl, ?_⟩
    refine (running_or_ended hsound (x := .dir _) ⟨dir, hdir, rfl⟩).imp_right fun hover => ?_
    exact hacc.notRemoved hover dir hdir
  · rcases howned.live_subset (.file n) hopen with hbefore | ⟨t, hheld⟩
    · exact absurd hnew hbefore
    have hacc := accounted_of_lawful hsound.lawful t
    obtain ⟨path, hopened⟩ := hacc.opened n hheld
    refine ⟨t, path, mem_own.mp hopened, ?_⟩
    refine (running_or_ended hsound hheld).imp_right fun hover => ?_
    exact hacc.notClosed hover.isLeaving n hheld

/-- In the sample run, the download cannot remove its directory. -/
theorem temp_released_sample :
    ∃ p place t pre dir, (storageSystem sampleStorage sampleNetwork).run (Pool.init .empty)
        (sampleTransfers (.fail (.ofMessage (js "EBUSY")))) = some p ∧
      place ∈ p.world.dirs ∧ .did t ⟨.mkdtemp pre, .ok dir⟩ ∈ p.history ∧
      Path.resolve sampleNetwork.cwd dir = place ∧ NotRemoved (own t p.history) dir := by
  have hany : ((((storageSystem sampleStorage sampleNetwork).run (Pool.init .empty)
      (sampleTransfers (.fail (.ofMessage (js "EBUSY"))))).any fun p =>
        p.idle && !p.world.dirs.isEmpty)) = true := by decide +kernel
  obtain ⟨p, hrun, hp⟩ := (Option.any_eq_true _ _).mp hany
  obtain ⟨hidle, hleft⟩ := (Bool.and_eq_true _ _).mp hp
  obtain ⟨place, hplace⟩ := List.exists_mem_of_ne_nil p.world.dirs (by simpa using hleft)
  obtain ⟨t, pre, dir, hmade, hdir, hended⟩ :=
    (temp_released hrun).1 place hplace List.not_mem_nil
  refine ⟨p, place, t, pre, dir, hrun, hplace, hmade, hdir, hended.resolve_left fun hnone => ?_⟩
  have hlt : t < p.threads.length :=
    (System.run_lawful (start_asks sampleStorage) hrun).numbered _ hmade
  have hthread := List.getElem?_eq_getElem hlt
  rw [Pool.result?, hthread] at hnone
  exact System.result?_of_idle hidle hthread hnone

end Released

/-! ## What the files contain -/

/-- The file that an artifact is uploaded as. -/
def artifactFile (v : Json Int) : Bytes := utf8Encode (Json.stringify v)

section Content

variable (env : StoragePlatform) (net : StorageNetwork)

/-- Where the file of a call stands. -/
def artifactPlace (dir : Str) : List Str := Path.resolve net.cwd (artifactPath dir)

/-- An upload in one piece returns the root of its file, a download what a file of that root says. -/
def Worth : StorageCall → Except JsError StorageResult → Prop
  | .uploadJson v, .ok (.uploaded artifact) =>
    (artifactFile v).length ≤ net.fragmentSize →
      artifact.rootHash = some (net.merkleRoot (artifactFile v))
  | .downloadJson rootHash, .ok (.downloaded v) =>
    ∃ bytes, net.merkleRoot bytes = rootHash ∧ parseArtifact (utf8Decode bytes) = .ok v
  | _, .ok _ => False
  | _, .error _ => True

/-- The directory stands in the temporary directory. -/
def Placed (dir : Str) : Prop :=
  dir ≠ [] ∧ ∃ name, Path.resolve net.cwd dir = Path.resolve net.cwd env.tmpdir ++ [name]

/-- What a call can rely on. -/
def Transfer.Content (k : StorageCall) (w : TempWorld) (s : Transfer) : Prop :=
  match s.phase with
  | .begun | .made => True
  | .written => ∃ v dir, k = .uploadJson v ∧ s.dir = some dir ∧
    w.files (artifactPlace net dir) = some (artifactFile v)
  | .opened => ∃ v dir file, k = .uploadJson v ∧ s.dir = some dir ∧ s.file = some file ∧
    w.opened file = some (artifactPlace net dir) ∧
    w.files (artifactPlace net dir) = some (artifactFile v)
  | .fetched => ∃ rootHash dir bytes, k = .downloadJson rootHash ∧ s.dir = some dir ∧
    w.files (artifactPlace net dir) = some bytes ∧ net.merkleRoot bytes = rootHash
  | .sent result | .leaving result | .ended result => Worth net k result

structure Transfer.Fits (k : StorageCall) (s : Transfer) (w : TempWorld) : Prop where
  placed : ∀ dir, s.dir = some dir → Placed env net dir
  content : s.Content net k w

end Content

section Fits

variable {env : StoragePlatform} {net : StorageNetwork} {k : StorageCall} {s : Transfer}
  {w w' : TempWorld} {e : StorageEffect} {r : Except JsError e.Answer} {dir : Str}

theorem artifactPlace_eq (h : dir ≠ []) :
    artifactPlace net dir = Path.resolve net.cwd dir ++ [js "artifact.json"] :=
  Path.resolve_join net.cwd h ⟨by decide, by decide, by decide, by decide⟩

theorem placed_of_suffix {name suffix : Str} (hname : Path.IsName name) (hs : IsSuffix suffix) :
    Placed env net (tempPrefix env name ++ suffix) := by
  refine ⟨fun hnil => ?_, name ++ suffix, ?_⟩
  · have hsuffix := hs.1
    rw [(List.append_eq_nil_iff.mp hnil).2] at hsuffix
    cases hsuffix
  · rw [tempPrefix, Path.join_append env.tmpdir_ne_nil hname hs.2]
    exact Path.resolve_join net.cwd env.tmpdir_ne_nil (hname.append hs.2)

theorem put_files (place : List Str) (bytes : Bytes) :
    (w.put place bytes).files place = some bytes := if_pos rfl

theorem worth_of_read (bytes : Bytes) :
    Worth net (.downloadJson (net.merkleRoot bytes)) (readResult (.ok (utf8Decode bytes))) := by
  change Worth net _ (parseArtifact (utf8Decode bytes) >>= fun v => .ok (.downloaded v))
  cases hparse : parseArtifact (utf8Decode bytes) with
  | error error => exact trivial
  | ok v => exact ⟨bytes, rfl, hparse⟩

/-- An upload returns what has been uploaded. -/
theorem worth_of_upload {v : Json Int} {result : StorageResult}
    (h : Worth net (.uploadJson v) (.ok result)) : ∃ artifact, result = .uploaded artifact ∧
      ((artifactFile v).length ≤ net.fragmentSize →
        artifact.rootHash = some (net.merkleRoot (artifactFile v))) := by
  cases result with
  | uploaded artifact => exact ⟨artifact, rfl, h⟩
  | downloaded v => cases h

theorem worth_of_download {rootHash : Str} {result : StorageResult}
    (h : Worth net (.downloadJson rootHash) (.ok result)) : ∃ v, result = .downloaded v := by
  cases result with
  | uploaded artifact => cases h
  | downloaded v => exact ⟨v, rfl⟩

/-- What an effect does fits its call. -/
theorem fits_step (hf : s.Fits env net k w) (he : s.Asks env k e) (h : Happens net w ⟨e, r⟩ w') :
    (s.after ⟨e, r⟩).Fits env net k w' := by
  obtain ⟨hplaced, hcontent⟩ := hf
  cases he with
  | mkdtemp hname =>
    cases h with
    | fail => exact ⟨nofun, by cases k <;> trivial⟩
    | mkdtemp hsuffix _ =>
      refine ⟨fun dir hdir => ?_, trivial⟩
      cases hdir
      exact placed_of_suffix hname hsuffix
  | writeFile =>
    cases h with
    | fail => exact ⟨hplaced, trivial⟩
    | writeFile => exact ⟨hplaced, _, _, rfl, rfl, put_files _ _⟩
  | fromFilePath =>
    cases h with
    | fail => exact ⟨hplaced, trivial⟩
    | fromFilePath _ =>
      obtain ⟨v, dir, hk, hdir, hfile⟩ := hcontent
      cases hdir
      exact ⟨hplaced, v, _, _, hk, rfl, rfl, if_pos rfl, hfile⟩
  | upload =>
    cases h with
    | fail => exact ⟨hplaced, trivial⟩
    | single hbytes =>
      obtain ⟨v, dir, file, hk, hdir, hfile, hopened, hcontent⟩ := hcontent
      cases hk
      cases hfile
      rw [hopened, Option.bind_some, hcontent] at hbytes
      cases hbytes
      exact ⟨hplaced, fun _ => rfl⟩
    | fragments hbytes hlarge =>
      obtain ⟨v, dir, file, hk, hdir, hfile, hopened, hcontent⟩ := hcontent
      cases hk
      cases hfile
      rw [hopened, Option.bind_some, hcontent] at hbytes
      cases hbytes
      exact ⟨hplaced, fun hsmall => absurd hsmall (Nat.not_le_of_lt hlarge)⟩
    | notUploaded => exact ⟨hplaced, trivial⟩
  | close =>
    cases h with
    | fail => exact ⟨hplaced, trivial⟩
    | close => exact ⟨hplaced, hcontent⟩
  | download =>
    cases h with
    | fail => exact ⟨hplaced, trivial⟩
    | download => exact ⟨hplaced, _, _, _, rfl, rfl, put_files _ _, rfl⟩
    | notDownloaded => exact ⟨hplaced, trivial⟩
  | readFile =>
    cases h with
    | fail => exact ⟨hplaced, trivial⟩
    | @readFile _ bytes hbytes =>
      obtain ⟨rootHash, dir, bytes', hk, hdir, hcontent, hroot⟩ := hcontent
      cases hk
      cases hdir
      obtain rfl := Option.some.inj (hbytes.symm.trans hcontent)
      exact ⟨hplaced, hroot ▸ worth_of_read bytes⟩
  | rm =>
    cases h with
    | fail => exact ⟨hplaced, by cases k <;> trivial⟩
    | rm => exact ⟨nofun, hcontent⟩

/-- An effect changes files only in the directory of its call. -/
theorem files_of_asks (hplaced : ∀ dir, s.dir = some dir → Placed env net dir)
    (he : s.Asks env k e) (h : Happens net w ⟨e, r⟩ w') {place : List Str}
    (hplace : ∀ dir, s.dir = some dir → ¬Path.resolve net.cwd dir <+: place) :
    w'.files place = w.files place := by
  have hput : ∀ dir bytes, s.dir = some dir →
      (w.put (artifactPlace net dir) bytes).files place = w.files place := by
    intro dir bytes hdir
    refine if_neg fun heq => hplace dir hdir ?_
    rw [heq, artifactPlace_eq (hplaced dir hdir).1]
    exact List.prefix_append _ _
  cases he with
  | writeFile =>
    cases h with
    | fail => rfl
    | writeFile => exact hput _ _ rfl
  | download =>
    cases h with
    | fail | notDownloaded => rfl
    | download => exact hput _ _ rfl
  | rm =>
    cases h with
    | fail => rfl
    | rm => exact if_neg (hplace _ rfl)
  | _ => cases h <;> rfl

/-- An effect opens and closes only the file of its call. -/
theorem opened_of_asks (he : s.Asks env k e) (h : Happens net w ⟨e, r⟩ w') {n : Nat}
    (hn : s.file ≠ some n) (hopen : w.opened n ≠ none) : w'.opened n = w.opened n := by
  cases he with
  | fromFilePath =>
    cases h with
    | fail => rfl
    | fromFilePath hfree =>
      refine if_neg ?_
      rintro rfl
      exact hopen hfree
  | close =>
    cases h with
    | fail => rfl
    | close =>
      refine if_neg ?_
      rintro rfl
      exact hn rfl
  | _ => cases h <;> rfl

/-- What an effect does leaves what fits another call. -/
theorem fits_other {k' : StorageCall} {s' : Transfer} (hf : s.Fits env net k w)
    (he : s.Asks env k e) (h : Happens net w ⟨e, r⟩ w')
    (hdisjoint : ∀ x ∈ s'.held net.cwd, x ∉ s.held net.cwd) (hf' : s'.Fits env net k' w) :
    s'.Fits env net k' w' := by
  have hfiles : ∀ dir', s'.dir = some dir' →
      w'.files (artifactPlace net dir') = w.files (artifactPlace net dir') := by
    intro dir' hdir'
    refine files_of_asks hf.placed he h fun dir hdir hprefix => ?_
    obtain ⟨hne', name', hplace'⟩ := hf'.placed dir' hdir'
    obtain ⟨-, name, hplace⟩ := hf.placed dir hdir
    -- both directories stand in the temporary directory, so they would be the same
    rw [artifactPlace_eq hne', hplace, hplace', List.append_assoc, List.prefix_append_right_inj,
      List.singleton_append, List.cons_prefix_cons] at hprefix
    have hown : Resource.dir (Path.resolve net.cwd dir') ∈ s'.held net.cwd := ⟨dir', hdir', rfl⟩
    refine hdisjoint _ hown ⟨dir, hdir, ?_⟩
    rw [hplace, hplace', hprefix.1]
  have hopened : ∀ n, s'.file = some n → w.opened n ≠ none → w'.opened n = w.opened n := by
    intro n hn
    have hown : Resource.file n ∈ s'.held net.cwd := hn
    exact opened_of_asks he h fun hfile => hdisjoint _ hown hfile
  refine ⟨hf'.placed, ?_⟩
  have hcontent := hf'.content
  unfold Transfer.Content at hcontent ⊢
  split
  · trivial
  · trivial
  · rename_i hphase
    rw [hphase] at hcontent
    obtain ⟨v, dir, hk, hdir, hfile⟩ := hcontent
    exact ⟨v, dir, hk, hdir, (hfiles dir hdir).trans hfile⟩
  · rename_i hphase
    rw [hphase] at hcontent
    obtain ⟨v, dir, n, hk, hdir, hn, hopen, hfile⟩ := hcontent
    refine ⟨v, dir, n, hk, hdir, hn, (hopened n hn ?_).trans hopen, (hfiles dir hdir).trans hfile⟩
    rw [hopen]
    exact nofun
  · rename_i hphase
    rw [hphase] at hcontent
    obtain ⟨rootHash, dir, bytes, hk, hdir, hfile, hroot⟩ := hcontent
    exact ⟨rootHash, dir, bytes, hk, hdir, (hfiles dir hdir).trans hfile, hroot⟩
  all_goals
    rename_i hphase
    rw [hphase] at hcontent
    exact hcontent

end Fits

section Restores

variable {env : StoragePlatform} {net : StorageNetwork} {w₀ : TempWorld}
  {moves : List (Move StorageCall StorageChoice)}
  {p : Pool StorageCall StorageEffect StorageEffect.Answer JsError TempWorld StorageResult}

theorem called_of_moves (hrun : (storageSystem env net).run (Pool.init w₀) moves = some p)
    {t : Nat} {k : StorageCall} (hk : (moves.filterMap Move.called?)[t]? = some k) :
    .called t k ∈ p.history := by
  have hcalls : (p.threads.map Prod.fst)[t]? = some k := by
    rw [System.calls_of_run hrun]
    exact hk
  rw [List.getElem?_map, Option.map_eq_some_iff] at hcalls
  obtain ⟨⟨k', q⟩, hthread, rfl⟩ := hcalls
  exact (System.run_lawful (start_asks env) hrun).called t k' q hthread

/-- What a call has returned is worth what it says. -/
theorem worth_of_run (hrun : (storageSystem env net).run (Pool.init w₀) moves = some p) {t : Nat}
    {k : StorageCall} (hk : .called t k ∈ p.history) {result : StorageResult}
    (hresult : p.result? t = some (.ok result)) : Worth net k (.ok result) := by
  have hsound := System.run_lawful (start_asks env) hrun
  obtain ⟨⟨k', q⟩, hthread, hr⟩ := Option.bind_eq_some_iff.mp hresult
  have hfits : (transfer (own t p.history)).Fits env net k p.world :=
    (temp_manages env net).stable (fun k w => ⟨nofun, trivial⟩)
      (fun hasks hexec hf => (transfer_append _ _).symm ▸
        fits_step hf hasks (happens_of_exec hexec))
      (fun hasks hexec hf _ hdisjoint hf' =>
        fits_other hf hasks (happens_of_exec hexec) hdisjoint hf')
      hsound.lawful hk
  rcases hsound.result hthread hr with hover | ⟨-, error, herror⟩
  · have hcontent := hfits.content
    unfold Transfer.Content at hcontent
    rw [hover] at hcontent
    exact hcontent
  · cases herror

/-- **A download restores.** In every run of interleaved calls: what a download of the root that an
upload has returned returns is the artifact that has been uploaded, if that fits in one piece and no
other file has its root. -/
theorem download_restores (hrun : (storageSystem env net).run (Pool.init w₀) moves = some p)
    {v restored : Json Int} (hkeys : v.UniqueKeys)
    (hsize : (artifactFile v).length ≤ net.fragmentSize)
    (hroot : ∀ bytes, net.merkleRoot bytes = net.merkleRoot (artifactFile v) →
      bytes = artifactFile v)
    {t u : Nat} {artifact : UploadedArtifact} {rootHash : Str}
    (hupload : .called t (.uploadJson v) ∈ p.history)
    (huploaded : p.result? t = some (.ok (.uploaded artifact)))
    (hdownload : .called u (.downloadJson rootHash) ∈ p.history)
    (hsame : artifact.rootHash = some rootHash)
    (hdownloaded : p.result? u = some (.ok (.downloaded restored))) : restored = v := by
  have hstored := (worth_of_run hrun hupload huploaded) hsize
  obtain ⟨bytes, hbytes, hparse⟩ := worth_of_run hrun hdownload hdownloaded
  obtain rfl : bytes = artifactFile v := by
    refine hroot bytes ?_
    rw [hbytes]
    exact Option.some.inj (hsame.symm.trans hstored)
  rw [artifactFile, utf8Decode_utf8Encode (Json.wellFormed_stringify v), parseArtifact,
    Json.parse_stringify hkeys] at hparse
  exact (Except.ok.inj hparse).symm

/-- The download of the sample run returns what the upload has been given. -/
theorem download_restores_sample :
    ∃ p artifact restored, (storageSystem sampleStorage sampleNetwork).run (Pool.init .empty)
        (sampleTransfers .ok) = some p ∧
      p.result? 0 = some (.ok (.uploaded artifact)) ∧
      p.result? 1 = some (.ok (.downloaded restored)) ∧ restored = sampleArtifact := by
  have hany : (((storageSystem sampleStorage sampleNetwork).run (Pool.init .empty)
      (sampleTransfers .ok)).any fun p => p.returned 0 && p.returned 1) = true := by decide +kernel
  obtain ⟨p, hrun, hp⟩ := (Option.any_eq_true _ _).mp hany
  obtain ⟨hup, hdown⟩ := (Bool.and_eq_true _ _).mp hp
  obtain ⟨uploaded, huploaded⟩ := Pool.returned_iff.mp hup
  obtain ⟨downloaded, hdownloaded⟩ := Pool.returned_iff.mp hdown
  have hupload := called_of_moves hrun (t := 0) rfl
  have hdownload := called_of_moves hrun (t := 1) rfl
  obtain ⟨artifact, rfl, hroot⟩ := worth_of_upload (worth_of_run hrun hupload huploaded)
  obtain ⟨restored, rfl⟩ := worth_of_download (worth_of_run hrun hdownload hdownloaded)
  refine ⟨p, artifact, restored, hrun, huploaded, hdownloaded, ?_⟩
  have hinjective : ∀ bytes, sampleNetwork.merkleRoot bytes =
      sampleNetwork.merkleRoot (artifactFile sampleArtifact) →
        bytes = artifactFile sampleArtifact :=
    fun bytes heq => List.map_injective_iff.mpr (fun b c hbc => UInt8.toUInt16_inj.mp hbc) heq
  exact download_restores hrun ⟨by decide, trivial, trivial, trivial⟩ (by decide) hinjective
    hupload huploaded hdownload (hroot (by decide)) hdownloaded

end Restores

end Clawback
