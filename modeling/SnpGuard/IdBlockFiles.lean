/-
The two files of an ID block: `idblock_generator_main.rs`, as a process.

An ID block is worth nothing without the auth block that signs it, so the two files stand
or fall together.  The generator computes both texts before it touches a file and then
creates and writes the files one after the other, the auth block first (`run_cases`).
Whatever stops it there, `main` prints the error and returns, so that the process exits
with success: the folder is right after a run exactly when both files got their texts
(`updatedTogether_iff`).
-/
import SnpGuard.IdBlock

namespace SnpGuard.IdblockGenerator

variable {C : Crates} (G : GeneratorCrates C) (env : Env) (args : Args)

/-- The exit status of a process. -/
abbrev ExitStatus := Nat

/-- `main`, with `{:#?}` of the error as `debugError` prints it. -/
def main (debugError : Whatever → String) (out : Output) : ExitStatus × Output :=
  match run C G env args out with
  | (.ok (), out') => (0, out')
  | (.error (.error e), out') =>
    (0, { out' with stdout := out'.stdout ++ ["\nError: " ++ debugError e ++ "\n"] })
  | (.error (.panicked _), out') => (101, out')

/-! ### What a run writes -/

/-- The four texts of a run. -/
structure Texts where
  idBlock : Bytes
  idKeyDigest : Bytes
  authKeyDigest : Bytes
  authBlock : Bytes

/-- Everything that is computed, before the first line is printed. -/
def texts : Outcome Whatever Texts := do
  let vmDef ← readConfig env args
  let calculations ← computeIdBlock C G vmDef args.idKeyPath args.authKeyPath
  let idBlock ← Outcome.ofOption (G.serializeIdBlock calculations.idBlock)
    "error serializing id_block to binary"
  let idKeyDigest ← Outcome.ofOption (G.digestToVec calculations.idKeyDigest)
    "error serializing id_key_digest to binary"
  let authKeyDigest ← Outcome.ofOption (G.digestToVec calculations.authKeyDigest)
    "error serializing auth_key_digest to binary"
  let authBlock ← Outcome.ofOption (G.serializeIdAuth calculations.idAuth)
    "error serializing id_auth to binary"
  return ⟨G.base64Encode idBlock, G.base64Encode idKeyDigest, G.base64Encode authKeyDigest,
    G.base64Encode authBlock⟩

/-- Both files, one after the other. -/
def writeFiles (t : Texts) : Effect Output Whatever Unit := do
  Effect.zoom Output.authBlock (fun authBlock out => { out with authBlock })
    (writeFile env env.authBlock (joinPath args.outDir "auth-block.base64") t.authBlock)
  Effect.zoom Output.idBlock (fun idBlock out => { out with idBlock })
    (writeFile env env.idBlock (joinPath args.outDir "id-block.base64") t.idBlock)

variable {G env args}

theorem run_eq : run C G env args = (Effect.lift (texts G env args) >>= fun t => do
    println ("id block: " ++ printed t.idBlock)
    println ("id key digest: " ++ printed t.idKeyDigest)
    println ("auth key digest: " ++ printed t.authKeyDigest)
    println ("writing id auth data basee64 encoded to " ++ args.outDir)
    writeFiles env args t) := by
  simp only [texts, Effect.lift_bind, Effect.bind_assoc]
  rfl

variable (G env args) in
/-- **A run touches no file, or has all the texts and writes both files.** -/
theorem run_cases (out : Output) :
    (∃ e, texts G env args = .error e ∧ run C G env args out = (.error e, out)) ∨
      ∃ t stdout, texts G env args = .ok t ∧
        run C G env args out = writeFiles env args t { out with stdout } := by
  rw [run_eq]
  rcases htexts : texts G env args with e | t
  · exact .inl ⟨e, rfl, rfl⟩
  · exact .inr ⟨t, _, rfl, rfl⟩

variable (G env args) in
theorem texts_isPanic : (texts G env args).isPanic = false := by
  rw [Bool.eq_false_iff]
  intro h
  simp [texts, Outcome.isPanic_bind, readConfig, computeIdBlock,
    VMDescription.computeExpectedHash] at h

/-! ### What becomes of a file -/

/-- A file gets its text. -/
def WriteFaults.Writes (faults : WriteFaults) : Prop :=
  faults.creates = true ∧ faults.failsAfter = none

instance (faults : WriteFaults) : Decidable faults.Writes := by
  unfold WriteFaults.Writes
  infer_instance

/-- A file has a text in the end: it could be created and nothing of the text is missing, or
it could not be created and has been like that before. -/
def WriteFaults.Full (faults : WriteFaults) (content : Bytes) (file : Option Bytes) : Prop :=
  if faults.creates then ∀ n, faults.failsAfter = some n → content.length ≤ n
  else file = some content

theorem writeFile_full {faults : WriteFaults} {path : String} {content : Bytes}
    {file : Option Bytes} :
    (writeFile env faults path content file).2 = some content ↔ faults.Full content file := by
  unfold writeFile WriteFaults.Full
  by_cases hcreates : faults.creates = true
  · cases hfails : faults.failsAfter with
    | none => simp [hcreates]
    | some n => simp [hcreates]
  · simp [hcreates]

variable (env) in
theorem writeFile_of_writes {faults : WriteFaults} (h : faults.Writes) (path : String)
    (content : Bytes) (file : Option Bytes) :
    writeFile env faults path content file = (.ok (), some content) := by
  obtain ⟨hcreates, hfails⟩ := h
  unfold writeFile
  simp only [hcreates, hfails, if_true]

variable (env) in
theorem writeFile_of_not_writes {faults : WriteFaults} (h : ¬ faults.Writes) (path : String)
    (content : Bytes) (file : Option Bytes) :
    ∃ msg file', writeFile env faults path content file = (Outcome.fail msg, file') := by
  unfold writeFile
  by_cases hcreates : faults.creates = true
  · cases hfails : faults.failsAfter with
    | none => exact absurd ⟨hcreates, hfails⟩ h
    | some n => exact ⟨"", _, if_pos hcreates⟩
  · exact ⟨_, _, if_neg hcreates⟩

variable (env) in
theorem writeFile_isPanic (faults : WriteFaults) (path : String) (content : Bytes)
    (file : Option Bytes) : (writeFile env faults path content file).1.isPanic = false := by
  by_cases h : faults.Writes
  · rw [writeFile_of_writes env h, Outcome.isPanic_ok]
  · obtain ⟨msg, file', hfile⟩ := writeFile_of_not_writes env h path content file
    rw [hfile, Outcome.isPanic_fail]

/-! ### The folder after a run -/

/-- After the process both files are the complete output of this run if it exited with
success, and as they were before if not. -/
def UpdatedTogether (C : Crates) (G : GeneratorCrates C) (env : Env) (args : Args)
    (debugError : Whatever → String) (out : Output) : Prop :=
  if (main G env args debugError out).1 = 0 then
    ∃ t, texts G env args = .ok t ∧
      (main G env args debugError out).2.authBlock = some t.authBlock ∧
      (main G env args debugError out).2.idBlock = some t.idBlock
  else
    (main G env args debugError out).2.authBlock = out.authBlock ∧
      (main G env args debugError out).2.idBlock = out.idBlock

variable (env args) in
/-- The second file is touched only after the first was written. -/
theorem writeFiles_eq (t : Texts) (out : Output) :
    (writeFiles env args t out).1.isPanic = false ∧
      (writeFiles env args t out).2.authBlock = (writeFile env env.authBlock
        (joinPath args.outDir "auth-block.base64") t.authBlock out.authBlock).2 ∧
      (writeFiles env args t out).2.idBlock = if env.authBlock.Writes then
        (writeFile env env.idBlock (joinPath args.outDir "id-block.base64") t.idBlock
          out.idBlock).2 else out.idBlock := by
  unfold writeFiles
  by_cases h : env.authBlock.Writes
  · rw [Effect.bind_of_ok (Effect.zoom_eq_iff.mpr ⟨_, writeFile_of_writes env h _ _ _, rfl⟩),
      if_pos h, writeFile_of_writes env h]
    exact ⟨writeFile_isPanic env _ _ _ _, rfl, rfl⟩
  · obtain ⟨msg, file, hfile⟩ := writeFile_of_not_writes env h
      (joinPath args.outDir "auth-block.base64") t.authBlock out.authBlock
    rw [Effect.bind_of_error (Effect.zoom_eq_iff.mpr ⟨_, hfile, rfl⟩), if_neg h, hfile]
    exact ⟨rfl, rfl, rfl⟩

variable (G env args) in
theorem run_isPanic (out : Output) : (run C G env args out).1.isPanic = false := by
  obtain ⟨e, htexts, hrun⟩ | ⟨t, stdout, htexts, hrun⟩ := run_cases G env args out
  · have hpanic := texts_isPanic G env args
    rw [htexts] at hpanic
    rw [hrun]
    cases e with
    | error e => rfl
    | panicked msg => exact absurd hpanic (by simp [Outcome.isPanic])
  · rw [hrun]
    exact (writeFiles_eq env args t _).1

variable (G env args) in
/-- The process always exits with success, with the files as `run` left them. -/
theorem main_eq (debugError : Whatever → String) (out : Output) :
    (main G env args debugError out).1 = 0 ∧
      (main G env args debugError out).2.authBlock = (run C G env args out).2.authBlock ∧
      (main G env args debugError out).2.idBlock = (run C G env args out).2.idBlock := by
  have hpanic := run_isPanic G env args out
  unfold main
  rcases hrun : run C G env args out with ⟨(e | msg) | u, out'⟩
  · exact ⟨rfl, rfl, rfl⟩
  · rw [hrun] at hpanic
    simp [Outcome.isPanic] at hpanic
  · exact ⟨rfl, rfl, rfl⟩

/-- **When the two files are updated together.**  Whatever the inputs, what was in the folder
and where the run fails, the process keeps its word exactly if the inputs determine both texts
and each file has its text in the end: because it was created and written to its last byte, or
because it could not be created, or was not reached, and held that text before. -/
theorem updatedTogether_iff (debugError : Whatever → String) (out : Output) :
    UpdatedTogether C G env args debugError out ↔ ∃ t, texts G env args = .ok t ∧
      env.authBlock.Full t.authBlock out.authBlock ∧
      if env.authBlock.Writes then env.idBlock.Full t.idBlock out.idBlock
      else out.idBlock = some t.idBlock := by
  obtain ⟨hstatus, hauth, hid⟩ := main_eq G env args debugError out
  unfold UpdatedTogether
  rw [if_pos hstatus, hauth, hid]
  refine exists_congr fun t => and_congr_right fun htexts => ?_
  obtain ⟨e, hfail, -⟩ | ⟨t', stdout, hok, hrun⟩ := run_cases G env args out
  · rw [htexts] at hfail
    exact absurd hfail (by simp)
  · rw [htexts, Except.ok.injEq] at hok
    subst hok
    obtain ⟨-, hauthFile, hidFile⟩ :=
      writeFiles_eq env args t { out with stdout }
    rw [hrun, hauthFile, hidFile, writeFile_full]
    by_cases h : env.authBlock.Writes
    · rw [if_pos h, if_pos h, writeFile_full]
    · rw [if_neg h, if_neg h]

/-- An ID block that cannot be replaced. -/
def Env.locked : Env := { Env.toy with idBlock := ⟨false, none⟩ }

/-- The blocks of an earlier run. -/
def Output.earlier : Output := ⟨[], some [1], some [2]⟩

/-- The new auth block is written, the old ID block stays, and the process exits with
success. -/
theorem blocks_of_two_runs :
    (main .toy .locked .toy id .earlier).1 = 0 ∧
      (∃ t, texts .toy .locked .toy = .ok t ∧ t.authBlock ≠ [1] ∧
        (main .toy .locked .toy id .earlier).2.authBlock = some t.authBlock) ∧
      (main .toy .locked .toy id .earlier).2.idBlock = some [2] ∧
      ¬ UpdatedTogether Crates.toyIdblock .toy .locked .toy id .earlier := by
  have hstatus : (main .toy .locked .toy id .earlier).1 = 0 := rfl
  refine ⟨hstatus, ⟨_, rfl, by decide, rfl⟩, rfl, ?_⟩
  intro h
  unfold UpdatedTogether at h
  rw [if_pos hstatus] at h
  obtain ⟨t, htexts, -, hid⟩ := h
  cases htexts
  exact absurd hid (by decide)

end SnpGuard.IdblockGenerator
