/-
The boot of a guest: `init.sh`.

The kernel command line says which filesystem is to be booted and how.  A word assigns to one
of four variables, and the last one counts.  Then one of three functions mounts the
filesystem, and `init.sh` switches to it.  Under `set -e` any command can be the last one, and
a guest that has switched got through all of them (`seq_eq_ok`).
-/
import SnpGuard.AttestVerity
import SnpGuard.ConvertImage
import SnpGuard.GetReport
import SnpGuard.InitSh
import SnpGuard.Lib.Assignments
import SnpGuard.Lib.FileTree

namespace SnpGuard.InitSh

open ConvertImage (End)
open Words (Expansion)

/-! ### The kernel command line -/

/-- The variables that the kernel command line sets. -/
structure Params where
  root : String
  boot : String
  verityDisk : String
  verityRootHash : String
deriving DecidableEq

/-- Those that the script does not initialize come from the environment. -/
def Params.initial (env : String → String) : Params where
  root := "/dev/sda"
  boot := "normal"
  verityDisk := env "VERITY_DISK"
  verityRootHash := env "VERITY_ROOT_HASH"

def cases : List (Assignments.Case Params) :=
  [⟨"root", fun v p => { p with root := v }⟩,
   ⟨"boot", fun v p => { p with boot := v }⟩,
   ⟨"verity_disk", fun v p => { p with verityDisk := v }⟩,
   ⟨"verity_roothash", fun v p => { p with verityRootHash := v }⟩]

/-- The words of `$(cat /proc/cmdline)`. -/
def cmdlineWords (x : Expansion) (cmdline : String) : List String :=
  x.unquoted (String.ofList (Shell.substitution Words.nul '\n' cmdline.toList))

/-- The variables behind the loop. -/
def readCmdline (x : Expansion) (env : String → String) (cmdline : String) : Params :=
  Assignments.read cases (cmdlineWords x cmdline) (.initial env)

/-! ### What is booted -/

/-- Where a filesystem is found. -/
inductive Source where
  | device (path : String)
  /-- A LUKS mapping of the device, opened with this passphrase. -/
  | crypt (device : String) (passphrase : Bytes)
  /-- A verity mapping. -/
  | verity (data hash rootHash : String)
deriving DecidableEq

inductive Backing where
  | disk (source : Source)
  | ram
  /-- `/proc` or `/sys`. -/
  | kernel
deriving DecidableEq

/-- A mount in `$MNT_DIR`. -/
structure Mount where
  point : FilePath
  backing : Backing
  readOnly : Bool
deriving DecidableEq

/-- The way a guest is booted. -/
inductive Mode where
  | normal
  | encrypted
  | verity
deriving DecidableEq

namespace Mode

/-- What `BOOT` is then. -/
def text : Mode → String
  | normal => "normal"
  | encrypted => "encrypted"
  | verity => "verity"

end Mode

/-! ### Commands -/

inductive Command where
  /-- `[ -d dir ] || mkdir dir`. -/
  | ensureDir (dir : String)
  | makeLock
  | mountKernel (dir : String)
  | makePts
  /-- Its failure is ignored. -/
  | mountPts
  | modprobe (module : String)
  | dhclient
  | server
  /-- `PW=$(cat ./disk_key.txt)`. -/
  | readKey
  | shredKey
  | nameMapping
  | luksOpen
  | veritysetup
  /-- `mount $ROOT $MNT_DIR`. -/
  | mountDevice
  | mountCrypt
  | mountVerity
  /-- A `tmpfs` on a directory of the root. -/
  | mountRam (dir : String)
  | rsync (src dst : String)
  | sshKeygen
  | fingerprint
  | getReport
  | moveMount (dir : String)
  /-- `echo "Invalid boot option: $BOOT"; exit 1`. -/
  | invalidBoot
  | switchRoot
deriving DecidableEq

/-- What comes before the command line is read. -/
def prologue : List Command :=
  [.ensureDir "dev", .ensureDir "root", .ensureDir "sys", .ensureDir "proc", .ensureDir "tmp",
   .makeLock, .mountKernel "sys", .mountKernel "proc", .mountKernel "dev", .makePts, .mountPts]

/-- `boot_normal`, `boot_encrypted` and `boot_verity`. -/
def Mode.commands : Mode → List Command
  | .normal => [.mountDevice]
  | .encrypted => [.modprobe "sev-guest", .modprobe "virtio_net", .dhclient, .server, .readKey,
      .shredKey, .nameMapping, .luksOpen, .mountCrypt]
  | .verity => [.modprobe "sev-guest", .veritysetup, .mountVerity, .mountRam "home",
      .mountRam "etc", .mountRam "var", .mountRam "tmp", .rsync "home_ro" "home",
      .rsync "etc_ro" "etc", .rsync "var_ro" "var", .sshKeygen, .fingerprint, .getReport]

variable (x : Expansion)

/-- `[ $BOOT = "normal" ]` and so on.  No word, or several ones, are an error of `[`. -/
def mode (boot : String) : Option Mode :=
  [Mode.normal, .encrypted, .verity].find? fun m => x.unquoted boot == [m.text]

/-- The branches of the `if`, and what follows it. -/
def dispatch : Option Mode → List Command
  | some m => m.commands ++ [.moveMount "proc", .moveMount "sys", .switchRoot]
  | none => [.invalidBoot]

def script (p : Params) : List Command :=
  prologue ++ .modprobe "virtio_scsi" :: dispatch (mode x p.boot)

/-! ### The guest -/

structure State (α : Type) where
  /-- The directories on which the kernel's filesystems are mounted. -/
  kernelMounts : List String
  /-- `./disk_key.txt`. -/
  keyFile : Option Bytes
  /-- `PW`. -/
  pw : Bytes
  /-- `ROOT_FS_CRYPTDEV`. -/
  cryptdev : String
  /-- `/dev/mapper`. -/
  mapper : List (String × Source)
  /-- What is seen in `$MNT_DIR`, if anything is mounted there. -/
  root : Option (FileTree α)
  /-- The mounts in `$MNT_DIR`, the last one first. -/
  mounts : List Mount
  /-- `FINGERPRINT`. -/
  fingerprint : String

def State.initial {α : Type} : State α where
  kernelMounts := []
  keyFile := none
  pw := []
  cryptdev := ""
  mapper := []
  root := none
  mounts := []
  fingerprint := ""

/-- What the commands meet. -/
structure World (α : Type) where
  outcome : Command → End
  dash : Shell.Dash
  /-- Whether a mapping can be set up. -/
  opens : Source → Bool
  /-- The filesystem that is found there. -/
  fs : Source → Option (FileTree α)
  kernelFs : String → FileTree α
  server : Server.Exit
  /-- The key that `ssh-keygen` generates, and its two files. -/
  hostKey : AttestVerity.HostKey
  keyFiles : Bytes × Bytes
  /-- Whether `ssh-keygen -l` shows the key. -/
  listsKey : Bool
  getReport : GetReport.Env
  /-- A file with this content. -/
  file : Bytes → α

/-- `basename`, of a path. -/
def basename (path : String) : String :=
  let name := path.toList.rdropWhile (· == '/')
  if name = [] ∧ path ≠ "" then "/"
  else String.ofList (name.rtakeWhile (· != '/'))

/-- The word of a command that takes one. -/
def single : List String → Option String
  | [word] => some word
  | _ => none

/-- The mapping that the arguments of `veritysetup open` ask for. -/
def mapping : List String → Option (String × Source)
  | [data, name, hash, rootHash] => some (name, .verity data hash rootHash)
  | _ => none

/-- `clap`, on the arguments of `get_report`. -/
def parseGetReport : List String → Option GetReport.Args
  | ["--report-data", value, "--out", out] =>
    if AttestVerity.isOption value then none else some ⟨out, value⟩
  | _ => none

def State.mountRoot {α : Type} (s : State α) (source : Source) (readOnly : Bool)
    (t : FileTree α) : State α :=
  { s with root := some t, mounts := ⟨[], .disk source, readOnly⟩ :: s.mounts }

section Step

variable {α : Type} (J : Json) (C : Crates) (w : World α) (p : Params)

/-- The arguments of `veritysetup open`. -/
def verityArgs : List String :=
  x.unquoted p.root ++ "root" :: (x.unquoted p.verityDisk ++ x.unquoted p.verityRootHash)

/-- The arguments of `get_report`. -/
def getReportArgs (s : State α) : Option GetReport.Args :=
  parseGetReport ("--report-data" ::
    (x.unquoted s.fingerprint ++ ["--out", "/root/etc/report.json"]))

/-- A filesystem is mounted on a directory of the root. -/
def State.mountIn (s : State α) (dir : String) (backing : Backing) (t : FileTree α) :
    Option (State α) := do
  let root ← s.root
  let root' ← root.mount [dir] t
  return { s with root := some root', mounts := ⟨[dir], backing, false⟩ :: s.mounts }

/-- `ssh-keygen` asks before it overwrites a key. -/
def sshKeygen (t : FileTree α) : Option (FileTree α) :=
  if (t.entry ["etc", "ssh", "ssh_host_ecdsa_key"]).isSome then none
  else do
    let t' ← t.write ["etc", "ssh"] "ssh_host_ecdsa_key" (w.file w.keyFiles.1)
    t'.write ["etc", "ssh"] "ssh_host_ecdsa_key.pub" (w.file w.keyFiles.2)

/-- The report that `get_report` writes to its output file. -/
def report (s : State α) : Option Bytes := do
  let args ← getReportArgs x s
  match GetReport.main J C w.getReport args none with
  | (.ok (), file) => file
  | _ => none

/-- What a command does, if it can succeed. -/
def step (c : Command) (s : State α) : Option (State α) :=
  match c with
  | .ensureDir _ | .makeLock | .makePts | .mountPts | .modprobe _ | .dhclient => some s
  | .mountKernel dir => some { s with kernelMounts := dir :: s.kernelMounts }
  | .server =>
    match w.server.result with
    | .ok () => some { s with keyFile := w.server.diskKeyFile }
    | .error _ => none
  | .readKey => s.keyFile.map fun content => { s with pw := Shell.commandSubstitution content }
  | .shredKey => s.keyFile.map fun _ => { s with keyFile := none }
  | .nameMapping =>
    (single (x.unquoted p.root)).map fun path => { s with cryptdev := basename path ++ "_crypt" }
  | .luksOpen =>
    let source := Source.crypt p.root (Shell.readLine (Shell.echo w.dash s.pw))
    if w.opens source then some { s with mapper := (s.cryptdev, source) :: s.mapper } else none
  | .veritysetup =>
    (mapping (verityArgs x p)).bind fun entry =>
      if w.opens entry.2 then some { s with mapper := entry :: s.mapper } else none
  | .mountDevice =>
    (single (x.unquoted p.root)).bind fun path =>
      (w.fs (.device path)).map (s.mountRoot (.device path) false)
  | .mountCrypt => do
    let source ← s.mapper.lookup s.cryptdev
    let t ← w.fs source
    return s.mountRoot source false t
  | .mountVerity => do
    let source ← s.mapper.lookup "root"
    let t ← w.fs source
    return s.mountRoot source true t
  | .mountRam dir => s.mountIn dir .ram .empty
  | .rsync src dst => do
    let root ← s.root
    let root' ← root.copy [src] [dst]
    return { s with root := some root' }
  | .sshKeygen => do
    let root ← s.root
    let root' ← sshKeygen w root
    return { s with root := some root' }
  | .fingerprint =>
    some { s with fingerprint := if w.listsKey then AttestVerity.fingerprint [w.hostKey] else "" }
  | .getReport => do
    let root ← s.root
    let file ← report x J C w s
    let root' ← root.write ["etc"] "report.json" (w.file file)
    return { s with root := some root' }
  | .moveMount dir =>
    if dir ∈ s.kernelMounts then s.mountIn dir .kernel (w.kernelFs dir) else none
  | .invalidBoot => none
  | .switchRoot => s.root.map fun _ => s

/-- A command, with the outcome that the world gives it. -/
def exec (c : Command) : Effect (State α) Unit Unit := fun s =>
  match step x J C w p c s with
  | none => (ConvertImage.fails, s)
  | some t =>
    match if c = .mountPts then .done else w.outcome c with
    | .done => (.ok (), t)
    | .broken => (ConvertImage.fails, t)
    | .refused => (ConvertImage.fails, s)

/-- Commands one after the other, where each of them can succeed. -/
def steps (cs : List Command) (s : State α) : Option (State α) :=
  cs.foldlM (fun s c => step x J C w p c s) s

/-- The script.  It ends well only in `exec switch_root`. -/
def bootGuest : Effect (State α) Unit Unit := Effect.seq (exec x J C w p) (script x p)

end Step

variable {x} {α : Type} {J : Json} {C : Crates} {w : World α} {p : Params}

theorem single_eq_some {words : List String} {word : String} :
    single words = some word ↔ words = [word] := by
  unfold single
  split
  · simp
  · next hne =>
      refine ⟨by simp, fun h => absurd h (hne word)⟩

theorem mapping_eq_some {words : List String} {name : String} {source : Source} :
    mapping words = some (name, source) ↔
      ∃ data hash rootHash, words = [data, name, hash, rootHash] ∧
        source = .verity data hash rootHash := by
  unfold mapping
  split
  · next data name' hash rootHash =>
      simp only [Option.some.injEq, Prod.mk.injEq, List.cons.injEq, and_true]
      refine ⟨fun h => ⟨data, hash, rootHash, ⟨rfl, h.1, rfl, rfl⟩, h.2.symm⟩, fun h => ?_⟩
      obtain ⟨_, _, _, ⟨rfl, rfl, rfl, rfl⟩, rfl⟩ := h
      exact ⟨rfl, rfl⟩
  · next hne =>
      refine ⟨by simp, fun h => ?_⟩
      obtain ⟨data, hash, rootHash, hwords, -⟩ := h
      exact absurd hwords (hne data name hash rootHash)

/-! ### The kernel command line -/

theorem cases_noEquals : ∀ c ∈ cases, '=' ∉ c.name.toList := by
  simp [cases]

theorem root_setBy : Assignments.SetBy cases "root" Params.root where
  known := ⟨_, List.mem_cons_self, rfl⟩
  noEquals := cases_noEquals
  set := by simp [cases]

theorem boot_setBy : Assignments.SetBy cases "boot" Params.boot where
  known := ⟨_, List.mem_cons_of_mem _ List.mem_cons_self, rfl⟩
  noEquals := cases_noEquals
  set := by simp [cases]

theorem verityDisk_setBy : Assignments.SetBy cases "verity_disk" Params.verityDisk where
  known := ⟨_, List.mem_cons_of_mem _ (List.mem_cons_of_mem _ List.mem_cons_self), rfl⟩
  noEquals := cases_noEquals
  set := by simp [cases]

theorem verityRootHash_setBy :
    Assignments.SetBy cases "verity_roothash" Params.verityRootHash where
  known := ⟨_, List.mem_cons_of_mem _ (List.mem_cons_of_mem _
    (List.mem_cons_of_mem _ List.mem_cons_self)), rfl⟩
  noEquals := cases_noEquals
  set := by simp [cases]

/-- What the words of a command line ask for: the last value that is given. -/
def Params.asked (env : String → String) (words : List String) : Params where
  root := (Assignments.lastValue "root" words).getD "/dev/sda"
  boot := (Assignments.lastValue "boot" words).getD "normal"
  verityDisk := (Assignments.lastValue "verity_disk" words).getD (env "VERITY_DISK")
  verityRootHash := (Assignments.lastValue "verity_roothash" words).getD (env "VERITY_ROOT_HASH")

/-- **Every variable has the last value on the command line.** -/
theorem readCmdline_eq (env : String → String) (cmdline : String) :
    readCmdline x env cmdline = .asked env (cmdlineWords x cmdline) := by
  have hroot := root_setBy.read (cmdlineWords x cmdline) (.initial env)
  have hboot := boot_setBy.read (cmdlineWords x cmdline) (.initial env)
  have hdisk := verityDisk_setBy.read (cmdlineWords x cmdline) (.initial env)
  have hhash := verityRootHash_setBy.read (cmdlineWords x cmdline) (.initial env)
  unfold readCmdline
  generalize Assignments.read cases (cmdlineWords x cmdline) (.initial env) = p at *
  obtain ⟨root, boot, disk, hash⟩ := p
  dsimp only [Params.initial] at hroot hboot hdisk hhash
  rw [hroot, hboot, hdisk, hhash]
  rfl

theorem cmdlineWords_append {c : Char} (hc : Words.isBlank c = true) (a b : List Char) :
    cmdlineWords x (String.ofList (a ++ c :: b)) =
      cmdlineWords x (String.ofList a) ++ cmdlineWords x (String.ofList b) := by
  have hnul : c ≠ Words.nul := by
    rintro rfl
    exact absurd hc (by decide)
  unfold cmdlineWords Words.Expansion.unquoted
  simp only [String.toList_ofList, Words.words_substitution_filter]
  rw [List.filter_append, List.filter_cons_of_pos (by simpa using hnul), Words.words_append hc,
    List.flatMap_append, List.map_append]

/-- Words that assign to none of the variables make no difference. -/
theorem readCmdline_append {env : String → String} {cmdline added : String} {c : Char}
    {b : List Char} (hadded : added.toList = c :: b) (hc : Words.isBlank c = true)
    (hwords : ∀ case ∈ cases,
      (cmdlineWords x (String.ofList b)).filterMap (Assignments.valueOf case.name) = []) :
    readCmdline x env (cmdline ++ added) = readCmdline x env cmdline := by
  have hsplit : cmdline ++ added = String.ofList (cmdline.toList ++ c :: b) := by
    rw [← hadded, String.ofList_append, String.ofList_toList, String.ofList_toList]
  have hlast : ∀ case ∈ cases, Assignments.lastValue case.name
      (cmdlineWords x cmdline ++ cmdlineWords x (String.ofList b)) =
        Assignments.lastValue case.name (cmdlineWords x cmdline) := by
    intro case hcase
    rw [Assignments.lastValue_append]
    nth_rewrite 1 [Assignments.lastValue]
    rw [hwords case hcase, List.getLast?_nil, Option.none_or]
  rw [readCmdline_eq, readCmdline_eq, hsplit, cmdlineWords_append hc, String.ofList_toList]
  simp only [cases, List.forall_mem_cons] at hlast
  unfold Params.asked
  rw [hlast.1, hlast.2.1, hlast.2.2.1, hlast.2.2.2.1]

/-- `/proc/cmdline` of a guest with this command line.  A loader that passes an initrd on adds
a word. -/
inductive Shown (cmdline : String) : String → Prop
  | plain : Shown cmdline (cmdline ++ "\n")
  | initrd : Shown cmdline (cmdline ++ " initrd=initrd\n")

theorem Shown.read {cmdline shown : String} (h : Shown cmdline shown) (env : String → String) :
    readCmdline x env shown = readCmdline x env cmdline := by
  cases h with
  | plain =>
      have hnothing : cmdlineWords x (String.ofList []) = [] := by
        unfold cmdlineWords Shell.substitution
        simp [Expansion.unquoted]
      refine readCmdline_append (c := '\n') (b := []) (by decide) rfl fun case _ => ?_
      rw [hnothing, List.filterMap_nil]
  | initrd =>
      have hword : cmdlineWords x (String.ofList "initrd=initrd\n".toList) = ["initrd=initrd"] :=
        x.unquoted_of_plain (by decide)
      refine readCmdline_append (c := ' ') (b := "initrd=initrd\n".toList) (by decide) rfl ?_
      rw [hword]
      decide

/-! ### Runs of the script -/

theorem exec_eq_ok {c : Command} {s t : State α} {u : Unit} :
    exec x J C w p c s = (.ok u, t) ↔
      step x J C w p c s = some t ∧ (c = .mountPts ∨ w.outcome c = .done) := by
  unfold exec
  cases hstep : step x J C w p c s with
  | none => simp [ConvertImage.fails, Outcome.fail]
  | some t' =>
      by_cases hc : c = .mountPts
      · simp [hc]
      · cases w.outcome c <;> simp [hc, ConvertImage.fails, Outcome.fail]

theorem steps_nil {s t : State α} : steps x J C w p [] s = some t ↔ s = t := by
  unfold steps
  rw [List.foldlM_nil]
  exact Option.some_inj

theorem steps_cons {c : Command} {cs : List Command} {s t : State α} :
    steps x J C w p (c :: cs) s = some t ↔
      ∃ s', step x J C w p c s = some s' ∧ steps x J C w p cs s' = some t := by
  unfold steps
  rw [List.foldlM_cons, Option.bind_eq_bind, Option.bind_eq_some_iff]

theorem steps_append {cs ds : List Command} {s t : State α} :
    steps x J C w p (cs ++ ds) s = some t ↔
      ∃ s', steps x J C w p cs s = some s' ∧ steps x J C w p ds s' = some t := by
  unfold steps
  rw [List.foldlM_append, Option.bind_eq_bind, Option.bind_eq_some_iff]

/-- **Commands get through if each of them can succeed and does.** -/
theorem seq_eq_ok {cs : List Command} {s t : State α} {u : Unit} :
    Effect.seq (exec x J C w p) cs s = (.ok u, t) ↔
      steps x J C w p cs s = some t ∧ ∀ c ∈ cs, c = .mountPts ∨ w.outcome c = .done := by
  induction cs generalizing s with
  | nil =>
      rw [Effect.seq, Effect.pure_eq_ok, steps_nil]
      simp
  | cons c cs ih =>
      rw [Effect.seq, Effect.ok_of_bind, steps_cons, List.forall_mem_cons]
      simp only [exec_eq_ok, ih]
      refine ⟨?_, ?_⟩
      · intro h
        obtain ⟨-, s', ⟨hstep, hc⟩, hrest, hcs⟩ := h
        exact ⟨⟨s', hstep, hrest⟩, hc, hcs⟩
      · intro h
        obtain ⟨⟨s', hstep, hrest⟩, hc, hcs⟩ := h
        exact ⟨(), s', ⟨hstep, hc⟩, hrest, hcs⟩

end SnpGuard.InitSh
