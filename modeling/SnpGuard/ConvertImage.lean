/-
The conversion of VM images: `setup_luks.sh` and `setup_verity.sh`.

Both scripts connect the source image and a new image to the first two NBD devices, mount the
root filesystems of both in folders of their own and copy the files.  They run under `set -e`,
so any command can be the last one.  Up to there a script takes nothing away from the host
(`kept_atExit`): what it connects, maps or mounts was free.  It writes into the files of the
source image only if the image is also one of the outputs that it was told to write
(`source_atExit`).
-/
import Mathlib.Logic.Function.Basic
import SnpGuard.Lib.ArgLoop
import SnpGuard.Lib.Bytes
import SnpGuard.Lib.Effect

namespace SnpGuard.ConvertImage

open ArgLoop

/-! ### The host -/

/-- A filesystem that the scripts can mount. -/
inductive Fs where
  /-- The root filesystem of the source image. -/
  | source
  /-- The one of the new image. -/
  | output
  | other (device : String)
deriving DecidableEq

structure File where
  path : String
  content : Bytes
deriving DecidableEq

/-- A logical volume, as `lvdisplay` lists it. -/
structure Lv where
  path : String
  vg : String
  active : Bool
deriving DecidableEq

def Lv.deactivated (v : Lv) : Lv := { v with active := false }

/-- The host, and the variables of the script. -/
structure State where
  /-- Whether a path exists. -/
  folders : String → Bool
  mounts : String → Option Fs
  files : Fs → List File
  /-- The NBD devices, each with the image connected to it, once the module is loaded. -/
  nbd : Option (List (Option String))
  /-- `/dev/mapper`, without the logical volumes. -/
  mapping : String → Option String
  /-- In the order of `lvdisplay`. -/
  lvs : List Lv
  srcFolder : String
  dstFolder : String
  /-- `__LVM_DEVICES`. -/
  lvmDevices : Option Nat
  srcRootFsDevice : String

/-- The number of `/dev/nbd0`. -/
def srcDevice : Nat := 0

/-- The number of `/dev/nbd1`. -/
def dstDevice : Nat := 1

/-- The name of the mapping. -/
def rootName : String := "snpguard_root"

namespace State

/-- Whether the device exists. -/
def hasDevice (s : State) (d : Nat) : Bool := s.nbd.any fun devices => d < devices.length

/-- The image that is connected to a device. -/
def connection (s : State) (d : Nat) : Option String :=
  s.nbd.bind fun devices => (devices[d]?).join

def connect (s : State) (d : Nat) (image : Option String) : State :=
  { s with nbd := s.nbd.map fun devices => devices.set d image }

def mount (s : State) (folder : String) (fs : Fs) : State :=
  { s with mounts := Function.update s.mounts folder (some fs) }

def unmount (s : State) (folder : String) : State :=
  { s with mounts := Function.update s.mounts folder none }

def write (s : State) (fs : Fs) (files : List File) : State :=
  { s with files := Function.update s.files fs files }

/-- The files that are seen in a folder. -/
def filesIn (s : State) (folder : String) : List File := ((s.mounts folder).map s.files).getD []

def writeIn (s : State) (folder : String) (files : List File) : State :=
  match s.mounts folder with
  | some fs => s.write fs files
  | none => s

/-- The last volume that is listed, if there are more than there were. -/
def newVolume (s : State) : Option Lv :=
  s.lvmDevices.bind fun n => if n < s.lvs.length then s.lvs.getLast? else none

end State

/-! ### The options -/

inductive Script where
  | luks
  | verity
deriving DecidableEq

structure Vars where
  srcImage : String
  dstImage : String
  hashTree : String
  rootHash : String
  nonInteractive : Bool
  /-- Set, and not used. -/
  fsDevice : String

def Vars.initial : Script → Vars
  | .luks => ⟨"", "", "hash_tree.bin", "roothash.txt", false, ""⟩
  | .verity => ⟨"", "verity_image.qcow2", "hash_tree.bin", "roothash.txt", false, ""⟩

def switch : Script → String → Option (Vars → Vars)
  | .verity, "-y" => some fun o => { o with nonInteractive := true }
  | _, _ => none

def assign : Script → String → Option (String → Vars → Vars)
  | .luks, "-in" => some fun v o => { o with srcImage := v }
  | .luks, "-out" => some fun v o => { o with dstImage := v }
  | .verity, "-image" => some fun v o => { o with srcImage := v }
  | .verity, "-device" => some fun v o => { o with fsDevice := v }
  | .verity, "-out-image" => some fun v o => { o with dstImage := v }
  | .verity, "-out-hash-tree" => some fun v o => { o with hashTree := v }
  | .verity, "-out-root-hash" => some fun v o => { o with rootHash := v }
  | _, _ => none

/-- `${path%.*}`. -/
def withoutExtension (path : String) : String :=
  if '.' ∈ path.toList then
    String.ofList ((path.toList.reverse.dropWhile (· != '.')).drop 1).reverse
  else path

/-- The variables that the options set, unless the script ends with its usage text or at an
option without its value. -/
def readOptions (script : Script) (args : List String) : Option Vars :=
  if script = .luks ∧ args = [] then none
  else
    match Flags.read ⟨switch script, assign script⟩ args (Vars.initial script) with
    | .done v =>
      if script = .luks ∧ v.dstImage = "" then
        some { v with dstImage := withoutExtension v.srcImage ++ "-encrypted.qcow2" }
      else some v
    | _ => none

/-! ### The commands -/

inductive Command where
  | createOutputImage
  | checkLvm
  | modprobe
  | connectSrc
  | connectDst
  | findRootFsDevice
  | luksFormat
  | luksOpen
  | mkfs
  | mountSrc
  | mountDst
  | copyFilesystem
  | prepareVerityFs
  | umountSrc
  | umountDst
  | veritysetup
deriving DecidableEq

/-- The script behind its options. -/
def Script.commands : Script → List Command
  | .luks => [.createOutputImage, .checkLvm, .modprobe, .connectSrc, .connectDst,
      .findRootFsDevice, .luksFormat, .luksOpen, .mkfs, .mountSrc, .mountDst, .copyFilesystem]
  | .verity => [.createOutputImage, .checkLvm, .modprobe, .connectSrc, .connectDst,
      .findRootFsDevice, .mkfs, .mountSrc, .mountDst, .copyFilesystem, .prepareVerityFs,
      .umountSrc, .umountDst, .veritysetup]

/-- How a command that is possible ends. -/
inductive End where
  | done
  /-- It fails, and has done its work in part. -/
  | broken
  | refused
deriving DecidableEq

/-- What the run depends on. -/
structure World where
  /-- `mktemp -d`. -/
  mktemp : State → Option String
  fresh : ∀ {s path}, mktemp s = some path → s.folders path = false ∧ s.mounts path = none
  /-- Whether `common.sh` is found. -/
  sources : Bool
  outcome : Command → End
  /-- The file that a path leads to. -/
  resolve : String → String
  /-- The number of devices that the NBD module provides. -/
  nbdsMax : Nat
  /-- The volumes that are listed once the source image is connected. -/
  scan : List Lv → List Lv
  scan_keeps : ∀ lvs : List Lv, lvs.Sublist (scan lvs)
  /-- Whether `lvdisplay` warns. -/
  lvmWarning : Bool
  /-- The device that `fdisk` shows, and what the user makes of it. -/
  fdisk : String
  confirms : Bool
  typed : String
  hasPath : String → Bool
  /-- The filesystem on a device, if it can be mounted. -/
  fsOn : String → Option Fs
  copied : List File → List File
  prepared : List File → List File

/-- `find_root_fs_device`. -/
def findRootFsDevice (w : World) (v : Vars) (s : State) : Option String :=
  if w.lvmWarning then none
  else
    -- A new logical volume counts as the root filesystem.
    let device := (s.newVolume.map Lv.path).getD s.srcRootFsDevice
    if device ≠ "" then some device
    else if v.nonInteractive then some w.fdisk
    else if w.hasPath w.fdisk ∧ w.confirms then some w.fdisk
    else if w.hasPath w.typed then some w.typed
    else none

/-- The files that a command writes, besides those on the devices. -/
def Command.outputs (v : Vars) : Command → List String
  | .createOutputImage => [v.dstImage]
  | .veritysetup => [v.hashTree, v.rootHash]
  | _ => []

/-- What becomes of the source image if a file is written. -/
def overwrite (w : World) (v : Vars) (paths : List String) (s : State) : State :=
  if ∃ path ∈ paths, w.resolve path = w.resolve v.srcImage then s.write .source [] else s

variable (w : World) (v : Vars)

/-- What has to be so for a command to succeed. -/
def Command.possible (c : Command) (s : State) : Bool :=
  match c with
  | .connectSrc => s.hasDevice srcDevice && s.connection srcDevice == none
  | .connectDst => s.hasDevice dstDevice && s.connection dstDevice == none
  | .findRootFsDevice => (ConvertImage.findRootFsDevice w v s).isSome
  | .luksOpen => s.mapping rootName == none
  | .mountSrc => (w.fsOn s.srcRootFsDevice).isSome
  | .umountSrc => (s.mounts s.srcFolder).isSome
  | .umountDst => (s.mounts s.dstFolder).isSome
  | _ => true

/-- What it does then. -/
def Command.effect (c : Command) (s : State) : State :=
  match c with
  | .createOutputImage | .veritysetup => overwrite w v (c.outputs v) s
  | .checkLvm => { s with lvmDevices := some s.lvs.length }
  | .modprobe => { s with nbd := some (s.nbd.getD (List.replicate w.nbdsMax none)) }
  | .connectSrc => { s.connect srcDevice (some v.srcImage) with lvs := w.scan s.lvs }
  | .connectDst => s.connect dstDevice (some v.dstImage)
  | .findRootFsDevice => { s with srcRootFsDevice := (ConvertImage.findRootFsDevice w v s).getD "" }
  | .luksFormat => s
  | .luksOpen => { s with mapping := Function.update s.mapping rootName (some "/dev/nbd1") }
  | .mkfs => s.write .output []
  | .mountSrc => ((w.fsOn s.srcRootFsDevice).map (s.mount s.srcFolder)).getD s
  | .mountDst => s.mount s.dstFolder .output
  | .copyFilesystem => s.writeIn s.dstFolder (w.copied (s.filesIn s.srcFolder))
  | .prepareVerityFs => s.writeIn s.dstFolder (w.prepared (s.filesIn s.dstFolder))
  | .umountSrc => s.unmount s.srcFolder
  | .umountDst => s.unmount s.dstFolder

def fails : Outcome Unit Unit := Outcome.fail ()

def exec (c : Command) : Effect State Unit Unit := fun s =>
  if c.possible w v s then
    match w.outcome c with
    | .done => (.ok (), c.effect w v s)
    | .broken => (fails, c.effect w v s)
    | .refused => (fails, s)
  else (fails, s)

/-- `$(mktemp -d)`. -/
def makeFolder (set : State → String → State) : Effect State Unit Unit := fun s =>
  match w.mktemp s with
  | some path => (.ok (), set { s with folders := Function.update s.folders path true } path)
  | none => (fails, s)

/-- The commands in front of the `trap`. -/
def setUp : Effect State Unit Unit := do
  makeFolder w fun s path => { s with srcFolder := path }
  makeFolder w fun s path => { s with dstFolder := path }
  Effect.lift (if w.sources then .ok () else fails)

/-- The commands behind the `trap` that run, and the state in which the script exits. -/
def atExit (script : Script) (args : List String) (s : State) : List Command × State :=
  match readOptions script args with
  | none => ([], s)
  | some v => Effect.untilError (exec w v) script.commands s

/-! ### What a run keeps -/

/-- Whatever was connected, mapped or mounted still is. -/
structure Kept (s m : State) : Prop where
  connection : ∀ {d image}, s.connection d = some image → m.connection d = some image
  mapping : ∀ {name target}, s.mapping name = some target → m.mapping name = some target
  lvs : s.lvs.Sublist m.lvs
  mounts : ∀ {path fs}, s.mounts path = some fs → m.mounts path = some fs

/-- Behind the `trap` both folders are there.  Nothing was mounted in them before the run, and
only the new image is in the second one. -/
structure Underway (s m : State) : Prop extends Kept s m where
  src : m.folders m.srcFolder = true ∧ s.mounts m.srcFolder = none
  dst : m.folders m.dstFolder = true ∧ s.mounts m.dstFolder = none
  ne : m.srcFolder ≠ m.dstFolder
  output : ∀ fs, m.mounts m.dstFolder = some fs → fs = .output

namespace State

variable {s : State}

theorem connection_connect {d : Nat} (e : Nat) {image : Option String}
    (h : s.hasDevice d = true) :
    (s.connect d image).connection e = if e = d then image else s.connection e := by
  unfold hasDevice at h
  unfold connection connect
  cases hnbd : s.nbd with
  | none => simp [hnbd] at h
  | some devices =>
      have hlt : d < devices.length := by simpa [hnbd] using h
      by_cases heq : e = d
      · rw [heq]
        simp [List.getElem?_set_self hlt]
      · have hne : d ≠ e := fun h' => heq h'.symm
        simp [heq, List.getElem?_set_ne hne]

@[simp] theorem write_self (fs : Fs) (files : List File) : (s.write fs files).files fs = files := by
  simp [write]

theorem write_of_ne {fs fs' : Fs} (h : fs' ≠ fs) (files : List File) :
    (s.write fs files).files fs' = s.files fs' := by
  simp [write, h]

end State

variable {w v} {s m : State}

theorem ne_of_free {α β : Type} {f : α → Option β} {a b : α} {x : β} (ha : f a = some x)
    (hb : f b = none) : a ≠ b := by
  rintro rfl
  simp [hb] at ha

/-- What is mounted in the folders is the script's own. -/
theorem Underway.update_mounts (h : Underway s m) {folder : String} {fs? : Option Fs}
    (hnew : s.mounts folder = none)
    (houtput : folder = m.dstFolder → ∀ fs, fs? = some fs → fs = .output) :
    Underway s { m with mounts := Function.update m.mounts folder fs? } where
  connection := h.connection
  mapping := h.mapping
  lvs := h.lvs
  mounts hpath := (Function.update_of_ne (ne_of_free hpath hnew) _ _).trans (h.mounts hpath)
  src := h.src
  dst := h.dst
  ne := h.ne
  output fs hfs := by
    have hmounted : Function.update m.mounts folder fs? m.dstFolder = some fs := hfs
    by_cases heq : folder = m.dstFolder
    · rw [← heq, Function.update_self] at hmounted
      exact houtput heq fs hmounted
    · rw [Function.update_of_ne (Ne.symm heq)] at hmounted
      exact h.output fs hmounted

/-- A free device can be connected. -/
theorem Underway.connect (h : Underway s m) {d : Nat} (image : String)
    (hdevice : m.hasDevice d = true) (hfree : m.connection d = none) :
    Underway s (m.connect d (some image)) where
  connection {e image'} he := by
    rw [State.connection_connect e hdevice, if_neg (ne_of_free (h.connection he) hfree)]
    exact h.connection he
  mapping := h.mapping
  lvs := h.lvs
  mounts := h.mounts
  src := h.src
  dst := h.dst
  ne := h.ne
  output := h.output

theorem Underway.writeIn (h : Underway s m) (folder : String) (files : List File) :
    Underway s (m.writeIn folder files) := by
  unfold State.writeIn
  split
  · exact ⟨⟨h.connection, h.mapping, h.lvs, h.mounts⟩, h.src, h.dst, h.ne, h.output⟩
  · exact h

theorem Underway.overwrite (h : Underway s m) (paths : List String) :
    Underway s (overwrite w v paths m) := by
  unfold ConvertImage.overwrite
  split
  · exact ⟨⟨h.connection, h.mapping, h.lvs, h.mounts⟩, h.src, h.dst, h.ne, h.output⟩
  · exact h

/-- No command takes anything away. -/
theorem Underway.effect (h : Underway s m) {c : Command} (hc : c.possible w v m = true) :
    Underway s (c.effect w v m) := by
  have hsame := h
  obtain ⟨⟨hconnection, hmapping, hlvs, hmounts⟩, hsrc, hdst, hne, houtput⟩ := hsame
  cases c with
  | createOutputImage => exact h.overwrite _
  | checkLvm => exact ⟨⟨hconnection, hmapping, hlvs, hmounts⟩, hsrc, hdst, hne, houtput⟩
  | modprobe =>
      -- A connection needs the module, which stays as it is then.
      refine ⟨⟨fun {d image} hd => ?_, hmapping, hlvs, hmounts⟩, hsrc, hdst, hne, houtput⟩
      have hstill := hconnection hd
      cases hnbd : m.nbd with
      | none => simp [State.connection, hnbd] at hstill
      | some devices =>
          rw [← hstill]
          simp [Command.effect, State.connection, hnbd]
  | connectSrc =>
      simp only [Command.possible, Bool.and_eq_true, beq_iff_eq] at hc
      have hconnected := h.connect v.srcImage hc.1 hc.2
      exact ⟨⟨hconnected.connection, hmapping, hlvs.trans (w.scan_keeps m.lvs), hmounts⟩, hsrc,
        hdst, hne, houtput⟩
  | connectDst =>
      simp only [Command.possible, Bool.and_eq_true, beq_iff_eq] at hc
      exact h.connect v.dstImage hc.1 hc.2
  | findRootFsDevice => exact ⟨⟨hconnection, hmapping, hlvs, hmounts⟩, hsrc, hdst, hne, houtput⟩
  | luksFormat => exact h
  | luksOpen =>
      simp only [Command.possible, beq_iff_eq] at hc
      refine ⟨⟨hconnection, fun {name target} hname => ?_, hlvs, hmounts⟩, hsrc, hdst, hne,
        houtput⟩
      have hstill := hmapping hname
      exact (Function.update_of_ne (ne_of_free hstill hc) _ _).trans hstill
  | mkfs => exact ⟨⟨hconnection, hmapping, hlvs, hmounts⟩, hsrc, hdst, hne, houtput⟩
  | mountSrc =>
      obtain ⟨fs, hfs⟩ := Option.isSome_iff_exists.mp hc
      simp only [Command.effect, hfs, Option.map_some, Option.getD_some]
      exact h.update_mounts hsrc.2 fun heq => absurd heq hne
  | mountDst =>
      exact h.update_mounts hdst.2 fun _ fs hfs => (Option.some.inj hfs).symm
  | copyFilesystem => exact h.writeIn _ _
  | prepareVerityFs => exact h.writeIn _ _
  | umountSrc => exact h.update_mounts hsrc.2 fun _ fs hfs => by simp at hfs
  | umountDst => exact h.update_mounts hdst.2 fun _ fs hfs => by simp at hfs
  | veritysetup => exact h.overwrite _

/-! ### The files of the source image -/

/-- A command that writes one of its outputs over the source image. -/
def Overwrites (w : World) (v : Vars) (c : Command) : Prop :=
  w.outcome c ≠ .refused ∧ ∃ path ∈ c.outputs v, w.resolve path = w.resolve v.srcImage

instance (c : Command) : Decidable (Overwrites w v c) := by
  unfold Overwrites
  infer_instance

theorem writeIn_source {folder : String} (files : List File)
    (h : ∀ fs, m.mounts folder = some fs → fs = .output) :
    (m.writeIn folder files).files .source = m.files .source := by
  unfold State.writeIn
  split
  · rename_i fs hfs
    rw [h fs hfs]
    exact State.write_of_ne (by decide) files
  · rfl

theorem overwrite_source (paths : List String) :
    (overwrite w v paths m).files .source
      = if ∃ path ∈ paths, w.resolve path = w.resolve v.srcImage then [] else m.files .source := by
  unfold overwrite
  split
  · exact State.write_self _ _
  · rfl

/-- The outputs are the only files that are written. -/
theorem effect_source (h : Underway s m) (c : Command) :
    (c.effect w v m).files .source
      = if ∃ path ∈ c.outputs v, w.resolve path = w.resolve v.srcImage then []
        else m.files .source := by
  cases c with
  | createOutputImage => exact overwrite_source _
  | veritysetup => exact overwrite_source _
  | mkfs => exact State.write_of_ne (by decide) []
  | copyFilesystem => exact writeIn_source _ h.output
  | prepareVerityFs => exact writeIn_source _ h.output
  | mountSrc =>
      simp only [Command.effect]
      cases w.fsOn m.srcRootFsDevice with
      | none => rfl
      | some fs => rfl
  | checkLvm | modprobe | connectSrc | connectDst | findRootFsDevice | luksFormat | luksOpen
  | mountDst | umountSrc | umountDst => rfl

variable (w v) in
/-- A command that fails at once leaves the state alone. -/
theorem exec_cases (c : Command) (m : State) :
    (exec w v c m).2 = m ∧ (c.possible w v m = false ∨ w.outcome c = .refused) ∨
      c.possible w v m = true ∧ w.outcome c ≠ .refused ∧
        (exec w v c m).2 = c.effect w v m := by
  unfold exec
  by_cases hc : c.possible w v m = true
  · rw [if_pos hc]
    cases houtcome : w.outcome c with
    | done => exact .inr ⟨hc, by simp, rfl⟩
    | broken => exact .inr ⟨hc, by simp, rfl⟩
    | refused => exact .inl ⟨rfl, .inr rfl⟩
  · rw [if_neg hc]
    exact .inl ⟨rfl, .inl (Bool.eq_false_iff.mpr hc)⟩

theorem possible_of_outputs {c : Command} (h : c.outputs v ≠ []) : c.possible w v m = true := by
  cases c with
  | createOutputImage => rfl
  | veritysetup => rfl
  | _ => exact absurd rfl h

/-- What holds between the state before the run and the state in which the script exits. -/
structure Exited (w : World) (v : Vars) (s : State) (ran : List Command) (m : State) : Prop where
  underway : Underway s m
  source : m.files .source = if ∃ c ∈ ran, Overwrites w v c then [] else s.files .source

theorem Exited.exec {ran : List Command} (h : Exited w v s ran m) (c : Command) :
    (exec w v c).Leaves m (Exited w v s (ran ++ [c])) := by
  obtain ⟨hunderway, hsource⟩ := h
  unfold Effect.Leaves
  obtain ⟨hsame, hrefused⟩ | ⟨hpossible, houtcome, heffect⟩ := exec_cases w v c m
  · have hkeeps : ¬ Overwrites w v c := by
      rintro ⟨houtcome, path, hpath, -⟩
      have hpossible : c.possible w v m = true :=
        possible_of_outputs (List.ne_nil_of_mem hpath)
      rcases hrefused with h | h
      · simp [hpossible] at h
      · exact houtcome h
    rw [hsame]
    refine ⟨hunderway, ?_⟩
    rw [hsource]
    simp [or_and_right, exists_or, hkeeps]
  · rw [heffect]
    refine ⟨hunderway.effect hpossible, ?_⟩
    rw [effect_source hunderway, hsource]
    by_cases hover : ∃ path ∈ c.outputs v, w.resolve path = w.resolve v.srcImage
    · have hoverwrites : Overwrites w v c := ⟨houtcome, hover⟩
      rw [if_pos hover, if_pos ⟨c, by simp, hoverwrites⟩]
    · have hkeeps : ¬ Overwrites w v c := fun h => hover h.2
      rw [if_neg hover]
      simp [or_and_right, exists_or, hkeeps]

/-! ### Up to the exit -/

/-- Only the variables and the folders of the script are new. -/
structure Untouched (s t : State) : Prop where
  mounts : t.mounts = s.mounts
  files : t.files = s.files
  nbd : t.nbd = s.nbd
  mapping : t.mapping = s.mapping
  lvs : t.lvs = s.lvs

theorem Untouched.kept {t : State} (h : Untouched s t) : Kept s t where
  connection {d image} hd := by
    rw [State.connection, h.nbd]
    exact hd
  mapping {name target} hname := by rw [h.mapping, hname]
  lvs := by rw [h.lvs]
  mounts {path fs} hpath := by rw [h.mounts, hpath]

variable (w) in
theorem makeFolder_cases (set : State → String → State) (s : State) :
    makeFolder w set s = (fails, s) ∨
      ∃ path, s.folders path = false ∧ s.mounts path = none ∧ makeFolder w set s
        = (.ok (), set { s with folders := Function.update s.folders path true } path) := by
  unfold makeFolder
  cases hmktemp : w.mktemp s with
  | none => exact .inl rfl
  | some path => exact .inr ⟨path, (w.fresh hmktemp).1, (w.fresh hmktemp).2, rfl⟩

variable (w) in
/-- The script gets to the `trap` with two new folders, or ends and has changed nothing. -/
theorem setUp_cases (s : State) : ∃ t, Untouched s t ∧
    (setUp w s = (fails, t) ∨ setUp w s = (.ok (), t) ∧ Underway s t) := by
  unfold setUp
  obtain hfails | ⟨src, -, hsrcMount, hmade⟩ :=
    makeFolder_cases w (fun s path => { s with srcFolder := path }) s
  · exact ⟨s, ⟨rfl, rfl, rfl, rfl, rfl⟩, .inl (Effect.bind_of_error hfails)⟩
  rw [Effect.bind_of_ok hmade]
  generalize hs₁ : ({ s with
    folders := Function.update s.folders src true, srcFolder := src } : State) = s₁
  have hsame₁ : Untouched s s₁ := by
    rw [← hs₁]
    exact ⟨rfl, rfl, rfl, rfl, rfl⟩
  have hsrc : s₁.folders src = true ∧ s₁.srcFolder = src := by
    rw [← hs₁]
    exact ⟨Function.update_self _ _ _, rfl⟩
  obtain hfails | ⟨dst, hdst, hdstMount, hmade⟩ :=
    makeFolder_cases w (fun s path => { s with dstFolder := path }) s₁
  · exact ⟨s₁, hsame₁, .inl (Effect.bind_of_error hfails)⟩
  rw [Effect.bind_of_ok hmade]
  have hne : src ≠ dst := by
    rintro rfl
    simp [hsrc.1] at hdst
  generalize hs₂ : ({ s₁ with
    folders := Function.update s₁.folders dst true, dstFolder := dst } : State) = s₂
  have hsame₂ : Untouched s s₂ := by
    rw [← hs₂]
    exact ⟨hsame₁.mounts, hsame₁.files, hsame₁.nbd, hsame₁.mapping, hsame₁.lvs⟩
  have hunderway : Underway s s₂ := by
    refine ⟨hsame₂.kept, ?_, ?_, ?_, ?_⟩
    · rw [← hs₂]
      refine ⟨?_, by rw [hsrc.2, hsrcMount]⟩
      rw [hsrc.2]
      exact (Function.update_of_ne hne _ _).trans hsrc.1
    · rw [← hs₂]
      exact ⟨Function.update_self _ _ _, by rw [← hsame₁.mounts, hdstMount]⟩
    · rw [← hs₂, hsrc.2]
      exact hne
    · intro fs hfs
      rw [← hs₂, hdstMount] at hfs
      simp at hfs
  refine ⟨s₂, hsame₂, ?_⟩
  cases w.sources with
  | false => exact .inl rfl
  | true => exact .inr ⟨rfl, hunderway⟩

variable {script : Script} {args : List String} {t : State}

/-- Some command wrote one of the outputs over the source image. -/
def SourceOverwritten (w : World) (script : Script) (args : List String)
    (ran : List Command) : Prop :=
  ∃ v, readOptions script args = some v ∧ ∃ c ∈ ran, Overwrites w v c

theorem exited_atExit (h : Underway s t) (hfiles : t.files = s.files) {v : Vars}
    (hoptions : readOptions script args = some v) :
    Exited w v s (atExit w script args t).1 (atExit w script args t).2 := by
  unfold atExit
  rw [hoptions]
  have hstart : Exited w v s [] t := ⟨h, by simp [hfiles]⟩
  have hrun := Effect.untilError_invariant (P := Exited w v s)
    (fun ran c m hm => Exited.exec hm c) script.commands hstart
  exact hrun

variable (w script args)

/-- Wherever the script exits, it has taken nothing away. -/
theorem kept_atExit (h : Underway s t) (hfiles : t.files = s.files) :
    Underway s (atExit w script args t).2 := by
  cases hoptions : readOptions script args with
  | none =>
      unfold atExit
      rw [hoptions]
      exact h
  | some v => exact (exited_atExit h hfiles hoptions).underway

/-- The files of the source image are lost to the outputs only. -/
theorem source_atExit (h : Underway s t) (hfiles : t.files = s.files) :
    (atExit w script args t).2.files .source = s.files .source ↔
      (SourceOverwritten w script args (atExit w script args t).1 → s.files .source = []) := by
  cases hoptions : readOptions script args with
  | none => simp [atExit, hoptions, hfiles, SourceOverwritten]
  | some v =>
      rw [(exited_atExit h hfiles hoptions).source]
      have hover : SourceOverwritten w script args (atExit w script args t).1 ↔
          ∃ c ∈ (atExit w script args t).1, Overwrites w v c := by
        simp [SourceOverwritten, hoptions]
      rw [hover]
      by_cases hany : ∃ c ∈ (atExit w script args t).1, Overwrites w v c
      · rw [if_pos hany]
        exact ⟨fun heq _ => heq.symm, fun hnil => (hnil hany).symm⟩
      · rw [if_neg hany]
        exact ⟨fun _ hover => absurd hover hany, fun _ => rfl⟩

/-! ### Before anything is mounted -/

variable {w script args}

theorem mounts_writeIn (m : State) (folder : String) (files : List File) :
    (m.writeIn folder files).mounts = m.mounts ∧
      (m.writeIn folder files).srcFolder = m.srcFolder := by
  unfold State.writeIn
  split
  · exact ⟨rfl, rfl⟩
  · exact ⟨rfl, rfl⟩

theorem mounts_overwrite (w : World) (v : Vars) (paths : List String) (m : State) :
    (overwrite w v paths m).mounts = m.mounts ∧
      (overwrite w v paths m).srcFolder = m.srcFolder := by
  unfold overwrite
  split
  · exact ⟨rfl, rfl⟩
  · exact ⟨rfl, rfl⟩

/-- Only one command mounts something in the folder of the source image. -/
theorem effect_unmounted (h : Underway s m) {c : Command} (hc : c ≠ .mountSrc)
    (hfree : m.mounts m.srcFolder = none) :
    (c.effect w v m).mounts (c.effect w v m).srcFolder = none := by
  have hother : ∀ fs? : Option Fs, Function.update m.mounts m.dstFolder fs? m.srcFolder = none :=
    fun fs? => (Function.update_of_ne h.ne _ _).trans hfree
  cases c with
  | createOutputImage | veritysetup =>
      obtain ⟨hmounts, hfolder⟩ := mounts_overwrite w v (Command.outputs v _) m
      simp only [Command.effect]
      rw [hmounts, hfolder, hfree]
  | copyFilesystem | prepareVerityFs =>
      obtain ⟨hmounts, hfolder⟩ := mounts_writeIn m m.dstFolder _
      simp only [Command.effect]
      rw [hmounts, hfolder, hfree]
  | mountSrc => exact absurd rfl hc
  | mountDst => exact hother (some .output)
  | umountSrc => exact Function.update_self m.srcFolder none m.mounts
  | umountDst => exact hother none
  | checkLvm | modprobe | connectSrc | connectDst | findRootFsDevice | luksFormat | luksOpen
  | mkfs => exact hfree

theorem exec_unmounted (ran : List Command) (c : Command)
    (h : Underway s m ∧ (.mountSrc ∉ ran → m.mounts m.srcFolder = none)) :
    (exec w v c).Leaves m fun m =>
      Underway s m ∧ (.mountSrc ∉ ran ++ [c] → m.mounts m.srcFolder = none) := by
  obtain ⟨hunderway, hfree⟩ := h
  unfold Effect.Leaves
  obtain ⟨hsame, -⟩ | ⟨hpossible, -, heffect⟩ := exec_cases w v c m
  · rw [hsame]
    exact ⟨hunderway, fun hran => hfree fun hmem => hran (List.mem_append_left _ hmem)⟩
  · rw [heffect]
    refine ⟨hunderway.effect hpossible, fun hran => ?_⟩
    have hc : c ≠ .mountSrc := fun heq => hran (by simp [heq])
    exact effect_unmounted hunderway hc (hfree fun hmem => hran (List.mem_append_left _ hmem))

/-- Nothing is mounted from the source image before the script gets to it. -/
theorem unmounted_atExit (h : Underway s t) (hfree : t.mounts t.srcFolder = none)
    (hran : .mountSrc ∉ (atExit w script args t).1) :
    (atExit w script args t).2.mounts (atExit w script args t).2.srcFolder = none := by
  unfold atExit at hran ⊢
  cases hoptions : readOptions script args with
  | none => exact hfree
  | some v =>
      rw [hoptions] at hran
      have hrun := Effect.untilError_invariant
        (P := fun ran m => Underway s m ∧ (.mountSrc ∉ ran → m.mounts m.srcFolder = none))
        (fun ran c m hm => exec_unmounted (w := w) (v := v) ran c hm) script.commands
        (show Underway s t ∧ (Command.mountSrc ∉ [] → t.mounts t.srcFolder = none) from
          ⟨h, fun _ => hfree⟩)
      exact hrun.2 hran

end SnpGuard.ConvertImage
