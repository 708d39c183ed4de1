/-
From the options of the launcher to its command file: `launch.sh`.

In between the script looks for the files that it was given, and for the firmware if it was
given none, and reads the position of the C-bit from the processor.  It gives up where a file
is not found, but for a disk image when there is a kernel to boot.  With a firmware given, it
gets to QEMU exactly under the conditions of `Ready` (`start_eq_ok`).
-/
import SnpGuard.LaunchCommand
import SnpGuard.LaunchOptions

namespace SnpGuard.Launch

open ArgLoop

/-! ### The C-bit -/

/-- What a CPUID function returns. -/
structure Leaf where
  eax : UInt32
  ebx : UInt32
  ecx : UInt32
  edx : UInt32

/-- As it is read from the device. -/
def Leaf.bytes (l : Leaf) : Bytes :=
  [l.eax, l.ebx, l.ecx, l.edx].flatMap fun r => Bytes.ofNatLE 4 r.toNat

/-- `dd if=/dev/cpu/0/cpuid`.  The position is the number of the function, and every read
moves it by one. -/
def dd (cpuid : Nat → Leaf) (ibs count skip : Nat) : Bytes :=
  (List.range count).flatMap fun i => (cpuid (ibs * skip + i)).bytes

/-- `tail -c`. -/
def tail (n : Nat) (bs : Bytes) : Bytes := bs.drop (bs.length - n)

/-- `od -An -t u4`, of four bytes. -/
def od (bs : Bytes) : List Char :=
  let digits := Nat.toDigits 10 (Bytes.toNatLE bs)
  List.replicate (11 - digits.length) ' ' ++ (digits ++ ['\n'])

/-- `EBX`; `-j 4 -N 4` are options of `od`. -/
def readEbx (cpuid : Nat → Leaf) : List Char :=
  Shell.substitution nul '\n'
    ((od (((tail 16 (dd cpuid 16 32 134217728)).drop 4).take 4)).dropWhile (· == ' '))

/-- `get_cbitpos`. -/
def getCbitpos (cpuid : Nat → Leaf) : Nat := Nat.ofDigitChars 10 (readEbx cpuid) 0 &&& 0x3f

theorem length_bytes (l : Leaf) : l.bytes.length = 16 := by
  simp [Leaf.bytes]

/-- What is left is the last block that is read. -/
theorem tail_dd (cpuid : Nat → Leaf) (ibs count skip : Nat) :
    tail 16 (dd cpuid ibs (count + 1) skip) = (cpuid (ibs * skip + count)).bytes := by
  unfold tail dd
  rw [List.range_succ, List.flatMap_append, List.flatMap_singleton, List.length_append,
    length_bytes, Nat.add_sub_cancel]
  exact List.drop_left

theorem ebx_of_bytes (l : Leaf) : Bytes.toNatLE ((l.bytes.drop 4).take 4) = l.ebx.toNat := by
  have hslice : (l.bytes.drop 4).take 4 = Bytes.ofNatLE 4 l.ebx.toNat := by
    unfold Leaf.bytes
    rw [List.flatMap_cons, List.drop_left' (Bytes.length_ofNatLE 4 _), List.flatMap_cons,
      List.take_left' (Bytes.length_ofNatLE 4 _)]
  rw [hslice]
  exact Bytes.toNatLE_ofNatLE 4 _ l.ebx.toNat_lt

/-- The shell reads the number that `od` prints. -/
theorem digits_of_od (bs : Bytes) : Shell.substitution nul '\n' ((od bs).dropWhile (· == ' '))
    = Nat.toDigits 10 (Bytes.toNatLE bs) := by
  generalize hdigits : Nat.toDigits 10 (Bytes.toNatLE bs) = digits
  have hdigit : ∀ c ∈ digits, c.isDigit = true := by
    rw [← hdigits]
    exact fun c hc => Nat.isDigit_of_mem_toDigits (by decide) (by decide) hc
  have hnot : ∀ d : Char, d.isDigit = false → d ∉ digits := by
    intro d hd hmem
    rw [hdigit d hmem] at hd
    cases hd
  have hblank : (od bs).dropWhile (· == ' ') = digits ++ ['\n'] := by
    have hfront : ∀ c ∈ List.replicate (11 - digits.length) ' ', (c == ' ') = true := by simp
    have hstop : (digits ++ ['\n']).dropWhile (· == ' ') = digits ++ ['\n'] := by
      refine List.dropWhile_beq_eq_self_of_head?_ne fun hhead => ?_
      rcases List.mem_append.mp (List.mem_of_head? hhead) with hmem | hmem
      · exact hnot ' ' (by decide) hmem
      · exact absurd hmem (by decide)
    unfold od
    rw [hdigits]
    exact (List.dropWhile_append_of_pos hfront).trans hstop
  rw [hblank]
  exact Shell.substitution_line (hnot nul (by decide)) (hnot '\n' (by decide)) (by decide)

/-- **The C-bit is where EBX of function 0x8000001f says.** -/
theorem getCbitpos_eq (cpuid : Nat → Leaf) :
    getCbitpos cpuid = (cpuid 0x8000001f).ebx.toNat % 64 := by
  have hread : Nat.ofDigitChars 10 (readEbx cpuid) 0 = (cpuid 0x8000001f).ebx.toNat := by
    unfold readEbx
    rw [digits_of_od, Nat.ofDigitChars_ten_toDigits, tail_dd, ebx_of_bytes]
  unfold getCbitpos
  rw [hread]
  exact Nat.and_two_pow_sub_one_eq_mod _ 6

/-! ### The script -/

/-- How the script ends before it writes the command file. -/
inductive Refusal where
  | usage (message : String)
  | exit (message : String)
deriving DecidableEq

/-- What the script meets; `φ` is what is on the disk. -/
structure Host (φ : Type) where
  isRoot : Bool
  env : String → String
  pwd : String
  configs : φ → ConfigFiles
  /-- What `readlink -e` prints. -/
  readlink : φ → List String → List Char
  readlink_absolute : ∀ {fs path c}, isOption path = false →
    (readlink fs [path]).head? = some c → c = '/'
  /-- What `basename` prints. -/
  basename : List String → List Char
  /-- `[ -e path ]`. -/
  isThere : φ → String → Bool
  /-- `cp`, if it succeeds. -/
  cp : List String → φ → Option φ
  /-- What `cat` prints. -/
  cat : φ → List String → List Char
  cpuid : Nat → Leaf

/-- `$(command)`. -/
def output (printed : List Char) : String := String.ofList (Shell.substitution nul '\n' printed)

/-- `sed -re 's|\.[^\.]+$||'`, of a line.  In brackets, a backslash is one of the characters. -/
def stripExtension (line : List Char) : List Char :=
  let isIn : Char → Bool := fun c => c ≠ '.' && c ≠ '\\'
  if line.rtakeWhile isIn ≠ [] ∧ (line.rdropWhile isIn).getLast? = some '.' then
    (line.rdropWhile isIn).dropLast
  else line

section Script

variable {φ : Type} (w : Shells) (H : Host φ)

/-- `$(readlink -e $TMP)`. -/
def locate (fs : φ) (tmp : String) : String := output (H.readlink fs (w.atAssembly.unquoted tmp))

/-- `$(basename $TMP | sed -re 's|\.[^\.]+$||')`. -/
def nameOf (tmp : String) : String :=
  output ((Text.lines (H.basename (w.atAssembly.unquoted tmp))).flatMap fun line =>
    stripExtension line ++ ['\n'])

/-- `$(cat $FILE)`. -/
def content (fs : φ) (file : String) : String := output (H.cat fs (w.atAssembly.unquoted file))

def toolchainPath : String := "build/snp-release/usr/local"

def qemuPath : String := toolchainPath ++ "/bin/qemu-system-x86_64"

def uefiPath : String := toolchainPath ++ "/share/qemu/"

/-- A file that has to be there. -/
def require (fs : φ) (what tmp : String) :
    Except Refusal {path : String // path = locate w H fs tmp ∧ path ≠ ""} :=
  if h : locate w H fs tmp ≠ "" then .ok ⟨locate w H fs tmp, rfl, h⟩
  else .error (.usage ("Can't locate " ++ what ++ " [" ++ tmp ++ "]"))

/-- Whether an ID block is used. -/
def useIdAndAuth (s : Settings) : Except Refusal Bool :=
  if s.idBlockFile ≠ "" ∧ s.idAuthFile ≠ "" then .ok true
  else if s.idBlockFile ≠ "" ∨ s.idAuthFile ≠ "" then
    .error (.exit "-id-block and -auth-block must either both bet set or both unset")
  else .ok (H.env "USE_ID_AND_AUTH" ≠ "")

/-- `HDA`.  With a kernel to boot, the image may be missing. -/
def locateHda (fs : φ) (s : Settings) (vars : Vars) : Except Refusal String :=
  if s.hda = "" then .ok ""
  else if locate w H fs s.hda = "" ∧ vars.kernelFile = "" then
    .error (.usage ("Can't locate guest image file [" ++ s.hda ++
      "]. Either specify image file or direct boot kernel"))
  else .ok (locate w H fs s.hda)

def locateCdrom (fs : φ) (s : Settings) : Except Refusal String :=
  if s.cdromFile = "" then .ok ""
  else (require w H fs "CD-Rom file" s.cdromFile).map Subtype.val

/-- `GUEST_NAME`. -/
def guestName (s : Settings) : String :=
  let name := if s.hda = "" then H.env "GUEST_NAME" else nameOf w H s.hda
  if s.cdromFile ≠ "" ∧ name = "" then nameOf w H s.cdromFile else name

/-- A canonical path begins with a slash. -/
theorem locate_absolute {fs : φ} {tmp path : String} (hplain : Words.Plain tmp.toList)
    (hoption : isOption tmp = false) (h : path = locate w H fs tmp ∧ path ≠ "") :
    path.toList.head? = some '/' := by
  obtain ⟨rfl, hne⟩ := h
  have hlocate : locate w H fs tmp = output (H.readlink fs [tmp]) := by
    rw [locate, w.atAssembly.unquoted_of_plain hplain]
  rw [hlocate] at hne ⊢
  cases hprinted : H.readlink fs [tmp] with
  | nil =>
      rw [hprinted] at hne
      exact absurd rfl hne
  | cons c rest =>
      obtain rfl : c = '/' := H.readlink_absolute hoption (by rw [hprinted]; rfl)
      have hprefix : Shell.substitution nul '\n' ('/' :: rest) <+:
          '/' :: rest.filter (· ≠ nul) := by
        unfold Shell.substitution
        rw [List.filter_cons_of_pos (by decide)]
        exact List.rdropWhile_prefix _ _
      rw [hprinted] at hne
      have hnil : Shell.substitution nul '\n' ('/' :: rest) ≠ [] := by
        intro hnil
        exact hne (by rw [output, hnil])
      rw [output, String.toList_ofList, List.head?_eq_some_head hnil, hprefix.head hnil]
      rfl

theorem qemuPath_plain : Words.Plain qemuPath.toList ∧ isOption qemuPath = false := by
  decide +kernel

structure Firmware (φ : Type) where
  code : String
  vars : String
  /-- The disk, once the variables are on it. -/
  fs : φ
  found : code ≠ ""

/-- `run_cmd "cp $UEFI_VARS ./$GUEST_NAME.fd"`. -/
def copyVars (fs : φ) (vars own : String) : Except Refusal φ :=
  let command := "cp " ++ vars ++ " " ++ own
  match H.cp (w.atAssembly.unquoted command).tail fs with
  | some fs' => .ok fs'
  | none => .error (.exit ("command " ++ command ++ " failed"))

/-- `UEFI_CODE` and `UEFI_VARS`. -/
def firmware (fs : φ) (s : Settings) (vars : Vars) : Except Refusal (Firmware φ) :=
  if h : vars.uefiCode ≠ "" then .ok ⟨vars.uefiCode, "", fs, h⟩
  else do
    let code ← require w H fs "UEFI code file" (uefiPath ++ "/OVMF_CODE.fd")
    let own := "./" ++ guestName w H s ++ ".fd"
    let fs ←
      if H.isThere fs own then pure fs
      else do
        let template ← require w H fs "UEFI variable file" (uefiPath ++ "/OVMF_VARS.fd")
        copyVars w H fs template.val own
    return ⟨code.val, locate w H fs own, fs, code.property.2⟩

/-- Why a policy is refused. -/
def refusePolicy (policy : String) : Refusal :=
  if policy = "" then .exit "-policy argument is mandatory"
  else .exit "string passed to -policy must start with 0x"

/-- The script from the `-load-config` block up to where it has bash execute the file. -/
def start (fs : φ) (s : Settings) (vars : Vars) : Except Refusal Params := do
  let qemuExe ← require w H fs "qemu executable" qemuPath
  let useId ← useIdAndAuth H s
  let hda ← locateHda w H fs s vars
  let cdromFile ← locateCdrom w H fs s
  let fw ← firmware w H fs s vars
  if hpolicy : s.sev = true → "0x".toList.isPrefixOf vars.sevPolicy.toList = true then
    return {
      vars := { vars with uefiCode := fw.code }
      sev := s.sev
      sevSnp := s.sevSnp
      qemuExe := qemuExe.val
      cpuModel := s.cpuModel
      mem := s.mem
      uefiVars := fw.vars
      cdromFile := cdromFile
      hda := hda
      hdb := s.hdb
      cbitpos := getCbitpos H.cpuid
      certsPath := s.certsPath
      idBlock :=
        if useId then some (content w H fw.fs s.idBlockFile, content w H fw.fs s.idAuthFile)
        else none
      hostData := if s.hostDataFile = "" then none else some (content w H fw.fs s.hostDataFile)
      monitorPath := s.monitorPath
      located := locate_absolute w H qemuPath_plain.1 qemuPath_plain.2 qemuExe.property
      firmware := fw.found
      hexPolicy := hpolicy }
  else .error (refusePolicy vars.sevPolicy)

/-- The script, up to where it has bash execute the command file. -/
def launch (S : Spaces) (fs : φ) (args : List String) : Except Refusal Params :=
  if H.isRoot = false then .error (.exit "Must be run as root!")
  else
    match readArgs args (.initial H.env H.pwd) with
    | none => .error (.usage "")
    | some s =>
      start w H fs s
        (match (H.configs fs).read s.tomlConfig with
          | none => s.vars
          | some text => loadWith (parseFile S (H.configs fs) s.tomlConfig text) s.vars)

/-! ### When it gets to QEMU -/

/-- With a firmware given, what the script asks for. -/
structure Ready (fs : φ) (s : Settings) (vars : Vars) : Prop where
  qemu : locate w H fs qemuPath ≠ ""
  blocks : s.idBlockFile = "" ↔ s.idAuthFile = ""
  hda : s.hda ≠ "" → vars.kernelFile = "" → locate w H fs s.hda ≠ ""
  cdrom : s.cdromFile ≠ "" → locate w H fs s.cdromFile ≠ ""
  firmware : vars.uefiCode ≠ ""
  policy : s.sev = true → "0x".toList.isPrefixOf vars.sevPolicy.toList = true

/-- A file that may not be given. -/
def located (fs : φ) (tmp : String) : String := if tmp = "" then "" else locate w H fs tmp

variable {fs : φ} {s : Settings} {vars : Vars}

/-- The parameters that QEMU is started with then. -/
def params (h : Ready w H fs s vars) : Params where
  vars := vars
  sev := s.sev
  sevSnp := s.sevSnp
  qemuExe := locate w H fs qemuPath
  cpuModel := s.cpuModel
  mem := s.mem
  uefiVars := ""
  cdromFile := located w H fs s.cdromFile
  hda := located w H fs s.hda
  hdb := s.hdb
  cbitpos := getCbitpos H.cpuid
  certsPath := s.certsPath
  idBlock :=
    if s.idBlockFile ≠ "" ∨ H.env "USE_ID_AND_AUTH" ≠ "" then
      some (content w H fs s.idBlockFile, content w H fs s.idAuthFile)
    else none
  hostData := if s.hostDataFile = "" then none else some (content w H fs s.hostDataFile)
  monitorPath := s.monitorPath
  located := locate_absolute w H qemuPath_plain.1 qemuPath_plain.2 ⟨rfl, h.qemu⟩
  firmware := h.firmware
  hexPolicy := h.policy

variable {w H}

theorem bind_eq_ok {ε α β : Type} {a : Except ε α} {f : α → Except ε β} {b : β} :
    (a >>= f) = .ok b ↔ ∃ v, a = .ok v ∧ f v = .ok b := by
  cases a <;> simp [bind, Except.bind]

theorem useIdAndAuth_eq_ok {use : Bool} :
    useIdAndAuth H s = .ok use ↔ (s.idBlockFile = "" ↔ s.idAuthFile = "") ∧
      decide (s.idBlockFile ≠ "" ∨ H.env "USE_ID_AND_AUTH" ≠ "") = use := by
  unfold useIdAndAuth
  by_cases hblock : s.idBlockFile = "" <;> by_cases hauth : s.idAuthFile = ""
  all_goals simp [hblock, hauth]

theorem locateHda_eq_ok {hda : String} :
    locateHda w H fs s vars = .ok hda ↔
      (s.hda ≠ "" → vars.kernelFile = "" → locate w H fs s.hda ≠ "") ∧
        located w H fs s.hda = hda := by
  unfold locateHda located
  by_cases hgiven : s.hda = ""
  · simp [hgiven]
  · by_cases hfound : locate w H fs s.hda = "" <;> by_cases hkernel : vars.kernelFile = ""
    all_goals simp [hgiven, hfound, hkernel]

theorem locateCdrom_eq_ok {cdrom : String} :
    locateCdrom w H fs s = .ok cdrom ↔
      (s.cdromFile ≠ "" → locate w H fs s.cdromFile ≠ "") ∧
        located w H fs s.cdromFile = cdrom := by
  unfold locateCdrom require located
  by_cases hgiven : s.cdromFile = ""
  · simp [hgiven]
  · by_cases hfound : locate w H fs s.cdromFile = ""
    all_goals simp [hgiven, hfound, Except.map]

/-- **Where a firmware is given, the script gets to QEMU exactly if it finds what it asks for,
and with these parameters.** -/
theorem start_eq_ok (hcode : vars.uefiCode ≠ "") {p : Params} :
    start w H fs s vars = .ok p ↔ ∃ h : Ready w H fs s vars, p = params w H h := by
  unfold start
  simp only [bind_eq_ok, useIdAndAuth_eq_ok, locateHda_eq_ok, locateCdrom_eq_ok, firmware,
    dif_pos hcode]
  refine ⟨?_, ?_⟩
  · intro h
    obtain ⟨⟨_, rfl, hqemu⟩, -, _, ⟨hblocks, rfl⟩, _, ⟨hhda, rfl⟩, _, ⟨hcdrom, rfl⟩, fw, hfw, h⟩ := h
    cases hfw
    by_cases hpolicy : s.sev = true → "0x".toList.isPrefixOf vars.sevPolicy.toList = true
    · rw [dif_pos hpolicy] at h
      cases h
      refine ⟨⟨hqemu, hblocks, hhda, hcdrom, hcode, hpolicy⟩, ?_⟩
      simp only [params, decide_eq_true_eq]
    · rw [dif_neg hpolicy] at h
      cases h
  · intro h
    obtain ⟨h, rfl⟩ := h
    refine ⟨⟨_, rfl, h.qemu⟩, dif_pos h.qemu, _, ⟨h.blocks, rfl⟩, _, ⟨h.hda, rfl⟩, _,
      ⟨h.cdrom, rfl⟩, _, rfl, ?_⟩
    rw [dif_pos h.policy]
    simp only [params, decide_eq_true_eq]
    rfl

/-- From arguments that `resolve` makes `vars` of. -/
theorem launch_eq {S : Spaces} {args : List String} (hroot : H.isRoot = true)
    (hs : readArgs args (.initial H.env H.pwd) = some s)
    (hvars : resolve S (H.configs fs) H.env H.pwd args = some vars) :
    launch w H S fs args = start w H fs s vars := by
  unfold resolve at hvars
  rw [hs, Option.map_some, Option.some.injEq] at hvars
  unfold launch
  rw [if_neg (by simp [hroot]), hs]
  exact congrArg (start w H fs s) hvars

end Script

end SnpGuard.Launch
