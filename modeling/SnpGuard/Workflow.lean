/-
From the Makefile to the guest: `run_verity_workflow` and `run_luks_workflow`.

A rule has `create-vm-config.sh` write the config file and `launch.sh` read it again, QEMU
passes the kernel command line on, and `init.sh` takes it apart.  Each of them has its own
idea of which texts are plain.  Where the values of the Makefile are, what the rule puts on the
command line is what `init.sh` boots (`reaches_init`).
-/
import SnpGuard.CreateVmConfig
import SnpGuard.LaunchFiles
import SnpGuard.Lib.Substitute
import SnpGuard.VerityImage

namespace SnpGuard.Workflow

open ArgLoop InitSh Launch Perl

/-! ### The rules -/

/-- The variables of the Makefile that the two rules use. -/
structure Make where
  ovmfPath : String
  kernelPath : String
  initrdPath : String
  kernelCmdline : String
  memory : String
  cpus : String
  policy : String
  /-- `$(BUILD_DIR)/stdout.log`. -/
  log : String
  vmConfTemplate : String
  vmConfigFile : String
  verityImage : String
  verityHashTree : String
  /-- What `cat $(VERITY_ROOT_HASH)` comes to. -/
  rootHash : String
  luksImage : String

/-- `run_verity_workflow` and `run_luks_workflow`. -/
inductive Rule where
  | verity
  | luks
deriving DecidableEq

/-- The mode that a rule boots the guest in. -/
def Rule.mode : Rule → Mode
  | verity => .verity
  | luks => .encrypted

/-- What stands for itself between the double quotes of a recipe, in `sed` and in the config
file. -/
def isQuotable (c : Char) : Bool :=
  32 ≤ c.toNat && c.toNat ≠ 127 && c ≠ '"' && c ≠ '\'' && c ≠ '\\' && c ≠ '$' && c ≠ '`'

namespace Make

variable (m : Make)

/-- `VERITY_PARAMS` and `LUKS_PARAMS`, word by word. -/
def params : Rule → List String
  | .verity => ["boot=verity", "verity_disk=/dev/sdb", "verity_roothash=" ++ m.rootHash]
  | .luks => ["boot=encrypted"]

/-- `"$(KERNEL_CMDLINE) $(VERITY_PARAMS)"`, or with `LUKS_PARAMS`. -/
def cmdline (r : Rule) : String := m.kernelCmdline ++ " " ++ " ".intercalate (m.params r)

/-- The arguments of `create-vm-config.sh`. -/
def configArgs (r : Rule) : List String :=
  ["-ovmf", m.ovmfPath, "-kernel", m.kernelPath, "-initrd", m.initrdPath,
    "-template", m.vmConfTemplate, "-cpus", m.cpus, "-policy", m.policy,
    "-cmdline", m.cmdline r, "-out", m.vmConfigFile]

/-- The disk that is booted. -/
def image : Rule → String
  | .verity => m.verityImage
  | .luks => m.luksImage

def disks : Rule → List Opt
  | .verity => [⟨"-hda", m.verityImage⟩, ⟨"-hdb", m.verityHashTree⟩]
  | .luks => [⟨"-hda", m.luksImage⟩]

/-- `QEMU_DEF_PARAMS`, `QEMU_SNP_PARAMS`, the disks and the config file. -/
def launchOpts (r : Rule) : List Opt :=
  [⟨"-default-network", none⟩, ⟨"-log", m.log⟩, ⟨"-mem", m.memory⟩, ⟨"-smp", m.cpus⟩,
    ⟨"-sev-snp", none⟩] ++ m.disks r ++ [⟨"-load-config", m.vmConfigFile⟩]

/-- The arguments of `launch.sh`. -/
def launchArgs (r : Rule) : List String := (m.launchOpts r).flatMap Opt.args

/-- What `create-vm-config.sh` is asked to write. -/
def options (r : Rule) : CreateVmConfig.Options where
  ovmfPath := m.ovmfPath
  kernelPath := m.kernelPath
  initrdPath := m.initrdPath
  outPath := m.vmConfigFile
  kernelCmdline := m.cmdline r
  templatePath := m.vmConfTemplate
  cpus := m.cpus
  policy := m.policy

/-- What `launch.sh` is to launch. -/
def vars (r : Rule) : Vars where
  smp := m.cpus
  uefiCode := m.ovmfPath
  kernelFile := m.kernelPath
  initrdFile := m.initrdPath
  append := m.cmdline r
  sevPolicy := m.policy

/-- What `init.sh` is to read: the parameters of the rule, and `root=` of `KERNEL_CMDLINE`. -/
def asked (x : Words.Expansion) (env : String → String) : Rule → InitSh.Params
  | .verity => { Params.asked env (cmdlineWords x m.kernelCmdline) with
      boot := "verity"
      verityDisk := "/dev/sdb"
      verityRootHash := m.rootHash }
  | .luks => { Params.asked env (cmdlineWords x m.kernelCmdline) with boot := "encrypted" }

/-- The paths and numbers, which the recipes do not quote. -/
def words (r : Rule) : List String :=
  [m.ovmfPath, m.kernelPath, m.initrdPath, m.memory, m.cpus, m.policy, m.log, m.vmConfTemplate,
    m.vmConfigFile] ++
    match r with
    | .verity => [m.verityImage, m.verityHashTree, m.rootHash]
    | .luks => [m.luksImage]

/-- Values that every script passes on as they are. -/
structure Plain (m : Make) (r : Rule) : Prop where
  words : ∀ v ∈ m.words r, v ≠ "" ∧ PlainWord v
  kernelCmdline : m.kernelCmdline.toList.all isQuotable = true
  /-- `VM_CONFIG_FILE` is no option. -/
  config : isOption m.vmConfigFile = false
  policy : "0x".toList.isPrefixOf m.policy.toList = true
  /-- No value has the name of a key that `create-vm-config.sh` puts in after it. -/
  survives : ∀ k, CreateVmConfig.Survives (m.options r) k

end Make

/-! ### Plain values -/

theorem isPlain_range {c : Char} (h : isPlain c = true) :
    33 ≤ c.toNat ∧ c.toNat < 127 ∧ isQuotable c = true := by
  have hrange : 33 ≤ c.toNat ∧ c.toNat < 127 := by
    simp only [isPlain, Bool.or_eq_true, beq_iff_eq] at h
    rcases h with (((((((h | rfl) | rfl) | rfl) | rfl) | rfl) | rfl) | rfl) | rfl
    · rw [Char.isAlphanum, Bool.or_eq_true, Sed.isAlpha_iff, Char.isDigit, Bool.and_eq_true,
        decide_eq_true_eq, decide_eq_true_eq] at h
      change ((65 ≤ c.toNat ∧ c.toNat ≤ 90) ∨ (97 ≤ c.toNat ∧ c.toNat ≤ 122)) ∨
        (48 ≤ c.toNat ∧ c.toNat ≤ 57) at h
      omega
    all_goals decide
  have hne : ∀ {d : Char}, isPlain d = false → c ≠ d := by
    rintro d hd rfl
    simp [h] at hd
  refine ⟨hrange.1, hrange.2, ?_⟩
  simp only [isQuotable, Bool.and_eq_true, decide_eq_true_eq]
  and_intros
  · omega
  · omega
  all_goals exact hne (by decide)

theorem isQuotable_iff {c : Char} :
    isQuotable c = true ↔ (32 ≤ c.toNat ∧ c.toNat ≠ 127 ∧ c ≠ '"' ∧ c ≠ '\'' ∧ c ≠ '\\') ∧
      c ≠ '$' ∧ c ≠ '`' := by
  simp [isQuotable, and_assoc]

theorem quoted_of_quotable {v : String} (h : v.toList.all isQuotable = true) :
    CommandLine.Quoted v.toList := by
  have hv : ∀ c ∈ v.toList, isQuotable c = true := List.all_eq_true.mp h
  refine ⟨fun c hc => ?_, ?_⟩
  · obtain ⟨⟨-, -, hquote, -, -⟩, -, hback⟩ := isQuotable_iff.mp (hv c hc)
    exact ⟨hquote, hback⟩
  · refine List.isChain_iff_forall_rel_of_append_cons_cons.mpr fun a b l₁ l₂ heq => ?_
    have hmem : a ∈ v.toList ++ ['"'] := by simp [heq]
    have hne : a ≠ '$' ∧ a ≠ '\\' := by
      rcases List.mem_append.mp hmem with hmem | hmem
      · obtain ⟨⟨-, -, -, -, hescape⟩, hdollar, -⟩ := isQuotable_iff.mp (hv a hmem)
        exact ⟨hdollar, hescape⟩
      · rw [List.mem_singleton.mp hmem]
        decide
    exact ⟨fun hdollar => absurd hdollar hne.1, fun hescape => absurd hescape hne.2⟩

theorem quotable_of_plain {v : String} (h : PlainWord v) : v.toList.all isQuotable = true := by
  rw [List.all_eq_true]
  intro c hc
  exact (isPlain_range (List.all_eq_true.mp h c hc)).2.2

theorem all_intercalate {p : Char → Bool} {ws : List (List Char)} (hblank : p ' ' = true)
    (h : ∀ w ∈ ws, w.all p = true) : ([' '].intercalate ws).all p = true := by
  induction ws with
  | nil => rfl
  | cons w ws ih =>
      obtain ⟨hw, hws⟩ := List.forall_mem_cons.mp h
      cases ws with
      | nil => simpa using hw
      | cons w' ws => simp [List.intercalate_cons_cons, hw, hblank, ih hws]

namespace Make.Plain

variable {m : Make} {r : Rule} (hm : m.Plain r)

include hm

theorem word {v : String} (hv : v ∈ m.words r) : PlainWord v := (hm.words v hv).2

theorem params : ∀ w ∈ m.params r, w ≠ "" ∧ PlainWord w := by
  cases r with
  | verity =>
      have hroot := (hm.words m.rootHash (by simp [Make.words])).2
      simp +decide [Make.params, hroot]
  | luks =>
      simp +decide [Make.params]

theorem quotable_params : (" ".intercalate (m.params r)).toList.all isQuotable = true := by
  rw [String.toList_intercalate]
  refine all_intercalate (by decide) fun w hw => ?_
  obtain ⟨v, hv, rfl⟩ := List.mem_map.mp hw
  exact quotable_of_plain (hm.params v hv).2

theorem cmdline : (m.cmdline r).toList.all isQuotable = true := by
  unfold Make.cmdline
  rw [String.toList_append, String.toList_append, List.all_append, List.all_append,
    hm.kernelCmdline, hm.quotable_params]
  decide

/-- The paths and numbers that go into the config file. -/
theorem value {k : CreateVmConfig.Key} (hk : k ≠ .kernelCmdline) :
    k.value (m.options r) ≠ [] ∧ (k.value (m.options r)).all isPlain = true := by
  have hword : ∀ v ∈ m.words r, v.toList ≠ [] ∧ v.toList.all isPlain = true := fun v hv =>
    ⟨by simpa using (hm.words v hv).1, hm.word hv⟩
  cases k with
  | ovmfFile => exact hword m.ovmfPath (by simp [Make.words])
  | kernelFile => exact hword m.kernelPath (by simp [Make.words])
  | initrdFile => exact hword m.initrdPath (by simp [Make.words])
  | kernelCmdline => exact absurd rfl hk
  | vcpuCount => exact hword m.cpus (by simp [Make.words])
  | guestPolicy => exact hword m.policy (by simp [Make.words])

/-- What `create-vm-config.sh` can be asked for. -/
theorem valid : (m.options r).Valid where
  plain k c hc := by
    have hquotable : isQuotable c = true := by
      by_cases hk : k = .kernelCmdline
      · subst hk
        exact List.all_eq_true.mp hm.cmdline c hc
      · exact (isPlain_range (List.all_eq_true.mp (hm.value hk).2 c hc)).2.2
    exact (isQuotable_iff.mp hquotable).1
  cmdline := by
    show m.cmdline r ≠ ""
    unfold Make.cmdline
    simp

end Make.Plain

/-! ### The config file -/

section ConfigFile

open CreateVmConfig (Key Line Template fill)
open Toml (Ws isWs)

/-- The key of a parameter. -/
def toKey : Param → Key
  | .vcpus => .vcpuCount
  | .bios => .ovmfFile
  | .kernel => .kernelFile
  | .initrd => .initrdFile
  | .append => .kernelCmdline
  | .policy => .guestPolicy

theorem key_toList (p : Param) : p.key.toList = (toKey p).name := by
  cases p <;> rfl

variable {S : Spaces}

/-- The launcher finds a key on the line of that key only. -/
theorem toKey_of_matches {p : Param} {k : Key} {value : Line}
    (h : Matches (pattern S p.key) (k.text value)) : k = toKey p := by
  obtain ⟨w, hw, hprefix⟩ := prefix_of_matches h
  rw [key_toList] at hprefix
  have hname : k.name <+: k.text value := ⟨_, rfl⟩
  have hstart : ∀ c ∈ (k.text value).head?, S.space c = false := by
    cases k
    all_goals exact Text.forall_head (Launch.not_space (by decide) (by decide))
  cases w with
  | nil =>
      rw [List.nil_append] at hprefix
      rcases List.prefix_or_prefix_of_prefix hprefix hname with h | h
      · exact (Key.eq_of_name_infix_name h.isInfix).symm
      · exact Key.eq_of_name_infix_name h.isInfix
  | cons c w =>
      obtain ⟨rest, hrest⟩ := hprefix
      have hspace := hstart c (by rw [← hrest]; rfl)
      rw [hw c List.mem_cons_self] at hspace
      cases hspace

/-- On a line where a key is found, it stands. -/
theorem name_of_matches {p : Param} {line : Line} (h : Matches (pattern S p.key) line) :
    (toKey p).name <:+: line := by
  obtain ⟨w, -, hprefix⟩ := prefix_of_matches h
  rw [key_toList] at hprefix
  exact (List.suffix_append w _).isInfix.trans hprefix.isInfix

variable {o : CreateVmConfig.Options} {template : List Line}

/-- What a file of these lines defines. -/
def config (o : CreateVmConfig.Options) (p : Param) : String :=
  String.ofList ((toKey p).value o)

theorem simple_text {p : Param} (hplain : CreateVmConfig.Plain ((toKey p).value o))
    (hbare : (toKey p).quotes = false →
      ∀ c ∈ (toKey p).value o, Launch.isQuote c = false ∧ S.space c = false) :
    Simple S p.key (config o p) ((toKey p).text ((toKey p).value o)) := by
  have hblank : Ws [' '] := by simp [Ws, isWs]
  unfold config
  by_cases hquotes : (toKey p).quotes = true
  · refine .quoted ?_ [] ⟨[], [' '], [' '], by simp [Ws], hblank, hblank, ?_⟩
    · rw [String.toList_ofList]
      intro hmem
      exact (hplain _ hmem).2.2.1 rfl
    · rw [String.toList_ofList, key_toList, Key.text, if_pos hquotes]
      rfl
  · have hno : (toKey p).quotes = false := by simpa using hquotes
    refine .bare ?_ [] (by simp) ⟨[], [' '], [' '], by simp [Ws], hblank, hblank, ?_⟩
    · rw [String.toList_ofList]
      exact hbare hno
    · rw [String.toList_ofList, key_toList, Key.text, if_neg hquotes, List.append_nil]
      rfl

/-- **What is written defines the values for the launcher.** -/
theorem defines_of_fill (ho : o.Valid) (ht : Template template)
    (hsurvives : ∀ k, CreateVmConfig.Survives o k) (hnonempty : ∀ k : Key, k.value o ≠ [])
    (hbare : ∀ k : Key, k.quotes = false →
      ∀ c ∈ k.value o, Launch.isQuote c = false ∧ S.space c = false)
    {text : String} (hnul : Launch.nul ∉ text.toList)
    (hlines : Text.lines text.toList = fill o template) : Defines S text (config o) where
  noNul := hnul
  line p := by
    have hwritten := (ht.written hsurvives).keys (toKey p)
    rw [← CreateVmConfig.fill_eq_map ho, ← hlines] at hwritten
    have hmem : (toKey p).text ((toKey p).value o) ∈
        (Text.lines text.toList).filter (CreateVmConfig.assigns (toKey p)) := by
      rw [hwritten]
      exact List.mem_singleton_self _
    exact ⟨_, (List.mem_filter.mp hmem).1, simple_text (ho.plain _) (hbare _)⟩
  only p := by
    have hle : template.countP ((fun line => decide (Matches (pattern S p.key) line)) ∘
        Sed.settle (CreateVmConfig.script o)) ≤
          template.countP fun line => (toKey p).name <:+: line := by
      refine List.countP_mono_left fun line hline hmatches => ?_
      have hmatches : Matches (pattern S p.key) (Sed.settle (CreateVmConfig.script o) line) := by
        simpa using hmatches
      by_cases hkey : ∃ k : Key, k.name <:+: line
      · obtain ⟨k, hk⟩ := hkey
        rw [CreateVmConfig.settle_own (hsurvives k) (ht.unique hline hk)] at hmatches
        rw [← toKey_of_matches hmatches]
        simpa using hk
      · have hnone : ∀ k : Key, ¬ k.name <:+: line := fun k hk => hkey ⟨k, hk⟩
        rw [CreateVmConfig.settle_other hnone] at hmatches
        exact absurd (name_of_matches hmatches) (hnone _)
    rw [hlines, CreateVmConfig.fill_eq_map ho, List.countP_map]
    exact hle.trans (ht.once (toKey p)).le
  nonempty p := by
    intro hempty
    refine hnonempty (toKey p) ?_
    simpa [config] using congrArg String.toList hempty

end ConfigFile

/-! ### The launch -/

/-- The variables of the launcher's environment that would change the launch. -/
def readVariables : List String :=
  ["KERNEL_FILE", "INITRD_FILE", "APPEND", "SEV_POLICY", "CDROM_FILE", "ID_BLOCK_FILE",
    "ID_AUTH_FILE", "HOST_DATA_FILE", "USE_ID_AND_AUTH"]

/-- The variables of `launch.sh` behind its argument loop. -/
def Make.settings (m : Make) (r : Rule) (env : String → String) (pwd : String) : Settings :=
  { Settings.initial env pwd with
    vars := { (Settings.initial env pwd).vars with smp := m.cpus }
    sev := true
    sevEs := true
    sevSnp := true
    hda := m.image r
    hdb :=
      match r with
      | .verity => m.verityHashTree
      | .luks => ""
    mem := m.memory
    qemuConsoleLog := m.log
    tomlConfig := m.vmConfigFile }

section Launch

variable {m : Make} {r : Rule} {φ : Type} {w : Shells} {H : Host φ} {fs : φ} {S : Spaces}
  {text : String}

theorem read_launchArgs (env : String → String) (pwd : String) :
    readArgs (m.launchArgs r) (.initial env pwd) = some (m.settings r env pwd) := by
  cases r <;> rfl

/-- The host's part: the files are there, and nothing else is asked of the launcher. -/
structure Serves (m : Make) (r : Rule) (w : Shells) (H : Host φ) (fs : φ) : Prop where
  isRoot : H.isRoot = true
  env : ∀ v ∈ readVariables, H.env v = ""
  qemu : locate w H fs qemuPath ≠ ""
  plain : PlainWord (locate w H fs qemuPath) ∧ PlainWord (locate w H fs (m.image r))

theorem vars_ext {a b : Vars} (h : ∀ p : Param, p.get a = p.get b) : a = b := by
  obtain ⟨smp, uefiCode, kernelFile, initrdFile, append, sevPolicy⟩ := a
  obtain rfl : smp = b.smp := h .vcpus
  obtain rfl : uefiCode = b.uefiCode := h .bios
  obtain rfl : kernelFile = b.kernelFile := h .kernel
  obtain rfl : initrdFile = b.initrdFile := h .initrd
  obtain rfl : append = b.append := h .append
  obtain rfl : sevPolicy = b.sevPolicy := h .policy
  rfl

theorem resolve_launchArgs (hm : m.Plain r) (hhost : Serves m r w H fs)
    (hfile : (H.configs fs).read m.vmConfigFile = some text)
    (htext : Defines S text (config (m.options r))) :
    resolve S (H.configs fs) H.env H.pwd (m.launchArgs r) = some (m.vars r) := by
  have hcpus : m.cpus ≠ "" := (hm.words m.cpus (by simp [Make.words])).1
  have hread : (H.configs fs).read (m.settings r H.env H.pwd).tomlConfig = some text := hfile
  have hget : ∀ p : Param, p.get (m.settings r H.env H.pwd).vars =
      if p = .vcpus then m.cpus else "" := by
    intro p
    cases p with
    | vcpus => rfl
    | bios => rfl
    | kernel => exact hhost.env "KERNEL_FILE" (by decide)
    | initrd => exact hhost.env "INITRD_FILE" (by decide)
    | append => exact hhost.env "APPEND" (by decide)
    | policy => exact hhost.env "SEV_POLICY" (by decide)
  have hconfig : ∀ p : Param, config (m.options r) p = p.get (m.vars r) := by
    intro p
    cases p <;> exact String.ofList_toList
  unfold resolve
  rw [read_launchArgs, Option.map_some, hread, Option.some.injEq]
  refine vars_ext fun p => ?_
  rw [p.get_loadWith, hget]
  by_cases hp : p = .vcpus
  · subst hp
    exact if_neg hcpus
  · rw [if_neg hp, if_pos rfl]
    exact ((htext.parseFile_iff p).mpr (.inl hm.config)).trans (hconfig p)

theorem ready (hm : m.Plain r) (hhost : Serves m r w H fs) :
    Ready w H fs (m.settings r H.env H.pwd) (m.vars r) where
  qemu := hhost.qemu
  blocks := ⟨fun _ => hhost.env "ID_AUTH_FILE" (by decide),
    fun _ => hhost.env "ID_BLOCK_FILE" (by decide)⟩
  hda _ hnone := absurd hnone (hm.words m.kernelPath (by simp [Make.words])).1
  cdrom hgiven := absurd (hhost.env "CDROM_FILE" (by decide)) hgiven
  firmware := (hm.words m.ovmfPath (by simp [Make.words])).1
  policy _ := hm.policy

/-- **The launcher gets to QEMU**, with the values of the Makefile. -/
theorem launch_launchArgs (hm : m.Plain r) (hhost : Serves m r w H fs)
    (hfile : (H.configs fs).read m.vmConfigFile = some text)
    (htext : Defines S text (config (m.options r))) :
    launch w H S fs (m.launchArgs r) = .ok (Launch.params w H (ready hm hhost)) := by
  rw [launch_eq hhost.isRoot (read_launchArgs _ _) (resolve_launchArgs hm hhost hfile htext),
    start_eq_ok (ready hm hhost).firmware]
  exact ⟨ready hm hhost, rfl⟩

theorem plain_params (hm : m.Plain r) (hhost : Serves m r w H fs) :
    PlainParams (Launch.params w H (ready hm hhost)) where
  qemuExe := hhost.plain.1
  cpuModel := (by decide : "EPYC-v4" ≠ "" ∧ PlainWord "EPYC-v4")
  smp := hm.word (v := m.cpus) (by simp [Make.words])
  mem := hm.word (v := m.memory) (by simp [Make.words])
  uefiCode := hm.word (v := m.ovmfPath) (by simp [Make.words])
  uefiVars := (by decide : PlainWord "")
  cdromFile := by
    have hnone : (m.settings r H.env H.pwd).cdromFile = "" := hhost.env "CDROM_FILE" (by decide)
    simp +decide [Launch.params, located, hnone]
  hda := by
    simp only [Launch.params, located]
    split_ifs
    · decide
    · exact hhost.plain.2
  hdb := by
    cases r with
    | verity => exact hm.word (v := m.verityHashTree) (by simp [Make.words])
    | luks => exact (by decide : PlainWord "")
  sevPolicy := hm.word (v := m.policy) (by simp [Make.words])
  certsPath := (by decide : PlainWord "")
  idBlock := by
    have hnone : (m.settings r H.env H.pwd).idBlockFile = "" :=
      hhost.env "ID_BLOCK_FILE" (by decide)
    simp [Launch.params, hnone, hhost.env "USE_ID_AND_AUTH" (by decide)]
  hostData := by
    have hnone : (m.settings r H.env H.pwd).hostDataFile = "" :=
      hhost.env "HOST_DATA_FILE" (by decide)
    simp [Launch.params, hnone]
  kernelFile := hm.word (v := m.kernelPath) (by simp [Make.words])
  initrdFile := hm.word (v := m.initrdPath) (by simp [Make.words])
  append := quoted_of_quotable hm.cmdline
  monitorPath := (by decide : PlainWord "monitor")

end Launch

/-! ### The guest -/

section Guest

variable {m : Make} {r : Rule} {x : Words.Expansion}

theorem blank_of_plain {v : String} (hv : v ≠ "" ∧ PlainWord v) : Words.Plain v.toList := by
  refine ⟨by simpa using hv.1, fun c hc => ?_⟩
  obtain ⟨-, hblank, -, hpattern, -⟩ := isPlain_inert (List.all_eq_true.mp hv.2 c hc)
  exact ⟨hblank, hpattern⟩

/-- The parameters of the rule are words of their own. -/
theorem cmdlineWords_cmdline (hm : m.Plain r) :
    cmdlineWords x (m.cmdline r) = cmdlineWords x m.kernelCmdline ++ m.params r := by
  have hsplit : m.cmdline r = String.ofList
      (m.kernelCmdline.toList ++ ' ' :: (" ".intercalate (m.params r)).toList) := by
    unfold Make.cmdline
    refine String.toList_injective ?_
    simp
  have hplain : ∀ v ∈ m.params r, Words.Plain v.toList := fun v hv =>
    blank_of_plain (hm.params v hv)
  have hparams : cmdlineWords x (" ".intercalate (m.params r)) = m.params r := by
    have hone : ∀ c ∈ (" ".intercalate (m.params r)).toList, isQuotable c = true :=
      List.all_eq_true.mp hm.quotable_params
    have hnot : ∀ d, isQuotable d = false → d ∉ (" ".intercalate (m.params r)).toList := by
      intro d hd hmem
      rw [hone d hmem] at hd
      cases hd
    have hwords : Words.words (" ".intercalate (m.params r)).toList =
        (m.params r).map String.toList := by
      rw [String.toList_intercalate]
      refine Words.words_intercalate fun v hv => ?_
      obtain ⟨u, hu, rfl⟩ := List.mem_map.mp hv
      exact ⟨(hplain u hu).1, fun c hc => ((hplain u hu).2 c hc).1⟩
    unfold cmdlineWords
    rw [Shell.substitution_eq_self (hnot Words.nul (by decide)) (hnot '\n' (by decide)),
      String.ofList_toList, x.unquoted_of_words hwords, List.map_map]
    · simp [Function.comp_def]
    · intro v hv c hc
      obtain ⟨u, hu, rfl⟩ := List.mem_map.mp hv
      exact ((hplain u hu).2 c hc).2
  rw [hsplit, cmdlineWords_append rfl, String.ofList_toList, String.ofList_toList, hparams]

/-- The names that `init.sh` knows. -/
def names : List String := ["root", "boot", "verity_disk", "verity_roothash"]

/-- The word with the root hash assigns to its own name. -/
theorem valueOf_rootHash {name : String} (hname : name ∈ names) (rootHash : String) :
    Assignments.valueOf name ("verity_roothash=" ++ rootHash) =
      if name = "verity_roothash" then some rootHash else none := by
  simp only [names, List.mem_cons, List.not_mem_nil, or_false] at hname
  rcases hname with rfl | rfl | rfl | rfl
  · simp [Assignments.valueOf]
  · simp [Assignments.valueOf]
  · simp [Assignments.valueOf]
  · exact Assignments.valueOf_append "verity_roothash" rootHash

theorem valueOf_boot : ∀ name ∈ names, ∀ boot ∈ ["verity", "encrypted"],
    Assignments.valueOf name ("boot=" ++ boot) = if name = "boot" then some boot else none := by
  decide +kernel

theorem valueOf_disk : ∀ name ∈ names, Assignments.valueOf name "verity_disk=/dev/sdb" =
    if name = "verity_disk" then some "/dev/sdb" else none := by
  decide +kernel

/-- What the words of the rule assign. -/
theorem lastValue_params (m : Make) (r : Rule) (name : String) (hname : name ∈ names) :
    Assignments.lastValue name (m.params r) =
      if name = "boot" then some r.mode.text
      else if r = .verity ∧ name = "verity_disk" then some "/dev/sdb"
      else if r = .verity ∧ name = "verity_roothash" then some m.rootHash
      else none := by
  unfold Assignments.lastValue
  cases r with
  | verity =>
      have hboot := valueOf_boot name hname "verity" (by decide)
      have hdisk := valueOf_disk name hname
      have hroot := valueOf_rootHash hname m.rootHash
      show ([ "boot=" ++ "verity", _, _].filterMap (Assignments.valueOf name)).getLast? = _
      simp only [List.filterMap_cons, List.filterMap_nil, hboot, hdisk, hroot]
      simp only [names, List.mem_cons, List.not_mem_nil, or_false] at hname
      rcases hname with rfl | rfl | rfl | rfl
      all_goals rfl
  | luks =>
      have hboot := valueOf_boot name hname "encrypted" (by decide)
      show ([ "boot=" ++ "encrypted"].filterMap (Assignments.valueOf name)).getLast? = _
      simp only [List.filterMap_cons, List.filterMap_nil, hboot]
      simp only [names, List.mem_cons, List.not_mem_nil, or_false] at hname
      rcases hname with rfl | rfl | rfl | rfl
      all_goals rfl

/-- **`init.sh` reads what the rule asks for.** -/
theorem readCmdline_cmdline (hm : m.Plain r) (env : String → String) :
    readCmdline x env (m.cmdline r) = m.asked x env r := by
  rw [readCmdline_eq, cmdlineWords_cmdline hm]
  unfold Params.asked
  simp only [Assignments.lastValue_append]
  have hlast := lastValue_params m r
  rw [hlast "root" (by decide), hlast "boot" (by decide), hlast "verity_disk" (by decide),
    hlast "verity_roothash" (by decide)]
  cases r with
  | verity => simp [Make.asked, Params.asked, Rule.mode, Mode.text]
  | luks => simp [Make.asked, Params.asked, Rule.mode, Mode.text]

end Guest

/-! ### From the Makefile to the guest -/

section Run

variable {m : Make} {r : Rule} {φ : Type} {w : Shells} {H : Host φ} {fs : φ} {S : Spaces}
  {text : String} {template : List CreateVmConfig.Line}

theorem defines (hm : m.Plain r) (ht : CreateVmConfig.Template template)
    (hnul : nul ∉ text.toList)
    (hlines : Text.lines text.toList = CreateVmConfig.fill (m.options r) template) :
    Defines S text (config (m.options r)) := by
  refine defines_of_fill hm.valid ht hm.survives (fun k => ?_) (fun k hk c hc => ?_) hnul hlines
  · by_cases hk : k = .kernelCmdline
    · subst hk
      have hne : m.cmdline r ≠ "" := hm.valid.cmdline
      show (m.cmdline r).toList ≠ []
      simpa using hne
    · exact (hm.value hk).1
  · have hne : k ≠ .kernelCmdline := by
      rintro rfl
      cases hk
    obtain ⟨hlo, hhi, hquotable⟩ := isPlain_range (List.all_eq_true.mp (hm.value hne).2 c hc)
    obtain ⟨⟨-, -, hquote, -⟩, -⟩ := isQuotable_iff.mp hquotable
    exact ⟨beq_eq_false_iff_ne.mpr hquote, not_space hlo (by omega)⟩

/-- What `create-vm-config.sh` writes, and where. -/
theorem configArgs_run {copy : String → String → Option (List CreateVmConfig.Line)}
    (hcopy : copy m.vmConfTemplate m.vmConfigFile = some template) :
    CreateVmConfig.run copy (m.configArgs r) =
      some (m.vmConfigFile, CreateVmConfig.fill (m.options r) template) := by
  show (copy m.vmConfTemplate m.vmConfigFile).map _ = _
  rw [hcopy]
  rfl

/-- **What the Makefile puts on the kernel command line is what `init.sh` reads.**  The config
file is written; with its lines the launcher gets to QEMU, which gets the command line as it is,
and in the guest the parameters of the rule come out of it. -/
theorem reaches_init (copy : String → String → Option (List CreateVmConfig.Line))
    (hm : m.Plain r) (hcopy : copy m.vmConfTemplate m.vmConfigFile = some template)
    (ht : CreateVmConfig.Template template)
    (hfile : (H.configs fs).read m.vmConfigFile = some text) (hnul : nul ∉ text.toList)
    (hlines : Text.lines text.toList = CreateVmConfig.fill (m.options r) template)
    (hhost : Serves m r w H fs) :
    CreateVmConfig.run copy (m.configArgs r) =
        some (m.vmConfigFile, CreateVmConfig.fill (m.options r) template) ∧
      ∃ p, launch w H S fs (m.launchArgs r) = .ok p ∧ Faithful w p ∧
        ["-append", m.cmdline r] <:+: intended p ∧
        ∀ x env shown, Shown (m.cmdline r) shown → readCmdline x env shown = m.asked x env r := by
  refine ⟨configArgs_run hcopy, ?_⟩
  have hlaunch := launch_launchArgs (w := w) hm hhost hfile (defines (S := S) hm ht hnul hlines)
  have hkernel : (m.vars r).kernelFile ≠ "" := (hm.words m.kernelPath (by simp [Make.words])).1
  have happend := append_intended (p := Launch.params w H (ready hm hhost)) hkernel
    hm.valid.cmdline
  refine ⟨_, hlaunch, faithful_of_plain w (plain_params hm hhost), happend, ?_⟩
  intro x env shown hshown
  rw [hshown.read, readCmdline_cmdline hm]

end Run

/-! ### The image of the verity rule -/

section Image

open VerityImage

variable {α : Type} {x : Words.Expansion} {J : Json} {C : Crates} {w : World α}
  {src out : FileTree α} {env : String → String} {shown : String} {s : State α}

end Image

/-! ### A Makefile with small values -/

def Make.toy : Make where
  ovmfPath := "/root/OVMF.fd"
  kernelPath := "/root/vmlinuz"
  initrdPath := "/root/initrd.img"
  kernelCmdline := "console=ttyS0 root=/dev/sda"
  memory := "4096"
  cpus := "1"
  policy := "0x30000"
  log := "/root/stdout.log"
  vmConfTemplate := "template.toml"
  vmConfigFile := "vm.toml"
  verityImage := "image.qcow2"
  verityHashTree := "hash_tree.bin"
  rootHash := "ab"
  luksImage := "luks.qcow2"

/-- A host with this config file, where a relative path is one in `/root`. -/
def Host.toy (text : String) : Host Unit where
  isRoot := true
  env _ := ""
  pwd := "/root"
  configs _ := ⟨fun path => if path = "vm.toml" then some text else none, fun _ _ => ""⟩
  readlink _ args := args.flatMap fun path => "/root/".toList ++ path.toList ++ ['\n']
  readlink_absolute := by
    intro fs path c _ h
    simpa using h.symm
  basename args := args.flatMap fun path => path.toList ++ ['\n']
  isThere _ _ := true
  cp _ _ := none
  cat _ _ := []
  cpuid _ := ⟨0, 51, 0, 0⟩

theorem toy_plain (r : Rule) : Make.toy.Plain r where
  words := by cases r <;> decide +kernel
  kernelCmdline := by decide +kernel
  config := by decide +kernel
  policy := by decide +kernel
  survives k := by
    show ∀ k' ∈ k.later, ¬ k'.name <:+: k.value (Make.toy.options r)
    cases r <;> cases k <;> decide +kernel

theorem toy_serves (r : Rule) (text : String) : Serves Make.toy r .toy (Host.toy text) () where
  isRoot := rfl
  env _ _ := rfl
  qemu := by
    show locate .toy (Host.toy "") () qemuPath ≠ ""
    decide +kernel
  plain := by
    show PlainWord (locate .toy (Host.toy "") () qemuPath) ∧
      PlainWord (locate .toy (Host.toy "") () (Make.toy.image r))
    cases r <;> decide +kernel

def toyText (r : Rule) : String :=
  String.ofList ((CreateVmConfig.fill (Make.toy.options r) CreateVmConfig.toyTemplate).flatMap
    (· ++ ['\n']))

theorem toyText_lines (r : Rule) : Text.lines (toyText r).toList =
    CreateVmConfig.fill (Make.toy.options r) CreateVmConfig.toyTemplate := by
  rw [toyText, String.toList_ofList]
  cases r <;> decide +kernel

theorem toyText_noNul (r : Rule) : nul ∉ (toyText r).toList := by
  rw [toyText, String.toList_ofList]
  cases r <;> decide +kernel

theorem reaches_init_toy :
    CreateVmConfig.run (fun _ _ => some CreateVmConfig.toyTemplate) (Make.toy.configArgs .verity) =
        some ("vm.toml", CreateVmConfig.fill (Make.toy.options .verity) CreateVmConfig.toyTemplate) ∧
      ∃ p, launch .toy (Host.toy (toyText .verity)) .posix () (Make.toy.launchArgs .verity) =
          .ok p ∧
        Faithful .toy p ∧ ["-append", Make.toy.cmdline .verity] <:+: intended p ∧
        ∀ x env shown, Shown (Make.toy.cmdline .verity) shown →
          readCmdline x env shown = Make.toy.asked x env .verity :=
  reaches_init (fun _ _ => some CreateVmConfig.toyTemplate) (toy_plain .verity) rfl
    CreateVmConfig.toyTemplate_template rfl (toyText_noNul .verity) (toyText_lines .verity)
    (toy_serves .verity _)

end SnpGuard.Workflow
