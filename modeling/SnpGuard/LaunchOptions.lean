/-
Where the launcher's options end up: the argument loop of `launch.sh`.

Built-in defaults, the environment, flags and the config file all write the same variables.
The flags are read in order, so the last one counts, and the file is asked for whatever is
still empty afterwards.  That is how a config value gives way to a flag, but it gives way
to a default as well: `SMP` starts as `1`, so the number of CPUs is never read from the file
(`resolve_iff`).
-/
import SnpGuard.Launch
import SnpGuard.Lib.ArgLoop

namespace SnpGuard.Launch

open ArgLoop Perl Toml

/-! ### The argument loop -/

/-- The variables of the script.  Those that it does not initialize come from the
environment. -/
structure Settings where
  vars : Vars
  sev : Bool
  sevEs : Bool
  sevSnp : Bool
  allowDebug : Bool
  hda : String
  hdb : String
  mem : String
  cpuModel : String
  cdromFile : String
  monitorPath : String
  qemuConsoleLog : String
  certsPath : String
  idBlockFile : String
  idAuthFile : String
  hostDataFile : String
  tomlConfig : String
deriving DecidableEq

/-- The variables before the arguments are read. -/
def Settings.initial (env : String → String) (pwd : String) : Settings where
  vars :=
    { smp := "1"
      uefiCode := ""
      kernelFile := env "KERNEL_FILE"
      initrdFile := env "INITRD_FILE"
      append := env "APPEND"
      sevPolicy := env "SEV_POLICY" }
  sev := false
  sevEs := false
  sevSnp := false
  allowDebug := env "ALLOW_DEBUG" = "1"
  hda := ""
  hdb := ""
  mem := "2048"
  cpuModel := "EPYC-v4"
  cdromFile := env "CDROM_FILE"
  monitorPath := "monitor"
  qemuConsoleLog := pwd ++ "/stdout.log"
  certsPath := ""
  idBlockFile := env "ID_BLOCK_FILE"
  idAuthFile := env "ID_AUTH_FILE"
  hostDataFile := env "HOST_DATA_FILE"
  tomlConfig := env "TOML_CONFIG"

/-- The flags that take no value. -/
def switch : String → Option (Settings → Settings)
  | "-sev-snp" => some fun s => { s with sev := true, sevEs := true, sevSnp := true }
  -- Nothing looks at `DISCARD`.
  | "-enable-discard" => some fun s => s
  | "-sev-es" => some fun s => { s with sev := true, sevEs := true }
  | "-sev" => some fun s => { s with sev := true }
  | "-allow-debug" => some fun s => { s with allowDebug := true }
  -- `USE_DEFAULT_NETWORK` is set from the start.
  | "-default-network" => some fun s => s
  | _ => none

/-- The flags that take a value. -/
def assign : String → Option (String → Settings → Settings)
  | "-hda" => some fun v s => { s with hda := v }
  | "-hdb" => some fun v s => { s with hdb := v }
  | "-mem" => some fun v s => { s with mem := v }
  | "-smp" => some fun v s => { s with vars := { s.vars with smp := v } }
  | "-cpu" => some fun v s => { s with cpuModel := v }
  | "-bios" => some fun v s => { s with vars := { s.vars with uefiCode := v } }
  | "-kernel" => some fun v s => { s with vars := { s.vars with kernelFile := v } }
  | "-initrd" => some fun v s => { s with vars := { s.vars with initrdFile := v } }
  | "-append" => some fun v s => { s with vars := { s.vars with append := v } }
  | "-cdrom" => some fun v s => { s with cdromFile := v }
  | "-monitor" => some fun v s => { s with monitorPath := v }
  | "-log" => some fun v s => { s with qemuConsoleLog := v }
  | "-certs" => some fun v s => { s with certsPath := v }
  | "-id-block" => some fun v s => { s with idBlockFile := v }
  | "-id-auth" => some fun v s => { s with idAuthFile := v }
  | "-host-data" => some fun v s => { s with hostDataFile := v }
  | "-policy" => some fun v s => { s with vars := { s.vars with sevPolicy := v } }
  -- Nothing looks at `VM_CONFIG_FILE`.
  | "-vm-config-file" => some fun _ s => s
  | "-load-config" => some fun v s => { s with tomlConfig := v }
  | _ => none

def flags : Flags Settings := ⟨switch, assign⟩

/-- No flag is known both with and without a value. -/
theorem flags_distinct : flags.Distinct where
  switch {flag} h := by
    show switch flag = none
    change (assign flag).isSome at h
    unfold assign at h
    split at h
    all_goals first | rfl | simp at h
  nonempty := by decide

/-- The argument loop; `none` where it ends in `usage`. -/
def readArgs (args : List String) (s : Settings) : Option Settings :=
  match flags.read args s with
  | .done s => some s
  | .missing s => some s
  | .unknown => none

/-- What the script finds on the disk. -/
structure ConfigFiles where
  /-- The regular files by their paths. -/
  read : String → Option String
  /-- What `grep` prints for a key when it takes the path for options. -/
  asOptions : (key path : String) → String

/-- `grep` takes a path that begins with a dash for options. -/
def isOption (path : String) : Bool := path.toList.head? == some '-'

/-- `parse_value_for_key`, of the file with this path and content. -/
def parseFile (S : Spaces) (files : ConfigFiles) (path text key : String) : String :=
  if isOption path then files.asOptions key path else parseValueForKey S key text

/-- The `-load-config` block, where `parse` is `parse_value_for_key`. -/
def loadWith (parse : String → String) (vars : Vars) : Vars where
  smp := if vars.smp = "" then parse "vcpu_count" else vars.smp
  uefiCode := if vars.uefiCode = "" then parse "ovmf_file" else vars.uefiCode
  kernelFile := if vars.kernelFile = "" then parse "kernel_file" else vars.kernelFile
  initrdFile := if vars.initrdFile = "" then parse "initrd_file" else vars.initrdFile
  append := if vars.append = "" then parse "kernel_cmdline" else vars.append
  sevPolicy := if vars.sevPolicy = "" then parse "guest_policy" else vars.sevPolicy

/-- On any other path, this is `loadConfig`. -/
theorem loadWith_parseFile {S : Spaces} {files : ConfigFiles} {path : String}
    (h : isOption path = false) (text : String) (vars : Vars) :
    loadWith (parseFile S files path text) vars = loadConfig S (some text) vars := by
  unfold loadWith parseFile
  simp only [h, Bool.false_eq_true, if_false]
  rfl

/-- The script up to the point where its parameters are settled. -/
def resolve (S : Spaces) (files : ConfigFiles) (env : String → String) (pwd : String)
    (args : List String) : Option Vars :=
  (readArgs args (.initial env pwd)).map fun s =>
    match files.read s.tomlConfig with
    | none => s.vars
    | some text => loadWith (parseFile S files s.tomlConfig text) s.vars

/-! ### The last flag counts -/

/-- The values that a config file can give. -/
inductive Param where
  | vcpus
  | bios
  | kernel
  | initrd
  | append
  | policy
deriving DecidableEq

namespace Param

def flag : Param → String
  | vcpus => "-smp"
  | bios => "-bios"
  | kernel => "-kernel"
  | initrd => "-initrd"
  | append => "-append"
  | policy => "-policy"

/-- The key in the config file. -/
def key : Param → String
  | vcpus => "vcpu_count"
  | bios => "ovmf_file"
  | kernel => "kernel_file"
  | initrd => "initrd_file"
  | append => "kernel_cmdline"
  | policy => "guest_policy"

/-- The variable. -/
def get (vars : Vars) : Param → String
  | vcpus => vars.smp
  | bios => vars.uefiCode
  | kernel => vars.kernelFile
  | initrd => vars.initrdFile
  | append => vars.append
  | policy => vars.sevPolicy

end Param

/-- What an option with a value sets. -/
theorem assign_spec {flag : String} {set : String → Settings → Settings}
    (h : Launch.assign flag = some set) (value : String) (s : Settings) :
    (∀ p : Param, p.get (set value s).vars = if flag = p.flag then value else p.get s.vars) ∧
      (set value s).tomlConfig = if flag = "-load-config" then value else s.tomlConfig := by
  unfold Launch.assign at h
  split at h
  all_goals cases h
  all_goals refine ⟨fun p => ?_, by simp⟩
  all_goals cases p <;> simp [Param.flag, Param.get]

/-- An option without a value sets none of these. -/
theorem switch_spec {flag : String} {set : Settings → Settings}
    (h : Launch.switch flag = some set) (s : Settings) :
    (∀ p : Param, p.get (set s).vars = p.get s.vars) ∧ (set s).tomlConfig = s.tomlConfig := by
  unfold Launch.switch at h
  split at h
  all_goals cases h
  all_goals exact ⟨fun _ => rfl, rfl⟩

theorem Param.setBy (p : Param) : flags.SetBy p.flag fun s => p.get s.vars where
  assign h value s := (assign_spec h value s).1 p
  switch h s := (switch_spec h s).1 p

theorem tomlConfig_setBy : flags.SetBy "-load-config" Settings.tomlConfig where
  assign h value s := (assign_spec h value s).2
  switch h s := (switch_spec h s).2

/-- The file is asked for what is still empty. -/
theorem Param.get_loadWith (p : Param) (parse : String → String) (vars : Vars) :
    p.get (loadWith parse vars) = if p.get vars = "" then parse p.key else p.get vars := by
  cases p <;> rfl

/-! ### The config file -/

variable {S : Spaces}

/-- A line `key = value`, with the value in double quotes or without white space. -/
inductive Simple (S : Spaces) (key value : String) (line : List Char) : Prop where
  | quoted (hvalue : quote ∉ value.toList) (behind : List Char)
      (hline : Assigning key.toList (quote :: (value.toList ++ quote :: behind)) line)
  | bare (hvalue : ∀ c ∈ value.toList, isQuote c = false ∧ S.space c = false)
      (behind : List Char) (hbehind : ∀ c ∈ behind.head?, S.space c = true)
      (hline : Assigning key.toList (value.toList ++ behind) line)

/-- A file that defines the six values, each on a line of its own. -/
structure Defines (S : Spaces) (text : String) (config : Param → String) : Prop where
  noNul : nul ∉ text.toList
  line : ∀ p : Param, ∃ line ∈ Text.lines text.toList, Simple S p.key (config p) line
  only : ∀ p : Param, (Text.lines text.toList).countP (Matches (pattern S p.key)) ≤ 1
  nonempty : ∀ p, config p ≠ ""

theorem Param.key_head (p : Param) : ∀ c ∈ p.key.toList.head?, S.space c = false := by
  cases p
  all_goals exact Text.forall_head (not_space (by decide) (by decide))

theorem Param.key_ne_nil (p : Param) : p.key.toList ≠ [] := by
  cases p <;> decide

/-- The value is a piece of its line. -/
theorem Simple.mem {key value : String} {line : List Char} (h : Simple S key value line) :
    ∀ c ∈ value.toList, c ∈ line := by
  intro c hc
  cases h with
  | quoted hvalue behind hline =>
      obtain ⟨w, w', w'', -, -, -, rfl⟩ := hline
      simp [hc]
  | bare hvalue behind hbehind hline =>
      obtain ⟨w, w', w'', -, -, -, rfl⟩ := hline
      simp [hc]

/-- **The launcher reads the value of a simple line.** -/
theorem Defines.parse {text : String} {config : Param → String} (h : Defines S text config)
    (p : Param) : parseValueForKey S p.key text = config p := by
  obtain ⟨line, hmem, hsimple⟩ := h.line p
  obtain ⟨hline, htext⟩ := Text.mem_of_mem_lines hmem
  have hs : nul ∉ (config p).toList ∧ '\n' ∉ (config p).toList :=
    ⟨fun hc => h.noNul (htext _ (hsimple.mem _ hc)), fun hc => hline (hsimple.mem _ hc)⟩
  have hfirst : ∃ rest, (pattern S p.key).first ⟨true, [], line⟩
      = some ⟨false, (config p).toList, rest⟩ := by
    cases hsimple with
    | quoted hvalue behind hassign =>
        have hhead : ∀ c ∈ (quote :: ((config p).toList ++ quote :: behind)).head?,
            S.space c = false := Text.forall_head (not_space (by decide) (by decide))
        refine ⟨quote :: behind, first_assignment p.key_ne_nil p.key_head hhead hassign ?_⟩
        intro taken
        exact Regex.first_alt_left (first_quotedValue hvalue taken behind)
    | bare hvalue behind hbehind hassign =>
        have hne : (config p).toList ≠ [] := by
          intro hnil
          exact h.nonempty p (String.toList_injective (by rw [hnil]; rfl))
        have hhead : ∀ c ∈ ((config p).toList ++ behind).head?, S.space c = false := by
          obtain ⟨a, t, hat⟩ := List.exists_cons_of_ne_nil hne
          rw [hat] at hvalue ⊢
          exact Text.forall_head (hvalue a List.mem_cons_self).2
        refine ⟨behind, first_assignment p.key_ne_nil p.key_head hhead hassign ?_⟩
        intro taken
        exact first_bareValue hne hvalue hbehind taken
  obtain ⟨rest, hfirst⟩ := hfirst
  have hread := parseValueForKey_of_line hmem hs (h.only p) hfirst
  rwa [String.ofList_toList, String.ofList_toList] at hread

/-! ### Where the values come from -/

/-- The value that a flag gives, and otherwise the config file's. -/
def wanted (opts : List Opt) (config : Param → String) (p : Param) : String :=
  (lastValue p.flag opts).getD (config p)

/-- **What the parameters end up as.**  The last flag counts, then what was in the variable
from the start, and then the config file. -/
theorem resolve_eq {files : ConfigFiles} {env : String → String} {pwd : String}
    {opts : List Opt} (hopts : ∀ o ∈ opts, flags.Known o) {path text : String}
    (hpath : lastValue "-load-config" opts = some path) (hfile : files.read path = some text) :
    ∃ vars, resolve S files env pwd (opts.flatMap Opt.args) = some vars ∧
      ∀ p : Param, p.get vars = (lastValue p.flag opts).getD
        (if p.get (Settings.initial env pwd).vars = "" then parseFile S files path text p.key
          else p.get (Settings.initial env pwd).vars) := by
  have htoml : (opts.foldl flags.apply (.initial env pwd)).tomlConfig = path := by
    rw [tomlConfig_setBy.foldl hopts, hpath]
    rfl
  refine ⟨loadWith (parseFile S files path text)
    (opts.foldl flags.apply (.initial env pwd)).vars, ?_, ?_⟩
  · rw [resolve, readArgs, Flags.read_args flags_distinct hopts, Option.map_some, htoml, hfile]
  · intro p
    have hvar := p.setBy.foldl hopts (.initial env pwd)
    rw [p.get_loadWith, hvar]
    cases hvalue : lastValue p.flag opts with
    | none => simp
    | some value =>
        simp [Flags.lastValue_ne_empty hopts hvalue]

/-- What the file has for a key is read, unless its path is an option. -/
theorem Defines.parseFile_iff {files : ConfigFiles} {path text : String} {config : Param → String}
    (h : Defines S text config) (p : Param) : parseFile S files path text p.key = config p ↔
      isOption path = false ∨ files.asOptions p.key path = config p := by
  unfold parseFile
  cases isOption path with
  | false => simp [h.parse p]
  | true => simp

/-- **The config file's value is used where no flag is given, exactly if the variable starts
out empty** or happens to start out with that value, and `grep` is not misled by the path. -/
theorem resolve_iff {files : ConfigFiles} {env : String → String} {pwd : String}
    {opts : List Opt} (hopts : ∀ o ∈ opts, flags.Known o) {path text : String}
    (hpath : lastValue "-load-config" opts = some path) (hfile : files.read path = some text)
    {config : Param → String} (hconfig : Defines S text config) :
    (∃ vars, resolve S files env pwd (opts.flatMap Opt.args) = some vars ∧
        ∀ p : Param, p.get vars = wanted opts config p) ↔
      ∀ p : Param, (lastValue p.flag opts).isSome ∨
        p.get (Settings.initial env pwd).vars = config p ∨
        (p.get (Settings.initial env pwd).vars = "" ∧
          (isOption path = false ∨ files.asOptions p.key path = config p)) := by
  obtain ⟨vars, hresolve, hvars⟩ :
      ∃ vars, resolve S files env pwd (opts.flatMap Opt.args) = some vars ∧ _ :=
    resolve_eq hopts hpath hfile
  have hone : ∀ p : Param, p.get vars = wanted opts config p ↔
      (lastValue p.flag opts).isSome ∨ p.get (Settings.initial env pwd).vars = config p ∨
        (p.get (Settings.initial env pwd).vars = "" ∧
          (isOption path = false ∨ files.asOptions p.key path = config p)) := by
    intro p
    rw [hvars p, wanted, ← hconfig.parseFile_iff p]
    cases lastValue p.flag opts with
    | some value => simp
    | none =>
        by_cases hempty : p.get (Settings.initial env pwd).vars = ""
        · simp [hempty, Ne.symm (hconfig.nonempty p)]
        · simp [hempty]
  refine ⟨?_, ?_⟩
  · intro h p
    obtain ⟨vars', hresolve', hvars'⟩ := h
    rw [hresolve, Option.some.injEq] at hresolve'
    subst hresolve'
    exact (hone p).mp (hvars' p)
  · intro h
    exact ⟨vars, hresolve, fun p => (hone p).mpr (h p)⟩

/-! ### A VM with four CPUs -/

def toyConfig : Param → String
  | .vcpus => "4"
  | .bios => "OVMF.fd"
  | .kernel => "vmlinuz"
  | .initrd => "initrd.img"
  | .append => "console=ttyS0 quiet"
  | .policy => "0x30000"

/-- Whether its value needs quotes. -/
def Param.quotes : Param → Bool
  | .vcpus => false
  | .policy => false
  | _ => true

def toyLine (p : Param) : List Char :=
  p.key.toList ++ ([' '] ++ '=' :: ([' '] ++
    if p.quotes then quote :: ((toyConfig p).toList ++ quote :: []) else (toyConfig p).toList ++ []))

def toyText : String :=
  String.ofList ([Param.vcpus, .bios, .kernel, .initrd, .append, .policy].flatMap fun p =>
    toyLine p ++ ['\n'])

theorem toyText_lines : Text.lines toyText.toList
    = [.vcpus, .bios, .kernel, .initrd, .append, .policy].map toyLine := by
  rw [toyText, String.toList_ofList]
  decide +kernel

theorem toyText_defines : Defines .posix toyText toyConfig where
  noNul := by
    rw [toyText, String.toList_ofList]
    decide +kernel
  line p := by
    refine ⟨toyLine p, ?_, ?_⟩
    · rw [toyText_lines]
      cases p <;> simp
    · have hblank : Ws [' '] := by simp [Ws, isWs]
      by_cases hquotes : p.quotes = true
      · refine .quoted ?_ [] ⟨[], [' '], [' '], by simp [Ws], hblank, hblank, ?_⟩
        · cases p <;> decide
        · simp [toyLine, hquotes]
      · refine .bare ?_ [] (by simp) ⟨[], [' '], [' '], by simp [Ws], hblank, hblank, ?_⟩
        · have hall : ∀ p : Param, p.quotes = false →
              ((toyConfig p).toList.all fun c => !isQuote c && !asciiSpace c) = true := by
            intro p
            cases p <;> decide
          intro c hc
          have hplain := List.all_eq_true.mp (hall p (by simpa using hquotes)) c hc
          simpa [Spaces.posix] using hplain
        · simp [toyLine, hquotes]
  only p := by
    rw [toyText_lines]
    cases p <;> decide +kernel
  nonempty p := by cases p <;> decide

/-- A disk with one config file on it. -/
def ConfigFiles.toy : ConfigFiles where
  read path := if path = "vm.toml" then some toyText else none
  asOptions _ _ := ""

/-- The config file, and the options in front of it. -/
def loading (opts : List Opt) : List Opt := opts ++ [⟨"-load-config", some "vm.toml"⟩]

theorem loading_path {opts : List Opt} : lastValue "-load-config" (loading opts) = some "vm.toml" := by
  simp [loading, lastValue_snoc]

theorem toy_read : ConfigFiles.toy.read "vm.toml" = some toyText := rfl

/-- With the number of CPUs as a flag, the rest comes from the file. -/
theorem resolve_iff_smp :
    ∃ vars, resolve .posix .toy (fun _ => "") "/root"
        ((loading [⟨"-sev-snp", none⟩, ⟨"-smp", some "4"⟩]).flatMap Opt.args) = some vars ∧
      ∀ p : Param, p.get vars
        = wanted (loading [⟨"-sev-snp", none⟩, ⟨"-smp", some "4"⟩]) toyConfig p :=
  (resolve_iff (by decide) loading_path toy_read toyText_defines).mpr fun p => by
    cases p <;> decide

/-- Without it there is one CPU, and not the four of the config file. -/
theorem resolve_default_smp :
    ∃ opts path text config vars, (∀ o ∈ opts, flags.Known o) ∧
      lastValue "-load-config" opts = some path ∧ ConfigFiles.toy.read path = some text ∧
      Defines .posix text config ∧
      resolve .posix .toy (fun _ => "") "/root" (opts.flatMap Opt.args) = some vars ∧
      Param.vcpus.get vars = "1" ∧ wanted opts config .vcpus = "4" := by
  have hopts : ∀ o ∈ loading [⟨"-sev-snp", none⟩], flags.Known o := by decide
  obtain ⟨vars, hresolve, hvars⟩ : ∃ vars, resolve .posix .toy (fun _ => "") "/root" _ = some vars ∧
      _ := resolve_eq hopts loading_path toy_read
  exact ⟨_, "vm.toml", toyText, toyConfig, vars, hopts, loading_path, toy_read, toyText_defines,
    hresolve, hvars .vcpus, by decide⟩

end SnpGuard.Launch
