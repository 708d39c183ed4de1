/-
What the client measures of the VM that the Makefile launches.

`attest_luks_vm` and `attest_verity_vm` are given the config file that `launch.sh` was given.
The launcher greps for a line per key and the client parses TOML.  In a file that
`create-vm-config.sh` has written the two come to the same, so the client expects the launch
digest of the firmware, kernel, initial RAM disk and command line that QEMU is started with
(`measures_launched`).
-/
import SnpGuard.Workflow

namespace SnpGuard.Workflow

open CreateVmConfig (Key Template fill)
open Launch Toml

/-! ### The line of a key -/

/-- In the root table of a document, the keys stand bare, and each on a line of its own. -/
def OwnLines (doc : Document) : Prop :=
  ∀ k : Key, ∀ l ∈ doc.root, ∀ v, l.means = .assign [k.name] v →
    '\n' ∉ l.text ∧ ∃ body, Assigning k.name body l.text

section Document

variable {o : CreateVmConfig.Options} {template : List CreateVmConfig.Line} {doc : Document}

theorem bare_name (k : Key) : BareKey k.name := by
  cases k <;> decide

/-- Where a line is both that of a key and assigns to a key, they are the same. -/
theorem key_of_assigning {k k' : Key} {value body : List Char}
    (h : Assigning k.name body (k'.text value)) : k' = k := by
  obtain ⟨a, a', a'', ha, -, -, htext⟩ := h
  have hname : k'.name <+: k'.text value := ⟨_, rfl⟩
  have hhead : ∀ k : Key, ∀ rest, ∀ c ∈ (k.name ++ rest).head?, isWs c = false := by
    intro k rest
    cases k
    all_goals exact Text.forall_head (by decide)
  obtain ⟨rest, hrest⟩ := hname
  rw [← hrest] at htext
  have hsame := ws_append_inj (w := []) (by simp [Ws]) ha (hhead k' rest) (hhead k _) htext
  rcases List.prefix_or_prefix_of_prefix (List.prefix_append k'.name rest)
    (hsame ▸ List.prefix_append k.name _) with h | h
  · exact Key.eq_of_name_infix_name h.isInfix
  · exact (Key.eq_of_name_infix_name h.isInfix).symm

/-- The line of a value does not end in a carriage return. -/
theorem text_append_ne {k : Key} {value line : List Char} (hplain : CreateVmConfig.Plain value) :
    k.text value ≠ line ++ ['\r'] := by
  intro h
  have hmem : '\r' ∈ k.text value := by
    rw [h]
    simp
  have hname : '\r' ∉ k.name := by
    cases k <;> decide
  have hvalue : '\r' ∉ value := fun hc => absurd (hplain '\r' hc).1 (by decide)
  unfold Key.text at hmem
  split_ifs at hmem
  · simp [hname, hvalue] at hmem
  · simp [hname, hvalue] at hmem

/-- **The line that assigns to a key is the one that was written.** -/
theorem text_of_assign (ho : o.Valid) (ht : Template template)
    (hsurvives : ∀ k, CreateVmConfig.Survives o k) (hlines : Text.lines doc.text = fill o template)
    (hown : OwnLines doc) {k : Key} {l : Line} (hl : l ∈ doc.root) {v : Val}
    (hmeans : l.means = .assign [k.name] v) : l.text = k.text (k.value o) := by
  obtain ⟨hline, body, hassigning⟩ := hown k l hl v hmeans
  obtain ⟨cr, hcr, hmem⟩ := Document.mem_lines hline hassigning.ne_nil (mem_of_mem_root hl)
  rw [hlines, CreateVmConfig.fill_eq_map ho] at hmem
  obtain ⟨line, htemplate, hsettle⟩ := List.mem_map.mp hmem
  have hname : k.name <:+: l.text ++ cr := by
    obtain ⟨a, a', a'', -, -, -, htext⟩ := hassigning
    exact ⟨a, a' ++ '=' :: (a'' ++ body) ++ cr, by rw [htext]; simp⟩
  by_cases hsome : ∃ k' : Key, k'.name <:+: line
  · obtain ⟨k', hk'⟩ := hsome
    rw [CreateVmConfig.settle_own (hsurvives k') (ht.unique htemplate hk')] at hsettle
    have htext : k'.text (k'.value o) = l.text := by
      rcases hcr with rfl | rfl
      · rwa [List.append_nil] at hsettle
      · exact absurd hsettle (text_append_ne (ho.plain k'))
    rw [← htext] at hassigning ⊢
    rw [key_of_assigning hassigning]
  · have hnone : ∀ k : Key, ¬ k.name <:+: line := fun k hk => hsome ⟨k, hk⟩
    rw [CreateVmConfig.settle_other hnone] at hsettle
    rw [← hsettle] at hname
    exact absurd hname (hnone k)

/-- It assigns the value. -/
theorem assigning_text (k : Key) (value : CreateVmConfig.Line) :
    Assigning k.name (if k.quotes then '"' :: (value ++ ['"']) else value) (k.text value) := by
  have hblank : Ws [' '] := by simp [Ws, isWs]
  exact ⟨[], [' '], [' '], by simp [Ws], hblank, hblank, rfl⟩

/-- **What the client reads of a quoted value is the value.** -/
theorem string_of_fill (ho : o.Valid) (ht : Template template)
    (hsurvives : ∀ k, CreateVmConfig.Survives o k) (hlines : Text.lines doc.text = fill o template)
    (hown : OwnLines doc) {k : Key} (hk : k.quotes = true) {s : String}
    (h : doc.Assigns k.name (.string s.toList)) : s.toList = k.value o := by
  obtain ⟨l, hl, hmeans⟩ := h
  have htext := text_of_assign ho ht hsurvives hlines hown hl hmeans
  have hspelled := l.spelled
  rw [hmeans, htext] at hspelled
  have hassigning := assigning_text k (k.value o)
  rw [if_pos hk] at hassigning
  obtain ⟨t, trailer, hvalue, -, hsplit⟩ :=
    assign_inv hspelled (bare_name k) (Text.forall_head (by decide)) hassigning
  have hquoted : Quoted (k.value o) (t ++ trailer) := by
    rw [← hsplit]
    refine .of_unescaped fun c hc => isUnescaped_iff.mpr ?_
    obtain ⟨hlo, hdel, hquote, -, hescape⟩ := ho.plain k c hc
    exact ⟨by simp [isNonEol, hlo, hdel], hquote, hescape⟩
  exact Val.string.inj (string_of_quoted hvalue hquoted).1

/-- **So it is with a number.** -/
theorem number_of_fill (ho : o.Valid) (ht : Template template)
    (hsurvives : ∀ k, CreateVmConfig.Survives o k) (hlines : Text.lines doc.text = fill o template)
    (hown : OwnLines doc) {k : Key} (hk : k.quotes = false) {n : Nat}
    (h : doc.Assigns k.name (.integer n)) {written : Nat} (hnumeral : Numeral (k.value o) written) :
    cNumber (k.value o) = some n := by
  obtain ⟨l, hl, hmeans⟩ := h
  have htext := text_of_assign ho ht hsurvives hlines hown hl hmeans
  have hspelled := l.spelled
  rw [hmeans, htext] at hspelled
  have hassigning := assigning_text k (k.value o)
  rw [hk, if_neg Bool.false_ne_true] at hassigning
  have hhead : ∀ c ∈ (k.value o).head?, isWs c = false := by
    obtain ⟨c, more, hvalue, hc⟩ := hnumeral.head
    rw [hvalue]
    exact Text.forall_head (isWs_of_isNumeral hc)
  obtain ⟨t, trailer, hvalue, htrailer, hsplit⟩ := assign_inv hspelled (bare_name k) hhead hassigning
  have hspaced : Spaced written (t ++ trailer) := by
    rw [← hsplit]
    exact .of_numeral hnumeral
  have hint : (n : Int) = written := Val.integer.inj (integer_of_numeral hvalue htrailer hspaced)
  rw [cNumber_numeral hnumeral, Option.some.injEq]
  omega

end Document

/-! ### What is launched is measured -/

section Run

variable {m : Make} {r : Rule} {φ : Type} {w : Shells} {H : Host φ} {fs : φ} {S : Spaces}
  {text : String} {template : List CreateVmConfig.Line} {doc : Document} {d : VMDescription}

/-- The client reads the values of the Makefile. -/
theorem agrees_of_fill (hm : m.Plain r) (ht : Template template)
    (hlines : Text.lines doc.text = fill (m.options r) template) (hown : OwnLines doc)
    (hd : Describes doc d) {cpus policy : Nat} (hcpus : Numeral m.cpus.toList cpus)
    (hpolicy : Numeral m.policy.toList policy) :
    Agrees (m.vars r) d ∧ cNumber (m.vars r).smp.toList = some d.vcpuCount.toNat := by
  have hstring : ∀ k : Key, k.quotes = true → ∀ s : String,
      doc.Assigns k.name (.string s.toList) → s.toList = k.value (m.options r) := fun k hk s hs =>
    string_of_fill hm.valid ht hm.survives hlines hown hk hs
  have hnumber : ∀ k : Key, k.quotes = false → ∀ n written : Nat, doc.Assigns k.name (.integer n) →
      Numeral (k.value (m.options r)) written → cNumber (k.value (m.options r)) = some n :=
    fun k hk n written hn hwritten =>
      number_of_fill hm.valid ht hm.survives hlines hown hk hn hwritten
  have hovmf : d.ovmfFile = m.ovmfPath :=
    String.toList_injective (hstring .ovmfFile rfl _ hd.ovmfFile)
  have hkernel : d.kernelFile = m.kernelPath :=
    String.toList_injective (hstring .kernelFile rfl _ hd.kernelFile)
  have hinitrd : d.initrdFile = m.initrdPath :=
    String.toList_injective (hstring .initrdFile rfl _ hd.initrdFile)
  have hcmdline : d.kernelCmdline = m.cmdline r :=
    String.toList_injective (hstring .kernelCmdline rfl _ hd.kernelCmdline)
  refine ⟨⟨hovmf.symm, congrArg some hkernel.symm, congrArg some hinitrd.symm, ?_, ?_⟩, ?_⟩
  · show (if m.cmdline r ≠ "" then some (m.cmdline r) else none) = _
    rw [← hcmdline]
    rfl
  · exact hnumber .guestPolicy rfl _ _ hd.guestPolicy hpolicy
  · exact hnumber .vcpuCount rfl _ _ hd.vcpuCount hcpus

/-- What QEMU boots is among its arguments. -/
theorem boot_intended {p : Launch.Params} (hsev : p.sev = true) (hsnp : p.sevSnp = true)
    (hkernel : p.vars.kernelFile ≠ "") (hinitrd : p.vars.initrdFile ≠ "")
    (happend : p.vars.append ≠ "") :
    ["-bios", p.vars.uefiCode] <:+: intended p ∧
      ["-kernel", p.vars.kernelFile, "-append", p.vars.append, "-initrd", p.vars.initrdFile] <:+:
        intended p ∧
      ["-object", snpOptsBuilder p true] <:+: intended p := by
  have hhashes : (p.vars.kernelFile ≠ "" && p.vars.initrdFile ≠ "") = true := by
    simp [hkernel, hinitrd]
  unfold intended
  rw [hhashes]
  refine ⟨?_, ?_, ?_⟩
  · have hbios : [.words "-bios" [p.vars.uefiCode]] <:+: firmwareCalls p := by
      unfold firmwareCalls
      rw [if_pos hsnp]
      exact (List.prefix_append _ _).isInfix
    have hcalls : firmwareCalls p <:+: calls p true := by
      unfold calls
      iterate 7 refine List.IsInfix.trans ?_ (List.prefix_append _ _).isInfix
      exact (List.suffix_append _ _).isInfix
    exact (hbios.trans hcalls).flatMap Call.intended
  · have hboot : (kernelCalls p).flatMap Call.intended =
        ["-kernel", p.vars.kernelFile, "-append", p.vars.append, "-initrd", p.vars.initrdFile] := by
      unfold kernelCalls given
      rw [if_neg hkernel, if_neg happend, if_neg hinitrd]
      rfl
    have hcalls : kernelCalls p <:+: calls p true := ⟨_, _, rfl⟩
    rw [← hboot]
    exact hcalls.flatMap Call.intended
  · have hobject : [.object (snpOptsBuilder p true)] <:+: sevCalls p true := by
      unfold sevCalls
      rw [if_pos hsev, if_pos hsnp]
      exact (List.suffix_append [_, _, _] _).isInfix
    have hcalls : sevCalls p true <:+: calls p true := by
      unfold calls
      iterate 2 refine List.IsInfix.trans ?_ (List.prefix_append _ _).isInfix
      exact (List.suffix_append _ _).isInfix
    exact (hobject.trans hcalls).flatMap Call.intended

/-- **What QEMU is started with is what the client measures**, under the policy that it expects,
when both read the config file that is written. -/
theorem measures_launched (copy : String → String → Option (List CreateVmConfig.Line))
    (hm : m.Plain r) (hcopy : copy m.vmConfTemplate m.vmConfigFile = some template)
    (ht : Template template) (hfile : (H.configs fs).read m.vmConfigFile = some text)
    (hnul : nul ∉ text.toList) (hlines : Text.lines text.toList = fill (m.options r) template)
    (hhost : Serves m r w H fs) (hdoc : doc.text = text.toList) (hown : OwnLines doc)
    (hd : Describes doc d) {cpus policy : Nat} (hcpus : Numeral m.cpus.toList cpus)
    (hpolicy : Numeral m.policy.toList policy) :
    CreateVmConfig.run copy (m.configArgs r) =
        some (m.vmConfigFile, fill (m.options r) template) ∧
      ∃ p, launch w H S fs (m.launchArgs r) = .ok p ∧ Faithful w p ∧ Agrees p.vars d ∧
        cNumber p.vars.smp.toList = some d.vcpuCount.toNat ∧
        ["-bios", d.ovmfFile] <:+: intended p ∧
        ["-kernel", d.kernelFile, "-append", d.kernelCmdline, "-initrd", d.initrdFile] <:+:
          intended p ∧
        ["-object", snpOptsBuilder p true] <:+: intended p := by
  refine ⟨configArgs_run hcopy, ?_⟩
  have hlaunch := launch_launchArgs (w := w) hm hhost hfile (defines (S := S) hm ht hnul hlines)
  have hread : Text.lines doc.text = fill (m.options r) template := by rw [hdoc, hlines]
  obtain ⟨hagrees, hsmp⟩ := agrees_of_fill hm ht hread hown hd hcpus hpolicy
  have hne : ∀ v ∈ m.words r, v ≠ "" := fun v hv => (hm.words v hv).1
  have happend : (m.vars r).append ≠ "" := hm.valid.cmdline
  obtain ⟨hbios, hboot, hobject⟩ := boot_intended (p := Launch.params w H (ready hm hhost)) rfl rfl
    (hne m.kernelPath (by simp [Make.words])) (hne m.initrdPath (by simp [Make.words])) happend
  refine ⟨_, hlaunch, faithful_of_plain w (plain_params hm hhost), hagrees, hsmp, ?_, ?_, hobject⟩
  · have hovmf : (m.vars r).uefiCode = d.ovmfFile := hagrees.ovmfFile
    rw [← hovmf]
    exact hbios
  · have hkernel : (m.vars r).kernelFile = d.kernelFile := Option.some.inj hagrees.kernelFile
    have hinitrd : (m.vars r).initrdFile = d.initrdFile := Option.some.inj hagrees.initrdFile
    have hcmdline : (m.vars r).append = d.kernelCmdline := by
      have hsame := hagrees.append
      rw [if_pos happend] at hsame
      change some _ = (if d.kernelCmdline ≠ "" then some d.kernelCmdline else none) at hsame
      split_ifs at hsame
      exact Option.some.inj hsame
    rw [← hkernel, ← hinitrd, ← hcmdline]
    exact hboot

end Run

/-! ### A config file that is written -/

/-- The config file of `run_luks_workflow`, where the template has the same values. -/
def writtenDocument : Document :=
  plainDocument
    |>.set 2 (stringLine "ovmf_file" "/root/OVMF.fd" (bare_name .ovmfFile))
    |>.set 4 (stringLine "kernel_file" "/root/vmlinuz" (bare_name .kernelFile))
    |>.set 5 (stringLine "initrd_file" "/root/initrd.img" (bare_name .initrdFile))
    |>.set 6 (stringLine "kernel_cmdline" "console=ttyS0 root=/dev/sda boot=encrypted"
      (bare_name .kernelCmdline))

def writtenDescription : VMDescription :=
  { Launch.toyDescription with
    ovmfFile := "/root/OVMF.fd"
    kernelFile := "/root/vmlinuz"
    initrdFile := "/root/initrd.img"
    kernelCmdline := "console=ttyS0 root=/dev/sda boot=encrypted" }

theorem written_wellFormed : writtenDocument.WellFormed := by
  have hroot : writtenDocument.rootPaths = toyKeys.map fun k => [k.toList] := rfl
  have hheaders : writtenDocument.headers = [["min_commited_tcb".toList]] := rfl
  refine ⟨?_, ?_⟩
  · rw [hroot]
    decide +kernel
  · rw [hroot, hheaders]
    decide +kernel

theorem written_describes : Describes writtenDocument writtenDescription where
  wellFormed := written_wellFormed
  hostCpuFamily := ⟨_, List.mem_of_getElem? (i := 0) rfl, rfl⟩
  vcpuCount := ⟨_, List.mem_of_getElem? (i := 1) rfl, rfl⟩
  ovmfFile := ⟨_, List.mem_of_getElem? (i := 2) rfl, rfl⟩
  guestFeatures := ⟨_, List.mem_of_getElem? (i := 3) rfl, rfl⟩
  kernelFile := ⟨_, List.mem_of_getElem? (i := 4) rfl, rfl⟩
  initrdFile := ⟨_, List.mem_of_getElem? (i := 5) rfl, rfl⟩
  kernelCmdline := ⟨_, List.mem_of_getElem? (i := 6) rfl, rfl⟩
  platformInfo := ⟨_, List.mem_of_getElem? (i := 7) rfl, rfl⟩
  guestPolicy := ⟨_, List.mem_of_getElem? (i := 8) rfl, rfl⟩
  familyId := ⟨_, ⟨_, List.mem_of_getElem? (i := 9) rfl, rfl⟩, by decide +kernel⟩
  imageId := ⟨_, ⟨_, List.mem_of_getElem? (i := 10) rfl, rfl⟩, by decide +kernel⟩

theorem written_lines : ∀ l ∈ writtenDocument.root, PlainLine l ∧ '\n' ∉ l.text := by
  show ∀ l ∈ [_, _, _, _, _, _, _, _, _, _, _], PlainLine l ∧ '\n' ∉ l.text
  simp only [List.forall_mem_cons]
  refine ⟨⟨stringLine_plain _ _, ?_⟩, ⟨numberLine_plain _ _, ?_⟩, ⟨stringLine_plain _ _, ?_⟩,
    ⟨numberLine_plain _ _, ?_⟩, ⟨stringLine_plain _ _, ?_⟩, ⟨stringLine_plain _ _, ?_⟩,
    ⟨stringLine_plain _ _, ?_⟩, ⟨numberLine_plain _ _, ?_⟩, ⟨numberLine_plain _ _, ?_⟩,
    ⟨stringLine_plain _ _, ?_⟩, ⟨stringLine_plain _ _, ?_⟩, by simp⟩
  all_goals decide +kernel

theorem written_ownLines : OwnLines writtenDocument := by
  intro k l hl v hmeans
  obtain ⟨hplain, hline⟩ := written_lines l hl
  refine ⟨hline, ?_⟩
  rcases hplain with ⟨k', s, body, hassign, -, htext⟩ | ⟨k', n, body, hassign, -, htext⟩
  · rw [hmeans] at hassign
    obtain rfl : k.name = k' := (List.cons.inj (Statement.assign.inj hassign).1).1
    exact ⟨body, htext⟩
  · rw [hmeans] at hassign
    obtain rfl : k.name = k' := (List.cons.inj (Statement.assign.inj hassign).1).1
    exact ⟨body, htext⟩

def writtenTemplate : List CreateVmConfig.Line := Text.lines writtenDocument.text

theorem writtenTemplate_template : Template writtenTemplate where
  once k := by cases k <;> decide +kernel
  own k := by cases k <;> decide +kernel

/-- Nothing changes in this template. -/
theorem written_fill : Text.lines (String.ofList writtenDocument.text).toList =
    fill (Make.toy.options .luks) writtenTemplate := by
  rw [String.toList_ofList]
  decide +kernel

theorem measures_launched_written :
    CreateVmConfig.run (fun _ _ => some writtenTemplate) (Make.toy.configArgs .luks) =
        some ("vm.toml", fill (Make.toy.options .luks) writtenTemplate) ∧
      ∃ p, launch .toy (Host.toy (String.ofList writtenDocument.text)) .posix ()
          (Make.toy.launchArgs .luks) = .ok p ∧
        Faithful .toy p ∧ Agrees p.vars writtenDescription ∧
        cNumber p.vars.smp.toList = some writtenDescription.vcpuCount.toNat ∧
        ["-bios", "/root/OVMF.fd"] <:+: intended p ∧
        ["-kernel", "/root/vmlinuz", "-append", "console=ttyS0 root=/dev/sda boot=encrypted",
          "-initrd", "/root/initrd.img"] <:+: intended p ∧
        ["-object", snpOptsBuilder p true] <:+: intended p :=
  measures_launched (fun _ _ => some writtenTemplate) (toy_plain .luks) rfl
    writtenTemplate_template rfl (by rw [String.toList_ofList]; decide +kernel) written_fill
    (toy_serves .luks _) String.toList_ofList.symm written_ownLines written_describes one_numeral
    policy_numeral

end SnpGuard.Workflow
