/-
What a boot leads to.

A guest that switches to its root sees the filesystem that the last words of its kernel command
line ask for, and besides that only RAM and what is the kernel's (`switches_to`).  An encrypted
boot leaves no file with the disk key beside the filesystem that it opened, wherever it ends
(`no_key_beside_root`).
-/
import SnpGuard.Boot

namespace SnpGuard.InitSh

open Words (Expansion)

variable {x : Expansion} {α : Type} {J : Json} {C : Crates} {w : World α} {p : Params}

/-- The guest when it knows what to boot. -/
def State.ready : State α := { State.initial with kernelMounts := ["dev", "proc", "sys"] }

theorem steps_prologue {s : State α} :
    steps x J C w p (prologue ++ [.modprobe "virtio_scsi"]) .initial = some s ↔ .ready = s :=
  Option.some_inj

/-- What `boot_normal` leaves. -/
theorem steps_normal {s : State α} (h : steps x J C w p Mode.normal.commands .ready = some s) :
    ∃ path t, x.unquoted p.root = [path] ∧ w.fs (.device path) = some t ∧
      s = State.ready.mountRoot (.device path) false t := by
  simp only [Mode.commands, steps_cons, steps_nil] at h
  obtain ⟨s', hmount, rfl⟩ := h
  obtain ⟨path, hpath, hmap⟩ := Option.bind_eq_some_iff.mp hmount
  obtain ⟨t, hfs, rfl⟩ := Option.map_eq_some_iff.mp hmap
  exact ⟨path, t, single_eq_some.mp hpath, hfs, rfl⟩

/-- What `boot_encrypted` leaves: the passphrase is the one of `bootEncrypted`, and its file is
gone. -/
theorem steps_encrypted {s : State α}
    (h : steps x J C w p Mode.encrypted.commands .ready = some s) :
    ∃ passphrase t, bootEncrypted w.dash w.server = some passphrase ∧
      w.opens (.crypt p.root passphrase) = true ∧ w.fs (.crypt p.root passphrase) = some t ∧
      s.root = some t ∧ s.mounts = [⟨[], .disk (.crypt p.root passphrase), false⟩] ∧
      s.keyFile = none ∧ s.kernelMounts = ["dev", "proc", "sys"] := by
  simp only [Mode.commands, steps_cons, steps_nil] at h
  obtain ⟨_, hsev, _, hnet, _, hdhcp, s₁, hserver, s₂, hread, s₃, hshred, s₄, hname, s₅, hopen, s₆,
    hmount, rfl⟩ := h
  cases hsev
  cases hnet
  cases hdhcp
  simp only [step] at hserver
  split at hserver
  · next hok =>
      cases hserver
      obtain ⟨content, hcontent, rfl⟩ := Option.map_eq_some_iff.mp hread
      obtain ⟨_, -, rfl⟩ := Option.map_eq_some_iff.mp hshred
      obtain ⟨_, -, rfl⟩ := Option.map_eq_some_iff.mp hname
      simp only [step] at hopen
      split_ifs at hopen with hopens
      cases hopen
      simp only [step, List.lookup_cons, beq_self_eq_true, Option.bind_eq_bind,
        Option.bind_eq_some_iff, Option.pure_def, Option.some.injEq] at hmount
      obtain ⟨source, rfl, t, hfs, rfl⟩ := hmount
      refine ⟨_, t, ?_, hopens, hfs, rfl, rfl, rfl, rfl⟩
      have hfile : w.server.diskKeyFile = some content := hcontent
      unfold bootEncrypted
      rw [hok]
      dsimp only
      rw [hfile]
      rfl
  · simp at hserver

/-! ### The directories in RAM -/

/-- The directories that the guest can write to, and those of them that are filled. -/
def ramDirs : List String := ["home", "etc", "var", "tmp"]

def copiedDirs : List String := ["home", "etc", "var"]

/-- Where the verity image has the contents of a directory. -/
def readOnlyName (dir : String) : String := dir ++ "_ro"

/-- `boot_verity`, from `mount -t tmpfs` to `rsync`. -/
def ramDisks (t : FileTree α) : Option (FileTree α) := do
  let mounted ← ramDirs.foldlM (fun t dir => t.mount [dir] .empty) t
  copiedDirs.foldlM (fun t dir => t.copy [readOnlyName dir] [dir]) mounted

/-- `boot_verity`, in front of `get_report`. -/
def verityFront : List Command :=
  [.modprobe "sev-guest", .veritysetup, .mountVerity] ++ ramDirs.map .mountRam ++
    copiedDirs.map (fun dir => .rsync (readOnlyName dir) dir) ++ [.sshKeygen, .fingerprint]

theorem verity_commands : Mode.verity.commands = verityFront ++ [.getReport] := by
  decide

theorem steps_mountRam {dirs : List String} {s t : State α} {r : FileTree α}
    (hroot : s.root = some r) (h : steps x J C w p (dirs.map .mountRam) s = some t) :
    ∃ r', dirs.foldlM (fun t dir => t.mount [dir] .empty) r = some r' ∧
      t = { s with
        root := some r'
        mounts := dirs.reverse.map (fun dir => ⟨[dir], .ram, false⟩) ++ s.mounts } := by
  induction dirs generalizing s r with
  | nil =>
      rw [List.map_nil, steps_nil] at h
      subst h
      exact ⟨r, rfl, by simp [← hroot]⟩
  | cons dir dirs ih =>
      rw [List.map_cons, steps_cons] at h
      obtain ⟨s', hstep, hrest⟩ := h
      simp only [step, State.mountIn, hroot, Option.bind_eq_bind, Option.bind_some,
        Option.bind_eq_some_iff, Option.pure_def, Option.some.injEq] at hstep
      obtain ⟨r₁, hmount, rfl⟩ := hstep
      obtain ⟨r', hr', rfl⟩ := ih rfl hrest
      refine ⟨r', ?_, by simp⟩
      rw [List.foldlM_cons, hmount]
      exact hr'

theorem steps_rsync {dirs : List String} {s t : State α} {r : FileTree α}
    (hroot : s.root = some r)
    (h : steps x J C w p (dirs.map fun dir => .rsync (readOnlyName dir) dir) s = some t) :
    ∃ r', dirs.foldlM (fun t dir => t.copy [readOnlyName dir] [dir]) r = some r' ∧
      t = { s with root := some r' } := by
  induction dirs generalizing s r with
  | nil =>
      rw [List.map_nil, steps_nil] at h
      subst h
      exact ⟨r, rfl, by simp [← hroot]⟩
  | cons dir dirs ih =>
      rw [List.map_cons, steps_cons] at h
      obtain ⟨s', hstep, hrest⟩ := h
      simp only [step, hroot, Option.bind_eq_bind, Option.bind_some, Option.bind_eq_some_iff,
        Option.pure_def, Option.some.injEq] at hstep
      obtain ⟨r₁, hcopy, rfl⟩ := hstep
      obtain ⟨r', hr', rfl⟩ := ih rfl hrest
      refine ⟨r', ?_, rfl⟩
      rw [List.foldlM_cons, hcopy]
      exact hr'

/-- The mapping that is opened, and the tree that is found on it. -/
structure VerityRoot (x : Expansion) (w : World α) (p : Params) (source : Source)
    (t : FileTree α) : Prop where
  args : ∃ data hash rootHash, verityArgs x p = [data, "root", hash, rootHash] ∧
    source = .verity data hash rootHash
  opens : w.opens source = true
  fs : w.fs source = some t

theorem VerityRoot.unique {source source' : Source} {t t' : FileTree α}
    (h : VerityRoot x w p source t) (h' : VerityRoot x w p source' t') : t = t' := by
  obtain ⟨data, hash, rootHash, hargs, rfl⟩ := h.args
  obtain ⟨_, _, _, hargs', rfl⟩ := h'.args
  rw [hargs] at hargs'
  cases hargs'
  exact Option.some.inj (h.fs.symm.trans h'.fs)

/-- What `boot_verity` leaves when it has mounted the filesystem. -/
theorem steps_mountVerity {s : State α}
    (h : steps x J C w p [.modprobe "sev-guest", .veritysetup, .mountVerity] .ready = some s) :
    ∃ source t, VerityRoot x w p source t ∧ s.root = some t ∧
      s.mounts = [⟨[], .disk source, true⟩] ∧ s.kernelMounts = ["dev", "proc", "sys"] ∧
      s.keyFile = none := by
  simp only [steps_cons, steps_nil] at h
  obtain ⟨_, hsev, s₁, hopen, s₂, hmount, rfl⟩ := h
  cases hsev
  obtain ⟨⟨name, source⟩, hmapping, hopens⟩ := Option.bind_eq_some_iff.mp hopen
  split_ifs at hopens with hopens'
  cases hopens
  obtain ⟨data, hash, rootHash, hargs, hsource⟩ := mapping_eq_some.mp hmapping
  simp only [step, State.ready, State.initial, List.lookup_cons, List.lookup_nil,
    Option.bind_eq_bind, Option.bind_eq_some_iff, Option.pure_def, Option.some.injEq] at hmount
  obtain ⟨source', hlookup, t, hfs, rfl⟩ := hmount
  split at hlookup
  · next hname =>
      cases hlookup
      refine ⟨source, t, ⟨⟨data, hash, rootHash, ?_, hsource⟩, hopens', hfs⟩, rfl, rfl, rfl, rfl⟩
      rw [hargs, ← beq_iff_eq.mp hname]
  · simp at hlookup

/-- What `boot_verity` leaves in front of `get_report`. -/
theorem steps_verity {s : State α}
    (h : steps x J C w p verityFront .ready = some s) :
    ∃ source t r r', VerityRoot x w p source t ∧ ramDisks t = some r ∧ sshKeygen w r = some r' ∧
      s.root = some r' ∧
      s.mounts = ramDirs.reverse.map (fun dir => ⟨[dir], .ram, false⟩) ++
        [⟨[], .disk source, true⟩] ∧
      s.kernelMounts = ["dev", "proc", "sys"] ∧ s.keyFile = none ∧
      s.fingerprint = if w.listsKey then AttestVerity.fingerprint [w.hostKey] else "" := by
  rw [verityFront, steps_append] at h
  obtain ⟨s₃, h, hkey⟩ := h
  rw [steps_append] at h
  obtain ⟨s₂, h, hrsync⟩ := h
  rw [steps_append] at h
  obtain ⟨s₁, h, hram⟩ := h
  obtain ⟨source, t, hroot, hs₁, hmounts, hkernel, hfile⟩ := steps_mountVerity h
  obtain ⟨r₁, hr₁, rfl⟩ := steps_mountRam hs₁ hram
  obtain ⟨r, hr, rfl⟩ := steps_rsync rfl hrsync
  simp only [steps_cons, steps_nil, step, Option.bind_eq_bind, Option.bind_some,
    Option.bind_eq_some_iff, Option.pure_def, Option.some.injEq] at hkey
  obtain ⟨_, ⟨r', hr', rfl⟩, _, rfl, rfl⟩ := hkey
  refine ⟨source, t, r, r', hroot, ?_, hr', rfl, ?_, hkernel, hfile, rfl⟩
  · unfold ramDisks
    rw [Option.bind_eq_bind, Option.bind_eq_some_iff]
    exact ⟨r₁, hr₁, hr⟩
  · rw [← hmounts]

/-- The last commands. -/
theorem steps_end {s t : State α}
    (h : steps x J C w p [.moveMount "proc", .moveMount "sys", .switchRoot] s = some t)
    (hkernel : s.kernelMounts = ["dev", "proc", "sys"]) :
    ∃ r r' r'', s.root = some r ∧ r.mount ["proc"] (w.kernelFs "proc") = some r' ∧
      r'.mount ["sys"] (w.kernelFs "sys") = some r'' ∧
      t = { s with
        root := some r''
        mounts := ⟨["sys"], .kernel, false⟩ :: ⟨["proc"], .kernel, false⟩ :: s.mounts } := by
  simp only [steps_cons, steps_nil] at h
  obtain ⟨s₁, hproc, s₂, hsys, s₃, hswitch, rfl⟩ := h
  simp only [step, hkernel, List.mem_cons, true_or, or_true, if_true, State.mountIn,
    Option.bind_eq_bind, Option.bind_eq_some_iff, Option.pure_def, Option.some.injEq] at hproc
  obtain ⟨r, hr, r', hr', rfl⟩ := hproc
  simp only [step, List.mem_cons, true_or, or_true, if_true, State.mountIn, Option.bind_eq_bind,
    Option.bind_some, Option.bind_eq_some_iff, Option.pure_def, Option.some.injEq] at hsys
  obtain ⟨r'', hr'', rfl⟩ := hsys
  cases hswitch
  refine ⟨r, r', r'', hr, hr', hr'', ?_⟩
  simp [hkernel]

/-! ### What is booted -/

/-- The filesystem that a mode boots. -/
inductive Boots (x : Expansion) (w : World α) (p : Params) : Mode → Source → Prop
  | normal {path : String} (hroot : x.unquoted p.root = [path]) : Boots x w p .normal (.device path)
  /-- The passphrase is the one that the server was given. -/
  | encrypted {passphrase : Bytes} (hserver : bootEncrypted w.dash w.server = some passphrase)
    (hopens : w.opens (.crypt p.root passphrase) = true) :
    Boots x w p .encrypted (.crypt p.root passphrase)
  | verity {data hash rootHash : String} (hargs : verityArgs x p = [data, "root", hash, rootHash])
    (hopens : w.opens (.verity data hash rootHash) = true) :
    Boots x w p .verity (.verity data hash rootHash)

theorem VerityRoot.boots {source : Source} {t : FileTree α} (h : VerityRoot x w p source t) :
    Boots x w p .verity source := by
  obtain ⟨⟨data, hash, rootHash, hargs, rfl⟩, hopens, -⟩ := h
  exact .verity hargs hopens

/-- A run that switches ran the commands of its mode and the last ones. -/
theorem bootGuest_eq_ok {s : State α} {u : Unit}
    (h : bootGuest x J C w p .initial = (.ok u, s)) :
    ∃ m s', mode x p.boot = some m ∧ steps x J C w p m.commands .ready = some s' ∧
      steps x J C w p [.moveMount "proc", .moveMount "sys", .switchRoot] s' = some s ∧
      ∀ c ∈ script x p, c = .mountPts ∨ w.outcome c = .done := by
  obtain ⟨hsteps, hdone⟩ := seq_eq_ok.mp h
  have hsplit : script x p =
      prologue ++ [.modprobe "virtio_scsi"] ++ dispatch (mode x p.boot) := by
    unfold script
    rw [List.append_assoc, List.singleton_append]
  rw [hsplit, steps_append] at hsteps
  obtain ⟨s₁, hready, hrest⟩ := hsteps
  rw [steps_prologue] at hready
  subst hready
  cases hmode : mode x p.boot with
  | none =>
      rw [hmode, dispatch, steps_cons] at hrest
      obtain ⟨_, hinvalid, -⟩ := hrest
      cases hinvalid
  | some m =>
      rw [hmode, dispatch] at hrest
      obtain ⟨s', hcommands, hend⟩ := steps_append.mp hrest
      exact ⟨m, s', rfl, hcommands, hend, hdone⟩

/-- The report is written over the fingerprint of the host key, which has to be there. -/
structure Reported (J : Json) (C : Crates) (w : World α) (file : Bytes) : Prop where
  listsKey : w.listsKey = true
  made : GetReport.main J C w.getReport
    ⟨"/root/etc/report.json", String.ofList w.hostKey.fingerprint⟩ none = (.ok (), some file)

/-- Unquoted, `FINGERPRINT` is one word. -/
theorem unquoted_fingerprint (k : AttestVerity.HostKey) :
    x.unquoted (AttestVerity.fingerprint [k]) = [String.ofList k.fingerprint] := by
  have hplain : ∀ c ∈ k.fingerprint, Words.isBlank c = false ∧ Words.isPattern c = false ∧
      c ≠ ':' ∧ c ≠ AttestVerity.nul :=
    fun c hc => AttestVerity.isBase64_plain (k.isBase64_of_mem hc)
  have htext : AttestVerity.fingerprint [k] = String.ofList k.fingerprint := by
    unfold AttestVerity.fingerprint
    rw [List.map_singleton, List.flatMap_singleton, k.cut_line, Shell.substitution_line]
    · exact fun h => (hplain _ h).2.2.2 rfl
    · exact fun h => absurd (hplain _ h).1 (by decide)
    · decide
  rw [htext]
  refine x.unquoted_of_plain ⟨?_, fun c hc => ?_⟩
  · rw [String.toList_ofList]
    exact k.base64.1
  · rw [String.toList_ofList] at hc
    exact ⟨(hplain c hc).1, (hplain c hc).2.1⟩

theorem getReportArgs_eq {s : State α}
    (h : s.fingerprint = if w.listsKey then AttestVerity.fingerprint [w.hostKey] else "") :
    getReportArgs x s = if w.listsKey then
      some ⟨"/root/etc/report.json", String.ofList w.hostKey.fingerprint⟩ else none := by
  unfold getReportArgs
  rw [h]
  cases w.listsKey with
  | true =>
      simp only [if_true, unquoted_fingerprint]
      show (if AttestVerity.isOption (String.ofList w.hostKey.fingerprint) = true then none
        else some _) = _
      rw [w.hostKey.noOption]
      rfl
  | false =>
      -- Nothing is left of the fingerprint, and `--out` takes its place.
      have hnothing : x.unquoted "" = [] := rfl
      simp [hnothing, parseGetReport]

theorem reported_of_report {s : State α} {file : Bytes}
    (hfingerprint : s.fingerprint =
      if w.listsKey then AttestVerity.fingerprint [w.hostKey] else "")
    (h : report x J C w s = some file) : Reported J C w file := by
  unfold report at h
  rw [getReportArgs_eq hfingerprint] at h
  cases hlists : w.listsKey with
  | false => simp [hlists] at h
  | true =>
      simp only [hlists, if_true, Option.bind_eq_bind, Option.bind_some] at h
      refine ⟨hlists, ?_⟩
      split at h
      · next file' hmain => rw [hmain, h]
      · simp at h

/-- What `boot_verity` and the last commands make of a tree. -/
def verityTree (w : World α) (file : Bytes) (t : FileTree α) : Option (FileTree α) := do
  let filled ← ramDisks t
  let keyed ← sshKeygen w filled
  let reported ← keyed.write ["etc"] "report.json" (w.file file)
  let proc ← reported.mount ["proc"] (w.kernelFs "proc")
  proc.mount ["sys"] (w.kernelFs "sys")

/-- **What is seen behind a verity boot.** -/
theorem verity_of_ok {s : State α} {u : Unit} (h : bootGuest x J C w p .initial = (.ok u, s))
    (hmode : mode x p.boot = some .verity) :
    ∃ source t file, VerityRoot x w p source t ∧ Reported J C w file ∧
      s.root = verityTree w file t ∧ s.root.isSome ∧ s.keyFile = none ∧
      s.mounts = ⟨["sys"], .kernel, false⟩ :: ⟨["proc"], .kernel, false⟩ ::
        (ramDirs.reverse.map (fun dir => ⟨[dir], .ram, false⟩) ++ [⟨[], .disk source, true⟩]) := by
  obtain ⟨m, s', hm, hcommands, hend, -⟩ := bootGuest_eq_ok h
  rw [hmode, Option.some.injEq] at hm
  subst hm
  rw [verity_commands, steps_append] at hcommands
  obtain ⟨s₁, hfront, hget⟩ := hcommands
  obtain ⟨source, t, r, r', hroot, hram, hkeygen, hs₁, hmounts, hkernel, hfile, hfingerprint⟩ :=
    steps_verity hfront
  simp only [steps_cons, steps_nil, step, hs₁, Option.bind_eq_bind, Option.bind_some,
    Option.bind_eq_some_iff, Option.pure_def, Option.some.injEq] at hget
  obtain ⟨_, ⟨file, hreport, r₂, hwrite, rfl⟩, rfl⟩ := hget
  obtain ⟨_, r₃, r₄, hr₂, hproc, hsys, rfl⟩ := steps_end hend hkernel
  cases hr₂
  have htree : verityTree w file t = some r₄ := by
    simp only [verityTree, Option.bind_eq_bind, Option.bind_eq_some_iff]
    exact ⟨r, hram, r', hkeygen, r₂, hwrite, r₃, hproc, hsys⟩
  refine ⟨source, t, file, hroot, reported_of_report hfingerprint hreport, htree.symm, rfl, hfile,
    ?_⟩
  rw [← hmounts]

/-- **What `init.sh` switches to.**  The last words of the kernel command line say how the
guest is booted and from what, and nothing else of the host's is mounted.  A disk key that was
received is no longer in its file. -/
theorem switches_to {env : String → String} {cmdline : String} {s : State α}
    (h : bootGuest x J C w (readCmdline x env cmdline) .initial = (.ok (), s)) :
    ∃ m source others, mode x (Params.asked env (cmdlineWords x cmdline)).boot = some m ∧
      Boots x w (.asked env (cmdlineWords x cmdline)) m source ∧ (w.fs source).isSome ∧
      s.mounts = others ++ [⟨[], .disk source, m == .verity⟩] ∧
      (∀ e ∈ others, e.backing = .ram ∨ e.backing = .kernel) ∧ s.keyFile = none := by
  rw [readCmdline_eq] at h
  generalize Params.asked env (cmdlineWords x cmdline) = p at *
  obtain ⟨m, s', hmode, hcommands, hend, -⟩ := bootGuest_eq_ok h
  have hkernels : ∀ e ∈ [Mount.mk ["sys"] .kernel false, ⟨["proc"], .kernel, false⟩],
      e.backing = .ram ∨ e.backing = .kernel := by simp
  cases m with
  | normal =>
      obtain ⟨path, t, hpath, hfs, rfl⟩ := steps_normal hcommands
      obtain ⟨r, r', r'', -, -, -, rfl⟩ := steps_end hend rfl
      exact ⟨.normal, .device path, _, hmode, .normal hpath, by rw [hfs]; rfl, rfl, hkernels, rfl⟩
  | encrypted =>
      obtain ⟨passphrase, t, hserver, hopens, hfs, -, hmounts, hfile, hkernel⟩ :=
        steps_encrypted hcommands
      obtain ⟨r, r', r'', -, -, -, rfl⟩ := steps_end hend hkernel
      refine ⟨.encrypted, _, [⟨["sys"], .kernel, false⟩, ⟨["proc"], .kernel, false⟩], hmode,
        .encrypted hserver hopens, by rw [hfs]; rfl, ?_, hkernels, hfile⟩
      rw [hmounts]
      rfl
  | verity =>
      obtain ⟨source, t, file, hroot, -, -, -, hfile, hmounts⟩ := verity_of_ok h hmode
      refine ⟨.verity, source, [⟨["sys"], .kernel, false⟩, ⟨["proc"], .kernel, false⟩] ++
        ramDirs.reverse.map (fun dir => ⟨[dir], .ram, false⟩), hmode, hroot.boots,
        by rw [hroot.fs]; rfl, by rw [hmounts]; rfl, ?_, hfile⟩
      simp [ramDirs]

/-- A guest in which everything succeeds. -/
def World.toy (fs : Source → Option (FileTree Bytes)) : World Bytes where
  outcome _ := .done
  dash := ⟨true⟩
  opens _ := true
  fs := fs
  kernelFs _ := .empty
  server := ⟨.ok (), some [107, 10]⟩
  hostKey := ⟨256, List.replicate 43 'A', by decide, []⟩
  keyFiles := ([10], [11])
  listsKey := true
  getReport := .toy
  file := id

def toyCmdline (boot : String) : String :=
  "console=ttyS0 root=/dev/sda boot=" ++ boot ++ " verity_disk=/dev/sdb verity_roothash=ab"

/-- A disk that opens with the passphrase `k`. -/
def toyFs (source : Source) : Option (FileTree Bytes) :=
  if source = .crypt "/dev/sda" [107] then
    some (.ofEntries [([], .dir), (["proc"], .dir), (["sys"], .dir)] (by decide) (by decide))
  else none

theorem switches_to_encrypted : ∃ s : State Bytes, ∃ m source others,
    mode .noFiles "encrypted" = some m ∧
    Boots .noFiles (.toy toyFs) ⟨"/dev/sda", "encrypted", "/dev/sdb", "ab"⟩ m source ∧
    (toyFs source).isSome ∧ s.mounts = others ++ [⟨[], .disk source, m == .verity⟩] ∧
    (∀ e ∈ others, e.backing = .ram ∨ e.backing = .kernel) ∧ s.keyFile = none := by
  have hasked : Params.asked (fun _ => "") (cmdlineWords .noFiles (toyCmdline "encrypted")) =
      ⟨"/dev/sda", "encrypted", "/dev/sdb", "ab"⟩ := by decide +kernel
  have hok : (bootGuest .noFiles Json.toy Crates.toyBase64 (.toy toyFs)
      (readCmdline .noFiles (fun _ => "") (toyCmdline "encrypted")) .initial).1 = .ok () := by
    decide +kernel
  obtain ⟨s, hrun⟩ := Effect.exists_of_fst hok
  refine ⟨s, ?_⟩
  have h := switches_to hrun
  rwa [hasked] at h

/-! ### The disk key in its file -/

/-- A command that fails leaves the state as it was, or as it makes it. -/
theorem leaves_exec {P : State α → Prop} {c : Command} {s : State α} (hs : P s)
    (hstep : ∀ t, step x J C w p c s = some t → P t) : (exec x J C w p c).Leaves s P := by
  unfold Effect.Leaves exec
  cases ht : step x J C w p c s with
  | none => exact hs
  | some t =>
      dsimp only
      split
      · exact hstep t ht
      · exact hstep t ht
      · exact hs

theorem mountIn_keyFile {s t : State α} {dir : String} {b : Backing} {fs : FileTree α}
    (h : s.mountIn dir b fs = some t) : t.keyFile = s.keyFile := by
  simp only [State.mountIn, Option.bind_eq_bind, Option.bind_eq_some_iff, Option.pure_def,
    Option.some.injEq] at h
  obtain ⟨_, -, _, -, rfl⟩ := h
  rfl

/-- Only the server writes the file. -/
theorem step_keyFile {c : Command} (hc : c ≠ .server) {s t : State α} (hs : s.keyFile = none)
    (h : step x J C w p c s = some t) : t.keyFile = none := by
  cases c with
  | server => exact absurd rfl hc
  | ensureDir | makeLock | makePts | mountPts | modprobe | dhclient =>
      cases h
      exact hs
  | mountKernel | fingerprint =>
      cases h
      exact hs
  | readKey | shredKey | nameMapping | switchRoot =>
      obtain ⟨_, -, rfl⟩ := Option.map_eq_some_iff.mp h
      first | rfl | exact hs
  | luksOpen =>
      simp only [step] at h
      split_ifs at h
      cases h
      exact hs
  | veritysetup =>
      obtain ⟨entry, -, h⟩ := Option.bind_eq_some_iff.mp h
      split_ifs at h
      cases h
      exact hs
  | mountDevice =>
      obtain ⟨_, -, h⟩ := Option.bind_eq_some_iff.mp h
      obtain ⟨_, -, rfl⟩ := Option.map_eq_some_iff.mp h
      exact hs
  | mountRam => exact (mountIn_keyFile h).trans hs
  | moveMount =>
      simp only [step] at h
      split_ifs at h
      exact (mountIn_keyFile h).trans hs
  | mountCrypt | mountVerity | rsync | sshKeygen | getReport =>
      simp only [step, Option.bind_eq_bind, Option.bind_eq_some_iff, Option.pure_def,
        Option.some.injEq] at h
      obtain ⟨_, -, h⟩ := h
      obtain ⟨_, -, h⟩ := h
      first
        | cases h
          exact hs
        | obtain ⟨_, -, rfl⟩ := h
          exact hs
  | invalidBoot => cases h

/-- An encrypted boot up to the disk key in `PW`. -/
def untilKeyRead : List Command :=
  prologue ++ [.modprobe "virtio_scsi", .modprobe "sev-guest", .modprobe "virtio_net", .dhclient,
    .server, .readKey]

def mountsNothing : Command → Bool
  | .ensureDir _ | .makeLock | .mountKernel _ | .makePts | .mountPts | .modprobe _ | .dhclient
  | .server | .readKey => true
  | _ => false

theorem step_root {c : Command} (hc : mountsNothing c = true) {s t : State α} (hs : s.root = none)
    (h : step x J C w p c s = some t) : t.root = none := by
  cases c with
  | ensureDir | makeLock | makePts | mountPts | modprobe | dhclient | mountKernel =>
      cases h
      exact hs
  | server =>
      simp only [step] at h
      split at h
      · cases h
        exact hs
      · simp at h
  | readKey =>
      obtain ⟨_, -, rfl⟩ := Option.map_eq_some_iff.mp h
      exact hs
  | _ => cases hc

/-- Commands without the server leave no file. -/
theorem leaves_noKey {cs : List Command} (hcs : .server ∉ cs) {s : State α}
    (hs : s.keyFile = none) :
    (Effect.seq (exec x J C w p) cs).Leaves s fun t => t.keyFile = none := by
  refine Effect.leaves_seq (fun c hc s hs => ?_) hs
  exact leaves_exec hs fun t ht => step_keyFile (fun heq => hcs (heq ▸ hc)) hs ht

theorem server_mem_script : .server ∈ script x p → mode x p.boot = some .encrypted := by
  intro hmem
  unfold script at hmem
  cases hmode : mode x p.boot with
  | none => simp [hmode, prologue, dispatch] at hmem
  | some m =>
      cases m with
      | encrypted => rfl
      | normal => simp [hmode, prologue, dispatch, Mode.commands] at hmem
      | verity => simp [hmode, prologue, dispatch, Mode.commands] at hmem

/-- **The disk key is not left beside what it opens.**  Wherever the script ends, the file that
the server wrote is gone if a filesystem has been mounted. -/
theorem no_key_beside_root (env : String → String) (cmdline : String) :
    (bootGuest x J C w (readCmdline x env cmdline)).Leaves .initial fun s =>
      s.root.isSome → s.keyFile = none := by
  generalize readCmdline x env cmdline = p
  by_cases hserver : .server ∈ script x p
  · have hscript : script x p = untilKeyRead ++ .shredKey :: [.nameMapping, .luksOpen, .mountCrypt,
        .moveMount "proc", .moveMount "sys", .switchRoot] := by
      unfold script
      rw [server_mem_script hserver]
      rfl
    unfold bootGuest
    rw [hscript, Effect.seq_append]
    have hfront : (Effect.seq (exec x J C w p) untilKeyRead).Leaves .initial
        fun s => s.root = none := by
      refine Effect.leaves_seq (fun c hc s hs => ?_) rfl
      refine leaves_exec hs fun t ht => step_root ?_ hs ht
      have hall : untilKeyRead.all mountsNothing = true := by decide
      exact List.all_eq_true.mp hall c hc
    refine Effect.leaves_bind hfront (fun s hs hroot => by simp [hs] at hroot) fun _ s hs => ?_
    -- Behind `shred` there is no file, and if it fails, there is no filesystem yet.
    obtain ⟨e, t, hshred, hbind⟩ | ⟨_, t, hshred, hbind⟩ := Effect.bind_cases
      (exec x J C w p .shredKey) (fun _ => Effect.seq (exec x J C w p) _) s
    · have hleaves : (exec x J C w p .shredKey).Leaves s fun t => t.root = none := by
        refine leaves_exec hs fun t ht => ?_
        obtain ⟨_, -, rfl⟩ := Option.map_eq_some_iff.mp ht
        exact hs
      unfold Effect.Leaves at hleaves ⊢
      rw [hshred] at hleaves
      rw [Effect.seq, hbind]
      intro hroot
      have hnone : t.root = none := hleaves
      simp [hnone] at hroot
    · obtain ⟨hstep, -⟩ := exec_eq_ok.mp hshred
      obtain ⟨_, -, ht⟩ := Option.map_eq_some_iff.mp hstep
      have hkey : t.keyFile = none := by rw [← ht]
      unfold Effect.Leaves
      rw [Effect.seq, hbind]
      exact fun _ => leaves_noKey (by decide) hkey
  · have hleaves : (bootGuest x J C w p).Leaves .initial fun s => s.keyFile = none :=
      leaves_noKey hserver rfl
    exact fun _ => hleaves

end SnpGuard.InitSh
