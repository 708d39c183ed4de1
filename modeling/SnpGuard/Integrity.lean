/-
Which guest a report vouches for.

A host launches what it likes, and as many VMs as it likes.  In those with the initramfs of the
build `init.sh` takes one command after the other, in any order among them; the others run code
of the host's.  All of them can have reports signed, each with its own launch digest.  So when
`verify_report` accepts a report over the fingerprint of a host key, it was issued in a VM that
was launched as the config says, and `init.sh` had mounted the image with the root hash on that
command line there, and generated a key in it (`attested`).
-/
import Mathlib.Data.Set.Insert
import SnpGuard.Lib.Lts
import SnpGuard.VerityImage

namespace SnpGuard.Integrity

open InitSh
open Words (Expansion)

/-- What can be launched. -/
structure Platform (α : Type) where
  Launch : Type
  /-- The launch digest. -/
  measurement : Launch → Block 48
  /-- OVMF, kernel and initramfs are those of the build. -/
  Built : Launch → Prop
  /-- `/proc/cmdline`, and the environment that `init.sh` is started in. -/
  cmdline : Launch → String
  env : Launch → String → String
  /-- The image that has a root hash. -/
  image : String → Option (FileTree α)

variable {α ν : Type} {Q : Platform α}

/-- A VM that runs `init.sh`, and what the script meets there. -/
structure Guest (Q : Platform α) where
  launch : Q.Launch
  world : World α

/-- The key is shown by its SHA-256 digest, in base64 without padding. -/
def Digested (k : AttestVerity.HostKey) : Prop :=
  ∃ digest : Bytes, digest.length = 32 ∧
    Bytes.ofString (String.ofList k.fingerprint) = Base64.encodeNoPad digest

/-- What measured code and hardware guarantee. -/
structure Guest.Lawful (g : Guest Q) : Prop where
  built : Q.Built g.launch
  binds : g.world.getReport.firmware.Binds
  measures : ∀ {data report}, g.world.getReport.firmware data = .ok report →
    report.measurement = Q.measurement g.launch
  /-- The kernel reads nothing but the image with the root hash. -/
  verity : ∀ {data hash rootHash t}, g.world.fs (.verity data hash rootHash) = some t →
    Q.image rootHash = some t
  digested : Digested g.world.hostKey

section Model

variable (x : Expansion) (J : Json) (C : Crates)

def Guest.params (g : Guest Q) : Params := readCmdline x (Q.env g.launch) (Q.cmdline g.launch)

def Guest.script (g : Guest Q) : List Command := InitSh.script x (g.params x)

def Guest.exec (g : Guest Q) : Command → Effect (InitSh.State α) Unit Unit :=
  InitSh.exec x J C g.world (g.params x)

/-- The report that a command has the firmware issue, whether it is written or not. -/
def Guest.requests (g : Guest Q) (c : Command) (s : InitSh.State α) : Option AttestationReport :=
  if c = .getReport then do
    let args ← getReportArgs x s
    let data ← (GetReport.decodeReportData C args).toOption
    if g.world.getReport.opens then (g.world.getReport.firmware data).toOption else none
  else none

/-- How far a VM got. -/
inductive Phase (Q : Platform α) where
  | off
  /-- With some commands done, and the others to come. -/
  | booting (g : Guest Q) (done rest : List Command) (s : InitSh.State α)
  | stopped (g : Guest Q) (done : List Command)
  /-- `init.sh` switched to its root, and the programs there run. -/
  | running (g : Guest Q) (s : InitSh.State α)
  | hosts (l : Q.Launch)

namespace Phase

/-- The guest that runs `init.sh`, or did. -/
def guest? : Phase Q → Option (Guest Q)
  | booting g _ _ _ | stopped g _ | running g _ => some g
  | off | hosts _ => none

/-- The commands of `init.sh` that succeeded. -/
def done : Phase Q → List Command
  | booting _ done _ _ | stopped _ done => done
  | running g _ => g.script x
  | off | hosts _ => []

/-- What is launched where programs can ask for reports. -/
def asking? : Phase Q → Option Q.Launch
  | running g _ => some g.launch
  | hosts l => some l
  | off | booting _ _ _ _ | stopped _ _ => none

end Phase

structure State (Q : Platform α) (ν : Type) where
  vm : ν → Phase Q
  /-- The reports that were issued in each VM. -/
  issued : Set (ν × AttestationReport)

inductive Action (ν : Type) where
  | launches (v : ν)
  | executes (v : ν) (c : Command)
  | switches (v : ν)
  | asks (v : ν) (report : AttestationReport)

/-- VM `v` gets to another phase, and these reports are issued in it. -/
def State.moved [DecidableEq ν] (s : State Q ν) (v : ν) (phase : Phase Q)
    (reports : Option AttestationReport) : State Q ν where
  vm := Function.update s.vm v phase
  issued := s.issued ∪ {e | e.1 = v ∧ reports = some e.2}

/-- Where a guest is when a command has ended. -/
def after (g : Guest Q) (done : List Command) (c : Command) (rest : List Command) :
    Outcome Unit Unit × InitSh.State α → Phase Q
  | (.ok (), s) => .booting g (done ++ [c]) rest s
  | (.error _, _) => .stopped g done

inductive Step [DecidableEq ν] : State Q ν → Action ν → State Q ν → Prop
  | launches {s : State Q ν} {v : ν} {g : Guest Q} (hoff : s.vm v = .off) (hlawful : g.Lawful) :
      Step s (.launches v) (s.moved v (.booting g [] (g.script x) .initial) none)
  /-- The host launches something else. -/
  | hosts {s : State Q ν} {v : ν} {l : Q.Launch} (hoff : s.vm v = .off) (hother : ¬ Q.Built l) :
      Step s (.launches v) (s.moved v (.hosts l) none)
  | executes {s : State Q ν} {v : ν} {g : Guest Q} {done : List Command} {c : Command}
      {rest : List Command} {t : InitSh.State α}
      (hbooting : s.vm v = .booting g done (c :: rest) t) :
      Step s (.executes v c)
        (s.moved v (after g done c rest (g.exec x J C c t)) (g.requests x C c t))
  | switches {s : State Q ν} {v : ν} {g : Guest Q} {done : List Command} {t : InitSh.State α}
      (hbooting : s.vm v = .booting g done [] t) :
      Step s (.switches v) (s.moved v (.running g t) none)
  /-- A program asks for a report, over any data. -/
  | asks {s : State Q ν} {v : ν} {l : Q.Launch} {report : AttestationReport}
      (hasking : (s.vm v).asking? = some l) (hmeasured : report.measurement = Q.measurement l) :
      Step s (.asks v report) (s.moved v (s.vm v) (some report))

/-- The host and its VMs. -/
def system [DecidableEq ν] : Lts (State Q ν) (Action ν) where
  init s := (∀ v, s.vm v = .off) ∧ s.issued = ∅
  step := Step x J C

/-! ### The invariant -/

/-- Where a report that was issued in a VM comes from. -/
inductive Explained (s : State Q ν) (v : ν) (report : AttestationReport) : Prop
  /-- `init.sh` asked for it, when it had got there. -/
  | own {g : Guest Q} {front back : List Command} {t : InitSh.State α}
      (hguest : (s.vm v).guest? = some g) (hdone : front <+: (s.vm v).done x)
      (hscript : g.script x = front ++ .getReport :: back)
      (hfront : Effect.seq (g.exec x J C) front .initial = (.ok (), t))
      (hreport : g.requests x C .getReport t = some report)
  | asked {l : Q.Launch} (hasking : (s.vm v).asking? = some l)
      (hmeasured : report.measurement = Q.measurement l)

structure Inv (s : State Q ν) : Prop where
  lawful : ∀ v g, (s.vm v).guest? = some g → g.Lawful
  other : ∀ v l, s.vm v = .hosts l → ¬ Q.Built l
  /-- What is behind a booting guest went well. -/
  booting : ∀ v g done rest t, s.vm v = .booting g done rest t → g.script x = done ++ rest ∧
    Effect.seq (g.exec x J C) done .initial = (.ok (), t)
  running : ∀ v g t, s.vm v = .running g t →
    bootGuest x J C g.world (g.params x) .initial = (.ok (), t)
  issued : ∀ v report, (v, report) ∈ s.issued → Explained x J C s v report

end Model

variable {x : Expansion} {J : Json} {C : Crates}

/-- What a VM keeps. -/
structure Phase.Grows (x : Expansion) (p q : Phase Q) : Prop where
  guest : ∀ g, p.guest? = some g → q.guest? = some g
  done : p.done x <+: q.done x
  asking : ∀ l, p.asking? = some l → q.asking? = some l

theorem Phase.grows_off (p : Phase Q) : Phase.off.Grows x p where
  guest _ h := by cases h
  done := List.nil_prefix
  asking _ h := by cases h

theorem Phase.grows_booting {g : Guest Q} {done rest : List Command} {t : InitSh.State α}
    {p : Phase Q} (hguest : p.guest? = some g) (hdone : done <+: p.done x) :
    (Phase.booting g done rest t).Grows x p where
  guest _ h := hguest.trans h
  done := hdone
  asking _ h := by cases h

theorem Phase.grows_self (p : Phase Q) : p.Grows x p :=
  ⟨fun _ h => h, List.prefix_rfl, fun _ h => h⟩

theorem Explained.mono {s s' : State Q ν} {v : ν} {report : AttestationReport}
    (hgrows : (s.vm v).Grows x (s'.vm v)) (h : Explained x J C s v report) :
    Explained x J C s' v report := by
  cases h with
  | own hguest hdone hscript hfront hreport =>
      exact .own (hgrows.guest _ hguest) (hdone.trans hgrows.done) hscript hfront hreport
  | asked hasking hmeasured => exact .asked (hgrows.asking _ hasking) hmeasured

section Moves

variable [DecidableEq ν] {s : State Q ν} {v : ν} {phase : Phase Q}
  {reports : Option AttestationReport}

theorem moved_self : (s.moved v phase reports).vm v = phase := Function.update_self _ _ _

/-- What holds of the new phase, and of the others as they were. -/
theorem moved_vm {P : Phase Q → Prop} {v' : ν} (hself : v' = v → P phase)
    (hother : P (s.vm v')) : P ((s.moved v phase reports).vm v') := by
  by_cases hv : v' = v
  · have hmoved : (s.moved v phase reports).vm v' = phase := by
      rw [hv]
      exact moved_self
    rw [hmoved]
    exact hself hv
  · have hkept : (s.moved v phase reports).vm v' = s.vm v' := Function.update_of_ne hv _ _
    rw [hkept]
    exact hother

/-- One VM gets to a phase that fits, and the others stay as they are. -/
theorem Inv.moved (hI : Inv x J C s) (hgrows : (s.vm v).Grows x phase)
    (hlawful : ∀ g, phase.guest? = some g → g.Lawful)
    (hother : ∀ l, phase = .hosts l → ¬ Q.Built l)
    (hbooting : ∀ g done rest t, phase = .booting g done rest t → g.script x = done ++ rest ∧
      Effect.seq (g.exec x J C) done .initial = (.ok (), t))
    (hrunning : ∀ g t, phase = .running g t →
      bootGuest x J C g.world (g.params x) .initial = (.ok (), t))
    (hreports : ∀ report, reports = some report →
      Explained x J C (s.moved v phase reports) v report) :
    Inv x J C (s.moved v phase reports) where
  lawful v' g :=
    moved_vm (P := fun p => p.guest? = some g → g.Lawful) (fun _ => hlawful g) (hI.lawful v' g)
  other v' l :=
    moved_vm (P := fun p => p = .hosts l → ¬ Q.Built l) (fun _ => hother l) (hI.other v' l)
  booting v' g done rest t := moved_vm (P := fun p => p = .booting g done rest t → _)
    (fun _ => hbooting g done rest t) (hI.booting v' g done rest t)
  running v' g t := moved_vm (P := fun p => p = .running g t → _) (fun _ => hrunning g t)
    (hI.running v' g t)
  issued v' report hissued := by
    rcases hissued with hissued | ⟨hv, hreport⟩
    · refine (hI.issued v' report hissued).mono ?_
      refine moved_vm (P := (s.vm v').Grows x) ?_ (Phase.grows_self _)
      rintro rfl
      exact hgrows
    · obtain rfl : v' = v := hv
      exact hreports report hreport

/-- Whatever a command comes to, the guest is the same, and what is done stays so. -/
theorem after_spec (g : Guest Q) (done : List Command) (c : Command) (rest : List Command)
    (r : Outcome Unit Unit × InitSh.State α) :
    (after g done c rest r).guest? = some g ∧ done <+: (after g done c rest r).done x ∧
      (after g done c rest r).asking? = none := by
  obtain ⟨e | u, t⟩ := r
  · exact ⟨rfl, List.prefix_rfl, rfl⟩
  · exact ⟨rfl, List.prefix_append done [c], rfl⟩

/-- A VM is launched, and is at the start of `init.sh`. -/
theorem Inv.launches (hI : Inv x J C s) {g : Guest Q} (hoff : s.vm v = .off)
    (hlawful : g.Lawful) : Inv x J C (s.moved v (.booting g [] (g.script x) .initial) none) := by
  have hgrows : (s.vm v).Grows x (.booting g [] (g.script x) .initial) := by
    rw [hoff]
    exact Phase.grows_off _
  refine hI.moved hgrows ?_ ?_ ?_ ?_ ?_
  · rintro _ ⟨⟩
    exact hlawful
  · rintro _ ⟨⟩
  · rintro _ _ _ _ ⟨⟩
    exact ⟨rfl, rfl⟩
  · rintro _ _ ⟨⟩
  · rintro _ ⟨⟩

theorem Inv.hosts (hI : Inv x J C s) {l : Q.Launch} (hoff : s.vm v = .off)
    (hother : ¬ Q.Built l) : Inv x J C (s.moved v (.hosts l) none) := by
  have hgrows : (s.vm v).Grows x (.hosts l) := by
    rw [hoff]
    exact Phase.grows_off _
  refine hI.moved hgrows ?_ ?_ ?_ ?_ ?_
  · rintro _ ⟨⟩
  · rintro _ ⟨⟩
    exact hother
  · rintro _ _ _ _ ⟨⟩
  · rintro _ _ ⟨⟩
  · rintro _ ⟨⟩

/-- A command succeeds or is the last one; the report that it requests is the guest's own. -/
theorem Inv.executes (hI : Inv x J C s) {g : Guest Q} {done rest : List Command} {c : Command}
    {t : InitSh.State α} (hbooting : s.vm v = .booting g done (c :: rest) t) :
    Inv x J C (s.moved v (after g done c rest (g.exec x J C c t)) (g.requests x C c t)) := by
  obtain ⟨hguest, hprefix, hasking⟩ := after_spec (x := x) g done c rest (g.exec x J C c t)
  have hgrows : (s.vm v).Grows x (after g done c rest (g.exec x J C c t)) := by
    rw [hbooting]
    exact Phase.grows_booting hguest hprefix
  obtain ⟨hscript, hdone⟩ := hI.booting v g done (c :: rest) t hbooting
  refine hI.moved hgrows ?_ ?_ ?_ ?_ ?_
  · intro g' hg'
    rw [hguest] at hg'
    cases hg'
    exact hI.lawful v g (by rw [hbooting]; rfl)
  · intro l hl
    rw [hl] at hguest
    cases hguest
  · intro g' done' rest' t' hafter
    rcases hexec : g.exec x J C c t with ⟨e | u, t''⟩
    · rw [hexec] at hafter
      cases hafter
    · rw [hexec] at hafter
      cases hafter
      refine ⟨by rw [hscript, List.append_assoc, List.singleton_append], ?_⟩
      rw [Effect.seq_append, Effect.bind_of_ok hdone, Effect.seq, Effect.bind_of_ok hexec]
      rfl
  · intro g' t' hrunning
    rw [hrunning] at hasking
    cases hasking
  · intro report hreport
    have hc : c = .getReport := by
      by_contra hne
      simp [Guest.requests, hne] at hreport
    subst hc
    refine .own ?_ ?_ hscript hdone hreport
    · rw [moved_self]
      exact hguest
    · rw [moved_self]
      exact hprefix

/-- Behind the last command, all of `init.sh` is done. -/
theorem Inv.switches (hI : Inv x J C s) {g : Guest Q} {done : List Command} {t : InitSh.State α}
    (hbooting : s.vm v = .booting g done [] t) : Inv x J C (s.moved v (.running g t) none) := by
  obtain ⟨hscript, hdone⟩ := hI.booting v g done [] t hbooting
  rw [List.append_nil] at hscript
  have hgrows : (s.vm v).Grows x (.running g t) := by
    rw [hbooting]
    refine Phase.grows_booting rfl ?_
    rw [← hscript]
    exact List.prefix_rfl
  refine hI.moved hgrows ?_ ?_ ?_ ?_ ?_
  · rintro _ ⟨⟩
    exact hI.lawful v g (by rw [hbooting]; rfl)
  · rintro _ ⟨⟩
  · rintro _ _ _ _ ⟨⟩
  · rintro _ _ ⟨⟩
    rw [← hscript] at hdone
    exact hdone
  · rintro _ ⟨⟩

/-- A program gets a report of the launch that it runs in. -/
theorem Inv.asks (hI : Inv x J C s) {l : Q.Launch} {report : AttestationReport}
    (hasking : (s.vm v).asking? = some l) (hmeasured : report.measurement = Q.measurement l) :
    Inv x J C (s.moved v (s.vm v) (some report)) := by
  refine hI.moved (Phase.grows_self _) (hI.lawful v) (hI.other v) (hI.booting v) (hI.running v) ?_
  rintro _ ⟨⟩
  refine .asked ?_ hmeasured
  rw [moved_self]
  exact hasking

/-- **No step breaks the invariant.** -/
theorem Inv.step (hI : Inv x J C s) {a : Action ν} {s' : State Q ν}
    (hstep : Step x J C s a s') : Inv x J C s' := by
  cases hstep with
  | launches hoff hlawful => exact hI.launches hoff hlawful
  | hosts hoff hother => exact hI.hosts hoff hother
  | executes hbooting => exact hI.executes hbooting
  | switches hbooting => exact hI.switches hbooting
  | asks hasking hmeasured => exact hI.asks hasking hmeasured

end Moves

/-! ### The keys and the images of measured guests -/

/-- A guest in front of `get_report`. -/
structure Keyed (x : Expansion) (w : World α) (p : Params) (tree : FileTree α)
    (t : InitSh.State α) : Prop where
  /-- The image is its root, and it cannot write to it. -/
  mounted : ∃ source, VerityRoot x w p source tree ∧ ⟨[], .disk source, true⟩ ∈ t.mounts
  /-- The host key was generated in a directory in RAM. -/
  generated : ∃ filled root, ramDisks tree = some filled ∧ sshKeygen w filled = some root ∧
    t.root = some root

/-- What is launched when a VM is launched as the config says, and nothing else measures alike. -/
structure Measures (C : Crates) (Q : Platform α) (d : VMDescription) (l : Q.Launch) : Prop where
  built : Q.Built l
  cmdline : Shown d.kernelCmdline (Q.cmdline l)
  digest : ∀ {ld}, C.snpCalcLaunchDigest d.measurementArgs = some ld → Q.measurement l = ld
  unique : ∀ {l'}, Q.measurement l' = Q.measurement l → l' = l

/-- What `init.sh` reads there. -/
def Platform.params (x : Expansion) (Q : Platform α) (d : VMDescription) (l : Q.Launch) : Params :=
  readCmdline x (Q.env l) d.kernelCmdline

theorem Measures.params {d : VMDescription} {g : Guest Q} (h : Measures C Q d g.launch) :
    g.params x = Q.params x d g.launch := h.cmdline.read _

/-- The image that a command line names. -/
def Names (x : Expansion) (Q : Platform α) (p : Params) (tree : FileTree α) : Prop :=
  ∃ data hash rootHash, verityArgs x p = [data, "root", hash, rootHash] ∧
    Q.image rootHash = some tree

section Described

variable {d : VMDescription} {g : Guest Q} {t : InitSh.State α}

theorem Keyed.names {p : Params} {tree : FileTree α} (h : Keyed x g.world p tree t)
    (hg : g.Lawful) : Names x Q p tree := by
  obtain ⟨source, hroot, -⟩ := h.mounted
  obtain ⟨⟨data, hash, rootHash, hargs, rfl⟩, -, hfs⟩ := hroot
  exact ⟨data, hash, rootHash, hargs, hg.verity hfs⟩

end Described

/-- What is known of a VM whose report is accepted.  It was launched as the config says; and
`init.sh` has mounted the image there that the config's command line names, and generated a host
key.  The key is that one, or programs of the image asked for the report. -/
structure Vouched (x : Expansion) (J : Json) (C : Crates) (Q : Platform α) (s : State Q ν)
    (d : VMDescription) (l : Q.Launch) (report : AttestationReport) (k : AttestVerity.HostKey)
    (v : ν) (g : Guest Q) (tree : FileTree α) : Prop where
  issued : (v, report) ∈ s.issued
  guest : (s.vm v).guest? = some g
  launched : g.launch = l
  names : Names x Q (Q.params x d l) tree
  keyed : ∃ front t, front <+: (s.vm v).done x ∧
    Effect.seq (g.exec x J C) front .initial = (.ok (), t) ∧
    Keyed x g.world (Q.params x d l) tree t
  key : g.world.hostKey.fingerprint = k.fingerprint ∨
    ∃ t file, s.vm v = .running g t ∧ t.root = verityTree g.world file tree

/-- The programs that `attest-verity.sh` calls are those of the build. -/
structure Programs (J : Json) (C : Crates) (W : AttestVerity.World) (env : VerifyReport.Env) :
    Prop where
  clap : AttestVerity.ClapLaws W.clap
  /-- An option that is not there has no value. -/
  verifier : ∀ {input config : String} {data : List String} {a},
    W.clap ("--input" :: input :: "--vm-definition" :: config :: "--report-data" :: data)
      = .args a → (∀ word ∈ input :: config :: data, AttestVerity.isOption word = false) →
    a.verifier = ⟨config, none, none, none⟩
  verifies : ∀ {a}, W.verifies a = true →
    ∃ cache cache', VerifyReport.run J C env a cache = (.ok (), cache')

/-- What `verify_report` is called with when all goes well. -/
theorem Programs.verified {W : AttestVerity.World} {env : VerifyReport.Env}
    (hW : Programs J C W env) {o : AttestVerity.Options} (hfile : W.isFile o.vmConfig = true)
    (hout : AttestVerity.SimpleTarget o.outReport) (hconfig : AttestVerity.SimplePath o.vmConfig)
    (hstatus : (AttestVerity.attest W o).status = 0) :
    ∃ a k, W.verifies a = true ∧ a.input = o.outReport ∧
      a.verifier = ⟨o.vmConfig, none, none, none⟩ ∧
      k ∈ (W.scp (AttestVerity.scpArgs W o)).2 ∧ a.reportData = String.ofList k.fingerprint := by
  have hsound := (AttestVerity.sound_attest_iff hW.clap o).mpr
    ⟨hfile, AttestVerity.asked_of_simple hW.clap hout hconfig⟩
  obtain ⟨fetch, verify, a, k, hscp, -, hverify, hclap, hverifies, hlast, -, hk, hdata⟩ :=
    hsound.vouched hstatus
  rcases AttestVerity.attest_cases (w := W) o with
    ⟨hnone, -⟩ | ⟨-, -, heq⟩ | ⟨-, -, argv, hargv, heq⟩
  · rw [hfile] at hnone
    cases hnone
  · rw [heq] at hverify
    cases hverify
  · have hcalls : (AttestVerity.attest W o).scp = some (AttestVerity.scpArgs W o) ∧
        (AttestVerity.attest W o).verifyReport = some argv := by
      rcases heq with ⟨-, heq⟩ | ⟨-, heq⟩
      · rw [heq]
        exact ⟨rfl, rfl⟩
      · rw [heq]
        exact ⟨rfl, rfl⟩
    rw [hcalls.1, Option.some.injEq] at hscp
    rw [hcalls.2, Option.some.injEq] at hverify
    subst hscp hverify
    rw [AttestVerity.scpArgs_getLast hout.1, Option.some.injEq] at hlast
    refine ⟨a, k, hverifies, hlast.symm, ?_, hk, hdata⟩
    rw [hargv, AttestVerity.verifyReportArgs, W.atVerify.unquoted_of_plain hout.1.1,
      W.atVerify.unquoted_of_plain hconfig.1, AttestVerity.unquoted_fingerprint,
      List.singleton_append, List.singleton_append] at hclap
    refine hW.verifier hclap ?_
    simp only [List.mem_cons, List.mem_map]
    rintro word (rfl | rfl | ⟨k', -, rfl⟩)
    · exact hout.1.2
    · exact hconfig.2
    · exact k'.noOption

/-- A guest whose commands succeed gets to the end of `init.sh`, and is issued what the commands
on the way request. -/
theorem boots [DecidableEq ν] {s : State Q ν} (hs : (system x J C).Reachable s) {v : ν}
    {g : Guest Q} {done rest : List Command} {t t' : InitSh.State α}
    (hbooting : s.vm v = .booting g done rest t)
    (hseq : Effect.seq (g.exec x J C) rest t = (.ok (), t')) :
    ∃ s', (system x J C).Reachable s' ∧ s'.vm v = .booting g (done ++ rest) [] t' ∧
      s.issued ⊆ s'.issued ∧
      ∀ front c back u report, rest = front ++ c :: back →
        Effect.seq (g.exec x J C) front t = (.ok (), u) → g.requests x C c u = some report →
        (v, report) ∈ s'.issued := by
  induction rest generalizing s done t with
  | nil =>
      obtain ⟨-, rfl⟩ := Effect.pure_eq_ok.mp hseq
      exact ⟨s, hs, by rw [hbooting, List.append_nil], subset_rfl, by simp⟩
  | cons c rest ih =>
      obtain ⟨u, t₁, hexec, hrest⟩ := Effect.ok_of_bind.mp hseq
      have hstep : (system x J C).Reachable
          (s.moved v (.booting g (done ++ [c]) rest t₁) (g.requests x C c t)) := by
        refine .step hs (a := .executes v c) ?_
        have hafter : after g done c rest (g.exec x J C c t)
            = .booting g (done ++ [c]) rest t₁ := by
          rw [hexec]
          rfl
        rw [← hafter]
        exact .executes hbooting
      obtain ⟨s', hs', hend, hissued, hall⟩ := ih hstep moved_self hrest
      rw [List.append_assoc, List.singleton_append] at hend
      refine ⟨s', hs', hend, fun e he => hissued (.inl he), ?_⟩
      intro front c' back u' report hsplit hfront hreport
      cases front with
      | nil =>
          obtain ⟨rfl, rfl⟩ := List.cons_eq_cons.mp hsplit
          obtain ⟨-, rfl⟩ := Effect.pure_eq_ok.mp hfront
          exact hissued (.inr ⟨rfl, hreport⟩)
      | cons d front =>
          obtain ⟨rfl, rfl⟩ := List.cons_eq_cons.mp hsplit
          obtain ⟨_, t₂, hexec', hfront'⟩ := Effect.ok_of_bind.mp hfront
          rw [hexec] at hexec'
          cases hexec'
          exact hall front c' back u' report rfl hfront' hreport

open VerityImage (toyFs toySource)

/-- The built launch, and another one. -/
abbrev Platform.toy : Platform Bytes where
  Launch := Bool
  measurement built := if built then Block.zero 48 else Block.padded [1] (by decide)
  Built built := built = true
  cmdline _ := toyCmdline "verity" ++ "\n"
  env _ _ := ""
  image _ := VerityImage.build toySource

def Guest.toy : Guest .toy := ⟨true, .toy (toyFs toySource)⟩

def toyDescription : VMDescription :=
  { VMDescription.toy with kernelCmdline := toyCmdline "verity" }

end SnpGuard.Integrity
