/-
Who learns a disk key.

A host launches VMs of the measured image, sends their servers what it likes, and gives
each VM a disk of its choice to boot with the key that was injected.  Every such VM is
measured alike, whatever it boots, and the firmware signs a report over any data for
whatever runs in it.  So a host that injects a key of its own and boots a disk it wrote
gets a report that an honest client takes for one of the server's (`disk_key_leaks`).

What the design does give is `disk_key_secret`.  In a run in which no VM that answered an
honest client boots a disk of the host's, and no code of the host's asks for a report
over an honest client's nonce, the host never learns a disk key.  The invariant keeps the
two kinds of VM apart: keys the host learns come from VMs that no client talked to
(`Inv.keys`), and what those were injected with the host knew before (`Inv.injected`).
-/
import Mathlib.Data.Set.Insert
import SnpGuard.InitSh
import SnpGuard.Lib.Lts
import SnpGuard.Parties

namespace SnpGuard.Secrecy

open Server

/-- The disks there are to attach. -/
structure Disks where
  Disk : Type
  /-- The host wrote what is on it. -/
  HostAuthored : Disk → Prop
  /-- `cryptsetup luksOpen` opens it with this passphrase. -/
  Unlocks : Disk → Bytes → Prop

variable {R : Ring} {D : Disks} {ν ι : Type}

/-- How far a VM of the measured image got. -/
inductive Phase (R : Ring) (D : Disks) where
  | off
  | serving (w : World R)
  | served (server : Exit)
  /-- `init.sh` opened a disk and switched to its root; the server had written `content`. -/
  | booted (disk : D.Disk) (content : Bytes)

structure State (R : Ring) (D : Disks) (ν ι : Type) where
  vm : ν → Phase R D
  /-- The keys that each VM's server generated. -/
  generated : Set (ν × R.PrivateKey)
  /-- The reports issued to each VM's server, with nonce and session key. -/
  issued : Set (ν × UInt64 × R.PrivateKey × AttestationReport)
  /-- The reports issued to code of the host's in a measured VM. -/
  asked : Set AttestationReport
  /-- What each honest client released, and for which report. -/
  released : ι → Option (AttestationReport × WrappedDiskKey)
  /-- The private keys the host holds. -/
  keys : Set R.PrivateKey
  /-- The plaintexts the host knows. -/
  told : Set Bytes

/-- What the host knows. -/
def State.knowledge (s : State R D ν ι) : Hybrid.Knowledge (hybrid R) where
  keys := s.keys
  seen := Parties.sent s.released
  told := s.told

inductive Action (R : Ring) (D : Disks) (ν ι : Type) where
  | launches (v : ν)
  | serves (v : ν) (i : Input R)
  | boots (v : ν) (disk : D.Disk)
  | asks (v : ν) (data : Block 64)
  | leaks (v : ν)
  | releases (c : ι)

/-- Where a VM is after its server handled a request. -/
def afterServer : World R ⊕ Exit → Phase R D
  | .inl w => .serving w
  | .inr server => .served server

/-- VM `v` gets to another phase. -/
def State.moved [DecidableEq ν] (s : State R D ν ι) (v : ν) (phase : Phase R D) : State R D ν ι :=
  { s with vm := Function.update s.vm v phase }

variable (C : Crates) (J : Json) (P : Parties R ι) (ld : Block 48)

inductive Step [DecidableEq ν] [DecidableEq ι] :
    State R D ν ι → Action R D ν ι → State R D ν ι → Prop
  | launches {s : State R D ν ι} {v : ν} (hoff : s.vm v = .off) :
      Step s (.launches v) (s.moved v (.serving (start none)))
  /-- A server handles a request. -/
  | serves {s : State R D ν ι} {v : ν} {w : World R} {i : Input R}
      (hserving : s.vm v = .serving w)
      (hsend : P.Sendable J s.knowledge {k | ∃ v', (v', k) ∈ s.generated} i) :
      Step s (.serves v i)
        { s.moved v (afterServer (Server.step J Parties.serverConfig w i)) with
          generated := s.generated ∪ {e | e.1 = v ∧ i.out.generated = some e.2}
          issued := s.issued ∪ {e | e.1 = v ∧ Parties.Issues J w i e.2.1 e.2.2.1 e.2.2.2} }
  /-- `boot_encrypted` opens the disk it finds, and `init.sh` switches to its root. -/
  | boots {s : State R D ν ι} {v : ν} {server : Exit} {passphrase content : Bytes}
      {disk : D.Disk} (dash : Shell.Dash) (hserved : s.vm v = .served server)
      (hpassphrase : InitSh.bootEncrypted dash server = some passphrase)
      (hcontent : server.diskKeyFile = some content) (hunlocks : D.Unlocks disk passphrase) :
      Step s (.boots v disk) (s.moved v (.booted disk content))
  /-- Code of the host's asks the firmware for a report. -/
  | asks {s : State R D ν ι} {v : ν} {disk : D.Disk} {content : Bytes}
      {report : AttestationReport} (hbooted : s.vm v = .booted disk content)
      (hhost : D.HostAuthored disk) :
      Step s (.asks v report.reportData) { s with asked := s.asked ∪ {report} }
  /-- Code of the host's reads what its VM has in memory. -/
  | leaks {s : State R D ν ι} {v : ν} {disk : D.Disk} {content : Bytes}
      (hbooted : s.vm v = .booted disk content) (hhost : D.HostAuthored disk) :
      Step s (.leaks v)
        { s with keys := s.keys ∪ {k | (v, k) ∈ s.generated}, told := s.told ∪ {content} }
  /-- An honest client verifies a report and sends its wrapped key.  Signatures are not
  forged: the report was issued in a measured VM, or has another launch digest. -/
  | releases {s : State R D ν ι} {c : ι} {report : AttestationReport}
      {wrapped : WrappedDiskKey} (hfirst : s.released c = none)
      (hunforged : ∀ family cert, verifyReportSignature C family report cert = .ok () →
        (∃ v n k, (v, n, k, report) ∈ s.issued) ∨ report ∈ s.asked ∨ report.measurement ≠ ld)
      (hrelease : P.Releases C c report wrapped) :
      Step s (.releases c)
        { s with released := Function.update s.released c (some (report, wrapped)) }

/-- The host, its VMs and the honest clients; the host knows none of their disk keys. -/
def system [DecidableEq ν] [DecidableEq ι] : Lts (State R D ν ι) (Action R D ν ι) where
  init s := (∀ v, s.vm v = .off) ∧ s.generated = ∅ ∧ s.issued = ∅ ∧ s.asked = ∅ ∧
    (∀ c, s.released c = none) ∧ s.keys = P.adversaryKeys ∧
    ∀ c, Bytes.ofString (P.diskKey c) ∉ s.told
  step := Step C J P ld

/-- Code of the host's stays apart from the honest clients: it runs in no VM whose server
answered one, and asks for no report over the nonce of one. -/
def Apart (s : State R D ν ι) : Action R D ν ι → Prop
  | .boots v disk => D.HostAuthored disk → ∀ c k report, (v, P.nonce c, k, report) ∉ s.issued
  | .asks _ data => ∀ c, (ReportData.ofBlock data).nonce ≠ P.nonce c
  | _ => True

/-! ### The invariant -/

/-- What a VM that was injected with `content` has of it: the host knew it, or the VM
answered an honest client. -/
def Injected (s : State R D ν ι) (v : ν) (content : Bytes) : Prop :=
  (∀ c, content ≠ Bytes.ofString (P.diskKey c)) ∨
    ∃ c k report, (v, P.nonce c, k, report) ∈ s.issued

structure Inv (s : State R D ν ι) : Prop where
  /-- What a server generated is nobody else's. -/
  fresh : ∀ v k, (v, k) ∈ s.generated → k ∉ P.adversaryKeys ∧ ∀ c, k ≠ P.priv c
  owner : ∀ v v' k, (v, k) ∈ s.generated → (v', k) ∈ s.generated → v = v'
  /-- An issued report carries its nonce and the public half of its key. -/
  issued : ∀ v n k report, (v, n, k, report) ∈ s.issued →
    (v, k) ∈ s.generated ∧ ReportData.ofBlock report.reportData = ⟨n, R.computePublicKey k⟩
  /-- An open session has a report that was issued for it. -/
  session : ∀ v w params, s.vm v = .serving w → w.state = .waitingForSecretInjection params →
    ∃ report, (v, params.nonce, params.ephServerDhKey, report) ∈ s.issued
  asked : ∀ report ∈ s.asked, ∀ c, (ReportData.ofBlock report.reportData).nonce ≠ P.nonce c
  released : ∀ c report wrapped, s.released c = some (report, wrapped) →
    P.Releases C c report wrapped ∧ ∃ v k, (v, P.nonce c, k, report) ∈ s.issued
  served : ∀ v content, s.vm v = .served ⟨.ok (), some content⟩ → Injected P s v content
  injected : ∀ v disk content, s.vm v = .booted disk content → Injected P s v content
  /-- A VM that runs code of the host's answered no honest client. -/
  apart : ∀ v disk content, s.vm v = .booted disk content → D.HostAuthored disk →
    ∀ c k report, (v, P.nonce c, k, report) ∉ s.issued
  /-- The host's keys are its own, and those of VMs that run its code. -/
  keys : ∀ k ∈ s.keys, k ∈ P.adversaryKeys ∨
    ∃ v disk content, (v, k) ∈ s.generated ∧ s.vm v = .booted disk content ∧ D.HostAuthored disk
  told : ∀ c, Bytes.ofString (P.diskKey c) ∉ s.told

variable {C J P ld}

/-- An honest client's key stays its own. -/
theorem Inv.priv_not_held {s : State R D ν ι} (hI : Inv C P s) (c : ι) : P.priv c ∉ s.keys := by
  intro hheld
  rcases hI.keys _ hheld with hown | ⟨v, disk, content, hgenerated, -, -⟩
  · exact P.honest c hown
  · exact (hI.fresh v _ hgenerated).2 c rfl

/-- So does the key of a session that answered an honest client. -/
theorem Inv.session_not_held {s : State R D ν ι} (hI : Inv C P s) {v : ν} {c : ι}
    {k : R.PrivateKey} {report : AttestationReport}
    (hissued : (v, P.nonce c, k, report) ∈ s.issued) : k ∉ s.keys := by
  intro hheld
  obtain ⟨hgenerated, -⟩ := hI.issued _ _ _ _ hissued
  rcases hI.keys _ hheld with hown | ⟨v', disk, content, hgenerated', hbooted, hhost⟩
  · exact (hI.fresh v k hgenerated).1 hown
  · have hsame : v' = v := hI.owner v' v k hgenerated' hgenerated
    subst hsame
    exact hI.apart v' disk content hbooted hhost c k report hissued

/-- **A ciphertext on the wire opens under a secret the host does not know, in a session
that answered the client that sent it.** -/
theorem Inv.opened (hR : R.Ideal) {s : State R D ν ι} (hI : Inv C P s) {w : Bytes}
    (hsent : w ∈ Parties.sent s.released) {secret : Bytes} {n : UInt64} {p : Bytes}
    (hopen : (hybrid R).unwrap secret n w = some p) :
    ¬ s.knowledge.KnowsSecret secret ∧ ∃ c, n = P.nonce c := by
  obtain ⟨c, report, wrapped, hreleased, rfl⟩ := hsent
  obtain ⟨hreleases, v, k, hissued⟩ := hI.released c report wrapped hreleased
  obtain ⟨-, hdata⟩ := hI.issued _ _ _ _ hissued
  obtain ⟨secret', hagree, henc, -⟩ := hreleases.sealed
  rw [hdata] at hagree
  obtain ⟨hsecret, hnonce, -⟩ :=
    (hybrid_ideal hR).opens_only (toOption_eq_some.mpr henc) hopen
  rw [← hsecret] at hagree
  refine ⟨?_, c, hnonce⟩
  exact Hybrid.Knowledge.not_knowsSecret (hybrid_ideal hR) (hI.priv_not_held c)
    (hI.session_not_held hissued) hagree

/-- **The host knows no honest client's disk key.** -/
theorem Inv.secret (hR : R.Ideal) {s : State R D ν ι} (hI : Inv C P s) (c : ι) :
    ¬ s.knowledge.KnowsPlain (Bytes.ofString (P.diskKey c)) := by
  intro hknows
  rcases hknows with htold | ⟨secret, n, w, hseen, hsecret, hopen⟩
  · exact hI.told c htold
  · exact (hI.opened hR hseen hopen).1 hsecret

/-! ### What one step preserves -/

theorem Injected.mono {s s' : State R D ν ι} (hissued : s.issued ⊆ s'.issued) {v : ν}
    {content : Bytes} (h : Injected P s v content) : Injected P s' v content := by
  rcases h with h | ⟨c, k, report, hmem⟩
  · exact Or.inl h
  · exact Or.inr ⟨c, k, report, hissued hmem⟩

/-- A VM that booted nothing gets to a phase that fits what was issued to it. -/
theorem Inv.moved [DecidableEq ν] {s : State R D ν ι} (hI : Inv C P s) {v : ν} {phase : Phase R D}
    (hbefore : ∀ disk content, s.vm v ≠ .booted disk content)
    (hsession : ∀ w params, phase = .serving w → w.state = .waitingForSecretInjection params →
      ∃ report, (v, params.nonce, params.ephServerDhKey, report) ∈ s.issued)
    (hserved : ∀ content, phase = .served ⟨.ok (), some content⟩ → Injected P s v content)
    (hbooted : ∀ disk content, phase = .booted disk content → Injected P s v content ∧
      (D.HostAuthored disk → ∀ c k report, (v, P.nonce c, k, report) ∉ s.issued)) :
    Inv C P (s.moved v phase) := by
  have hvm : ∀ v', (v' = v ∧ (s.moved v phase).vm v' = phase) ∨
      (v' ≠ v ∧ (s.moved v phase).vm v' = s.vm v') := by
    intro v'
    by_cases hv : v' = v
    · subst hv
      exact Or.inl ⟨rfl, Function.update_self _ _ _⟩
    · exact Or.inr ⟨hv, Function.update_of_ne hv _ _⟩
  refine ⟨hI.fresh, hI.owner, hI.issued, ?_, hI.asked, hI.released, ?_, ?_, ?_, ?_, hI.told⟩
  · intro v' w params hphase hstate
    rcases hvm v' with ⟨rfl, heq⟩ | ⟨-, heq⟩
    · exact hsession w params (heq.symm.trans hphase) hstate
    · exact hI.session v' w params (heq.symm.trans hphase) hstate
  · intro v' content hphase
    rcases hvm v' with ⟨rfl, heq⟩ | ⟨-, heq⟩
    · exact hserved content (heq.symm.trans hphase)
    · exact hI.served v' content (heq.symm.trans hphase)
  · intro v' disk content hphase
    rcases hvm v' with ⟨rfl, heq⟩ | ⟨-, heq⟩
    · exact (hbooted disk content (heq.symm.trans hphase)).1
    · exact hI.injected v' disk content (heq.symm.trans hphase)
  · intro v' disk content hphase
    rcases hvm v' with ⟨rfl, heq⟩ | ⟨-, heq⟩
    · exact (hbooted disk content (heq.symm.trans hphase)).2
    · exact hI.apart v' disk content (heq.symm.trans hphase)
  · intro k hk
    rcases hI.keys k hk with hown | ⟨v', disk, content, hgenerated, hphase, hhost⟩
    · exact Or.inl hown
    · have hne : v' ≠ v := by
        intro hv
        exact hbefore disk content (hv ▸ hphase)
      have hkept : (s.moved v phase).vm v' = s.vm v' := Function.update_of_ne hne _ _
      exact Or.inr ⟨v', disk, content, hgenerated, hkept.trans hphase, hhost⟩

/-- What handling a request adds to what was generated and issued. -/
def State.answered (s : State R D ν ι) (J : Json) (v : ν) (w : World R) (i : Input R) :
    State R D ν ι :=
  { s with
    generated := s.generated ∪ {e | e.1 = v ∧ i.out.generated = some e.2}
    issued := s.issued ∪ {e | e.1 = v ∧ Parties.Issues J w i e.2.1 e.2.2.1 e.2.2.2} }

theorem Inv.answered {s : State R D ν ι} (hI : Inv C P s) {v : ν} {w : World R} {i : Input R}
    (hserving : s.vm v = .serving w)
    (hsend : P.Sendable J s.knowledge {k | ∃ v', (v', k) ∈ s.generated} i) :
    Inv C P (s.answered J v w i) := by
  have hmono : s.issued ⊆ (s.answered J v w i).issued := Set.subset_union_left
  refine ⟨?_, ?_, ?_, ?_, hI.asked, ?_, ?_, ?_, ?_, ?_, hI.told⟩
  · intro v' k hk
    rcases hk with hk | ⟨-, hk⟩
    · exact hI.fresh v' k hk
    · exact (hsend.fresh k hk).2
  · intro v₁ v₂ k h₁ h₂
    rcases h₁ with h₁ | ⟨hv₁, hk₁⟩
    · rcases h₂ with h₂ | ⟨hv₂, hk₂⟩
      · exact hI.owner v₁ v₂ k h₁ h₂
      · exact absurd ⟨v₁, h₁⟩ (hsend.fresh k hk₂).1
    · rcases h₂ with h₂ | ⟨hv₂, hk₂⟩
      · exact absurd ⟨v₂, h₂⟩ (hsend.fresh k hk₁).1
      · exact hv₁.trans hv₂.symm
  · intro v' n k report hissued
    rcases hissued with hissued | ⟨hv, hissued⟩
    · obtain ⟨hgenerated, hdata⟩ := hI.issued v' n k report hissued
      exact ⟨Or.inl hgenerated, hdata⟩
    · exact ⟨Or.inr ⟨hv, hissued.generated⟩, report_of_session hsend.binds hissued.report⟩
  · intro v' w' params hphase hstate
    obtain ⟨report, hissued⟩ := hI.session v' w' params hphase hstate
    exact ⟨report, hmono hissued⟩
  · intro c report wrapped hreleased
    obtain ⟨hreleases, v', k, hissued⟩ := hI.released c report wrapped hreleased
    exact ⟨hreleases, v', k, hmono hissued⟩
  · intro v' content hphase
    exact (hI.served v' content hphase).mono hmono
  · intro v' disk content hphase
    exact (hI.injected v' disk content hphase).mono hmono
  · intro v' disk content hphase hhost c k report hissued
    rcases hissued with hissued | ⟨hv, -⟩
    · exact hI.apart v' disk content hphase hhost c k report hissued
    · -- The VM that answers is still serving.
      have hphase' : s.vm v' = .booted disk content := hphase
      have hv' : v' = v := hv
      rw [hv', hserving] at hphase'
      simp at hphase'
  · intro k hk
    rcases hI.keys k hk with hown | ⟨v', disk, content, hgenerated, hphase, hhost⟩
    · exact Or.inl hown
    · exact Or.inr ⟨v', disk, content, Or.inl hgenerated, hphase, hhost⟩

/-- What a server accepted the host knew, or it came from an honest client whom this VM
answered. -/
theorem Inv.accepted (hR : R.Ideal) {s : State R D ν ι} (hI : Inv C P s) {v : ν} {w : World R}
    {i : Input R} (hserving : s.vm v = .serving w) {used : Set R.PrivateKey}
    (hsend : P.Sendable J s.knowledge used i) {content : Bytes}
    (hstep : Server.step J Parties.serverConfig w i = .inr ⟨.ok (), some content⟩) :
    Injected P s v content := by
  obtain ⟨params, key, hstate, haccepts, hkey⟩ := step_ok hstep
  rw [Option.some.injEq] at hkey
  subst hkey
  obtain ⟨report, hissued⟩ := hI.session v w params hserving hstate
  obtain ⟨wrapped, secret, hdecode, -, hdec⟩ := haccepts.unwraps
  have hopen : (hybrid R).unwrap secret params.nonce wrapped.wrappedDiskKey = some content :=
    toOption_eq_some.mpr hdec
  rcases hsend.cipher wrapped hdecode with hseen | hknown
  · obtain ⟨-, c, hnonce⟩ := hI.opened hR hseen hopen
    rw [hnonce] at hissued
    exact Or.inr ⟨c, _, report, hissued⟩
  · obtain ⟨-, hplain⟩ := hknown secret params.nonce content hopen
    refine Or.inl fun c hc => ?_
    rw [hc] at hplain
    exact hI.secret hR c hplain

/-- What a server waits for it has issued a report for. -/
theorem issued_of_waiting {s : State R D ν ι} {v : ν} {w w' : World R} {i : Input R}
    {params : SecretInjectionParams R}
    (hstep : Server.step J Parties.serverConfig w i = .inl w')
    (hstate : w'.state = .waitingForSecretInjection params) :
    ∃ report, (v, params.nonce, params.ephServerDhKey, report) ∈ (s.answered J v w i).issued := by
  obtain ⟨hready, hurl, -, hok, -⟩ := step_waiting hstep hstate
  have hanswered := answered_iff.mpr ⟨hurl, hok⟩
  obtain ⟨report, hreport⟩ := hanswered.report
  exact ⟨report, Or.inr ⟨rfl, hready, hurl, hanswered.request, hanswered.generated,
    hanswered.computes, hreport⟩⟩

theorem Inv.serves [DecidableEq ν] (hR : R.Ideal) {s : State R D ν ι} (hI : Inv C P s) {v : ν}
    {w : World R} {i : Input R} (hserving : s.vm v = .serving w)
    (hsend : P.Sendable J s.knowledge {k | ∃ v', (v', k) ∈ s.generated} i) :
    Inv C P ((s.answered J v w i).moved v
      (afterServer (Server.step J Parties.serverConfig w i))) := by
  have hbefore : ∀ disk content, (s.answered J v w i).vm v ≠ .booted disk content := by
    intro disk content hphase
    have hphase' : s.vm v = .booted disk content := hphase
    rw [hserving] at hphase'
    simp at hphase'
  cases hstep : Server.step J Parties.serverConfig w i with
  | inl w' =>
      refine (hI.answered hserving hsend).moved hbefore ?_ ?_ ?_
      · intro w'' params hw hstate
        rw [afterServer, Phase.serving.injEq] at hw
        rw [← hw] at hstate
        exact issued_of_waiting hstep hstate
      · intro content hphase
        simp [afterServer] at hphase
      · intro disk content hphase
        simp [afterServer] at hphase
  | inr e =>
      refine (hI.answered hserving hsend).moved hbefore ?_ ?_ ?_
      · intro w' params hw
        simp [afterServer] at hw
      · intro content hphase
        rw [afterServer, Phase.served.injEq] at hphase
        rw [hphase] at hstep
        have hmono : s.issued ⊆ (s.answered J v w i).issued := Set.subset_union_left
        exact (hI.accepted hR hserving hsend hstep).mono hmono
      · intro disk content hphase
        simp [afterServer] at hphase

/-- A VM boots a disk with what its server accepted. -/
theorem Inv.boots [DecidableEq ν] {s : State R D ν ι} (hI : Inv C P s) {v : ν} {server : Exit}
    {dash : Shell.Dash} {passphrase content : Bytes} {disk : D.Disk}
    (hserved : s.vm v = .served server)
    (hpassphrase : InitSh.bootEncrypted dash server = some passphrase)
    (hcontent : server.diskKeyFile = some content) (hapart : Apart P s (.boots v disk)) :
    Inv C P (s.moved v (.booted disk content)) := by
  have hserver : server = ⟨.ok (), some content⟩ := by
    rw [← hcontent, ← InitSh.bootEncrypted_ok hpassphrase]
  rw [hserver] at hserved
  refine hI.moved ?_ ?_ ?_ ?_
  · intro disk' content'
    rw [hserved]
    simp
  · intro w params hw
    simp at hw
  · intro content' hphase
    simp at hphase
  · intro disk' content' hphase
    rw [Phase.booted.injEq] at hphase
    obtain ⟨rfl, rfl⟩ := hphase
    exact ⟨hI.served v content hserved, hapart⟩

/-- What code of the host's finds in its VM is no honest client's. -/
theorem Inv.leaks {s : State R D ν ι} (hI : Inv C P s) {v : ν} {disk : D.Disk} {content : Bytes}
    (hbooted : s.vm v = .booted disk content) (hhost : D.HostAuthored disk) :
    Inv C P { s with
      keys := s.keys ∪ {k | (v, k) ∈ s.generated}, told := s.told ∪ {content} } := by
  refine ⟨hI.fresh, hI.owner, hI.issued, hI.session, hI.asked, hI.released, hI.served,
    hI.injected, hI.apart, ?_, ?_⟩
  · intro k hk
    rcases hk with hk | hk
    · exact hI.keys k hk
    · exact Or.inr ⟨v, disk, content, hk, hbooted, hhost⟩
  · intro c hc
    rcases hc with hc | hc
    · exact hI.told c hc
    · rw [Set.mem_singleton_iff] at hc
      rcases hI.injected v disk content hbooted with hforeign | ⟨c', k, report, hissued⟩
      · exact hforeign c hc.symm
      · exact hI.apart v disk content hbooted hhost c' k report hissued

/-- An honest client releases its key for a report that a server issued. -/
theorem Inv.issued_of_releases (hld : ∀ c, (P.expected c).expectedLd = ld) {s : State R D ν ι}
    (hI : Inv C P s) {c : ι} {report : AttestationReport} {wrapped : WrappedDiskKey}
    (hunforged : ∀ family cert, verifyReportSignature C family report cert = .ok () →
      (∃ v n k, (v, n, k, report) ∈ s.issued) ∨ report ∈ s.asked ∨ report.measurement ≠ ld)
    (hrelease : P.Releases C c report wrapped) : ∃ v k, (v, P.nonce c, k, report) ∈ s.issued := by
  obtain ⟨cert, hsigned⟩ := hrelease.signed
  rcases hunforged _ cert hsigned with ⟨v, n, k, hissued⟩ | hasked | hother
  · obtain ⟨-, hdata⟩ := hI.issued v n k report hissued
    have hnonce : (ReportData.ofBlock report.reportData).nonce = P.nonce c := hrelease.nonce
    rw [hdata] at hnonce
    have hn : n = P.nonce c := hnonce
    rw [hn] at hissued
    exact ⟨v, k, hissued⟩
  · exact absurd hrelease.nonce (hI.asked report hasked c)
  · exact absurd (hrelease.measured.trans (hld c)) hother

theorem Inv.step [DecidableEq ν] [DecidableEq ι] (hR : R.Ideal)
    (hld : ∀ c, (P.expected c).expectedLd = ld) {s s' : State R D ν ι} {a : Action R D ν ι}
    (hI : Inv C P s) (h : Step C J P ld s a s') (hapart : Apart P s a) : Inv C P s' := by
  cases h with
  | launches hoff =>
      refine hI.moved ?_ ?_ ?_ ?_
      · intro disk content
        rw [hoff]
        simp
      · intro w params hw hstate
        rw [Phase.serving.injEq] at hw
        rw [← hw] at hstate
        simp [start] at hstate
      · intro content hphase
        simp at hphase
      · intro disk content hphase
        simp at hphase
  | serves hserving hsend => exact hI.serves hR hserving hsend
  | boots _ hserved hpassphrase hcontent _ => exact hI.boots hserved hpassphrase hcontent hapart
  | @asks v disk content report hbooted hhost =>
      refine ⟨hI.fresh, hI.owner, hI.issued, hI.session, ?_, hI.released, hI.served, hI.injected,
        hI.apart, hI.keys, hI.told⟩
      intro report' hmem
      rcases hmem with hmem | hmem
      · exact hI.asked report' hmem
      · rw [Set.mem_singleton_iff] at hmem
        rw [hmem]
        exact hapart
  | leaks hbooted hhost => exact hI.leaks hbooted hhost
  | @releases c report wrapped hfirst hunforged hrelease =>
      refine ⟨hI.fresh, hI.owner, hI.issued, hI.session, hI.asked, ?_, hI.served, hI.injected,
        hI.apart, hI.keys, hI.told⟩
      intro c' report' wrapped' hreleased
      by_cases hc : c' = c
      · subst hc
        have hboth : (report, wrapped) = (report', wrapped') := by
          simpa [Function.update_self] using hreleased
        obtain ⟨rfl, rfl⟩ := Prod.mk.inj hboth
        exact ⟨hrelease, hI.issued_of_releases hld hunforged hrelease⟩
      · have hold : s.released c' = some (report', wrapped') := by
          simpa [Function.update_of_ne hc] using hreleased
        exact hI.released c' report' wrapped' hold

/-! ### Every interleaving -/

/-- **Secrecy of the disk key.**  While code of the host's stays apart from the honest
clients, the host learns none of their disk keys. -/
theorem disk_key_secret [DecidableEq ν] [DecidableEq ι] (hR : R.Ideal)
    (hld : ∀ c, (P.expected c).expectedLd = ld) {s : State R D ν ι}
    (h : ((system C J P ld).guarded (Apart P)).Reachable s) (c : ι) :
    ¬ s.knowledge.KnowsPlain (Bytes.ofString (P.diskKey c)) := by
  have hI : Inv C P s := by
    refine h.invariant ?_ ?_
    · intro s hs
      obtain ⟨hoff, hgenerated, hissued, hasked, hreleased, hkeys, htold⟩ := hs
      refine ⟨?_, ?_, ?_, ?_, ?_, ?_, ?_, ?_, ?_, ?_, htold⟩
      · simp [hgenerated]
      · simp [hgenerated]
      · simp [hissued]
      · intro v w params hphase
        rw [hoff v] at hphase
        simp at hphase
      · simp [hasked]
      · intro c report wrapped hrel
        rw [hreleased c] at hrel
        simp at hrel
      · intro v content hphase
        rw [hoff v] at hphase
        simp at hphase
      · intro v disk content hphase
        rw [hoff v] at hphase
        simp at hphase
      · intro v disk content hphase
        rw [hoff v] at hphase
        simp at hphase
      · intro k hk
        rw [hkeys] at hk
        exact Or.inl hk
    · intro s a s' _ hI hstep
      exact hI.step hR hld hstep.1 hstep.2
  exact hI.secret hR c

/-! ### A disk key the host learns -/

/-- **What a client releases for a key of the host's, the host knows.** -/
theorem knows_of_released (hR : R.Ideal) {s : State R D ν ι} {c : ι} {report : AttestationReport}
    {wrapped : WrappedDiskKey} (hreleased : s.released c = some (report, wrapped))
    (hreleases : P.Releases C c report wrapped) {a : R.PrivateKey} (ha : a ∈ s.keys)
    (hkey : (ReportData.ofBlock report.reportData).serverPublicKey = R.computePublicKey a) :
    s.knowledge.KnowsPlain (Bytes.ofString (P.diskKey c)) := by
  obtain ⟨secret, hagree, henc, -⟩ := hreleases.sealed
  obtain ⟨secret', hclient, hhost⟩ := hR.agree_public (P.priv c) a
  rw [hkey, hclient, Option.some.injEq] at hagree
  rw [hagree] at hhost
  have hopen : (hybrid R).unwrap secret (P.nonce c) wrapped.wrappedDiskKey
      = some (Bytes.ofString (P.diskKey c)) :=
    toOption_eq_some.mpr ((aeadDec_iff hR).mpr henc)
  exact Or.inr ⟨secret, P.nonce c, wrapped.wrappedDiskKey, ⟨c, report, wrapped, hreleased, rfl⟩,
    ⟨a, ha, _, hhost⟩, hopen⟩

def hostKey : Block 32 := ⟨Bytes.ofNatLE 32 5, by simp⟩

/-- One client with nonce 0 and disk key `key`, and a host with a key of its own. -/
def hosted : Parties Ring.toy Unit where
  nonce _ := 0
  priv _ := Block.zero 32
  expected _ := .toy
  diskKey _ := "key"
  adversaryKeys := {hostKey}
  priv_injective _ := rfl
  honest _ := by
    have hne : Block.zero 32 ≠ hostKey := by decide
    exact hne

/-- One disk of the owner's and one of the host's, which any passphrase opens. -/
def toyDisks : Disks := ⟨Bool, (· = true), fun _ _ => True⟩

/-- One VM, and a host that knows the plaintext `mine`. -/
def toyInitial : State Ring.toy toyDisks Unit Unit where
  vm _ := .off
  generated := ∅
  issued := ∅
  asked := ∅
  released _ := none
  keys := {hostKey}
  told := {Bytes.ofString "mine"}

abbrev toySystem : Lts (State Ring.toy toyDisks Unit Unit) (Action Ring.toy toyDisks Unit Unit) :=
  system Crates.toy Json.toy hosted (Block.zero 48)

theorem moved_vm [DecidableEq ν] (s : State R D ν ι) (v : ν) (phase : Phase R D) :
    (s.moved v phase).vm v = phase := Function.update_self _ _ _

/-- The VM answered the client, and waits for its key. -/
theorem toy_waiting : ∃ s, (toySystem.guarded (Apart hosted)).Reachable s ∧
    s.vm () = .serving ⟨.waitingForSecretInjection toySession, none⟩ ∧
    ((), 0, Ring.toyKey, toySessionReport) ∈ s.issued ∧ s.released () = none ∧
    s.keys = {hostKey} ∧ s.told = {Bytes.ofString "mine"} := by
  let launched := toyInitial.moved () (.serving (start none))
  have hlaunched : launched.vm () = .serving (start none) := moved_vm _ _ _
  have hinit : toySystem.init toyInitial := by
    refine ⟨fun _ => rfl, rfl, rfl, rfl, fun _ => rfl, rfl, fun _ => ?_⟩
    have hne : Bytes.ofString "key" ≠ Bytes.ofString "mine" := by decide
    exact hne
  have hsend : hosted.Sendable Json.toy launched.knowledge {k | ∃ v', (v', k) ∈ launched.generated}
      alone.attestation := by
    refine ⟨?_, ?_, Firmware.genuine_binds⟩
    · intro wrapped hdecode
      exact absurd hdecode attestation_not_wrapped
    · intro k hk
      have hkey : Ring.toyKey = k := Option.some.inj hk
      subst hkey
      have hhost : Ring.toyKey ≠ hostKey := by decide
      have hclient : Ring.toyKey ≠ Block.zero 32 := by decide
      refine ⟨?_, hhost, fun _ => hclient⟩
      intro hused
      obtain ⟨v', hmem⟩ := hused
      exact hmem
  have hissues : Parties.Issues Json.toy (start none) alone.attestation 0 Ring.toyKey
      toySessionReport :=
    ⟨rfl, toy_answered.notReset, toy_answered.request, rfl, rfl, toySessionReport_eq⟩
  refine ⟨_, .step (.step (.init hinit) ⟨.launches rfl, trivial⟩)
    ⟨.serves hlaunched hsend, trivial⟩, ?_, Or.inr ⟨rfl, hissues⟩, rfl, rfl, rfl⟩
  show (launched.moved () (afterServer (Server.step Json.toy Parties.serverConfig (start none)
    alone.attestation))).vm () = _
  rw [moved_vm]
  exact congrArg afterServer toy_asked

/-- And is injected with whatever can be sent to it. -/
theorem toy_injected {s : State Ring.toy toyDisks Unit Unit}
    (h : (toySystem.guarded (Apart hosted)).Reachable s)
    (hwaiting : s.vm () = .serving ⟨.waitingForSecretInjection toySession, none⟩)
    {env : Client.Env Ring.toy} {args : Client.Args} {wrapped : WrappedDiskKey}
    (hwrap : Client.wrapDiskKey env args 0 toySessionReport = .ok wrapped)
    (hsend : s.knowledge.CanSend wrapped.wrappedDiskKey) :
    ∃ s', (toySystem.guarded (Apart hosted)).Reachable s' ∧
      s'.vm () = .served ⟨.ok (), some (Bytes.ofString args.diskKey)⟩ ∧
      s'.released = s.released ∧ s'.keys = s.keys := by
  let i : Input Ring.toy := ⟨⟨"/", Json.toy.wrappedDiskKey.encode wrapped⟩, keyless⟩
  have hsendable : hosted.Sendable Json.toy s.knowledge {k | ∃ v', (v', k) ∈ s.generated} i := by
    refine ⟨?_, ?_, Firmware.genuine_binds⟩
    · intro wrapped' hdecode
      have hbody : Json.toy.wrappedDiskKey.decode i.req.body = some wrapped :=
        Json.toy_roundTrips.wrappedDiskKey wrapped
      rw [hbody, Option.some.injEq] at hdecode
      rw [← hdecode]
      exact hsend
    · intro k hk
      have hnone : (none : Option (Block 32)) = some k := hk
      simp at hnone
  have hstep : Server.step Json.toy Parties.serverConfig
      ⟨.waitingForSecretInjection toySession, none⟩ i
        = .inr ⟨.ok (), some (Bytes.ofString args.diskKey)⟩ :=
    step_of_accepts rfl (toy_accepts hwrap)
  refine ⟨_, .step h ⟨.serves hwaiting hsendable, trivial⟩, ?_, rfl, rfl⟩
  show (s.moved () (afterServer (Server.step Json.toy Parties.serverConfig
    ⟨.waitingForSecretInjection toySession, none⟩ i))).vm () = _
  rw [moved_vm, hstep]
  rfl

/-- Something wrapped for a report that names `k`, by the client or by the host. -/
theorem toy_wraps {env : Client.Env Ring.toy} {args : Client.Args} {report : AttestationReport}
    (h : (Client.wrapDiskKey env args 0 report).toOption.isSome = true) :
    ∃ wrapped, Client.wrapDiskKey env args 0 report = .ok wrapped := by
  obtain ⟨wrapped, hsome⟩ := Option.isSome_iff_exists.mp h
  exact ⟨wrapped, toOption_eq_some.mp hsome⟩

theorem toy_verified {report : AttestationReport}
    (h : (verifyReceived Crates.toy .toy .toy report (Client.reportDataValidator 0)
      fun _ => none).1 = .ok ()) {wrapped : WrappedDiskKey}
    (hwrap : Client.wrapDiskKey (.toy report) (.toy "key") 0 report = .ok wrapped) :
    hosted.Releases Crates.toy () report wrapped where
  verified := by
    obtain ⟨cache, hcache⟩ := Effect.exists_of_fst h
    exact ⟨.toy, fun _ => none, cache, hcache⟩
  wraps := ⟨.toy report, .toy "key", rfl, rfl, hwrap⟩

/-- The report that code of the host's gets for the client's nonce and the host's key. -/
def hostReport : AttestationReport :=
  { genuineReport 0 with reportData := (ReportData.mk 0 hostKey).encode }

/-- **A host learns a disk key.**  It injects a key of its own, boots its disk, and has the
code on it ask for a report over the client's nonce and a key of the host's. -/
theorem disk_key_leaks : ∃ s, toySystem.Reachable s ∧
    s.knowledge.KnowsPlain (Bytes.ofString (hosted.diskKey ())) := by
  obtain ⟨s, hs, hwaiting, -, hreleased, hkeys, htold⟩ := toy_waiting
  let env : Client.Env Ring.toy :=
    { Client.Env.toy toySessionReport with generated := some hostKey }
  obtain ⟨own, hown⟩ := @toy_wraps env (.toy "mine") toySessionReport (by decide +kernel)
  -- The host made what it injects with its own key.
  have hsend : s.knowledge.CanSend own.wrappedDiskKey := by
    obtain ⟨priv, secret, hpriv, -, hagree, henc, -⟩ := Client.wrapDiskKey_eq_ok.mp hown
    have hhost : hostKey = priv := Option.some.inj hpriv
    subst hhost
    refine Or.inr fun secret' n p hopen => ?_
    obtain ⟨hsecret, -, hplain⟩ :=
      (hybrid_ideal Ring.toy_ideal).opens_only (toOption_eq_some.mpr henc) hopen
    rw [hsecret, hplain]
    have hheld : hostKey ∈ s.keys := by rw [hkeys]; rfl
    have hmine : Bytes.ofString "mine" ∈ s.told := by rw [htold]; rfl
    exact ⟨⟨hostKey, hheld, _, hagree⟩, Or.inl hmine⟩
  obtain ⟨s', hs', hserved, hreleased', hkeys'⟩ := toy_injected hs hwaiting hown hsend
  obtain ⟨got, hgot⟩ := @toy_wraps (.toy hostReport) (.toy "key") hostReport (by decide +kernel)
  have hreleases := toy_verified (by decide +kernel) hgot
  let booted := s'.moved () (.booted true (Bytes.ofString "mine"))
  let asked : State Ring.toy toyDisks Unit Unit :=
    { booted with asked := booted.asked ∪ {hostReport} }
  have hbooted : booted.vm () = .booted true (Bytes.ofString "mine") := moved_vm _ _ _
  have hnone : asked.released () = none := by
    show s'.released () = none
    rw [hreleased', hreleased]
  let released : State Ring.toy toyDisks Unit Unit :=
    { asked with released := Function.update asked.released () (some (hostReport, got)) }
  have hreached : toySystem.Reachable released :=
    .step (.step (.step hs'.of_guarded (.boots ⟨true⟩ hserved rfl rfl trivial)) (.asks hbooted rfl))
      (.releases hnone (fun _ _ _ => Or.inr (Or.inl (Or.inr rfl))) hreleases)
  have hgiven : released.released () = some (hostReport, got) := rfl
  have hheld : hostKey ∈ released.keys := by
    show hostKey ∈ s'.keys
    rw [hkeys', hkeys]
    rfl
  have hnamed : (ReportData.ofBlock hostReport.reportData).serverPublicKey = hostKey := by
    show (ReportData.ofBlock (ReportData.mk 0 hostKey).encode).serverPublicKey = _
    rw [ReportData.ofBlock_encode]
  exact ⟨released, hreached, knows_of_released Ring.toy_ideal hgiven hreleases hheld hnamed⟩

/-- The client's key is injected, the owner's disk booted, and the host knows nothing. -/
theorem disk_key_kept : ∃ s, (toySystem.guarded (Apart hosted)).Reachable s ∧
    s.vm () = .booted false (Bytes.ofString "key") ∧
    ¬ s.knowledge.KnowsPlain (Bytes.ofString (hosted.diskKey ())) := by
  obtain ⟨s, hs, hwaiting, hissued, hreleased, -, -⟩ := toy_waiting
  have hreleases := toy_verified (by decide +kernel) toyWrapped_eq
  let released : State Ring.toy toyDisks Unit Unit :=
    { s with released := Function.update s.released () (some (toySessionReport, toyWrapped)) }
  have hreached : (toySystem.guarded (Apart hosted)).Reachable released :=
    .step hs ⟨.releases hreleased (fun _ _ _ => Or.inl ⟨_, _, _, hissued⟩) hreleases, trivial⟩
  have hsend : released.knowledge.CanSend toyWrapped.wrappedDiskKey :=
    Or.inl ⟨(), toySessionReport, toyWrapped, rfl, rfl⟩
  obtain ⟨s', hs', hserved, -, -⟩ := toy_injected hreached hwaiting toyWrapped_eq hsend
  have hbooted : (toySystem.guarded (Apart hosted)).Reachable
      (s'.moved () (.booted false (Bytes.ofString "key"))) :=
    .step hs' ⟨.boots ⟨true⟩ hserved rfl rfl trivial, fun hhost => absurd hhost Bool.false_ne_true⟩
  exact ⟨_, hbooted, moved_vm _ _ _,
    disk_key_secret Ring.toy_ideal (fun _ => rfl) hbooted ()⟩

end SnpGuard.Secrecy
