/-
Honest clients among others.

A `Parties` is a family of honest client runs, each with its nonce, its X25519 key and
its config, and the private keys of the adversary.  All that an honest client ever
does with its disk key is to release it, wrapped, for a report that it verified
(`Releases`), which is what phases 1 and 2 of its run come to (`releases_of_run`).  What
the adversary knows of the ciphertexts on the wire is `Hybrid.Knowledge`.
-/
import SnpGuard.Client
import SnpGuard.Lib.Hybrid

namespace SnpGuard

/-- Honest client runs and an adversary with private keys of its own. -/
structure Parties (R : Ring) (ι : Type) where
  nonce : ι → UInt64
  priv : ι → R.PrivateKey
  expected : ι → Expected
  diskKey : ι → String
  adversaryKeys : Set R.PrivateKey
  priv_injective : ∀ {c c'}, priv c = priv c' → c = c'
  honest : ∀ c, priv c ∉ adversaryKeys

namespace Parties

variable {R : Ring} {C : Crates} {ι : Type} (P : Parties R ι)

/-- Client `c` verified `report` and wrapped its disk key for it. -/
structure Releases (C : Crates) (c : ι) (report : AttestationReport)
    (wrapped : WrappedDiskKey) : Prop where
  verified : ∃ access cache cache', verifyReceived C access (P.expected c) report
    (Client.reportDataValidator (P.nonce c)) cache = (.ok (), cache')
  wraps : ∃ (env : Client.Env R) (args : Client.Args), env.generated = some (P.priv c) ∧
    args.diskKey = P.diskKey c ∧
    Client.wrapDiskKey env args (P.nonce c) report = .ok wrapped

variable {P}

/-- What a released key is wrapped under. -/
theorem Releases.sealed {c : ι} {report : AttestationReport} {wrapped : WrappedDiskKey}
    (h : P.Releases C c report wrapped) :
    ∃ secret, R.agreeEphemeral (P.priv c) (ReportData.ofBlock report.reportData).serverPublicKey
        = some secret ∧
      aeadEnc R secret (P.nonce c) (Bytes.ofString (P.diskKey c)) = .ok wrapped.wrappedDiskKey ∧
      wrapped.clientPublicKey = R.computePublicKey (P.priv c) := by
  obtain ⟨env, args, hgenerated, hkey, hwrap⟩ := h.wraps
  obtain ⟨priv, secret, hpriv, -, hagree, hcipher, hpub⟩ := Client.wrapDiskKey_eq_ok.mp hwrap
  rw [hgenerated, Option.some.injEq] at hpriv
  rw [hkey] at hcipher
  rw [← hpriv] at hagree hpub
  exact ⟨secret, hagree, hcipher, hpub⟩

/-- A released key answers a report over the client's own nonce. -/
theorem Releases.nonce {c : ι} {report : AttestationReport} {wrapped : WrappedDiskKey}
    (h : P.Releases C c report wrapped) :
    (ReportData.ofBlock report.reportData).nonce = P.nonce c := by
  obtain ⟨access, cache, cache', hverify⟩ := h.verified
  obtain ⟨cert, -, hmet, -⟩ := verifyReceived_eq_ok.mp hverify
  exact (Client.reportDataValidator_eq_ok.mp (hmet.reportData _ rfl)).symm

/-- A released key answers a report with the launch digest the client expects. -/
theorem Releases.measured {c : ι} {report : AttestationReport} {wrapped : WrappedDiskKey}
    (h : P.Releases C c report wrapped) : report.measurement = (P.expected c).expectedLd := by
  obtain ⟨access, cache, cache', hverify⟩ := h.verified
  obtain ⟨cert, -, hmet, -⟩ := verifyReceived_eq_ok.mp hverify
  exact hmet.ld _ rfl

/-- A released key answers a report that is signed. -/
theorem Releases.signed {c : ι} {report : AttestationReport} {wrapped : WrappedDiskKey}
    (h : P.Releases C c report wrapped) :
    ∃ cert, verifyReportSignature C (P.expected c).vmDescription.hostCpuFamily report cert
      = .ok () := by
  obtain ⟨access, cache, cache', hverify⟩ := h.verified
  obtain ⟨cert, -, -, hsigned⟩ := verifyReceived_eq_ok.mp hverify
  exact ⟨cert, hsigned⟩

/-- The environment, arguments and random draw that make a run of the client that of `c`. -/
structure PlayedBy (P : Parties R ι) (J : Json) (C : Crates) (c : ι) (env : Client.Env R)
    (args : Client.Args) : Prop where
  expected : readExpected C env.files args.verifier "config" = .ok (P.expected c)
  random : env.random = some (Bytes.u64ToLE (P.nonce c))
  generated : env.generated = some (P.priv c)
  diskKey : args.diskKey = P.diskKey c

/-- **A run of the client that gets to phase 2 and wraps its key releases it, for the
report it received.** -/
theorem releases_of_run {J : Json} {c : ι} {env : Client.Env R} {args : Client.Args}
    (h : P.PlayedBy J C c env args) {t t' : Client.Traces} {v : Client.Verified}
    {wrapped : WrappedDiskKey} (hphase : Client.phase1 J C env args t = (.ok v, t'))
    (hwrap : Client.wrapDiskKey env args v.nonce v.report = .ok wrapped) :
    P.Releases C c v.report wrapped := by
  obtain ⟨expected, endpoint, cache, hreceived, hverify, -⟩ := Client.phase1_eq_ok.mp hphase
  obtain ⟨buffer, hbuffer, hnonce⟩ := hreceived.random
  have hexpected := hreceived.expected
  rw [h.expected, Except.ok.injEq] at hexpected
  rw [h.random, Option.some.injEq] at hbuffer
  rw [← hbuffer, Bytes.u64OfLE_toLE] at hnonce
  rw [hnonce, ← hexpected] at hverify
  rw [hnonce] at hwrap
  exact ⟨⟨_, _, _, hverify⟩, env, args, h.generated, h.diskKey, hwrap⟩

/-! ### Servers and the wire -/

/-- The server as `init.sh` starts it: in normal mode, with injection enabled. -/
def serverConfig : Server.Config := ⟨false, false⟩

/-- Handling `i`, a server gets `report` for nonce `n` and its new key `k`. -/
structure Issues (J : Json) (w : Server.World R) (i : Server.Input R) (n : UInt64)
    (k : R.PrivateKey) (report : AttestationReport) : Prop where
  ready : w.state = .ready
  notReset : "/reset" ≠ i.req.url
  request : J.attestationRequest.decode i.req.body = some ⟨n⟩
  generated : i.out.generated = some k
  computes : i.out.computes = true
  report : Server.getReport serverConfig i.out.firmware n (R.computePublicKey k) = .ok report

/-- What an adversary that knows `K` can have a server receive, when the keys in `used` were
generated before. -/
structure Sendable (J : Json) (P : Parties R ι) (K : Hybrid.Knowledge (hybrid R))
    (used : Set R.PrivateKey) (i : Server.Input R) : Prop where
  /-- A wrapped key is one that was sent, or made from a secret the adversary knows. -/
  cipher : ∀ wrapped, J.wrappedDiskKey.decode i.req.body = some wrapped →
    K.CanSend wrapped.wrappedDiskKey
  /-- A key generated for the request is nobody's yet. -/
  fresh : ∀ k, i.out.generated = some k →
    k ∉ used ∧ k ∉ P.adversaryKeys ∧ ∀ c, k ≠ P.priv c
  binds : i.out.firmware.Binds

/-- The ciphertexts on the wire, when the clients released these. -/
def sent (released : ι → Option (AttestationReport × WrappedDiskKey)) : Set Bytes :=
  {w | ∃ c report wrapped, released c = some (report, wrapped) ∧ w = wrapped.wrappedDiskKey}

/-- What the adversary holds when these ciphertexts were sent and these plaintexts told. -/
def knowledge (P : Parties R ι) (seen told : Set Bytes) : Hybrid.Knowledge (hybrid R) where
  keys := P.adversaryKeys
  seen := seen
  told := told

/-- Honest clients' and other keys the adversary does not hold share secrets it does not
know. -/
theorem not_knowsSecret (hR : R.Ideal) {seen told : Set Bytes} {c : ι} {key : R.PrivateKey}
    (hkey : key ∉ P.adversaryKeys) {secret : Bytes}
    (h : R.agreeEphemeral key (R.computePublicKey (P.priv c)) = some secret) :
    ¬ (P.knowledge seen told).KnowsSecret secret :=
  Hybrid.Knowledge.not_knowsSecret (hybrid_ideal hR) hkey (P.honest c) h

end Parties

end SnpGuard
