/-
Which genuine reports pass.

A report is signed with the chip's VCEK for the TCB version in `reported_tcb`, and
AMD's key distribution service hands out the certificate of the VCEK for the version
it is asked for.  Both programs ask for `committed_tcb`.  `Amd` says what AMD's keys
and certificates are, and under its laws the certificate that is found always
belongs to the committed version (`lookupVcek_found`), so a genuine report passes
exactly when the two versions agree (`verifyReceived_iff`).  Between a firmware
update and its commit they do not.
-/
import SnpGuard.Client
import SnpGuard.VerifyReport

namespace SnpGuard

/-- The keys of AMD's chips, their certificates, and who signed a report. -/
structure Amd (C : Crates) where
  Key : Type
  /-- The VCEK of a chip of a product at a TCB version. -/
  vcek : Block 64 → ProductName → TcbVersion → Key
  certificate : Block 64 → ProductName → TcbVersion → C.Certificate
  /-- The bytes the key distribution service answers with. -/
  body : Block 64 → ProductName → TcbVersion → Bytes
  signer : AttestationReport → Option Key

namespace Amd

variable {C : Crates} (A : Amd C)

structure Laws : Prop where
  /-- A version is its four components. -/
  same : ∀ chip p {a b : TcbVersion}, a.Same b →
    A.vcek chip p a = A.vcek chip p b ∧ A.body chip p a = A.body chip p b
  keys_differ : ∀ chip p {a b}, A.vcek chip p a = A.vcek chip p b → a.Same b
  parses : ∀ chip p t, C.certificateFromBytes (A.body chip p t) = some (A.certificate chip p t)
  /-- Under a VCEK certificate verifies what its key signed. -/
  verifies : ∀ p, ∃ ark ask, C.ark p = some ark ∧ C.ask p = some ask ∧
    ∀ chip t r, C.verify ark ask (A.certificate chip p t) r = true ↔
      A.signer r = some (A.vcek chip p t)

/-- A report of a chip of product `p`, signed for the TCB version it reports. -/
def Genuine (p : ProductName) (r : AttestationReport) : Prop :=
  A.signer r = some (A.vcek r.chipId p r.reportedTcb)

/-- The key distribution service. -/
def Serves (kds : String → HttpResult) : Prop :=
  ∀ chip p t, kds (vcekUrl chip p t) = .response 200 (some (A.body chip p t))

/-- The cache holds nothing but what the service hands out. -/
def Coherent (cache : Folder) : Prop :=
  ∀ chip p t content, cache (filenameForVcek chip p t) = some content →
    content = A.body chip p t

/-- Downloads and file operations succeed. -/
structure Available (access : VcekAccess) (cache : Folder) : Prop where
  folder : access.cacheThere = true ∨ access.cacheCreated = true
  serves : A.Serves access.kds
  faults : access.faults = .none
  coherent : A.Coherent cache

variable {A}

theorem coherent_empty : A.Coherent fun _ => none := by
  intro chip p t content h
  simp at h

/-- Storing a downloaded certificate under its name keeps the cache coherent. -/
theorem Coherent.update (hA : A.Laws) {cache : Folder} (hcache : A.Coherent cache)
    (chip : Block 64) (p : ProductName) (t : TcbVersion) :
    A.Coherent (Function.update cache (filenameForVcek chip p t) (some (A.body chip p t))) := by
  intro chip' p' t' content hcontent
  by_cases hname : filenameForVcek chip' p' t' = filenameForVcek chip p t
  · rw [hname, Function.update_self, Option.some.injEq] at hcontent
    obtain ⟨rfl, rfl, hsame⟩ := filenameForVcek_injective hname
    rw [← hcontent]
    exact ((hA.same chip' p' hsame).2).symm
  · rw [Function.update_of_ne hname] at hcontent
    exact hcache chip' p' t' content hcontent

end Amd

variable {C : Crates} {A : Amd C} {J : Json}

/-! ### The certificate that is found -/

/-- **The lookup finds the certificate for the committed version, from the cache or not.** -/
theorem lookupVcek_found (hA : A.Laws) {access : VcekAccess} {cache : Folder}
    (h : A.Available access cache) (r : AttestationReport) (p : ProductName) :
    ∃ cache', lookupVcek C access r p cache
        = (.ok (A.certificate r.chipId p r.committedTcb), cache') ∧ A.Coherent cache' := by
  have hparses := hA.parses r.chipId p r.committedTcb
  have hdownload : downloadVceckCert access.kds r.chipId p r.committedTcb
      = .ok (A.body r.chipId p r.committedTcb) :=
    downloadVceckCert_eq_ok.mpr ⟨200, h.serves _ _ _, rfl⟩
  obtain ⟨d, hnew⟩ : ∃ d, CachingVCEKDownloader.new access.tempDir access.cacheThere
      access.cacheCreated = .ok d := by
    refine ⟨⟨access.tempDir ++ "/snp-vcek-cache"⟩, ?_⟩
    rw [CachingVCEKDownloader.new, Outcome.ensure_of h.folder]
    rfl
  have hget : ∃ cache', d.getVceckCert C access.kds access.faults r.chipId p r.committedTcb cache
      = (.ok (A.certificate r.chipId p r.committedTcb), cache') ∧ A.Coherent cache' := by
    rw [h.faults]
    cases hfile : cache (filenameForVcek r.chipId p r.committedTcb) with
    | none =>
        have hdone :=
          CachingVCEKDownloader.getVceckCert_downloaded (C := C) (d := d) hfile hdownload
        rw [hparses, Outcome.ofOption_some] at hdone
        exact ⟨_, hdone, h.coherent.update hA _ _ _⟩
    | some content =>
        have hcontent := h.coherent _ _ _ _ hfile
        refine ⟨cache, ?_, h.coherent⟩
        rw [CachingVCEKDownloader.getVceckCert_cached hfile, hcontent, hparses,
          Outcome.ofOption_some]
  obtain ⟨cache', hget, hcoherent⟩ := hget
  refine ⟨cache', ?_, hcoherent⟩
  unfold lookupVcek
  rw [Effect.ok_of_bind]
  refine ⟨d, cache, ?_, Effect.context_eq_ok.mpr hget⟩
  rw [Effect.lift_apply, hnew, Outcome.context_ok]

/-- A signature verifies under the certificate for a version when it was made for it. -/
theorem verifyReportSignature_iff (hA : A.Laws) {r : AttestationReport} {p : ProductName}
    {chip : Block 64} {t : TcbVersion} :
    verifyReportSignature C p r (A.certificate chip p t) = .ok () ↔
      A.signer r = some (A.vcek chip p t) := by
  obtain ⟨ark, ask, hark, hask, hverify⟩ := hA.verifies p
  unfold verifyReportSignature
  simp only [hark, hask, Outcome.ofOption_some, Outcome.bind_ok, Outcome.ensure_eq_ok]
  exact hverify chip t r

/-- **A genuine report that meets the expectations passes exactly when its committed TCB
version is the one it was signed for.** -/
theorem verifyReceived_iff (hA : A.Laws) {access : VcekAccess} {cache : Folder}
    (h : A.Available access cache) {expected : Expected} {r : AttestationReport}
    {validator : ReportDataValidator}
    (hgenuine : A.Genuine expected.vmDescription.hostCpuFamily r)
    (hmet : expected.MetBy r validator) :
    (∃ cache', verifyReceived C access expected r validator cache = (.ok (), cache')) ↔
      r.committedTcb.Same r.reportedTcb := by
  obtain ⟨cache', hlookup, -⟩ :=
    lookupVcek_found hA h r expected.vmDescription.hostCpuFamily
  have hsignature : verifyReportSignature C expected.vmDescription.hostCpuFamily r
      (A.certificate r.chipId expected.vmDescription.hostCpuFamily r.committedTcb) = .ok () ↔
      r.committedTcb.Same r.reportedTcb := by
    rw [verifyReportSignature_iff hA, hgenuine, Option.some.injEq]
    refine ⟨?_, ?_⟩
    · intro heq
      exact hA.keys_differ _ _ heq.symm
    · intro hsame
      exact (hA.same _ _ hsame).1.symm
  refine ⟨?_, ?_⟩
  · intro hok
    obtain ⟨_, hok⟩ := hok
    obtain ⟨cert, hcert, -, hsig⟩ := verifyReceived_eq_ok.mp hok
    rw [hlookup, Prod.mk.injEq, Except.ok.injEq] at hcert
    rw [← hcert.1] at hsig
    exact hsignature.mp hsig
  · intro hsame
    exact ⟨cache', verifyReceived_eq_ok.mpr ⟨_, hlookup, hmet, hsignature.mpr hsame⟩⟩

/-! ### Both programs -/

/-- The client received a genuine report that meets its expectations. -/
structure ClientCase (A : Amd C) {R : Ring} (J : Json) (env : Client.Env R) (args : Client.Args)
    (v : Client.Verified) (t : Client.Traces) : Prop where
  received : ∃ expected resetEndpoint,
    Client.Received J C env args expected resetEndpoint v ∧
      A.Genuine expected.vmDescription.hostCpuFamily v.report ∧
      expected.MetBy v.report (Client.reportDataValidator v.nonce)
  available : A.Available env.vcek t.cache

/-- `verify_report` loaded a genuine report that meets its expectations. -/
structure VerifierCase (A : Amd C) (J : Json) (env : VerifyReport.Env)
    (args : VerifyReport.Args) (r : AttestationReport) (cache : Folder) : Prop where
  loaded : ∃ expected reportData,
    VerifyReport.Loaded J C env args r expected reportData ∧
      A.Genuine expected.vmDescription.hostCpuFamily r ∧
      expected.MetBy r (VerifyReport.reportDataValidator args reportData)
  available : A.Available env.vcek cache

theorem client_past_verification (hA : A.Laws) {R : Ring} {env : Client.Env R}
    {args : Client.Args} {v : Client.Verified} {t : Client.Traces}
    (h : ClientCase A J env args v t) :
    (∃ v' t', Client.phase1 J C env args t = (.ok v', t')) ↔
      v.report.committedTcb.Same v.report.reportedTcb := by
  obtain ⟨expected, endpoint, hreceived, hgenuine, hmet⟩ := h.received
  rw [← verifyReceived_iff hA h.available hgenuine hmet]
  refine ⟨?_, ?_⟩
  · intro hok
    obtain ⟨v', t', hok⟩ := hok
    obtain ⟨expected', endpoint', cache, hreceived', hverify, -⟩ := Client.phase1_eq_ok.mp hok
    obtain ⟨hexpected, hv⟩ := hreceived.unique hreceived'
    rw [hexpected, hv] at hverify
    exact ⟨cache, hverify⟩
  · intro hok
    obtain ⟨cache, hverify⟩ := hok
    exact ⟨v, _, Client.phase1_eq_ok.mpr ⟨expected, endpoint, cache, hreceived, hverify, rfl⟩⟩

theorem verifier_past_verification (hA : A.Laws) {env : VerifyReport.Env}
    {args : VerifyReport.Args} {r : AttestationReport} {cache : Folder}
    (h : VerifierCase A J env args r cache) :
    (∃ cache', VerifyReport.run J C env args cache = (.ok (), cache')) ↔
      r.committedTcb.Same r.reportedTcb := by
  obtain ⟨expected, reportData, hloaded, hgenuine, hmet⟩ := h.loaded
  rw [← verifyReceived_iff hA h.available hgenuine hmet]
  refine ⟨?_, ?_⟩
  · intro hok
    obtain ⟨cache', hok⟩ := hok
    obtain ⟨r', expected', reportData', hloaded', hverify⟩ := VerifyReport.run_eq_ok.mp hok
    obtain ⟨hreport, hexpected, hdata⟩ := hloaded.unique hloaded'
    rw [hreport, hexpected, hdata] at hverify
    exact ⟨cache', hverify⟩
  · intro hok
    obtain ⟨cache', hverify⟩ := hok
    exact ⟨cache', VerifyReport.run_eq_ok.mpr ⟨r, expected, reportData, hloaded, hverify⟩⟩

/-- **Both programs get past verification of a genuine report that meets their
expectations exactly when its committed TCB version is its reported one.** -/
theorem past_verification_iff (hA : A.Laws) {R : Ring} {env : Client.Env R}
    {args : Client.Args} {v : Client.Verified} {t : Client.Traces}
    {env' : VerifyReport.Env} {args' : VerifyReport.Args} {cache : Folder}
    (hclient : ClientCase A J env args v t)
    (hverifier : VerifierCase A J env' args' v.report cache) :
    ((∃ v' t', Client.phase1 J C env args t = (.ok v', t')) ↔
        v.report.committedTcb.Same v.report.reportedTcb) ∧
      ((∃ cache', VerifyReport.run J C env' args' cache = (.ok (), cache')) ↔
        v.report.committedTcb.Same v.report.reportedTcb) :=
  ⟨client_past_verification hA hclient, verifier_past_verification hA hverifier⟩

/-! ### A platform between an update and its commit -/

/-- Certificates and keys are the URLs they are asked for under. -/
def Amd.toy : Amd Crates.toy where
  Key := String
  vcek := vcekUrl
  certificate := vcekUrl
  body chip p t := Bytes.ofString (vcekUrl chip p t)
  signer r := Bytes.toString? r.signature

theorem Amd.toy_genuine {p : ProductName} {r : AttestationReport} :
    Amd.toy.Genuine p r ↔
      Bytes.toString? r.signature = some (vcekUrl r.chipId p r.reportedTcb) := Iff.rfl

theorem Amd.toy_laws : Amd.toy.Laws where
  same chip p {a b} h := by
    have hurl : vcekUrl chip p a = vcekUrl chip p b := vcekUrl_same h
    exact ⟨hurl, congrArg Bytes.ofString hurl⟩
  keys_differ chip p {a b} h := (vcekUrl_injective h).2.2
  parses chip p t := by
    have hurl : vcekUrl chip p t ≠ "" := vcekUrl_ne_empty chip p t
    simp [Crates.toy, Amd.toy, Option.filter, hurl]
  verifies p := by
    refine ⟨"", "", rfl, rfl, ?_⟩
    intro chip t r
    have htext : r.signature = Bytes.ofString (vcekUrl chip p t) ↔
        Bytes.toString? r.signature = some (vcekUrl chip p t) := by
      refine ⟨?_, ?_⟩
      · intro h
        rw [h, Bytes.toString?_ofString]
      · intro h
        exact (Bytes.ofString_of_toString? h).symm
    simpa [Crates.toy, Amd.toy] using htext

/-- A certificate cache that is empty, and a service that answers with the URL. -/
def VcekAccess.toy : VcekAccess where
  tempDir := "/tmp"
  cacheThere := true
  cacheCreated := false
  kds url := .response 200 (some (Bytes.ofString url))
  faults := .none

theorem VcekAccess.toy_available : Amd.toy.Available VcekAccess.toy (fun _ => none) where
  folder := Or.inl rfl
  serves _ _ _ := rfl
  faults := rfl
  coherent := Amd.coherent_empty

/-- A genuine report for nonce 0 of a Milan chip that runs microcode `running` and has
committed microcode 0. -/
def genuineReport (running : UInt8) : AttestationReport :=
  let reported : TcbVersion := { TcbVersion.default with microcode := running }
  { AttestationReport.default with
    reportedTcb := reported
    signature := Bytes.ofString (vcekUrl (Block.zero 64) .milan reported) }

theorem genuineReport_genuine (running : UInt8) :
    Amd.toy.Genuine .milan (genuineReport running) := by
  rw [Amd.toy_genuine]
  simp only [genuineReport, AttestationReport.default, Bytes.toString?_ofString]

/-- The firmware of that chip once the update is committed. -/
def Firmware.genuine : Firmware := fun data => .ok { genuineReport 0 with reportData := data }

theorem Firmware.genuine_reports (data : Block 64) : ∃ r, Firmware.genuine data = .ok r :=
  ⟨_, rfl⟩

theorem Firmware.genuine_binds : Firmware.genuine.Binds := by
  intro data r h
  simp only [Firmware.genuine, Except.ok.injEq] at h
  rw [← h]

/-- A file system with one config file and one report. -/
def Files.toy (r : AttestationReport) : Files where
  read path :=
    if path = "vm-config.toml" then some []
    else if path = "report.json" then some (Json.toy.report.encode r)
    else none
  toml _ := some .toy

def VerifierArgs.toy : VerifierArgs := ⟨"vm-config.toml", none, none, none⟩

def Expected.toy : Expected := ⟨.toy, Block.zero 48, none⟩

theorem Expected.toy_read (r : AttestationReport) (kind : String) :
    readExpected Crates.toy (Files.toy r) .toy kind = .ok .toy := by
  rfl

theorem Expected.toy_met (running : UInt8) {validator : ReportDataValidator}
    (h : validator (Block.zero 64) = .ok ()) :
    Expected.toy.MetBy (genuineReport running) validator where
  policy := by rintro _ ⟨⟩; rfl
  idblock := by rintro _ ⟨⟩
  tcb := by
    rintro _ ⟨⟩
    show TcbVersion.default.AtLeast TcbVersion.default
    decide
  platInfo := by rintro _ ⟨⟩; rfl
  reportData := by rintro _ ⟨⟩; exact h
  hostData := by rintro _ ⟨⟩
  ld := by rintro _ ⟨⟩; rfl

def Client.Args.toy (diskKey : String) : Client.Args := ⟨"http://localhost", diskKey, none, .toy⟩

/-- A client with nonce 0 that receives `r`. -/
def Client.Env.toy (r : AttestationReport) : Client.Env Ring.toy where
  files := .toy r
  random := some (Block.zero 8)
  parseUrl _ := some .root
  sendReset _ := .response 200 (some (Bytes.ofString "Ok"))
  sendAttestation _ := .response 200 (some (Json.toy.report.encode r))
  sendKey _ := .response 500 (some [])
  dumpCreates := true
  dumpFailsAfter := none
  vcek := .toy
  generated := some (Block.zero 32)
  computes := true

def VerifyReport.Args.toy : VerifyReport.Args := ⟨"report.json", "", .toy⟩

def Client.Verified.toy (r : AttestationReport) : Client.Verified := ⟨.root, 0, r⟩

def Client.Traces.none : Client.Traces := ⟨[], Option.none, fun _ => Option.none⟩

theorem Client.toy_received (r : AttestationReport) (diskKey : String) :
    Client.Received Json.toy Crates.toy (.toy r) (.toy diskKey) .toy ⟨"/reset", none, true⟩
      (.toy r) where
  expected := Expected.toy_read r "config"
  random := by
    have hbuffer : (0 : UInt64) = Bytes.u64OfLE (Block.zero 8) := by decide
    exact ⟨Block.zero 8, rfl, hbuffer⟩
  url := rfl
  endpoint := by
    show Client.Url.root.join "reset" = _
    decide
  reset := ⟨_, _, rfl⟩
  report := ⟨_, _, rfl, Json.toy_roundTrips.report r⟩
  dumps := by simp [Client.Dumps, Client.Args.toy]

theorem ClientCase.toy (running : UInt8) (diskKey : String) :
    ClientCase Amd.toy Json.toy (.toy (genuineReport running)) (.toy diskKey)
      (.toy (genuineReport running)) .none where
  received := by
    have hnonce : (0 : UInt64) = (ReportData.ofBlock (Block.zero 64)).nonce := by decide
    refine ⟨.toy, _, Client.toy_received _ diskKey, genuineReport_genuine running,
      Expected.toy_met running ?_⟩
    exact Client.reportDataValidator_eq_ok.mpr hnonce
  available := VcekAccess.toy_available

theorem VerifyReport.decode_toy :
    decodeReportData Crates.toy .toy = .ok (Block.zero 64) := by
  have hraw : Crates.toy.base64DecodeNoPad (Bytes.ofString Args.toy.reportData) = some [] := rfl
  unfold decodeReportData
  rw [hraw, Outcome.ofOption_some, Outcome.bind_ok, dif_pos (by simp)]
  simp [Block.padded, Block.zero]

theorem VerifierCase.toy (running : UInt8) :
    VerifierCase Amd.toy Json.toy ⟨.toy (genuineReport running), .toy⟩ .toy
      (genuineReport running) (fun _ => none) where
  loaded := ⟨.toy, Block.zero 64, ⟨⟨_, rfl, Json.toy_roundTrips.report _⟩,
    Expected.toy_read _ _, VerifyReport.decode_toy⟩, genuineReport_genuine running,
    Expected.toy_met running rfl⟩
  available := VcekAccess.toy_available

/-- Once the update is committed, both accept. -/
theorem past_verification_committed :
    (∃ v t', Client.phase1 Json.toy Crates.toy (.toy (genuineReport 0)) (.toy "key") .none
        = (.ok v, t')) ∧
      ∃ cache', VerifyReport.run Json.toy Crates.toy ⟨.toy (genuineReport 0), .toy⟩ .toy
        (fun _ => none) = (.ok (), cache') := by
  obtain ⟨hclient, hverifier⟩ := past_verification_iff Amd.toy_laws
    (ClientCase.toy 0 "key") (VerifierCase.toy 0)
  have hsame : (genuineReport 0).committedTcb.Same (genuineReport 0).reportedTcb :=
    ⟨rfl, rfl, rfl, rfl⟩
  exact ⟨hclient.mpr hsame, hverifier.mpr hsame⟩

/-- Until then, both reject. -/
theorem rejected_until_committed :
    Amd.toy.Genuine .milan (genuineReport 1) ∧
      (genuineReport 1).reportedTcb.AtLeast (genuineReport 1).committedTcb ∧
      ClientCase Amd.toy Json.toy (.toy (genuineReport 1)) (.toy "key")
        (.toy (genuineReport 1)) .none ∧
      VerifierCase Amd.toy Json.toy ⟨.toy (genuineReport 1), .toy⟩ .toy (genuineReport 1)
        (fun _ => none) ∧
      (¬ ∃ v t', Client.phase1 Json.toy Crates.toy (.toy (genuineReport 1)) (.toy "key") .none
        = (.ok v, t')) ∧
      ¬ ∃ cache', VerifyReport.run Json.toy Crates.toy ⟨.toy (genuineReport 1), .toy⟩ .toy
        (fun _ => none) = (.ok (), cache') := by
  have hclient := ClientCase.toy 1 "key"
  have hverifier := VerifierCase.toy 1
  have hcommitted : (genuineReport 1).committedTcb = .default := rfl
  have hreported : (genuineReport 1).reportedTcb = { TcbVersion.default with microcode := 1 } :=
    rfl
  have hnot : ¬ (genuineReport 1).committedTcb.Same (genuineReport 1).reportedTcb := by
    intro hsame
    rw [hcommitted, hreported] at hsame
    exact absurd hsame.2.2.2 (by decide)
  refine ⟨genuineReport_genuine 1, ?_, hclient, hverifier, ?_, ?_⟩
  · rw [hcommitted, hreported]
    decide
  · intro hok
    exact hnot ((client_past_verification Amd.toy_laws hclient).mp hok)
  · intro hok
    exact hnot ((verifier_past_verification Amd.toy_laws hverifier).mp hok)

end SnpGuard
