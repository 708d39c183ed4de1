/-
ID blocks, from the generator to the check: `idblock_generator_main.rs`.

The generator computes the launch digest of a VM, has the `sev` crate sign an ID block over
it and writes ID block and auth block to two files, in bincode and in base64.  The verifiers
read the files back in another program, with `parse_id_block_data`, and compare the report
with what is in them.  `idBlock_check_iff` goes the whole way: what the generator wrote is
read back, and the check then passes for the reports of guests that were launched with these
blocks, and for no others.
-/
import SnpGuard.GetReport

namespace SnpGuard

/-! ### The generator -/

/-- `sev::measurement::idblock_types::IdMeasurements`. -/
structure IdMeasurements (Auth : Type) where
  idBlock : IdBlock
  idAuth : Auth
  idKeyDigest : Block 48
  authKeyDigest : Block 48

/-- The calls that only the generator makes. -/
structure GeneratorCrates (C : Crates) where
  /-- The whole of `IdAuth`: keys, algorithms and signatures. -/
  Auth : Type
  keys : Auth → IdAuth C.PubKey
  /-- `general_purpose::STANDARD.encode`. -/
  base64Encode : Bytes → Bytes
  /-- `bincode::serialize` of an `IdBlock`. -/
  serializeIdBlock : IdBlock → Option Bytes
  /-- `bincode::serialize` of an `IdAuth`. -/
  serializeIdAuth : Auth → Option Bytes
  /-- `bincode::deserialize` to a `FamilyId` or an `ImageId`. -/
  deserializeId : Block 16 → Option (Block 16)
  /-- `LargeArray::try_from`. -/
  largeArray : Block 48 → Option (Block 48)
  /-- `Vec::<u8>::try_from` on a key digest. -/
  digestToVec : Block 48 → Option Bytes
  /-- `snp_calculate_id`, which reads the keys from their files. -/
  snpCalculateId : (ld : Option (Block 48)) → (familyId imageId : Option (Block 16)) →
    (svn : Option UInt32) → (policy : Option UInt64) → (idKeyPath authKeyPath : String) →
    Option (IdMeasurements Auth)

namespace IdblockGenerator

structure Args where
  vmDefinition : String
  idKeyPath : String
  authKeyPath : String
  overrideKernelCmdline : Option String
  outDir : String

/-- What goes wrong when a file is created and written. -/
structure WriteFaults where
  creates : Bool
  /-- How many bytes `write_all` wrote before it failed, if it failed. -/
  failsAfter : Option Nat

structure Env where
  files : Files
  authBlock : WriteFaults
  idBlock : WriteFaults
  /-- `{:?}` of a path. -/
  debugPath : String → String

/-- What a run leaves behind. -/
structure Output where
  stdout : List String
  authBlock : Option Bytes
  idBlock : Option Bytes

variable (C : Crates) (G : GeneratorCrates C) (env : Env) (args : Args)

/-- The config with the command line that counts. -/
def readConfig : Outcome Whatever VMDescription := do
  let text ← Outcome.ofOption (env.files.readToString args.vmDefinition)
    ("failed to read config from " ++ args.vmDefinition)
  let vmDef ← Outcome.ofOption (env.files.toml text) "failed to parse config as toml"
  return vmDef.withCmdline args.overrideKernelCmdline

/-- `compute_id_block`. -/
def computeIdBlock (vmDef : VMDescription) (idKeyPath authKeyPath : String) :
    Outcome Whatever (IdMeasurements G.Auth) := do
  let expectedLd ← vmDef.computeExpectedHash C
  let ld ← Outcome.ofOption (G.largeArray expectedLd) "converting to id block digest failed"
  let familyId ← Outcome.ofOption (G.deserializeId vmDef.familyId)
    ("failed to deserizalize family id " ++ debugHex vmDef.familyId)
  let imageId ← Outcome.ofOption (G.deserializeId vmDef.imageId)
    ("failed to deserialize image id " ++ debugHex vmDef.imageId)
  Outcome.ofOption
    (G.snpCalculateId (some ld) (some familyId) (some imageId) none
      (some vmDef.guestPolicy.bits) idKeyPath authKeyPath)
    "idblock computation failed"

/-- `PathBuf::join` with a file name. -/
def joinPath (dir name : String) : String :=
  if dir = "" ∨ dir.toList.getLast? = some '/' then dir ++ name else dir ++ "/" ++ name

/-- `println!`. -/
def println (line : String) : Effect Output Whatever Unit :=
  Effect.modify fun out => { out with stdout := out.stdout ++ [line] }

/-- `File::create` and `write_all`. -/
def writeFile (faults : WriteFaults) (path : String) (content : Bytes) :
    Effect (Option Bytes) Whatever Unit := fun file =>
  if faults.creates then
    match faults.failsAfter with
    | none => (.ok (), some content)
    | some n => (Outcome.fail "", some (content.take n))
  else
    (Outcome.fail ("path " ++ env.debugPath path), file)

/-- What is printed of a text in base64. -/
def printed (text : Bytes) : String := (Bytes.toString? text).getD ""

/-- `run`. -/
def run : Effect Output Whatever Unit := do
  let vmDef ← Effect.lift (readConfig env args)
  let calculations ← Effect.lift (computeIdBlock C G vmDef args.idKeyPath args.authKeyPath)
  let idBlock ← Effect.lift (Outcome.ofOption (G.serializeIdBlock calculations.idBlock)
    "error serializing id_block to binary")
  let idKeyDigest ← Effect.lift (Outcome.ofOption (G.digestToVec calculations.idKeyDigest)
    "error serializing id_key_digest to binary")
  let authKeyDigest ← Effect.lift (Outcome.ofOption (G.digestToVec calculations.authKeyDigest)
    "error serializing auth_key_digest to binary")
  let authBlock ← Effect.lift (Outcome.ofOption (G.serializeIdAuth calculations.idAuth)
    "error serializing id_auth to binary")
  println ("id block: " ++ printed (G.base64Encode idBlock))
  println ("id key digest: " ++ printed (G.base64Encode idKeyDigest))
  println ("auth key digest: " ++ printed (G.base64Encode authKeyDigest))
  println ("writing id auth data basee64 encoded to " ++ args.outDir)
  -- The auth block is written first.
  Effect.zoom Output.authBlock (fun authBlock out => { out with authBlock })
    (writeFile env env.authBlock (joinPath args.outDir "auth-block.base64")
      (G.base64Encode authBlock))
  Effect.zoom Output.idBlock (fun idBlock out => { out with idBlock })
    (writeFile env env.idBlock (joinPath args.outDir "id-block.base64") (G.base64Encode idBlock))

variable {C G env args}

theorem writeFile_eq_ok {faults : WriteFaults} {path : String} {content : Bytes}
    {file file' : Option Bytes} {u : Unit}
    (h : writeFile env faults path content file = (.ok u, file')) : file' = some content := by
  unfold writeFile at h
  by_cases hcreates : faults.creates = true
  · cases hfails : faults.failsAfter with
    | none =>
        simp only [hcreates, hfails, if_true, Prod.mk.injEq] at h
        exact h.2.symm
    | some n => simp [hcreates, hfails] at h
  · simp [hcreates] at h

/-- **The two files hold the blocks that were computed.** -/
theorem run_eq_ok {out out' : Output} {u : Unit} (h : run C G env args out = (.ok u, out')) :
    ∃ vmDef m idBlock authBlock, readConfig env args = .ok vmDef ∧
      computeIdBlock C G vmDef args.idKeyPath args.authKeyPath = .ok m ∧
      G.serializeIdBlock m.idBlock = some idBlock ∧ G.serializeIdAuth m.idAuth = some authBlock ∧
      out'.idBlock = some (G.base64Encode idBlock) ∧
      out'.authBlock = some (G.base64Encode authBlock) := by
  unfold run at h
  simp only [Effect.ok_of_bind, Effect.lift_eq_ok, Outcome.ofOption_eq_ok,
    Effect.zoom_eq_ok] at h
  obtain ⟨vmDef, _, ⟨hconfig, rfl⟩, m, _, ⟨hcompute, rfl⟩, idBlock, _, ⟨hidBlock, rfl⟩, _, _,
    ⟨-, rfl⟩, _, _, ⟨-, rfl⟩, authBlock, _, ⟨hauthBlock, rfl⟩, _, _, -, _, _, -, _, _, -, _, _, -,
    _, _, ⟨authFile, hauth, rfl⟩, idFile, hid, rfl⟩ := h
  exact ⟨vmDef, m, idBlock, authBlock, hconfig, hcompute, hidBlock, hauthBlock,
    writeFile_eq_ok hid, writeFile_eq_ok hauth⟩

end IdblockGenerator

/-! ### What is relied on -/

/-- The defaults of an ID block, the keys in the key files and how a key lies in memory. -/
structure IdblockFacts (C : Crates) where
  version : UInt32
  guestSvn : UInt32
  /-- The public key to the private key in a file. -/
  publicKey : String → Option C.PubKey
  /-- The serialized public key structure. -/
  layout : C.PubKey → Bytes

variable {C : Crates}

/-- The ID block over a launch digest with the ids and the policy of a config. -/
def IdblockFacts.block (W : IdblockFacts C) (ld : Block 48) (vmDef : VMDescription) : IdBlock where
  launchDigest := ld
  familyId := vmDef.familyId
  imageId := vmDef.imageId
  version := W.version
  guestSvn := W.guestSvn
  policy := vmDef.guestPolicy.bits

structure GeneratorCrates.Laws (G : GeneratorCrates C) (W : IdblockFacts C) : Prop where
  base64 : ∀ bs, C.base64Decode (G.base64Encode bs) = some bs
  /-- `bincode` reads back what it wrote. -/
  idBlock : ∀ {b raw}, G.serializeIdBlock b = some raw → C.deserializeIdBlock raw = some b
  idAuth : ∀ {a raw}, G.serializeIdAuth a = some raw →
    C.deserializeIdAuth raw = some (G.keys a)
  /-- Byte arrays are written and read verbatim. -/
  writesId : ∀ id, C.serializeId id = some id.bytes
  readsId : ∀ id, G.deserializeId id = some id
  writesKey : ∀ key, C.serializePubKey key = some (W.layout key)
  digest : ∀ {ld ld'}, G.largeArray ld = some ld' → ld' = ld
  /-- What is given is copied into the blocks; without an SVN, the default one is. -/
  calculate : ∀ {ld familyId imageId policy idKey authKey m},
    G.snpCalculateId (some ld) (some familyId) (some imageId) none (some policy) idKey authKey
        = some m →
      m.idBlock = ⟨ld, familyId, imageId, W.version, W.guestSvn, policy⟩ ∧
        W.publicKey idKey = some (G.keys m.idAuth).idPubkey ∧
        W.publicKey authKey = some (G.keys m.idAuth).authorPubKey

/-- What the firmware puts in the reports of a guest that was launched with two blocks. -/
structure LaunchedWith (W : IdblockFacts C) (idBlock : IdBlock) (auth : IdAuth C.PubKey)
    (report : AttestationReport) : Prop where
  guestSvn : report.guestSvn = idBlock.guestSvn
  familyId : report.familyId = idBlock.familyId
  imageId : report.imageId = idBlock.imageId
  idKeyDigest : report.idKeyDigest = C.sha384 (W.layout auth.idPubkey)
  authorKeyDigest : report.authorKeyDigest = C.sha384 (W.layout auth.authorPubKey)
  policy : report.policy.bits = idBlock.policy
  measurement : report.measurement = idBlock.launchDigest

variable {G : GeneratorCrates C} {W : IdblockFacts C}

/-! ### Both sides -/

/-- The generator's block is the one over the config's digest, and its auth block has the two
public keys. -/
theorem IdblockGenerator.computeIdBlock_eq_ok (hG : G.Laws W) {vmDef : VMDescription}
    {idKeyPath authKeyPath : String} {m : IdMeasurements G.Auth}
    (h : computeIdBlock C G vmDef idKeyPath authKeyPath = .ok m) :
    ∃ ld, vmDef.computeExpectedHash C = .ok ld ∧ m.idBlock = W.block ld vmDef ∧
      W.publicKey idKeyPath = some (G.keys m.idAuth).idPubkey ∧
      W.publicKey authKeyPath = some (G.keys m.idAuth).authorPubKey := by
  unfold computeIdBlock at h
  simp only [Outcome.ok_of_bind, Outcome.ofOption_eq_ok] at h
  obtain ⟨ld, hld, ld', hld', familyId, hfamily, imageId, himage, hcalculate⟩ := h
  rw [hG.readsId, Option.some.injEq] at hfamily himage
  obtain ⟨hblock, hid, hauth⟩ := hG.calculate hcalculate
  refine ⟨ld, hld, ?_, hid, hauth⟩
  rw [hblock, hG.digest hld', ← hfamily, ← himage]
  rfl

theorem idBytes_eq (hG : G.Laws W) (id : Block 16) (name : String) :
    idBytes C id name = .ok id := by
  unfold idBytes
  rw [hG.writesId, Outcome.ofOption_some, Outcome.bind_ok, Block.ofBytes?_bytes,
    Outcome.ofOption_some]

theorem pubkeyToIdBlockDigest_eq (hG : G.Laws W) (key : C.PubKey) :
    pubkeyToIdBlockDigest C key = .ok (C.sha384 (W.layout key)) := by
  unfold pubkeyToIdBlockDigest
  rw [hG.writesKey]
  rfl

/-- The data that the report is compared with. -/
def reportDataOf (W : IdblockFacts C) (idBlock : IdBlock) (auth : IdAuth C.PubKey) :
    IDBLockReportData where
  guestSvn := idBlock.guestSvn
  fId := idBlock.familyId
  iId := idBlock.imageId
  idKeyDigest := C.sha384 (W.layout auth.idPubkey)
  authorKeyDigest := C.sha384 (W.layout auth.authorPubKey)

theorem IDBLockReportData.tryFrom_eq (hG : G.Laws W) (idBlock : IdBlock)
    (auth : IdAuth C.PubKey) :
    IDBLockReportData.tryFrom C idBlock auth = .ok (reportDataOf W idBlock auth) := by
  unfold IDBLockReportData.tryFrom
  rw [idBytes_eq hG, idBytes_eq hG, pubkeyToIdBlockDigest_eq hG, pubkeyToIdBlockDigest_eq hG]
  rfl

/-- **The verifier reads back the blocks that were written.** -/
theorem parseIdBlockData_encode (hG : G.Laws W) {idBlock : IdBlock} {auth : G.Auth}
    {idRaw authRaw : Bytes} (hid : G.serializeIdBlock idBlock = some idRaw)
    (hauth : G.serializeIdAuth auth = some authRaw) :
    parseIdBlockData C (G.base64Encode idRaw) (G.base64Encode authRaw)
      = .ok (idBlock, G.keys auth, reportDataOf W idBlock (G.keys auth)) := by
  unfold parseIdBlockData
  simp only [hG.base64, Outcome.ofOption_some, Outcome.bind_ok, hG.idBlock hid, hG.idAuth hauth,
    IDBLockReportData.tryFrom_eq hG]
  rfl

/-- The check compares with what a launch with these blocks puts in the report. -/
theorem check_iff_launched {idBlock : IdBlock} {auth : IdAuth C.PubKey}
    {report : AttestationReport} {tcb : Option TcbVersion} {platInfo : Option PlatformInfo}
    {validator : Option ReportDataValidator} {hostData : Option (Block 32)}
    (hrest : checkReportData report none none tcb platInfo validator hostData none = .ok ()) :
    checkReportData report (some (reportDataOf W idBlock auth)) (some ⟨idBlock.policy⟩) tcb
        platInfo validator hostData (some idBlock.launchDigest) = .ok () ↔
      LaunchedWith W idBlock auth report := by
  have hmeets := checkReportData_eq_ok.mp hrest
  rw [checkReportData_eq_ok]
  refine ⟨?_, ?_⟩
  · intro h
    have hmatches := h.idblock _ rfl
    exact ⟨hmatches.guestSvn, hmatches.familyId, hmatches.imageId, hmatches.idKeyDigest,
      hmatches.authorKeyDigest, h.policy _ rfl, h.ld _ rfl⟩
  · intro h
    refine ⟨?_, ?_, hmeets.tcb, hmeets.platInfo, hmeets.reportData, hmeets.hostData, ?_⟩
    · rintro _ ⟨⟩
      exact h.policy
    · rintro _ ⟨⟩
      exact ⟨h.guestSvn, h.familyId, h.imageId, h.idKeyDigest, h.authorKeyDigest⟩
    · rintro _ ⟨⟩
      exact h.measurement

/-- **From the generator to the check.**  The blocks that the generator wrote are read back.
They are the ones for the config and the two keys, and with what was read, the config's policy
and its digest the check passes exactly for the reports of a guest launched with them. -/
theorem idBlock_check_iff (hG : G.Laws W) {env : IdblockGenerator.Env}
    {args : IdblockGenerator.Args} {out out' : IdblockGenerator.Output}
    (hrun : IdblockGenerator.run C G env args out = (.ok (), out')) :
    ∃ vmDef ld auth data idFile authFile,
      IdblockGenerator.readConfig env args = .ok vmDef ∧
      vmDef.computeExpectedHash C = .ok ld ∧
      out'.idBlock = some idFile ∧ out'.authBlock = some authFile ∧
      parseIdBlockData C idFile authFile = .ok (W.block ld vmDef, auth, data) ∧
      W.publicKey args.idKeyPath = some auth.idPubkey ∧
      W.publicKey args.authKeyPath = some auth.authorPubKey ∧
      ∀ report tcb platInfo validator hostData,
        checkReportData report none none tcb platInfo validator hostData none = .ok () →
        (checkReportData report (some data) (some vmDef.guestPolicy) tcb platInfo validator
            hostData (some ld) = .ok () ↔ LaunchedWith W (W.block ld vmDef) auth report) := by
  obtain ⟨vmDef, m, idRaw, authRaw, hconfig, hcompute, hid, hauth, hidFile, hauthFile⟩ :=
    IdblockGenerator.run_eq_ok hrun
  obtain ⟨ld, hld, hblock, hidKey, hauthKey⟩ :=
    IdblockGenerator.computeIdBlock_eq_ok hG hcompute
  have hparse := parseIdBlockData_encode hG hid hauth
  rw [hblock] at hparse
  refine ⟨vmDef, ld, G.keys m.idAuth, _, _, _, hconfig, hld, hidFile, hauthFile, hparse, hidKey,
    hauthKey, ?_⟩
  intro report tcb platInfo validator hostData hrest
  exact check_iff_launched hrest

/-! ### A generated block -/

/-- An ID block in `bincode`: the arrays verbatim, the integers in little-endian. -/
def idBlockFormat : Format IdBlock :=
  ((Format.block 48).pair ((Format.block 16).pair ((Format.block 16).pair
    (Format.u32.pair (Format.u32.pair Format.u64))))).iso
    ⟨fun p => ⟨p.1, p.2.1, p.2.2.1, p.2.2.2.1, p.2.2.2.2.1, p.2.2.2.2.2⟩,
      fun b => (b.launchDigest, b.familyId, b.imageId, b.version, b.guestSvn, b.policy),
      fun _ => rfl, fun _ => rfl⟩

def idAuthFormat : Format (IdAuth Bytes) :=
  (Format.bytes.pair Format.bytes).iso
    ⟨fun p => ⟨p.1, p.2⟩, fun a => (a.idPubkey, a.authorPubKey), fun _ => rfl, fun _ => rfl⟩

/-- Crates whose base64 and whose ID blocks are the real ones. -/
def Crates.toyIdblock : Crates :=
  { Crates.toyBase64 with
    deserializeIdBlock := idBlockFormat.codec.decode
    deserializeIdAuth := idAuthFormat.codec.decode }

/-- The public key to the key in a file is the path of the file. -/
def IdblockFacts.toy : IdblockFacts Crates.toyIdblock where
  version := 1
  guestSvn := 0
  publicKey path := some (Bytes.ofString path)
  layout key := key

def GeneratorCrates.toy : GeneratorCrates Crates.toyIdblock where
  Auth := IdAuth Bytes
  keys a := a
  base64Encode := Base64.encode
  serializeIdBlock b := some (idBlockFormat.codec.encode b)
  serializeIdAuth a := some (idAuthFormat.codec.encode a)
  deserializeId id := some id
  largeArray ld := some ld
  digestToVec digest := some digest.bytes
  snpCalculateId ld familyId imageId svn policy idKey authKey := do
    let ld ← ld
    let familyId ← familyId
    let imageId ← imageId
    let policy ← policy
    let auth : IdAuth Bytes := ⟨Bytes.ofString idKey, Bytes.ofString authKey⟩
    return ⟨⟨ld, familyId, imageId, 1, svn.getD 0, policy⟩, auth, Block.zero 48, Block.zero 48⟩

theorem GeneratorCrates.toy_laws : GeneratorCrates.toy.Laws .toy where
  base64 := Base64.decode_encode
  idBlock {b raw} h := by
    cases h
    exact idBlockFormat.codec_roundTrip b
  idAuth {a raw} h := by
    cases h
    exact idAuthFormat.codec_roundTrip a
  writesId _ := rfl
  readsId _ := rfl
  writesKey _ := rfl
  digest h := by
    cases h
    rfl
  calculate h := by
    cases h
    exact ⟨rfl, rfl, rfl⟩

def IdblockGenerator.Env.toy : Env where
  files := .toy .default
  authBlock := ⟨true, none⟩
  idBlock := ⟨true, none⟩
  debugPath path := "\"" ++ path ++ "\""

def IdblockGenerator.Args.toy : Args := ⟨"vm-config.toml", "id.pem", "author.pem", none, "./"⟩

theorem IdblockGenerator.toy_run :
    ∃ out, run Crates.toyIdblock .toy .toy .toy ⟨[], none, none⟩ = (.ok (), out) :=
  Effect.exists_of_fst rfl

/-- With the generated blocks the check passes for a guest that was launched with them. -/
theorem idBlock_check_iff_toy :
    ∃ out idFile authFile block auth data,
      IdblockGenerator.run Crates.toyIdblock .toy .toy .toy ⟨[], none, none⟩ = (.ok (), out) ∧
      out.idBlock = some idFile ∧ out.authBlock = some authFile ∧
      parseIdBlockData Crates.toyIdblock idFile authFile = .ok (block, auth, data) ∧
      checkReportData .default (some data) (some ⟨0⟩) none none none none (some (Block.zero 48))
        = .ok () := by
  obtain ⟨out, hrun⟩ := IdblockGenerator.toy_run
  obtain ⟨vmDef, ld, auth, data, idFile, authFile, hconfig, hld, hid, hauth, hparse, -, -,
    hcheck⟩ := idBlock_check_iff GeneratorCrates.toy_laws hrun
  cases hconfig
  cases hld
  refine ⟨out, idFile, authFile, _, auth, data, hrun, hid, hauth, hparse, ?_⟩
  exact (hcheck .default none none none none rfl).mpr ⟨rfl, rfl, rfl, rfl, rfl, rfl, rfl⟩

end SnpGuard
