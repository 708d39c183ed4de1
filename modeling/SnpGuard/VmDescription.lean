/-
The VM description and the crates around it: `calc_expected_ld.rs`.

`VMDescription` is the user's config file after TOML.  `compute_expected_hash` hands
its boot components and its command line to the `sev` crate, which computes the
launch digest.  `Crates` lists the calls into `sev`, `openssl`, `base64` and
`bincode` that this and the report check make.
-/
import SnpGuard.Report

namespace SnpGuard

/-- Describes the CPU generation. -/
inductive ProductName where
  | milan
  | genoa
deriving DecidableEq

/-- `Display for ProductName`. -/
def ProductName.display : ProductName → String
  | .milan => "Milan"
  | .genoa => "Genoa"

structure VMDescription where
  hostCpuFamily : ProductName
  vcpuCount : UInt32
  ovmfFile : String
  guestFeatures : UInt64
  kernelFile : String
  initrdFile : String
  kernelCmdline : String
  platformInfo : PlatformInfo
  minCommitedTcb : TcbVersion
  guestPolicy : GuestPolicy
  familyId : Block 16
  imageId : Block 16
deriving DecidableEq

/-- `sev::measurement::vcpu_types::CpuType`, as far as it is used. -/
inductive CpuType where
  | epycV4
deriving DecidableEq

/-- `sev::measurement::vmsa::VMMType`, as far as it is used. -/
inductive VMMType where
  | qemu
deriving DecidableEq

/-- `sev::measurement::snp::SnpMeasurementArgs`. -/
structure SnpMeasurementArgs where
  vcpus : UInt32
  vcpuType : CpuType
  ovmfFile : String
  guestFeatures : UInt64
  kernelFile : Option String
  initrdFile : Option String
  append : Option String
  ovmfHashStr : Option String
  vmmType : Option VMMType
deriving DecidableEq

/-- `sev::measurement::idblock_types::IdBlock`. -/
structure IdBlock where
  launchDigest : Block 48
  familyId : Block 16
  imageId : Block 16
  version : UInt32
  guestSvn : UInt32
  policy : UInt64
deriving DecidableEq

/-- `sev::measurement::idblock_types::IdAuth`: the two public keys in it. -/
structure IdAuth (PubKey : Type) where
  idPubkey : PubKey
  authorPubKey : PubKey

/-- The calls into the crates that compute, parse and verify. -/
structure Crates where
  /-- `sev::certs::snp::Certificate`. -/
  Certificate : Type
  /-- `SevEcdsaPubKey`. -/
  PubKey : Type
  /-- `Certificate::from_bytes`, where it returns `Ok`; on a few bytes it panics. -/
  certificateFromBytes : Bytes → Option Certificate
  /-- `milan::ark()` and `genoa::ark()`. -/
  ark : ProductName → Option Certificate
  /-- `milan::ask()` and `genoa::ask()`. -/
  ask : ProductName → Option Certificate
  /-- `(&Chain { ca: ca::Chain { ark, ask }, vek }, report).verify()`. -/
  verify : (ark ask vek : Certificate) → AttestationReport → Bool
  /-- `snp_calc_launch_digest`. -/
  snpCalcLaunchDigest : SnpMeasurementArgs → Option (Block 48)
  /-- `general_purpose::STANDARD.decode`. -/
  base64Decode : Bytes → Option Bytes
  /-- `general_purpose::STANDARD_NO_PAD.decode`. -/
  base64DecodeNoPad : Bytes → Option Bytes
  /-- `bincode::deserialize` to an `IdBlock`. -/
  deserializeIdBlock : Bytes → Option IdBlock
  /-- `bincode::deserialize` to an `IdAuth`. -/
  deserializeIdAuth : Bytes → Option (IdAuth PubKey)
  /-- `bincode::serialize` of a `FamilyId` or an `ImageId`. -/
  serializeId : Block 16 → Option Bytes
  /-- `bincode::serialize` of a public key. -/
  serializePubKey : PubKey → Option Bytes
  /-- `openssl::sha::sha384`. -/
  sha384 : Bytes → Block 48

/-- Crates that can be evaluated: a certificate is a text, and a signature the text of
the certificate that it verifies under. -/
def Crates.toy : Crates where
  Certificate := String
  PubKey := Bytes
  certificateFromBytes bs := (Bytes.toString? bs).filter (· ≠ "")
  ark _ := some ""
  ask _ := some ""
  verify _ _ vek report := report.signature = Bytes.ofString vek
  snpCalcLaunchDigest _ := some (Block.zero 48)
  base64Decode := some
  base64DecodeNoPad := some
  deserializeIdBlock _ := none
  deserializeIdAuth _ := none
  serializeId id := some id.bytes
  serializePubKey := some
  sha384 _ := Block.zero 48

namespace VMDescription

/-- What `compute_expected_hash` asks to be measured. -/
def measurementArgs (d : VMDescription) : SnpMeasurementArgs where
  vcpus := d.vcpuCount
  vcpuType := .epycV4
  ovmfFile := d.ovmfFile
  guestFeatures := d.guestFeatures
  kernelFile := some d.kernelFile
  initrdFile := some d.initrdFile
  append := if d.kernelCmdline ≠ "" then some d.kernelCmdline else none
  ovmfHashStr := none
  vmmType := some .qemu

/-- A VM of which nothing is expected but that it has one virtual CPU. -/
def toy : VMDescription where
  hostCpuFamily := .milan
  vcpuCount := 1
  ovmfFile := ""
  guestFeatures := 0
  kernelFile := ""
  initrdFile := ""
  kernelCmdline := ""
  platformInfo := ⟨0⟩
  minCommitedTcb := .default
  guestPolicy := ⟨0⟩
  familyId := Block.zero 16
  imageId := Block.zero 16

/-- `compute_expected_hash`. -/
def computeExpectedHash (C : Crates) (d : VMDescription) : Outcome Whatever (Block 48) :=
  Outcome.ofOption (C.snpCalcLaunchDigest d.measurementArgs) "failed to compute launch digest"

end VMDescription

end SnpGuard
