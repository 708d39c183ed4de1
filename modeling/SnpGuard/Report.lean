/-
Attestation reports and the data bound to them: `snp_attestation.rs`.

A report carries 64 bytes that the guest chose.  The server puts the client's nonce
and its own public key there; the client reads both back.  Encoder and decoder are
written separately in the source, a vector grown and resized against fixed slices,
and `ReportData.ofBlock_encode` is where they meet.

Of the report, the fields that the code or the signature check reads are kept.
-/
import SnpGuard.Lib.Bytes
import SnpGuard.Lib.Outcome

namespace SnpGuard

/-! ### Reports -/

/-- `sev::firmware::host::TcbVersion`. -/
structure TcbVersion where
  bootloader : UInt8
  tee : UInt8
  snp : UInt8
  microcode : UInt8
  reserved : Block 4
deriving DecidableEq

/-- The same version of every component; the reserved bytes do not count. -/
def TcbVersion.Same (a b : TcbVersion) : Prop :=
  a.bootloader = b.bootloader ∧ a.tee = b.tee ∧ a.snp = b.snp ∧ a.microcode = b.microcode

/-- `GuestPolicy`, a wrapped `u64`. -/
structure GuestPolicy where
  bits : UInt64
deriving DecidableEq

/-- `PlatformInfo`, a wrapped `u64`. -/
structure PlatformInfo where
  bits : UInt64
deriving DecidableEq

/-- `sev::firmware::guest::AttestationReport`. -/
structure AttestationReport where
  guestSvn : UInt32
  policy : GuestPolicy
  familyId : Block 16
  imageId : Block 16
  platInfo : PlatformInfo
  reportData : Block 64
  measurement : Block 48
  hostData : Block 32
  idKeyDigest : Block 48
  authorKeyDigest : Block 48
  reportedTcb : TcbVersion
  committedTcb : TcbVersion
  chipId : Block 64
  signature : Bytes
deriving DecidableEq

/-- `TcbVersion::default()`. -/
def TcbVersion.default : TcbVersion := ⟨0, 0, 0, 0, Block.zero 4⟩

/-- `AttestationReport::default()`. -/
def AttestationReport.default : AttestationReport where
  guestSvn := 0
  policy := ⟨0⟩
  familyId := Block.zero 16
  imageId := Block.zero 16
  platInfo := ⟨0⟩
  reportData := Block.zero 64
  measurement := Block.zero 48
  hostData := Block.zero 32
  idKeyDigest := Block.zero 48
  authorKeyDigest := Block.zero 48
  reportedTcb := .default
  committedTcb := .default
  chipId := Block.zero 64
  signature := []

/-! ### Report data -/

structure ReportData where
  nonce : UInt64
  serverPublicKey : Block 32
deriving DecidableEq

namespace ReportData

/-- `Vec::resize`. -/
def resize (bs : Bytes) (n : Nat) : Bytes := bs.take n ++ List.replicate (n - bs.length) 0

/-- `Into<[u8; 64]> for ReportData`. -/
def into {ε : Type} (d : ReportData) : Outcome ε (Block 64) :=
  let inData := (Bytes.u64ToLE d.nonce).bytes ++ d.serverPublicKey.bytes
  if inData.length < 64 then
    match Block.ofBytes? 64 (resize inData 64) with
    | some out => .ok out
    | none => Outcome.crash "failed to convert user data to fixed size slice"
  else
    Outcome.crash "assertion failed: in_data.len() < OUT_LEN"

/-- `From<[u8; 64]> for ReportData`. -/
def ofBlock (value : Block 64) : ReportData where
  nonce := Bytes.u64OfLE (Block.slice value.bytes 0 8 (by simp))
  serverPublicKey := Block.slice value.bytes 8 32 (by simp)

/-- The 64 bytes of a nonce and a key: the nonce, the key and 24 zero bytes. -/
def encode (d : ReportData) : Block 64 :=
  ⟨(Bytes.u64ToLE d.nonce).bytes ++ d.serverPublicKey.bytes ++ List.replicate 24 0, by simp⟩

/-- **Encoding passes its assertion and its conversion.** -/
@[simp] theorem into_eq {ε : Type} (d : ReportData) :
    (d.into : Outcome ε (Block 64)) = .ok d.encode := by
  have hlen : ((Bytes.u64ToLE d.nonce).bytes ++ d.serverPublicKey.bytes).length = 40 := by simp
  have hresize : resize ((Bytes.u64ToLE d.nonce).bytes ++ d.serverPublicKey.bytes) 64
      = d.encode.bytes := by
    unfold resize encode
    rw [List.take_of_length_le (by omega), hlen]
  unfold into
  simp only [hlen, hresize, Block.ofBytes?_bytes]
  rfl

/-- **Decoding an encoding gives the nonce and the key back.** -/
@[simp] theorem ofBlock_encode (d : ReportData) : ofBlock d.encode = d := by
  have hnonce : Block.slice d.encode.bytes 0 8 (by simp) = Bytes.u64ToLE d.nonce := by
    apply Block.ext
    simp only [Block.slice, encode, List.drop_zero, List.append_assoc]
    exact List.take_left' (by simp)
  have hkey : Block.slice d.encode.bytes 8 32 (by simp) = d.serverPublicKey := by
    apply Block.ext
    simp only [Block.slice, encode, List.append_assoc]
    rw [List.drop_left' (by simp), List.take_left' (by simp)]
  unfold ofBlock
  rw [hnonce, hkey, Bytes.u64OfLE_toLE]

theorem encode_injective {d d' : ReportData} (h : d.encode = d'.encode) : d = d' := by
  rw [← ofBlock_encode d, h, ofBlock_encode]

/-- **What is read out of 64 bytes encodes to them exactly if the rest of them is zero.** -/
theorem encode_ofBlock_iff {b : Block 64} :
    (ofBlock b).encode = b ↔ b.bytes.drop 40 = List.replicate 24 0 := by
  have hbytes : (ofBlock b).encode.bytes = b.bytes.take 40 ++ List.replicate 24 0 := by
    have hfirst : b.bytes.take 8 ++ (b.bytes.drop 8).take 32 = b.bytes.take 40 :=
      List.take_add.symm
    simp only [encode, ofBlock, Bytes.u64ToLE_ofLE, Block.slice, List.drop_zero, hfirst]
  refine ⟨?_, ?_⟩
  · intro h
    rw [h] at hbytes
    rw [hbytes, List.drop_left' (by simp)]
  · intro h
    apply Block.ext
    rw [hbytes, ← h, List.take_append_drop]

end ReportData

/-! ### Asking for a report -/

/-- `sev::error::UserApiError`, by its message. -/
abbrev UserApiError := String

/-- `Firmware::open()` and `get_report(None, Some(data), None)`. -/
abbrev Firmware := Block 64 → Except UserApiError AttestationReport

/-- The firmware copies the guest's 64 bytes into the report. -/
def Firmware.Binds (fw : Firmware) : Prop :=
  ∀ {data r}, fw data = .ok r → r.reportData = data

/-- A firmware that reports nothing but the guest's data. -/
def Firmware.toy : Firmware := fun data => .ok { AttestationReport.default with reportData := data }

/-- A firmware call, seen from Rust code. -/
def Firmware.call (fw : Firmware) (data : Block 64) : Outcome UserApiError AttestationReport :=
  match fw data with
  | .ok r => .ok r
  | .error e => Outcome.fail e

@[simp] theorem Firmware.call_eq_ok {fw : Firmware} {data : Block 64} {r : AttestationReport} :
    fw.call data = .ok r ↔ fw data = .ok r := by
  unfold Firmware.call
  cases fw data <;> simp

@[simp] theorem Firmware.call_isPanic (fw : Firmware) (data : Block 64) :
    (fw.call data).isPanic = false := by
  unfold Firmware.call
  cases fw data <;> rfl

/-- `MockSNPAttestation::get_report`. -/
def MockSNPAttestation.getReport (nonce : UInt64) (serverPublicKey : Block 32) :
    Outcome UserApiError AttestationReport := do
  let data ← (ReportData.mk nonce serverPublicKey).into
  return { AttestationReport.default with reportData := data }

/-- `SNPAttestation::get_report`. -/
def SNPAttestation.getReport (fw : Firmware) (nonce : UInt64) (serverPublicKey : Block 32) :
    Outcome UserApiError AttestationReport := do
  let data ← (ReportData.mk nonce serverPublicKey).into
  fw.call data

theorem SNPAttestation.getReport_eq_ok {fw : Firmware} {n : UInt64} {k : Block 32}
    {r : AttestationReport} :
    getReport fw n k = .ok r ↔ fw (ReportData.mk n k).encode = .ok r := by
  simp [getReport]

theorem MockSNPAttestation.getReport_eq (n : UInt64) (k : Block 32) :
    getReport n k
      = .ok { AttestationReport.default with reportData := (ReportData.mk n k).encode } := by
  simp [getReport]

end SnpGuard
