/-
What travels between client and server, as JSON.

`serde_json` writes and reads three types here.  What the code relies on is that
reading undoes writing, which is `Json.RoundTrips`; how a value is spelled matters
to nobody but the two ends.  `Json.toy` spells them in the formats of
`SnpGuard/Lib/Format.lean`, so that runs can be evaluated.
-/
import SnpGuard.Lib.Format
import SnpGuard.Report
import SnpGuard.ReqResp

namespace SnpGuard

/-- `serde_json` on the types that travel. -/
structure Json where
  attestationRequest : Codec AttestationRequest
  wrappedDiskKey : Codec WrappedDiskKey
  report : Codec AttestationReport
  /-- `serde_json::to_writer_pretty`. -/
  reportPretty : AttestationReport → Bytes

namespace Json

/-- Reading gives back what was written. -/
structure RoundTrips (J : Json) : Prop where
  attestationRequest : J.attestationRequest.RoundTrip
  wrappedDiskKey : J.wrappedDiskKey.RoundTrip
  report : J.report.RoundTrip
  reportPretty : ∀ r, J.report.decode (J.reportPretty r) = some r

/-! ### An instance -/

def toyAttestationRequest : Format AttestationRequest :=
  Format.u64.iso ⟨fun n => ⟨n⟩, fun r => r.nonce, fun _ => rfl, fun _ => rfl⟩

def toyWrappedDiskKey : Format WrappedDiskKey :=
  (Format.bytes.pair (Format.block 32)).iso
    ⟨fun p => ⟨p.1, p.2⟩, fun w => (w.wrappedDiskKey, w.clientPublicKey), fun _ => rfl,
      fun _ => rfl⟩

def toyTcbVersion : Format TcbVersion :=
  (Format.byte.pair (Format.byte.pair (Format.byte.pair (Format.byte.pair (Format.block 4))))).iso
    ⟨fun p => ⟨p.1, p.2.1, p.2.2.1, p.2.2.2.1, p.2.2.2.2⟩,
      fun t => (t.bootloader, t.tee, t.snp, t.microcode, t.reserved), fun _ => rfl, fun _ => rfl⟩

def toyGuestPolicy : Format GuestPolicy :=
  Format.u64.iso ⟨fun n => ⟨n⟩, fun p => p.bits, fun _ => rfl, fun _ => rfl⟩

def toyPlatformInfo : Format PlatformInfo :=
  Format.u64.iso ⟨fun n => ⟨n⟩, fun p => p.bits, fun _ => rfl, fun _ => rfl⟩

/-- The fields of a report, in their order. -/
def reportFields : AttestationReport ≃
    UInt32 × GuestPolicy × Block 16 × Block 16 × PlatformInfo × Block 64 × Block 48 × Block 32 ×
      Block 48 × Block 48 × TcbVersion × TcbVersion × Block 64 × Bytes where
  toFun r := (r.guestSvn, r.policy, r.familyId, r.imageId, r.platInfo, r.reportData,
    r.measurement, r.hostData, r.idKeyDigest, r.authorKeyDigest, r.reportedTcb, r.committedTcb,
    r.chipId, r.signature)
  invFun := fun (svn, policy, family, image, plat, data, meas, host, idKey, author, reported,
    committed, chip, signature) => ⟨svn, policy, family, image, plat, data, meas, host, idKey,
      author, reported, committed, chip, signature⟩
  left_inv _ := rfl
  right_inv _ := rfl

def toyReport : Format AttestationReport :=
  (Format.u32.pair (toyGuestPolicy.pair ((Format.block 16).pair ((Format.block 16).pair
    (toyPlatformInfo.pair ((Format.block 64).pair ((Format.block 48).pair ((Format.block 32).pair
      ((Format.block 48).pair ((Format.block 48).pair (toyTcbVersion.pair (toyTcbVersion.pair
        ((Format.block 64).pair Format.bytes))))))))))))).iso reportFields.symm

def toy : Json where
  attestationRequest := toyAttestationRequest.codec
  wrappedDiskKey := toyWrappedDiskKey.codec
  report := toyReport.codec
  reportPretty := toyReport.write

theorem toy_roundTrips : toy.RoundTrips where
  attestationRequest := Format.codec_roundTrip _
  wrappedDiskKey := Format.codec_roundTrip _
  report := Format.codec_roundTrip _
  reportPretty := Format.codec_roundTrip _

/-- A report starts with its SVN, four bytes of it. -/
theorem toyReport_length (r : AttestationReport) : 4 ≤ (toyReport.write r).length := by
  show 4 ≤ ((Bytes.u32ToLE r.guestSvn).bytes ++ _).length
  rw [List.length_append, Block.length_eq]
  omega

/-- What is too short for a report is not read as one. -/
theorem toy_report_decode_short {bs : Bytes} (h : bs.length < 4) :
    toy.report.decode bs = none := by
  refine Format.codec_decode_eq_none _ fun r hr => ?_
  have hlen := toyReport_length r
  rw [hr] at hlen
  omega

end Json

end SnpGuard
