/-
Where the VCEK certificate comes from: `CachingVCEKDownloader` in
`snp_validate_report.rs`.

A certificate is looked up in the cache folder under a file name made of product,
chip id and TCB version; when there is no such file it is downloaded from AMD's key
distribution service, under a URL made of the same three, and stored.  This file has
one call that nobody interferes with; `SnpGuard/VcekCache.lean` has any number of
them at once.
-/
import Mathlib.Logic.Function.Basic
import SnpGuard.Lib.Effect
import SnpGuard.Lib.Text
import SnpGuard.VmDescription

namespace SnpGuard

/-- What an HTTP request comes back with; the body can fail to arrive. -/
inductive HttpResult where
  | failed
  | response (status : Nat) (body : Option Bytes)
deriving DecidableEq

/-- The files of a folder by name. -/
abbrev Folder := String → Option Bytes

/-- What goes wrong with the files during one call. -/
structure FileFaults where
  /-- `File::open` fails, and not because there is no file. -/
  openFails : Bool
  readFails : Bool
  createFails : Bool
  /-- How many bytes `write_all` wrote before it failed, if it failed. -/
  writeFailsAfter : Option Nat
deriving DecidableEq

/-- Nothing goes wrong. -/
def FileFaults.none : FileFaults := ⟨false, false, false, .none⟩

structure CachingVCEKDownloader where
  cacheFolderPath : String

/-! ### Names -/

/-- `filename_for_vcek`. -/
def filenameForVcek (chipId : Block 64) (productName : ProductName) (tcb : TcbVersion) : String :=
  productName.display ++ "-" ++ Bytes.hexEncode chipId.bytes ++
    "-bl-" ++ toString tcb.bootloader.toNat ++ "-tee-" ++ toString tcb.tee.toNat ++
    "-snp-" ++ toString tcb.snp.toNat ++ "-ucode-" ++ toString tcb.microcode.toNat ++ ".crt"

/-- The URL `download_vceck_cert` requests. -/
def vcekUrl (chipId : Block 64) (productName : ProductName) (tcb : TcbVersion) : String :=
  "https://kdsintf.amd.com/vcek/v1/" ++ productName.display ++ "/" ++
    Bytes.hexEncode chipId.bytes ++
    "?blSPL=" ++ toString tcb.bootloader.toNat ++ "&teeSPL=" ++ toString tcb.tee.toNat ++
    "&snpSPL=" ++ toString tcb.snp.toNat ++ "&ucodeSPL=" ++ toString tcb.microcode.toNat

/-- The reserved bytes of a TCB version name no certificate. -/
theorem vcekUrl_same {chipId : Block 64} {productName : ProductName} {a b : TcbVersion}
    (h : a.Same b) : vcekUrl chipId productName a = vcekUrl chipId productName b := by
  obtain ⟨hbl, htee, hsnp, hucode⟩ := h
  unfold vcekUrl
  rw [hbl, htee, hsnp, hucode]

theorem filenameForVcek_same {chipId : Block 64} {productName : ProductName} {a b : TcbVersion}
    (h : a.Same b) :
    filenameForVcek chipId productName a = filenameForVcek chipId productName b := by
  obtain ⟨hbl, htee, hsnp, hucode⟩ := h
  unfold filenameForVcek
  rw [hbl, htee, hsnp, hucode]

/-- The fields of a name are read off one after the other: the product and the chip id
have a fixed length, and each number but the last ends before a character that is no digit. -/
theorem fields_injective {s0 s1 s2 s3 s4 s5 : List Char} {c2 c3 c4 : Char}
    (h2 : c2.isDigit = false) (h3 : c3.isDigit = false) (h4 : c4.isDigit = false)
    {p p' : ProductName} {chip chip' : Block 64} {a b : TcbVersion}
    (h : p.display.toList ++ (s0 ++ ((Bytes.hexEncode chip.bytes).toList ++ (s1 ++
        ((toString a.bootloader.toNat).toList ++ c2 :: (s2 ++
          ((toString a.tee.toNat).toList ++ c3 :: (s3 ++
            ((toString a.snp.toNat).toList ++ c4 :: (s4 ++
              ((toString a.microcode.toNat).toList ++ s5))))))))))
      = p'.display.toList ++ (s0 ++ ((Bytes.hexEncode chip'.bytes).toList ++ (s1 ++
        ((toString b.bootloader.toNat).toList ++ c2 :: (s2 ++
          ((toString b.tee.toNat).toList ++ c3 :: (s3 ++
            ((toString b.snp.toNat).toList ++ c4 :: (s4 ++
              ((toString b.microcode.toNat).toList ++ s5))))))))))) :
    chip = chip' ∧ p = p' ∧ a.Same b := by
  have hproduct : p.display.toList.length = p'.display.toList.length := by
    cases p <;> cases p' <;> rfl
  obtain ⟨hp, h⟩ := List.append_inj h hproduct
  have hhex : (Bytes.hexEncode chip.bytes).toList.length
      = (Bytes.hexEncode chip'.bytes).toList.length := by
    rw [Bytes.length_hexEncode, Bytes.length_hexEncode, chip.length_eq, chip'.length_eq]
  obtain ⟨hchip, h⟩ := List.append_inj (List.append_cancel_left h) hhex
  obtain ⟨hbl, h⟩ := Text.toString_append_inj h2 (List.append_cancel_left h)
  obtain ⟨htee, h⟩ := Text.toString_append_inj h3 (List.append_cancel_left h)
  obtain ⟨hsnp, h⟩ := Text.toString_append_inj h4 (List.append_cancel_left h)
  have hucode := Nat.repr_injective (String.toList_injective
    (List.append_cancel_right (List.append_cancel_left h)))
  refine ⟨Block.ext (Bytes.hexEncode_injective hchip), ?_, UInt8.toNat_inj.mp hbl,
    UInt8.toNat_inj.mp htee, UInt8.toNat_inj.mp hsnp, UInt8.toNat_inj.mp hucode⟩
  cases p with
  | milan => cases p' with
    | milan => rfl
    | genoa => exact absurd hp (by decide)
  | genoa => cases p' with
    | milan => exact absurd hp (by decide)
    | genoa => rfl

/-- **A file name belongs to one chip, product and TCB version.** -/
theorem filenameForVcek_injective {chip chip' : Block 64} {p p' : ProductName}
    {a b : TcbVersion} (h : filenameForVcek chip p a = filenameForVcek chip' p' b) :
    chip = chip' ∧ p = p' ∧ a.Same b := by
  have hchars := congrArg String.toList h
  have h2 : "-tee-".toList = '-' :: "tee-".toList := rfl
  have h3 : "-snp-".toList = '-' :: "snp-".toList := rfl
  have h4 : "-ucode-".toList = '-' :: "ucode-".toList := rfl
  simp only [filenameForVcek, String.toList_append, List.append_assoc, h2, h3, h4,
    List.cons_append] at hchars
  exact fields_injective rfl rfl rfl hchars

/-- **So does a URL.** -/
theorem vcekUrl_injective {chip chip' : Block 64} {p p' : ProductName}
    {a b : TcbVersion} (h : vcekUrl chip p a = vcekUrl chip' p' b) :
    chip = chip' ∧ p = p' ∧ a.Same b := by
  have hchars := congrArg String.toList h
  have h2 : "&teeSPL=".toList = '&' :: "teeSPL=".toList := rfl
  have h3 : "&snpSPL=".toList = '&' :: "snpSPL=".toList := rfl
  have h4 : "&ucodeSPL=".toList = '&' :: "ucodeSPL=".toList := rfl
  unfold vcekUrl at hchars
  generalize "https://kdsintf.amd.com/vcek/v1/" = base at hchars
  simp only [String.toList_append, List.append_assoc, h2, h3, h4, List.cons_append] at hchars
  have hfields := List.append_cancel_left hchars
  rw [← List.append_nil (toString a.microcode.toNat).toList,
    ← List.append_nil (toString b.microcode.toNat).toList] at hfields
  exact fields_injective rfl rfl rfl hfields

theorem vcekUrl_ne_empty (chip : Block 64) (p : ProductName) (t : TcbVersion) :
    vcekUrl chip p t ≠ "" := by
  intro h
  have hlength := congrArg String.length h
  unfold vcekUrl at hlength
  simp only [String.length_append] at hlength
  have hbase : "https://kdsintf.amd.com/vcek/v1/".length = 32 := rfl
  rw [hbase] at hlength
  have hempty : "".length = 0 := rfl
  omega

/-! ### The download -/

/-- `error_for_status` objects to client and server errors. -/
def isErrorStatus (status : Nat) : Bool := 400 ≤ status && status < 600

/-- `download_vceck_cert`, by what each URL is answered with. -/
def downloadVceckCert (get : String → HttpResult) (chipId : Block 64) (productName : ProductName)
    (tcb : TcbVersion) : Outcome Whatever Bytes :=
  let reqUrl := vcekUrl chipId productName tcb
  match get reqUrl with
  | .failed => Outcome.fail "failed to send request"
  | .response status body => do
    Outcome.ensure (isErrorStatus status = false)
      ("request to \"" ++ reqUrl ++ "\" returned error code")
    Outcome.ofOption body "failed to download body bytes"

theorem downloadVceckCert_eq_ok {get : String → HttpResult} {chipId : Block 64}
    {productName : ProductName} {tcb : TcbVersion} {bytes : Bytes} :
    downloadVceckCert get chipId productName tcb = .ok bytes ↔
      ∃ status, get (vcekUrl chipId productName tcb) = .response status (some bytes) ∧
        isErrorStatus status = false := by
  simp only [downloadVceckCert]
  cases hget : get (vcekUrl chipId productName tcb) with
  | failed => simp
  | response status body =>
      simp only [Outcome.ok_of_seq, Outcome.ensure_eq_ok, Outcome.ofOption_eq_ok]
      refine ⟨?_, ?_⟩
      · intro h
        exact ⟨status, by rw [h.2], h.1⟩
      · intro h
        obtain ⟨status', heq, hs⟩ := h
        simp only [HttpResult.response.injEq] at heq
        obtain ⟨rfl, rfl⟩ := heq
        exact ⟨hs, rfl⟩

/-! ### The cache -/

namespace CachingVCEKDownloader

/-- `CachingVCEKDownloader::new`. -/
def new (tempDir : String) (isThere created : Bool) : Outcome Whatever CachingVCEKDownloader := do
  let tempPath := tempDir ++ "/snp-vcek-cache"
  Outcome.ensure (isThere = true ∨ created = true) ("path \"" ++ tempPath ++ "\"")
  return ⟨tempPath⟩

variable (C : Crates) (get : String → HttpResult) (faults : FileFaults)

/-- The message that names a file. -/
def filePath (d : CachingVCEKDownloader) (name : String) : Whatever :=
  "file path \"" ++ d.cacheFolderPath ++ "/" ++ name ++ "\""

/-- `File::open`; `none` stands for `ErrorKind::NotFound`. -/
def openFile (d : CachingVCEKDownloader) (name : String) :
    Effect Folder Whatever (Option Bytes) := fun folder =>
  if faults.openFails then (Outcome.fail (d.filePath name), folder)
  else (.ok (folder name), folder)

/-- `File::create`, which empties a file that is there. -/
def createFile (d : CachingVCEKDownloader) (name : String) : Effect Folder Whatever Unit :=
  fun folder =>
    if faults.createFails then (Outcome.fail (d.filePath name), folder)
    else (.ok (), Function.update folder name (some []))

/-- `write_all` on a file just created. -/
def writeAll (name : String) (certBytes : Bytes) : Effect Folder Whatever Unit := fun folder =>
  match faults.writeFailsAfter with
  | none => (.ok (), Function.update folder name (some certBytes))
  | some n =>
    (Outcome.fail "failed to write certificate",
      Function.update folder name (some (certBytes.take n)))

/-- `get_vceck_cert`. -/
def getVceckCert (d : CachingVCEKDownloader) (chipId : Block 64) (productName : ProductName)
    (tcb : TcbVersion) : Effect Folder Whatever C.Certificate := do
  let name := filenameForVcek chipId productName tcb
  let found ← d.openFile faults name
  let certBytes ← match found with
    | some content =>
      Effect.lift do
        Outcome.ensure (faults.readFails = false) "failed to read certificate file content"
        return content
    | none => do
      let certBytes ← Effect.lift (Outcome.context "failed to download certificate"
        (downloadVceckCert get chipId productName tcb))
      d.createFile faults name
      writeAll faults name certBytes
      pure certBytes
  Effect.lift (Outcome.ofOption (C.certificateFromBytes certBytes) "failed to parse certificate")

variable {C get faults}

/-- **A certificate found in the cache is parsed, and nothing is written.** -/
theorem getVceckCert_cached {d : CachingVCEKDownloader} {chipId : Block 64}
    {productName : ProductName} {tcb : TcbVersion} {folder : Folder} {content : Bytes}
    (hfile : folder (filenameForVcek chipId productName tcb) = some content) :
    d.getVceckCert C get .none chipId productName tcb folder
      = (Outcome.ofOption (C.certificateFromBytes content) "failed to parse certificate",
          folder) := by
  have hopen : d.openFile .none (filenameForVcek chipId productName tcb) folder
      = (.ok (some content), folder) := by
    simp [openFile, FileFaults.none, hfile]
  show (d.openFile .none (filenameForVcek chipId productName tcb) >>= _) folder = _
  rw [Effect.bind_of_ok hopen]
  rfl

/-- **A certificate not in the cache is downloaded, stored and parsed.** -/
theorem getVceckCert_downloaded {d : CachingVCEKDownloader} {chipId : Block 64}
    {productName : ProductName} {tcb : TcbVersion} {folder : Folder} {body : Bytes}
    (hfile : folder (filenameForVcek chipId productName tcb) = none)
    (hget : downloadVceckCert get chipId productName tcb = .ok body) :
    d.getVceckCert C get .none chipId productName tcb folder
      = (Outcome.ofOption (C.certificateFromBytes body) "failed to parse certificate",
          Function.update folder (filenameForVcek chipId productName tcb) (some body)) := by
  have hopen : d.openFile .none (filenameForVcek chipId productName tcb) folder
      = (.ok none, folder) := by
    simp [openFile, FileFaults.none, hfile]
  show (d.openFile .none (filenameForVcek chipId productName tcb) >>= _) folder = _
  rw [Effect.bind_of_ok hopen]
  simp only [hget, Outcome.context_ok]
  show (Outcome.ofOption (C.certificateFromBytes body) "failed to parse certificate",
    Function.update (Function.update folder _ (some [])) _ (some body)) = _
  rw [Function.update_idem]

/-! ### Calls that fail -/

variable {d : CachingVCEKDownloader} {chipId : Block 64} {productName : ProductName}
  {tcb : TcbVersion} {folder : Folder} {body content : Bytes}

theorem getVceckCert_openFails (hfault : faults.openFails = true) :
    d.getVceckCert C get faults chipId productName tcb folder
      = (Outcome.fail (d.filePath (filenameForVcek chipId productName tcb)), folder) := by
  have hopen : d.openFile faults (filenameForVcek chipId productName tcb) folder
      = (Outcome.fail (d.filePath (filenameForVcek chipId productName tcb)), folder) := by
    simp [openFile, hfault]
  show (d.openFile faults (filenameForVcek chipId productName tcb) >>= _) folder = _
  exact Effect.bind_of_error hopen

theorem getVceckCert_readFails (hopens : faults.openFails = false)
    (hfault : faults.readFails = true)
    (hfile : folder (filenameForVcek chipId productName tcb) = some content) :
    d.getVceckCert C get faults chipId productName tcb folder
      = (Outcome.fail "failed to read certificate file content", folder) := by
  have hopen : d.openFile faults (filenameForVcek chipId productName tcb) folder
      = (.ok (some content), folder) := by
    simp [openFile, hopens, hfile]
  show (d.openFile faults (filenameForVcek chipId productName tcb) >>= _) folder = _
  rw [Effect.bind_of_ok hopen, hfault]
  rfl

theorem openFile_missing (hopens : faults.openFails = false)
    (hfile : folder (filenameForVcek chipId productName tcb) = none) :
    d.openFile faults (filenameForVcek chipId productName tcb) folder = (.ok none, folder) := by
  simp [openFile, hopens, hfile]

theorem getVceckCert_downloadFails (hopens : faults.openFails = false)
    (hfile : folder (filenameForVcek chipId productName tcb) = none) {e : Failure Whatever}
    (hget : Outcome.context "failed to download certificate"
      (downloadVceckCert get chipId productName tcb) = .error e) :
    d.getVceckCert C get faults chipId productName tcb folder = (.error e, folder) := by
  show (d.openFile faults (filenameForVcek chipId productName tcb) >>= _) folder = _
  rw [Effect.bind_of_ok (openFile_missing hopens hfile)]
  simp only [hget]
  rfl

theorem getVceckCert_createFails (hopens : faults.openFails = false)
    (hfile : folder (filenameForVcek chipId productName tcb) = none)
    (hget : downloadVceckCert get chipId productName tcb = .ok body)
    (hfault : faults.createFails = true) :
    d.getVceckCert C get faults chipId productName tcb folder
      = (Outcome.fail (d.filePath (filenameForVcek chipId productName tcb)), folder) := by
  have hcreate : d.createFile faults (filenameForVcek chipId productName tcb) folder
      = (Outcome.fail (d.filePath (filenameForVcek chipId productName tcb)), folder) := by
    simp [createFile, hfault]
  show (d.openFile faults (filenameForVcek chipId productName tcb) >>= _) folder = _
  rw [Effect.bind_of_ok (openFile_missing hopens hfile)]
  simp only [hget, Outcome.context_ok]
  refine (Effect.bind_of_ok (Effect.lift_apply (.ok body) folder)).trans ?_
  exact Effect.bind_of_error hcreate

theorem getVceckCert_writeFails (hopens : faults.openFails = false)
    (hfile : folder (filenameForVcek chipId productName tcb) = none)
    (hget : downloadVceckCert get chipId productName tcb = .ok body)
    (hcreates : faults.createFails = false) {n : Nat} (hfault : faults.writeFailsAfter = some n) :
    d.getVceckCert C get faults chipId productName tcb folder
      = (Outcome.fail "failed to write certificate",
          Function.update folder (filenameForVcek chipId productName tcb)
            (some (body.take n))) := by
  have hcreate : d.createFile faults (filenameForVcek chipId productName tcb) folder
      = (.ok (), Function.update folder (filenameForVcek chipId productName tcb) (some [])) := by
    simp [createFile, hcreates]
  have hwrite : writeAll faults (filenameForVcek chipId productName tcb) body
      (Function.update folder (filenameForVcek chipId productName tcb) (some []))
      = (Outcome.fail "failed to write certificate",
          Function.update folder (filenameForVcek chipId productName tcb)
            (some (body.take n))) := by
    simp [writeAll, hfault]
  show (d.openFile faults (filenameForVcek chipId productName tcb) >>= _) folder = _
  rw [Effect.bind_of_ok (openFile_missing hopens hfile)]
  simp only [hget, Outcome.context_ok]
  refine (Effect.bind_of_ok (Effect.lift_apply (.ok body) folder)).trans ?_
  refine (Effect.bind_of_ok hcreate).trans ?_
  exact Effect.bind_of_error hwrite

end CachingVCEKDownloader

end SnpGuard
