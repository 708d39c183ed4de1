/-
The command line of QEMU: `add_opts` in `launch.sh`.

The script appends text to a file and has bash execute the file, so every value that it pastes
is read by a shell again.  The kernel command line is put between double quotes, and the other
values between none.  QEMU's arguments are the intended ones exactly when each value stands for
itself where it is pasted (`faithful_iff`): no blank, quote, backslash, operator or expansion in
those outside quotes, and no double quote, expansion or escape in the kernel command line.
-/
import SnpGuard.Lib.Pasting
import SnpGuard.Launch

namespace SnpGuard.Launch

open CommandLine Words

/-! ### What is written to the file -/

/-- The parameters when all options and files have been looked at.  Optional ones are empty, and
the blocks are what `$(cat ..)` comes to. -/
structure Params where
  vars : Vars
  sev : Bool
  sevSnp : Bool
  qemuExe : String
  cpuModel : String
  mem : String
  uefiVars : String
  cdromFile : String
  hda : String
  hdb : String
  cbitpos : Nat
  certsPath : String
  /-- The ID block and its authentication information, given both or neither. -/
  idBlock : Option (String × String)
  hostData : Option String
  monitorPath : String
  /-- `readlink -e` has found these. -/
  located : qemuExe.toList.head? = some '/'
  firmware : vars.uefiCode ≠ ""
  /-- The script ends before it executes the file otherwise. -/
  hexPolicy : sev = true → "0x".toList.isPrefixOf vars.sevPolicy.toList = true

/-- The shell that writes the file, and the one that executes it. -/
structure Shells where
  /-- Pathname expansion in the script. -/
  atAssembly : Words.Expansion
  /-- `[ .. ]`, of the words between the brackets. -/
  test : List String → Bool
  test_nil : test [] = false
  test_word : ∀ {word}, word ≠ "" → test [word] = true
  atLaunch : CommandLine.Expansion

/-- A call of `add_opts`, or part of one. -/
inductive Call where
  /-- A blank in front of an option. -/
  | blank
  /-- `add_opts "option value .."`. -/
  | words (option : String) (values : List String)
  /-- `add_opts "-append \"$APPEND\""`. -/
  | append (value : String)
  /-- `add_opts ${SNP_OPTS_BUILDER}`, when that is `-object value`. -/
  | object (value : String)

/-- `echo -n "$* "`, of arguments. -/
def addOpts (args : List (List Char)) : List Char := List.intercalate [' '] args ++ [' ']

/-- What the file gets. -/
def Call.write (w : Shells) : Call → List Char
  | blank => [' ']
  | words option values => addOpts (option.toList :: values.map String.toList)
  | append value => addOpts ["-append".toList, '"' :: (value.toList ++ ['"'])]
  | object value =>
    addOpts ((Words.words ("-object".toList ++ ' ' :: value.toList)).flatMap w.atAssembly.expand)

/-- The arguments that it is meant to give. -/
def Call.intended : Call → List String
  | blank => []
  | words option values => option :: values
  | append value => ["-append", value]
  | object value => ["-object", value]

/-- Calls that are made if a parameter is given. -/
def given (value : String) (calls : List Call) : List Call := if value = "" then [] else calls

variable (p : Params)

def firmwareCalls : List Call :=
  if p.sevSnp then
    .words "-bios" [p.vars.uefiCode] ::
      given p.uefiVars [.words "-drive" ["if=pflash,format=raw,unit=0,file=" ++ p.uefiVars]]
  else
    .words "-drive" ["if=pflash,format=raw,unit=0,file=" ++ p.vars.uefiCode ++ ",readonly"] ::
      given p.uefiVars [.words "-drive" ["if=pflash,format=raw,unit=1,file=" ++ p.uefiVars]]

def networkCalls : List Call :=
  [.blank, .words "-netdev"
    ["user,id=vmnic,hostfwd=tcp:127.0.0.1:2222-:22,hostfwd=tcp:127.0.0.1:8080-:80"],
   .blank, .words "-device"
    ["virtio-net-pci,disable-legacy=on,iommu_platform=true,netdev=vmnic,romfile="]]

def diskFormat (disk : String) : String :=
  if "qcow2".toList.isSuffixOf disk.toList then "qcow2" else "raw"

/-- A disk; `USE_VIRTIO` is always set. -/
def diskCalls (i : Nat) (disk : String) : List Call :=
  given disk
    [.words "-drive" ["file=" ++ disk ++ ",if=none,id=disk" ++ toString i ++ ",format=" ++
      diskFormat disk],
     .words "-device" ["virtio-scsi-pci,id=scsi" ++ toString i ++
      ",disable-legacy=on,iommu_platform=true"],
     .words "-device" ["scsi-hd,drive=disk" ++ toString i ++ ",bootindex=" ++ toString (i + 1)]]

/-- What is the same for SEV and for SEV-SNP. -/
def guestOptions : String :=
  ",id=sev0,policy=" ++ p.vars.sevPolicy ++ ",cbitpos=" ++ toString p.cbitpos ++
    ",reduced-phys-bits=1"

/-- `SNP_OPTS_BUILDER`, without its `-object`. -/
def snpOptsBuilder (kernelHashes : Bool) : String :=
  "sev-snp-guest" ++ guestOptions p ++
    (if p.certsPath = "" then "" else ",certs-path=" ++ p.certsPath) ++
    (match p.idBlock with
      | none => ""
      | some (block, auth) => ",id-block=" ++ block ++ ",id-auth=" ++ auth ++ ",auth-key-enabled=true") ++
    (match p.hostData with
      | none => ""
      | some data => ",host-data=" ++ data) ++
    (if kernelHashes then ",kernel-hashes=on" else "")

def sevCalls (kernelHashes : Bool) : List Call :=
  if p.sev then
    .words "-machine" ["memory-encryption=sev0,vmport=off"] ::
      if p.sevSnp then
        [.words "-object" ["memory-backend-memfd,id=ram1,size=" ++ p.mem ++
          "M,share=true,prealloc=false"],
         .words "-machine" ["memory-backend=ram1"],
         .object (snpOptsBuilder p kernelHashes)]
      else [.words "-object" ["sev-guest" ++ guestOptions p]]
  else []

def kernelCalls : List Call :=
  given p.vars.kernelFile
    (.words "-kernel" [p.vars.kernelFile] :: (given p.vars.append [.append p.vars.append] ++
      given p.vars.initrdFile [.words "-initrd" [p.vars.initrdFile]]))

/-- All calls, in the order of the script. -/
def calls (kernelHashes : Bool) : List Call :=
  [.words p.qemuExe [], .words "-enable-kvm" ["-cpu", p.cpuModel, "-machine", "q35"]] ++
    given p.vars.smp [.words "-smp" [p.vars.smp ++ ",maxcpus=255"]] ++
    [.words "-m" [p.mem ++ "M"], .words "-no-reboot" []] ++ firmwareCalls p ++
    given p.cdromFile
      [.words "-drive" ["file=" ++ p.cdromFile ++ ",media=cdrom", "-boot", "d"]] ++
    networkCalls ++ diskCalls 0 p.hda ++ diskCalls 1 p.hdb ++ sevCalls p kernelHashes ++
    kernelCalls p ++
    [.words "-nographic" [],
     .words "-monitor" ["pty", "-monitor", "unix:" ++ p.monitorPath ++ ",server,nowait"],
     .words "-qmp" ["tcp:localhost:4444,server,wait=off"]]

/-- `[ ${KERNEL_FILE} ] && [ ${INITRD_FILE} ]`. -/
def testHashes (w : Shells) : Bool :=
  w.test (w.atAssembly.unquoted p.vars.kernelFile) &&
    w.test (w.atAssembly.unquoted p.vars.initrdFile)

/-- The file that bash executes. -/
def commandFile (w : Shells) : List Char := (calls p (testHashes p w)).flatMap (Call.write w)

/-- The arguments that QEMU is meant to get, itself included. -/
def intended : List String :=
  (calls p (p.vars.kernelFile ≠ "" && p.vars.initrdFile ≠ "")).flatMap Call.intended

/-! ### What comes out of it -/

variable {p} (w : Shells)

/-- Nothing is expanded while the call is written. -/
def Call.Unexpanded : Call → Prop
  | object value => ∀ word ∈ Words.words value.toList, w.atAssembly.expand word = [word]
  | _ => True

/-- QEMU gets the intended arguments: they are the words of the file, and nothing in it was
expanded or executed. -/
structure Faithful (p : Params) : Prop where
  assembled : ∀ call ∈ calls p (testHashes p w), call.Unexpanded w
  executed : ∃ ws, read (commandFile p w) = some ws ∧
    ws.map Word.text = (intended p).map String.toList ∧
    ∀ word ∈ ws, w.atLaunch.expand word = [word.text]

/-- What a call writes, as pieces of the line. -/
def Call.pieces : Call → List Piece
  | blank => [.gap]
  | words option values => .bare option.toList :: values.map fun v => .bare v.toList
  | append value => [.bare "-append".toList, .quoted value.toList]
  | object value => [.bare "-object".toList, .split value.toList]

def pieces (p : Params) : List Piece := (calls p (testHashes p w)).flatMap Call.pieces

/-- No expansion applies to a piece. -/
def Unexpanded : Piece → Prop
  | .gap => True
  | .bare v => w.atLaunch.expand (Word.marked false v) = [v]
  | .quoted _ => True
  | .split v => w.atAssembly.expand v = [v] ∧ w.atLaunch.expand (Word.marked false v) = [v]

/-- `kernel-hashes` is set exactly where both paths are given. -/
def HashesSet (p : Params) : Prop :=
  p.sev = true → p.sevSnp = true →
    testHashes p w = (p.vars.kernelFile ≠ "" && p.vars.initrdFile ≠ "")

theorem addOpts_cons (arg : List Char) (args : List (List Char)) :
    addOpts (arg :: args) = (arg :: args).flatMap (· ++ [' ']) := by
  induction args generalizing arg with
  | nil => simp [addOpts]
  | cons next args ih =>
      have hnext := ih next
      unfold addOpts at hnext ⊢
      rw [List.intercalate_cons_cons, List.flatMap_cons, ← hnext]
      simp

/-- The pieces of a call are what it writes. -/
theorem Call.write_eq {call : Call} (h : call.Unexpanded w) :
    call.write w = call.pieces.flatMap Piece.text := by
  cases call with
  | blank => rfl
  | words option values =>
      show addOpts (option.toList :: values.map String.toList) = _
      rw [addOpts_cons]
      simp [Call.pieces, Piece.text, List.flatMap_map]
  | append value =>
      show addOpts ["-append".toList, '"' :: (value.toList ++ ['"'])] = _
      rw [addOpts_cons]
      simp [Call.pieces, Piece.text]
  | object value =>
      have hoption : Words.Plain "-object".toList := by decide
      have hobject : Words.words ("-object".toList ++ ' ' :: value.toList)
          = "-object".toList :: Words.words value.toList := by
        rw [words_append rfl, words_of_plain (fun c hc => (hoption.2 c hc).1) hoption.1,
          List.singleton_append]
      have hplain : w.atAssembly.expand "-object".toList = ["-object".toList] :=
        w.atAssembly.plain fun c hc => (hoption.2 c hc).2
      have hsame : (Words.words value.toList).flatMap w.atAssembly.expand
          = Words.words value.toList := by
        have hexpand := List.flatMap_congr (l := Words.words value.toList) h
        rw [hexpand]
        simp
      show addOpts _ = _
      rw [hobject, List.flatMap_cons, hplain, hsame, List.singleton_append, addOpts_cons]
      simp [Call.pieces, Piece.text]

theorem commandFile_eq (h : ∀ call ∈ calls p (testHashes p w), call.Unexpanded w) :
    commandFile p w = (pieces w p).flatMap Piece.text := by
  unfold commandFile pieces
  rw [List.flatMap_assoc]
  exact List.flatMap_congr fun call hcall => Call.write_eq w (h call hcall)

theorem Call.wanted_pieces (call : Call) :
    call.pieces.flatMap Piece.wanted = call.intended.map String.toList := by
  cases call with
  | blank => rfl
  | words option values =>
      simp [Call.pieces, Call.intended, Piece.wanted, List.flatMap_map, ← List.map_eq_flatMap]
  | append value => rfl
  | object value => rfl

theorem wanted_pieces (p : Params) : (pieces w p).flatMap Piece.wanted
    = ((calls p (testHashes p w)).flatMap Call.intended).map String.toList := by
  unfold pieces
  rw [List.flatMap_assoc, List.map_flatMap]
  exact List.flatMap_congr fun call _ => call.wanted_pieces

/-! ### The last option of the builder -/

theorem snpOptsBuilder_true (p : Params) :
    (snpOptsBuilder p true).toList
      = (snpOptsBuilder p false).toList ++ ",kernel-hashes=on".toList := by
  unfold snpOptsBuilder
  rw [if_pos rfl, if_neg Bool.false_ne_true, String.toList_append, String.append_empty]

theorem snpOptsBuilder_injective {a b : Bool} (h : snpOptsBuilder p a = snpOptsBuilder p b) :
    a = b := by
  have hne : snpOptsBuilder p true ≠ snpOptsBuilder p false := by
    intro heq
    have htext := congrArg String.toList heq
    rw [snpOptsBuilder_true] at htext
    exact absurd (List.append_right_eq_self.mp htext) (by decide)
  cases a with
  | false =>
      cases b with
      | false => rfl
      | true => exact absurd h.symm hne
  | true =>
      cases b with
      | false => exact absurd h hne
      | true => rfl

/-- What `kernel-hashes` is worked out to be shows in one argument at most. -/
theorem intended_calls (p : Params) : ∃ front back : List String, ∀ kernelHashes,
    (calls p kernelHashes).flatMap Call.intended
      = front ++ (if p.sev = true ∧ p.sevSnp = true then [snpOptsBuilder p kernelHashes] else []) ++
        back := by
  have hcalls : ∃ front back : List String, ∀ kernelHashes,
      (calls p kernelHashes).flatMap Call.intended
        = front ++ (sevCalls p kernelHashes).flatMap Call.intended ++ back := by
    unfold calls
    exact ⟨_, _, fun _ => by
      rw [List.flatMap_append, List.flatMap_append, List.flatMap_append, List.append_assoc]⟩
  obtain ⟨front, back, hcalls⟩ := hcalls
  by_cases hsnp : p.sev = true ∧ p.sevSnp = true
  · refine ⟨front ++ ["-machine", "memory-encryption=sev0,vmport=off", "-object",
      "memory-backend-memfd,id=ram1,size=" ++ p.mem ++ "M,share=true,prealloc=false",
      "-machine", "memory-backend=ram1", "-object"], back, fun kernelHashes => ?_⟩
    rw [hcalls, if_pos hsnp]
    simp [sevCalls, hsnp.1, hsnp.2, Call.intended]
  · refine ⟨front ++ (sevCalls p false).flatMap Call.intended, back, fun kernelHashes => ?_⟩
    have hsame : sevCalls p kernelHashes = sevCalls p false := by
      unfold sevCalls
      cases hsev : p.sev with
      | false => rfl
      | true =>
          have hnot : p.sevSnp = false := by simpa [hsev] using hsnp
          simp [hnot]
    rw [hcalls, if_neg hsnp, hsame, List.append_nil]

theorem alike_calls (p : Params) (a b : Bool) :
    Alike (((calls p a).flatMap Call.intended).map String.toList)
      (((calls p b).flatMap Call.intended).map String.toList) := by
  have hmarks : ∀ d, d = '\'' ∨ d = '\\' ∨ d = '"' → ∀ kernelHashes,
      (snpOptsBuilder p kernelHashes).toList.count d = (snpOptsBuilder p false).toList.count d := by
    intro d hd kernelHashes
    cases kernelHashes with
    | false => rfl
    | true =>
        rw [snpOptsBuilder_true, List.count_append]
        refine Nat.add_eq_left.mpr ?_
        rcases hd with rfl | rfl | rfl <;> decide
  have hblanks : ∀ kernelHashes, (snpOptsBuilder p kernelHashes).toList.countP isBlank
      = (snpOptsBuilder p false).toList.countP isBlank := by
    intro kernelHashes
    cases kernelHashes with
    | false => rfl
    | true =>
        rw [snpOptsBuilder_true, List.countP_append]
        exact Nat.add_eq_left.mpr (by decide)
  obtain ⟨front, back, hcalls⟩ := intended_calls p
  rw [hcalls, hcalls]
  by_cases hsnp : p.sev = true ∧ p.sevSnp = true
  · rw [if_pos hsnp, if_pos hsnp]
    refine ⟨fun d hd => ?_, ?_, by simp⟩
    · simp [List.count_append, hmarks d hd a, hmarks d hd b]
    · simp [List.countP_append, hblanks a, hblanks b]
  · rw [if_neg hsnp, if_neg hsnp]
    exact Alike.refl _

/-- Where the arguments come out as intended, the option was set as intended. -/
theorem hashesSet_of_calls
    (h : (calls p (testHashes p w)).flatMap Call.intended = intended p) : HashesSet w p := by
  intro hsev hsnp
  obtain ⟨front, back, hcalls⟩ := intended_calls p
  rw [intended, hcalls, hcalls, if_pos ⟨hsev, hsnp⟩, if_pos ⟨hsev, hsnp⟩] at h
  have hbuilder := List.append_cancel_left (List.append_cancel_right h)
  rw [List.cons.injEq] at hbuilder
  exact snpOptsBuilder_injective hbuilder.1

theorem calls_of_hashesSet (h : HashesSet w p) :
    calls p (testHashes p w) = calls p (p.vars.kernelFile ≠ "" && p.vars.initrdFile ≠ "") := by
  have hsev : sevCalls p (testHashes p w)
      = sevCalls p (p.vars.kernelFile ≠ "" && p.vars.initrdFile ≠ "") := by
    unfold sevCalls
    cases hsev : p.sev with
    | false => rfl
    | true =>
        cases hsnp : p.sevSnp with
        | false => rfl
        | true => rw [h hsev hsnp]
  unfold calls
  rw [hsev]

/-! ### Every value stands for itself -/

/-- A piece that is inert is expanded nowhere exactly if its words are not. -/
theorem unexpanded_iff {piece : Piece} (h : piece.Inert) : Unexpanded w piece ↔
    (∀ v, piece = .split v → w.atAssembly.expand v = [v]) ∧
      ∀ word ∈ piece.found, w.atLaunch.expand word = [word.text] := by
  have hword : ∀ v, Bare v →
      ((∀ word ∈ (Words.words v).map (Word.marked false), w.atLaunch.expand word = [word.text]) ↔
        w.atLaunch.expand (Word.marked false v) = [v]) := by
    intro v hv
    rw [words_of_plain hv.blanks hv.nonempty, List.map_singleton, List.forall_mem_singleton,
      Word.text_marked]
  cases piece with
  | gap => simp [Unexpanded, Piece.found]
  | bare v =>
      have hv := hword v h
      exact ⟨fun hx => ⟨by simp, hv.mpr hx⟩, fun hx => hv.mp hx.2⟩
  | quoted v =>
      have hquoted := w.atLaunch.expand_quoted v
      simp [Unexpanded, Piece.found, hquoted]
  | split v =>
      have hv := hword v h
      refine ⟨fun hx => ⟨fun v' heq => ?_, hv.mpr hx.2⟩, fun hx => ⟨hx.1 v rfl, hv.mp hx.2⟩⟩
      cases heq
      exact hx.1

theorem mem_split_pieces {v : List Char} :
    .split v ∈ pieces w p ↔ ∃ value, .object value ∈ calls p (testHashes p w) ∧ value.toList = v := by
  unfold pieces
  rw [List.mem_flatMap]
  refine ⟨?_, ?_⟩
  · intro h
    obtain ⟨call, hcall, hpiece⟩ := h
    cases call with
    | blank => simp [Call.pieces] at hpiece
    | words option values => simp [Call.pieces] at hpiece
    | append value => simp [Call.pieces] at hpiece
    | object value =>
        rw [Call.pieces] at hpiece
        exact ⟨value, hcall, by simpa [eq_comm] using hpiece⟩
  · intro h
    obtain ⟨value, hcall, rfl⟩ := h
    exact ⟨.object value, hcall, by simp [Call.pieces]⟩

/-- What comes out as intended was inert. -/
theorem Faithful.inert (h : Faithful w p) :
    (∀ piece ∈ pieces w p, piece.Inert ∧ Unexpanded w piece) ∧ HashesSet w p := by
  obtain ⟨ws, hread, hwords, hexpand⟩ := h.executed
  rw [commandFile_eq w h.assembled] at hread
  have halike : Alike (ws.map Word.text) ((pieces w p).flatMap Piece.wanted) := by
    rw [hwords, wanted_pieces]
    exact alike_calls p _ _
  obtain ⟨hinert, rfl⟩ := inert_of_read hread halike
  refine ⟨fun piece hpiece => ⟨hinert piece hpiece, ?_⟩, ?_⟩
  · refine (unexpanded_iff w (hinert piece hpiece)).mpr ⟨fun v heq => ?_, fun word hword => ?_⟩
    · subst heq
      obtain ⟨value, hcall, rfl⟩ := (mem_split_pieces w).mp hpiece
      have hbare : Bare value.toList := hinert _ hpiece
      refine h.assembled _ hcall value.toList ?_
      simp [words_of_plain hbare.blanks hbare.nonempty]
    · exact hexpand word (List.mem_flatMap.mpr ⟨piece, hpiece, hword⟩)
  · have hsame : ((calls p (testHashes p w)).flatMap Call.intended).map String.toList
        = (intended p).map String.toList := by
      rw [← hwords, ← wanted_pieces, List.map_flatMap]
      exact List.flatMap_congr fun piece hpiece => (Piece.found_inert (hinert piece hpiece)).symm
    have hinj : Function.Injective String.toList := fun _ _ => String.toList_injective
    exact hashesSet_of_calls w (List.map_injective_iff.mpr hinj hsame)

/-- What is inert comes out as intended. -/
theorem faithful_of_inert (hpieces : ∀ piece ∈ pieces w p, piece.Inert ∧ Unexpanded w piece)
    (hhashes : HashesSet w p) : Faithful w p := by
  have hinert : ∀ piece ∈ pieces w p, piece.Inert := fun piece hpiece => (hpieces piece hpiece).1
  have hassembled : ∀ call ∈ calls p (testHashes p w), call.Unexpanded w := by
    intro call hcall
    cases call with
    | blank => trivial
    | words option values => trivial
    | append value => trivial
    | object value =>
        obtain ⟨hbare, hexpand, -⟩ := hpieces _ ((mem_split_pieces w).mpr ⟨value, hcall, rfl⟩)
        have hwords : Words.words value.toList = [value.toList] :=
          words_of_plain (Bare.blanks hbare) (Bare.nonempty hbare)
        show ∀ word ∈ Words.words value.toList, w.atAssembly.expand word = [word]
        rw [hwords, List.forall_mem_singleton]
        exact hexpand
  refine ⟨hassembled, (pieces w p).flatMap Piece.found, ?_, ?_, ?_⟩
  · rw [commandFile_eq w hassembled]
    exact read_inert hinert
  · rw [intended, ← calls_of_hashesSet w hhashes, ← wanted_pieces, List.map_flatMap]
    exact List.flatMap_congr fun piece hpiece => Piece.found_inert (hinert piece hpiece)
  · intro word hword
    obtain ⟨piece, hpiece, hfound⟩ := List.mem_flatMap.mp hword
    obtain ⟨hone, hexpand⟩ := hpieces piece hpiece
    exact ((unexpanded_iff w hone).mp hexpand).2 word hfound

theorem append_calls (hkernel : p.vars.kernelFile ≠ "") (happend : p.vars.append ≠ "")
    (kernelHashes : Bool) : [.append p.vars.append] <:+: calls p kernelHashes := by
  have hcalls : [.append p.vars.append] <:+: kernelCalls p := by
    unfold kernelCalls given
    rw [if_neg hkernel, if_neg happend]
    exact ⟨[_], _, rfl⟩
  have hall : kernelCalls p <:+: calls p kernelHashes := ⟨_, _, rfl⟩
  exact hcalls.trans hall

/-- The kernel command line is one of the arguments. -/
theorem append_intended (hkernel : p.vars.kernelFile ≠ "") (happend : p.vars.append ≠ "") :
    ["-append", p.vars.append] <:+: intended p :=
  (append_calls hkernel happend _).flatMap Call.intended

/-- It is inert between double quotes, if it comes out as it is. -/
theorem Faithful.append (h : Faithful w p) (hkernel : p.vars.kernelFile ≠ "")
    (happend : p.vars.append ≠ "") : Quoted p.vars.append.toList := by
  have hcall : .append p.vars.append ∈ calls p (testHashes p w) :=
    (append_calls hkernel happend _).mem (List.mem_singleton_self _)
  have hpiece : .quoted p.vars.append.toList ∈ pieces w p :=
    List.mem_flatMap.mpr ⟨_, hcall, by simp [Call.pieces]⟩
  exact ((h.inert w).1 _ hpiece).1

/-- **QEMU gets the intended arguments exactly when every value is inert where it is pasted, and
no expansion applies to it.**  The command line that it then boots the kernel with is the one
that the verifier measures. -/
theorem faithful_iff (p : Params) :
    (Faithful w p ↔
      (∀ piece ∈ pieces w p, piece.Inert ∧ Unexpanded w piece) ∧ HashesSet w p) ∧
    (Faithful w p → p.vars.kernelFile ≠ "" → ∀ d cmdline, Agrees p.vars d →
      d.measurementArgs.append = some cmdline →
        ∃ ws, read (commandFile p w) = some ws ∧
          ["-append".toList, cmdline.toList] <:+: ws.map Word.text) := by
  refine ⟨⟨fun h => h.inert w, fun h => faithful_of_inert w h.1 h.2⟩, ?_⟩
  intro h hkernel d cmdline hagrees hcmdline
  obtain ⟨ws, hread, hwords, -⟩ := h.executed
  have happend := hagrees.append
  rw [hcmdline] at happend
  split_ifs at happend with hne
  rw [Option.some.injEq] at happend
  refine ⟨ws, hread, ?_⟩
  rw [hwords, ← happend]
  exact (append_intended hkernel hne).map String.toList

/-! ### Plain values -/

/-- A character that no shell looks at. -/
def isPlain (c : Char) : Bool :=
  c.isAlphanum || c == '/' || c == '.' || c == '_' || c == '-' || c == '=' || c == ',' ||
    c == ':' || c == '+'

theorem isPlain_inert {c : Char} (h : isPlain c = true) : isSpecial c = false ∧
    isBlank c = false ∧ isActive c = false ∧ isPattern c = false ∧ c ≠ '$' ∧ c ≠ '#' := by
  have hne : ∀ {d : Char}, isPlain d = false → c ≠ d := by
    rintro d hd rfl
    simp [h] at hd
  simp only [isSpecial, isOperator, isBlank, isActive, isPattern, Bool.or_eq_false_iff,
    beq_eq_false_iff_ne]
  and_intros
  all_goals exact hne (by decide)

/-- One word of plain characters. -/
def PlainWord (v : String) : Prop := v.toList.all isPlain = true

instance (v : String) : Decidable (PlainWord v) := inferInstanceAs (Decidable (_ = true))

@[simp] theorem plainWord_append {a b : String} :
    PlainWord (a ++ b) ↔ PlainWord a ∧ PlainWord b := by
  unfold PlainWord
  rw [String.toList_append, List.all_append, Bool.and_eq_true]

@[simp] theorem plainWord_repr (n : Nat) : PlainWord n.repr := by
  unfold PlainWord
  rw [Nat.toList_repr, List.all_eq_true]
  intro c hc
  have hdigit := Nat.isDigit_of_mem_toDigits (by decide) (by decide) hc
  simp [isPlain, Char.isAlphanum, hdigit]

theorem bare_of_plain {v : String} (hne : v ≠ "") (h : PlainWord v) : Bare v.toList := by
  have hc : ∀ c ∈ v.toList, isPlain c = true := List.all_eq_true.mp h
  refine ⟨⟨fun c hmem => (isPlain_inert (hc c hmem)).1, ?_, ?_⟩, by simpa using hne,
    fun c hmem => (isPlain_inert (hc c hmem)).2.1⟩
  · refine List.isChain_iff_forall_rel_of_append_cons_cons.mpr fun a b l₁ l₂ heq hdollar => ?_
    have hmem : a ∈ v.toList := by simp [heq]
    exact absurd hdollar (isPlain_inert (hc a hmem)).2.2.2.2.1
  · intro hhead
    exact (isPlain_inert (hc '#' (List.mem_of_head? hhead))).2.2.2.2.2 rfl

/-- A call in which every value is a plain word, or inert between double quotes. -/
def Call.Plain : Call → Prop
  | blank => True
  | words option values => ∀ v ∈ option :: values, v ≠ "" ∧ PlainWord v
  | append value => Quoted value.toList
  | object value => value ≠ "" ∧ PlainWord value

theorem inert_of_plain {call : Call} (h : call.Plain) :
    ∀ piece ∈ call.pieces, piece.Inert ∧ Unexpanded w piece := by
  have hword : ∀ v : String, v ≠ "" ∧ PlainWord v → Bare v.toList ∧
      w.atLaunch.expand (Word.marked false v.toList) = [v.toList] ∧
        w.atAssembly.expand v.toList = [v.toList] := by
    intro v hv
    have hc : ∀ c ∈ v.toList, isPlain c = true := List.all_eq_true.mp hv.2
    refine ⟨bare_of_plain hv.1 hv.2, ?_, ?_⟩
    · rw [w.atLaunch.plain, Word.text_marked]
      intro c hmem _
      obtain ⟨d, hd, rfl⟩ := List.mem_map.mp hmem
      exact (isPlain_inert (hc d hd)).2.2.1
    · exact w.atAssembly.plain fun c hmem => (isPlain_inert (hc c hmem)).2.2.2.1
  cases call with
  | blank =>
      intro piece hpiece
      rw [List.mem_singleton.mp hpiece]
      exact ⟨trivial, trivial⟩
  | words option values =>
      intro piece hpiece
      have hvalue : ∃ v ∈ option :: values, .bare v.toList = piece := List.mem_map.mp hpiece
      obtain ⟨v, hv, rfl⟩ := hvalue
      obtain ⟨hbare, hlaunch, -⟩ := hword v (h v hv)
      exact ⟨hbare, hlaunch⟩
  | append value =>
      have hoption := hword "-append" (by decide)
      intro piece hpiece
      rw [Call.pieces, List.mem_pair] at hpiece
      rcases hpiece with rfl | rfl
      · exact ⟨hoption.1, hoption.2.1⟩
      · exact ⟨h, trivial⟩
  | object value =>
      have hoption := hword "-object" (by decide)
      obtain ⟨hbare, hlaunch, hassembly⟩ := hword value h
      intro piece hpiece
      rw [Call.pieces, List.mem_pair] at hpiece
      rcases hpiece with rfl | rfl
      · exact ⟨hoption.1, hoption.2.1⟩
      · exact ⟨hbare, hassembly, hlaunch⟩

/-- Values such as paths usually are; the kernel command line only has to be inert between
double quotes. -/
structure PlainParams (p : Params) : Prop where
  qemuExe : PlainWord p.qemuExe
  cpuModel : p.cpuModel ≠ "" ∧ PlainWord p.cpuModel
  smp : PlainWord p.vars.smp
  mem : PlainWord p.mem
  uefiCode : PlainWord p.vars.uefiCode
  uefiVars : PlainWord p.uefiVars
  cdromFile : PlainWord p.cdromFile
  hda : PlainWord p.hda
  hdb : PlainWord p.hdb
  sevPolicy : PlainWord p.vars.sevPolicy
  certsPath : PlainWord p.certsPath
  idBlock : ∀ block ∈ p.idBlock, PlainWord block.1 ∧ PlainWord block.2
  hostData : ∀ data ∈ p.hostData, PlainWord data
  kernelFile : PlainWord p.vars.kernelFile
  initrdFile : PlainWord p.vars.initrdFile
  append : Quoted p.vars.append.toList
  monitorPath : PlainWord p.monitorPath

theorem plain_given {value : String} {calls : List Call}
    (h : value ≠ "" → ∀ call ∈ calls, call.Plain) : ∀ call ∈ given value calls, call.Plain := by
  unfold given
  split_ifs with hvalue
  · simp
  · exact h hvalue

theorem plain_firmware (h : PlainParams p) : ∀ call ∈ firmwareCalls p, call.Plain := by
  unfold firmwareCalls
  split_ifs
  · refine List.forall_mem_cons.mpr ⟨?_, plain_given fun _ => ?_⟩
    · simp +decide [Call.Plain, p.firmware, h.uefiCode]
    · simp +decide [Call.Plain, h.uefiVars]
  · refine List.forall_mem_cons.mpr ⟨?_, plain_given fun _ => ?_⟩
    · simp +decide [Call.Plain, h.uefiCode]
    · simp +decide [Call.Plain, h.uefiVars]

theorem plain_disk (i : Nat) {disk : String} (h : PlainWord disk) :
    ∀ call ∈ diskCalls i disk, call.Plain := by
  have hformat : PlainWord (diskFormat disk) := by
    unfold diskFormat
    split_ifs <;> decide
  refine plain_given fun _ => ?_
  simp +decide [Call.Plain, h, hformat]

theorem plain_guest (h : PlainParams p) : PlainWord (guestOptions p) := by
  unfold guestOptions
  simp only [plainWord_append]
  exact ⟨⟨⟨⟨by decide, h.sevPolicy⟩, by decide⟩, plainWord_repr p.cbitpos⟩, by decide⟩

theorem plain_builder (h : PlainParams p) (kernelHashes : Bool) :
    snpOptsBuilder p kernelHashes ≠ "" ∧ PlainWord (snpOptsBuilder p kernelHashes) := by
  have hcerts : PlainWord (if p.certsPath = "" then "" else ",certs-path=" ++ p.certsPath) := by
    split_ifs <;> simp +decide [h.certsPath]
  have hblock : PlainWord (match p.idBlock with
      | none => ""
      | some (block, auth) =>
        ",id-block=" ++ block ++ ",id-auth=" ++ auth ++ ",auth-key-enabled=true") := by
    cases hidBlock : p.idBlock with
    | none => decide
    | some block => simp +decide [h.idBlock block hidBlock]
  have hdata : PlainWord (match p.hostData with
      | none => ""
      | some data => ",host-data=" ++ data) := by
    cases hhostData : p.hostData with
    | none => decide
    | some data => simp +decide [h.hostData data hhostData]
  have hhashes : PlainWord (if kernelHashes = true then ",kernel-hashes=on" else "") := by
    split_ifs <;> decide
  have hname : PlainWord "sev-snp-guest" := by decide
  unfold snpOptsBuilder
  refine ⟨by simp, ?_⟩
  simp only [plainWord_append]
  exact ⟨⟨⟨⟨⟨hname, plain_guest h⟩, hcerts⟩, hblock⟩, hdata⟩, hhashes⟩

theorem plain_sev (h : PlainParams p) (kernelHashes : Bool) :
    ∀ call ∈ sevCalls p kernelHashes, call.Plain := by
  have hencryption : (Call.words "-machine" ["memory-encryption=sev0,vmport=off"]).Plain := by
    simp +decide [Call.Plain]
  have hmemory : (Call.words "-object" ["memory-backend-memfd,id=ram1,size=" ++ p.mem ++
      "M,share=true,prealloc=false"]).Plain := by
    simp +decide [Call.Plain, h.mem]
  have hbackend : (Call.words "-machine" ["memory-backend=ram1"]).Plain := by
    simp +decide [Call.Plain]
  have hguest : (Call.words "-object" ["sev-guest" ++ guestOptions p]).Plain := by
    have hname : PlainWord "sev-guest" := by decide
    simp [Call.Plain, hname, plain_guest h]
    decide
  unfold sevCalls
  split_ifs
  · simp only [List.forall_mem_cons, List.not_mem_nil, false_imp_iff, implies_true, and_true]
    exact ⟨hencryption, hmemory, hbackend, plain_builder h kernelHashes⟩
  · simp only [List.forall_mem_cons, List.not_mem_nil, false_imp_iff, implies_true, and_true]
    exact ⟨hencryption, hguest⟩
  · simp

theorem plain_kernel (h : PlainParams p) : ∀ call ∈ kernelCalls p, call.Plain := by
  have happend : ∀ call ∈ given p.vars.append [.append p.vars.append], call.Plain :=
    plain_given fun _ => List.forall_mem_singleton.mpr h.append
  have hinitrd : ∀ call ∈ given p.vars.initrdFile [.words "-initrd" [p.vars.initrdFile]],
      call.Plain := plain_given fun hne => by simp +decide [Call.Plain, hne, h.initrdFile]
  refine plain_given fun hkernel => List.forall_mem_cons.mpr ⟨?_, ?_⟩
  · simp +decide [Call.Plain, hkernel, h.kernelFile]
  · exact List.forall_mem_append.mpr ⟨happend, hinitrd⟩

theorem plain_calls (h : PlainParams p) (kernelHashes : Bool) :
    ∀ call ∈ calls p kernelHashes, call.Plain := by
  have hqemu : p.qemuExe ≠ "" := by
    intro hempty
    have hlocated := p.located
    rw [hempty] at hlocated
    cases hlocated
  have hsmp : ∀ call ∈ given p.vars.smp [.words "-smp" [p.vars.smp ++ ",maxcpus=255"]],
      call.Plain := plain_given fun hne => by simp +decide [Call.Plain, hne, h.smp]
  have hcdrom : ∀ call ∈ given p.cdromFile
      [.words "-drive" ["file=" ++ p.cdromFile ++ ",media=cdrom", "-boot", "d"]],
      call.Plain := plain_given fun _ => by simp +decide [Call.Plain, h.cdromFile]
  have hnetwork : ∀ call ∈ networkCalls, call.Plain := by
    have hnetdev : PlainWord
        "user,id=vmnic,hostfwd=tcp:127.0.0.1:2222-:22,hostfwd=tcp:127.0.0.1:8080-:80" := by
      decide +kernel
    have hdevice : PlainWord
        "virtio-net-pci,disable-legacy=on,iommu_platform=true,netdev=vmnic,romfile=" := by
      decide +kernel
    have hoptions : PlainWord "-netdev" ∧ PlainWord "-device" := by decide +kernel
    simp [networkCalls, Call.Plain, hnetdev, hdevice, hoptions]
  have hfirst : ∀ call ∈ [Call.words p.qemuExe [],
      .words "-enable-kvm" ["-cpu", p.cpuModel, "-machine", "q35"]], call.Plain := by
    simp +decide [Call.Plain, hqemu, h.qemuExe, h.cpuModel]
  have hmem : ∀ call ∈ [Call.words "-m" [p.mem ++ "M"], .words "-no-reboot" []], call.Plain := by
    simp +decide [Call.Plain, h.mem]
  have hlast : ∀ call ∈ [Call.words "-nographic" [],
      .words "-monitor" ["pty", "-monitor", "unix:" ++ p.monitorPath ++ ",server,nowait"],
      .words "-qmp" ["tcp:localhost:4444,server,wait=off"]], call.Plain := by
    simp +decide [Call.Plain, h.monitorPath]
  unfold calls
  simp only [List.forall_mem_append]
  exact ⟨⟨⟨⟨⟨⟨⟨⟨⟨⟨hfirst, hsmp⟩, hmem⟩, plain_firmware h⟩, hcdrom⟩, hnetwork⟩,
    plain_disk 0 h.hda⟩, plain_disk 1 h.hdb⟩, plain_sev h kernelHashes⟩, plain_kernel h⟩, hlast⟩

theorem test_plain {v : String} (h : PlainWord v) :
    w.test (w.atAssembly.unquoted v) = decide (v ≠ "") := by
  by_cases hv : v = ""
  · subst hv
    exact w.test_nil
  · have hplain : Words.Plain v.toList := by
      refine ⟨by simpa using hv, fun c hc => ?_⟩
      have hinert := isPlain_inert (List.all_eq_true.mp h c hc)
      exact ⟨hinert.2.1, hinert.2.2.2.1⟩
    rw [w.atAssembly.unquoted_of_plain hplain, w.test_word hv]
    simp [hv]

/-- Plain values reach QEMU as they are. -/
theorem faithful_of_plain (h : PlainParams p) : Faithful w p := by
  refine faithful_of_inert w (fun piece hpiece => ?_) fun _ _ => ?_
  · obtain ⟨call, hcall, hpiece⟩ := List.mem_flatMap.mp hpiece
    exact inert_of_plain w (plain_calls h _ call hcall) piece hpiece
  · unfold testHashes
    rw [test_plain w h.kernelFile, test_plain w h.initrdFile]

/-! ### A kernel command line with quotes in it -/

def Shells.toy : Shells where
  atAssembly := Words.Expansion.noFiles
  test args := args.head?.any (· ≠ "")
  test_nil := rfl
  test_word h := by simpa using h
  atLaunch := ⟨fun word => [word.text], fun _ => rfl⟩

/-- A SEV-SNP guest that boots a kernel directly. -/
def Params.toy (append : String) : Params where
  vars := ⟨"4", "/root/OVMF.fd", "/root/vmlinuz", "/root/initrd.img", append, "0x30000"⟩
  sev := true
  sevSnp := true
  qemuExe := "/usr/local/bin/qemu-system-x86_64"
  cpuModel := "EPYC-v4"
  mem := "2048"
  uefiVars := ""
  cdromFile := ""
  hda := "/root/disk.qcow2"
  hdb := ""
  cbitpos := 51
  certsPath := ""
  idBlock := none
  hostData := none
  monitorPath := "monitor"
  located := by decide
  firmware := show "/root/OVMF.fd" ≠ "" by decide
  hexPolicy _ := show "0x".toList.isPrefixOf "0x30000".toList = true by decide

/-- QEMU does not get the kernel command line of the config file: bash removes its quotes. -/
theorem quotes_lost :
    ¬ Faithful .toy (.toy "console=ttyS0 dyndbg=\"+p\"") ∧
      (read ((Call.append "console=ttyS0 dyndbg=\"+p\"").write .toy)).map (·.map Word.text)
        = some ["-append".toList, "console=ttyS0 dyndbg=+p".toList] := by
  refine ⟨fun h => ?_, by decide +kernel⟩
  have hquoted := h.append Shells.toy (show "/root/vmlinuz" ≠ "" by decide)
    (show "console=ttyS0 dyndbg=\"+p\"" ≠ "" by decide)
  exact (hquoted.chars '"' (by decide)).1 rfl

end SnpGuard.Launch
