/-
Calls that share a cache folder: `get_vceck_cert` step by step.

The client and `verify_report` keep certificates in one folder.  Here any number of
calls work on it at once, each one file-system call at a time: open, read a piece, ask
the key distribution service, create, write a piece, parse.  A call can fail at each of
them, or stop for good.  Readers and writers keep their own place in a file; creating a
file empties it under everybody else, and a write beyond the end fills the gap with
zeros.

A call that nobody interferes with is `CachingVCEKDownloader.getVceckCert`
(`returned_alone`).  Among others it can be worse off than with an empty folder: between
`File::create` and the last write the file is there and is no certificate, and a call that
stops in between leaves it so (`integrity_iff`, `crash_poisons`).  Calls that come one after
another, and do not fail, might as well all be downloads (`answers_eq_direct`).
-/
import SnpGuard.Lib.Lts
import SnpGuard.Vcek

namespace SnpGuard.VcekCache

/-- What one call looks up. -/
structure Query where
  chipId : Block 64
  productName : ProductName
  tcb : TcbVersion

/-- Its file in the cache folder. -/
def Query.name (q : Query) : String := filenameForVcek q.chipId q.productName q.tcb

variable {C : Crates} {κ : Type}

/-- Where a call is. -/
inductive Phase (C : Crates) where
  | idle
  | opening (q : Query)
  /-- The file was found, and this much of it read. -/
  | reading (q : Query) (certBytes : Bytes)
  | downloading (q : Query)
  | creating (q : Query) (certBytes : Bytes)
  /-- The file was created, and `written` bytes written. -/
  | writing (q : Query) (certBytes : Bytes) (written : Nat)
  | parsing (q : Query) (certBytes : Bytes)
  | returned (q : Query) (result : Outcome Whatever C.Certificate)
  | stopped

/-- The call is under way. -/
def Phase.IsActive : Phase C → Prop
  | .idle => False
  | .returned _ _ => False
  | .stopped => False
  | _ => True

structure State (C : Crates) (κ : Type) where
  folder : Folder
  call : κ → Phase C

/-- A step, by the call that takes it. -/
inductive Event (κ : Type) where
  | starts (k : κ)
  | opens (k : κ)
  | reads (k : κ)
  | downloads (k : κ)
  /-- `File::create` succeeds. -/
  | creates (k : κ)
  | writes (k : κ)
  | parses (k : κ)
  | fails (k : κ)
  | stops (k : κ)

def Event.caller : Event κ → κ
  | .starts k | .opens k | .reads k | .downloads k | .creates k | .writes k | .parses k
  | .fails k | .stops k => k

/-- `content` after `chunk` was written at `offset`. -/
def writeAt (content : Bytes) (offset : Nat) (chunk : Bytes) : Bytes :=
  (content ++ List.replicate (offset - content.length) 0).take offset ++ chunk ++
    content.drop (offset + chunk.length)

/-- What a call goes on with when it was answered. -/
def afterDownload (q : Query) : Outcome Whatever Bytes → Phase C
  | .ok certBytes => .creating q certBytes
  | .error e => .returned q (.error e)

/-- The step that makes a file. -/
def Event.IsCreate : Event κ → Prop
  | .creates _ => True
  | _ => False

variable [DecidableEq κ]

/-- Call `k` gets to another phase. -/
def State.at (s : State C κ) (k : κ) (phase : Phase C) : State C κ :=
  { s with call := Function.update s.call k phase }

/-- A file of the folder gets another content. -/
def State.put (s : State C κ) (q : Query) (content : Bytes) : State C κ :=
  { s with folder := Function.update s.folder q.name (some content) }

variable (C) (d : CachingVCEKDownloader)

inductive Step : State C κ → Event κ → State C κ → Prop
  | starts {s : State C κ} {k : κ} (q : Query) (hidle : s.call k = .idle) :
      Step s (.starts k) (s.at k (.opening q))
  | found {s : State C κ} {k : κ} {q : Query} {content : Bytes}
      (hopening : s.call k = .opening q) (hfile : s.folder q.name = some content) :
      Step s (.opens k) (s.at k (.reading q []))
  | notFound {s : State C κ} {k : κ} {q : Query} (hopening : s.call k = .opening q)
      (hfile : s.folder q.name = none) : Step s (.opens k) (s.at k (.downloading q))
  /-- `File::open` fails, and not because there is no file. -/
  | openFails {s : State C κ} {k : κ} {q : Query} (hopening : s.call k = .opening q) :
      Step s (.fails k) (s.at k (.returned q (Outcome.fail (d.filePath q.name))))
  /-- `read_to_end` gets up to `n` bytes from where it is. -/
  | reads {s : State C κ} {k : κ} {q : Query} {certBytes content : Bytes} (n : Nat)
      (hreading : s.call k = .reading q certBytes) (hfile : s.folder q.name = some content) :
      Step s (.reads k)
        (s.at k (.reading q (certBytes ++ (content.drop certBytes.length).take n)))
  | readsAll {s : State C κ} {k : κ} {q : Query} {certBytes content : Bytes}
      (hreading : s.call k = .reading q certBytes) (hfile : s.folder q.name = some content)
      (hend : content.length ≤ certBytes.length) :
      Step s (.reads k) (s.at k (.parsing q certBytes))
  | readFails {s : State C κ} {k : κ} {q : Query} {certBytes : Bytes}
      (hreading : s.call k = .reading q certBytes) :
      Step s (.fails k)
        (s.at k (.returned q (Outcome.fail "failed to read certificate file content")))
  /-- The key distribution service answers as it likes. -/
  | downloads {s : State C κ} {k : κ} {q : Query} (get : String → HttpResult)
      (hdownloading : s.call k = .downloading q) :
      Step s (.downloads k) (s.at k (afterDownload q
        (Outcome.context "failed to download certificate"
          (downloadVceckCert get q.chipId q.productName q.tcb))))
  | creates {s : State C κ} {k : κ} {q : Query} {certBytes : Bytes}
      (hcreating : s.call k = .creating q certBytes) :
      Step s (.creates k) ((s.put q []).at k (.writing q certBytes 0))
  | createFails {s : State C κ} {k : κ} {q : Query} {certBytes : Bytes}
      (hcreating : s.call k = .creating q certBytes) :
      Step s (.fails k) (s.at k (.returned q (Outcome.fail (d.filePath q.name))))
  /-- `write_all` writes up to `n` bytes more. -/
  | writes {s : State C κ} {k : κ} {q : Query} {certBytes content : Bytes} {written : Nat}
      (n : Nat) (hwriting : s.call k = .writing q certBytes written)
      (hfile : s.folder q.name = some content) :
      Step s (.writes k)
        ((s.put q (writeAt content written ((certBytes.drop written).take n))).at k
          (.writing q certBytes (min (written + n) certBytes.length)))
  | writesAll {s : State C κ} {k : κ} {q : Query} {certBytes : Bytes} {written : Nat}
      (hwriting : s.call k = .writing q certBytes written) (hend : certBytes.length ≤ written) :
      Step s (.writes k) (s.at k (.parsing q certBytes))
  | writeFails {s : State C κ} {k : κ} {q : Query} {certBytes : Bytes} {written : Nat}
      (hwriting : s.call k = .writing q certBytes written) :
      Step s (.fails k) (s.at k (.returned q (Outcome.fail "failed to write certificate")))
  | parses {s : State C κ} {k : κ} {q : Query} {certBytes : Bytes}
      (hparsing : s.call k = .parsing q certBytes) :
      Step s (.parses k) (s.at k (.returned q
        (Outcome.ofOption (C.certificateFromBytes certBytes) "failed to parse certificate")))
  /-- The process is killed. -/
  | stops {s : State C κ} {k : κ} (hactive : (s.call k).IsActive) :
      Step s (.stops k) (s.at k .stopped)

/-- Any number of calls, none of which has started, and a folder. -/
def calls (folder : Folder) : Lts (State C κ) (Event κ) where
  init s := s.folder = folder ∧ ∀ k, s.call k = .idle
  step := Step C d

/-- Every file of the folder is a certificate. -/
def Integrity (folder : Folder) : Prop :=
  ∀ name content, folder name = some content → (C.certificateFromBytes content).isSome

variable {C d}

/-! ### Every run from an empty folder -/

/-- Nothing was created: the folder is empty and nobody writes. -/
structure Untouched (s : State C κ) : Prop where
  empty : ∀ name, s.folder name = none
  noWriter : ∀ k q certBytes written, s.call k ≠ .writing q certBytes written

theorem at_call (s : State C κ) (k k' : κ) (phase : Phase C) :
    (s.at k phase).call k' = if k' = k then phase else s.call k' := by
  simp [State.at, Function.update_apply]

theorem Untouched.at {s : State C κ} (h : Untouched s) {k : κ} {phase : Phase C}
    (hphase : ∀ q certBytes written, phase ≠ .writing q certBytes written) :
    Untouched (s.at k phase) where
  empty := h.empty
  noWriter := by
    intro k' q certBytes written
    rw [at_call]
    by_cases hk : k' = k
    · rw [if_pos hk]
      exact hphase q certBytes written
    · rw [if_neg hk]
      exact h.noWriter k' q certBytes written

theorem afterDownload_ne_writing {q q' : Query} {r : Outcome Whatever Bytes} {certBytes : Bytes}
    {written : Nat} : (afterDownload q r : Phase C) ≠ .writing q' certBytes written := by
  cases r <;> simp [afterDownload]

/-- **Only creating a file touches the folder first.** -/
theorem Untouched.step {s s' : State C κ} {e : Event κ} (h : Untouched s)
    (hstep : Step C d s e s') (he : ¬ e.IsCreate) : Untouched s' := by
  cases hstep with
  | creates hcreating => exact absurd trivial he
  | writes n hwriting hfile => exact absurd hwriting (h.noWriter _ _ _ _)
  | downloads get hdownloading => exact h.at fun _ _ _ => afterDownload_ne_writing
  | _ => exact h.at (by simp)

/-- A file just created is in the folder, and empty. -/
theorem not_integrity_of_create (hempty : C.certificateFromBytes [] = none) {s s' : State C κ}
    {e : Event κ} (hstep : Step C d s e s') (he : e.IsCreate) : ¬ Integrity C s'.folder := by
  intro hintegrity
  cases hstep with
  | @creates k q certBytes hcreating =>
      have hsome : (C.certificateFromBytes []).isSome :=
        hintegrity q.name [] (Function.update_self _ _ _)
      rw [hempty] at hsome
      simp at hsome
  | _ => exact he

/-- **Integrity of the cache.**  From an empty folder, every file is a certificate after
every step of a run exactly when no call of the run gets to create a file. -/
theorem integrity_iff (hempty : C.certificateFromBytes [] = none)
    {path : List (Event κ × State C κ)} {s : State C κ}
    (h : (calls C d fun _ => none).Run path s) :
    (∀ e ∈ path, Integrity C e.2.folder) ↔ ∀ e ∈ path, ¬ e.1.IsCreate := by
  have hinit : ∀ t : State C κ, (calls C d fun _ => none).init t → Untouched t := by
    intro t ht
    obtain ⟨hfolder, hidle⟩ := ht
    refine ⟨?_, ?_⟩
    · intro name
      rw [hfolder]
    · intro k q certBytes written
      rw [hidle k]
      simp
  have hkeeps : ∀ (t : State C κ) e t', Untouched t → Step C d t e t' → ¬ e.IsCreate →
      Untouched t' ∧ Integrity C t'.folder := by
    intro t e t' ht hstep he
    have ht' := ht.step hstep he
    refine ⟨ht', ?_⟩
    intro name content hfile
    rw [ht'.empty name] at hfile
    simp at hfile
  exact h.all_iff_none hinit hkeeps fun t e t' hstep he => not_integrity_of_create hempty hstep he

/-! ### A call that nobody interferes with -/

theorem length_writeAt_end {content chunk : Bytes} :
    writeAt content content.length chunk = content ++ chunk := by
  simp [writeAt]

/-- Writing on where the front of a file ends. -/
theorem writeAt_take {certBytes : Bytes} {written n : Nat} (h : written ≤ certBytes.length) :
    writeAt (certBytes.take written) written ((certBytes.drop written).take n)
      = certBytes.take (min (written + n) certBytes.length) := by
  have hlength : (certBytes.take written).length = written := by
    rw [List.length_take]
    omega
  have hwrite : writeAt (certBytes.take written) (certBytes.take written).length
      ((certBytes.drop written).take n)
        = certBytes.take written ++ (certBytes.drop written).take n :=
    length_writeAt_end
  rw [hlength] at hwrite
  rw [hwrite, ← List.take_add, List.take_eq_take_iff]
  omega

/-- The service answered this call with a certificate, or what it took for one. -/
def Downloaded (q : Query) (certBytes : Bytes) : Prop :=
  ∃ get, downloadVceckCert get q.chipId q.productName q.tcb = .ok certBytes

/-- What a call that is alone has done to the folder it started with. -/
def Alone (d : CachingVCEKDownloader) (folder now : Folder) : Phase C → Prop
  | .idle => now = folder
  | .opening _ => now = folder
  | .reading q certBytes => now = folder ∧ ∃ rest, folder q.name = some (certBytes ++ rest)
  | .downloading q => now = folder ∧ folder q.name = none
  | .creating q certBytes => now = folder ∧ folder q.name = none ∧ Downloaded q certBytes
  | .writing q certBytes written =>
    now = Function.update folder q.name (some (certBytes.take written)) ∧ folder q.name = none ∧
      written ≤ certBytes.length ∧ Downloaded q certBytes
  | .parsing q certBytes =>
    (now = folder ∧ folder q.name = some certBytes) ∨
      (now = Function.update folder q.name (some certBytes) ∧ folder q.name = none ∧
        Downloaded q certBytes)
  | .returned q result => ∃ get faults,
    d.getVceckCert C get faults q.chipId q.productName q.tcb folder = (result, now)
  | .stopped => True

theorem at_call_self (s : State C κ) (k : κ) (phase : Phase C) : (s.at k phase).call k = phase := by
  rw [at_call, if_pos rfl]

/-- A call that returns has done what `get_vceck_cert` does, given these answers and faults. -/
theorem Alone.returns {folder now now' : Folder} {q : Query}
    {result : Outcome Whatever C.Certificate} (hnow : now = now') (get : String → HttpResult)
    (faults : FileFaults)
    (h : d.getVceckCert C get faults q.chipId q.productName q.tcb folder = (result, now')) :
    Alone d folder now (.returned q result) := by
  subst hnow
  exact ⟨get, faults, h⟩

theorem Alone.step {folder : Folder} {s s' : State C κ} {e : Event κ}
    (h : Alone d folder s.folder (s.call e.caller)) (hstep : Step C d s e s') :
    Alone d folder s'.folder (s'.call e.caller) := by
  cases hstep with
  | @starts k q hidle =>
      simp only [Event.caller, at_call_self, hidle] at h ⊢
      exact h
  | @found k q content hopening hfile =>
      simp only [Event.caller, at_call_self, hopening] at h ⊢
      have hnow : s.folder = folder := h
      refine ⟨h, content, ?_⟩
      rw [← hnow, hfile]
      rfl
  | @notFound k q hopening hfile =>
      simp only [Event.caller, at_call_self, hopening] at h ⊢
      have hnow : s.folder = folder := h
      refine ⟨h, ?_⟩
      rw [← hnow]
      exact hfile
  | @openFails k q hopening =>
      simp only [Event.caller, at_call_self, hopening] at h ⊢
      exact .returns h (fun _ => .failed) { FileFaults.none with openFails := true }
        (CachingVCEKDownloader.getVceckCert_openFails rfl)
  | @reads k q certBytes content n hreading hfile =>
      simp only [Event.caller, at_call_self, hreading] at h ⊢
      obtain ⟨hnow, rest, hrest⟩ := h
      rw [hnow, hrest, Option.some.injEq] at hfile
      have hcontent : content = certBytes ++ rest := hfile.symm
      refine ⟨hnow, rest.drop n, ?_⟩
      rw [hrest, hcontent, List.drop_left, List.append_assoc, List.take_append_drop]
  | @readsAll k q certBytes content hreading hfile hend =>
      simp only [Event.caller, at_call_self, hreading] at h ⊢
      obtain ⟨hnow, rest, hrest⟩ := h
      rw [hnow, hrest, Option.some.injEq] at hfile
      have hcontent : content = certBytes ++ rest := hfile.symm
      have hnil : rest = [] := by
        rw [hcontent, List.length_append] at hend
        exact List.eq_nil_of_length_eq_zero (by omega)
      rw [hnil, List.append_nil] at hrest
      exact Or.inl ⟨hnow, hrest⟩
  | @readFails k q certBytes hreading =>
      simp only [Event.caller, at_call_self, hreading] at h ⊢
      obtain ⟨hnow, rest, hrest⟩ := h
      exact .returns hnow (fun _ => .failed) { FileFaults.none with readFails := true }
        (CachingVCEKDownloader.getVceckCert_readFails rfl rfl hrest)
  | @downloads k q get hdownloading =>
      simp only [Event.caller, at_call_self, hdownloading] at h ⊢
      obtain ⟨hnow, hfile⟩ := h
      cases hget : Outcome.context "failed to download certificate"
          (downloadVceckCert get q.chipId q.productName q.tcb) with
      | ok certBytes => exact ⟨hnow, hfile, get, Outcome.context_eq_ok.mp hget⟩
      | error failure =>
          exact .returns hnow get .none
            (CachingVCEKDownloader.getVceckCert_downloadFails rfl hfile hget)
  | @creates k q certBytes hcreating =>
      simp only [Event.caller, at_call_self, hcreating] at h ⊢
      obtain ⟨hnow, hfile, hdownloaded⟩ := h
      refine ⟨?_, hfile, Nat.zero_le _, hdownloaded⟩
      show Function.update s.folder q.name (some []) = _
      rw [hnow, List.take_zero]
  | @createFails k q certBytes hcreating =>
      simp only [Event.caller, at_call_self, hcreating] at h ⊢
      obtain ⟨hnow, hfile, get, hget⟩ := h
      exact .returns hnow get { FileFaults.none with createFails := true }
        (CachingVCEKDownloader.getVceckCert_createFails rfl hfile hget rfl)
  | @writes k q certBytes content written n hwriting hfile =>
      simp only [Event.caller, at_call_self, hwriting] at h ⊢
      obtain ⟨hnow, hmissing, hwritten, hdownloaded⟩ := h
      have hcontent : content = certBytes.take written := by
        rw [hnow, Function.update_self, Option.some.injEq] at hfile
        exact hfile.symm
      refine ⟨?_, hmissing, Nat.min_le_right _ _, hdownloaded⟩
      show Function.update s.folder q.name (some (writeAt content written _)) = _
      rw [hcontent, writeAt_take hwritten, hnow, Function.update_idem]
  | @writesAll k q certBytes written hwriting hend =>
      simp only [Event.caller, at_call_self, hwriting] at h ⊢
      obtain ⟨hnow, hmissing, hwritten, hdownloaded⟩ := h
      refine Or.inr ⟨?_, hmissing, hdownloaded⟩
      show s.folder = _
      rw [hnow, List.take_of_length_le hend]
  | @writeFails k q certBytes written hwriting =>
      simp only [Event.caller, at_call_self, hwriting] at h ⊢
      obtain ⟨hnow, hmissing, hwritten, get, hget⟩ := h
      exact .returns hnow get { FileFaults.none with writeFailsAfter := some written }
        (CachingVCEKDownloader.getVceckCert_writeFails rfl hmissing hget rfl rfl)
  | @parses k q certBytes hparsing =>
      simp only [Event.caller, at_call_self, hparsing] at h ⊢
      rcases h with ⟨hnow, hfile⟩ | ⟨hnow, hfile, get, hget⟩
      · exact .returns hnow (fun _ => .failed) .none
          (CachingVCEKDownloader.getVceckCert_cached hfile)
      · exact .returns hnow get .none
          (CachingVCEKDownloader.getVceckCert_downloaded hfile hget)
  | @stops k hactive =>
      simp only [Event.caller, at_call_self]
      trivial

/-- **A call that nobody interferes with is `get_vceck_cert` with some answers and some
faults.** -/
theorem returned_alone {folder : Folder} {k : κ} {s : State C κ}
    (h : ((calls C d folder).guarded fun _ e => e.caller = k).Reachable s) {q : Query}
    {result : Outcome Whatever C.Certificate} (hreturned : s.call k = .returned q result) :
    ∃ get faults, d.getVceckCert C get faults q.chipId q.productName q.tcb folder
      = (result, s.folder) := by
  have hI : Alone d folder s.folder (s.call k) := by
    refine h.invariant (I := fun t => Alone d folder t.folder (t.call k)) ?_ ?_
    · intro t ht
      obtain ⟨hfolder, hidle⟩ := ht
      rw [hidle k]
      exact hfolder
    · intro t e t' _ hI hstep
      obtain ⟨hstep, rfl⟩ := hstep
      exact hI.step hstep
  rw [hreturned] at hI
  exact hI

/-! ### Two calls for one certificate -/

/-- A call that has not started can start, and miss its file. -/
theorem run_missed {folder : Folder} {path : List (Event κ × State C κ)} {s : State C κ}
    (h : (calls C d folder).Run path s) {k : κ} (hidle : s.call k = .idle) {q : Query}
    (hfile : s.folder q.name = none) :
    ∃ path' s', (calls C d folder).Run path' s' ∧ (∀ e ∈ path', e ∈ path ∨ ¬ e.1.IsCreate) ∧
      s'.call k = .downloading q ∧ ∀ k', k' ≠ k → s'.call k' = s.call k' := by
  let opening := s.at k (.opening q)
  let missed := opening.at k (.downloading q)
  have hopens : Step C d opening (.opens k) missed := .notFound (at_call_self s k _) hfile
  refine ⟨_, missed, (h.snoc (.starts q hidle)).snoc hopens, ?_, at_call_self opening k _, ?_⟩
  · intro e he
    simp only [List.append_assoc, List.mem_append, List.mem_singleton] at he
    rcases he with he | he | he
    · exact Or.inl he
    · rw [he]
      exact Or.inr id
    · rw [he]
      exact Or.inr id
  · intro k' hk
    rw [at_call, if_neg hk, at_call, if_neg hk]

/-- A call with something to store can be killed when it has created its file. -/
theorem run_killed {folder : Folder} {path : List (Event κ × State C κ)} {s : State C κ}
    (h : (calls C d folder).Run path s) {k : κ} {q : Query} (hcall : s.call k = .downloading q)
    {certBytes : Bytes} (hget : Downloaded q certBytes) :
    ∃ path' s', (calls C d folder).Run path' s' ∧ (.stops k, s') ∈ path' ∧
      s'.folder q.name = some [] ∧ ∀ k', k' ≠ k → s'.call k' = s.call k' := by
  obtain ⟨get, hget⟩ := hget
  let creating := s.at k (.creating q certBytes)
  let writing := (creating.put q []).at k (.writing q certBytes 0)
  let killed := writing.at k .stopped
  have hdownloads : Step C d s (.downloads k) creating := by
    have hstep : Step C d s (.downloads k) _ := .downloads get hcall
    rw [hget] at hstep
    exact hstep
  have hcreates : Step C d creating (.creates k) writing := .creates (at_call_self s k _)
  have hwriting : writing.call k = .writing q certBytes 0 := at_call_self (creating.put q []) k _
  have hstops : Step C d writing (.stops k) killed := by
    refine .stops ?_
    rw [hwriting]
    trivial
  refine ⟨_, killed, ((h.snoc hdownloads).snoc hcreates).snoc hstops, by simp, ?_, ?_⟩
  · exact Function.update_self _ _ _
  · intro k' hk
    have hput : (creating.put q []).call k' = creating.call k' := rfl
    rw [at_call, if_neg hk, at_call, if_neg hk, hput, at_call, if_neg hk]

/-- A call that starts on an empty file gets what an empty byte string parses to. -/
theorem run_empty {folder : Folder} {path : List (Event κ × State C κ)} {s : State C κ}
    (h : (calls C d folder).Run path s) {k : κ} (hidle : s.call k = .idle) {q : Query}
    (hfile : s.folder q.name = some []) :
    ∃ path' s', (calls C d folder).Run path' s' ∧ (∀ e ∈ path, e ∈ path') ∧
      s'.call k = .returned q
        (Outcome.ofOption (C.certificateFromBytes []) "failed to parse certificate") := by
  let opening := s.at k (.opening q)
  let reading := opening.at k (.reading q [])
  let parsing := reading.at k (.parsing q [])
  let returned := parsing.at k (.returned q
    (Outcome.ofOption (C.certificateFromBytes []) "failed to parse certificate"))
  have hopens : Step C d opening (.opens k) reading := .found (at_call_self s k _) hfile
  have hreads : Step C d reading (.reads k) parsing :=
    .readsAll (at_call_self opening k _) hfile (Nat.zero_le _)
  have hparses : Step C d parsing (.parses k) returned := .parses (at_call_self reading k _)
  refine ⟨_, returned, (((h.snoc (.starts q hidle)).snoc hopens).snoc hreads).snoc hparses, ?_,
    at_call_self parsing k _⟩
  intro e he
  simp [he]

def toyQuery : Query := ⟨Block.zero 64, .milan, .default⟩

def toyCache : CachingVCEKDownloader := ⟨"/tmp/snp-vcek-cache"⟩

abbrev toyCalls : Lts (State Crates.toy Bool) (Event Bool) :=
  calls Crates.toy toyCache fun _ => none

/-- The service answers everything with one certificate. -/
def toyGet (_ : String) : HttpResult := .response 200 (some (Bytes.ofString "certificate"))

theorem toyGet_ok (q : Query) :
    downloadVceckCert toyGet q.chipId q.productName q.tcb = .ok (Bytes.ofString "certificate") :=
  downloadVceckCert_eq_ok.mpr ⟨200, rfl, by decide⟩

/-- No call has started, and then one of two misses its file. -/
theorem toy_missed : ∃ path s, toyCalls.Run path s ∧ (∀ e ∈ path, ¬ e.1.IsCreate) ∧
    s.call false = .downloading toyQuery ∧ s.call true = .idle := by
  have hidle : toyCalls.Run [] ⟨fun _ => none, fun _ => .idle⟩ := .init ⟨rfl, fun _ => rfl⟩
  obtain ⟨path, s, hrun, hpath, hcall, hothers⟩ := @run_missed _ _ _ _ _ _ _ hidle false rfl
    toyQuery rfl
  refine ⟨path, s, hrun, ?_, hcall, hothers true (by decide)⟩
  intro e he
  rcases hpath e he with hold | hnone
  · exact absurd hold (by simp)
  · exact hnone

/-- **A call that is killed leaves a file on which no later call returns `Ok`**, while with an
empty folder the later call succeeds. -/
theorem crash_poisons :
    (∃ path s, toyCalls.Run path s ∧ (∃ e ∈ path, ¬ Integrity Crates.toy e.2.folder) ∧
      s.call true = .returned toyQuery (Outcome.fail "failed to parse certificate")) ∧
    (toyCache.getVceckCert Crates.toy toyGet .none toyQuery.chipId toyQuery.productName
      toyQuery.tcb fun _ => none).1 = .ok "certificate" := by
  refine ⟨?_, ?_⟩
  · obtain ⟨path, s, hrun, -, hcall, htrue⟩ := toy_missed
    obtain ⟨path₁, s₁, hrun₁, hmem, hfile, hothers⟩ :=
      run_killed hrun hcall ⟨toyGet, toyGet_ok toyQuery⟩
    have htrue₁ : s₁.call true = .idle := by rw [hothers true (by decide), htrue]
    obtain ⟨path₂, s₂, hrun₂, hkept, hresult⟩ := run_empty hrun₁ htrue₁ hfile
    refine ⟨path₂, s₂, hrun₂, ⟨_, hkept _ hmem, ?_⟩, hresult⟩
    intro hintegrity
    exact absurd (hintegrity _ _ hfile) (by decide)
  · have hdownloaded := @CachingVCEKDownloader.getVceckCert_downloaded Crates.toy toyGet toyCache
      toyQuery.chipId toyQuery.productName toyQuery.tcb (fun _ => none) _ rfl (toyGet_ok toyQuery)
    have hparse : Crates.toy.certificateFromBytes (Bytes.ofString "certificate")
        = some "certificate" := by
      show (Bytes.toString? (Bytes.ofString "certificate")).filter (· ≠ "") = some "certificate"
      rw [Bytes.toString?_ofString]
      decide
    rw [hdownloaded, hparse]
    rfl

/-- A call that cannot download leaves the cache as it was. -/
theorem failed_download_keeps : ∃ path s, toyCalls.Run path s ∧
    s.call false = .returned toyQuery (Outcome.fail "failed to download certificate") ∧
    ∀ e ∈ path, Integrity Crates.toy e.2.folder := by
  obtain ⟨path, s, hrun, hnone, hcall, -⟩ := toy_missed
  have hfailed : Step Crates.toy toyCache s (.downloads false) (s.at false (.returned toyQuery
      (Outcome.fail "failed to download certificate"))) := .downloads (fun _ => .failed) hcall
  refine ⟨_, _, hrun.snoc hfailed, at_call_self _ _ _,
    (integrity_iff (by decide) (hrun.snoc hfailed)).mpr ?_⟩
  intro e he
  rcases List.mem_append.mp he with he | he
  · exact hnone e he
  · rw [List.mem_singleton.mp he]
    exact id

/-! ### Calls one after another -/

/-- The same version of the same chip's certificate. -/
def Query.Same (q q' : Query) : Prop :=
  q.chipId = q'.chipId ∧ q.productName = q'.productName ∧ q.tcb.Same q'.tcb

theorem Query.name_eq_iff {q q' : Query} : q.name = q'.name ↔ q.Same q' := by
  refine ⟨filenameForVcek_injective, ?_⟩
  intro h
  obtain ⟨hchip, hproduct, htcb⟩ := h
  unfold Query.name
  rw [hchip, hproduct, filenameForVcek_same htcb]

/-- The URL it is downloaded from. -/
def Query.url (q : Query) : String := vcekUrl q.chipId q.productName q.tcb

theorem Query.Same.url {q q' : Query} (h : q.Same q') : q.url = q'.url := by
  obtain ⟨hchip, hproduct, htcb⟩ := h
  unfold Query.url
  rw [hchip, hproduct, vcekUrl_same htcb]

/-- `download_vceck_cert`, of a query. -/
def Query.download (q : Query) (get : String → HttpResult) : Outcome Whatever Bytes :=
  downloadVceckCert get q.chipId q.productName q.tcb

/-- The download knows its query by the URL. -/
theorem Query.download_ok_of_url {q q' : Query} (h : q.url = q'.url) {get : String → HttpResult}
    {bytes : Bytes} (hget : q.download get = .ok bytes) : q'.download get = .ok bytes := by
  obtain ⟨status, hstatus, herror⟩ := downloadVceckCert_eq_ok.mp hget
  refine downloadVceckCert_eq_ok.mpr ⟨status, ?_, herror⟩
  show get q'.url = _
  rw [← h]
  exact hstatus

/-- Without a cache: what was downloaded, parsed. -/
def direct (C : Crates) (get : String → HttpResult) (q : Query) :
    Outcome Whatever C.Certificate := do
  let certBytes ← Outcome.context "failed to download certificate" (q.download get)
  Outcome.ofOption (C.certificateFromBytes certBytes) "failed to parse certificate"

/-- What calls return, each on the folder that the one before left behind. -/
def answers (C : Crates) (d : CachingVCEKDownloader) (get : String → HttpResult) :
    List Query → Folder → List (Outcome Whatever C.Certificate)
  | [], _ => []
  | q :: qs, folder =>
    let (result, folder') := d.getVceckCert C get .none q.chipId q.productName q.tcb folder
    result :: answers C d get qs folder'

/-- Every certificate in the folder is the one that would be downloaded. -/
def Mirrors (get : String → HttpResult) (folder : Folder) : Prop :=
  ∀ q : Query, ∀ content, folder q.name = some content → q.download get = .ok content

/-- **One call returns what the download does, and the folder stays as it should be.** -/
theorem Mirrors.step {d : CachingVCEKDownloader} {get : String → HttpResult} {folder : Folder}
    (h : Mirrors get folder) (q : Query) :
    ∃ folder', d.getVceckCert C get .none q.chipId q.productName q.tcb folder
      = (direct C get q, folder') ∧ Mirrors get folder' := by
  cases hfile : folder q.name with
  | some content =>
      refine ⟨folder, ?_, h⟩
      rw [CachingVCEKDownloader.getVceckCert_cached hfile, direct, h q content hfile]
      rfl
  | none =>
      cases hget : q.download get with
      | error e =>
          have hcontext : ∃ e', Outcome.context "failed to download certificate"
              (q.download get) = .error e' := by
            rw [hget]
            rcases e with e | msg
            · exact ⟨_, rfl⟩
            · exact ⟨_, rfl⟩
          obtain ⟨e', he'⟩ := hcontext
          refine ⟨folder, ?_, h⟩
          rw [CachingVCEKDownloader.getVceckCert_downloadFails rfl hfile he', direct, he']
          rfl
      | ok body =>
          refine ⟨Function.update folder q.name (some body), ?_, ?_⟩
          · rw [CachingVCEKDownloader.getVceckCert_downloaded hfile hget, direct, hget]
            rfl
          · intro q' content hcontent
            by_cases hname : q'.name = q.name
            · rw [hname, Function.update_self, Option.some.injEq] at hcontent
              rw [← hcontent]
              have hsame := Query.name_eq_iff.mp hname
              exact Query.download_ok_of_url hsame.url.symm hget
            · rw [Function.update_of_ne hname] at hcontent
              exact h q' content hcontent

theorem Mirrors.answers {d : CachingVCEKDownloader} {get : String → HttpResult} (qs : List Query)
    {folder : Folder} (h : Mirrors get folder) :
    answers C d get qs folder = qs.map (direct C get) := by
  induction qs generalizing folder with
  | nil => rfl
  | cons q qs ih =>
      obtain ⟨folder', hcall, hfolder'⟩ := h.step (C := C) (d := d) q
      simp only [VcekCache.answers, hcall, List.map_cons, ih hfolder']

/-- **From an empty folder every call of a sequence returns what the direct download does**,
since a file name stands for one certificate, and so for one URL. -/
theorem answers_eq_direct (C : Crates) (d : CachingVCEKDownloader) (get : String → HttpResult)
    (qs : List Query) :
    answers C d get qs (fun _ => none) = qs.map (direct C get) ∧
      (∀ q q' : Query, q.name = q'.name ↔ q.Same q') ∧
      ∀ q q' : Query, q.Same q' → q.url = q'.url := by
  have hempty : Mirrors get fun _ => none := by
    intro q content h
    simp at h
  exact ⟨hempty.answers qs, fun _ _ => Query.name_eq_iff, fun _ _ h => h.url⟩

end SnpGuard.VcekCache
