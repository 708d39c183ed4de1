/-
Cleaning up after a conversion: `clean_up` in `common.sh`.

The `trap` calls it wherever `setup_luks.sh` and `setup_verity.sh` exit.  It goes by fixed
names: it closes the mapping, disconnects the devices and removes the folders whether or not
the run made them, and it ignores a `umount` that fails, so that `rm -rf` goes through the
files of the source image.  Of the logical volumes it lets those alone that were there before,
unless one of them is listed last.  `run_undisturbed_iff` says from which exits all this does
no damage.
-/
import SnpGuard.ConvertImage

namespace SnpGuard.CleanUp

open ConvertImage

/-! ### The commands -/

/-- What becomes of the commands on a folder. -/
structure Undo where
  umount : Bool
  /-- The files that `rm` can delete in what is still mounted. -/
  deletes : File → Bool
  removes : Bool

structure Outcomes where
  src : Undo
  dst : Undo
  closes : Bool
  /-- The volumes that cannot be deactivated. -/
  busy : Lv → Bool
  disconnectsSrc : Bool
  disconnectsDst : Bool
  unloads : Bool

/-- `rm -rf`.  What is mounted is emptied, and the folder stays. -/
def removeFolder (folder : String) (u : Undo) : Effect State Unit Unit := fun s =>
  match s.mounts folder with
  | some fs => (fails, s.write fs ((s.files fs).filter fun file => !u.deletes file))
  | none =>
    if u.removes then
      (.ok (), { s with folders := Function.update s.folders folder false })
    else (fails, s)

/-- `umount`, whose failure is ignored, and `rm`. -/
def undoFolder (folder : String) (u : Undo) : Effect State Unit Unit := fun s =>
  if s.folders folder then
    removeFolder folder u (if u.umount then s.unmount folder else s)
  else (.ok (), s)

def closeRoot (o : Outcomes) : Effect State Unit Unit :=
  Effect.modify fun s =>
    if o.closes then { s with mapping := Function.update s.mapping rootName none } else s

/-- `lvchange -an` and `vgchange -an`, on the volumes that are chosen. -/
def deactivate (busy : Lv → Bool) (chosen : Lv → Bool) : Effect State Unit Unit := fun s =>
  let lvs := s.lvs.map fun v => if chosen v && !busy v then v.deactivated else v
  let ok := s.lvs.all fun v => !(chosen v && v.active && busy v)
  (if ok then .ok () else fails, { s with lvs })

def deactivateLast (o : Outcomes) (last : Lv) : Effect State Unit Unit := do
  deactivate o.busy fun v => v.path == last.path
  deactivate o.busy fun v => v.vg == last.vg

def unmountLvmDevice (o : Outcomes) : Effect State Unit Unit := fun s =>
  match s.newVolume with
  | some last => deactivateLast o last s
  | none => (.ok (), s)

/-- `qemu-nbd --disconnect`, on a device that exists. -/
def disconnect (d : Nat) (disconnects : Bool) : Effect State Unit Unit :=
  Effect.modify fun s => if s.hasDevice d ∧ disconnects then s.connect d none else s

/-- `modprobe -r`, which fails as long as a device is connected. -/
def unload (o : Outcomes) : Effect State Unit Unit :=
  Effect.modify fun s =>
    if o.unloads ∧ (s.nbd.getD []).all (· == none) then { s with nbd := none } else s

def cleanUp (o : Outcomes) : Effect State Unit Unit := fun s =>
  (do
    -- `set -e` holds in the `trap`, too: `rm`, `lvchange` and `vgchange` can end it.
    undoFolder s.srcFolder o.src
    undoFolder s.dstFolder o.dst
    closeRoot o
    unmountLvmDevice o
    disconnect srcDevice o.disconnectsSrc
    disconnect dstDevice o.disconnectsDst
    unload o) s

/-- A whole run: `clean_up` is not called in front of the `trap`. -/
def run (w : World) (script : Script) (args : List String) (o : Outcomes) (s : State) : State :=
  match setUp w s with
  | (.ok (), t) => (cleanUp o (atExit w script args t).2).2
  | (.error _, t) => t

/-! ### What is wanted -/

/-- The files of the source image are as they were, and what was connected, mapped or mounted
still is. -/
structure Undisturbed (s t : State) : Prop where
  files : t.files .source = s.files .source
  connection : ∀ {d image}, s.connection d = some image → t.connection d = some image
  mapping : ∀ {name target}, s.mapping name = some target → t.mapping name = some target
  volume : ∀ {v}, v ∈ s.lvs → v.active = true → v ∈ t.lvs
  mount : ∀ {path fs}, s.mounts path = some fs → t.mounts path = some fs

/-- Nothing that `clean_up` goes for was there before the run. -/
structure NothingToLose (s m : State) : Prop where
  src : s.connection srcDevice = none
  dst : s.connection dstDevice = none
  root : s.mapping rootName = none
  volume : ∀ last, m.newVolume = some last →
    ∀ v ∈ s.lvs, v.active = true → v.path ≠ last.path ∧ v.vg ≠ last.vg

/-- The exits from which a run does no damage.  Of the outcomes of `clean_up` only that of the
first `umount` is given.  Where it fails with something mounted, `rm` fails as well and ends
`clean_up`. -/
def Spared (w : World) (script : Script) (args : List String) (umount : Bool) (s : State)
    (ran : List Command) (m : State) : Prop :=
  (SourceOverwritten w script args ran → s.files .source = []) ∧
    if umount = false ∧ m.mounts m.srcFolder ≠ none then
      m.mounts m.srcFolder = some .source → s.files .source = []
    else NothingToLose s m

variable {s m t : State} {o : Outcomes} {u : Undo} {folder : String}

/-! ### The folders -/

/-- A folder is gone, or could not be removed.  Nothing else has changed. -/
structure Undone (folder : String) (m t : State) : Prop where
  nbd : t.nbd = m.nbd
  mapping : t.mapping = m.mapping
  lvs : t.lvs = m.lvs
  lvmDevices : t.lvmDevices = m.lvmDevices
  files : t.files = m.files
  folders : ∀ {path}, path ≠ folder → t.folders path = m.folders path
  mounts : ∀ {path}, path ≠ folder → t.mounts path = m.mounts path

theorem removeFolder_of_free (h : m.mounts folder = none) :
    ∃ r t, removeFolder folder u m = (r, t) ∧ Undone folder m t ∧ t.mounts = m.mounts ∧
      (u.removes = true → r = .ok ()) := by
  unfold removeFolder
  rw [h]
  by_cases hremoves : u.removes = true
  · refine ⟨.ok (), _, if_pos hremoves, ?_, rfl, fun _ => rfl⟩
    exact ⟨rfl, rfl, rfl, rfl, rfl, fun hne => Function.update_of_ne hne _ _, fun _ => rfl⟩
  · refine ⟨fails, m, if_neg hremoves, ?_, rfl, fun h => absurd h hremoves⟩
    exact ⟨rfl, rfl, rfl, rfl, rfl, fun _ => rfl, fun _ => rfl⟩

/-- With nothing mounted the files stay. -/
theorem undoFolder_of_free (h : u.umount = true ∨ m.mounts folder = none) :
    ∃ r t, undoFolder folder u m = (r, t) ∧ Undone folder m t ∧
      (u.removes = true → r = .ok ()) := by
  unfold undoFolder
  by_cases hfolder : m.folders folder = true
  · rw [if_pos hfolder]
    by_cases humount : u.umount = true
    · rw [if_pos humount]
      have hfree : (m.unmount folder).mounts folder = none := Function.update_self _ _ _
      obtain ⟨r, t, hremove, hundone, hmounts, hr⟩ := removeFolder_of_free (u := u) hfree
      refine ⟨r, t, hremove, ⟨hundone.nbd, hundone.mapping, hundone.lvs, hundone.lvmDevices,
        hundone.files, hundone.folders, fun {path} hne => ?_⟩, hr⟩
      rw [hmounts]
      exact Function.update_of_ne hne _ _
    · rw [if_neg humount]
      obtain ⟨r, t, hremove, hundone, -, hr⟩ :=
        removeFolder_of_free (u := u) (h.resolve_left humount)
      exact ⟨r, t, hremove, hundone, hr⟩
  · rw [if_neg hfolder]
    exact ⟨_, m, rfl, ⟨rfl, rfl, rfl, rfl, rfl, fun _ => rfl, fun _ => rfl⟩, fun _ => rfl⟩

/-- What is still mounted is emptied, and the folder cannot be removed. -/
theorem undoFolder_of_mounted {fs : Fs} (hfolder : m.folders folder = true)
    (humount : u.umount = false) (hmount : m.mounts folder = some fs) :
    undoFolder folder u m
      = (fails, m.write fs ((m.files fs).filter fun file => !u.deletes file)) := by
  unfold undoFolder removeFolder
  simp [hfolder, humount, hmount]

/-! ### The devices -/

theorem leaves_seq {x : Effect State Unit Unit} {f : Unit → Effect State Unit Unit}
    {P : State → Prop} (hx : x.Leaves s P) (hf : ∀ t, P t → (f ()).Leaves t P) :
    (x >>= f).Leaves s P :=
  Effect.leaves_bind hx (fun _ h => h) fun _ t h => hf t h

/-- The commands on devices change no files and no mounts. -/
structure Detached (s m t : State) : Prop where
  undisturbed : Undisturbed s t
  newVolume : t.newVolume = m.newVolume

theorem closeRoot_leaves (hroot : s.mapping rootName = none) (h : Detached s m t) :
    (closeRoot o).Leaves t (Detached s m) := by
  obtain ⟨⟨hfiles, hconnection, hmapping, hvolume, hmount⟩, hnew⟩ := h
  show Detached s m (if o.closes then _ else t)
  split
  · refine ⟨⟨hfiles, hconnection, fun {name target} hname => ?_, hvolume, hmount⟩, hnew⟩
    exact (Function.update_of_ne (ne_of_free hname hroot) _ _).trans (hmapping hname)
  · exact ⟨⟨hfiles, hconnection, hmapping, hvolume, hmount⟩, hnew⟩

theorem mem_deactivate {busy chosen : Lv → Bool} {v : Lv} (hv : v ∈ t.lvs)
    (hother : chosen v = false) : v ∈ (deactivate busy chosen t).2.lvs := by
  show v ∈ t.lvs.map _
  rw [List.mem_map]
  exact ⟨v, hv, by simp [hother]⟩

/-- A volume stays that is neither at the path nor in the group of the last one. -/
theorem unmountLvmDevice_leaves (hvolume : ∀ last, m.newVolume = some last →
      ∀ v ∈ s.lvs, v.active = true → v.path ≠ last.path ∧ v.vg ≠ last.vg)
    (h : Detached s m t) : (unmountLvmDevice o).Leaves t (Undisturbed s) := by
  have hsame := h.newVolume
  cases hnew : m.newVolume with
  | none =>
      rw [hnew] at hsame
      simp only [Effect.Leaves, unmountLvmDevice, hsame]
      exact h.undisturbed
  | some last =>
      rw [hnew] at hsame
      simp only [Effect.Leaves, unmountLvmDevice, hsame]
      have hstays : ∀ {chosen : Lv → Bool} {t : State}, (∀ v ∈ s.lvs, v.active = true →
          chosen v = false) → Undisturbed s t → (deactivate o.busy chosen).Leaves t
            (Undisturbed s) := fun hchosen ht =>
        ⟨ht.files, ht.connection, ht.mapping,
          fun hv hactive => mem_deactivate (ht.volume hv hactive) (hchosen _ hv hactive),
          ht.mount⟩
      refine leaves_seq (hstays (fun v hv hactive => ?_) h.undisturbed)
        fun t ht => hstays (fun v hv hactive => ?_) ht
      · simpa using (hvolume last hnew v hv hactive).1
      · simpa using (hvolume last hnew v hv hactive).2

theorem disconnect_leaves {d : Nat} {disconnects : Bool} (hfree : s.connection d = none)
    (h : Undisturbed s t) : (disconnect d disconnects).Leaves t (Undisturbed s) := by
  show Undisturbed s (if t.hasDevice d ∧ disconnects then _ else t)
  split
  · rename_i hdisconnect
    refine ⟨h.files, fun {e image} he => ?_, h.mapping, h.volume, h.mount⟩
    rw [State.connection_connect e hdisconnect.1, if_neg (ne_of_free he hfree)]
    exact h.connection he
  · exact h

/-- The module is only unloaded if nothing is connected. -/
theorem unload_leaves (h : Undisturbed s t) : (unload o).Leaves t (Undisturbed s) := by
  show Undisturbed s (if o.unloads ∧ (t.nbd.getD []).all (· == none) then _ else t)
  split
  · rename_i hunload
    rw [List.all_eq_true] at hunload
    refine ⟨h.files, fun {d image} hd => ?_, h.mapping, h.volume, h.mount⟩
    have hstill := h.connection hd
    cases hnbd : t.nbd with
    | none => simp [State.connection, hnbd] at hstill
    | some devices =>
        simp only [State.connection, hnbd, Option.bind_some, Option.join_eq_some_iff] at hstill
        have hnone := hunload.2 _ (by simpa [hnbd] using List.mem_of_getElem? hstill)
        simp at hnone
  · exact h

/-- What `clean_up` does behind the folders. -/
def undoDevices (o : Outcomes) : Effect State Unit Unit := do
  closeRoot o
  unmountLvmDevice o
  disconnect srcDevice o.disconnectsSrc
  disconnect dstDevice o.disconnectsDst
  unload o

theorem cleanUp_eq (o : Outcomes) (m : State) : cleanUp o m =
    (undoFolder m.srcFolder o.src >>= fun _ =>
      undoFolder m.dstFolder o.dst >>= fun _ => undoDevices o) m := rfl

theorem undoDevices_leaves (hnothing : NothingToLose s m) (h : Detached s m t) :
    (undoDevices o).Leaves t (Undisturbed s) := by
  unfold undoDevices
  refine Effect.leaves_bind (closeRoot_leaves hnothing.root h) (fun _ h => h.undisturbed) ?_
  intro _ t h
  refine leaves_seq (unmountLvmDevice_leaves hnothing.volume h) fun t h => ?_
  refine leaves_seq (disconnect_leaves hnothing.src h) fun t h => ?_
  exact leaves_seq (disconnect_leaves hnothing.dst h) fun t h => unload_leaves h

/-! ### No damage -/

theorem Detached.start (h : Underway s m) (hfiles : m.files .source = s.files .source) :
    Detached s m m :=
  ⟨⟨hfiles, h.connection, h.mapping, fun hv _ => h.lvs.subset hv, h.mounts⟩, rfl⟩

theorem Detached.undone {t' : State} (h : Detached s m t) (hnew : s.mounts folder = none)
    (hundone : Undone folder t t') : Detached s m t' := by
  obtain ⟨⟨hfiles, hconnection, hmapping, hvolume, hmount⟩, hnewVolume⟩ := h
  refine ⟨⟨?_, fun {d image} hd => ?_, fun {name target} hname => ?_, fun {v} hv hactive => ?_,
    fun {path fs} hpath => ?_⟩, ?_⟩
  · rw [hundone.files, hfiles]
  · rw [State.connection, hundone.nbd]
    exact hconnection hd
  · rw [hundone.mapping, hmapping hname]
  · rw [hundone.lvs]
    exact hvolume hv hactive
  · rw [hundone.mounts (ne_of_free hpath hnew), hmount hpath]
  · rw [← hnewVolume, State.newVolume, State.newVolume, hundone.lvs, hundone.lvmDevices]

/-- The folder of the new image has no files in it that matter. -/
theorem undoDst_leaves (h : Detached s m t) (hnew : s.mounts folder = none)
    (houtput : ∀ fs, t.mounts folder = some fs → fs = .output) :
    (undoFolder folder u).Leaves t (Detached s m) := by
  by_cases hfree : u.umount = true ∨ t.mounts folder = none
  · obtain ⟨r, t', hundo, hundone, -⟩ := undoFolder_of_free hfree
    rw [Effect.Leaves, hundo]
    exact h.undone hnew hundone
  rw [not_or, Bool.not_eq_true] at hfree
  obtain ⟨humount, hmounted⟩ := hfree
  obtain ⟨fs, hfs⟩ := Option.ne_none_iff_exists'.mp hmounted
  by_cases hfolder : t.folders folder = true
  · rw [Effect.Leaves, undoFolder_of_mounted hfolder humount hfs, houtput fs hfs]
    obtain ⟨⟨hfiles, hconnection, hmapping, hvolume, hmount⟩, hnewVolume⟩ := h
    exact ⟨⟨(State.write_of_ne (by decide) _).trans hfiles, hconnection, hmapping, hvolume,
      hmount⟩, hnewVolume⟩
  · rw [Effect.Leaves, undoFolder, if_neg hfolder]
    exact h

/-- With nothing mounted from the source image, only what was there before is in danger. -/
theorem cleanUp_leaves (h : Underway s m) (hfiles : m.files .source = s.files .source)
    (hfree : o.src.umount = true ∨ m.mounts m.srcFolder = none) (hnothing : NothingToLose s m) :
    (cleanUp o).Leaves m (Undisturbed s) := by
  have hstart := Detached.start h hfiles
  obtain ⟨r, t, hundo, hundone, -⟩ := undoFolder_of_free hfree
  rw [Effect.Leaves, cleanUp_eq]
  have hsrc : (undoFolder m.srcFolder o.src).Leaves m fun t =>
      Detached s m t ∧ Undone m.srcFolder m t := by
    rw [Effect.Leaves, hundo]
    exact ⟨hstart.undone h.src.2 hundone, hundone⟩
  refine Effect.leaves_bind hsrc (fun _ h => h.1.undisturbed) fun _ t ht => ?_
  obtain ⟨hdetached, hundone⟩ := ht
  have houtput : ∀ fs, t.mounts m.dstFolder = some fs → fs = .output := by
    rw [hundone.mounts h.ne.symm]
    exact h.output
  exact Effect.leaves_bind (undoDst_leaves hdetached h.dst.2 houtput) (fun _ h => h.undisturbed)
    fun _ t ht => undoDevices_leaves hnothing ht

/-- Where something is still mounted from the source image, `clean_up` ends there. -/
theorem cleanUp_of_mounted {fs : Fs} (h : Underway s m) (humount : o.src.umount = false)
    (hmount : m.mounts m.srcFolder = some fs) :
    (cleanUp o m).2 = m.write fs ((m.files fs).filter fun file => !o.src.deletes file) := by
  rw [cleanUp_eq, Effect.bind_of_error (undoFolder_of_mounted h.src.1 humount hmount)]

/-! ### Damage -/

/-- Every command does what it is there for, but for the first `umount`. -/
def Outcomes.all (umount deletes : Bool) : Outcomes where
  src := ⟨umount, fun _ => deletes, true⟩
  dst := ⟨true, fun _ => deletes, true⟩
  closes := true
  busy _ := false
  disconnectsSrc := true
  disconnectsDst := true
  unloads := true

/-- What is lost then. -/
structure AllUndone (m t : State) : Prop where
  src : t.connection srcDevice = none
  dst : t.connection dstDevice = none
  root : t.mapping rootName = none
  volume : ∀ last, m.newVolume = some last →
    ∀ v ∈ t.lvs, v.active = true → v.path ≠ last.path ∧ v.vg ≠ last.vg
  files : t.files = m.files

theorem deactivateLast_idle (hidle : o.busy = fun _ => false) (last : Lv) (t : State) :
    ∃ lvs, deactivateLast o last t = (.ok (), { t with lvs }) ∧
      ∀ v ∈ lvs, v.active = true → v.path ≠ last.path ∧ v.vg ≠ last.vg := by
  have hmap : ∀ (chosen : Lv → Bool) (t : State), deactivate o.busy chosen t
      = (.ok (), { t with
        lvs := t.lvs.map fun v => if chosen v then v.deactivated else v }) := by
    intro chosen t
    simp [deactivate, hidle]
  refine ⟨_, by rw [deactivateLast, Effect.bind_of_ok (hmap _ t), hmap], ?_⟩
  intro v hv hactive
  obtain ⟨v₁, hv₁, rfl⟩ := List.mem_map.mp hv
  obtain ⟨v₀, -, rfl⟩ := List.mem_map.mp hv₁
  by_cases hpath : v₀.path = last.path
  · by_cases hvg : v₀.vg = last.vg
    · simp [hpath, hvg, Lv.deactivated] at hactive
    · simp [hpath, hvg, Lv.deactivated] at hactive
  · by_cases hvg : v₀.vg = last.vg
    · simp [hpath, hvg, Lv.deactivated] at hactive
    · simp [hpath, hvg]

theorem unmountLvmDevice_idle (hidle : o.busy = fun _ => false) (t : State) :
    ∃ lvs, unmountLvmDevice o t = (.ok (), { t with lvs }) ∧
      ∀ last, t.newVolume = some last →
        ∀ v ∈ lvs, v.active = true → v.path ≠ last.path ∧ v.vg ≠ last.vg := by
  cases hnew : t.newVolume with
  | none =>
      refine ⟨t.lvs, ?_, fun last hlast => by simp at hlast⟩
      simp [unmountLvmDevice, hnew]
  | some last =>
      obtain ⟨lvs, hlast, hlost⟩ := deactivateLast_idle hidle last t
      refine ⟨lvs, ?_, fun last' hlast' => ?_⟩
      · simp [unmountLvmDevice, hnew, hlast]
      · rw [← Option.some.inj hlast']
        exact hlost

theorem connection_of_no_device {d : Nat} (h : ¬ t.hasDevice d = true) :
    t.connection d = none := by
  cases hnbd : t.nbd with
  | none => simp [State.connection, hnbd]
  | some devices =>
      have hle : devices.length ≤ d := by simpa [State.hasDevice, hnbd] using h
      simp [State.connection, hnbd, List.getElem?_eq_none hle]

/-- `disconnect` and `unload` change nothing but connections. -/
structure OnlyFrees (t t' : State) : Prop where
  connection : ∀ {d}, t.connection d = none → t'.connection d = none
  mapping : t'.mapping = t.mapping
  lvs : t'.lvs = t.lvs
  files : t'.files = t.files

theorem disconnect_frees (d : Nat) (t : State) : ∃ t', disconnect d true t = (.ok (), t') ∧
    t'.connection d = none ∧ OnlyFrees t t' := by
  by_cases hdevice : t.hasDevice d = true
  · refine ⟨t.connect d none, by simp [disconnect, hdevice], ?_, fun {e} he => ?_, rfl, rfl, rfl⟩
    · rw [State.connection_connect d hdevice, if_pos rfl]
    · rw [State.connection_connect e hdevice, he, ite_self]
  · exact ⟨t, by simp [disconnect, hdevice], connection_of_no_device hdevice, fun he => he, rfl,
      rfl, rfl⟩

theorem unload_frees (o : Outcomes) (t : State) : ∃ t', unload o t = (.ok (), t') ∧
    OnlyFrees t t' := by
  refine ⟨_, rfl, ?_⟩
  dsimp only
  split
  · exact ⟨fun _ => rfl, rfl, rfl, rfl⟩
  · exact ⟨fun he => he, rfl, rfl, rfl⟩

theorem undoDevices_all (umount deletes : Bool) (t : State) :
    ∃ t', undoDevices (.all umount deletes) t = (.ok (), t') ∧ AllUndone t t' := by
  have hclose : closeRoot (.all umount deletes) t
      = (.ok (), { t with mapping := Function.update t.mapping rootName none }) := rfl
  obtain ⟨lvs, hlvm, hlost⟩ := unmountLvmDevice_idle (o := .all umount deletes) rfl
    { t with mapping := Function.update t.mapping rootName none }
  obtain ⟨t₁, hsrc, hfree₁, h₁⟩ := disconnect_frees srcDevice
    { t with mapping := Function.update t.mapping rootName none, lvs }
  obtain ⟨t₂, hdst, hfree₂, h₂⟩ := disconnect_frees dstDevice t₁
  obtain ⟨t₃, hunload, h₃⟩ := unload_frees (.all umount deletes) t₂
  refine ⟨t₃, ?_, ?_, ?_, ?_, ?_, ?_⟩
  · unfold undoDevices
    rw [Effect.bind_of_ok hclose, Effect.bind_of_ok hlvm]
    exact (Effect.bind_of_ok hsrc).trans ((Effect.bind_of_ok hdst).trans hunload)
  · exact h₃.connection (h₂.connection hfree₁)
  · exact h₃.connection hfree₂
  · rw [h₃.mapping, h₂.mapping, h₁.mapping]
    exact Function.update_self rootName none t.mapping
  · rw [h₃.lvs, h₂.lvs, h₁.lvs]
    exact hlost
  · rw [h₃.files, h₂.files, h₁.files]

/-- If the folder of the source image is free, everything is undone. -/
theorem cleanUp_all {umount : Bool} (deletes : Bool)
    (hfree : umount = true ∨ m.mounts m.srcFolder = none) :
    AllUndone m (cleanUp (.all umount deletes) m).2 := by
  obtain ⟨r₁, t₁, hsrc, h₁, hr₁⟩ :=
    undoFolder_of_free (u := (Outcomes.all umount deletes).src) hfree
  obtain ⟨r₂, t₂, hdst, h₂, hr₂⟩ : ∃ r t₂,
      undoFolder m.dstFolder (Outcomes.all umount deletes).dst t₁ = (r, t₂) ∧
        Undone m.dstFolder t₁ t₂ ∧ ((Outcomes.all umount deletes).dst.removes = true → r = .ok ()) :=
    undoFolder_of_free (.inl rfl)
  rw [hr₁ rfl] at hsrc
  rw [hr₂ rfl] at hdst
  obtain ⟨t₃, hdevices, h₃⟩ := undoDevices_all umount deletes t₂
  have hnew : m.newVolume = t₂.newVolume := by
    rw [State.newVolume, State.newVolume, h₂.lvmDevices, h₂.lvs, h₁.lvmDevices, h₁.lvs]
  rw [cleanUp_eq, Effect.bind_of_ok hsrc, Effect.bind_of_ok hdst, hdevices]
  exact ⟨h₃.src, h₃.dst, h₃.root, by rw [hnew]; exact h₃.volume,
    by rw [h₃.files, h₂.files, h₁.files]⟩

theorem none_of_lost {α : Type} {a b : Option α} (hkeeps : ∀ {x}, a = some x → b = some x)
    (hlost : b = none) : a = none := by
  rw [Option.eq_none_iff_forall_ne_some]
  intro x hx
  have hstill := hkeeps hx
  rw [hlost] at hstill
  simp at hstill

/-- Whatever `clean_up` goes for is lost, unless it was not there. -/
theorem AllUndone.nothingToLose (h : AllUndone m t) (hs : Undisturbed s t) :
    NothingToLose s m where
  src := none_of_lost hs.connection h.src
  dst := none_of_lost hs.connection h.dst
  root := none_of_lost hs.mapping h.root
  volume last hlast v hv hactive := h.volume last hlast v (hs.volume hv hactive) hactive

/-! ### Whole runs -/

variable {w : World} {script : Script} {args : List String} {umount : Bool}

/-- What `rm` leaves of the files of the source image. -/
theorem write_source (m : State) (fs : Fs) (keep : File → Bool) :
    (m.write fs ((m.files fs).filter keep)).files .source
      = if fs = .source then (m.files .source).filter keep else m.files .source := by
  by_cases hfs : fs = .source
  · rw [if_pos hfs, hfs, State.write_self]
  · rw [if_neg hfs, State.write_of_ne (Ne.symm hfs)]

/-- With something mounted from the source image that cannot be unmounted, only its files are in
danger. -/
theorem undisturbed_of_mounted_iff (h : Underway s m) {fs : Fs}
    (hmount : m.mounts m.srcFolder = some fs) :
    (∀ o : Outcomes, o.src.umount = false → Undisturbed s (cleanUp o m).2) ↔
      m.files .source = s.files .source ∧ (fs = .source → s.files .source = []) := by
  refine ⟨fun hall => ?_, ?_⟩
  · have hkept := (hall (.all false false) rfl).files
    have hdeleted := (hall (.all false true) rfl).files
    rw [cleanUp_of_mounted h rfl hmount, write_source] at hkept hdeleted
    refine ⟨?_, ?_⟩
    · rw [← hkept]
      simp [Outcomes.all]
    · intro hsource
      rw [← hdeleted, if_pos hsource]
      simp [Outcomes.all]
  · rintro ⟨hsame, hempty⟩ o ho
    rw [cleanUp_of_mounted h ho hmount]
    have hstart := (Detached.start h hsame).undisturbed
    refine ⟨?_, hstart.connection, hstart.mapping, hstart.volume, hstart.mount⟩
    rw [write_source]
    split
    · rename_i hsource
      rw [hsame, hempty hsource, List.filter_nil]
    · exact hsame

/-- Otherwise it is what was there before. -/
theorem undisturbed_of_free_iff (h : Underway s m) {umount : Bool}
    (hfree : umount = true ∨ m.mounts m.srcFolder = none) :
    (∀ o : Outcomes, o.src.umount = umount → Undisturbed s (cleanUp o m).2) ↔
      m.files .source = s.files .source ∧ NothingToLose s m := by
  refine ⟨fun hall => ?_, ?_⟩
  · -- The outcome in which every command does its work takes away whatever is there.
    have hundone := cleanUp_all true hfree
    have hkept := hall (.all umount true) rfl
    refine ⟨?_, hundone.nothingToLose hkept⟩
    rw [← hkept.files, hundone.files]
  · rintro ⟨hfiles, hnothing⟩ o ho
    refine cleanUp_leaves h hfiles ?_ hnothing
    rw [ho]
    exact hfree

/-- From an exit behind the `trap`. -/
theorem cleanUp_undisturbed_iff (h : Underway s m) {ran : List Command}
    (hfiles : m.files .source = s.files .source ↔
      (SourceOverwritten w script args ran → s.files .source = [])) :
    (∀ o : Outcomes, o.src.umount = umount → Undisturbed s (cleanUp o m).2) ↔
      Spared w script args umount s ran m := by
  unfold Spared
  rw [← hfiles]
  by_cases hmounted : umount = false ∧ m.mounts m.srcFolder ≠ none
  · obtain ⟨fs, hfs⟩ := Option.ne_none_iff_exists'.mp hmounted.2
    rw [if_pos hmounted, hmounted.1, hfs, Option.some.injEq]
    exact undisturbed_of_mounted_iff h hfs
  · rw [if_neg hmounted]
    refine undisturbed_of_free_iff h ?_
    cases umount with
    | true => exact .inl rfl
    | false => exact .inr (by simpa using hmounted)

theorem undisturbed_of_untouched (h : Untouched s t) : Undisturbed s t where
  files := by rw [h.files]
  connection := h.kept.connection
  mapping := h.kept.mapping
  volume hv _ := h.kept.lvs.subset hv
  mount := h.kept.mounts

theorem run_of_fails (h : setUp w s = (fails, t)) : run w script args o s = t := by
  unfold run
  rw [h]
  rfl

theorem run_of_ok (h : setUp w s = (.ok (), t)) :
    run w script args o s = (cleanUp o (atExit w script args t).2).2 := by
  unfold run
  rw [h]

/-- **Which runs do no damage, whatever becomes of the commands of `clean_up`.**  With the
outcome of the first `umount` given, those that end in front of the `trap` or at an exit that
is `Spared`. -/
theorem run_undisturbed_iff (w : World) (script : Script) (args : List String) (umount : Bool)
    (s : State) :
    (∀ o : Outcomes, o.src.umount = umount → Undisturbed s (run w script args o s)) ↔
      ∀ t, setUp w s = (.ok (), t) →
        Spared w script args umount s (atExit w script args t).1 (atExit w script args t).2 := by
  obtain ⟨t, hsame, hfails | ⟨hok, hunderway⟩⟩ := setUp_cases w s
  · refine ⟨fun _ t' ht' => ?_, fun _ o _ => ?_⟩
    · rw [hfails, Prod.mk.injEq] at ht'
      exact absurd ht'.1 (by simp [fails, Outcome.fail])
    · rw [run_of_fails hfails]
      exact undisturbed_of_untouched hsame
  · have hexit : (∀ o : Outcomes, o.src.umount = umount →
        Undisturbed s (cleanUp o (atExit w script args t).2).2) ↔ Spared w script args umount s
          (atExit w script args t).1 (atExit w script args t).2 :=
      cleanUp_undisturbed_iff (kept_atExit w script args hunderway hsame.files)
        (source_atExit w script args hunderway hsame.files)
    simp only [run_of_ok hok]
    rw [hexit, hok]
    refine ⟨fun hspared t' ht' => ?_, fun hspared => hspared t rfl⟩
    rw [← (Prod.mk.inj ht').2]
    exact hspared

/-- Nothing is in the way of the run. -/
structure Fresh (s : State) : Prop where
  src : s.connection srcDevice = none
  dst : s.connection dstDevice = none
  root : s.mapping rootName = none
  volume : ∀ v ∈ s.lvs, v.active = false

/-- No output is the source image. -/
def OutputsElsewhere (w : World) (script : Script) (args : List String) : Prop :=
  ∀ v, readOptions script args = some v →
    ∀ path ∈ [v.dstImage, v.hashTree, v.rootHash], w.resolve path ≠ w.resolve v.srcImage

theorem OutputsElsewhere.not_overwritten (h : OutputsElsewhere w script args)
    (ran : List Command) : ¬ SourceOverwritten w script args ran := by
  rintro ⟨v, hoptions, c, -, -, path, hpath, hsame⟩
  refine h v hoptions path ?_ hsame
  cases c with
  | createOutputImage =>
      rw [Command.outputs, List.mem_singleton] at hpath
      simp [hpath]
  | veritysetup => exact List.mem_cons_of_mem _ hpath
  | _ => simp [Command.outputs] at hpath

/-- **On a fresh host only a `umount` that fails behind the mount does damage.** -/
theorem undisturbed_of_fresh (hfresh : Fresh s) (houtputs : OutputsElsewhere w script args)
    (h : o.src.umount = true ∨ ∀ t, setUp w s = (.ok (), t) →
      Command.mountSrc ∉ (atExit w script args t).1) :
    Undisturbed s (run w script args o s) := by
  obtain ⟨t, hsame, hfails | ⟨hok, hunderway⟩⟩ := setUp_cases w s
  · rw [run_of_fails hfails]
    exact undisturbed_of_untouched hsame
  · have hexit := kept_atExit w script args hunderway hsame.files
    have hfiles := (source_atExit w script args hunderway hsame.files).mpr
      fun hover => absurd hover (houtputs.not_overwritten _)
    have hfree : t.mounts t.srcFolder = none := by
      rw [hsame.mounts]
      exact hunderway.src.2
    rw [run_of_ok hok]
    refine cleanUp_leaves hexit hfiles ?_ ⟨hfresh.src, hfresh.dst, hfresh.root, ?_⟩
    · exact h.imp_right fun hran => unmounted_atExit hunderway hfree (hran t hok)
    · intro last _ v hv hactive
      simp [hfresh.volume v hv] at hactive

/-! ### A small host -/

def Host.toy (nbd : Option (List (Option String))) : State where
  folders _ := false
  mounts _ := none
  files
    | .source => [⟨"/etc/hostname", [118, 109]⟩]
    | _ => []
  nbd := nbd
  mapping _ := none
  lvs := []
  srcFolder := ""
  dstFolder := ""
  lvmDevices := none
  srcRootFsDevice := ""

def World.toy : World where
  mktemp s := ["/tmp/a", "/tmp/b"].find? fun path => !s.folders path && s.mounts path == none
  fresh h := by simpa using List.find?_some h
  sources := true
  outcome _ := .done
  resolve := id
  nbdsMax := 16
  scan := id
  scan_keeps _ := .refl _
  lvmWarning := false
  fdisk := "/dev/nbd0p1"
  confirms := true
  typed := ""
  hasPath _ := true
  fsOn
    | "/dev/nbd0p1" => some .source
    | _ => none
  copied := id
  prepared := id

/-- A conversion that went well deletes the source image if its folder is busy at the end, and
the usage text takes away a connection of somebody else. -/
theorem disturbed :
    ¬ Undisturbed (Host.toy none)
        (run World.toy .luks ["-in", "vm.qcow2"] (.all false true) (Host.toy none)) ∧
      ¬ Undisturbed (Host.toy (some [some "other.qcow2", none]))
        (run World.toy .luks [] (.all true true) (Host.toy (some [some "other.qcow2", none]))) := by
  refine ⟨?_, ?_⟩
  · intro h
    have hdeleted : (run World.toy .luks ["-in", "vm.qcow2"] (.all false true)
        (Host.toy none)).files .source = [] := by decide +kernel
    have hkept := h.files
    rw [hdeleted] at hkept
    exact absurd hkept (by decide)
  · intro h
    have hlost : (run World.toy .luks [] (.all true true)
        (Host.toy (some [some "other.qcow2", none]))).connection 0 = none := by decide +kernel
    have hthere : (Host.toy (some [some "other.qcow2", none])).connection 0
        = some "other.qcow2" := rfl
    have hkept := h.connection hthere
    rw [hlost] at hkept
    simp at hkept

end SnpGuard.CleanUp
