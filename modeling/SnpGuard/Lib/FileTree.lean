/-
Directory trees.

A tree says of every path whether there is a directory, a file or nothing, where a file is
whatever is no directory.  Every entry is in a directory, and there are finitely many of them.
Removing, renaming, copying and mounting all put something else at a path and below it
(`glue`), so that an entry of the result is an entry of one of two trees.  A symbolic link is
a file here; what it leads to is not followed.
-/
import Mathlib.Data.List.Infix
import Mathlib.Data.Set.Finite.List
import Mathlib.Data.Option.Basic

/-- The names on the way from the root. -/
abbrev FilePath := List String

namespace FilePath

/-- The rest of the second path, if it leads through the first one. -/
def below : FilePath → FilePath → Option FilePath
  | [], q => some q
  | _ :: _, [] => none
  | a :: p, b :: q => if a = b then below p q else none

@[simp] theorem below_nil (q : FilePath) : below [] q = some q := rfl

@[simp] theorem below_append (p r : FilePath) : below p (p ++ r) = some r := by
  induction p with
  | nil => rfl
  | cons a p ih => simp [below, ih]

theorem below_eq_some {p q r : FilePath} : below p q = some r ↔ q = p ++ r := by
  refine ⟨?_, ?_⟩
  · intro h
    induction p generalizing q with
    | nil => exact Option.some.inj h
    | cons a p ih =>
        cases q with
        | nil => simp [below] at h
        | cons b q =>
            unfold below at h
            split_ifs at h with hab
            rw [hab, ih h, List.cons_append]
  · rintro rfl
    exact below_append p r

theorem below_eq_none {p q : FilePath} : below p q = none ↔ ¬ p <+: q := by
  rw [Option.eq_none_iff_forall_ne_some]
  refine ⟨fun h hpq => ?_, fun h r hr => h ?_⟩
  · obtain ⟨r, rfl⟩ := hpq
    exact h r (below_append p r)
  · exact ⟨r, (below_eq_some.mp hr).symm⟩

@[simp] theorem below_cons (a : String) (p q : FilePath) : below (a :: p) (a :: q) = below p q := by
  simp [below]

/-- One name more. -/
theorem below_snoc {p q : FilePath} {name : String} :
    below p (q ++ [name]) = match below p q with
      | some r => some (r ++ [name])
      | none => if p = q ++ [name] then some [] else none := by
  cases hq : below p q with
  | some r =>
      rw [below_eq_some.mp hq, List.append_assoc]
      exact below_append p _
  | none =>
      dsimp only
      split_ifs with hp
      · rw [hp]
        simpa using below_append (q ++ [name]) []
      · rw [below_eq_none, List.prefix_concat_iff, not_or]
        exact ⟨hp, below_eq_none.mp hq⟩

end FilePath

namespace FileTree

/-- What a path can lead to. -/
inductive Entry (α : Type) where
  | dir
  | file (a : α)
deriving DecidableEq

/-- What is at a path and below it: nothing, a file or a directory. -/
structure Part (α : Type) where
  entry : FilePath → Option (Entry α)
  /-- Where its entries are, and perhaps more. -/
  paths : List FilePath
  /-- Every entry is in a directory. -/
  closed : ∀ {p name}, (entry (p ++ [name])).isSome → entry p = some .dir
  finite : ∀ {p}, (entry p).isSome → p ∈ paths

end FileTree

/-- A directory with everything in it. -/
structure FileTree (α : Type) extends FileTree.Part α where
  root : entry [] = some .dir

namespace FileTree

open FilePath

variable {α : Type}

instance (part : Part α) (p : FilePath) : Decidable (part.entry p = some .dir) :=
  match h : part.entry p with
  | some .dir => isTrue rfl
  | some (.file _) => isFalse (by simp)
  | none => isFalse (by simp)

/-- Above an entry there are directories. -/
theorem Part.entry_of_append {t : Part α} {p q : FilePath} (hq : q ≠ [])
    (h : (t.entry (p ++ q)).isSome) : t.entry p = some .dir := by
  induction q using List.reverseRecOn with
  | nil => exact absurd rfl hq
  | append_singleton q name ih =>
      rw [← List.append_assoc] at h
      have hdir := t.closed h
      by_cases hnil : q = []
      · rwa [hnil, List.append_nil] at hdir
      · exact ih hnil (by rw [hdir]; rfl)

/-- Below what is no directory there is nothing. -/
theorem Part.entry_append_eq_none {t : Part α} {p q : FilePath} (hq : q ≠ [])
    (h : t.entry p ≠ some .dir) : t.entry (p ++ q) = none := by
  by_contra hsome
  exact h (t.entry_of_append hq (Option.isSome_iff_ne_none.mpr hsome))

/-! ### Parts -/

def Part.none : Part α where
  entry _ := Option.none
  paths := []
  closed h := by simp at h
  finite h := by simp at h

/-- One entry with nothing below it. -/
def Part.single (e : Entry α) : Part α where
  entry p := if p = [] then some e else Option.none
  paths := [[]]
  closed h := by simp at h
  finite {p} h := by
    by_contra hp
    have hne : p ≠ [] := fun h' => hp (by simp [h'])
    simp [hne] at h

/-- What a tree has at a path. -/
def Part.at (t : Part α) (p : FilePath) : Part α where
  entry q := t.entry (p ++ q)
  paths := t.paths.filterMap (below p)
  closed {q name} h := by
    rw [← List.append_assoc] at h
    exact t.closed h
  finite {q} h := List.mem_filterMap.mpr ⟨p ++ q, t.finite h, below_append p q⟩

@[simp] theorem Part.single_nil (e : Entry α) : (Part.single e).entry [] = some e := rfl

@[simp] theorem Part.single_cons (e : Entry α) (a : String) (p : FilePath) :
    (Part.single e).entry (a :: p) = Option.none := rfl

@[simp] theorem Part.at_entry (t : Part α) (p q : FilePath) :
    (t.at p).entry q = t.entry (p ++ q) := rfl

/-- The path leads to a place in a directory, or is the root. -/
def Part.HasParent (t : Part α) (p : FilePath) : Prop :=
  ∀ q name, p = q ++ [name] → t.entry q = some .dir

theorem Part.hasParent_of_isSome {t : Part α} {p : FilePath} (h : (t.entry p).isSome) :
    t.HasParent p := by
  rintro q name rfl
  exact t.closed h

theorem Part.hasParent_of_dir {t : Part α} {dir : FilePath} (h : t.entry dir = some .dir)
    (a : String) :
    t.HasParent (dir ++ [a]) := by
  intro q name heq
  rw [← (List.append_inj' heq rfl).1]
  exact h

/-- `t`, but with `s` at `p`, which is in a directory. -/
def Part.glue (t : Part α) (p : FilePath) (s : Part α) (h : t.HasParent p) : Part α where
  entry q :=
    match below p q with
    | some r => s.entry r
    | Option.none => t.entry q
  paths := t.paths ++ s.paths.map (p ++ ·)
  closed {q name} hentry := by
    rw [below_snoc] at hentry
    cases hq : below p q with
    | some r =>
        rw [hq] at hentry
        exact s.closed hentry
    | none =>
        rw [hq] at hentry
        dsimp only at hentry ⊢
        by_cases heq : p = q ++ [name]
        · exact h q name heq
        · rw [if_neg heq] at hentry
          exact t.closed hentry
  finite {q} hentry := by
    cases hq : below p q with
    | some r =>
        rw [hq] at hentry
        rw [below_eq_some.mp hq]
        exact List.mem_append_right _ (List.mem_map_of_mem (s.finite hentry))
    | none =>
        rw [hq] at hentry
        exact List.mem_append_left _ (t.finite hentry)

section Glue

variable {t s : Part α} {p : FilePath} {h : t.HasParent p}

@[simp] theorem Part.glue_append (r : FilePath) : (t.glue p s h).entry (p ++ r) = s.entry r := by
  simp [Part.glue]

theorem Part.glue_of_not_prefix {q : FilePath} (hq : ¬ p <+: q) :
    (t.glue p s h).entry q = t.entry q := by
  simp [Part.glue, below_eq_none.mpr hq]

end Glue

/-! ### Commands -/

/-- An empty directory. -/
def empty : FileTree α := ⟨Part.single .dir, rfl⟩

/-- A directory of a tree. -/
def sub (t : FileTree α) (p : FilePath) (h : t.entry p = some .dir) : FileTree α where
  toPart := t.at p
  root := by rwa [Part.at_entry, List.append_nil]

/-- `mount` of `s` on a directory. -/
def mount (t : FileTree α) (p : FilePath) (s : FileTree α) : Option (FileTree α) :=
  if h : t.entry p = some .dir then
    some
      { toPart := t.glue p s.toPart (Part.hasParent_of_isSome (by rw [h]; rfl))
        root := by
          cases p with
          | nil => exact (Part.glue_append (p := []) []).trans s.root
          | cons a p => exact (Part.glue_of_not_prefix (by simp)).trans t.root }
  else none

/-- Something in a directory. -/
def put (t : FileTree α) (dir : FilePath) (name : String) (part : Part α)
    (h : t.entry dir = some .dir) : FileTree α where
  toPart := t.glue (dir ++ [name]) part (Part.hasParent_of_dir h name)
  root := (Part.glue_of_not_prefix (by simp)).trans t.root

/-- `rm -rf`. -/
def remove (t : FileTree α) (dir : FilePath) (name : String) : FileTree α :=
  if h : t.entry dir = some .dir then t.put dir name .none h else t

/-- `mkdir -p` in a directory. -/
def mkdir (t : FileTree α) (dir : FilePath) (name : String) : Option (FileTree α) :=
  match t.entry (dir ++ [name]) with
  | some .dir => some t
  | some (.file _) => none
  | none => if h : t.entry dir = some .dir then some (t.put dir name (.single .dir) h) else none

/-- A file is written, over the one that was there. -/
def write (t : FileTree α) (dir : FilePath) (name : String) (a : α) : Option (FileTree α) :=
  if t.entry (dir ++ [name]) = some .dir then none
  else if h : t.entry dir = some .dir then some (t.put dir name (.single (.file a)) h) else none

/-- What is at `a` in the root gets to another place. -/
def rename (t : FileTree α) (a : String) (dir : FilePath) (name : String) : Option (FileTree α) :=
  if h : (t.remove [] a).entry dir = some .dir then
    some ((t.remove [] a).put dir name (t.at [a]) h)
  else none

/-- Nothing is in the directory `p`. -/
def isEmpty (t : FileTree α) (p : FilePath) : Bool :=
  t.paths.all fun q => (below p q).all fun r => r == [] || (t.entry q).isNone

/-- `mv a b`, of two names in the root.  If `b` is a directory, `a` gets into it. -/
def mv (t : FileTree α) (a b : String) : Option (FileTree α) :=
  match t.entry [a], t.entry [b] with
  | none, _ => none
  | some _, none => t.rename a [] b
  | some .dir, some (.file _) => none
  | some (.file _), some (.file _) => t.rename a [] b
  | some e, some .dir =>
    match e, t.entry [b, a] with
    | _, none => t.rename a [b] a
    | .dir, some .dir => if t.isEmpty [b, a] then t.rename a [b] a else none
    | .file _, some (.file _) => t.rename a [b] a
    | _, _ => none

/-- A file is on the way to `q`. -/
def Part.fileAbove (s : Part α) (q : FilePath) : Bool :=
  q.inits.any fun r =>
    match s.entry r with
    | some (.file _) => true
    | _ => false

theorem isSome_unless {β : Type} {b : Bool} {x : Option β} :
    (if b = true then none else x).isSome = true ↔ ¬ b = true ∧ x.isSome = true := by
  cases b <;> simp

/-- `rsync -a` of `s` into `t`: what `s` does not have stays. -/
def merge (t s : FileTree α) : FileTree α where
  entry q :=
    match s.entry q with
    | some e => some e
    | none => if s.fileAbove q then none else t.entry q
  paths := s.paths ++ t.paths
  closed {q name} h := by
    cases hname : s.entry (q ++ [name]) with
    | some e =>
        rw [s.closed (by rw [hname]; rfl)]
    | none =>
        simp only [hname, isSome_unless] at h
        have hnone : s.fileAbove q = false := by
          by_contra habove
          rw [Bool.not_eq_false, Part.fileAbove, List.any_eq_true] at habove
          obtain ⟨r, hr, hentry⟩ := habove
          refine h.1 (List.any_eq_true.mpr ⟨r, ?_, hentry⟩)
          rw [List.mem_inits] at hr ⊢
          exact hr.trans (List.prefix_append q [name])
        cases hq : s.entry q with
        | none => rw [hnone, if_neg (by simp), t.closed h.2]
        | some e =>
            cases e with
            | dir => rfl
            | file a =>
                rw [Part.fileAbove, List.any_eq_false] at hnone
                exact absurd (by rw [hq]) (hnone q (by simp))
  finite {q} h := by
    cases hq : s.entry q with
    | some e => exact List.mem_append_left _ (s.finite (by rw [hq]; rfl))
    | none =>
        simp only [hq, isSome_unless] at h
        exact List.mem_append_right _ (t.finite h.2)
  root := by rw [s.root]

/-- `rsync -a p/ q/`, within one tree. -/
def copy (t : FileTree α) (p q : FilePath) : Option (FileTree α) :=
  if hp : t.entry p = some .dir then
    if hq : t.entry q = some .dir then t.mount q ((t.sub q hq).merge (t.sub p hp)) else none
  else none

/-! ### What they do -/

/-- `t'` has `s` at `p`, and is `t` elsewhere. -/
structure Replaced (t : FileTree α) (p : FilePath) (s : Part α) (t' : FileTree α) : Prop where
  inside : ∀ r, t'.entry (p ++ r) = s.entry r
  outside : ∀ {q}, ¬ p <+: q → t'.entry q = t.entry q

theorem replaced_of_glue {t t' : FileTree α} {p : FilePath} {s : Part α} (h : t.HasParent p)
    (heq : t'.toPart = t.glue p s h) :
    Replaced t p s t' where
  inside _ := by
    rw [heq]
    exact Part.glue_append _
  outside hq := by
    rw [heq]
    exact Part.glue_of_not_prefix hq

theorem put_replaced (t : FileTree α) (dir : FilePath) (name : String) (part : Part α)
    (h : t.entry dir = some .dir) :
    Replaced t (dir ++ [name]) part (t.put dir name part h) :=
  replaced_of_glue (Part.hasParent_of_dir h name) rfl

theorem mount_replaced {t s t' : FileTree α} {p : FilePath} (h : t.mount p s = some t') :
    Replaced t p s.toPart t' := by
  unfold mount at h
  split_ifs at h with hdir
  rw [Option.some.injEq] at h
  subst h
  exact replaced_of_glue (Part.hasParent_of_isSome (by rw [hdir]; rfl)) rfl

theorem remove_replaced (t : FileTree α) (dir : FilePath) (name : String) :
    Replaced t (dir ++ [name]) .none (t.remove dir name) := by
  unfold remove
  split_ifs with h
  · exact put_replaced t dir name .none h
  · refine ⟨fun r => ?_, fun _ => rfl⟩
    rw [List.append_assoc]
    exact Part.entry_append_eq_none (by simp) h

/-- A file or an empty directory, at a place where there was no directory. -/
theorem Replaced.single {t t' : FileTree α} {p : FilePath} {e : Entry α}
    (h : Replaced t p (.single e) t') (hdir : t.entry p ≠ some .dir) (q : FilePath) :
    t'.entry q = if q = p then some e else t.entry q := by
  by_cases hq : p <+: q
  · obtain ⟨r, rfl⟩ := hq
    rw [h.inside]
    cases r with
    | nil => simp
    | cons a r =>
        rw [Part.single_cons, if_neg (by simp)]
        exact (Part.entry_append_eq_none (by simp) hdir).symm
  · rw [h.outside hq, if_neg]
    rintro rfl
    exact hq List.prefix_rfl

theorem mkdir_entry {t t' : FileTree α} {dir : FilePath} {name : String}
    (h : t.mkdir dir name = some t') (q : FilePath) :
    t'.entry q = if q = dir ++ [name] then some .dir else t.entry q := by
  unfold mkdir at h
  split at h
  · next hthere =>
      rw [Option.some.injEq] at h
      subst h
      split_ifs with hq
      · rw [hq, hthere]
      · rfl
  · simp at h
  · next hnone =>
      split_ifs at h with hdir
      rw [Option.some.injEq] at h
      subst h
      exact (put_replaced t dir name (.single .dir) hdir).single (by rw [hnone]; simp) q

theorem write_entry {t t' : FileTree α} {dir : FilePath} {name : String} {a : α}
    (h : t.write dir name a = some t') (q : FilePath) :
    t'.entry q = if q = dir ++ [name] then some (.file a) else t.entry q := by
  unfold write at h
  split_ifs at h with hthere hdir
  rw [Option.some.injEq] at h
  subst h
  exact (put_replaced t dir name (.single (.file a)) hdir).single hthere q

theorem rename_replaced {t t' : FileTree α} {a : String} {dir : FilePath} {name : String}
    (h : t.rename a dir name = some t') :
    Replaced (t.remove [] a) (dir ++ [name]) (t.at [a]) t' := by
  unfold rename at h
  split_ifs at h with hdir
  rw [Option.some.injEq] at h
  subst h
  exact put_replaced _ dir name _ hdir

/-- Where there is nothing, a tree is copied as it is. -/
theorem merge_of_none {t s : FileTree α} {q : FilePath} (h : t.entry q = none) :
    (t.merge s).entry q = s.entry q := by
  show (match s.entry q with
    | some e => some e
    | none => if s.fileAbove q then none else t.entry q) = _
  cases s.entry q with
  | some e => rfl
  | none => simp [h]

theorem merge_of_isEmpty {t s : FileTree α} (h : ∀ r, r ≠ [] → t.entry r = none) (q : FilePath) :
    (t.merge s).entry q = s.entry q := by
  by_cases hq : q = []
  · rw [hq, (t.merge s).root, s.root]
  · exact merge_of_none (h q hq)

theorem copy_replaced {t t' : FileTree α} {p q : FilePath} (h : t.copy p q = some t') :
    ∃ hp hq, Replaced t q ((t.sub q hq).merge (t.sub p hp)).toPart t' := by
  unfold copy at h
  split_ifs at h with hp hq
  exact ⟨hp, hq, mount_replaced h⟩

/-- A directory copied into an empty one is there as it is. -/
theorem copy_entry {t t' : FileTree α} {p q : FilePath} (h : t.copy p q = some t')
    (hempty : ∀ r, r ≠ [] → t.entry (q ++ r) = none) (r : FilePath) :
    t'.entry (q ++ r) = t.entry (p ++ r) := by
  obtain ⟨hp, hq, hreplaced⟩ := copy_replaced h
  rw [hreplaced.inside]
  exact merge_of_isEmpty (t := t.sub q hq) (s := t.sub p hp) hempty r

theorem copy_outside {t t' : FileTree α} {p q q' : FilePath} (h : t.copy p q = some t')
    (hq' : ¬ q <+: q') : t'.entry q' = t.entry q' := by
  obtain ⟨_, _, hreplaced⟩ := copy_replaced h
  exact hreplaced.outside hq'

/-! ### Names in the root -/

theorem mount_cons {t s t' : FileTree α} {a : String} (h : t.mount [a] s = some t') (n : String)
    (r : FilePath) : t'.entry (n :: r) = if n = a then s.entry r else t.entry (n :: r) := by
  split_ifs with hn
  · rw [hn]
    exact (mount_replaced h).inside r
  · exact (mount_replaced h).outside (by simpa using Ne.symm hn)

theorem remove_cons (t : FileTree α) (a n : String) (r : FilePath) :
    (t.remove [] a).entry (n :: r) = if n = a then none else t.entry (n :: r) := by
  split_ifs with hn
  · rw [hn]
    exact (remove_replaced t [] a).inside r
  · exact (remove_replaced t [] a).outside (by simpa using Ne.symm hn)

/-- A directory is copied onto an empty one. -/
theorem copy_cons {t t' : FileTree α} {a b : String} (h : t.copy [a] [b] = some t')
    (hempty : ∀ r, r ≠ [] → t.entry (b :: r) = none) (n : String) (r : FilePath) :
    t'.entry (n :: r) = if n = b then t.entry (a :: r) else t.entry (n :: r) := by
  split_ifs with hn
  · rw [hn]
    exact copy_entry h hempty r
  · exact copy_outside h (by simpa using Ne.symm hn)

theorem copy_isDir {t t' : FileTree α} {p q : FilePath} (h : t.copy p q = some t') :
    t.entry p = some .dir := (copy_replaced h).1

theorem rename_cons {t t' : FileTree α} {a b : String} (h : t.rename a [] b = some t')
    (n : String) (r : FilePath) : t'.entry (n :: r) =
      if n = b then t.entry (a :: r) else if n = a then none else t.entry (n :: r) := by
  split_ifs with hn hn'
  · rw [hn]
    exact (rename_replaced h).inside r
  · rw [(rename_replaced h).outside (by simpa using Ne.symm hn), remove_cons, if_pos hn']
  · rw [(rename_replaced h).outside (by simpa using Ne.symm hn), remove_cons, if_neg hn']

/-- What `mv a b` leaves: `a` has become `b`, or is in it. -/
inductive Moved (t : FileTree α) (a b : String) (t' : FileTree α) : Prop where
  | renamed (hb : t.entry [b] ≠ some .dir)
    (h : ∀ n r, t'.entry (n :: r) =
      if n = b then t.entry (a :: r) else if n = a then none else t.entry (n :: r))
  | into (hb : t.entry [b] = some .dir)
    (inside : ∀ r, t'.entry (b :: a :: r) = t.entry (a :: r))
    (outside : ∀ n r, (n = b → r.head? ≠ some a) →
      t'.entry (n :: r) = if n = a then none else t.entry (n :: r))

theorem mv_moved {t t' : FileTree α} {a b : String} (h : t.mv a b = some t') :
    (t.entry [a]).isSome ∧
      (t.entry [a] = some .dir → t.entry [b] = none ∨ t.entry [b] = some .dir) ∧
      Moved t a b t' := by
  have hinto : t.entry [b] = some .dir → t.rename a [b] a = some t' → Moved t a b t' := by
    intro hb hrename
    refine .into hb (rename_replaced hrename).inside fun n r hn => ?_
    have hprefix : ¬ [b] ++ [a] <+: n :: r := by
      rintro ⟨rest, hrest⟩
      rw [List.append_assoc, List.singleton_append, List.singleton_append, List.cons.injEq] at hrest
      exact hn hrest.1.symm (by rw [← hrest.2]; rfl)
    rw [(rename_replaced hrename).outside hprefix, remove_cons]
  unfold mv at h
  split at h
  · simp at h
  · next ha hb =>
      exact ⟨by rw [ha]; rfl, fun _ => .inl hb, .renamed (by rw [hb]; simp) (rename_cons h)⟩
  · simp at h
  · next ha hb =>
      refine ⟨by rw [ha]; rfl, fun hdir => ?_, .renamed (by rw [hb]; simp) (rename_cons h)⟩
      simp [ha] at hdir
  · next ha hb =>
      refine ⟨by rw [ha]; rfl, fun _ => .inr hb, ?_⟩
      split at h
      · exact hinto hb h
      · split_ifs at h
        exact hinto hb h
      · exact hinto hb h
      · simp at h

theorem mkdir_cons {t t' : FileTree α} {a : String} (h : t.mkdir [] a = some t') (n : String)
    (r : FilePath) :
    t'.entry (n :: r) = if n = a ∧ r = [] then some .dir else t.entry (n :: r) := by
  rw [mkdir_entry h]
  simp

/-! ### Several names in the root -/

/-- Empty filesystems on some directories. -/
theorem foldlM_mount {dirs : List String} {t t' : FileTree α}
    (h : dirs.foldlM (fun t d => t.mount [d] .empty) t = some t') (n : String) (r : FilePath) :
    t'.entry (n :: r) = if n ∈ dirs then (empty : FileTree α).entry r else t.entry (n :: r) := by
  induction dirs generalizing t with
  | nil =>
      rw [List.foldlM_nil] at h
      rw [Option.some.inj h, if_neg (by simp)]
  | cons d dirs ih =>
      rw [List.foldlM_cons, Option.bind_eq_bind, Option.bind_eq_some_iff] at h
      obtain ⟨t₁, hmount, hrest⟩ := h
      rw [ih hrest, mount_cons hmount]
      by_cases hn : n ∈ dirs
      · simp [hn]
      · simp [hn]

theorem foldlM_mkdir {dirs : List String} {t t' : FileTree α}
    (h : dirs.foldlM (fun t d => t.mkdir [] d) t = some t') (n : String) (r : FilePath) :
    t'.entry (n :: r) = if n ∈ dirs ∧ r = [] then some .dir else t.entry (n :: r) := by
  induction dirs generalizing t with
  | nil =>
      rw [List.foldlM_nil] at h
      rw [Option.some.inj h, if_neg (by simp)]
  | cons d dirs ih =>
      rw [List.foldlM_cons, Option.bind_eq_bind, Option.bind_eq_some_iff] at h
      obtain ⟨t₁, hmkdir, hrest⟩ := h
      rw [ih hrest, mkdir_cons hmkdir]
      by_cases hr : r = []
      · by_cases hn : n ∈ dirs
        · simp [hn, hr]
        · simp [hn, hr]
      · simp [hr]

/-- Directories are copied onto empty ones, which none of them is. -/
theorem foldlM_copy {dirs : List String} {f : String → String} {t t' : FileTree α}
    (hf : ∀ d ∈ dirs, ∀ e ∈ dirs, f d ≠ e) (hnodup : dirs.Nodup)
    (hempty : ∀ d ∈ dirs, ∀ r, r ≠ [] → t.entry (d :: r) = none)
    (h : dirs.foldlM (fun t d => t.copy [f d] [d]) t = some t') :
    (∀ d ∈ dirs, t.entry [f d] = some .dir) ∧ ∀ n r,
      t'.entry (n :: r) = if n ∈ dirs then t.entry (f n :: r) else t.entry (n :: r) := by
  induction dirs generalizing t with
  | nil =>
      rw [List.foldlM_nil] at h
      refine ⟨by simp, fun n r => ?_⟩
      rw [Option.some.inj h, if_neg (by simp)]
  | cons d dirs ih =>
      rw [List.foldlM_cons, Option.bind_eq_bind, Option.bind_eq_some_iff] at h
      obtain ⟨t₁, hcopy, hrest⟩ := h
      rw [List.nodup_cons] at hnodup
      have hcons := copy_cons hcopy (hempty d List.mem_cons_self)
      have hkept : ∀ e ∈ dirs, ∀ r, t₁.entry (e :: r) = t.entry (e :: r) := by
        intro e he r
        rw [hcons, if_neg]
        rintro rfl
        exact hnodup.1 he
      have hsource : ∀ e ∈ dirs, ∀ r, t₁.entry (f e :: r) = t.entry (f e :: r) := by
        intro e he r
        rw [hcons, if_neg (hf e (List.mem_cons_of_mem d he) d List.mem_cons_self)]
      obtain ⟨hdirs, hentry⟩ := ih
        (fun e he e' he' => hf e (List.mem_cons_of_mem d he) e' (List.mem_cons_of_mem d he'))
        hnodup.2
        (fun e he r hr => by rw [hkept e he, hempty e (List.mem_cons_of_mem d he) r hr]) hrest
      refine ⟨?_, fun n r => ?_⟩
      · refine List.forall_mem_cons.mpr ⟨copy_isDir hcopy, fun e he => ?_⟩
        rw [← hsource e he []]
        exact hdirs e he
      · rw [hentry]
        by_cases hn : n ∈ dirs
        · rw [if_pos hn, if_pos (List.mem_cons_of_mem d hn), hsource n hn]
        · rw [if_neg hn, hcons]
          by_cases hnd : n = d
          · rw [if_pos hnd, if_pos (by simp [hnd]), hnd]
          · rw [if_neg hnd, if_neg (by simp [hnd, hn])]

/-- Where `a` is in `t'`, with `t` from before several moves. -/
structure MovedTo (t : FileTree α) (a b : String) (t' : FileTree α) : Prop where
  isSome : (t.entry [a]).isSome
  /-- A directory does not take the place of a file. -/
  fits : t.entry [a] = some .dir → t.entry [b] = none ∨ t.entry [b] = some .dir
  gone : ∀ r, t'.entry (a :: r) = none
  renamed : t.entry [b] ≠ some .dir → ∀ r, t'.entry (b :: r) = t.entry (a :: r)
  inside : t.entry [b] = some .dir → ∀ r, t'.entry (b :: a :: r) = t.entry (a :: r)
  beside : t.entry [b] = some .dir → ∀ r, r.head? ≠ some a → t'.entry (b :: r) = t.entry (b :: r)

theorem movedTo_of_mv {t t' : FileTree α} {a b : String} (hab : a ≠ b)
    (h : t.mv a b = some t') :
    MovedTo t a b t' ∧ ∀ n r, n ≠ a → n ≠ b → t'.entry (n :: r) = t.entry (n :: r) := by
  obtain ⟨hsome, hfits, hmoved⟩ := mv_moved h
  cases hmoved with
  | renamed hb hentry =>
      refine ⟨⟨hsome, hfits, fun r => ?_, fun _ r => ?_, fun h' => absurd h' hb,
        fun h' => absurd h' hb⟩, fun n r hna hnb => ?_⟩
      · rw [hentry, if_neg hab, if_pos rfl]
      · rw [hentry, if_pos rfl]
      · rw [hentry, if_neg hnb, if_neg hna]
  | into hb hinside houtside =>
      refine ⟨⟨hsome, hfits, fun r => ?_, fun h' => absurd hb h', fun _ => hinside,
        fun _ r hr => ?_⟩, fun n r hna hnb => ?_⟩
      · rw [houtside a r fun h' => absurd h' hab, if_pos rfl]
      · rw [houtside b r fun _ => hr, if_neg (Ne.symm hab)]
      · rw [houtside n r fun h' => absurd h' hnb, if_neg hna]

/-- What moves see of a tree is at their names. -/
theorem MovedTo.congr {t t₁ t' : FileTree α} {a b : String} (h : MovedTo t₁ a b t')
    (ha : ∀ r, t₁.entry (a :: r) = t.entry (a :: r))
    (hb : ∀ r, t₁.entry (b :: r) = t.entry (b :: r)) : MovedTo t a b t' where
  isSome := by
    rw [← ha]
    exact h.isSome
  fits hdir := by
    rw [← hb]
    exact h.fits ((ha []).trans hdir)
  gone := h.gone
  renamed hdir r := by
    rw [← hb] at hdir
    rw [h.renamed hdir r, ha]
  inside hdir r := by
    rw [← hb] at hdir
    rw [h.inside hdir r, ha]
  beside hdir r hr := by
    rw [← hb] at hdir
    rw [h.beside hdir r hr, hb]

/-- Moves of different names to different names. -/
theorem foldlM_mv {dirs : List String} {f : String → String} {t t' : FileTree α}
    (hf : ∀ d ∈ dirs, ∀ e ∈ dirs, f d ≠ e) (hinj : Function.Injective f) (hnodup : dirs.Nodup)
    (h : dirs.foldlM (fun t d => t.mv d (f d)) t = some t') :
    (∀ d ∈ dirs, MovedTo t d (f d) t') ∧ ∀ n r, n ∉ dirs → n ∉ dirs.map f →
      t'.entry (n :: r) = t.entry (n :: r) := by
  induction dirs generalizing t with
  | nil =>
      rw [List.foldlM_nil] at h
      rw [Option.some.inj h]
      simp
  | cons d dirs ih =>
      rw [List.foldlM_cons, Option.bind_eq_bind, Option.bind_eq_some_iff] at h
      obtain ⟨t₁, hmv, hrest⟩ := h
      rw [List.nodup_cons] at hnodup
      have hd : ∀ e ∈ dirs, f e ≠ d ∧ f d ≠ e ∧ e ≠ d := by
        intro e he
        refine ⟨hf e (List.mem_cons_of_mem d he) d List.mem_cons_self,
          hf d List.mem_cons_self e (List.mem_cons_of_mem d he), ?_⟩
        rintro rfl
        exact hnodup.1 he
      have hnot : d ∉ dirs ∧ d ∉ dirs.map f := by
        refine ⟨hnodup.1, fun hmem => ?_⟩
        obtain ⟨e, he, heq⟩ := List.mem_map.mp hmem
        exact (hd e he).1 heq
      have hnotf : f d ∉ dirs ∧ f d ∉ dirs.map f := by
        refine ⟨fun hmem => (hd _ hmem).2.1 rfl, fun hmem => ?_⟩
        obtain ⟨e, he, heq⟩ := List.mem_map.mp hmem
        exact (hd e he).2.2 (hinj heq)
      obtain ⟨hfirst, hother⟩ :=
        movedTo_of_mv (Ne.symm (hf d List.mem_cons_self d List.mem_cons_self)) hmv
      obtain ⟨hmoved, hkept⟩ := ih
        (fun e he e' he' => hf e (List.mem_cons_of_mem d he) e' (List.mem_cons_of_mem d he'))
        hnodup.2 hrest
      refine ⟨?_, fun n r hn hnf => ?_⟩
      · refine List.forall_mem_cons.mpr ⟨?_, fun e he => (hmoved e he).congr ?_ ?_⟩
        · -- The moves that follow leave both names alone.
          refine ⟨hfirst.isSome, hfirst.fits, fun r => ?_, fun hdir r => ?_, fun hdir r => ?_,
            fun hdir r hr => ?_⟩
          · rw [hkept d r hnot.1 hnot.2, hfirst.gone]
          · rw [hkept (f d) r hnotf.1 hnotf.2, hfirst.renamed hdir]
          · rw [hkept (f d) (d :: r) hnotf.1 hnotf.2, hfirst.inside hdir]
          · rw [hkept (f d) r hnotf.1 hnotf.2, hfirst.beside hdir r hr]
        · exact fun r => hother e r (hd e he).2.2 (Ne.symm (hd e he).2.1)
        · refine fun r => hother (f e) r (hd e he).1 fun heq => ?_
          exact (hd e he).2.2 (hinj heq)
      · rw [List.mem_cons, not_or] at hn
        rw [List.map_cons, List.mem_cons, not_or] at hnf
        rw [hkept n r hn.2 hnf.2, hother n r hn.1 hnf.1]

/-- The names in a directory. -/
def names (t : FileTree α) (dir : FilePath) : List String :=
  t.paths.filterMap fun q =>
    match below dir q with
    | some [name] => if (t.entry q).isSome then some name else none
    | _ => none

theorem mem_names {t : FileTree α} {dir : FilePath} {name : String} :
    name ∈ t.names dir ↔ (t.entry (dir ++ [name])).isSome := by
  unfold names
  rw [List.mem_filterMap]
  refine ⟨?_, fun h => ⟨dir ++ [name], t.finite h, by simp [h]⟩⟩
  rintro ⟨q, -, hq⟩
  split at hq
  · next name' hbelow =>
      split_ifs at hq with hsome
      cases hq
      rwa [← below_eq_some.mp hbelow]
  · simp at hq

/-- What is not removed stays. -/
theorem foldl_remove_of_not {names : List String} {dir q : FilePath} {t : FileTree α}
    (h : ∀ n ∈ names, ¬ dir ++ [n] <+: q) :
    (names.foldl (fun t n => t.remove dir n) t).entry q = t.entry q := by
  induction names generalizing t with
  | nil => rfl
  | cons n names ih =>
      rw [List.foldl_cons, ih fun n' hn' => h n' (List.mem_cons_of_mem n hn')]
      exact (remove_replaced t dir n).outside (h n List.mem_cons_self)

theorem remove_eq_none {t : FileTree α} {q : FilePath} (h : t.entry q = none) (dir : FilePath)
    (n : String) : (t.remove dir n).entry q = none := by
  by_cases hq : dir ++ [n] <+: q
  · obtain ⟨r, rfl⟩ := hq
    exact (remove_replaced t dir n).inside r
  · rw [(remove_replaced t dir n).outside hq, h]

theorem foldl_remove_of_mem {names : List String} {dir : FilePath} {n : String} (hn : n ∈ names)
    (r : FilePath) (t : FileTree α) :
    (names.foldl (fun t n => t.remove dir n) t).entry (dir ++ [n] ++ r) = none := by
  have hkept : ∀ (ns : List String) (t : FileTree α) (q : FilePath), t.entry q = none →
      (ns.foldl (fun t n => t.remove dir n) t).entry q = none := by
    intro ns
    induction ns with
    | nil => exact fun t q h => h
    | cons m ns ih => exact fun t q h => ih _ q (remove_eq_none h dir m)
  induction names generalizing t with
  | nil => simp at hn
  | cons m names ih =>
      rw [List.foldl_cons]
      rcases List.mem_cons.mp hn with rfl | hmem
      · exact hkept names _ _ ((remove_replaced t dir n).inside r)
      · exact ih hmem _

/-- The tree with these entries. -/
def ofEntries (entries : List (FilePath × Entry α)) (hroot : entries.lookup [] = some .dir)
    (hclosed : ∀ e ∈ entries, e.1 = [] ∨ entries.lookup e.1.dropLast = some .dir) : FileTree α where
  entry p := entries.lookup p
  paths := entries.map Prod.fst
  root := hroot
  closed {p name} h := by
    obtain ⟨e, he, heq⟩ := List.lookup_isSome_iff.mp h
    have hdir := hclosed e he
    rw [← beq_iff_eq.mp heq] at hdir
    simpa using hdir
  finite {p} h := by
    obtain ⟨e, he, heq⟩ := List.lookup_isSome_iff.mp h
    rw [beq_iff_eq.mp heq]
    exact List.mem_map_of_mem he

end FileTree
