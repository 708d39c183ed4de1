/-
The argument loop of a shell script.

    while [ -n "$1" ]; do
      case "$1" in
        -flag) FLAG="1" ;;
        -option) OPTION="$2"; shift ;;
        *) usage ;;
      esac
      shift
    done

The loop works on the variables of the script, and reads options up to the end of the
arguments or to an empty one.  What a flag does is `Flags`.  A list of known options is read
in order (`read_args`), so a variable ends up with the value of the last option that sets
it (`SetBy.foldl`).
-/
import Mathlib.Data.List.Basic
import Mathlib.Data.List.Induction

namespace ArgLoop

variable {σ : Type}

/-- The cases of the loop, as what they do to the variables. -/
structure Flags (σ : Type) where
  /-- Flags without a value. -/
  switch : String → Option (σ → σ)
  /-- Flags that take a value. -/
  assign : String → Option (String → σ → σ)

/-- How the loop ends. -/
inductive End (σ : Type) where
  | done (s : σ)
  /-- At an argument that is no flag. -/
  | unknown
  /-- At a flag whose value is missing: it is taken to be empty, and the second `shift` fails. -/
  | missing (s : σ)

namespace Flags

variable (F : Flags σ)

def read : List String → σ → End σ
  | [], s => .done s
  | arg :: rest, s =>
    if arg = "" then .done s
    else
      match F.switch arg with
      | some set => read rest (set s)
      | none =>
        match F.assign arg with
        | none => .unknown
        | some set =>
          match rest with
          | [] => .missing (set "" s)
          | value :: rest => read rest (set value s)

end Flags

/-! ### Options -/

/-- A flag with its value, if it takes one. -/
structure Opt where
  flag : String
  value : Option String

/-- As it stands on the command line. -/
def Opt.args (o : Opt) : List String := o.flag :: o.value.toList

/-- The last value that is given for a flag. -/
def lastValue (flag : String) (opts : List Opt) : Option String :=
  (opts.filterMap fun o => if o.flag = flag then o.value else none).getLast?

theorem lastValue_snoc (flag : String) (opts : List Opt) (o : Opt) :
    lastValue flag (opts ++ [o])
      = if o.flag = flag ∧ o.value.isSome then o.value else lastValue flag opts := by
  unfold lastValue
  rw [List.filterMap_append]
  by_cases hflag : o.flag = flag
  · cases hvalue : o.value with
    | none => simp [hflag, hvalue]
    | some value => simp [hflag, hvalue]
  · simp [hflag]

namespace Flags

variable (F : Flags σ)

/-- One of the flags, with a value that is not empty where it takes one. -/
def Known (o : Opt) : Prop :=
  match o.value with
  | none => (F.switch o.flag).isSome
  | some value => (F.assign o.flag).isSome ∧ value ≠ ""

instance (o : Opt) : Decidable (F.Known o) := by
  unfold Known
  split <;> infer_instance

/-- What an option does to the variables. -/
def apply (s : σ) (o : Opt) : σ :=
  match o.value, F.switch o.flag, F.assign o.flag with
  | none, some set, _ => set s
  | some value, _, some set => set value s
  | _, _, _ => s

/-- No flag is known both with and without a value, and none is empty. -/
structure Distinct : Prop where
  switch : ∀ {flag}, (F.assign flag).isSome → F.switch flag = none
  nonempty : F.switch "" = none ∧ F.assign "" = none

variable {F}

theorem Distinct.ne_empty (hF : F.Distinct) {flag : String}
    (h : (F.switch flag).isSome ∨ (F.assign flag).isSome) : flag ≠ "" := by
  rintro rfl
  obtain ⟨hswitch, hassign⟩ := hF.nonempty
  rcases h with h | h
  · simp [hswitch] at h
  · simp [hassign] at h

/-- **The loop reads the options one after the other.** -/
theorem read_args (hF : F.Distinct) {opts : List Opt} (h : ∀ o ∈ opts, F.Known o) (s : σ) :
    F.read (opts.flatMap Opt.args) s = .done (opts.foldl F.apply s) := by
  induction opts generalizing s with
  | nil => rfl
  | cons o opts ih =>
      have hrest := ih fun o' ho' => h o' (List.mem_cons_of_mem _ ho')
      have hknown := h o List.mem_cons_self
      obtain ⟨flag, value⟩ := o
      rw [List.flatMap_cons, List.foldl_cons]
      cases value with
      | none =>
          obtain ⟨set, hset⟩ : ∃ set, F.switch flag = some set :=
            Option.isSome_iff_exists.mp hknown
          have happly : F.apply s ⟨flag, none⟩ = set s := by simp [apply, hset]
          show F.read (flag :: opts.flatMap Opt.args) s = _
          unfold read
          simp only [if_neg (hF.ne_empty (.inl hknown)), hset, happly]
          exact hrest (set s)
      | some value =>
          obtain ⟨hassign, -⟩ := hknown
          obtain ⟨set, hset⟩ : ∃ set, F.assign flag = some set :=
            Option.isSome_iff_exists.mp hassign
          have hswitch : F.switch flag = none := hF.switch hassign
          have happly : F.apply s ⟨flag, some value⟩ = set value s := by simp [apply, hset]
          show F.read (flag :: value :: opts.flatMap Opt.args) s = _
          unfold read
          simp only [if_neg (hF.ne_empty (.inr hassign)), hswitch, hset, happly]
          exact hrest (set value s)

theorem lastValue_ne_empty {flag : String} {opts : List Opt} (hopts : ∀ o ∈ opts, F.Known o)
    {value : String} (h : lastValue flag opts = some value) : value ≠ "" := by
  have hmem := List.mem_of_getLast? h
  rw [List.mem_filterMap] at hmem
  obtain ⟨o, ho, hvalue⟩ := hmem
  have hknown := hopts o ho
  by_cases hflag : o.flag = flag
  · rw [if_pos hflag] at hvalue
    simp only [Known, hvalue] at hknown
    exact hknown.2
  · rw [if_neg hflag] at hvalue
    simp at hvalue

/-! ### The last option counts -/

variable (F)

/-- `get` reads the variable that `flag` sets, which nothing else does. -/
structure SetBy (flag : String) (get : σ → String) : Prop where
  assign : ∀ {flag' set}, F.assign flag' = some set → ∀ value s,
    get (set value s) = if flag' = flag then value else get s
  switch : ∀ {flag' set}, F.switch flag' = some set → ∀ s, get (set s) = get s

variable {F}

/-- **After the loop a variable has the last value that an option gave it.** -/
theorem SetBy.foldl {flag : String} {get : σ → String} (h : F.SetBy flag get) {opts : List Opt}
    (hopts : ∀ o ∈ opts, F.Known o) (s : σ) :
    get (opts.foldl F.apply s) = (lastValue flag opts).getD (get s) := by
  induction opts using List.reverseRecOn with
  | nil => rfl
  | append_singleton opts o ih =>
      have hrest := ih fun o' ho' => hopts o' (List.mem_append_left _ ho')
      have hknown := hopts o (List.mem_append_right _ List.mem_cons_self)
      obtain ⟨flag', value⟩ := o
      rw [List.foldl_concat, lastValue_snoc]
      generalize opts.foldl F.apply s = s' at hrest
      cases value with
      | none =>
          obtain ⟨set, hset⟩ : ∃ set, F.switch flag' = some set :=
            Option.isSome_iff_exists.mp hknown
          have happly : F.apply s' ⟨flag', none⟩ = set s' := by simp [apply, hset]
          rw [happly, h.switch hset, hrest]
          simp
      | some value =>
          obtain ⟨set, hset⟩ : ∃ set, F.assign flag' = some set :=
            Option.isSome_iff_exists.mp hknown.1
          have happly : F.apply s' ⟨flag', some value⟩ = set value s' := by simp [apply, hset]
          rw [happly, h.assign hset]
          by_cases hflag : flag' = flag
          · simp [hflag]
          · simp [hflag, hrest]

end Flags

end ArgLoop
