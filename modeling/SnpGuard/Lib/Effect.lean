/-
Fallible code that leaves traces.

A Rust function that posts requests and writes files leaves what it did behind even
when it returns `Err`.  `Effect σ ε α` is such a function: from a state it ends in
an outcome and in a state.  The rules take a `?` chain apart as those of `Outcome` do.
-/
import SnpGuard.Lib.Outcome

/-- An outcome, and the state it is reached in. -/
def Effect (σ ε α : Type) := σ → Outcome ε α × σ

namespace Effect

variable {σ τ ε ε' α β γ : Type}

instance : Monad (Effect σ ε) where
  pure a := fun s => (.ok a, s)
  bind x f := fun s =>
    match x s with
    | (.ok a, t) => f a t
    | (.error e, t) => (.error e, t)

/-- Code that leaves no trace. -/
def lift (x : Outcome ε α) : Effect σ ε α := fun s => (x, s)

/-- A trace left by code that does not fail. -/
def modify (f : σ → σ) : Effect σ ε Unit := fun s => (.ok (), f s)

/-- `map_err`. -/
def mapErr (f : ε → ε') (x : Effect σ ε α) : Effect σ ε' α := fun s =>
  (Outcome.mapErr f (x s).1, (x s).2)

/-- `whatever_context`. -/
def context (msg : ε') (x : Effect σ ε α) : Effect σ ε' α := mapErr (fun _ => msg) x

/-- Code that works on a part of the state. -/
def zoom (get : σ → τ) (set : τ → σ → σ) (x : Effect τ ε α) : Effect σ ε α := fun s =>
  ((x (get s)).1, set (x (get s)).2 s)

/-! ### Chains -/

theorem pure_apply (a : α) (s : σ) : (pure a : Effect σ ε α) s = (.ok a, s) := rfl

@[simp] theorem pure_eq_ok {a b : α} {s t : σ} :
    (pure a : Effect σ ε α) s = (.ok b, t) ↔ a = b ∧ s = t := by
  rw [pure_apply, Prod.mk.injEq, Except.ok.injEq]

theorem bind_of_ok {x : Effect σ ε α} {f : α → Effect σ ε β} {s t : σ} {a : α}
    (h : x s = (.ok a, t)) : (x >>= f) s = f a t := by
  show (match x s with | (.ok a, t) => f a t | (.error e, t) => (.error e, t)) = f a t
  rw [h]

theorem bind_of_error {x : Effect σ ε α} {f : α → Effect σ ε β} {s t : σ} {e : Failure ε}
    (h : x s = (.error e, t)) : (x >>= f) s = (.error e, t) := by
  show (match x s with | (.ok a, t) => f a t | (.error e, t) => (.error e, t)) = _
  rw [h]

theorem pure_bind (a : α) (f : α → Effect σ ε β) : (pure a >>= f : Effect σ ε β) = f a := rfl

theorem bind_assoc (x : Effect σ ε α) (f : α → Effect σ ε β) (g : β → Effect σ ε γ) :
    (x >>= f) >>= g = x >>= fun a => f a >>= g := by
  funext s
  rcases hx : x s with ⟨e | a, t⟩
  · rw [bind_of_error hx, bind_of_error (bind_of_error hx)]
  · rw [bind_of_ok hx]
    show (match (x >>= f) s with | (.ok b, u) => g b u | (.error e, u) => (.error e, u)) = _
    rw [bind_of_ok hx]
    rfl

/-- A chain of code without traces is without traces. -/
theorem lift_bind (x : Outcome ε α) (f : α → Outcome ε β) :
    (lift (x >>= f) : Effect σ ε β) = lift x >>= fun a => lift (f a) := by
  funext s
  cases x <;> rfl

/-- A chain ends in `Ok` exactly when its first link and the rest do. -/
theorem ok_of_bind {x : Effect σ ε α} {f : α → Effect σ ε β} {s u : σ} {b : β} :
    (x >>= f) s = (.ok b, u) ↔ ∃ a t, x s = (.ok a, t) ∧ f a t = (.ok b, u) := by
  rcases hx : x s with ⟨e | a, t⟩
  · rw [bind_of_error hx]
    simp
  · rw [bind_of_ok hx]
    refine ⟨fun h => ⟨a, t, rfl, h⟩, ?_⟩
    intro h
    obtain ⟨a', t', heq, hf⟩ := h
    simp only [Prod.mk.injEq, Except.ok.injEq] at heq
    obtain ⟨rfl, rfl⟩ := heq
    exact hf

/-- A chain breaks at its first link or after it. -/
theorem error_of_bind {x : Effect σ ε α} {f : α → Effect σ ε β} {s u : σ} {e : Failure ε} :
    (x >>= f) s = (.error e, u) ↔
      x s = (.error e, u) ∨ ∃ a t, x s = (.ok a, t) ∧ f a t = (.error e, u) := by
  rcases hx : x s with ⟨e' | a, t⟩
  · rw [bind_of_error hx]
    simp
  · rw [bind_of_ok hx]
    refine ⟨fun h => .inr ⟨a, t, rfl, h⟩, ?_⟩
    intro h
    obtain h | ⟨a', t', heq, hf⟩ := h
    · simp at h
    · cases heq
      exact hf

@[simp] theorem lift_apply (x : Outcome ε α) (s : σ) : lift x s = (x, s) := rfl

@[simp] theorem modify_apply (f : σ → σ) (s : σ) :
    (modify f : Effect σ ε Unit) s = (.ok (), f s) := rfl

/-- Code without traces ends in the state it started in. -/
theorem lift_eq_ok {x : Outcome ε α} {s t : σ} {a : α} :
    lift x s = (.ok a, t) ↔ x = .ok a ∧ t = s := by
  rw [lift_apply, Prod.mk.injEq, eq_comm (a := s)]

/-- Code whose outcome is `Ok` ends in some state. -/
theorem exists_of_fst {x : Effect σ ε α} {s : σ} {a : α} (h : (x s).1 = .ok a) :
    ∃ t, x s = (.ok a, t) := ⟨(x s).2, Prod.ext h rfl⟩

theorem mapErr_eq_ok {f : ε → ε'} {x : Effect σ ε α} {s t : σ} {a : α} :
    mapErr f x s = (.ok a, t) ↔ x s = (.ok a, t) := by
  rcases hx : x s with ⟨o, u⟩
  simp [mapErr, hx]

theorem context_eq_ok {msg : ε'} {x : Effect σ ε α} {s t : σ} {a : α} :
    context msg x s = (.ok a, t) ↔ x s = (.ok a, t) := mapErr_eq_ok

/-- Code that works on a part of the state ends as it does there. -/
theorem zoom_eq_iff {get : σ → τ} {set : τ → σ → σ} {x : Effect τ ε α} {s t : σ}
    {o : Outcome ε α} : zoom get set x s = (o, t) ↔ ∃ u, x (get s) = (o, u) ∧ t = set u s := by
  rcases hx : x (get s) with ⟨o', u⟩
  simp only [zoom, hx, Prod.mk.injEq]
  refine ⟨fun h => ⟨u, ⟨h.1, rfl⟩, h.2.symm⟩, ?_⟩
  intro h
  obtain ⟨u', ⟨ho, rfl⟩, ht⟩ := h
  exact ⟨ho, ht.symm⟩

theorem zoom_eq_ok {get : σ → τ} {set : τ → σ → σ} {x : Effect τ ε α} {s t : σ} {a : α} :
    zoom get set x s = (.ok a, t) ↔ ∃ u, x (get s) = (.ok a, u) ∧ t = set u s := zoom_eq_iff

/-! ### What holds however the code ends -/

/-- From `s` the code ends, in whatever outcome, in a state with `P`. -/
def Leaves (x : Effect σ ε α) (s : σ) (P : σ → Prop) : Prop := P (x s).2

/-- A chain breaks at its first link or goes on with the rest. -/
theorem bind_cases (x : Effect σ ε α) (f : α → Effect σ ε β) (s : σ) :
    (∃ e t, x s = (.error e, t) ∧ (x >>= f) s = (.error e, t)) ∨
      ∃ a t, x s = (.ok a, t) ∧ (x >>= f) s = f a t := by
  rcases hx : x s with ⟨e | a, t⟩
  · exact .inl ⟨e, t, rfl, bind_of_error hx⟩
  · exact .inr ⟨a, t, rfl, bind_of_ok hx⟩

/-- A chain leaves what its first link leaves, or what the rest makes of that. -/
theorem leaves_bind {x : Effect σ ε α} {f : α → Effect σ ε β} {s : σ} {P Q : σ → Prop}
    (hx : x.Leaves s P) (hstop : ∀ t, P t → Q t) (hf : ∀ a t, P t → (f a).Leaves t Q) :
    (x >>= f).Leaves s Q := by
  obtain ⟨e, t, hx', hbind⟩ | ⟨a, t, hx', hbind⟩ := bind_cases x f s
  · rw [Leaves, hx'] at hx
    rw [Leaves, hbind]
    exact hstop t hx
  · rw [Leaves, hx'] at hx
    rw [Leaves, hbind]
    exact hf a t hx

theorem leaves_lift {x : Outcome ε α} {s : σ} {P : σ → Prop} (h : P s) :
    (lift x).Leaves s P := h

theorem leaves_pure {a : α} {s : σ} {P : σ → Prop} (h : P s) :
    (pure a : Effect σ ε α).Leaves s P := h

theorem leaves_zoom {get : σ → τ} {set : τ → σ → σ} {x : Effect τ ε α} {s : σ} {P : σ → Prop}
    (h : ∀ u, P (set u s)) : (zoom get set x).Leaves s P := h _

/-! ### Commands up to the first that fails -/

section UntilError

variable {κ : Type} (exec : κ → Effect σ ε Unit)

/-- The commands that run, and what they leave: `set -e` stops at the first that fails. -/
def untilError : List κ → σ → List κ × σ
  | [], s => ([], s)
  | c :: cs, s =>
    match exec c s with
    | (.ok (), t) => (c :: (untilError cs t).1, (untilError cs t).2)
    | (.error _, t) => ([c], t)

variable {exec}

/-- What every command keeps, whether it fails or not, holds wherever the commands stop. -/
theorem untilError_invariant {P : List κ → σ → Prop}
    (hstep : ∀ ran c s, P ran s → (exec c).Leaves s (P (ran ++ [c]))) (cs : List κ)
    {ran : List κ} {s : σ} (h : P ran s) : P (ran ++ (untilError exec cs s).1) (untilError exec cs s).2 := by
  induction cs generalizing ran s with
  | nil =>
      rw [untilError, List.append_nil]
      exact h
  | cons c cs ih =>
      have hc : P (ran ++ [c]) (exec c s).2 := hstep ran c s h
      rw [untilError]
      rcases hexec : exec c s with ⟨e | u, t⟩
      · rw [hexec] at hc
        exact hc
      · rw [hexec] at hc
        have hrest := ih hc
        rw [List.append_assoc, List.singleton_append] at hrest
        exact hrest

/-! ### All commands -/

variable (exec)

/-- The commands one after the other. -/
def seq : List κ → Effect σ ε Unit
  | [] => pure ()
  | c :: cs => exec c >>= fun _ => seq cs

variable {exec}

theorem seq_append (cs ds : List κ) : seq exec (cs ++ ds) = seq exec cs >>= fun _ => seq exec ds := by
  induction cs with
  | nil => rfl
  | cons c cs ih =>
      show (exec c >>= fun _ => seq exec (cs ++ ds)) = _
      rw [ih]
      exact (bind_assoc _ _ _).symm

/-- What no command breaks holds wherever they stop. -/
theorem leaves_seq {P : σ → Prop} {cs : List κ} (h : ∀ c ∈ cs, ∀ s, P s → (exec c).Leaves s P)
    {s : σ} (hs : P s) : (seq exec cs).Leaves s P := by
  induction cs generalizing s with
  | nil => exact leaves_pure hs
  | cons c cs ih =>
      refine leaves_bind (h c List.mem_cons_self s hs) (fun _ ht => ht) fun _ t ht => ?_
      exact ih (fun c' hc' => h c' (List.mem_cons_of_mem c hc')) ht

end UntilError

/-! ### Which errors the code can end in -/

/-- Every error that the code returns has `P`. -/
def Raises (x : Effect σ ε α) (P : ε → Prop) : Prop := ∀ s e t, x s = (.error (.error e), t) → P e

theorem raises_lift {x : Outcome ε α} {P : ε → Prop} (h : ∀ e, x = Outcome.fail e → P e) :
    (lift x : Effect σ ε α).Raises P := by
  intro s e t hx
  exact h e (Prod.mk.inj hx).1

theorem raises_mapErr {f : ε → ε'} {x : Effect σ ε α} {P : ε' → Prop} (h : ∀ e, P (f e)) :
    (mapErr f x).Raises P := by
  intro s e t hx
  obtain ⟨e', -, rfl⟩ := Outcome.mapErr_eq_fail.mp (Prod.mk.inj hx).1
  exact h e'

theorem raises_pure {a : α} {P : ε → Prop} : (pure a : Effect σ ε α).Raises P := by
  intro s e t h
  simp [pure_apply] at h

theorem raises_bind {x : Effect σ ε α} {f : α → Effect σ ε β} {P : ε → Prop} (hx : x.Raises P)
    (hf : ∀ a, (f a).Raises P) : (x >>= f).Raises P := by
  intro s e u h
  obtain h | ⟨a, t, -, h⟩ := error_of_bind.mp h
  · exact hx s e u h
  · exact hf a t e u h

/-- The code comes to an error that its first link does not raise by way of the rest. -/
theorem error_of_bind_of_raises {x : Effect σ ε α} {f : α → Effect σ ε β} {P : ε → Prop}
    (hx : x.Raises P) {s u : σ} {e : ε} (he : ¬ P e) :
    (x >>= f) s = (.error (.error e), u) ↔
      ∃ a t, x s = (.ok a, t) ∧ f a t = (.error (.error e), u) := by
  rw [error_of_bind]
  exact or_iff_right fun h => he (hx s e u h)

end Effect
