/-
What a Rust function can do: return `Ok`, return `Err`, or panic.

`Outcome ε α` is `Except` with the panic as a second kind of failure, so that `do`
blocks read like the source's `?` chains and a panic cuts through them as it does
there.  `ok_of_bind` takes such a chain apart: a chain that ends in `Ok` had every
link end in `Ok`.
-/
import Mathlib.Logic.Basic

/-- How a Rust function fails to return a value. -/
inductive Failure (ε : Type) where
  /-- It returned `Err`. -/
  | error (e : ε)
  /-- It panicked. -/
  | panicked (msg : String)
deriving DecidableEq, Repr

/-- The outcome of a Rust function with error type `ε` and result type `α`. -/
abbrev Outcome (ε α : Type) := Except (Failure ε) α

/-- `snafu::Whatever`: an error known by its message. -/
abbrev Whatever := String

namespace Outcome

variable {ε ε' α β : Type}

/-- `Err(e)`. -/
def fail (e : ε) : Outcome ε α := .error (.error e)

/-- A panic. -/
def crash (msg : String) : Outcome ε α := .error (.panicked msg)

/-- `whatever_context` on a fallible call that is known only by its result. -/
def ofOption (r : Option α) (e : ε) : Outcome ε α :=
  match r with
  | some a => .ok a
  | none => fail e

/-- `map_err`, which leaves a panic alone. -/
def mapErr (f : ε → ε') : Outcome ε α → Outcome ε' α
  | .ok a => .ok a
  | .error (.error e) => .error (.error (f e))
  | .error (.panicked msg) => .error (.panicked msg)

/-- `whatever_context`: the context takes the place of the message. -/
def context (msg : ε') (x : Outcome ε α) : Outcome ε' α := mapErr (fun _ => msg) x

/-- `ensure!`. -/
def ensure (c : Prop) [Decidable c] (e : ε) : Outcome ε Unit :=
  if c then .ok () else fail e

/-- `if let Some(a) = r { f(a)? }`. -/
def whenSome (r : Option α) (f : α → Outcome ε Unit) : Outcome ε Unit :=
  match r with
  | some a => f a
  | none => .ok ()

/-- Whether the call ended in a panic. -/
def isPanic : Outcome ε α → Bool
  | .error (.panicked _) => true
  | _ => false

@[simp] theorem ofOption_some (a : α) (e : ε) : ofOption (some a) e = .ok a := rfl

@[simp] theorem ofOption_none (e : ε) : ofOption (none : Option α) e = fail e := rfl

@[simp] theorem ofOption_eq_ok {r : Option α} {e : ε} {a : α} :
    ofOption r e = .ok a ↔ r = some a := by
  cases r <;> simp [fail]

@[simp] theorem fail_ne_ok (e : ε) (a : α) : (fail e : Outcome ε α) ≠ .ok a := by
  simp [fail]

@[simp] theorem crash_ne_ok (msg : String) (a : α) : (crash msg : Outcome ε α) ≠ .ok a := by
  simp [crash]

@[simp] theorem mapErr_eq_ok {f : ε → ε'} {x : Outcome ε α} {a : α} :
    mapErr f x = .ok a ↔ x = .ok a := by
  rcases x with (e | msg) | b <;> simp [mapErr]

@[simp] theorem context_eq_ok {msg : ε'} {x : Outcome ε α} {a : α} :
    context msg x = .ok a ↔ x = .ok a := mapErr_eq_ok

@[simp] theorem mapErr_ok (f : ε → ε') (a : α) : mapErr f (.ok a : Outcome ε α) = .ok a := rfl

@[simp] theorem context_ok (msg : ε') (a : α) : context msg (.ok a : Outcome ε α) = .ok a := rfl

@[simp] theorem ensure_eq_ok {c : Prop} [Decidable c] {e : ε} {u : Unit} :
    ensure c e = .ok u ↔ c := by
  by_cases h : c <;> simp [ensure, h]

theorem ensure_eq_error {c : Prop} [Decidable c] {e : ε} {f : Failure ε} :
    ensure c e = .error f ↔ ¬ c ∧ f = .error e := by
  by_cases h : c <;> simp [ensure, fail, h, eq_comm]

theorem ensure_of {c : Prop} [Decidable c] (h : c) (e : ε) : ensure c e = .ok () := if_pos h

@[simp] theorem whenSome_eq_ok {r : Option α} {f : α → Outcome ε Unit} {u : Unit} :
    whenSome r f = .ok u ↔ ∀ a, r = some a → f a = .ok () := by
  cases r <;> simp [whenSome]

theorem whenSome_eq_error {r : Option α} {f : α → Outcome ε Unit} {g : Failure ε} :
    whenSome r f = .error g ↔ ∃ a, r = some a ∧ f a = .error g := by
  cases r <;> simp [whenSome]

theorem mapErr_eq_error {f : ε → ε'} {x : Outcome ε α} (hx : x.isPanic = false)
    {g : Failure ε'} : mapErr f x = .error g ↔ ∃ e, x = fail e ∧ g = .error (f e) := by
  rcases x with (e | msg) | a
  · simp [mapErr, fail, eq_comm]
  · exact absurd hx (by simp [isPanic])
  · simp [mapErr, fail]

theorem mapErr_eq_fail {f : ε → ε'} {x : Outcome ε α} {e' : ε'} :
    mapErr f x = fail e' ↔ ∃ e, x = fail e ∧ f e = e' := by
  rcases x with (e | msg) | a
  · simp [mapErr, fail]
  · simp [mapErr, fail]
  · simp [mapErr, fail]

/-- A chain ends in `Ok` exactly when its first link and the rest do. -/
theorem ok_of_bind {x : Outcome ε α} {f : α → Outcome ε β} {b : β} :
    (x >>= f) = .ok b ↔ ∃ a, x = .ok a ∧ f a = .ok b := by
  cases x <;> simp [bind, Except.bind]

/-- The same where the first link returns nothing. -/
theorem ok_of_seq {x : Outcome ε Unit} {f : Unit → Outcome ε β} {b : β} :
    (x >>= f) = .ok b ↔ x = .ok () ∧ f () = .ok b := by
  cases x <;> simp [bind, Except.bind]

@[simp] theorem bind_ok (a : α) (f : α → Outcome ε β) :
    ((.ok a : Outcome ε α) >>= f) = f a := rfl

@[simp] theorem bind_error (e : Failure ε) (f : α → Outcome ε β) :
    ((.error e : Outcome ε α) >>= f) = .error e := rfl

@[simp] theorem bind_fail (e : ε) (f : α → Outcome ε β) : ((fail e) >>= f) = fail e := rfl

@[simp] theorem bind_crash (msg : String) (f : α → Outcome ε β) :
    ((crash msg) >>= f) = crash msg := rfl

@[simp] theorem bind_unit (x : Outcome ε Unit) : (x >>= fun _ => .ok ()) = x := by
  cases x <;> rfl

@[simp] theorem pure_eq_ok (a : α) : (pure a : Outcome ε α) = .ok a := rfl

/-! ### Checks made in order -/

/-- Checks made one after the other, up to the first that fails. -/
def inOrder : List (Outcome ε Unit) → Outcome ε Unit
  | [] => .ok ()
  | c :: cs => c >>= fun _ => inOrder cs

theorem inOrder_append (cs ds : List (Outcome ε Unit)) :
    inOrder (cs ++ ds) = (inOrder cs >>= fun _ => inOrder ds) := by
  induction cs with
  | nil => rfl
  | cons c cs ih =>
      show (c >>= fun _ => inOrder (cs ++ ds)) = ((c >>= fun _ => inOrder cs) >>= _)
      rw [ih]
      cases c <;> rfl

theorem inOrder_eq_ok {cs : List (Outcome ε Unit)} :
    inOrder cs = .ok () ↔ ∀ c ∈ cs, c = .ok () := by
  induction cs with
  | nil => simp [inOrder]
  | cons c cs ih => simp only [inOrder, ok_of_seq, ih, List.forall_mem_cons]

/-- The failure is that of the first check that fails. -/
theorem inOrder_eq_error {cs : List (Outcome ε Unit)} {f : Failure ε} :
    inOrder cs = .error f ↔
      ∃ before after, cs = before ++ .error f :: after ∧ ∀ c ∈ before, c = .ok () := by
  induction cs with
  | nil => simp [inOrder]
  | cons c cs ih =>
      by_cases hc : c = .ok ()
      · subst hc
        show inOrder cs = .error f ↔ _
        rw [ih]
        refine ⟨?_, ?_⟩
        · intro h
          obtain ⟨before, after, rfl, hbefore⟩ := h
          exact ⟨.ok () :: before, after, rfl, by simpa using hbefore⟩
        · intro h
          obtain ⟨before, after, hcs, hbefore⟩ := h
          obtain _ | ⟨b, before⟩ := before
          · simp at hcs
          · rw [List.cons_append, List.cons.injEq] at hcs
            exact ⟨before, after, hcs.2, fun c hc => hbefore c (by simp [hc])⟩
      · obtain ⟨g, rfl⟩ : ∃ g, c = .error g := by
          rcases c with g | ⟨⟩
          · exact ⟨g, rfl⟩
          · exact absurd rfl hc
        show Except.error g = Except.error f ↔ _
        rw [Except.error.injEq]
        refine ⟨?_, ?_⟩
        · intro h
          exact ⟨[], cs, by rw [h, List.nil_append], by simp⟩
        · intro h
          obtain ⟨before, after, hcs, hbefore⟩ := h
          obtain _ | ⟨b, before⟩ := before
          · rw [List.nil_append, List.cons.injEq, Except.error.injEq] at hcs
            exact hcs.1
          · rw [List.cons_append, List.cons.injEq] at hcs
            rw [← hcs.1] at hbefore
            exact absurd (hbefore _ List.mem_cons_self) hc

/-! ### Panics -/

@[simp] theorem isPanic_ok (a : α) : isPanic (.ok a : Outcome ε α) = false := rfl

@[simp] theorem isPanic_fail (e : ε) : isPanic (fail e : Outcome ε α) = false := rfl

@[simp] theorem isPanic_crash (msg : String) : isPanic (crash msg : Outcome ε α) = true := rfl

@[simp] theorem isPanic_ofOption (r : Option α) (e : ε) :
    isPanic (ofOption r e) = false := by
  cases r <;> rfl

@[simp] theorem isPanic_ensure (c : Prop) [Decidable c] (e : ε) :
    isPanic (ensure c e) = false := by
  by_cases h : c <;> simp [ensure, h]

@[simp] theorem isPanic_mapErr (f : ε → ε') (x : Outcome ε α) :
    isPanic (mapErr f x) = isPanic x := by
  rcases x with (e | msg) | a <;> rfl

@[simp] theorem isPanic_context (msg : ε') (x : Outcome ε α) :
    isPanic (context msg x) = isPanic x := isPanic_mapErr _ x

/-- A chain panics exactly when its first link does, or returns and the rest does. -/
theorem isPanic_bind {x : Outcome ε α} {f : α → Outcome ε β} :
    isPanic (x >>= f) = true ↔
      isPanic x = true ∨ ∃ a, x = .ok a ∧ isPanic (f a) = true := by
  rcases x with (e | msg) | a <;> simp [bind, Except.bind, isPanic]

/-- A condition in front of a chain adds no panic. -/
theorem isPanic_ensure_seq {c : Prop} [Decidable c] {e : ε} {x : Outcome ε α}
    (hx : x.isPanic = false) : isPanic (ensure c e >>= fun _ => x) = false := by
  by_cases h : c
  · rw [ensure_of h]
    exact hx
  · rw [ensure, if_neg h]
    rfl

end Outcome
