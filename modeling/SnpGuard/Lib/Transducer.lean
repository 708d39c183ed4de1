/-
Transducers: machines that read a list and write another.

A transducer reads one symbol at a time and writes any number of symbols for it; it may
stop before the end, and it may have something left to write when the input ends.  Two
rules cover its runs.  `run_eq_of_copies` is for an input that comes out as it went in,
and `Contracts` gives every state a weight that the output cannot exceed, so that one
symbol on which a run loses length makes the whole output shorter (`length_run_lt`).
-/
import Mathlib.Data.List.Basic

/-- A transducer. -/
structure Transducer (σ α β : Type) where
  /-- What is written for a symbol and where that leads; `none` when it stops here. -/
  next : σ → α → Option (List β × σ)
  /-- What is left to write at the end of the input. -/
  flush : σ → List β

namespace Transducer

variable {σ α β : Type} (T : Transducer σ α β)

/-- What is written from a state on, and whether the input was read to its end. -/
def run : σ → List α → List β × Bool
  | s, [] => (T.flush s, true)
  | s, a :: as =>
    match T.next s a with
    | none => ([], false)
    | some (out, t) => (out ++ (run t as).1, (run t as).2)

variable {T}

@[simp] theorem run_nil (s : σ) : T.run s [] = (T.flush s, true) := rfl

theorem run_cons_none {s : σ} {a : α} (h : T.next s a = none) (as : List α) :
    T.run s (a :: as) = ([], false) := by
  simp [run, h]

theorem run_cons_some {s t : σ} {a : α} {out : List β} (h : T.next s a = some (out, t))
    (as : List α) : T.run s (a :: as) = (out ++ (T.run t as).1, (T.run t as).2) := by
  simp [run, h]

/-! ### Inputs that come out unchanged -/

/-- While `P` holds, what has been read is what was written and is left to write. -/
theorem run_eq_of_copies {T : Transducer σ α α} {P : σ → List α → Prop}
    (hstep : ∀ s a as, P s (a :: as) →
      ∃ out t, T.next s a = some (out, t) ∧ out ++ T.flush t = T.flush s ++ [a] ∧ P t as) :
    ∀ {as : List α} {s : σ}, P s as → T.run s as = (T.flush s ++ as, true) := by
  intro as
  induction as with
  | nil => intro s _; simp
  | cons a as ih =>
      intro s hP
      obtain ⟨out, t, hnext, hout, ht⟩ := hstep s a as hP
      rw [run_cons_some hnext, ih ht, ← List.append_assoc, hout, List.append_assoc]
      rfl

/-! ### Outputs that are no longer than the input -/

/-- Every state owes at most its weight, and reading pays for writing. -/
structure Contracts (T : Transducer σ α β) (weight : σ → Nat) : Prop where
  next : ∀ {s a out t}, T.next s a = some (out, t) → out.length + weight t ≤ weight s + 1
  flush : ∀ s, (T.flush s).length ≤ weight s

variable {weight : σ → Nat}

theorem Contracts.length_run_le (h : T.Contracts weight) :
    ∀ (as : List α) (s : σ), (T.run s as).1.length ≤ weight s + as.length := by
  intro as
  induction as with
  | nil => intro s; simpa using h.flush s
  | cons a as ih =>
      intro s
      cases hnext : T.next s a with
      | none => rw [run_cons_none hnext]; simp
      | some r =>
          obtain ⟨out, t⟩ := r
          have hpaid := h.next hnext
          have hrest := ih t
          rw [run_cons_some hnext]
          simp only [List.length_append, List.length_cons]
          omega

/-- On this symbol the run loses length. -/
def Loses (T : Transducer σ α β) (weight : σ → Nat) (s : σ) (a : α) : Prop :=
  ∀ out t, T.next s a = some (out, t) → out.length + weight t < weight s + 1

/-- A run that loses length on its first symbol writes less than it read. -/
theorem Contracts.length_run_lt (h : T.Contracts weight) {s : σ} {a : α}
    (hloses : T.Loses weight s a) (as : List α) :
    (T.run s (a :: as)).1.length < weight s + (a :: as).length := by
  cases hnext : T.next s a with
  | none =>
      rw [run_cons_none hnext]
      simp only [List.length_nil, List.length_cons]
      omega
  | some r =>
      obtain ⟨out, t⟩ := r
      have hpaid := hloses out t hnext
      have hrest := h.length_run_le as t
      rw [run_cons_some hnext]
      simp only [List.length_append, List.length_cons]
      omega

/-- And so does one that loses it later. -/
theorem Contracts.length_run_lt_of_rest (h : T.Contracts weight) {s t : σ} {a : α}
    {out : List β} {as : List α} (hnext : T.next s a = some (out, t))
    (hrest : (T.run t as).1.length < weight t + as.length) :
    (T.run s (a :: as)).1.length < weight s + (a :: as).length := by
  have hpaid := h.next hnext
  rw [run_cons_some hnext]
  simp only [List.length_append, List.length_cons]
  omega

end Transducer
