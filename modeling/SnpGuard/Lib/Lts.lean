/-
Labelled transition systems: runs, reachable states and invariants.

A system of several parties is a relation on their joint state, and every order
in which they can move is a run of it.  `Run` keeps the labels and the states a run
goes through, so that a property of whole runs can be stated; `Reachable` forgets
them.  `guarded` keeps only the steps a condition allows, which is how a property
that fails in general is stated of the runs where it holds.
-/
import Mathlib.Data.List.Basic

/-- A labelled transition system. -/
structure Lts (σ α : Type) where
  init : σ → Prop
  step : σ → α → σ → Prop

namespace Lts

variable {σ α : Type} {M : Lts σ α}

/-- A run: its labels, each with the state it leads to, and its last state. -/
inductive Run (M : Lts σ α) : List (α × σ) → σ → Prop
  | init {s : σ} (h : M.init s) : Run M [] s
  | snoc {path : List (α × σ)} {s t : σ} {a : α} (h : Run M path s) (hstep : M.step s a t) :
      Run M (path ++ [(a, t)]) t

/-- A state some run ends in. -/
inductive Reachable (M : Lts σ α) : σ → Prop
  | init {s : σ} (h : M.init s) : Reachable M s
  | step {s t : σ} {a : α} (h : Reachable M s) (hstep : M.step s a t) : Reachable M t

/-- What holds initially and survives every step holds in every reachable state. -/
theorem Reachable.invariant {I : σ → Prop} (h0 : ∀ s, M.init s → I s)
    (hstep : ∀ s a t, M.Reachable s → I s → M.step s a t → I t) {s : σ}
    (h : M.Reachable s) : I s := by
  induction h with
  | init h => exact h0 _ h
  | step hr ht ih => exact hstep _ _ _ hr ih ht

/-- A run keeps a property exactly when it takes no step of the kind that breaks it, if the
other steps keep it along with an invariant. -/
theorem Run.all_iff_none {I P : σ → Prop} {B : α → Prop} (h0 : ∀ s, M.init s → I s)
    (hkeeps : ∀ s a t, I s → M.step s a t → ¬ B a → I t ∧ P t)
    (hbreaks : ∀ s a t, M.step s a t → B a → ¬ P t) {path : List (α × σ)} {s : σ}
    (h : M.Run path s) : (∀ e ∈ path, P e.2) ↔ ∀ e ∈ path, ¬ B e.1 := by
  refine ⟨?_, ?_⟩
  · intro hall
    induction h with
    | init h => simp
    | @snoc path s t a hrun hstep ih =>
        intro e he
        rcases List.mem_append.mp he with he | he
        · exact ih (fun e' he' => hall e' (List.mem_append_left _ he')) e he
        · rw [List.mem_singleton.mp he]
          intro hB
          exact hbreaks s a t hstep hB (hall (a, t) (by simp))
  · intro hnone
    have hboth : (∀ e ∈ path, P e.2) ∧ I s := by
      induction h with
      | init h => exact ⟨by simp, h0 _ h⟩
      | @snoc path s t a hrun hstep ih =>
          obtain ⟨hpath, hI⟩ := ih fun e he => hnone e (List.mem_append_left _ he)
          obtain ⟨hI', hP⟩ := hkeeps s a t hI hstep (hnone (a, t) (by simp))
          refine ⟨?_, hI'⟩
          intro e he
          rcases List.mem_append.mp he with he | he
          · exact hpath e he
          · rw [List.mem_singleton.mp he]
            exact hP
    exact hboth.1

/-- The steps of `M` that `G` allows. -/
def guarded (M : Lts σ α) (G : σ → α → Prop) : Lts σ α where
  init := M.init
  step s a t := M.step s a t ∧ G s a

theorem Reachable.of_guarded {G : σ → α → Prop} {s : σ} (h : (M.guarded G).Reachable s) :
    M.Reachable s := by
  induction h with
  | init h => exact .init h
  | step _ ht ih => exact .step ih ht.1

end Lts
