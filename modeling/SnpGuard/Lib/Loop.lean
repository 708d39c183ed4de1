/-
A machine that takes one input at a time until it stops.

A server loop that `match`es on each request, `continue`s or `return`s is such a
machine: `step` either goes on in a new state or finishes with a result.  The
rules below say how a run splits at its last input, which is how properties of
runs of any length reduce to properties of one step.
-/
import Mathlib.Data.List.Induction

namespace Loop

variable {σ ι ρ : Type}

/-- How far a run got: still going, or finished with some inputs not looked at. -/
inductive Status (σ ι ρ : Type) where
  | running (s : σ)
  | finished (r : ρ) (rest : List ι)
deriving DecidableEq

/-- Feed inputs to the machine until they run out or it stops. -/
def run (step : σ → ι → σ ⊕ ρ) : σ → List ι → Status σ ι ρ
  | s, [] => .running s
  | s, i :: is =>
    match step s i with
    | .inl t => run step t is
    | .inr r => .finished r is

variable {step : σ → ι → σ ⊕ ρ}

@[simp] theorem run_nil (s : σ) : run step s [] = .running s := rfl

theorem run_cons_inl {s t : σ} {i : ι} (h : step s i = .inl t) (is : List ι) :
    run step s (i :: is) = run step t is := by
  simp [run, h]

theorem run_cons_inr {s : σ} {i : ι} {r : ρ} (h : step s i = .inr r) (is : List ι) :
    run step s (i :: is) = .finished r is := by
  simp [run, h]

/-- A run over a longer input list goes on where the run over its front stopped. -/
theorem run_append_running :
    ∀ {front : List ι} {s t : σ}, run step s front = .running t →
      ∀ back, run step s (front ++ back) = run step t back := by
  intro front
  induction front with
  | nil =>
      intro s t h back
      simp only [run_nil, Status.running.injEq] at h
      subst h
      rfl
  | cons i is ih =>
      intro s t h back
      cases hstep : step s i with
      | inl u =>
          rw [run_cons_inl hstep] at h
          rw [List.cons_append, run_cons_inl hstep]
          exact ih h back
      | inr r =>
          rw [run_cons_inr hstep] at h
          simp at h

theorem run_append_finished :
    ∀ {front : List ι} {s : σ} {r : ρ} {rest : List ι},
      run step s front = .finished r rest →
      ∀ back, run step s (front ++ back) = .finished r (rest ++ back) := by
  intro front
  induction front with
  | nil => intro s r rest h; simp at h
  | cons i is ih =>
      intro s r rest h back
      cases hstep : step s i with
      | inl u =>
          rw [run_cons_inl hstep] at h
          rw [List.cons_append, run_cons_inl hstep]
          exact ih h back
      | inr r' =>
          rw [run_cons_inr hstep] at h
          rw [List.cons_append, run_cons_inr hstep]
          simp only [Status.finished.injEq] at h ⊢
          exact ⟨h.1, by rw [h.2]⟩

/-- A run that is still going after one more input was going before it. -/
theorem run_snoc_running {s t : σ} {front : List ι} {i : ι} :
    run step s (front ++ [i]) = .running t ↔
      ∃ u, run step s front = .running u ∧ step u i = .inl t := by
  cases hrun : run step s front with
  | running u =>
      rw [run_append_running hrun]
      cases hstep : step u i with
      | inl v => simp [run_cons_inl hstep, hstep]
      | inr r => simp [run_cons_inr hstep, hstep]
  | finished r rest =>
      rw [run_append_finished hrun]
      simp

/-- A run finishes at its last input exactly when it was going until then and the
step on that input finishes. -/
theorem run_snoc_finished {s : σ} {r : ρ} {front : List ι} {i : ι} :
    run step s (front ++ [i]) = .finished r [] ↔
      ∃ u, run step s front = .running u ∧ step u i = .inr r := by
  cases hrun : run step s front with
  | running u =>
      rw [run_append_running hrun]
      cases hstep : step u i with
      | inl v => simp [run_cons_inl hstep, hstep]
      | inr r' => simp [run_cons_inr hstep, hstep]
  | finished r' rest =>
      rw [run_append_finished hrun]
      simp

/-- A finished run stopped at one of its inputs. -/
theorem run_finished {s : σ} {r : ρ} {rest : List ι} :
    ∀ {is : List ι}, run step s is = .finished r rest →
      ∃ front i u, is = front ++ i :: rest ∧ run step s front = .running u ∧
        step u i = .inr r := by
  intro is
  induction is generalizing s with
  | nil => intro h; simp at h
  | cons i is ih =>
      intro h
      cases hstep : step s i with
      | inl t =>
          rw [run_cons_inl hstep] at h
          obtain ⟨front, j, u, rfl, hrun, hj⟩ := ih h
          exact ⟨i :: front, j, u, rfl, by rw [run_cons_inl hstep]; exact hrun, hj⟩
      | inr r' =>
          rw [run_cons_inr hstep] at h
          simp only [Status.finished.injEq] at h
          obtain ⟨rfl, rfl⟩ := h
          exact ⟨[], i, s, rfl, rfl, hstep⟩

/-- What holds at the start and survives every step holds as long as the run goes on. -/
theorem invariant {I : σ → Prop} {s : σ} (h0 : I s)
    (hstep : ∀ u i v, I u → step u i = .inl v → I v) :
    ∀ {is : List ι} {t : σ}, run step s is = .running t → I t := by
  intro is
  induction is using List.reverseRecOn with
  | nil =>
      intro t h
      simp only [run_nil, Status.running.injEq] at h
      exact h ▸ h0
  | append_singleton front i ih =>
      intro t h
      obtain ⟨u, hrun, hu⟩ := run_snoc_running.mp h
      exact hstep u i t (ih hrun) hu

end Loop
