import Mathlib.Data.List.Induction
import Mathlib.Tactic.Common

/-!
# `Lib.Trace` — runs of a labelled transition system

`Run Step s es t`: the system takes the steps labelled `es`, in order, from `s` to `t`. Runs are built
at the end (`snoc`), as a running program builds them, and taken apart anywhere (`append_inv`).

* `Run.invariant` — what every step preserves holds along a run;
* `Run.absent_after`, `Run.absent_before` — a step between two halves of the state space is taken once;
* `Run.map` — a run of one system is a run of another that simulates it step by step.
-/

namespace Lib

variable {σ τ ε : Type} {Step : σ → ε → σ → Prop}

/-- Runs, with the labels of their steps. -/
inductive Run (Step : σ → ε → σ → Prop) (s : σ) : List ε → σ → Prop
  | nil : Run Step s [] s
  | snoc {es : List ε} {t u : σ} {e : ε} : Run Step s es t → Step t e u → Run Step s (es ++ [e]) u

namespace Run

variable {s t u : σ} {es es' : List ε} {e : ε}

theorem append (h : Run Step s es t) (h' : Run Step t es' u) : Run Step s (es ++ es') u := by
  induction h' with
  | nil => simpa using h
  | snoc _ hstep ih =>
      rw [← List.append_assoc]
      exact ih.snoc hstep

theorem snoc_inv (h : Run Step s (es ++ [e]) u) : ∃ t, Run Step s es t ∧ Step t e u := by
  generalize hes : es ++ [e] = es' at h
  cases h with
  | nil => simp at hes
  | snoc hrun hstep =>
      obtain ⟨rfl, he⟩ := List.append_inj' hes rfl
      obtain rfl := List.singleton_inj.mp he
      exact ⟨_, hrun, hstep⟩

/-- **A run can be cut anywhere.** -/
theorem append_inv (h : Run Step s (es ++ es') u) : ∃ t, Run Step s es t ∧ Run Step t es' u := by
  induction es' using List.reverseRecOn generalizing u with
  | nil => exact ⟨u, by simpa using h, .nil⟩
  | append_singleton es' e ih =>
      rw [← List.append_assoc] at h
      obtain ⟨v, hrun, hstep⟩ := snoc_inv h
      obtain ⟨t, hfst, hsnd⟩ := ih hrun
      exact ⟨t, hfst, hsnd.snoc hstep⟩

/-- The step in the middle of a run. -/
theorem middle {pre post : List ε} (h : Run Step s (pre ++ e :: post) u) :
    ∃ t t', Run Step s pre t ∧ Step t e t' ∧ Run Step t' post u := by
  rw [show pre ++ e :: post = (pre ++ [e]) ++ post by simp] at h
  obtain ⟨t', hpre, hpost⟩ := append_inv h
  obtain ⟨t, hrun, hstep⟩ := snoc_inv hpre
  exact ⟨t, t', hrun, hstep, hpost⟩

/-- **What every step preserves, a run preserves.** -/
theorem invariant {P : σ → Prop} (hstep : ∀ s e t, P s → Step s e t → P t) (h : Run Step s es t)
    (hs : P s) : P t := by
  induction h with
  | nil => exact hs
  | snoc _ hst ih => exact hstep _ _ _ ih hst

section Once

variable {P : σ → Prop} {B : ε → Prop} (hstep : ∀ s e t, P s → Step s e t → P t)
include hstep

/-- **A step that cannot be taken in `P`** is not taken again once `P` is reached. -/
theorem absent_after (hnot : ∀ s e t, B e → Step s e t → ¬ P s) (h : Run Step s es t) (hs : P s) :
    ∀ e ∈ es, ¬ B e := by
  intro e he hb
  obtain ⟨pre, post, rfl⟩ := List.append_of_mem he
  obtain ⟨u, v, hpre, hmid, -⟩ := h.middle
  exact hnot u e v hb hmid (hpre.invariant hstep hs)

/-- **A step that leads into `P`** has not been taken as long as `P` is not reached. -/
theorem absent_before (hinto : ∀ s e t, B e → Step s e t → P t) (h : Run Step s es t) (ht : ¬ P t) :
    ∀ e ∈ es, ¬ B e := by
  intro e he hb
  obtain ⟨pre, post, rfl⟩ := List.append_of_mem he
  obtain ⟨u, v, -, hmid, hpost⟩ := h.middle
  exact ht (hpost.invariant hstep (hinto u e v hb hmid))

end Once

/-- **Simulation.** -/
theorem map {Step' : τ → ε → τ → Prop} (f : σ → τ)
    (hsim : ∀ s e t, Step s e t → Step' (f s) e (f t)) (h : Run Step s es t) :
    Run Step' (f s) es (f t) := by
  induction h with
  | nil => exact .nil
  | snoc _ hst ih => exact ih.snoc (hsim _ _ _ hst)

end Run

end Lib
