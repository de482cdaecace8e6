import Mathlib.Tactic.Common

/-!
# `Lib.Part` — operations that work on a part of a state

A `Part` of a state can be read and replaced. An operation is *local* to it if it behaves the same in
every state with the same part, and changes nothing else: one equation says both (`Part.Local`). Two
consequences are used: `Local.frame`, that the rest stays, and `Local.congr`, that the rest does not
matter. A part that is independent of another keeps its value under operations local to the other one
(`Local.get_other`).
-/

namespace Lib

variable {σ ρ κ α : Type}

/-- A part of a state. -/
structure Part (σ ρ : Type) where
  get : σ → ρ
  set : σ → ρ → σ
  get_set : ∀ s r, get (set s r) = r
  set_get : ∀ s, set s (get s) = s
  set_set : ∀ s r r', set (set s r) r' = set s r'

namespace Part

variable {p : Part σ ρ} {q : Part σ κ} {m : σ → α × σ} {s s' : σ}

/-- Run in another state with the same part, `m` has the same result and does the same to the part. -/
def Local (p : Part σ ρ) (m : σ → α × σ) : Prop :=
  ∀ s s', m (p.set s' (p.get s)) = ((m s).1, p.set s' (p.get (m s).2))

/-- Replacing one part leaves the other alone. -/
def Independent (p : Part σ ρ) (q : Part σ κ) : Prop := ∀ s r, q.get (p.set s r) = q.get s

/-- **What is not in the part stays.** -/
theorem Local.frame (hm : p.Local m) (s : σ) : (m s).2 = p.set s (p.get (m s).2) := by
  have h := hm s s
  rw [p.set_get] at h
  exact congrArg Prod.snd h

/-- **What is not in the part does not matter.** -/
theorem Local.congr (hm : p.Local m) (h : p.get s = p.get s') :
    (m s').1 = (m s).1 ∧ p.get (m s').2 = p.get (m s).2 := by
  have hrun := hm s s'
  rw [h, p.set_get] at hrun
  rw [hrun]
  exact ⟨rfl, p.get_set _ _⟩

theorem Local.get_other (hm : p.Local m) (hpq : p.Independent q) (s : σ) :
    q.get (m s).2 = q.get s := by
  rw [hm.frame s]
  exact hpq s _

end Part

end Lib
