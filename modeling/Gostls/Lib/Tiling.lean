import Gostls.Lib.Program
import Mathlib.Data.List.Basic

/-!
# `Lib.Tiling` — strings that are sequences of encoded entries

A wire format has lists without a count: entries stand one behind the other until the bytes are used up,
and a parser takes them off the front in a loop. Here an entry is written by `enc`, and `good` are the
entries that are written without loss.

* `loop_ok_iff` — such a loop accepts exactly the sequences of good entries, with the state that taking
  them one after the other leads to;
* `flatMap_enc_inj` — when an entry is determined by the string it stands in front of, the sequence is
  determined by the whole.
-/

namespace Lib

variable {α β σ ε : Type} {enc : α → List β} {good : α → Prop}

/-! ## Sequences -/

theorem length_enc_le {a : α} {as : List α} (ha : a ∈ as) :
    (enc a).length ≤ (as.flatMap enc).length := by
  obtain ⟨before, after, rfl⟩ := List.append_of_mem ha
  rw [List.flatMap_append, List.flatMap_cons, List.length_append, List.length_append]
  omega

theorem flatMap_enc_ne_nil (hpos : ∀ a, enc a ≠ []) (a : α) (as : List α) :
    (a :: as).flatMap enc ≠ [] := by
  intro hnil
  rw [List.flatMap_cons] at hnil
  exact hpos a (List.append_eq_nil_iff.mp hnil).1

/-- **A string is one sequence of entries at most.** -/
theorem flatMap_enc_inj
    (hinj : ∀ a b x y, good a → good b → enc a ++ x = enc b ++ y → a = b ∧ x = y)
    (hpos : ∀ a, enc a ≠ []) {as bs : List α} (has : ∀ a ∈ as, good a) (hbs : ∀ b ∈ bs, good b)
    (h : as.flatMap enc = bs.flatMap enc) : as = bs := by
  induction as generalizing bs with
  | nil =>
      cases bs with
      | nil => rfl
      | cons b bs => exact absurd h.symm (flatMap_enc_ne_nil hpos b bs)
  | cons a as ih =>
      cases bs with
      | nil => exact absurd h (flatMap_enc_ne_nil hpos a as)
      | cons b bs =>
          obtain ⟨ha, has'⟩ := List.forall_mem_cons.mp has
          obtain ⟨hb, hbs'⟩ := List.forall_mem_cons.mp hbs
          rw [List.flatMap_cons, List.flatMap_cons] at h
          obtain ⟨rfl, hrest⟩ := hinj a b _ _ ha hb h
          rw [ih has' hbs' hrest]

/-! ## Loops -/

/-- Collecting the entries. -/
theorem foldlM_snoc (as collected : List α) :
    as.foldlM (fun l a => (.ok (l ++ [a]) : Except ε (List α))) collected = .ok (collected ++ as) := by
  induction as generalizing collected with
  | nil => rw [List.append_nil]; rfl
  | cons a as ih =>
      rw [List.foldlM_cons, ok_bind, ih, List.append_assoc]
      rfl

section Loop

variable {loop : Nat → List β → σ → Except ε σ} {step : σ → α → Except ε σ}
  (hnil : ∀ rounds s, loop rounds [] s = .ok s)
  (hcons : ∀ rounds b s s', b ≠ [] → (loop (rounds + 1) b s = .ok s' ↔
    ∃ a rest s₁, good a ∧ b = enc a ++ rest ∧ step s a = .ok s₁ ∧ loop rounds rest s₁ = .ok s'))
  (hpos : ∀ a, enc a ≠ [])
include hnil hcons hpos

/-- **What a loop accepts** that takes entries off the front until nothing is left. It has rounds enough
    when there are as many as bytes, for every entry has one. -/
theorem loop_ok_iff {rounds : Nat} {b : List β} {s s' : σ} (hrounds : b.length ≤ rounds) :
    loop rounds b s = .ok s' ↔
      ∃ as : List α, (∀ a ∈ as, good a) ∧ b = as.flatMap enc ∧ as.foldlM step s = .ok s' := by
  have hlen : ∀ a, 1 ≤ (enc a).length := fun a => List.length_pos_iff.mpr (hpos a)
  constructor
  · intro h
    induction rounds generalizing b s with
    | zero =>
        obtain rfl := List.length_eq_zero_iff.mp (Nat.le_zero.mp hrounds)
        cases (hnil _ s).symm.trans h
        exact ⟨[], by simp, rfl, rfl⟩
    | succ rounds ih =>
        by_cases hne : b = []
        · subst hne
          cases (hnil _ s).symm.trans h
          exact ⟨[], by simp, rfl, rfl⟩
        · obtain ⟨a, rest, s₁, ha, rfl, hstep, hloop⟩ := (hcons rounds b s s' hne).mp h
          have hrest : rest.length ≤ rounds := by
            have := hlen a
            rw [List.length_append] at hrounds
            omega
          obtain ⟨as, has, rfl, hfold⟩ := ih hrest hloop
          refine ⟨a :: as, List.forall_mem_cons.mpr ⟨ha, has⟩, rfl, ?_⟩
          rw [List.foldlM_cons]
          exact bind_eq_ok.mpr ⟨s₁, hstep, hfold⟩
  · rintro ⟨as, has, rfl, hfold⟩
    induction as generalizing rounds s with
    | nil => exact (hnil rounds s).trans hfold
    | cons a as ih =>
        obtain ⟨ha, has'⟩ := List.forall_mem_cons.mp has
        rw [List.foldlM_cons] at hfold
        obtain ⟨s₁, hstep, hrest⟩ := bind_eq_ok.mp hfold
        have hne := flatMap_enc_ne_nil hpos a as
        have := hlen a
        rw [List.flatMap_cons] at hrounds hne ⊢
        rw [List.length_append] at hrounds
        obtain ⟨rounds, rfl⟩ : ∃ r, rounds = r + 1 := ⟨rounds - 1, by omega⟩
        exact (hcons rounds _ s s' hne).mpr ⟨a, _, s₁, ha, rfl, hstep, ih has' hrest (by omega)⟩

end Loop

end Lib
