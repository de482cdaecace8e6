import Mathlib.Tactic.Common

/-!
# `Lib.Program` — sequencing rules for the monads programs are written in

Two monads: `Except`, for programs that only compute, and `EStateM`, for programs that also change a
state. An `EStateM` program that fails keeps the state it failed in.

* `bind_eq_ok`, `Throws` — what it means for an `Except` program to succeed, and what it can throw;
* `wp m Q E s` — run from `s`, the program `m` ends in `Q` if it returns and in `E` if it throws. The
  rules `wp_bind`, `wp_get`, … take a `do` block apart from the front; `wp_call` plugs in the
  specification of a called function;
* `wp m Q Never s` — run from `s`, the program `m` returns, and ends in `Q`;
* `Does R E m` — wherever it is run, `m` keeps to a `Conduct`: a relation for what a program does that
  returns, and one for what it does that fails.
-/

namespace Lib

variable {ε α β : Type}

/-! ## `Except` -/

@[simp] theorem ok_bind (a : α) (f : α → Except ε β) : (Except.ok a >>= f) = f a := rfl
@[simp] theorem error_bind (e : ε) (f : α → Except ε β) : (Except.error e >>= f) = .error e := rfl
@[simp] theorem throw_eq (e : ε) : (throw e : Except ε α) = .error e := rfl
@[simp] theorem pure_eq (a : α) : (pure a : Except ε α) = .ok a := rfl

/-- **A sequence succeeds** iff both of its steps do. -/
theorem bind_eq_ok {x : Except ε α} {f : α → Except ε β} {b : β} :
    (x >>= f) = .ok b ↔ ∃ a, x = .ok a ∧ f a = .ok b := by
  cases x with
  | error e => simp
  | ok a => simp

/-- **A sequence of calls succeeds** iff each of them does. -/
theorem mapM_eq_ok {f : α → Except ε β} {l : List α} {r : List β} :
    l.mapM f = .ok r ↔ List.Forall₂ (fun a b => f a = .ok b) l r := by
  induction l generalizing r with
  | nil =>
      constructor
      · intro h
        cases h
        exact .nil
      · rintro ⟨⟩
        rfl
  | cons a l ih =>
      rw [List.mapM_cons]
      constructor
      · intro h
        obtain ⟨b, hb, h'⟩ := bind_eq_ok.mp h
        obtain ⟨bs, hbs, hr⟩ := bind_eq_ok.mp h'
        cases hr
        exact .cons hb (ih.mp hbs)
      · rintro (_ | ⟨hb, hbs⟩)
        rw [hb, ok_bind, ih.mpr hbs]
        rfl

/-! ## What a program can throw -/

/-- Every error of `x` satisfies `P`. -/
def Throws (P : ε → Prop) (x : Except ε α) : Prop := ∀ e, x = .error e → P e

theorem Throws.ok {P : ε → Prop} (a : α) : Throws P (.ok a) := fun _ h => nomatch h

theorem Throws.error {P : ε → Prop} {e : ε} (h : P e) : Throws P (.error e : Except ε α) := by
  intro e' he
  cases he
  exact h

theorem Throws.bind {P : ε → Prop} {x : Except ε α} {f : α → Except ε β} (hx : Throws P x)
    (hf : ∀ a, Throws P (f a)) : Throws P (x >>= f) := by
  cases x with
  | error e =>
      intro e' he
      cases he
      exact hx _ rfl
  | ok a => exact hf a

theorem Throws.ite {P : ε → Prop} {c : Prop} [Decidable c] {x y : Except ε α} (hx : Throws P x)
    (hy : Throws P y) : Throws P (if c then x else y) := by
  split
  · exact hx
  · exact hy

theorem Throws.foldlM {γ : Type} {P : ε → Prop} {f : β → γ → Except ε β}
    (hf : ∀ b a, Throws P (f b a)) (l : List γ) (b : β) : Throws P (l.foldlM f b) := by
  induction l generalizing b with
  | nil => exact .ok b
  | cons a l ih => exact (hf b a).bind ih

/-! ## Programs with state -/

section Wp

variable {σ : Type}

/-- A step that only computes. -/
def compute (x : Except ε α) : EStateM ε σ α := fun s =>
  match x with
  | .ok a    => .ok a s
  | .error e => .error e s

instance liftExcept : MonadLift (Except ε) (EStateM ε σ) := ⟨compute⟩

@[simp] theorem liftM_eq (x : Except ε α) : (liftM x : EStateM ε σ α) = compute x := rfl

@[simp] theorem compute_ok (a : α) : (compute (.ok a) : EStateM ε σ α) = pure a := rfl

/-- Run from `s`, `m` returns a value and state in `Q`, or throws an error in a state in `E`. -/
def wp (m : EStateM ε σ α) (Q : α → σ → Prop) (E : ε → σ → Prop) (s : σ) : Prop :=
  match m s with
  | .ok a s'    => Q a s'
  | .error e s' => E e s'

variable {m : EStateM ε σ α} {Q Q' : α → σ → Prop} {E E' : ε → σ → Prop} {s s' : σ}

theorem wp_of_ok {a : α} (h : m s = .ok a s') (hq : Q a s') : wp m Q E s := by
  unfold wp
  rw [h]
  exact hq

theorem wp_of_error {e : ε} (h : m s = .error e s') (he : E e s') : wp m Q E s := by
  unfold wp
  rw [h]
  exact he

theorem wp.ok {a : α} (h : wp m Q E s) (hm : m s = .ok a s') : Q a s' := by
  unfold wp at h
  rw [hm] at h
  exact h

theorem wp.error {e : ε} (h : wp m Q E s) (hm : m s = .error e s') : E e s' := by
  unfold wp at h
  rw [hm] at h
  exact h

/-- **Consequence.** -/
theorem wp.mono (h : wp m Q E s) (hq : ∀ a s', Q a s' → Q' a s') (he : ∀ e s', E e s' → E' e s') :
    wp m Q' E' s := by
  unfold wp at h ⊢
  split
  · rename_i a s' hm
    rw [hm] at h
    exact hq a s' h
  · rename_i e s' hm
    rw [hm] at h
    exact he e s' h

/-- What two specifications say, both say. -/
theorem wp.and (h : wp m Q E s) (h' : wp m Q' E' s) :
    wp m (fun a s' => Q a s' ∧ Q' a s') (fun e s' => E e s' ∧ E' e s') s := by
  unfold wp at *
  cases hm : m s with
  | ok a s' =>
      rw [hm] at h h'
      exact ⟨h, h'⟩
  | error e s' =>
      rw [hm] at h h'
      exact ⟨h, h'⟩

/-- The same, of a program that returns. -/
theorem wp.both (h : wp m Q E s) (h' : wp m Q' (fun _ _ => True) s) :
    wp m (fun a s' => Q a s' ∧ Q' a s') (fun _ _ => True) s :=
  (h.and h').mono (fun _ _ hq => hq) (fun _ _ _ => trivial)

theorem wp.imp (h : wp m Q E s) (hq : ∀ a s', Q a s' → Q' a s') : wp m Q' E s :=
  h.mono hq (fun _ _ he => he)

/-- The state a program ends in, whichever way. -/
def endState (m : EStateM ε σ α) (s : σ) : σ :=
  match m s with
  | .ok _ s'    => s'
  | .error _ s' => s'

theorem endState_ok {a : α} (h : m s = .ok a s') : endState m s = s' := by
  unfold endState
  rw [h]

theorem endState_error {e : ε} (h : m s = .error e s') : endState m s = s' := by
  unfold endState
  rw [h]

theorem endState_congr {m' : EStateM ε σ α} (h : m s = m' s') : endState m s = endState m' s' := by
  unfold endState
  rw [h]

/-- Whether a program returns. -/
def returns (m : EStateM ε σ α) (s : σ) : Bool :=
  match m s with
  | .ok _ _    => true
  | .error _ _ => false

theorem of_returns (h : returns m s = true) : ∃ a s', m s = .ok a s' := by
  unfold returns at h
  cases hm : m s with
  | ok a s' => exact ⟨a, s', rfl⟩
  | error e s' =>
      rw [hm] at h
      cases h

/-- What holds however a program ends. -/
theorem wp.endState {P : σ → Prop} (h : wp m Q E s) (hq : ∀ a s', Q a s' → P s')
    (he : ∀ e s', E e s' → P s') : P (endState m s) := by
  unfold wp at h
  unfold Lib.endState
  split
  · rename_i a s' hm
    rw [hm] at h
    exact hq a s' h
  · rename_i e s' hm
    rw [hm] at h
    exact he e s' h

/-- What holds where a program ends holds either way. -/
theorem wp_of_endState {P : σ → Prop} (h : P (Lib.endState m s)) : wp m (fun _ => P) (fun _ => P) s := by
  unfold wp
  unfold Lib.endState at h
  cases hm : m s with
  | ok a s' =>
      rw [hm] at h
      exact h
  | error e s' =>
      rw [hm] at h
      exact h

/-- **Sequencing.** -/
theorem wp_bind {f : α → EStateM ε σ β} {R : β → σ → Prop} :
    wp (m >>= f) R E s ↔ wp m (fun a => wp (f a) R E) E s := by
  simp only [wp, bind, EStateM.bind]
  cases m s <;> rfl

/-- **Calling.** The spec of the first program is what the second may count on; its failures are those
    of the whole. -/
theorem wp_call {f : α → EStateM ε σ β} {R : β → σ → Prop} (h : wp m Q E s)
    (hf : ∀ a s', Q a s' → wp (f a) R E s') : wp (m >>= f) R E s :=
  wp_bind.mpr (h.imp hf)

theorem bind_of_ok {f : α → EStateM ε σ β} {a : α} (h : m s = .ok a s') : (m >>= f) s = f a s' := by
  simp only [bind, EStateM.bind, h]

/-- **A sequence returns** iff both of its programs do. -/
theorem bind_returns {f : α → EStateM ε σ β} {b : β} :
    (m >>= f) s = .ok b s' ↔ ∃ a t, m s = .ok a t ∧ f a t = .ok b s' := by
  simp only [bind, EStateM.bind]
  cases m s with
  | ok a t => simp
  | error e t => simp

/-- A computation that draws on no state returns what it computes. -/
theorem liftM_returns {x : Except ε α} {a : α} :
    (liftM x : EStateM ε σ α) s = .ok a s' ↔ x = .ok a ∧ s' = s := by
  rw [liftM_eq]
  unfold compute
  cases x with
  | ok b =>
      constructor
      · intro h
        cases h
        exact ⟨rfl, rfl⟩
      · rintro ⟨⟨⟩, rfl⟩
        rfl
  | error e => simp

theorem liftM_bind_returns {x : Except ε α} {f : α → EStateM ε σ β} {b : β} :
    (liftM x >>= f) s = .ok b s' ↔ ∃ a, x = .ok a ∧ f a s = .ok b s' := by
  rw [bind_returns]
  constructor
  · rintro ⟨a, t, hrun, hf⟩
    obtain ⟨hx, rfl⟩ := liftM_returns.mp hrun
    exact ⟨a, hx, hf⟩
  · rintro ⟨a, hx, hf⟩
    exact ⟨a, s, liftM_returns.mpr ⟨hx, rfl⟩, hf⟩

theorem wp_compute {x : Except ε α} (hok : ∀ a, x = .ok a → Q a s)
    (herr : ∀ e, x = .error e → E e s) : wp (compute x) Q E s := by
  cases x with
  | ok a => exact hok a rfl
  | error e => exact herr e rfl

/-- No failure is allowed: with it a `wp` says that the program returns. -/
def Never : ε → σ → Prop := fun _ _ => False

theorem wp.returns (h : wp m Q Never s) : ∃ a s', m s = .ok a s' ∧ Q a s' := by
  cases hm : m s with
  | ok a s' => exact ⟨a, s', rfl, h.ok hm⟩
  | error e s' => exact (h.error hm).elim

/-- A computation that succeeds. -/
theorem wp_computed {x : Except ε α} {a : α} (hx : x = .ok a) (hq : Q a s) : wp (compute x) Q E s := by
  rw [hx]
  exact hq

theorem wp_get {R : σ → σ → Prop} : wp (get : EStateM ε σ σ) R E s ↔ R s s := Iff.rfl

theorem wp_modify {f : σ → σ} {R : PUnit → σ → Prop} :
    wp (modify f : EStateM ε σ PUnit) R E s ↔ R ⟨⟩ (f s) := Iff.rfl

theorem wp_ite {c : Prop} [Decidable c] {m' : EStateM ε σ α} (ht : c → wp m Q E s)
    (hf : ¬c → wp m' Q E s) : wp (if c then m else m') Q E s := by
  split
  · rename_i h
    exact ht h
  · rename_i h
    exact hf h

end Wp

/-! ## Conduct -/

section Does

variable {σ : Type}

/-- What programs can be held to: `R` relates the states before and after one that returns, and `E` those
    of one that throws. Doing nothing is within `R`, and a program may follow another. -/
structure Conduct (R : σ → σ → Prop) (E : ε → σ → σ → Prop) : Prop where
  refl : ∀ s, R s s
  trans : ∀ {s t u}, R s t → R t u → R s u
  fail : ∀ {s t u e}, R s t → E e t u → E e s u

/-- Wherever it is run, `m` changes the state within `R` if it returns and within `E` if it throws. -/
def Does (R : σ → σ → Prop) (E : ε → σ → σ → Prop) (m : EStateM ε σ α) : Prop :=
  ∀ s, wp m (fun _ => R s) (fun e => E e s) s

variable {R : σ → σ → Prop} {E : ε → σ → σ → Prop} {m m' : EStateM ε σ α}

namespace Conduct

variable (hc : Conduct R E)
include hc

/-- A program that goes on from where another has led. -/
theorem after {s t : σ} (hst : R s t) (h : wp m (fun _ => R t) (fun e => E e t) t) :
    wp m (fun _ => R s) (fun e => E e s) t :=
  h.mono (fun _ _ htu => hc.trans hst htu) (fun _ _ htu => hc.fail hst htu)

theorem pure (a : α) : Does R E (pure a : EStateM ε σ α) := fun s => hc.refl s

theorem compute {x : Except ε α} (h : Throws (fun e => ∀ s, E e s s) x) :
    Does R E (compute x : EStateM ε σ α) :=
  fun s => wp_compute (fun _ _ => hc.refl s) (fun e he => h e he s)

/-- **Sequencing.** -/
theorem bind {f : α → EStateM ε σ β} (hm : Does R E m) (hf : ∀ a, Does R E (f a)) :
    Does R E (m >>= f) := by
  intro s
  apply wp_call (hm s)
  intro a t hst
  exact hc.after hst (hf a t)

theorem get {f : σ → EStateM ε σ β} (hf : ∀ s, Does R E (f s)) : Does R E (get >>= f) :=
  hc.bind (fun s => hc.refl s) hf

end Conduct

theorem Does.ite {c : Prop} [Decidable c] (hm : Does R E m) (hm' : Does R E m') :
    Does R E (if c then m else m') :=
  fun s => wp_ite (fun _ => hm s) (fun _ => hm' s)

end Does

end Lib
