import Gostls.Lib.Program

/-!
# `Lib.Blind` — programs that do not notice a change of the state

`Blind f m Q E s`: run from `f s` instead of `s`, the program `m` does the same, and leaves `f` of the
state it would have left. That is a statement about two runs; the rules are those of `wp`, with which it
is proved in step, so that what is known of the first run can decide how the second goes on.

`Ignores f I m`: the same of every state with an invariant `I`, which `m` keeps.
-/

namespace Lib

variable {ε σ α β : Type}

/-- Change the state a program has ended in. -/
def onState (f : σ → σ) : EStateM.Result ε σ α → EStateM.Result ε σ α
  | .ok a s    => .ok a (f s)
  | .error e s => .error e (f s)

/-- From `s`, the program does not notice `f`; and `wp m Q E s`. -/
structure Blind (f : σ → σ) (m : EStateM ε σ α) (Q : α → σ → Prop) (E : ε → σ → Prop) (s : σ) : Prop where
  same : m (f s) = onState f (m s)
  spec : wp m Q E s

namespace Blind

variable {f : σ → σ} {m m' : EStateM ε σ α} {Q Q' : α → σ → Prop} {E E' : ε → σ → Prop} {s : σ}

theorem mono (h : Blind f m Q E s) (hq : ∀ a t, Q a t → Q' a t) (he : ∀ e t, E e t → E' e t) :
    Blind f m Q' E' s :=
  ⟨h.same, h.spec.mono hq he⟩

theorem pure {a : α} (hq : Q a s) : Blind f (pure a) Q E s := ⟨rfl, hq⟩

theorem throw {e : ε} (he : E e s) : Blind f (throw e : EStateM ε σ α) Q E s := ⟨rfl, he⟩

theorem compute {x : Except ε α} (hok : ∀ a, x = .ok a → Q a s) (herr : ∀ e, x = .error e → E e s) :
    Blind f (compute x) Q E s := by
  refine ⟨?_, wp_compute hok herr⟩
  cases x with
  | ok a => rfl
  | error e => rfl

theorem modify {g : σ → σ} {Q : PUnit → σ → Prop} (hg : g (f s) = f (g s)) (hq : Q ⟨⟩ (g s)) :
    Blind f (modify g : EStateM ε σ PUnit) Q E s :=
  ⟨congrArg (EStateM.Result.ok PUnit.unit) hg, hq⟩

/-- **Sequencing.** The second program starts where the first has led. -/
theorem call {k : α → EStateM ε σ β} {R : β → σ → Prop} (h : Blind f m Q E s)
    (hk : ∀ a t, Q a t → Blind f (k a) R E t) : Blind f (m >>= k) R E s := by
  constructor
  · show EStateM.bind m k (f s) = onState f (EStateM.bind m k s)
    unfold EStateM.bind
    rw [h.same]
    cases hm : m s with
    | ok a t => exact (hk a t (h.spec.ok hm)).same
    | error e t => rfl
  · exact wp_call h.spec (fun a t hq => (hk a t hq).spec)

/-- What is read of the state must not be what is changed. -/
theorem get {k : σ → EStateM ε σ β} {R : β → σ → Prop} (hk : k (f s) = k s) (h : Blind f (k s) R E s) :
    Blind f (get >>= k) R E s := by
  refine ⟨?_, h.spec⟩
  show k (f s) (f s) = onState f (k s s)
  rw [hk]
  exact h.same

theorem ite {c : Prop} [Decidable c] (ht : c → Blind f m Q E s) (hf : ¬ c → Blind f m' Q E s) :
    Blind f (if c then m else m') Q E s := by
  split
  · rename_i hc
    exact ht hc
  · rename_i hc
    exact hf hc

/-- **Both runs end alike.** -/
theorem endState_eq (h : Blind f m Q E s) : endState m (f s) = f (endState m s) := by
  unfold endState
  rw [h.same]
  cases m s with
  | ok a t => rfl
  | error e t => rfl

end Blind

/-! ## Wherever the invariant holds -/

/-- Where `I` holds the program does not notice `f`, and `I` holds again when it has ended. -/
def Ignores (f : σ → σ) (I : σ → Prop) (m : EStateM ε σ α) : Prop :=
  ∀ s, I s → Blind f m (fun _ => I) (fun _ => I) s

namespace Ignores

variable {f : σ → σ} {I : σ → Prop} {m m' : EStateM ε σ α}

theorem pure (a : α) : Ignores f I (pure a : EStateM ε σ α) := fun _ hs => .pure hs

theorem throw (e : ε) : Ignores f I (throw e : EStateM ε σ α) := fun _ hs => .throw hs

theorem compute (x : Except ε α) : Ignores f I (compute x : EStateM ε σ α) :=
  fun _ hs => .compute (fun _ _ => hs) (fun _ _ => hs)

theorem modify {g : σ → σ} (hg : ∀ s, g (f s) = f (g s)) (hI : ∀ s, I s → I (g s)) :
    Ignores f I (modify g : EStateM ε σ PUnit) :=
  fun s hs => .modify (hg s) (hI s hs)

theorem bind {k : α → EStateM ε σ β} (h : Ignores f I m) (hk : ∀ a, Ignores f I (k a)) :
    Ignores f I (m >>= k) :=
  fun s hs => (h s hs).call (fun a t ht => hk a t ht)

theorem get {k : σ → EStateM ε σ β} (hf : ∀ s, k (f s) = k s) (hk : ∀ s, Ignores f I (k s)) :
    Ignores f I (get >>= k) :=
  fun s hs => .get (hf s) (hk s s hs)

theorem forM {γ : Type} {g : γ → EStateM ε σ PUnit} (h : ∀ c, Ignores f I (g c)) (l : List γ) :
    Ignores f I (l.forM g) := by
  induction l with
  | nil => exact .pure _
  | cons c l ih => exact .bind (h c) fun _ => ih

theorem ite {c : Prop} [Decidable c] (h : Ignores f I m) (h' : Ignores f I m') :
    Ignores f I (if c then m else m') :=
  fun s hs => .ite (fun _ => h s hs) (fun _ => h' s hs)

end Ignores

end Lib
