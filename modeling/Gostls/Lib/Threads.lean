import Gostls.Lib.Trace
import Mathlib.Logic.Function.Basic

/-!
# `Lib.Threads` — threads over a shared state

Any number of threads, each with a local state, take turns on a state that they share. What one thread
can do is a relation; `Threads.Step` is the interleaving.

* `Threads.Asserts.run` — the non-interference rule: an assertion per thread holds in every reachable
  state if the steps of the thread itself establish it and those of the others do not destroy it;
* `Threads.owned_run` — the holder of a lock is a thread at a point where it holds it;
* `Threads.linearizes` — the rule for linearizability. The threads serve calls, and an object is given
  by what its actions do when they are taken one at a time. A `Script` says by which actions a call is
  answered, and which may come before and behind. If every call can be given moments for its actions,
  such that the outcome of the action that answers it is what the call returns, then the history of any
  run is one of the object: `Linearized`.
-/

namespace Lib

/-- Threads `T` with local states `L` over a shared state `S`. -/
structure Threads (T L S : Type) where
  pc : T → L
  shared : S

namespace Threads

variable {T L S E : Type} [DecidableEq T] {step : T → L → S → E → L → S → Prop}
  {G : S → Prop} {I : T → L → S → Prop} {σ σ' : Threads T L S}

/-- One of the threads takes a step. -/
inductive Step (step : T → L → S → E → L → S → Prop) :
    Threads T L S → T × E → Threads T L S → Prop
  | of {σ : Threads T L S} {t : T} {e : E} {l : L} {s : S} (h : step t (σ.pc t) σ.shared e l s) :
      Step step σ (t, e) ⟨Function.update σ.pc t l, s⟩

/-! ## Assertions -/

/-- `G` holds of the shared state and `I` of every thread. -/
structure Asserts (G : S → Prop) (I : T → L → S → Prop) (σ : Threads T L S) : Prop where
  shared : G σ.shared
  threads : ∀ t, I t (σ.pc t) σ.shared

/-- What is asserted of the thread that moves and of the others is asserted of all. -/
theorem forall_update {P : T → L → Prop} {pc : T → L} {t : T} {l : L} (hown : P t l)
    (hothers : ∀ u, u ≠ t → P u (pc u)) (u : T) : P u (Function.update pc t l u) := by
  by_cases hu : u = t
  · subst hu
    rwa [Function.update_self]
  · rw [Function.update_of_ne hu]
    exact hothers u hu

/-- **Non-interference**: assertions that survive the steps of their own thread and those of any other
    hold in every run. -/
theorem Asserts.run
    (hown : ∀ t l s e l' s', G s → I t l s → step t l s e l' s' → G s' ∧ I t l' s')
    (hothers : ∀ t u l m s e l' s', u ≠ t → G s → I t l s → I u m s → step t l s e l' s' → I u m s')
    {es : List (T × E)} (hrun : Run (Step step) σ es σ') (h : Asserts G I σ) : Asserts G I σ' := by
  refine hrun.invariant ?_ h
  rintro σ _ _ ⟨hG, hI⟩ (hstep : Step step σ _ _)
  cases hstep with
  | @of t e l s hstep =>
      obtain ⟨hG', hI'⟩ := hown _ _ _ _ _ _ hG (hI t) hstep
      refine ⟨hG', forall_update (P := fun u m => I u m s) hI' fun u hu => ?_⟩
      exact hothers t u _ _ _ _ _ _ hu hG (hI t) (hI u) hstep

/-- **Owners**: whoever is said to hold something is at a point where it is held, if every step that
    changes the owner is a step of the new one, or leaves none. -/
theorem owned_run (owner : S → Option T) (holds : L → Prop)
    (hstep : ∀ t l s e l' s', step t l s e l' s' →
      owner s' = owner s ∧ (holds l → holds l') ∨ owner s' = some t ∧ holds l' ∨ owner s' = none)
    {es : List (T × E)} (hrun : Run (Step step) σ es σ')
    (h : ∀ t, owner σ.shared = some t → holds (σ.pc t)) :
    ∀ t, owner σ'.shared = some t → holds (σ'.pc t) := by
  refine hrun.invariant (P := fun σ => ∀ t, owner σ.shared = some t → holds (σ.pc t)) ?_ h
  rintro σ _ _ hσ hlast u (hu : owner _ = some u)
  cases hlast with
  | @of t e l s hlast =>
      revert u
      refine forall_update (P := fun u l => owner s = some u → holds l) ?_ ?_
      · intro ht
        rcases hstep _ _ _ _ _ _ hlast with ⟨hsame, hkeep⟩ | ⟨-, hl⟩ | hnone
        · exact hkeep (hσ t (hsame.symm.trans ht))
        · exact hl
        · exact nomatch hnone.symm.trans ht
      · intro u hu ht
        rcases hstep _ _ _ _ _ _ hlast with ⟨hsame, -⟩ | ⟨hself, -⟩ | hnone
        · exact hσ u (hsame.symm.trans ht)
        · exact absurd (Option.some.inj (ht.symm.trans hself)) hu
        · exact nomatch hnone.symm.trans ht

end Threads

/-! ## Linearizability -/

/-- What can be seen of a call from outside. -/
inductive CallEvent (C O : Type)
  | invoke (c : C)
  | ret (o : O)

/-- The events of a history, and between them the moments at which actions are taken. -/
inductive Mark (C A O : Type)
  | invoke (c : C)
  | commit (a : A) (o : O)
  | ret (o : O)

/-- The actions of a call: the one that answers it, perhaps one that prepares it, and perhaps one that
    follows the answer. -/
structure Script (C A : Type) where
  before : C → A → Prop
  answers : C → A → Prop
  after : A → A → Prop

/-- Where a thread is in a call: outside of any, before or after the action that answers it. -/
inductive Phase (C A O : Type)
  | outside
  | pending (c : C) (prepared : Bool)
  | answered (a : A) (o : O) (followed : Bool)

section

variable {T C A O X : Type}

def Mark.visible : Mark C A O → Option (CallEvent C O)
  | .invoke c   => some (.invoke c)
  | .commit _ _ => none
  | .ret o      => some (.ret o)

/-- The call that is still to be answered. -/
def Phase.call : Phase C A O → Option C
  | .pending c _ => some c
  | _            => none

/-- The outcome that a call is to return. -/
def Phase.outcome : Phase C A O → Option O
  | .answered _ o _ => some o
  | _               => none

/-- A call is answered by one action, between its invocation and its return, and returns the outcome of
    that action. It may take one action before that one and one behind it, if the script says so. -/
inductive Phase.Step (script : Script C A) : Phase C A O → Mark C A O → Phase C A O → Prop
  | invoke {c : C} : Step script .outside (.invoke c) (.pending c false)
  | before {c : C} {a : A} {o : O} (h : script.before c a) :
      Step script (.pending c false) (.commit a o) (.pending c true)
  | answer {c : C} {prepared : Bool} {a : A} {o : O} (h : script.answers c a) :
      Step script (.pending c prepared) (.commit a o) (.answered a o false)
  | after {a b : A} {o o' : O} (h : script.after a b) :
      Step script (.answered a o false) (.commit b o') (.answered a o true)
  | ret {a : A} {o : O} {followed : Bool} : Step script (.answered a o followed) (.ret o) .outside

theorem Phase.Step.of_call {script : Script C A} {ph : Phase C A O} {c : C} {a : A} {o : O}
    (hph : ph.call = some c) (h : script.answers c a) :
    Step script ph (.commit a o) (.answered a o false) := by
  cases ph with
  | pending c' prepared =>
      cases hph
      exact .answer h
  | outside | answered _ _ _ => cases hph

theorem Phase.Step.of_outcome {script : Script C A} {ph : Phase C A O} {o : O} (hph : ph.outcome = some o) :
    Step script ph (.ret o) .outside := by
  cases ph with
  | answered a o' followed =>
      cases hph
      exact .ret
  | outside | pending _ _ => cases hph

/-- The object takes the actions of the marks, with the outcomes they are marked with. An action that is
    not possible in a state is not taken there. -/
inductive Taken (act : A → X → Option (O × X)) : X → Mark C A O → X → Prop
  | invoke {x : X} {c : C} : Taken act x (.invoke c) x
  | commit {x x' : X} {a : A} {o : O} (h : act a x = some (o, x')) : Taken act x (.commit a o) x'
  | ret {x : X} {o : O} : Taken act x (.ret o) x

/-- The marks that a thread has made. -/
def marksOf [DecidableEq T] (t : T) (marks : List (T × Mark C A O)) : List (Mark C A O) :=
  marks.filterMap fun m => if m.1 = t then some m.2 else none

/-- What can be seen of a run. -/
def history (es : List (T × Option (CallEvent C O))) : List (T × CallEvent C O) :=
  es.filterMap fun e => e.2.map (e.1, ·)

/-- What can be seen of some marks. -/
def seen (marks : List (T × Mark C A O)) : List (T × CallEvent C O) :=
  marks.filterMap fun m => m.2.visible.map (m.1, ·)

/-- **A history is one of the object** `act`, from `x` to `x'`: the marks are moments in it at which
    actions are taken one at a time, such that the actions of each call are those of its script, within
    the call, and the call returns the outcome of the one that answers it. -/
structure Linearized [DecidableEq T] (act : A → X → Option (O × X)) (script : Script C A)
    (es : List (T × CallEvent C O)) (marks : List (T × Mark C A O)) (x x' : X) : Prop where
  seen : seen marks = es
  taken : Run (Taken act) x (marks.map Prod.snd) x'
  calls : ∀ t, ∃ ph, Run (Phase.Step script) .outside (marksOf t marks) ph

@[simp] theorem seen_append (ms ms' : List (T × Mark C A O)) :
    seen (ms ++ ms') = seen ms ++ seen ms' := List.filterMap_append

@[simp] theorem history_append (es es' : List (T × Option (CallEvent C O))) :
    history (es ++ es') = history es ++ history es' := List.filterMap_append

theorem seen_self (t : T) (ms : List (Mark C A O)) :
    seen (ms.map (t, ·)) = (ms.filterMap Mark.visible).map (t, ·) := by
  rw [seen, List.filterMap_map, List.map_filterMap]
  rfl

variable [DecidableEq T]

@[simp] theorem marksOf_append (t : T) (ms ms' : List (T × Mark C A O)) :
    marksOf t (ms ++ ms') = marksOf t ms ++ marksOf t ms' := List.filterMap_append

theorem marksOf_self (t : T) (ms : List (Mark C A O)) : marksOf t (ms.map (t, ·)) = ms := by
  rw [marksOf, List.filterMap_map]
  show ms.filterMap (fun m => if t = t then some m else none) = ms
  simp

theorem marksOf_other {t u : T} (h : t ≠ u) (ms : List (Mark C A O)) :
    marksOf u (ms.map (t, ·)) = [] := by
  rw [marksOf, List.filterMap_map]
  show ms.filterMap (fun m => if t = u then some m else none) = []
  simp [h]

end

namespace Threads

variable {T L S C A O X : Type} [DecidableEq T]
  {step : T → L → S → Option (CallEvent C O) → L → S → Prop} {act : A → X → Option (O × X)}
  {script : Script C A} {G : S → X → Prop} {J : T → L → Phase C A O → S → X → Prop}
  {σ σ' : Threads T L S} {x : X}

/-- What a step adds to the marks, and that it keeps the threads in step with the object. -/
structure Advances (act : A → X → Option (O × X)) (script : Script C A) (G : S → X → Prop)
    (J : T → L → Phase C A O → S → X → Prop) (σ : Threads T L S) (t : T) (ph : Phase C A O) (x : X)
    (e : Option (CallEvent C O)) (l' : L) (s' : S) (ms : List (Mark C A O)) (ph' : Phase C A O) (x' : X) :
    Prop where
  visible : ms.filterMap Mark.visible = e.toList
  taken : Run (Taken act) x ms x'
  phase : Run (Phase.Step script) ph ms ph'
  shared : G s' x'
  own : J t l' ph' s' x'
  others : ∀ u phᵤ, u ≠ t → J u (σ.pc u) phᵤ σ.shared x → J u (σ.pc u) phᵤ s' x'

/-- **Linearizability**, from one step. `G` and `J` keep the shared state and the threads in step with
    the object; they may use whatever else is asserted of the reachable states (`P`). -/
theorem linearizes {P : Threads T L S → Prop}
    (hP : ∀ σ e σ', P σ → Step step σ e σ' → P σ')
    (hstep : ∀ σ t e l' s' ph x, P σ → G σ.shared x → J t (σ.pc t) ph σ.shared x →
      step t (σ.pc t) σ.shared e l' s' →
      ∃ ms ph' x', Advances act script G J σ t ph x e l' s' ms ph' x')
    {es : List (T × Option (CallEvent C O))} (hrun : Run (Step step) σ es σ') (hσ : P σ)
    (hG : G σ.shared x) (hJ : ∀ t, J t (σ.pc t) .outside σ.shared x) :
    ∃ marks x', ∃ phase : T → Phase C A O, Linearized act script (history es) marks x x' ∧
      G σ'.shared x' ∧ ∀ t, J t (σ'.pc t) (phase t) σ'.shared x' := by
  suffices h : ∃ marks : List (T × Mark C A O), ∃ x', ∃ phase : T → Phase C A O, seen marks = history es ∧
      Run (Taken act) x (marks.map Prod.snd) x' ∧
      (∀ t, Run (Phase.Step script) .outside (marksOf t marks) (phase t)) ∧ G σ'.shared x' ∧
      ∀ t, J t (σ'.pc t) (phase t) σ'.shared x' by
    obtain ⟨marks, x', phase, hseen, htaken, hphase, hG', hJ'⟩ := h
    exact ⟨marks, x', phase, ⟨hseen, htaken, fun t => ⟨phase t, hphase t⟩⟩, hG', hJ'⟩
  induction hrun with
  | nil => exact ⟨[], x, fun _ => .outside, rfl, .nil, fun _ => .nil, hG, hJ⟩
  | @snoc es τ _ e hrun hlast ih =>
      obtain ⟨marks, y, phase, hseen, htaken, hphase, hGτ, hJτ⟩ := ih
      have hτ : P τ := hrun.invariant hP hσ
      cases hlast with
      | @of t e l s hlast =>
          obtain ⟨ms, ph', y', hadv⟩ := hstep τ t e l s (phase t) y hτ hGτ (hJτ t) hlast
          refine ⟨marks ++ ms.map (t, ·), y', Function.update phase t ph', ?_, ?_, ?_, hadv.shared, ?_⟩
          · rw [seen_append, hseen, seen_self, hadv.visible, history_append]
            cases e with
            | none => rfl
            | some e => rfl
          · rw [List.map_append, List.map_map, show Prod.snd ∘ (t, ·) = (id : Mark C A O → _) from rfl,
              List.map_id]
            exact htaken.append hadv.taken
          · intro u
            rw [marksOf_append]
            by_cases hu : u = t
            · subst hu
              rw [marksOf_self, Function.update_self]
              exact (hphase u).append hadv.phase
            · rw [marksOf_other (Ne.symm hu), List.append_nil, Function.update_of_ne hu]
              exact hphase u
          · intro u
            show J u (Function.update τ.pc t l u) (Function.update phase t ph' u) s y'
            by_cases hu : u = t
            · subst hu
              rw [Function.update_self, Function.update_self]
              exact hadv.own
            · rw [Function.update_of_ne hu, Function.update_of_ne hu]
              exact hadv.others u _ hu (hJτ u)

end Threads

end Lib
