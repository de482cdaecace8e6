import Gostls.Record.Layer

/-!
# `Gostls.Record.Nonce` — which sequence numbers the send side reuses

A `WriteRecord` seals under the current sequence number, hands the fragment to the transport, and
advances the number only when the transport took all of it. If the fragment write fails the number
stays, so the next record is sealed under it again: a *torn* record.

`writeRun` is a run of `WriteRecord` calls on one installed protector, over a transport with any
pattern of failures, and `NoSeqReuse` says that no two different records handed to the transport
share a sequence number. `noSeqReuse_iff` says on which runs it holds: those that answer every torn
record by the same record until one goes through. `Protector.nonceOf` is what the counter-based
protectors derive from the sequence number, and with it the reuse of numbers is reuse of nonces.
-/

namespace Gostls

open Lib

/-- A call of `Seal` whose output was handed to the transport. -/
structure SealCall where
  seq : UInt64
  ct : UInt8
  plain : Bytes
  deriving DecidableEq, Repr

namespace Layer

/-- The `Seal` call of a `WriteRecord`, if its output reached the transport: the guards passed,
    sealing succeeded and the header was written. -/
def handed (ct : UInt8) (payload : Bytes) (l : Layer) : Option SealCall :=
  match l.sealRecord ct payload with
  | (.error _, _) => none
  | (.ok (hdr, _), l') =>
    match l'.output.write hdr.bytes with
    | (.error _, _) => none
    | (.ok _, _)    => some ⟨l.sendSeq, ct, payload⟩

/-- A run of `WriteRecord` calls: the `Seal` calls handed to the transport, and the layer after. -/
def writeRun : List (UInt8 × Bytes) → Layer → List SealCall × Layer
  | [], l => ([], l)
  | (ct, payload) :: steps, l =>
    let (calls, l') := writeRun steps (l.writeRecord ct payload).2
    ((l.handed ct payload).toList ++ calls, l')

/-- **What one `WriteRecord` can do** to the sequence number: nothing reached the transport, the
    record was torn, or it went through. -/
theorem writeRecord_cases (ct : UInt8) (payload : Bytes) (l : Layer) :
    (l.handed ct payload = none ∧ (l.writeRecord ct payload).1.isOk = false ∧
      (l.writeRecord ct payload).2.sendSeq = l.sendSeq) ∨
    (l.handed ct payload = some ⟨l.sendSeq, ct, payload⟩ ∧
      (l.writeRecord ct payload).1.isOk = false ∧
      (l.writeRecord ct payload).2.sendSeq = l.sendSeq) ∨
    (l.handed ct payload = some ⟨l.sendSeq, ct, payload⟩ ∧
      (l.writeRecord ct payload).1.isOk = true ∧ l.sendSeq ≠ maxUint64 ∧
      (l.writeRecord ct payload).2.sendSeq = l.sendSeq + 1) := by
  obtain ⟨prot, rand, hframe⟩ := sealRecord_frame ct payload l
  have hout := writeRecord_outcome ct payload l
  generalize (l.writeRecord ct payload).1 = res at hout ⊢
  generalize (l.writeRecord ct payload).2 = l' at hout ⊢
  cases hout with
  | unsealed hseal =>
      simp only [hseal] at hframe
      subst hframe
      exact .inl ⟨by simp only [handed, hseal], rfl, rfl⟩
  | unsent hseal hhdr =>
      simp only [hseal] at hframe
      subst hframe
      exact .inl ⟨by simp only [handed, hseal, hhdr], rfl, rfl⟩
  | torn hseal hhdr _ =>
      simp only [hseal] at hframe
      subst hframe
      exact .inr (.inl ⟨by simp only [handed, hseal, hhdr], rfl, rfl⟩)
  | written hseal hhdr _ =>
      obtain ⟨-, -, hseq, -⟩ := sealRecord_ok hseal
      simp only [hseal] at hframe
      subst hframe
      exact .inr (.inr ⟨by simp only [handed, hseal, hhdr], rfl, hseq, rfl⟩)

end Layer

/-! ## Reuse of sequence numbers -/

/-- No two of the calls that differ in content share a sequence number. -/
def NoSeqReuse (calls : List SealCall) : Prop :=
  ∀ c ∈ calls, ∀ c' ∈ calls, c.seq = c'.seq → c.ct = c'.ct ∧ c.plain = c'.plain

/-- Torn records are retried as they are: while `torn` waits for the sequence number to move on, the
    only record handed to the transport is `torn` again. -/
def Retried : Option (UInt8 × Bytes) → List (UInt8 × Bytes) → Layer → Prop
  | _, [], _ => True
  | torn, (ct, payload) :: steps, l =>
    let (res, l') := l.writeRecord ct payload
    match l.handed ct payload with
    | none   => Retried torn steps l'
    | some _ =>
      (torn = none ∨ torn = some (ct, payload)) ∧
        Retried (if res.isOk then none else some (ct, payload)) steps l'

/-- A run uses no number below the one it starts at. -/
theorem le_seq_of_mem_writeRun {steps : List (UInt8 × Bytes)} {l : Layer} {c : SealCall}
    (hc : c ∈ (l.writeRun steps).1) : l.sendSeq.toNat ≤ c.seq.toNat := by
  induction steps generalizing l with
  | nil => simp [Layer.writeRun] at hc
  | cons step steps ih =>
      obtain ⟨ct, payload⟩ := step
      simp only [Layer.writeRun, List.mem_append, Option.mem_toList] at hc
      rcases Layer.writeRecord_cases ct payload l with
        ⟨hh, -, hs⟩ | ⟨hh, -, hs⟩ | ⟨hh, -, hne, hs⟩
      · rcases hc with hc | hc
        · simp [hh] at hc
        · have := ih hc
          rwa [hs] at this
      · rcases hc with hc | hc
        · simp only [hh, Option.some.injEq] at hc
          rw [← hc]
        · have := ih hc
          rwa [hs] at this
      · rcases hc with hc | hc
        · simp only [hh, Option.some.injEq] at hc
          rw [← hc]
        · have := ih hc
          rw [hs, toNat_succ hne] at this
          omega

/-- The call that handed over a torn record. -/
def tornCall (l : Layer) : Option (UInt8 × Bytes) → List SealCall
  | none               => []
  | some (ct, payload) => [⟨l.sendSeq, ct, payload⟩]

theorem noSeqReuse_cons {c : SealCall} {calls : List SealCall} :
    NoSeqReuse (c :: calls) ↔
      (∀ c' ∈ calls, c.seq = c'.seq → c.ct = c'.ct ∧ c.plain = c'.plain) ∧ NoSeqReuse calls := by
  constructor
  · intro h
    exact ⟨fun c' hc' => h c List.mem_cons_self c' (List.mem_cons_of_mem _ hc'),
      fun d hd d' hd' => h d (List.mem_cons_of_mem _ hd) d' (List.mem_cons_of_mem _ hd')⟩
  · rintro ⟨hc, h⟩ d hd d' hd' hseq
    rcases List.mem_cons.mp hd with rfl | hmem
    · rcases List.mem_cons.mp hd' with rfl | hmem'
      · exact ⟨rfl, rfl⟩
      · exact hc d' hmem' hseq
    · rcases List.mem_cons.mp hd' with rfl | hmem'
      · obtain ⟨h₁, h₂⟩ := hc d hmem hseq.symm
        exact ⟨h₁.symm, h₂.symm⟩
      · exact h d hmem d' hmem' hseq

/-- A call below every number of a list is in nobody's way. -/
theorem noSeqReuse_cons_of_lt {c : SealCall} {calls : List SealCall}
    (h : ∀ c' ∈ calls, c.seq.toNat < c'.seq.toNat) : NoSeqReuse (c :: calls) ↔ NoSeqReuse calls := by
  rw [noSeqReuse_cons, and_iff_right]
  intro c' hc' hseq
  have := h c' hc'
  rw [hseq] at this
  omega

/-- A torn record, and the call of the next record that reaches the transport. -/
theorem noSeqReuse_torn {l : Layer} {torn : Option (UInt8 × Bytes)} {ct : UInt8} {payload : Bytes}
    {calls : List SealCall} :
    NoSeqReuse (tornCall l torn ++ ⟨l.sendSeq, ct, payload⟩ :: calls) ↔
      (torn = none ∨ torn = some (ct, payload)) ∧
        NoSeqReuse (⟨l.sendSeq, ct, payload⟩ :: calls) := by
  cases torn with
  | none => simp [tornCall]
  | some q =>
      obtain ⟨ct', payload'⟩ := q
      simp only [tornCall, List.singleton_append, reduceCtorEq, false_or, Option.some.injEq,
        Prod.mk.injEq]
      constructor
      · intro h
        have hsame := (noSeqReuse_cons.mp h).1 _ List.mem_cons_self rfl
        exact ⟨hsame, (noSeqReuse_cons.mp h).2⟩
      · rintro ⟨⟨rfl, rfl⟩, h⟩
        refine noSeqReuse_cons.mpr ⟨?_, h⟩
        intro c' hc' hseq
        exact h _ List.mem_cons_self c' hc' hseq

/-- The run lemma behind the characterisation: `torn` is the record that the number the layer stands
    at was last used for, if that one did not go through. -/
theorem noSeqReuse_writeRun (torn : Option (UInt8 × Bytes)) {steps : List (UInt8 × Bytes)}
    {l : Layer} :
    NoSeqReuse (tornCall l torn ++ (l.writeRun steps).1) ↔ Retried torn steps l := by
  induction steps generalizing torn l with
  | nil =>
      simp only [Layer.writeRun, Retried, iff_true, List.append_nil]
      cases torn with
      | none => simp [tornCall, NoSeqReuse]
      | some q => simp [tornCall, NoSeqReuse]
  | cons step steps ih =>
      obtain ⟨ct, payload⟩ := step
      have hbound := @le_seq_of_mem_writeRun steps (l.writeRecord ct payload).2
      have hsame : ∀ q, (l.writeRecord ct payload).2.sendSeq = l.sendSeq →
          tornCall l q = tornCall (l.writeRecord ct payload).2 q := by
        intro q hq
        cases q <;> simp [tornCall, hq]
      rcases Layer.writeRecord_cases ct payload l with
        ⟨hh, -, hs⟩ | ⟨hh, hres, hs⟩ | ⟨hh, hres, hne, hs⟩
      · simp only [Layer.writeRun, Retried, hh, Option.toList_none, List.nil_append]
        rw [hsame torn hs, ih]
      · simp only [Layer.writeRun, Retried, hh, hres, Option.toList_some, List.singleton_append,
          Bool.false_eq_true, if_false]
        rw [noSeqReuse_torn, ← ih, ← hsame _ hs]
        rfl
      · simp only [Layer.writeRun, Retried, hh, hres, Option.toList_some, List.singleton_append,
          if_true]
        rw [noSeqReuse_torn, ← ih, noSeqReuse_cons_of_lt]
        · rfl
        · intro c' hc'
          have := hbound hc'
          rw [hs, toNat_succ hne] at this
          exact this

/-! ## Nonces -/

namespace Protector

/-- What the counter-based protectors encrypt a record under: the key derived for it, where there is
    one, and the nonce or counter block. -/
def nonceOf : Protector → UInt64 → Option (Bytes × Bytes)
  | .aead p, seq             => some ([], p.nonceOf seq)
  | .chacha20Poly1305 p, seq => some ([], p.buildNonce seq)
  | .ctrOMAC p, seq          => some (p.encTree seq, p.adjustIV seq)
  | _, _                     => none

/-- The protectors whose nonce is computed from the sequence number. -/
def CounterBased (prot : Protector) : Prop := ∀ seq, (prot.nonceOf seq).isSome

/-- Assumed of TLSTREE: records whose sequence numbers differ above the width of the IV get
    different keys. Nothing is assumed for Kuznyechik, whose IV is as wide as the number. -/
def SeparatesKeys : Protector → Prop
  | .ctrOMAC p => ∀ s s', p.encTree s = p.encTree s' →
      s.toNat / 256 ^ p.origIV.length = s'.toNat / 256 ^ p.origIV.length
  | _ => True

theorem nonceOf_inj {prot : Protector} (hc : prot.CounterBased) (hk : prot.SeparatesKeys)
    {s s' : UInt64} (h : prot.nonceOf s = prot.nonceOf s') : s = s' := by
  cases prot with
  | aead p =>
      simp only [nonceOf, Option.some.injEq, Prod.mk.injEq, true_and] at h
      exact p.nonceOf_inj h
  | chacha20Poly1305 p =>
      simp only [nonceOf, Option.some.injEq, Prod.mk.injEq, true_and] at h
      exact p.buildNonce_inj h
  | ctrOMAC p =>
      simp only [nonceOf, Option.some.injEq, Prod.mk.injEq] at h
      have hhigh := hk s s' h.1
      have hlow := p.adjustIV_inj h.2
      have hs := Nat.div_add_mod s.toNat (256 ^ p.origIV.length)
      have hs' := Nat.div_add_mod s'.toNat (256 ^ p.origIV.length)
      rw [hhigh, hlow, hs'] at hs
      exact UInt64.toNat_inj.mp hs.symm
  | null => exact absurd (hc 0) (by simp [nonceOf])
  | cbcHMAC p => exact absurd (hc 0) (by simp [nonceOf])
  | gost28147 p => exact absurd (hc 0) (by simp [nonceOf])

theorem seal_counterBased {prot : Protector} (hc : prot.CounterBased) (seq : UInt64) (hdr : Header)
    (plain : Bytes) (rand : Entropy) : (prot.seal seq hdr plain rand).2.1 = prot := by
  cases prot with
  | gost28147 p => exact absurd (hc 0) (by simp [nonceOf])
  | _ => rfl

end Protector

theorem Layer.writeRecord_sendProt (ct : UInt8) (payload : Bytes) {l : Layer}
    (hc : l.sendProt.CounterBased) : (l.writeRecord ct payload).2.sendProt = l.sendProt := by
  have hkeep := Protector.seal_counterBased hc l.sendSeq (.template ct) payload l.rand
  have hseal : (l.sealRecord ct payload).2.sendProt = l.sendProt := by
    have hout := sealRecord_outcome ct payload l
    generalize (l.sealRecord ct payload).1 = res at hout
    generalize (l.sealRecord ct payload).2 = l' at hout ⊢
    cases hout with
    | refused => rfl
    | failed h | sealed _ _ _ h =>
        rw [h] at hkeep
        exact hkeep
  have hout := writeRecord_outcome ct payload l
  generalize (l.writeRecord ct payload).1 = res at hout
  generalize (l.writeRecord ct payload).2 = l' at hout ⊢
  cases hout with
  | unsealed h | unsent h _ | torn h _ _ | written h _ _ =>
      rw [h] at hseal
      exact hseal

/-- No two records of different content are encrypted under one derived key and nonce. -/
def NoNonceReuse (prot : Protector) (calls : List SealCall) : Prop :=
  ∀ c ∈ calls, ∀ c' ∈ calls, prot.nonceOf c.seq = prot.nonceOf c'.seq →
    c.ct = c'.ct ∧ c.plain = c'.plain

theorem noNonceReuse_iff {prot : Protector} (hc : prot.CounterBased) (hk : prot.SeparatesKeys)
    {calls : List SealCall} : NoNonceReuse prot calls ↔ NoSeqReuse calls := by
  constructor
  · intro h c hmem c' hmem' hseq
    exact h c hmem c' hmem' (by rw [hseq])
  · intro h c hmem c' hmem' hn
    exact h c hmem c' hmem' (prot.nonceOf_inj hc hk hn)

/-- A counter-based protector is the same at every record of a run. -/
theorem writeRun_sendProt {steps : List (UInt8 × Bytes)} {l : Layer}
    (hc : l.sendProt.CounterBased) : (l.writeRun steps).2.sendProt = l.sendProt := by
  induction steps generalizing l with
  | nil => rfl
  | cons step steps ih =>
      obtain ⟨ct, payload⟩ := step
      have hstep := Layer.writeRecord_sendProt ct payload hc
      simp only [Layer.writeRun]
      rw [ih (hstep.symm ▸ hc), hstep]

/-- **When sequence numbers and nonces are not reused.** A run of `WriteRecord` calls over any
    pattern of transport failures reuses neither if and only if every torn record is followed by the
    same record until that goes through. -/
theorem no_nonce_reuse_iff_retried (steps : List (UInt8 × Bytes)) (l : Layer) :
    (NoSeqReuse (l.writeRun steps).1 ↔ Retried none steps l) ∧
      (l.sendProt.CounterBased → l.sendProt.SeparatesKeys →
        (l.writeRun steps).2.sendProt = l.sendProt ∧
          (NoNonceReuse l.sendProt (l.writeRun steps).1 ↔ Retried none steps l)) := by
  have hseq : NoSeqReuse (l.writeRun steps).1 ↔ Retried none steps l :=
    noSeqReuse_writeRun none
  exact ⟨hseq, fun hc hk => ⟨writeRun_sendProt hc, (noNonceReuse_iff hc hk).trans hseq⟩⟩

/-- An AES-GCM sender whose transport takes the first header and refuses the first fragment. -/
def tornSender : Layer :=
  { newLayer [] ⟨[], [none, some ⟨0, 1⟩]⟩ ⟨fun _ => .ok 0, 0⟩ with
    sendProt := .aead .sample }

/-- **A torn record is followed by another under the same nonce**: a `Conn.Write` of one byte whose
    fragment the transport refuses, then the `close_notify` of `Conn.Close`. -/
theorem torn_record_reuses_nonce :
    (tornSender.writeRun [(contentTypeApplicationData, [7]),
        (contentTypeAlert, encodeAlert alertLevelWarning alertCloseNotify)]).1 =
      [⟨0, contentTypeApplicationData, [7]⟩,
        ⟨0, contentTypeAlert, encodeAlert alertLevelWarning alertCloseNotify⟩] ∧
    ¬ NoSeqReuse [⟨0, contentTypeApplicationData, [7]⟩,
        ⟨0, contentTypeAlert, encodeAlert alertLevelWarning alertCloseNotify⟩] ∧
    ¬ NoNonceReuse tornSender.sendProt [⟨0, contentTypeApplicationData, [7]⟩,
        ⟨0, contentTypeAlert, encodeAlert alertLevelWarning alertCloseNotify⟩] := by
  refine ⟨by decide, ?_, ?_⟩
  · intro h
    have := h _ List.mem_cons_self _ (List.mem_cons_of_mem _ List.mem_cons_self) rfl
    exact absurd this.1 (by decide)
  · intro h
    have := h _ List.mem_cons_self _ (List.mem_cons_of_mem _ List.mem_cons_self) rfl
    exact absurd this.1 (by decide)

end Gostls
