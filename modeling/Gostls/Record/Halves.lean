import Gostls.Lib.Part
import Gostls.Record.Layer

/-!
# `Gostls.Record.Halves` — the two directions of a layer

A layer is a receive half and a send half. `ReadRecord` is local to the first, `WriteRecord` to the
second: what one does neither depends on the other half nor changes it.
-/

namespace Gostls

open Lib

structure RecvHalf where
  input : Reader
  recvSeq : UInt64
  recvProt : Protector

structure SendHalf where
  output : Writer
  rand : Entropy
  sendSeq : UInt64
  sendProt : Protector

namespace Layer

def recvHalf : Part Layer RecvHalf where
  get l := ⟨l.input, l.recvSeq, l.recvProt⟩
  set l r := { l with input := r.input, recvSeq := r.recvSeq, recvProt := r.recvProt }
  get_set _ _ := rfl
  set_get _ := rfl
  set_set _ _ _ := rfl

def sendHalf : Part Layer SendHalf where
  get l := ⟨l.output, l.rand, l.sendSeq, l.sendProt⟩
  set l s := { l with output := s.output, rand := s.rand, sendSeq := s.sendSeq, sendProt := s.sendProt }
  get_set _ _ := rfl
  set_get _ := rfl
  set_set _ _ _ := rfl

/-- A layer is its two halves. -/
theorem ext_halves {l l' : Layer} (hrecv : recvHalf.get l = recvHalf.get l')
    (hsend : sendHalf.get l = sendHalf.get l') : l = l' := by
  obtain ⟨_, _, _, _, _, _, _⟩ := l
  obtain ⟨_, _, _, _, _, _, _⟩ := l'
  simp only [recvHalf, sendHalf, RecvHalf.mk.injEq, SendHalf.mk.injEq] at hrecv hsend
  obtain ⟨rfl, rfl, rfl⟩ := hrecv
  obtain ⟨rfl, rfl, rfl, rfl⟩ := hsend
  rfl

theorem readRecord_local : recvHalf.Local readRecord := by
  intro l l'
  unfold readRecord
  have hsame : (recvHalf.set l' (recvHalf.get l)).recvSeq = l.recvSeq := rfl
  by_cases hseq : l.recvSeq = maxUint64
  · rw [if_pos hseq, if_pos (hsame.trans hseq)]
  · rw [if_neg hseq, if_neg (show ¬ (recvHalf.set l' (recvHalf.get l)).recvSeq = maxUint64 from hseq)]
    dsimp only [recvHalf]
    cases readFull recordHeaderLen l.input with
    | mk hdr rest =>
        cases hdr with
        | error e => rfl
        | ok b =>
            dsimp only
            cases checkHeader (Header.ofBytes b) with
            | error e => rfl
            | ok _ =>
                dsimp only
                cases readFull (Header.ofBytes b).length rest with
                | mk fragment rest =>
                    cases fragment with
                    | error e => rfl
                    | ok fragment =>
                        dsimp only
                        cases l.recvProt.open l.recvSeq (Header.ofBytes b) fragment with
                        | mk plain prot =>
                            cases plain with
                            | error e => rfl
                            | ok plain =>
                                by_cases hlen : plain.length > tlsMaxPlaintextLen
                                · simp only [if_pos hlen]
                                · simp only [if_neg hlen]

theorem sealRecord_local (ct : UInt8) (payload : Bytes) : sendHalf.Local (sealRecord ct payload) := by
  intro l l'
  unfold sealRecord
  have hsame : (sendHalf.set l' (sendHalf.get l)).sendSeq = l.sendSeq := rfl
  by_cases hct : (!isKnownContentType ct) = true
  · simp only [if_pos hct]
  · rw [if_neg hct, if_neg hct]
    by_cases hlen : payload.length > tlsMaxPlaintextLen
    · simp only [if_pos hlen]
    · rw [if_neg hlen, if_neg hlen]
      by_cases hseq : l.sendSeq = maxUint64
      · rw [if_pos hseq, if_pos (hsame.trans hseq)]
      · rw [if_neg hseq, if_neg (show ¬ (sendHalf.set l' (sendHalf.get l)).sendSeq = maxUint64 from hseq)]
        dsimp only [sendHalf]
        cases l.sendProt.seal l.sendSeq (.template ct) payload l.rand with
        | mk fragment rest =>
            cases fragment with
            | error e => rfl
            | ok fragment => rfl

/-- The two transport writes of `WriteRecord`. -/
theorem writeRecord_local (ct : UInt8) (payload : Bytes) : sendHalf.Local (writeRecord ct payload) := by
  intro l l'
  have hseal := sealRecord_local ct payload l l'
  unfold writeRecord
  rw [hseal]
  cases l.sealRecord ct payload with
  | mk sealed l₁ =>
      cases sealed with
      | error e => rfl
      | ok sealed =>
          obtain ⟨hdr, fragment⟩ := sealed
          simp only [sendHalf]
          cases l₁.output.write hdr.bytes with
          | mk res w =>
              cases res with
              | error e => rfl
              | ok _ =>
                  dsimp only
                  cases w.write fragment with
                  | mk res w => cases res <;> rfl

theorem recvHalf_sendHalf : recvHalf.Independent sendHalf := fun _ _ => rfl

theorem sendHalf_recvHalf : sendHalf.Independent recvHalf := fun _ _ => rfl

end Layer

end Gostls
