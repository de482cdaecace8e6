import Gostls.Lib.Trace
import Gostls.Record.Layer

/-!
# `Gostls.Record.Output` — what a layer has put on the wire

The histories of a handshake and of a connection list the records that were given to `WriteRecord`, with
its verdict. This is what the transport has seen of them: of a record that was written whole, its header
and its sealed fragment; of one that was not, at most a part of these from the front.

`Outbound.Puts` says so of one record, and is what a call of `WriteRecord` does (`writeRecord_puts`). A
history is a `Run` of it.
-/

namespace Gostls

open Lib

/-- A record given to `WriteRecord`, and whether it was written whole. -/
structure Emitted where
  ct : UInt8
  payload : Bytes
  whole : Bool
  deriving DecidableEq, Repr

/-- A record on the wire: the header with the length of the fragment, then the fragment. -/
def recordBytes (ct : UInt8) (fragment : Bytes) : Bytes :=
  ((Header.template ct).putLength fragment.length).bytes ++ fragment

/-- The way out of a layer: what seals the next record, its number, and the bytes the transport has
    accepted. -/
structure Outbound where
  prot : Protector
  seq : UInt64
  sent : Bytes

def Layer.outbound (l : Layer) : Outbound := ⟨l.sendProt, l.sendSeq, l.output.output⟩

/-- **What a record puts on the wire.** Only a record that was written whole advances the number. -/
inductive Outbound.Puts (f : Outbound) : Emitted → Outbound → Prop
  | whole {ct : UInt8} {payload fragment : Bytes} {prot : Protector} {rand rand' : Entropy}
      (hseal : f.prot.seal f.seq (.template ct) payload rand = (.ok fragment, prot, rand')) :
      Puts f ⟨ct, payload, true⟩ ⟨prot, f.seq + 1, f.sent ++ recordBytes ct fragment⟩
  | torn {ct : UInt8} {payload fragment part : Bytes} {prot : Protector} {rand rand' : Entropy}
      (hseal : f.prot.seal f.seq (.template ct) payload rand = (.ok fragment, prot, rand'))
      (hpart : part <+: recordBytes ct fragment) :
      Puts f ⟨ct, payload, false⟩ ⟨prot, f.seq, f.sent ++ part⟩
  | unsealed {ct : UInt8} {payload : Bytes} {e : Err} {prot : Protector} {rand rand' : Entropy}
      (hseal : f.prot.seal f.seq (.template ct) payload rand = (.error e, prot, rand')) :
      Puts f ⟨ct, payload, false⟩ ⟨prot, f.seq, f.sent⟩
  | refused {ct : UInt8} {payload : Bytes} : Puts f ⟨ct, payload, false⟩ f

namespace Layer

variable {l l' : Layer} {ct : UInt8} {payload : Bytes}

/-- **A successful write** puts the whole record on the wire. -/
theorem writeRecord_ok_puts (h : l.writeRecord ct payload = (.ok (), l')) :
    l.outbound.Puts ⟨ct, payload, true⟩ l'.outbound := by
  obtain ⟨hdr, fragment, l₁, w, w', hseal, hhdr, hfrag, rfl⟩ := writeRecord_ok h
  obtain ⟨-, -, -, prot, rand, hsealed, rfl, rfl⟩ := sealRecord_ok hseal
  have hsent : w'.output = l.output.output ++ recordBytes ct fragment := by
    rw [Writer.write_ok hfrag, Writer.write_ok hhdr, List.append_assoc]
    rfl
  have hputs := Outbound.Puts.whole (f := l.outbound) hsealed
  rw [show l.outbound.sent = l.output.output from rfl, ← hsent] at hputs
  exact hputs

/-- **A failed write** puts at most a part of the record on the wire, from the front. -/
theorem writeRecord_error_puts {e : Err} (h : l.writeRecord ct payload = (.error e, l')) :
    l.outbound.Puts ⟨ct, payload, false⟩ l'.outbound := by
  have hout := writeRecord_outcome ct payload l
  rw [h] at hout
  -- A record that was sealed and of which `part` was accepted.
  have htorn : ∀ {hdr : Header} {fragment part : Bytes} {l₁ : Layer} {w : Writer},
      l.sealRecord ct payload = (.ok (hdr, fragment), l₁) → part <+: hdr.bytes ++ fragment →
      w.output = l₁.output.output ++ part →
      l.outbound.Puts ⟨ct, payload, false⟩ ({ l₁ with output := w } : Layer).outbound := by
    intro hdr fragment part l₁ w hseal hpart hw
    obtain ⟨-, -, -, prot, rand, hsealed, rfl, rfl⟩ := sealRecord_ok hseal
    have hputs := Outbound.Puts.torn (f := l.outbound) hsealed hpart
    rw [show l.outbound.sent = l.output.output from rfl, ← hw] at hputs
    exact hputs
  cases hout with
  | unsealed hseal =>
      have hsealing := sealRecord_outcome ct payload l
      rw [hseal] at hsealing
      cases hsealing with
      | refused => exact .refused
      | failed hsealed => exact .unsealed hsealed
  | unsent hseal hhdr =>
      obtain ⟨part, hpart, hw⟩ := Writer.write_error hhdr
      exact htorn hseal (hpart.trans (List.prefix_append ..)) hw
  | torn hseal hhdr hfrag =>
      obtain ⟨part, hpart, hw⟩ := Writer.write_error hfrag
      refine htorn hseal ((List.prefix_append_right_inj _).mpr hpart) ?_
      rw [hw, Writer.write_ok hhdr, List.append_assoc]

/-- **What a write puts on the wire.** -/
theorem writeRecord_puts {res : Except Err Unit} (h : l.writeRecord ct payload = (res, l')) :
    l.outbound.Puts ⟨ct, payload, res.isOk⟩ l'.outbound := by
  cases res with
  | ok _ => exact writeRecord_ok_puts h
  | error e => exact writeRecord_error_puts h

/-- A read puts nothing on the wire. -/
theorem readRecord_outbound (l : Layer) : l.readRecord.2.outbound = l.outbound := by
  obtain ⟨input, prot, seq, heq⟩ := readRecord_frame l
  rw [heq]
  rfl

end Layer

end Gostls
