import Gostls.Handshake.Reader
import Gostls.Lib.Trace

/-!
# `Gostls.Handshake.Flow` — the bytes of a handshake

What the events of a handshake do to its bytes, whatever messages they carry. A `Flow` is the abstract
state of that: what the server's stream still holds, the handshake bytes received and not yet
interpreted, the messages so far, and the protector and sequence number of each direction. `Flow.Step`
says what each event does to it.

Three laws hold of every run:

* `Flow.log_eq` — the log is the messages of the trace, sent and received, in wire order;
* `Flow.tiles` — the handshake bytes received are the messages taken, end to end, and what is buffered;
* `Flow.opens`, `Flow.seals` — between two changes of a protector, every record was opened (sealed) by
  it, in sequence; the records opened are the next ones of the stream.
-/

namespace Gostls

open Lib

/-! ## Views of a trace -/

/-- The handshake data of a record. -/
def Incoming.data (i : Incoming) : Bytes := if i.ct = contentTypeHandshake then i.payload else []

namespace Event

/-- The bytes of the message an event puts on the wire or takes off it. -/
def message : Event → Bytes
  | .wrote o       => if o.ct = contentTypeHandshake ∧ o.ok = true then o.payload else []
  | .took msgType body => buildEnvelope msgType body
  | _              => []

def asRead : Event → Option Incoming
  | .read i => some i
  | _       => none

def asWritten : Event → Option Outgoing
  | .wrote o => some o
  | _        => none

def asTaken : Event → Option (UInt8 × Bytes)
  | .took msgType body => some (msgType, body)
  | _                  => none

end Event

/-- The messages of a trace, sent and received, as bytes in wire order. -/
def messages (tr : List Event) : Bytes := tr.flatMap Event.message

/-- The records read. -/
def reads (tr : List Event) : List Incoming := tr.filterMap Event.asRead

/-- The records written, or attempted. -/
def writes (tr : List Event) : List Outgoing := tr.filterMap Event.asWritten

/-- The handshake messages received. -/
def taken (tr : List Event) : List (UInt8 × Bytes) := tr.filterMap Event.asTaken

/-- The handshake data of the records read. -/
def received (tr : List Event) : Bytes := (reads tr).flatMap Incoming.data

section Views

variable (a b : List Event) (e : Event)

@[simp] theorem messages_append : messages (a ++ b) = messages a ++ messages b := List.flatMap_append
@[simp] theorem messages_single : messages [e] = e.message := by simp [messages]
@[simp] theorem reads_append : reads (a ++ b) = reads a ++ reads b := List.filterMap_append
@[simp] theorem writes_append : writes (a ++ b) = writes a ++ writes b := List.filterMap_append
@[simp] theorem taken_append : taken (a ++ b) = taken a ++ taken b := List.filterMap_append
@[simp] theorem reads_single : reads [e] = e.asRead.toList := by
  cases h : e.asRead <;> simp [reads, h]
@[simp] theorem writes_single : writes [e] = e.asWritten.toList := by
  cases h : e.asWritten <;> simp [writes, h]
@[simp] theorem taken_single : taken [e] = e.asTaken.toList := by
  cases h : e.asTaken <;> simp [taken, h]
@[simp] theorem received_append : received (a ++ b) = received a ++ received b := by simp [received]

end Views

/-! ## Protectors in use -/

/-- `p`, from sequence number `n` on, opened the records of `wire` one after the other, which gave `is`,
    and became `q`, with `m` the next number. -/
inductive Opens (p : Protector) (n : UInt64) : Bytes → List Incoming → Protector → UInt64 → Prop
  | nil : Opens p n [] [] p n
  | snoc {wire : Bytes} {is : List Incoming} {q q' : Protector} {m : UInt64} {i : Incoming}
      {hdr : Header} {fragment : Bytes} : Opens p n wire is q m → i.prot = q → i.seq = m →
      hdr.contentType = i.ct → hdr.length = fragment.length → q.open m hdr fragment = (.ok i.payload, q') →
      Opens p n (wire ++ (hdr.bytes ++ fragment)) (is ++ [i]) q' (m + 1)

/-- `p`, from sequence number `n` on, was asked to seal these records one after the other and became
    `q`, with `m` the next number. Only a record that was written advances the number. -/
inductive Seals (p : Protector) (n : UInt64) : List Outgoing → Protector → UInt64 → Prop
  | nil : Seals p n [] p n
  | snoc {os : List Outgoing} {q q' : Protector} {m : UInt64} {o : Outgoing} :
      Seals p n os q m → o.prot = q → o.seq = m →
      (o.ok = true → ∃ rand fragment rand',
        q.seal m (.template o.ct) o.payload rand = (.ok fragment, q', rand')) →
      Seals p n (os ++ [o]) q' (if o.ok then m + 1 else m)

/-! ## Flows -/

/-- The abstract byte state of a handshake. -/
structure Flow where
  /-- The server's stream from here on. -/
  input : Reader
  /-- Handshake bytes received and not interpreted. -/
  buf : Bytes
  /-- The messages so far. -/
  log : Bytes
  sendProt : Protector
  sendSeq : UInt64
  recvProt : Protector
  recvSeq : UInt64

/-- Nothing sent or received, no protection. -/
def Flow.init (input : Reader) : Flow := ⟨input, [], [], .null, 0, .null, 0⟩

/-- What an event does to the flow. -/
inductive Flow.Step : Flow → Event → Flow → Prop
  | wrote {f : Flow} {o : Outgoing} {prot : Protector} (hprot : o.prot = f.sendProt)
      (hseq : o.seq = f.sendSeq)
      (hseal : o.ok = true → ∃ rand fragment rand',
        f.sendProt.seal f.sendSeq (.template o.ct) o.payload rand = (.ok fragment, prot, rand')) :
      Step f (.wrote o) { f with
        log := f.log ++ (Event.wrote o).message
        sendProt := prot
        sendSeq := if o.ok then f.sendSeq + 1 else f.sendSeq }
  | read {f : Flow} {i : Incoming} {prot : Protector} {hdr : Header} {fragment : Bytes} {rest : Reader}
      (hinput : f.input = ofBytes (hdr.bytes ++ fragment) ++ rest)
      (hlen : hdr.length = fragment.length)
      (hprot : i.prot = f.recvProt) (hseq : i.seq = f.recvSeq) (hct : hdr.contentType = i.ct)
      (hopen : f.recvProt.open f.recvSeq hdr fragment = (.ok i.payload, prot)) :
      Step f (.read i) { f with
        input := rest
        buf := f.buf ++ i.data
        recvProt := prot
        recvSeq := f.recvSeq + 1 }
  | took {f : Flow} {msgType : UInt8} {body rest : Bytes}
      (hbuf : f.buf = buildEnvelope msgType body ++ rest) :
      Step f (.took msgType body)
        { f with buf := rest, log := f.log ++ buildEnvelope msgType body }
  | summed {f : Flow} {purpose : Purpose} {buf : Bytes} : Step f (.summed purpose buf) f
  | installedSend {f : Flow} {p : Protector} :
      Step f (.installedSend p) { f with sendProt := p, sendSeq := 0 }
  | installedRecv {f : Flow} {p : Protector} :
      Step f (.installedRecv p) { f with recvProt := p, recvSeq := 0 }

namespace Flow

variable {f f' : Flow} {tr : List Event}

/-- **The log is the messages of the trace.** -/
theorem log_eq (h : Run Step f tr f') : f'.log = f.log ++ messages tr := by
  induction h with
  | nil => simp [messages]
  | snoc _ hstep ih =>
      rw [messages_append, messages_single, ← List.append_assoc, ← ih]
      cases hstep <;> simp [Event.message]

/-- **Tiling.** What was in the buffer and what arrived is what was taken and what is left. -/
theorem tiles (h : Run Step f tr f') : f.buf ++ received tr = envelopes (taken tr) ++ f'.buf := by
  induction h with
  | nil => simp [received, reads, taken]
  | snoc _ hstep ih =>
      rw [received_append, ← List.append_assoc, ih]
      cases hstep with
      | took hbuf => simp [received, Event.asRead, Event.asTaken, hbuf]
      | read _ _ _ _ _ _ | wrote _ _ _ | summed | installedSend | installedRecv =>
          simp [received, Event.asRead, Event.asTaken]

/-- **Opened in sequence**, as long as the receive protector is not changed. -/
theorem opens (h : Run Step f tr f') (hno : ∀ p, .installedRecv p ∉ tr) :
    ∃ wire, f.input = ofBytes wire ++ f'.input ∧
      Opens f.recvProt f.recvSeq wire (reads tr) f'.recvProt f'.recvSeq := by
  induction h with
  | nil => exact ⟨[], rfl, .nil⟩
  | snoc _ hstep ih =>
      obtain ⟨wire, hinput, hrec⟩ := ih (fun p hp => hno p (List.mem_append_left _ hp))
      rw [reads_append, reads_single]
      cases hstep with
      | read hnext hlen hprot hseq hct hopen =>
          refine ⟨_, ?_, hrec.snoc hprot hseq hct hlen hopen⟩
          rw [hinput, hnext, ofBytes_append wire, List.append_assoc]
      | @installedRecv p => exact absurd (by simp) (hno p)
      | wrote _ _ _ | took _ | summed | installedSend =>
          exact ⟨wire, hinput, by simpa [Event.asRead] using hrec⟩

/-- An event that does not change the send protector. -/
theorem Step.seals {p : Protector} {n : UInt64} {e : Event} (h : Step f e f')
    (hno : ∀ q, e ≠ .installedSend q) (hs : Seals p n (writes tr) f.sendProt f.sendSeq) :
    Seals p n (writes (tr ++ [e])) f'.sendProt f'.sendSeq := by
  rw [writes_append, writes_single]
  cases h with
  | wrote hprot hseq hseal => exact hs.snoc hprot hseq hseal
  | @installedSend q => exact absurd rfl (hno q)
  | read _ _ _ _ _ _ | took _ | summed | installedRecv => simpa [Event.asWritten] using hs

/-- **Sealed in sequence**, as long as the send protector is not changed. -/
theorem seals (h : Run Step f tr f') (hno : ∀ p, .installedSend p ∉ tr) :
    Seals f.sendProt f.sendSeq (writes tr) f'.sendProt f'.sendSeq := by
  induction h with
  | nil => exact .nil
  | snoc _ hstep ih =>
      refine hstep.seals ?_ (ih fun p hp => hno p (List.mem_append_left _ hp))
      rintro q rfl
      exact hno q (by simp)

end Flow

end Gostls
