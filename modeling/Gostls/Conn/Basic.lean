import Gostls.Record.Output

/-!
# `Gostls.Conn.Basic` — the connection: `Read`, `Write`, `Close`

`Conn` after `conn.go`: a layer, the outcome of the handshake, the bytes decrypted but not yet
returned, and the sticky error of the read side. Calls are atomic here; the two mutexes of the source
make them so per direction, and the two directions touch disjoint fields.

Two history fields record what happened and are never read by the code: the records that `Read`
consumed, and the records that were given to `WriteRecord` with its verdict.
-/

namespace Gostls

open Lib

def errConnClosed : Err := .new "tls: connection closed"
def errAlertTruncated : Err := .new "tls: truncated alert record"
def Conn.errAlertReceived : Err := .new "tls: received alert"
def errUnexpectedRecord : Err := .new "tls: unexpected record type in application data phase"
def errTooManyEmptyRecords : Err := .new "tls: too many consecutive empty records"

def alertMinLen : Nat := 2
def maxEmptyRecords : Nat := 32

/-- `const maxChunk` of `Write`. -/
def maxChunk : Nat := 16384

/-- `EncodeAlert(AlertLevelWarning, AlertCloseNotify)` -/
def closeNotifyAlert : Bytes := encodeAlert alertLevelWarning alertCloseNotify

/-- A client connection. -/
structure Conn where
  layer : Layer
  /-- The handshake that the connection's configuration runs. -/
  doHandshake : Layer → Except Err Unit × Layer
  /-- What the transport's own `Close` returns. -/
  transportClose : Except Err Unit
  /-- The outcome of the handshake, once it has run. -/
  handshakeDone : Option (Except Err Unit)
  closed : Bool
  readBuf : Bytes
  readErr : Option Err
  /-- History: the records consumed by `Read`. -/
  consumed : List (UInt8 × Bytes)
  /-- History: the records given to `WriteRecord`. -/
  emitted : List Emitted

namespace Conn

/-- Run the handshake if it has not been run yet. -/
def handshake (c : Conn) : Except Err Unit × Conn :=
  match c.handshakeDone with
  | some res => (res, c)
  | none =>
    if c.closed then
      (.error errConnClosed, { c with handshakeDone := some (.error errConnClosed) })
    else
      let (res, layer) := c.doHandshake c.layer
      (res, { c with layer, handshakeDone := some res })

/-! ## Reading -/

/-- `c.layer.ReadRecord()` -/
def readRecord (c : Conn) : Except Err (UInt8 × Bytes) × Conn :=
  match c.layer.readRecord with
  | (.ok rec, layer)  => (.ok rec, { c with layer, consumed := c.consumed ++ [rec] })
  | (.error e, layer) => (.error e, { c with layer })

/-- `c.readErr = err; return 0, err` -/
def failRead (e : Err) (c : Conn) : Except Err Bytes × Conn := (.error e, { c with readErr := some e })

/-- What `Read` does with an alert record. -/
def readAlert (payload : Bytes) (c : Conn) : Except Err Bytes × Conn :=
  if payload.length < alertMinLen then c.failRead errAlertTruncated
  else
    match decodeAlert payload with
    | .error e => c.failRead e
    | .ok (level, desc) =>
      if desc = alertCloseNotify then c.failRead .eof
      else c.failRead (.errorf ("tls: received alert level=" ++ toString level ++ " desc=" ++
        toString desc) errAlertReceived)

/-- Read records until one carries application data. `budget` is the number of empty records still
    tolerated. -/
def readLoop (n : Nat) : Nat → Conn → Except Err Bytes × Conn
  | budget, c =>
    match c.readRecord with
    | (.error e, c) => c.failRead e
    | (.ok (ct, payload), c) =>
      if ct = contentTypeApplicationData then
        if payload.length = 0 then
          match budget with
          | 0          => c.failRead errTooManyEmptyRecords
          | budget + 1 => readLoop n budget c
        else
          (.ok (payload.take n), { c with readBuf := c.readBuf ++ payload.drop n })
      else if ct = contentTypeAlert then c.readAlert payload
      else c.failRead (.errorf ("tls: unexpected record type " ++ toString ct ++
        " in application data phase") errUnexpectedRecord)

/-- `Read` into a buffer of `n` bytes: the bytes copied into it, or the error. -/
def read (n : Nat) (c : Conn) : Except Err Bytes × Conn :=
  match c.handshake with
  | (.error e, c) => (.error e, c)
  | (.ok _, c) =>
    if c.closed then (.error errConnClosed, c)
    else if c.readBuf.length > 0 then
      (.ok (c.readBuf.take n), { c with readBuf := c.readBuf.drop n })
    else
      match c.readErr with
      | some e => (.error e, c)
      | none   => c.readLoop n maxEmptyRecords

/-! ## Writing -/

/-- `c.layer.WriteRecord(ct, payload)` -/
def writeRecord (ct : UInt8) (payload : Bytes) (c : Conn) : Except Err Unit × Conn :=
  match c.layer.writeRecord ct payload with
  | (.ok _, layer) => (.ok (), { c with layer, emitted := c.emitted ++ [⟨ct, payload, true⟩] })
  | (.error e, layer) =>
    (.error e, { c with layer, emitted := c.emitted ++ [⟨ct, payload, false⟩] })

/-- The loop of `Write`, after `written` bytes: write `b` in chunks. Every round takes at least one
    byte off `b`, so as many rounds as it has bytes are enough. -/
def writeLoop : Nat → Nat → Bytes → Conn → (Nat × Option Err) × Conn
  | 0, written, _, c => ((written, none), c)
  | rounds + 1, written, b, c =>
    if b.length = 0 then ((written, none), c)
    else
      let chunk := b.take maxChunk
      match c.writeRecord contentTypeApplicationData chunk with
      | (.error e, c) => ((written, some e), c)
      | (.ok _, c)    => writeLoop rounds (written + chunk.length) (b.drop chunk.length) c

/-- `Write`: the number of bytes written, and the error if there was one. -/
def write (b : Bytes) (c : Conn) : (Nat × Option Err) × Conn :=
  match c.handshake with
  | (.error e, c) => ((0, some e), c)
  | (.ok _, c) =>
    if c.closed then ((0, some errConnClosed), c)
    else c.writeLoop b.length 0 b

/-! ## Closing -/

/-- `Close`: a `close_notify` if the handshake had completed, then the transport is closed. -/
def close (c : Conn) : Except Err Unit × Conn :=
  if c.closed then (.ok (), c)
  else
    let c := { c with closed := true }
    let c := match c.handshakeDone with
      | some (.ok _) => (c.writeRecord contentTypeAlert closeNotifyAlert).2
      | _ => c
    (c.transportClose, c)

end Conn

/-- A call on a connection. -/
inductive ConnOp
  | read (n : Nat)
  | write (b : Bytes)
  | close
  deriving DecidableEq, Repr

/-- What a call returns. -/
inductive ConnResult
  | read (res : Except Err Bytes)
  | write (written : Nat) (err : Option Err)
  | close (res : Except Err Unit)

namespace Conn

def step (c : Conn) : ConnOp → ConnResult × Conn
  | .read n  => let (res, c) := c.read n; (.read res, c)
  | .write b => let ((written, err), c) := c.write b; (.write written err, c)
  | .close   => let (res, c) := c.close; (.close res, c)

/-- A sequence of calls: what they returned, and the connection after them. -/
def run : List ConnOp → Conn → List ConnResult × Conn
  | [], c => ([], c)
  | op :: ops, c =>
    let (res, c) := c.step op
    let (results, c) := run ops c
    (res :: results, c)

end Conn

end Gostls
