import Gostls.Conn.Authentication
import Gostls.Conn.Basic
import Gostls.Conn.ByteStream
import Gostls.Conn.Closing
import Gostls.Conn.Concurrent
import Gostls.Conn.Config
import Gostls.Conn.InRange
import Gostls.Conn.Linearizable
import Gostls.Conn.Races
import Gostls.Conn.Sides
import Gostls.Conn.Truncation
import Gostls.Env
import Gostls.Go
import Gostls.Handshake.Acceptance
import Gostls.Handshake.Alerts
import Gostls.Handshake.Buffering
import Gostls.Handshake.Certificates
import Gostls.Handshake.Client
import Gostls.Handshake.ClientAuth
import Gostls.Handshake.Codec
import Gostls.Handshake.Completeness
import Gostls.Handshake.Conduct
import Gostls.Handshake.Entropy
import Gostls.Handshake.ExtensionCodec
import Gostls.Handshake.ExtensionReadings
import Gostls.Handshake.Extensions
import Gostls.Handshake.Flights
import Gostls.Handshake.Flow
import Gostls.Handshake.Guarantees
import Gostls.Handshake.InRange
import Gostls.Handshake.KeyAgreement
import Gostls.Handshake.KeyExpansion
import Gostls.Handshake.Keyable
import Gostls.Handshake.Keys
import Gostls.Handshake.Messages
import Gostls.Handshake.OnWire
import Gostls.Handshake.Peer
import Gostls.Handshake.Protocol
import Gostls.Handshake.Reader
import Gostls.Handshake.Refinement
import Gostls.Handshake.Relation
import Gostls.Handshake.Reproducible
import Gostls.Handshake.ServerHello
import Gostls.Handshake.ServerKeyExchange
import Gostls.Handshake.State
import Gostls.Handshake.Strictness
import Gostls.Handshake.Transcript
import Gostls.Handshake.Underway
import Gostls.Handshake.Wire
import Gostls.Ke.Dhe
import Gostls.Ke.DheAgreement
import Gostls.Ke.Ecdhe
import Gostls.Ke.Gost
import Gostls.Ke.GostTransport
import Gostls.Lib.Asn1
import Gostls.Lib.Blind
import Gostls.Lib.Bytes
import Gostls.Lib.Crypto
import Gostls.Lib.Der
import Gostls.Lib.Part
import Gostls.Lib.Program
import Gostls.Lib.Stream
import Gostls.Lib.Threads
import Gostls.Lib.Tiling
import Gostls.Lib.Trace
import Gostls.Record.Aead
import Gostls.Record.Cbc
import Gostls.Record.CbcOpening
import Gostls.Record.Channel
import Gostls.Record.CntStream
import Gostls.Record.CtrOmac
import Gostls.Record.Duplex
import Gostls.Record.Gost28147
import Gostls.Record.Halves
import Gostls.Record.Imit
import Gostls.Record.InRange
import Gostls.Record.Indexed
import Gostls.Record.IndexedGost
import Gostls.Record.Integrity
import Gostls.Record.Layer
import Gostls.Record.Nonce
import Gostls.Record.Output
import Gostls.Record.Protector
import Gostls.Record.Wire
import Gostls.Suites.KeySchedule
import Gostls.Suites.Prf
import Gostls.Suites.Suite
