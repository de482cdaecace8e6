import Gostls.Handshake.State

/-!
# `Gostls.Handshake.Certificates` — the server's certificate chain

Parsing and verification dispatch on the signature of the leaf: GOST-signed chains go to the GOST
library, all others to the standard one, each with the intermediates the server sent. A leaf that
carries a GOST key is remembered for the key exchange, whichever way its chain is verified.
-/

namespace Gostls

open Lib

def errGOSTRootsRequired : Err :=
  .new "tls: GOST-signed server certificate but no GOSTRoots configured"
def errGOSTRootsWrongType : Err := .new "tls: ClientParams.GOSTRoots has wrong type"
def errGOSTIntermediatesWrongType : Err := .new "tls: ClientParams.GOSTIntermediates has wrong type"

/-- The roots are required. -/
def extractGOSTRoots : GostPool → Except Err (List GostCertificate)
  | .nil         => .error errGOSTRootsRequired
  | .wrongType t =>
    .error (errGOSTRootsWrongType.detail (": got " ++ t ++ ", want []*x509gost.Certificate"))
  | .certs l     => if l.length = 0 then .error errGOSTRootsRequired else .ok l

/-- The intermediates are optional. -/
def extractGOSTIntermediates : GostPool → Except Err (List GostCertificate)
  | .nil         => .ok []
  | .wrongType t =>
    .error (errGOSTIntermediatesWrongType.detail (": got " ++ t ++ ", want []*x509gost.Certificate"))
  | .certs l     => .ok l

def parseStdlibIntermediates (env : Env) (rawInter : List Bytes) : Except Err (List X509Certificate) :=
  rawInter.mapM fun der => annotate "parse server intermediate certificate" (env.parseX509 der)

def parseGOSTIntermediates (env : Env) (rawInter : List Bytes) : Except Err (List GostCertificate) :=
  rawInter.mapM fun der => annotate "parse server GOST intermediate certificate" (env.parseX509Gost der)

def gostChainsToStdlib (chains : List (List GostCertificate)) : List (List X509Certificate) :=
  chains.map (·.map (·.stdlib))

/-- The chains of a parsed leaf, `nil` when verification is skipped. -/
def verifyChain (env : Env) (params : ClientParams) (gc : GostCertificate) (rawInter : List Bytes) :
    Except Err (List (List X509Certificate)) := do
  if params.insecureSkipVerify then return []
  if gc.isGOST then
    let roots ← extractGOSTRoots params.gostRoots
    let configured ← extractGOSTIntermediates params.gostIntermediates
    let wireInter ← parseGOSTIntermediates env rawInter
    let chains ← annotate "GOST certificate verification failed" (env.verifyX509Gost gc
      { roots, intermediates := configured ++ wireInter, dnsName := params.serverName })
    return gostChainsToStdlib chains
  let intermediates ← parseStdlibIntermediates env rawInter
  annotate "certificate verification failed" (env.verifyX509 gc.stdlib
    { roots := params.rootCAs, intermediates := some intermediates, dnsName := params.serverName })

/-- The leaf and its verified chains. -/
def parseAndVerifyChain (env : Env) (rawCerts : List Bytes) :
    HsM (X509Certificate × List (List X509Certificate)) := do
  match rawCerts with
  | [] => throw .panic
  | rawLeaf :: rawInter =>
    let gc ← annotate "parse server leaf certificate" (env.parseX509Gost rawLeaf)
    if gc.hasGOSTPubKey then modify fun s => { s with gostLeaf := some gc }
    let chains ← verifyChain env (← get).params gc rawInter
    return (gc.stdlib, chains)

end Gostls
