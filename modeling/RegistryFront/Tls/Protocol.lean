import RegistryFront.Text.Utf8

/-!
# Application protocols

The client of a handshake lists the protocols it offers, the server those it speaks.  The first of the
server's that the client offers is agreed on.
-/

namespace RegistryFront.Tls

abbrev Protocol := Bytes

namespace Protocol

def named (name : String) : Protocol := Text.Utf8.encode name

def http2 : Protocol := named "h2"

def http1 : Protocol := named "http/1.1"

/-- What the authority offers, and nothing else, when it validates a domain. -/
def acmeChallenge : Protocol := named "acme-tls/1"

def regular : List Protocol := [http2, http1]

def regularFirst (others : List Protocol) : List Protocol := regular ++ others

end Protocol

inductive Negotiation where
  | notAsked
  | agreed (protocol : Protocol)
  | noneInCommon
  deriving DecidableEq, Repr

def negotiate (spoken offered : List Protocol) : Negotiation :=
  if offered = [] then .notAsked
  else
    match spoken.find? fun protocol => offered.contains protocol with
    | some protocol => .agreed protocol
    | none => .noneInCommon

end RegistryFront.Tls
