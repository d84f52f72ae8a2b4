import RegistryFront.Table

/-!
# Pending challenges

What the authority is to find when it validates a domain: texts to be fetched under a token, and
certificates to be presented for a domain.  Domains count alike in either case of ASCII letters.
-/

namespace RegistryFront.Acme

structure ChallengeBoard (κ : Type) where
  texts : Table String String
  /-- Domain in small letters to certificate. -/
  certificates : Table String κ
  deriving DecidableEq

namespace ChallengeBoard

variable {κ : Type}

def empty : ChallengeBoard κ := ⟨.empty, .empty⟩

instance : Inhabited (ChallengeBoard κ) := ⟨empty⟩

def fold (domain : String) : String := domain.map Char.toLower

def text? (board : ChallengeBoard κ) (token : String) : Option String := board.texts.get? token

def addText (board : ChallengeBoard κ) (token keyAuthorization : String) : ChallengeBoard κ :=
  { board with texts := board.texts.insert token keyAuthorization }

def removeText (board : ChallengeBoard κ) (token : String) : ChallengeBoard κ :=
  { board with texts := board.texts.erase token }

def certificate? (board : ChallengeBoard κ) (domain : String) : Option κ :=
  board.certificates.get? (fold domain)

def addCertificate (board : ChallengeBoard κ) (domain : String) (certificate : κ) :
    ChallengeBoard κ :=
  { board with certificates := board.certificates.insert (fold domain) certificate }

def removeCertificate (board : ChallengeBoard κ) (domain : String) : ChallengeBoard κ :=
  { board with certificates := board.certificates.erase (fold domain) }

def pending (board : ChallengeBoard κ) : Nat := board.texts.size + board.certificates.size

end ChallengeBoard

/-! ## Paths -/

def challengePath : String := "/.well-known/acme-challenge/"

def tokenOfPath? (path : String) : Option String :=
  if challengePath.toList.isPrefixOf path.toList then
    some (String.ofList (path.toList.drop challengePath.length))
  else none

end RegistryFront.Acme
