import RegistryFront.Acme.IssueError
import RegistryFront.Acme.Resolver
import RegistryFront.Tls.Certified

/-!
# Taking certificates into service

A chain and a key, as PEM texts, take the place of the certificate in service; when they are of no use
the one before stays.
-/

namespace RegistryFront.Acme

open Tls (Certified)

def IssueError.ofPairFault : Tls.PairFault → IssueError
  | .noCertificates => .invalidCertificate "no certificates in PEM chain"
  | .noPrivateKey => .invalidCertificate "no private key in PEM"
  | .tls fault => .tls fault

def certifiedOf (chainPem keyPem : String) : Except IssueError Certified :=
  (Certified.ofPem (Text.Utf8.encode chainPem) (Text.Utf8.encode keyPem)).mapError
    .ofPairFault

def Resolver.servePem (resolver : Resolver Certified) (chainPem keyPem : String) :
    Except IssueError Unit × Resolver Certified :=
  match certifiedOf chainPem keyPem with
  | .ok certified => (.ok (), .serve certified)
  | .error cause => (.error cause, resolver)

end RegistryFront.Acme
