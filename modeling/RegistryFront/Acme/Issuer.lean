import RegistryFront.Acme.Renewal
import RegistryFront.Startup.Provider

/-!
# The issuer

Sets up a server with a certificate from an authority.  The server also speaks the challenge protocol,
so that later validations can take place where it listens.
-/

namespace RegistryFront.Acme

structure Issuing (σ : Type) where
  outside : Outside σ
  user : UserDirectories
  renewBeforeDays : Nat

namespace Issuing

variable {σ : Type} (issuing : Issuing σ)

def run (settings : Settings (List X509.Anchor)) (domains : List String) (state : State σ) :
    Except IssueError Client × State σ :=
  match Client.make settings issuing.user domains issuing.renewBeforeDays state.drive with
  | (.error cause, drive) => (.error cause, { state with drive := drive })
  | (.ok client, drive) =>
      let (result, state) :=
        (client.ensureCertificate issuing.outside).on { state with drive := drive }
      (result.map fun _ => client, state)

def issuer : Startup.Issuer (Context σ) :=
  ⟨fun settings domains world =>
    let (result, state) := issuing.run settings domains (.start world.inner world.drive)
    (result.map fun _ => ⟨.resolver state.resolver, [Tls.Protocol.acmeChallenge]⟩,
      ⟨state.drive, state.toContext⟩)⟩

end Issuing

end RegistryFront.Acme
