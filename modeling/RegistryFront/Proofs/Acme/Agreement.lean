import RegistryFront.Acme.Issuer
import RegistryFront.Proofs.Acme.History
import RegistryFront.Proofs.Acme.Kept
import RegistryFront.Proofs.Startup.Identity
import RegistryFront.Tls.Handshake

/-!
# Certificates and protocols

A server chooses the certificate by what the client offers, and the protocol by its own order of
preference.  The two choices fit together unless a client offers the challenge protocol not alone
and nothing of regular traffic.
-/

namespace RegistryFront

open Tls (Certified Negotiation Protocol)

namespace Tls

/-! ## The agreed protocol -/

theorem negotiate_last_iff {preferred offered : List Protocol} {last : Protocol}
    (hlast : last ∉ preferred) :
    negotiate (preferred ++ [last]) offered = .agreed last ↔
      last ∈ offered ∧ ∀ protocol ∈ preferred, protocol ∉ offered := by
  unfold negotiate
  by_cases hnil : offered = []
  · simp [hnil]
  · rw [if_neg hnil, List.find?_append]
    cases hfind : preferred.find? fun protocol => offered.contains protocol with
    | none =>
        simp only [List.find?_eq_none, List.contains_eq_mem, decide_eq_true_eq] at hfind
        by_cases hoffered : last ∈ offered
        · simpa [hoffered] using hfind
        · simp [hoffered]
    | some found =>
        have hmem := List.mem_of_find?_eq_some hfind
        have hfound := List.find?_some hfind
        simp only [List.contains_eq_mem, decide_eq_true_eq] at hfound
        have hne : found ≠ last := fun heq => hlast (heq ▸ hmem)
        constructor
        · intro h
          exact absurd (Negotiation.agreed.inj h) hne
        · rintro ⟨-, hnone⟩
          exact absurd hfound (hnone found hmem)

theorem accept_eq_ok {κ : Type} {resolve : Option String → List Protocol → Option κ}
    {spoken offered : List Protocol} {serverName : Option String} {session : Session κ}
    (h : accept resolve spoken serverName offered = .ok session) :
    resolve serverName offered = some session.certificate ∧
      ∀ protocol, session.protocol = some protocol ↔
        negotiate spoken offered = .agreed protocol := by
  unfold accept at h
  cases hresolve : resolve serverName offered with
  | none => simp [hresolve] at h
  | some certificate =>
      rw [hresolve] at h
      dsimp only at h
      split at h
      · cases h
      · cases hnegotiate : negotiate spoken offered with
        | notAsked =>
            rw [hnegotiate] at h
            cases h
            simp
        | agreed protocol =>
            rw [hnegotiate] at h
            cases h
            simp
        | noneInCommon =>
            rw [hnegotiate] at h
            cases h

theorem accept_of_agreed {κ : Type} {resolve : Option String → List Protocol → Option κ}
    {spoken offered : List Protocol} {serverName : Option String} {certificate : κ}
    {protocol : Protocol} (hresolve : resolve serverName offered = some certificate)
    (hempty : [] ∉ offered) (hnegotiate : negotiate spoken offered = .agreed protocol) :
    accept resolve spoken serverName offered = .ok ⟨certificate, some protocol⟩ := by
  simp [accept, hresolve, hempty, hnegotiate]

end Tls

namespace Acme

variable {σ : Type}

/-! ## What a server speaks -/

theorem acmeChallenge_not_regular : Protocol.acmeChallenge ∉ Protocol.regular := by decide

theorem Issuing.protocols_of_run {issuing : Issuing σ} {settings : Settings (List X509.Anchor)}
    {domains : List String} {world after : Startup.World (Context σ)} {setup : Tls.ServerSetup}
    (h : issuing.issuer.setup settings domains world = (.ok setup, after)) :
    setup.protocols = [.acmeChallenge] := by
  dsimp only [issuer] at h
  rcases hrun : issuing.run settings domains (.start world.inner world.drive) with
    ⟨cause | client, state⟩
  · simp [hrun, Except.map] at h
  · simp only [hrun, Except.map, Prod.mk.injEq, Except.ok.injEq] at h
    rw [← h.1]

theorem Issuing.protocols_of_setupFor {issuing : Issuing σ} {system : List X509.Anchor}
    {config : Config} {world after : Startup.World (Context σ)} {setup : Tls.ServerSetup}
    (h : Startup.setupFor issuing.issuer system config world = (.ok setup, after)) :
    setup.protocols = Protocol.regular ++ [.acmeChallenge] := by
  obtain ⟨question?, hasks⟩ := Startup.setupFor_asks issuing.issuer system config world
  rw [h] at hasks
  cases hasks with
  | granted _ _ hasked =>
      dsimp only
      rw [Issuing.protocols_of_run hasked]
      rfl

/-! ## Clients that stray -/

/-- The challenge protocol is offered, not alone, and no protocol of regular traffic is. -/
structure Strays (offered : List Protocol) : Prop where
  challenge : Protocol.acmeChallenge ∈ offered
  not_alone : offered ≠ [.acmeChallenge]
  not_regular : ∀ protocol ∈ Protocol.regular, protocol ∉ offered

namespace Front

def challenge? (front : Front) (serverName : Option String) : Option Certified :=
  serverName.bind front.board.certificate?

/-- What is in service is not itself the challenge certificate of the name. -/
def Apart (front : Front) (serverName : Option String) : Prop :=
  ∀ certificate, front.resolver.current = some certificate →
    front.challenge? serverName ≠ some certificate

/-- The challenge protocol goes with the challenge certificate. -/
def Agrees (front : Front) (serverName : Option String) (session : Tls.Session Certified) : Prop :=
  session.protocol = some .acmeChallenge ↔
    front.challenge? serverName = some session.certificate

variable {issuing : Issuing σ} {system : List X509.Anchor} {config : Config}
  {world after : Startup.World (Context σ)} {setup : Tls.ServerSetup}

/-- A validation gets both the challenge protocol and the challenge certificate, regular traffic
neither; who strays gets the protocol with the certificate in service. -/
theorem handshake_agrees (hsetup : Startup.setupFor issuing.issuer system config world =
      (.ok setup, after))
    (front : Front) (serverName : Option String) (offered : List Protocol)
    {session : Tls.Session Certified}
    (hsession : Tls.handshake front.resolver front.board setup.protocols serverName offered =
      .ok session) :
    (offered = [.acmeChallenge] → session.protocol = some .acmeChallenge ∧
      front.challenge? serverName = some session.certificate) ∧
    (Strays offered → session.protocol = some .acmeChallenge ∧
      front.resolver.current = some session.certificate) ∧
    (offered ≠ [.acmeChallenge] → ¬ Strays offered →
      session.protocol ≠ some .acmeChallenge ∧
        front.resolver.current = some session.certificate) ∧
    (front.Apart serverName → (front.Agrees serverName session ↔ ¬ Strays offered)) := by
  rw [Issuing.protocols_of_setupFor hsetup] at hsession
  obtain ⟨hselect, hprotocol⟩ := Tls.accept_eq_ok hsession
  have hagreed := hprotocol .acmeChallenge
  rw [Tls.negotiate_last_iff acmeChallenge_not_regular] at hagreed
  -- the certificate turns on whether the client offers the challenge protocol alone
  by_cases halone : offered = [.acmeChallenge]
  · subst halone
    have hchallenge : front.challenge? serverName = some session.certificate :=
      (front.select_validation serverName).symm.trans hselect
    have hspoken : session.protocol = some .acmeChallenge := hagreed.mpr (by decide)
    have hstrays : ¬ Strays [.acmeChallenge] := fun h => h.not_alone rfl
    refine ⟨fun _ => ⟨hspoken, hchallenge⟩, fun h => absurd h hstrays, fun h => absurd rfl h, ?_⟩
    intro _
    simp only [Agrees, hspoken, hchallenge, hstrays, not_false_eq_true]
  · have hserved : front.resolver.current = some session.certificate :=
      (front.select_regular serverName halone).symm.trans hselect
    have hspoken : session.protocol = some .acmeChallenge ↔ Strays offered := by
      rw [hagreed]
      exact ⟨fun h => ⟨h.1, halone, h.2⟩, fun h => ⟨h.challenge, h.not_regular⟩⟩
    refine ⟨fun h => absurd h halone, fun h => ⟨hspoken.mpr h, hserved⟩,
      fun _ h => ⟨mt hspoken.mp h, hserved⟩, ?_⟩
    intro hapart
    rw [Agrees, hspoken, iff_false_right (hapart session.certificate hserved)]

end Front

/-! ### A client that strays -/

namespace FirstCertificate

def issuing : Issuing Unit := ⟨willing, ⟨none, none⟩, Client.defaultRenewBeforeDays⟩

def config : Config where
  domains := ["d"]
  email := none
  ca := some "https://ca.example/directory"
  caRootPath := none
  storagePath := some "acme"
  httpPort := none
  tlsAlpnPort := none
  domains_ne_nil := domains_ne_nil

def keptWorld : Startup.World (Context Unit) :=
  ⟨.ofDisk (kept (some (stored false))), restarted.toContext⟩

def setup : Tls.ServerSetup :=
  ⟨.resolver (.serve (certified false)), Protocol.regularFirst [.acmeChallenge]⟩

theorem run_kept :
    issuing.run settings ["d"] (.start keptWorld.inner keptWorld.drive) =
      (.ok client, serving) := by
  have hmake : Client.make settings issuing.user ["d"] issuing.renewBeforeDays keptWorld.drive =
      (.ok client, keptWorld.drive) := by
    have hdirectory : settings.storageDirectory issuing.user = "acme" := rfl
    have hopen : Store.openAt "acme" keptWorld.drive = (.ok Store.acme, keptWorld.drive) :=
      openAt_kept (some (stored false))
    rw [Client.make, dif_neg domains_ne_nil, hdirectory, hopen]
    rfl
  have hensure : (client.ensureCertificate issuing.outside).on
      (.start keptWorld.inner keptWorld.drive) = (.ok (), serving) := ensureCertificate_restarted
  rw [Issuing.run]
  simp only [State.start] at hensure ⊢
  rw [hmake]
  dsimp only
  rw [hensure]
  rfl

theorem setupFor_kept :
    Startup.setupFor issuing.issuer [] config keptWorld = (.ok setup, keptWorld) := by
  have hsettings : Startup.settingsFor [] keptWorld.drive.disk config = .ok settings := rfl
  have hasked : issuing.issuer.setup settings ["d"] keptWorld =
      (.ok ⟨.resolver (.serve (certified false)), [.acmeChallenge]⟩, keptWorld) := by
    dsimp only [Issuing.issuer]
    rw [run_kept]
    rfl
  have hdomains : config.domains = ["d"] := rfl
  simp only [Startup.setupFor, hsettings, hdomains, hasked]
  rfl

def front : Front :=
  ⟨.serve (certified false), ChallengeBoard.empty.addCertificate "d" (certified true)⟩

def strayed : Tls.Session Certified := ⟨certified false, some .acmeChallenge⟩

theorem challenge_front : front.challenge? (some "d") = some (certified true) := by
  rw [Front.challenge?, Option.bind_some, ChallengeBoard.certificate?]
  exact Table.get?_insert_self ..

theorem handshake_twice :
    Tls.handshake front.resolver front.board setup.protocols (some "d")
      [.acmeChallenge, .acmeChallenge] = .ok strayed := by
  have hselect : front.resolver.select front.board (some "d")
      [.acmeChallenge, .acmeChallenge] = some (certified false) :=
    front.select_regular (some "d") (by decide)
  exact Tls.accept_of_agreed hselect (by decide) (by decide)

theorem strays_twice : Strays [.acmeChallenge, .acmeChallenge] :=
  ⟨by decide, by decide, by decide⟩

theorem apart_front : front.Apart (some "d") := by
  rintro certificate ⟨⟩
  rw [challenge_front]
  exact fun h => certified_ne (Option.some.inj h)

theorem handshake_agrees_twice :
    (Startup.setupFor issuing.issuer [] config keptWorld = (.ok setup, keptWorld) ∧
      Tls.handshake front.resolver front.board setup.protocols (some "d")
        [.acmeChallenge, .acmeChallenge] = .ok strayed) ∧
    front.Apart (some "d") ∧ ¬ front.Agrees (some "d") strayed := by
  have hagrees := Front.handshake_agrees setupFor_kept front (some "d")
    [.acmeChallenge, .acmeChallenge] handshake_twice
  refine ⟨⟨setupFor_kept, handshake_twice⟩, apart_front, fun h => ?_⟩
  exact (hagrees.2.2.2 apart_front).mp h strays_twice

def shared : Front :=
  ⟨.serve (certified true), ChallengeBoard.empty.addCertificate "d" (certified true)⟩

theorem handshake_shared :
    Tls.handshake shared.resolver shared.board setup.protocols (some "d") [.http2] =
      .ok ⟨certified true, some .http2⟩ := by
  have hselect : shared.resolver.select shared.board (some "d") [.http2] = some (certified true) :=
    shared.select_regular (some "d") (by decide)
  exact Tls.accept_of_agreed hselect (by decide) (by decide)

/-- The challenge protocol can be agreed on with the certificate in service.  Where that is itself
the challenge certificate, regular traffic gets it too. -/
theorem not_handshake_agrees :
    (¬ ∀ (issuing : Issuing Unit) (system : List X509.Anchor) (config : Config)
      (world after : Startup.World (Context Unit)) (setup : Tls.ServerSetup) (front : Front)
      (serverName : Option String) (offered : List Protocol) (session : Tls.Session Certified),
      Startup.setupFor issuing.issuer system config world = (.ok setup, after) →
      Tls.handshake front.resolver front.board setup.protocols serverName offered = .ok session →
      front.Agrees serverName session) ∧
    Tls.handshake shared.resolver shared.board setup.protocols (some "d") [.http2] =
      .ok ⟨certified true, some .http2⟩ ∧
    ¬ shared.Agrees (some "d") ⟨certified true, some .http2⟩ := by
  refine ⟨?_, handshake_shared, ?_⟩
  · intro h
    have hagrees := h issuing [] config keptWorld keptWorld setup front (some "d")
      [.acmeChallenge, .acmeChallenge] strayed setupFor_kept handshake_twice
    have hchallenge := hagrees.mp rfl
    rw [challenge_front, Option.some_inj] at hchallenge
    exact certified_ne hchallenge
  · intro h
    have hspoken := h.mpr challenge_front
    exact absurd hspoken (by decide)

end FirstCertificate

end Acme

end RegistryFront
