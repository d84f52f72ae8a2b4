import RegistryFront.Acme.Renewal
import RegistryFront.Proofs.Acme.Keeping
import RegistryFront.Proofs.Acme.Success

/-!
# A service over its restarts

Clients for the same domains and the same store come one after the other.  Each makes sure that
there is a certificate and looks now and then whether it is due.  Whatever befalls the disk on the
way, a certificate that is taken from the store is the work of a single call.
-/

namespace RegistryFront.Acme

open Time (Instant)

variable {σ : Type} {outside : Outside σ}

structure Deployment where
  store : Store
  domains : List String
  domains_ne_nil : domains ≠ []
  renewBeforeDays : Nat

inductive Operation where
  | ensure
  | check
  | wait (nanos : Nat)
  | restart (settings : Settings (List X509.Anchor)) (user : UserDirectories)

structure Service (σ : Type) where
  client? : Option Client
  state : State σ

namespace Deployment

variable (deployment : Deployment)

def primaryDomain : String := deployment.domains.head deployment.domains_ne_nil

structure Has (client : Client) : Prop where
  store : client.store = deployment.store
  domains : client.domains = deployment.domains
  renewBeforeDays : client.renewBeforeDays = deployment.renewBeforeDays

def Allows : Operation → Prop
  | .restart settings user => settings.storageDirectory user = deployment.store.basePath
  | _ => True

/-! ## Steps -/

def restarted (settings : Settings (List X509.Anchor)) (user : UserDirectories) (state : State σ) :
    Service σ :=
  let (made, drive) :=
    Client.make settings user deployment.domains deployment.renewBeforeDays state.drive
  ⟨made.toOption, .start state.toContext drive⟩

def step (outside : Outside σ) (service : Service σ) : Operation → Service σ
  | .ensure =>
      match service.client? with
      | some client => ⟨client, ((client.ensureCertificate outside).on service.state).2⟩
      | none => service
  | .check =>
      match service.client? with
      | some client => ⟨client, ((client.checkRenewal outside).on service.state).2⟩
      | none => service
  | .wait nanos => ⟨service.client?, service.state.slept outside nanos⟩
  | .restart settings user => deployment.restarted settings user service.state

end Deployment

def Service.issued (outside : Outside σ) (service : Service σ) :
    Operation → Option (Except IssueError StoredCertificate)
  | .ensure =>
      service.client?.bind fun client =>
        match client.loadValid.on service.state with
        | (.ok none, state) => some ((client.issue outside).on state).1
        | _ => none
  | .check =>
      service.client?.bind fun client =>
        match client.isDue.on service.state with
        | (.ok true, state) => some ((client.issue outside).on state).1
        | _ => none
  | .wait _ => none
  | .restart .. => none

/-- The service may come to this, with these calls to `issue` in order.  At first the store's
directory is empty; the clock is never put back and knows no leap seconds. -/
inductive Deployment.Reached (deployment : Deployment) (outside : Outside σ) (root : Files.Place) :
    Service σ → List (Except IssueError StoredCertificate) → Prop where
  | start {state : State σ} (hempty : deployment.store.EmptyAt root state.drive.disk)
      (hregular : state.wall.Regular) : Reached deployment outside root ⟨none, state⟩ []
  | step {service : Service σ} {calls : List (Except IssueError StoredCertificate)}
      (h : Reached deployment outside root service calls) (operation : Operation)
      (hallowed : deployment.Allows operation)
      (hclock : service.state.wall.notAfter
        (deployment.step outside service operation).state.wall = true)
      (hregular : (deployment.step outside service operation).state.wall.Regular) :
      Reached deployment outside root (deployment.step outside service operation)
        (calls ++ (service.issued outside operation).toList)

/-! ## What an operation does to the disk -/

theorem serve_drive (certificate : StoredCertificate) (state : State σ) :
    ((serve certificate).on state).2.drive = state.drive := by
  rw [serve, Run.on_of]

namespace Client

variable (client : Client)

theorem isDue_on (state : State σ) :
    client.isDue.on state = ((client.store.isDue state.drive.disk state.wall client.primaryDomain
      client.domains client.renewBeforeDays).mapError .ofDue, state) := rfl

theorem loadValid_on (state : State σ) :
    client.loadValid.on state = (match client.store.isDue state.drive.disk state.wall
        client.primaryDomain client.domains client.renewBeforeDays with
      | .error cause => .error (.ofDue cause)
      | .ok true => .ok none
      | .ok false => (client.store.load state.drive.disk client.primaryDomain).mapError .store,
      state) := by
  rw [loadValid, Run.on_bind, isDue_on]
  cases client.store.isDue state.drive.disk state.wall client.primaryDomain client.domains
      client.renewBeforeDays with
  | error => rfl
  | ok due => cases due <;> rfl

inductive Does (outside : Outside σ) (state after : State σ) :
    Option (Except IssueError StoredCertificate) → Prop where
  | idle (hdrive : after.drive = state.drive) : Does outside state after none
  | issue
      (hdue : client.store.isDue state.drive.disk state.wall client.primaryDomain client.domains
        client.renewBeforeDays = .ok true)
      (hdrive : after.drive = ((client.issue outside).on state).2.drive) :
      Does outside state after (some ((client.issue outside).on state).1)

theorem ensureCertificate_does (state : State σ) :
    client.Does outside state ((client.ensureCertificate outside).on state).2
      (Service.issued outside ⟨some client, state⟩ .ensure) := by
  simp only [ensureCertificate, validCertificate, Run.on_bind, loadValid_on, Service.issued,
    Option.bind_some]
  cases hdue : client.store.isDue state.drive.disk state.wall client.primaryDomain client.domains
      client.renewBeforeDays with
  | error => exact .idle rfl
  | ok due =>
      cases due with
      | true =>
          refine .issue hdue ?_
          dsimp only
          rcases (client.issue outside).on state with ⟨_ | certificate, after⟩
          · rfl
          · exact serve_drive certificate after
      | false =>
          obtain ⟨found, hload, -⟩ := Store.fresh_of_isDue hdue
          simp only [hload, Except.mapError, Run.on_pure]
          exact .idle (serve_drive found state)

theorem checkRenewal_does (state : State σ) :
    client.Does outside state ((client.checkRenewal outside).on state).2
      (Service.issued outside ⟨some client, state⟩ .check) := by
  simp only [checkRenewal, Run.on_bind, isDue_on, Service.issued, Option.bind_some]
  cases hdue : client.store.isDue state.drive.disk state.wall client.primaryDomain client.domains
      client.renewBeforeDays with
  | error => exact .idle rfl
  | ok due =>
      cases due with
      | true =>
          refine .issue hdue ?_
          simp only [Except.mapError, if_true, Run.on_bind]
          rcases (client.issue outside).on state with ⟨_ | certificate, after⟩
          · rfl
          · have hserve := serve_drive certificate after
            dsimp only
            rcases hserved : (serve certificate).on after with ⟨_ | _, served⟩ <;>
              rw [hserved] at hserve <;> exact hserve
      | false => exact .idle rfl

end Client

/-! ## The invariant -/

namespace Deployment

variable (deployment : Deployment) {root : Files.Place}

def shelf (state : State σ) : Store.Shelf :=
  deployment.store.shelf state.drive.disk deployment.primaryDomain

structure Sound (root : Files.Place) (service : Service σ)
    (calls : List (Except IssueError StoredCertificate)) : Prop where
  client : ∀ client, service.client? = some client → deployment.Has client
  keeps : deployment.store.Keeps root service.state.drive.disk
  regular : service.state.wall.Regular
  files : ShelfAfter calls.getLast? (deployment.shelf service.state) service.state.wall
    deployment.domains deployment.renewBeforeDays

variable {deployment}

theorem Has.primaryDomain {client : Client} (h : deployment.Has client) :
    client.primaryDomain = deployment.primaryDomain := by
  simp only [Client.primaryDomain, Deployment.primaryDomain, h.domains]

theorem Sound.of_does {client : Client} {state after : State σ}
    {calls : List (Except IssueError StoredCertificate)}
    {issued : Option (Except IssueError StoredCertificate)}
    (h : deployment.Sound root ⟨some client, state⟩ calls)
    (hdomain : Store.Inner deployment.primaryDomain)
    (hdoes : client.Does outside state after issued)
    (hclock : state.wall.notAfter after.wall = true) (hregular : after.wall.Regular) :
    deployment.Sound root ⟨some client, after⟩ (calls ++ issued.toList) := by
  have hhas := h.client client rfl
  obtain ⟨hclient, hkeeps, hnow, hfiles⟩ := h
  cases hdoes with
  | idle hdrive =>
      refine ⟨hclient, by rw [hdrive]; exact hkeeps, hregular, ?_⟩
      have hlater := hfiles.mono hclock
      rw [Option.toList_none, List.append_nil, shelf, hdrive]
      exact hlater
  | issue hdue hdrive =>
      -- only what is due is overwritten, and until the new record stands it stays due
      have hordered : (client.store.shelf state.drive.disk client.primaryDomain).Ordered := by
        rw [hhas.store, hhas.primaryDomain]
        exact hfiles.ordered
      have hspent := Store.spent_of_isDue hnow hordered hdue
      rw [← hhas.store] at hkeeps
      rw [← hhas.primaryDomain] at hdomain
      have hissue := client.shelf_after_issue outside hkeeps hdomain hordered hspent
      rw [hhas.store, hhas.primaryDomain, hhas.domains, hhas.renewBeforeDays] at hissue
      refine ⟨hclient, by rw [hdrive]; exact hissue.1, hregular, ?_⟩
      rw [Option.toList_some, List.getLast?_append, List.getLast?_singleton, Option.some_or, shelf,
        hdrive]
      exact hissue.2.mono hclock

theorem restarted_spec {settings : Settings (List X509.Anchor)} {user : UserDirectories}
    (state : State σ) (hallowed : settings.storageDirectory user = deployment.store.basePath) :
    (∀ client, (deployment.restarted settings user state).client? = some client →
      deployment.Has client) ∧
    (deployment.restarted settings user state).state.drive =
      (state.drive.performAll deployment.store.openActions).2 ∧
    (deployment.restarted settings user state).state.wall = state.wall := by
  unfold restarted Client.make
  rw [dif_neg deployment.domains_ne_nil, hallowed]
  cases hopen : Store.openAt deployment.store.basePath state.drive with
  | mk opened drive =>
      have hdrive := Store.performAll_of_openAt hopen
      cases opened with
      | error => exact ⟨nofun, hdrive.symm, rfl⟩
      | ok store =>
          refine ⟨fun client hclient => ?_, hdrive.symm, rfl⟩
          obtain rfl := Option.some.inj hclient
          exact ⟨(Store.openAt_eq_ok hopen).1, rfl, rfl⟩

theorem Sound.step {service : Service σ} {calls : List (Except IssueError StoredCertificate)}
    (h : deployment.Sound root service calls) (hdomain : Store.Inner deployment.primaryDomain)
    (operation : Operation) (hallowed : deployment.Allows operation)
    (hclock : service.state.wall.notAfter
      (deployment.step outside service operation).state.wall = true)
    (hregular : (deployment.step outside service operation).state.wall.Regular) :
    deployment.Sound root (deployment.step outside service operation)
      (calls ++ (service.issued outside operation).toList) := by
  obtain ⟨client?, state⟩ := service
  cases operation with
  | ensure =>
      cases client? with
      | none => simpa [Deployment.step, Service.issued] using h
      | some client =>
          dsimp only [Deployment.step] at hclock hregular ⊢
          exact h.of_does hdomain (client.ensureCertificate_does state) hclock hregular
  | check =>
      cases client? with
      | none => simpa [Deployment.step, Service.issued] using h
      | some client =>
          dsimp only [Deployment.step] at hclock hregular ⊢
          exact h.of_does hdomain (client.checkRenewal_does state) hclock hregular
  | wait nanos =>
      rw [Service.issued, Option.toList_none, List.append_nil]
      exact ⟨h.client, h.keeps, hregular, h.files.mono hclock⟩
  | restart settings user =>
      rw [Service.issued, Option.toList_none, List.append_nil]
      obtain ⟨hclient, hdrive, hwall⟩ := restarted_spec state hallowed
      obtain ⟨hkeeps, hshelf⟩ := h.keeps.performAll hdomain Store.elsewhere_openActions
      refine ⟨hclient, ?_, hregular, ?_⟩
      · rw [Deployment.step, hdrive]
        exact hkeeps
      · rw [Deployment.step, shelf, hdrive, hwall, hshelf]
        exact h.files

theorem Reached.sound {service : Service σ} {calls : List (Except IssueError StoredCertificate)}
    (h : deployment.Reached outside root service calls)
    (hdomain : Store.Inner deployment.primaryDomain) : deployment.Sound root service calls := by
  induction h with
  | start hempty hregular =>
      have hmissing := hempty.shelf_eq hdomain .record
      refine ⟨nofun, hempty.keeps, hregular, fun hrecord => absurd hmissing hrecord, ?_⟩
      rintro record ⟨content, text, hcontent, -⟩
      exact absurd (hmissing.symm.trans hcontent) nofun
  | step _ operation hallowed hclock hregular ih =>
      exact ih.step hdomain operation hallowed hclock hregular

end Deployment

/-- What may come of taking a certificate from the store, after calls of which the last one had this
result: what that call wrote, all three texts of it, and nothing unless it succeeded. -/
inductive TakenAfter : Option (Except IssueError StoredCertificate) →
    Except IssueError (Option StoredCertificate) → Prop where
  | written {certificate found : StoredCertificate} (h : certificate.ReadsAs found) :
      TakenAfter (some (.ok certificate)) (.ok (some found))
  | nothing {last : Option (Except IssueError StoredCertificate)} : TakenAfter last (.ok none)
  | failed {last : Option (Except IssueError StoredCertificate)} {cause : IssueError} :
      TakenAfter last (.error cause)

namespace Deployment

variable {deployment : Deployment} {root : Files.Place}

/-- Over a domain that is a host name, and so `Inner`: whatever has happened to the service, a client
that takes the certificate from the store finds what the last call to `issue` wrote, whole, or it finds
nothing.  Mishaps strike what changes the disk; what is there can be looked up and read. -/
theorem Reached.takenAfter_loadValid {service : Service σ}
    {calls : List (Except IssueError StoredCertificate)}
    (h : deployment.Reached outside root service calls)
    (hdomain : Store.Inner deployment.primaryDomain) {client : Client}
    (hclient : service.client? = some client) :
    TakenAfter calls.getLast? (client.loadValid.on service.state).1 := by
  obtain ⟨hall, hkeeps, hregular, hfiles⟩ := h.sound hdomain
  have hhas := hall client hclient
  rw [Client.loadValid_on, hhas.store, hhas.primaryDomain, hhas.domains, hhas.renewBeforeDays]
  cases hdue : deployment.store.isDue service.state.drive.disk service.state.wall
      deployment.primaryDomain deployment.domains deployment.renewBeforeDays with
  | error => exact .failed
  | ok due =>
      cases due with
      | true => exact .nothing
      | false =>
          obtain ⟨found, hload, -⟩ := Store.fresh_of_isDue hdue
          dsimp only
          rw [hload]
          unfold ShelfAfter at hfiles
          split at hfiles
          · next certificate hlast =>
              rw [hlast]
              refine .written (Store.Shelf.readsAs_of_load ?_)
              rw [← hfiles]
              exact (Store.load_eq ..).symm.trans hload
          · -- what is there after a failure is due, at this time as at every later one
            exact absurd hdue (hfiles.2.isDue_ne hregular)

end Deployment

/-! ### A service that begins -/

namespace FirstCertificate

open Keys (Entropy)

def deployment : Deployment :=
  ⟨Store.acme, ["d"], domains_ne_nil, Client.defaultRenewBeforeDays⟩

theorem inner_primaryDomain : Store.Inner deployment.primaryDomain := ⟨by decide, by decide⟩

def before (entropy : Entropy) : Service Unit :=
  ⟨none, .start ⟨(), 0, .epoch, entropy, []⟩ (.ofDisk Store.emptyAcme)⟩

def opened (entropy : Entropy) : Service Unit := ⟨some client, begun entropy⟩

def ensured (entropy : Entropy) : Service Unit :=
  deployment.step willing (opened entropy) .ensure

def Still (before after : State Unit) : Prop := before.wall = .epoch → after.wall = .epoch

instance : IsPreorder (State Unit) Still where
  refl _ h := h
  trans _ _ _ h h' hbefore := h' (h hbefore)

theorem ensureCertificate_still : (client.ensureCertificate willing).Within Still := by
  have hallows : willing.Allows Still :=
    ⟨inferInstance, fun _ _ _ _ => rfl, fun _ h => h, fun _ _ _ => rfl⟩
  have hissue : (client.issue willing).Within Still := by
    exact client.issue_within hallows ⟨fun _ _ h => h, fun _ _ h => h⟩ (fun _ _ _ _ _ h => h)
      fun _ _ h => h
  have hvalid : (client.validCertificate willing).Within Still := by
    have hload : (client.loadValid (σ := Unit)).Within Still := fun state h => by
      rwa [Client.loadValid_on]
    refine Run.within_bind hload fun found => ?_
    cases found with
    | none => exact hissue
    | some => exact Run.within_pure _
  exact Run.within_bind hvalid fun certificate _ h => h

variable (entropy : Entropy)

theorem step_restart :
    deployment.step willing (before entropy) (.restart settings ⟨none, none⟩) = opened entropy := by
  have hdirectory : settings.storageDirectory ⟨none, none⟩ = "acme" := rfl
  have hopen : Store.openAt "acme" (before entropy).state.drive =
      (.ok Store.acme, .ofDisk (Store.openAcme [])) := Store.openAt_acme
  rw [Deployment.step, Deployment.restarted, Client.make, dif_neg deployment.domains_ne_nil,
    hdirectory, hopen]
  rfl

theorem wall_ensured : (ensured entropy).state.wall = .epoch :=
  ensureCertificate_still (begun entropy) rfl

theorem reached_opened : deployment.Reached willing ["acme"] (opened entropy) [] := by
  have hbefore : deployment.Reached willing ["acme"] (before entropy) [] :=
    .start Store.emptyAt_acme Time.Instant.regular_epoch
  have hrestart := hbefore.step (.restart settings ⟨none, none⟩) rfl
  rw [step_restart] at hrestart
  exact hrestart (Time.Instant.notAfter_refl _) Time.Instant.regular_epoch

theorem reached_ensured : deployment.Reached willing ["acme"] (ensured entropy)
    ((opened entropy).issued willing .ensure).toList := by
  refine (reached_opened entropy).step .ensure trivial ?_ ?_
  · rw [← ensured, wall_ensured]
    exact Time.Instant.notAfter_refl _
  · rw [← ensured, wall_ensured]
    exact Time.Instant.regular_epoch

theorem client_ensured : (ensured entropy).client? = some client := rfl

theorem takenAfter_first :
    deployment.Reached willing ["acme"] (ensured (.ofSeed []))
        ((opened (.ofSeed [])).issued willing .ensure).toList ∧
      TakenAfter ((opened (.ofSeed [])).issued willing .ensure).toList.getLast?
        (client.loadValid.on (ensured (.ofSeed [])).state).1 := by
  have hreached := reached_ensured (.ofSeed [])
  have htaken := hreached.takenAfter_loadValid inner_primaryDomain (client_ensured (.ofSeed []))
  exact ⟨hreached, htaken⟩

end FirstCertificate

end RegistryFront.Acme
