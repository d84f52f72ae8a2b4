import RegistryFront.Proofs.Acme.Kept

/-!
# What is served and what is stored

A look renews what the store holds if that is due, and a renewed certificate is taken into service.
What came into the store in another way is not: unless a look renews, what is served stays what a
call took into service last, whatever the store holds by then.
-/

namespace RegistryFront

namespace Store

open Files

/-! ## Other processes -/

inductive Job where
  | openStore
  | saveCredentials (directoryUrl text : String)
  | saveCertificate (certificate : StoredCertificate)

def Job.actions (store : Store) (domain : String) : Job → List Action
  | .openStore => store.openActions
  | .saveCredentials directoryUrl text => secretActions (store.accountPath directoryUrl) text
  | .saveCertificate certificate => store.saveActions domain certificate

theorem Keeps.performAll_job {store : Store} {root : Place} {domain : String} {drive : Drive}
    (h : store.Keeps root drive.disk) (hdomain : Inner domain) (job : Job) :
    store.Keeps root (drive.performAll (job.actions store domain)).2.disk := by
  cases job with
  | openStore => exact (h.performAll hdomain elsewhere_openActions).1
  | saveCredentials directoryUrl text =>
      exact (h.performAll hdomain (elsewhere_saveCredentials directoryUrl text)).1
  | saveCertificate certificate => exact (h.shelf_after_save hdomain certificate).1

end Store

namespace Acme

variable {σ : Type} {outside : Outside σ}

/-! ## What is in service -/

namespace State

def Presents (state : State σ) (certificate : StoredCertificate) : Prop :=
  ∃ certified, certifiedOf certificate.chainPem certificate.keyPem = .ok certified ∧
    state.resolver.current = some certified

theorem presents_of_serve {certificate : StoredCertificate} {state after : State σ}
    (h : (serve certificate).on state = (.ok (), after)) : after.Presents certificate := by
  rw [serve_on] at h
  cases hcertified : certifiedOf certificate.chainPem certificate.keyPem with
  | error cause => simp [hcertified] at h
  | ok certified =>
      rw [hcertified] at h
      obtain ⟨-, rfl⟩ := Prod.mk.inj h
      exact ⟨certified, hcertified, rfl⟩

theorem Presents.iff_of_presents {state : State σ} {last certificate : StoredCertificate}
    (h : state.Presents last) :
    state.Presents certificate ↔
      certifiedOf certificate.chainPem certificate.keyPem =
        certifiedOf last.chainPem last.keyPem := by
  obtain ⟨certified, hlast, hcurrent⟩ := h
  constructor
  · rintro ⟨other, hother, hother'⟩
    rw [hcurrent, Option.some.injEq] at hother'
    rw [hother, hlast, hother']
  · intro heq
    exact ⟨certified, heq.trans hlast, hcurrent⟩

def SameResolver (before after : State σ) : Prop := after.resolver = before.resolver

instance : IsPreorder (State σ) SameResolver where
  refl _ := rfl
  trans _ _ _ h h' := Eq.trans h' h

theorem Presents.of_sameResolver {before after : State σ} {certificate : StoredCertificate}
    (h : before.Presents certificate) (hsame : before.SameResolver after) :
    after.Presents certificate := by
  obtain ⟨certified, hcertified, hcurrent⟩ := h
  exact ⟨certified, hcertified, by rw [hsame, hcurrent]⟩

end State

namespace Client

variable (client : Client)

theorem issue_sameResolver (outside : Outside σ) :
    (client.issue outside).Within State.SameResolver := by
  have hallows : outside.Allows State.SameResolver :=
    ⟨inferInstance, fun _ _ _ => rfl, fun _ => rfl, fun _ _ => rfl⟩
  exact client.issue_within hallows ⟨fun _ _ => rfl, fun _ _ => rfl⟩ (fun _ _ _ _ _ => rfl)
    fun _ _ => rfl

/-! ## A look -/

inductive Looks (outside : Outside σ) (state : State σ) :
    Except IssueError Bool × State σ → Prop where
  | undecided {cause : IssueError} : Looks outside state (.error cause, state)
  | notDue
      (hdue : client.store.isDue state.drive.disk state.wall client.primaryDomain client.domains
        client.renewBeforeDays = .ok false) :
      Looks outside state (.ok false, state)
  | notIssued {cause : IssueError} {after : State σ}
      (hissue : (client.issue outside).on state = (.error cause, after)) :
      Looks outside state (.error cause, after)
  | notServed {certificate : StoredCertificate} {cause : IssueError} {after : State σ}
      (hissue : (client.issue outside).on state = (.ok certificate, after))
      (hserve : (serve certificate).on after = (.error cause, after)) :
      Looks outside state (.error cause, after)
  | renewed {certificate : StoredCertificate} {issued after : State σ}
      (hissue : (client.issue outside).on state = (.ok certificate, issued))
      (hserve : (serve certificate).on issued = (.ok (), after)) :
      Looks outside state (.ok true, after)

theorem checkRenewal_looks (outside : Outside σ) (state : State σ) :
    client.Looks outside state ((client.checkRenewal outside).on state) := by
  simp only [checkRenewal, Run.on_bind, isDue_on]
  cases hdue : client.store.isDue state.drive.disk state.wall client.primaryDomain client.domains
      client.renewBeforeDays with
  | error => exact .undecided
  | ok due =>
      cases due with
      | false => exact .notDue hdue
      | true =>
          simp only [Except.mapError, if_true, Run.on_bind]
          rcases hissue : (client.issue outside).on state with ⟨_ | certificate, issued⟩
          · exact .notIssued hissue
          · have hserve := serve_on certificate issued
            dsimp only
            cases hcertified : certifiedOf certificate.chainPem certificate.keyPem with
            | error =>
                rw [hcertified] at hserve
                rw [hserve]
                exact .notServed hissue hserve
            | ok =>
                rw [hcertified] at hserve
                rw [hserve]
                exact .renewed hissue hserve

/-! ## A service that runs -/

inductive Happens (outside : Outside σ) (state : State σ) :
    Option StoredCertificate → State σ → Prop where
  | looked {result : Except IssueError Bool} {after : State σ}
      (hcheck : (client.checkRenewal outside).on state = (result, after))
      (hresult : result ≠ .ok true) : Happens outside state none after
  | renewed {certificate : StoredCertificate} {issued after : State σ}
      (hissue : (client.issue outside).on state = (.ok certificate, issued))
      (hcheck : (client.checkRenewal outside).on state = (.ok true, after)) :
      Happens outside state (some certificate) after
  | waited (nanos : Nat) : Happens outside state none (state.slept outside nanos)
  /-- Another process, which may fail in its own ways, works in the same directory. -/
  | elsewhere {drive : Files.Drive} {disk : Files.Disk} (hbefore : drive.disk = state.drive.disk)
      {domain : String} (hdomain : Store.Inner domain) (job : Store.Job)
      (hafter : (drive.performAll (job.actions client.store domain)).2.disk = disk) :
      Happens outside state none { state with drive := { state.drive with disk := disk } }

/-- The service has come to this since it made sure that there is a certificate; the one named is
the last that it took into service. -/
inductive Watched (outside : Outside σ) (root : Files.Place) :
    State σ → StoredCertificate → Prop where
  | ensured {certificate : StoredCertificate} {state valid after : State σ}
      (hkeeps : client.store.Keeps root state.drive.disk)
      (hvalid : (client.validCertificate outside).on state = (.ok certificate, valid))
      (hensure : (client.ensureCertificate outside).on state = (.ok (), after)) :
      Watched outside root after certificate
  | step {state after : State σ} {last : StoredCertificate} {taken : Option StoredCertificate}
      (h : Watched outside root state last) (hhappens : client.Happens outside state taken after) :
      Watched outside root after (taken.getD last)

structure Serves (root : Files.Place) (state : State σ) (last : StoredCertificate) : Prop where
  keeps : client.store.Keeps root state.drive.disk
  presents : state.Presents last

variable {client} {root : Files.Place} {state after : State σ} {last : StoredCertificate}

theorem keeps_of_issue (hkeeps : client.store.Keeps root state.drive.disk)
    (hdomain : Store.Inner client.primaryDomain) {result : Except IssueError StoredCertificate}
    (hissue : (client.issue outside).on state = (result, after)) :
    client.store.Keeps root after.drive.disk := by
  have hafter := client.shelf_of_issue outside hkeeps hdomain
  rw [hissue] at hafter
  exact hafter.1

theorem drive_of_serve {certificate : StoredCertificate} {result : Except IssueError Unit}
    (hserve : (serve certificate).on state = (result, after)) : after.drive = state.drive := by
  have hdrive := serve_drive certificate state
  rwa [hserve] at hdrive

theorem Serves.of_looks (h : client.Serves root state last)
    (hdomain : Store.Inner client.primaryDomain) {result : Except IssueError Bool}
    (hlooks : client.Looks outside state (result, after)) (hresult : result ≠ .ok true) :
    client.Serves root after last := by
  have hissued {issued : State σ} {made : Except IssueError StoredCertificate}
      (hissue : (client.issue outside).on state = (made, issued)) :
      client.Serves root issued last := by
    refine ⟨keeps_of_issue h.keeps hdomain hissue, h.presents.of_sameResolver ?_⟩
    have hsame := client.issue_sameResolver outside state
    rwa [hissue] at hsame
  cases hlooks with
  | undecided => exact h
  | notDue => exact h
  | notIssued hissue => exact hissued hissue
  | notServed hissue => exact hissued hissue
  | renewed => exact absurd rfl hresult

theorem Looks.presents_of_renewed (hkeeps : client.store.Keeps root state.drive.disk)
    (hdomain : Store.Inner client.primaryDomain)
    (hlooks : client.Looks outside state (.ok true, after)) :
    ∃ certificate issued, (client.issue outside).on state = (.ok certificate, issued) ∧
      client.Serves root after certificate ∧
      client.store.shelf after.drive.disk client.primaryDomain =
        Store.Shelf.ofTexts certificate.text := by
  cases hlooks with
  | renewed hissue hserve =>
      rename_i certificate issued
      have hdrive := drive_of_serve hserve
      have hstored := client.shelf_of_issue outside hkeeps hdomain
      rw [hissue] at hstored
      obtain ⟨hafter, ⟨_, hcertificate, hshelf⟩ | ⟨⟨_, herror⟩, -⟩⟩ := hstored
      · obtain rfl := Except.ok.inj hcertificate
        rw [← hdrive] at hafter hshelf
        exact ⟨certificate, issued, hissue, ⟨hafter, State.presents_of_serve hserve⟩, hshelf⟩
      · cases herror

theorem Serves.step (h : client.Serves root state last) (hdomain : Store.Inner client.primaryDomain)
    {taken : Option StoredCertificate} (hhappens : client.Happens outside state taken after) :
    client.Serves root after (taken.getD last) := by
  cases hhappens with
  | looked hcheck hresult =>
      have hlooks := client.checkRenewal_looks outside state
      rw [hcheck] at hlooks
      exact h.of_looks hdomain hlooks hresult
  | renewed hissue hcheck =>
      have hlooks := client.checkRenewal_looks outside state
      rw [hcheck] at hlooks
      obtain ⟨certificate, issued, hissued, hserves, -⟩ :=
        hlooks.presents_of_renewed h.keeps hdomain
      rw [hissue] at hissued
      cases hissued
      exact hserves
  | waited nanos => exact ⟨h.keeps, h.presents⟩
  | elsewhere hbefore hinner job hafter =>
      have hkeeps := h.keeps
      rw [← hbefore] at hkeeps
      refine ⟨?_, h.presents⟩
      rw [← hafter]
      exact hkeeps.performAll_job hinner job

theorem Watched.serves (h : client.Watched outside root state last)
    (hdomain : Store.Inner client.primaryDomain) : client.Serves root state last := by
  induction h with
  | ensured hkeeps hvalid hensure =>
      rename_i certificate state valid after
      have hserve : (serve certificate).on valid = (.ok (), after) := by
        rwa [ensureCertificate, Run.on_bind, hvalid] at hensure
      refine ⟨?_, State.presents_of_serve hserve⟩
      rw [drive_of_serve hserve]
      -- the certificate comes from the store, which is then left alone, or from a call
      simp only [validCertificate, Run.on_bind, loadValid_on] at hvalid
      cases hdue : client.store.isDue state.drive.disk state.wall client.primaryDomain
          client.domains client.renewBeforeDays with
      | error => simp [hdue] at hvalid
      | ok due =>
          cases due with
          | true =>
              rw [hdue] at hvalid
              exact keeps_of_issue hkeeps hdomain hvalid
          | false =>
              obtain ⟨found, hload, -⟩ := Store.fresh_of_isDue hdue
              simp only [hdue, hload, Except.mapError, Run.on_pure] at hvalid
              obtain ⟨-, rfl⟩ := Prod.mk.inj hvalid
              exact hkeeps
  | step _ hhappens ih => exact ih.step hdomain hhappens

/-- After a look that succeeds the stored certificate is served if the look renewed it, and else just
if it comes to the same chain and key as the one taken into service last.  The domain is a host name,
and so `Inner`. -/
theorem Watched.presents_loaded_iff (h : client.Watched outside root state last)
    (hdomain : Store.Inner client.primaryDomain) {renewed : Bool}
    (hcheck : (client.checkRenewal outside).on state = (.ok renewed, after)) :
    let loaded := client.store.load after.drive.disk client.primaryDomain
    loaded ≠ .ok none ∧ (renewed = false → ∃ found, loaded = .ok (some found)) ∧
      ∀ found, loaded = .ok (some found) → (after.Presents found ↔
        renewed = true ∨
          certifiedOf found.chainPem found.keyPem = certifiedOf last.chainPem last.keyPem) := by
  have hserves := h.serves hdomain
  have hlooks := client.checkRenewal_looks outside state
  rw [hcheck] at hlooks
  dsimp only
  cases renewed with
  | false =>
      have hlast := (hserves.of_looks hdomain hlooks (by simp)).presents
      cases hlooks with
      | notDue hdue =>
          obtain ⟨found, hload, -⟩ := Store.fresh_of_isDue hdue
          simp [hload, hlast.iff_of_presents]
  | true =>
      obtain ⟨certificate, issued, -, hpresents, hshelf⟩ :=
        hlooks.presents_of_renewed hserves.keeps hdomain
      rw [Store.load_eq, hshelf]
      refine ⟨?_, nofun, fun found hfound => iff_of_true ?_ (.inl rfl)⟩
      · rw [Store.Shelf.load_ofTexts]
        cases Store.Record.read (certificate.text .record) <;> simp
      · have hreads := Store.Shelf.readsAs_of_load hfound
        rw [hpresents.presents.iff_of_presents, hreads.chainPem, hreads.keyPem]

end Client

/-! ### A certificate that comes from elsewhere -/

namespace FirstCertificate

def overtaken : State Unit := { serving with drive := .ofDisk (kept (some (stored true))) }

theorem watched_serving : client.Watched willing ["acme"] serving (stored false) := by
  have hkeeps : client.store.Keeps ["acme"] restarted.drive.disk := keeps_kept (stored false)
  exact .ensured hkeeps validCertificate_restarted ensureCertificate_restarted

theorem watched_overtaken : client.Watched willing ["acme"] overtaken (stored false) := by
  have hsave := congrArg Prod.snd (save_kept (some (stored false)) (stored true))
  have hdisk : ((Files.Drive.ofDisk (kept (some (stored false)))).performAll
      (Store.acme.saveActions "d" (stored true))).2.disk = kept (some (stored true)) :=
    congrArg Files.Drive.disk hsave
  have helsewhere : client.Happens willing serving none overtaken :=
    .elsewhere rfl inner_primaryDomain (.saveCertificate (stored true)) hdisk
  exact .step watched_serving helsewhere

theorem checkRenewal_overtaken :
    (client.checkRenewal willing).on overtaken = (.ok false, overtaken) :=
  Client.checkRenewal_of_fresh (isDue_kept true)

theorem presents_loaded_overtaken :
    (client.Watched willing ["acme"] overtaken (stored false) ∧
      Store.Inner client.primaryDomain ∧
      (client.checkRenewal willing).on overtaken = (.ok false, overtaken)) ∧
    client.store.load overtaken.drive.disk client.primaryDomain = .ok (some (stored true)) ∧
    ¬ overtaken.Presents (stored true) := by
  have hiff := (watched_overtaken.presents_loaded_iff inner_primaryDomain
    checkRenewal_overtaken).2.2 (stored true) (load_kept true)
  refine ⟨⟨watched_overtaken, inner_primaryDomain, checkRenewal_overtaken⟩, load_kept true, ?_⟩
  rw [hiff, certifiedOf_stored, certifiedOf_stored]
  simp [certified_ne]

/-- A certificate that another process renewed is not served after a look. -/
theorem not_presents_loaded :
    ¬ ∀ (client : Client) (outside : Outside Unit) (root : Files.Place) (state after : State Unit)
      (last found : StoredCertificate) (renewed : Bool),
      client.Watched outside root state last → Store.Inner client.primaryDomain →
      (client.checkRenewal outside).on state = (.ok renewed, after) →
      client.store.load after.drive.disk client.primaryDomain = .ok (some found) →
      after.Presents found := by
  intro h
  have hpresents := h client willing ["acme"] overtaken overtaken (stored false) (stored true) false
    watched_overtaken inner_primaryDomain checkRenewal_overtaken (load_kept true)
  obtain ⟨other, hother, hcurrent⟩ := hpresents
  rw [certifiedOf_stored] at hother
  cases hother
  exact certified_ne (Option.some.inj hcurrent).symm

end FirstCertificate

end Acme

end RegistryFront
