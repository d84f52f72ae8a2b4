import Mathlib.Logic.Relation
import RegistryFront.Proofs.Acme.Renewal

/-!
# The certificate in service

Making sure of a certificate and looking for a new one touch what is in service in their last step
only, with a certificate that was stored and good or that was issued just before.  Whatever fails on
the way leaves in service what was there.
-/

namespace RegistryFront.Acme

variable {σ : Type} {outside : Outside σ} {state after : State σ}

/-! ## The last step -/

inductive TakesUp (certificate : StoredCertificate) (state : State σ) :
    Except IssueError Unit × State σ → Prop
  | useless {cause : IssueError}
      (hpair : certifiedOf certificate.chainPem certificate.keyPem = .error cause) :
      TakesUp certificate state (.error cause, state)
  | inService {certified : Tls.Certified}
      (hpair : certifiedOf certificate.chainPem certificate.keyPem = .ok certified) :
      TakesUp certificate state (.ok (), { state with resolver := .serve certified })

theorem takesUp_serve (certificate : StoredCertificate) (state : State σ) :
    TakesUp certificate state ((serve certificate).on state) := by
  rw [serve_on]
  cases hpair : certifiedOf certificate.chainPem certificate.keyPem with
  | error => exact .useless hpair
  | ok => exact .inService hpair

def State.ServesNow (certificate : StoredCertificate) (before after : State σ) : Prop :=
  ∃ certified, certifiedOf certificate.chainPem certificate.keyPem = .ok certified ∧
    after = { before with resolver := .serve certified }

theorem TakesUp.servesNow {certificate : StoredCertificate}
    (h : TakesUp certificate state (.ok (), after)) : state.ServesNow certificate after := by
  cases h with
  | inService hpair => exact ⟨_, hpair, rfl⟩

namespace Client

variable {client : Client}

/-! ## One operation -/

def dueIn (client : Client) (state : State σ) : Except Store.DueError Bool :=
  client.store.isDue state.drive.disk state.wall client.primaryDomain client.domains
    client.renewBeforeDays

inductive Ensures (client : Client) (outside : Outside σ) (state : State σ) :
    Except IssueError Unit × State σ → Prop
  | undecided {cause : IssueError} : Ensures client outside state (.error cause, state)
  | stored {found : StoredCertificate} {result : Except IssueError Unit × State σ}
      (hdue : client.dueIn state = .ok false)
      (hload : client.store.load state.drive.disk client.primaryDomain = .ok (some found))
      (htakes : TakesUp found state result) : Ensures client outside state result
  | notIssued {cause : IssueError} {after : State σ} (hdue : client.dueIn state = .ok true)
      (hissue : (client.issue outside).on state = (.error cause, after)) :
      Ensures client outside state (.error cause, after)
  | issued {certificate : StoredCertificate} {issued : State σ}
      {result : Except IssueError Unit × State σ} (hdue : client.dueIn state = .ok true)
      (hissue : (client.issue outside).on state = (.ok certificate, issued))
      (htakes : TakesUp certificate issued result) : Ensures client outside state result

theorem ensureCertificate_ensures (client : Client) (outside : Outside σ) (state : State σ) :
    client.Ensures outside state ((client.ensureCertificate outside).on state) := by
  simp only [ensureCertificate, validCertificate, Run.on_bind, loadValid_on]
  cases hdue : client.store.isDue state.drive.disk state.wall client.primaryDomain client.domains
      client.renewBeforeDays with
  | error => exact .undecided
  | ok due =>
      cases due with
      | false =>
          obtain ⟨found, hload, -⟩ := Store.fresh_of_isDue hdue
          simp only [hload, Except.mapError, Run.on_pure]
          exact .stored hdue hload (takesUp_serve found state)
      | true =>
          dsimp only
          rcases hissue : (client.issue outside).on state with ⟨_ | certificate, issued⟩
          · exact .notIssued hdue hissue
          · exact .issued hdue hissue (takesUp_serve certificate issued)

theorem resolver_of_issue {result : Except IssueError StoredCertificate}
    (hissue : (client.issue outside).on state = (result, after)) :
    after.resolver = state.resolver := by
  have hsame := client.issue_sameResolver outside state
  rwa [hissue] at hsame

theorem Ensures.resolver_of_error {cause : IssueError}
    (h : client.Ensures outside state (.error cause, after)) : after.resolver = state.resolver := by
  cases h with
  | undecided => rfl
  | stored _ _ htakes => cases htakes; rfl
  | notIssued _ hissue => exact resolver_of_issue hissue
  | issued _ hissue htakes =>
      cases htakes
      exact resolver_of_issue hissue

theorem Ensures.servesNow_of_ok (h : client.Ensures outside state (.ok (), after)) :
    ∃ certificate,
      client.dueIn state = .ok false ∧
        client.store.load state.drive.disk client.primaryDomain = .ok (some certificate) ∧
        state.ServesNow certificate after ∨
      client.dueIn state = .ok true ∧ ∃ issued,
        (client.issue outside).on state = (.ok certificate, issued) ∧
        issued.ServesNow certificate after := by
  cases h with
  | stored hdue hload htakes => exact ⟨_, .inl ⟨hdue, hload, htakes.servesNow⟩⟩
  | issued hdue hissue htakes => exact ⟨_, .inr ⟨hdue, _, hissue, htakes.servesNow⟩⟩

theorem Looks.resolver_of_error {cause : IssueError}
    (h : client.Looks outside state (.error cause, after)) : after.resolver = state.resolver := by
  cases h with
  | undecided => rfl
  | notIssued hissue => exact resolver_of_issue hissue
  | notServed hissue => exact resolver_of_issue hissue

theorem Looks.eq_of_false (h : client.Looks outside state (.ok false, after)) : after = state := by
  cases h with
  | notDue => rfl

theorem Looks.servesNow_of_true (h : client.Looks outside state (.ok true, after)) :
    ∃ certificate issued, (client.issue outside).on state = (.ok certificate, issued) ∧
      issued.ServesNow certificate after := by
  cases h with
  | @renewed certificate issued _ hissue hserve =>
      have htakes := takesUp_serve certificate issued
      rw [hserve] at htakes
      exact ⟨certificate, issued, hissue, htakes.servesNow⟩

end Client

/-! ## Any number of operations -/

/-- What may happen between a state and the next: a client makes sure of a certificate or looks for
a new one, over whatever is outside of it, or something happens that is not about what is served. -/
inductive Operates : State σ → State σ → Prop
  | ensured {client : Client} {outside : Outside σ} {state after : State σ}
      {result : Except IssueError Unit}
      (hensure : (client.ensureCertificate outside).on state = (result, after)) :
      Operates state after
  | checked {client : Client} {outside : Outside σ} {state after : State σ}
      {result : Except IssueError Bool}
      (hcheck : (client.checkRenewal outside).on state = (result, after)) : Operates state after
  | otherwise {state after : State σ} (hsame : state.SameResolver after) : Operates state after

theorem Operates.resolver (h : Operates state after) :
    after.resolver = state.resolver ∨ ∃ certificate, after.Presents certificate := by
  have hserves {before : State σ} {certificate : StoredCertificate}
      (h : before.ServesNow certificate after) : after.Presents certificate := by
    obtain ⟨certified, hpair, rfl⟩ := h
    exact ⟨certified, hpair, rfl⟩
  cases h with
  | @ensured client outside _ _ result hensure =>
      have hends := client.ensureCertificate_ensures outside state
      rw [hensure] at hends
      cases result with
      | error => exact .inl hends.resolver_of_error
      | ok =>
          obtain ⟨certificate, ⟨-, -, hnow⟩ | ⟨-, issued, -, hnow⟩⟩ := hends.servesNow_of_ok
          · exact .inr ⟨certificate, hserves hnow⟩
          · exact .inr ⟨certificate, hserves hnow⟩
  | @checked client outside _ _ result hcheck =>
      have hlooks := client.checkRenewal_looks outside state
      rw [hcheck] at hlooks
      rcases result with _ | _ | _
      · exact .inl hlooks.resolver_of_error
      · exact .inl (by rw [hlooks.eq_of_false])
      · obtain ⟨certificate, issued, -, hnow⟩ := hlooks.servesNow_of_true
        exact .inr ⟨certificate, hserves hnow⟩
  | otherwise hsame => exact .inl hsame

theorem Operates.isSome (h : Operates state after) (hsome : state.resolver.current.isSome) :
    after.resolver.current.isSome := by
  rcases h.resolver with hsame | ⟨certificate, certified, -, hcurrent⟩
  · rwa [hsame]
  · simp [hcurrent]

end RegistryFront.Acme
