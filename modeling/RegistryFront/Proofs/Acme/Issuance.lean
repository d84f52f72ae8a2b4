import RegistryFront.Proofs.Acme.Course
import RegistryFront.Proofs.Acme.Success
import RegistryFront.Proofs.Store.Unlinked
import RegistryFront.Proofs.X509.Request

/-!
# What a call to issue asks for, returns and keeps

One order, one request for a certificate for the domains of that order, one chain: what is returned
and found in the store afterwards is made of these.  As long as no chain has come that can be read,
nothing is done below the directory of the certificates.
-/

namespace RegistryFront.Acme

open Files

variable {σ : Type} {outside : Outside σ}

/-! ## The disk up to the save -/

/-- Nothing is taken away, and in the tree of the store the directory of the certificates stays as it
is. -/
def State.SparesDomains (store : Store) (root : Place) (before after : State σ) : Prop :=
  before.drive.disk.Rooted → Disk.Extends before.drive.disk after.drive.disk ∧
    (store.Keeps root before.drive.disk → ∀ names,
      after.drive.disk.node? (root ++ "domains" :: names) =
        before.drive.disk.node? (root ++ "domains" :: names))

section

variable {store : Store} {root : Place}

theorem State.sparesDomains_of_drive {before after : State σ} (h : after.drive = before.drive) :
    State.SparesDomains store root before after := by
  intro hrooted
  rw [h]
  exact ⟨hrooted.extends_refl, fun _ _ => rfl⟩

instance : IsPreorder (State σ) (State.SparesDomains store root) where
  refl _ := State.sparesDomains_of_drive rfl
  trans := by
    intro first second third h h' hrooted
    obtain ⟨hextends, hnodes⟩ := h hrooted
    obtain ⟨hextends', hnodes'⟩ := h' hextends.rooted
    refine ⟨hextends.trans hextends', fun hkeeps names => ?_⟩
    rw [hnodes' (hkeeps.of_extends hextends), hnodes hkeeps]

theorem sparesDomains_allowed (outside : Outside σ) :
    outside.Allows (State.SparesDomains store root) where
  ask _ _ _ := State.sparesDomains_of_drive rfl
  draw _ := State.sparesDomains_of_drive rfl
  sleep _ _ := State.sparesDomains_of_drive rfl

end

namespace Client

variable {client : Client} {root : Place}

theorem sparesDomains_allowsAccount :
    client.AllowsAccount (State.SparesDomains (σ := σ) client.store root) where
  save text state hrooted := by
    refine ⟨Drive.extends_performAll hrooted (Store.secretActions _ text), fun hkeeps names => ?_⟩
    exact hkeeps.node?_saveCredentials _ text (by simp [Store.accountPlace])
  keep _ _ := State.sparesDomains_of_drive rfl

theorem procure_sparesDomains (client : Client) (outside : Outside σ) (root : Place) :
    (client.procure outside).Within (State.SparesDomains client.store root) :=
  client.procure_within (sparesDomains_allowed outside) sparesDomains_allowsAccount
    fun _ _ _ _ _ => State.sparesDomains_of_drive rfl

theorem keep_on (certificate : StoredCertificate) (state : State σ) :
    (client.keep certificate).on state =
      match client.store.save state.drive client.primaryDomain certificate with
      | (.ok (), drive) => (.ok certificate, { state with drive := drive })
      | (.error cause, drive) => (.error (.store cause), { state with drive := drive }) := by
  rw [keep, Run.on_bind, save, Run.onDrive, Run.on_of]
  rcases client.store.save state.drive client.primaryDomain certificate with ⟨_ | _, drive⟩ <;> rfl

theorem exchanges_of_keep (certificate : StoredCertificate) (state : State σ) :
    ((client.keep certificate).on state).2.exchanges = state.exchanges := by
  rw [keep_on]
  split <;> rfl

theorem extends_of_keep (certificate : StoredCertificate) {state : State σ}
    (hrooted : state.drive.disk.Rooted) :
    Disk.Extends state.drive.disk ((client.keep certificate).on state).2.drive.disk := by
  have hextends : Disk.Extends state.drive.disk
      (client.store.save state.drive client.primaryDomain certificate).2.disk :=
    Drive.extends_performAll hrooted (client.store.saveActions client.primaryDomain certificate)
  rw [keep_on]
  split <;> rename_i hsave <;> rwa [hsave] at hextends

theorem load_of_keep {certificate found : StoredCertificate} {state after : State σ}
    (hkeep : (client.keep certificate).on state = (.ok found, after))
    (hrooted : state.drive.disk.Rooted)
    (hunlinked : client.store.Unlinked after.drive.disk client.primaryDomain) :
    client.store.load after.drive.disk client.primaryDomain = .ok (some found) := by
  rw [keep_on] at hkeep
  split at hkeep
  · next hsave =>
      cases hkeep
      exact hunlinked.load_of_save hrooted hsave
  · cases hkeep

theorem ok_of_keep {certificate found : StoredCertificate} {state after : State σ}
    (hkeep : (client.keep certificate).on state = (.ok found, after)) : found = certificate := by
  rw [keep_on] at hkeep
  split at hkeep
  · cases hkeep; rfl
  · cases hkeep

end Client

/-! ## What is asked -/

def Exchange.Delivers (exchange : Exchange) (chainPem : String) : Prop :=
  ∃ account url exposure, exchange = ⟨.certificate account url, exposure, .ok chainPem⟩

namespace Client

/-- The certificate is made of the chain that was delivered and of the key that its request was
made with. -/
structure ComesOf (client : Client) (made : List Exchange) (certificate : StoredCertificate) :
    Prop where
  domains : certificate.record.domains = client.domains
  directoryUrl : certificate.record.directoryUrl = some client.settings.directoryUrl
  expires : expiryOf certificate.chainPem = .ok certificate.record.expires
  delivered : ∃ exchange ∈ made, exchange.Delivers certificate.chainPem
  requested : ∃ key csr, client.Requests key csr ∧
    (∃ exchange ∈ made, ∃ account url, exchange.request = .finalize account url csr) ∧
    certificate.keyPem = Pem.writeText .privateKey (Keys.PrivateKey.curve key).write

variable {client : Client} {made : List Exchange} {result : Except IssueError StoredCertificate}

theorem Requests.names {key : Keys.CurveKey} {csr : List UInt8} (h : client.Requests key csr)
    (hsize : Asn1.Sayable csr.length) :
    ∃ names, client.domains.mapM X509.AlternativeName.ofText = .ok names ∧
      (X509.RequestSummary.ofDer? csr).map (·.names) = some names := by
  obtain ⟨names, entropy, hnames, hrequest⟩ := h
  refine ⟨names, hnames, ?_⟩
  rw [X509.RequestSummary.ofDer?_request hrequest hsize]
  rfl

theorem Course.comesOf {certificate : StoredCertificate}
    (h : client.Course made (.ok certificate)) : client.ComesOf made certificate := by
  cases h with
  | @ready _ _ order ready _ _ _ _ _ _ hfetched =>
      cases hfetched with
      | @handedIn key csr seen answer _ _ hrequest _ hresult =>
          obtain ⟨chainPem, url, brought, now, hchain, hcertificate⟩ := hresult certificate rfl
          unfold certificateOf at hcertificate
          cases hexpires : expiryOf chainPem with
          | error => rw [hexpires] at hcertificate; cases hcertificate
          | ok expires =>
              rw [hexpires] at hcertificate
              cases hcertificate
              refine ⟨rfl, rfl, hexpires,
                ⟨order.bringsChain chainPem url brought, ?_, order.account, url, brought, rfl⟩,
                key, csr, hrequest,
                ⟨⟨.finalize order.account ready.finalizeUrl csr, seen, answer⟩, ?_, _, _, rfl⟩, rfl⟩
              · simp [hchain]
              · simp

/-! ## The whole call -/

section

variable {root : Place} {state after : State σ} {certificate : StoredCertificate}

theorem extends_of_issue (client : Client) (outside : Outside σ)
    (hrooted : state.drive.disk.Rooted) :
    Disk.Extends state.drive.disk ((client.issue outside).on state).2.drive.disk := by
  have hprocured := (client.procure_sparesDomains outside [] state hrooted).1
  rw [client.issue_eq, Run.on_bind]
  rcases hprocure : (client.procure outside).on state with ⟨_ | certificate, reached⟩ <;>
    rw [hprocure] at hprocured
  · exact hprocured
  · exact hprocured.trans (extends_of_keep certificate hprocured.rooted)

theorem on_of_issue (hissue : (client.issue outside).on state = (.ok certificate, after)) :
    ∃ reached, (client.procure outside).on state = (.ok certificate, reached) ∧
      (client.keep certificate).on reached = (.ok certificate, after) := by
  rw [client.issue_eq, Run.on_bind] at hissue
  rcases hprocure : (client.procure outside).on state with ⟨_ | procured, reached⟩ <;>
    rw [hprocure] at hissue
  · cases hissue
  · obtain rfl := ok_of_keep hissue
    exact ⟨reached, rfl, hissue⟩

theorem comesOf_of_issue (hissue : (client.issue outside).on state = (.ok certificate, after)) :
    ∃ made, after.exchanges = state.exchanges ++ made ∧ client.ComesOf made certificate := by
  obtain ⟨reached, hprocure, hkeep⟩ := on_of_issue hissue
  obtain ⟨made, hmade, hcourse⟩ := client.procure_traces outside state
  have hexchanges := client.exchanges_of_keep certificate reached
  rw [hprocure] at hmade hcourse
  rw [hkeep] at hexchanges
  exact ⟨made, hexchanges.trans hmade, hcourse.comesOf⟩

theorem load_of_issue (hrooted : state.drive.disk.Rooted)
    (hkeeps : client.store.Keeps root state.drive.disk)
    (hissue : (client.issue outside).on state = (.ok certificate, after))
    (hfiles : Store.Inner client.primaryDomain ∨
      client.store.Unlinked after.drive.disk client.primaryDomain) :
    client.store.load after.drive.disk client.primaryDomain = .ok (some certificate) := by
  obtain ⟨reached, hprocure, hkeep⟩ := on_of_issue hissue
  have hprocured := (client.procure_sparesDomains outside root state hrooted).1
  have hissued := client.extends_of_issue outside hrooted
  rw [hprocure] at hprocured
  rw [hissue] at hissued
  exact load_of_keep hkeep hprocured.rooted (hfiles.elim (hkeeps.of_extends hissued).unlinked id)

end

end Client

end RegistryFront.Acme
