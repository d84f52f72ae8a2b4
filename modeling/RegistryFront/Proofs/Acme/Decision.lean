import RegistryFront.Proofs.Acme.Kept
import RegistryFront.Proofs.Store.Decision

/-!
# What a client decides from what is kept

Whether a certificate is due is decided by the store, and nothing is changed by that.  Of a certificate
that is not due the stored one is taken, and none of any other.
-/

namespace RegistryFront.Acme

open Files (Disk)
open Time (Instant)

variable {σ : Type}

theorem Client.loadValid_eq_some_iff {client : Client} {state : State σ}
    {found : StoredCertificate} :
    (client.loadValid.on state).1 = .ok (some found) ↔
      (client.isDue.on state).1 = .ok false ∧
        client.store.Stored state.drive.disk client.primaryDomain found := by
  rw [loadValid_on, isDue_on]
  cases client.store.isDue state.drive.disk state.wall client.primaryDomain client.domains
      client.renewBeforeDays with
  | error cause => simp [Except.mapError]
  | ok due =>
      cases due with
      | true => simp [Except.mapError]
      | false =>
          rw [← Store.load_eq_some_iff]
          cases client.store.load state.drive.disk client.primaryDomain <;> simp [Except.mapError]

theorem Client.exists_stored_of_isDue {client : Client} {state : State σ}
    (h : (client.isDue.on state).1 = .ok false) :
    ∃ found, client.store.Stored state.drive.disk client.primaryDomain found := by
  rw [isDue_on] at h
  cases hdue : client.store.isDue state.drive.disk state.wall client.primaryDomain client.domains
      client.renewBeforeDays with
  | error cause => simp [hdue, Except.mapError] at h
  | ok due =>
      obtain rfl : due = false := by simpa [hdue, Except.mapError] using h
      obtain ⟨found, hload, -⟩ := Store.fresh_of_isDue hdue
      exact ⟨found, (Store.load_eq_some_iff ..).mp hload⟩

/-- What is there and what time it is decide whether a certificate is due, in one way only.  What is
due stays due; a client that asks changes nothing, and has a valid certificate exactly when the stored
one is not due, which is then that one.  Permissions keep nobody from seeing a file or reading it. -/
theorem renewal_decided (store : Store) (disk : Disk) {now : Instant} (hnow : now.Regular)
    (domain : String) (domains : List String) (days : Nat) :
    (∀ result, store.isDue disk now domain domains days = result ↔
      store.Decision disk domain now domains days result) ∧
    (store.isDue disk now domain domains days = .ok true →
      ∀ (later : Instant) (more : Nat), later.Regular → now.notAfter later = true → days ≤ more →
        later.unixSeconds + 86400 * more ≤ Instant.lastSecond →
        store.isDue disk later domain domains more = .ok true) ∧
    ∀ (client : Client) (state : State σ),
      client.isDue.on state =
        ((client.store.isDue state.drive.disk state.wall client.primaryDomain client.domains
          client.renewBeforeDays).mapError .ofDue, state) ∧
      (client.loadValid.on state).2 = state ∧
      ((∃ found, (client.loadValid.on state).1 = .ok (some found)) ↔
        (client.isDue.on state).1 = .ok false) ∧
      ∀ found, (client.loadValid.on state).1 = .ok (some found) →
        client.store.Stored state.drive.disk client.primaryDomain found := by
  refine ⟨fun result => Store.isDue_eq_iff hnow, ?_, fun client state => ⟨rfl, ?_, ?_, ?_⟩⟩
  · intro hdue later more hlater htime hdays hrange
    exact Store.isDue_mono hnow hlater htime hdays hrange hdue
  · rw [Client.loadValid_on]
  · constructor
    · rintro ⟨found, hfound⟩
      exact (Client.loadValid_eq_some_iff.mp hfound).1
    · intro hdue
      obtain ⟨found, hstored⟩ := Client.exists_stored_of_isDue hdue
      exact ⟨found, Client.loadValid_eq_some_iff.mpr ⟨hdue, hstored⟩⟩
  · intro found hfound
    exact (Client.loadValid_eq_some_iff.mp hfound).2

namespace FirstCertificate

theorem renewal_decided_kept :
    Instant.epoch.Regular ∧
      Store.acme.Decision (kept (some (stored false))) "d" .epoch ["d"]
        Client.defaultRenewBeforeDays (.ok false) ∧
      ∃ found, (client.loadValid.on restarted).1 = .ok (some found) := by
  obtain ⟨hdecides, -, hclient⟩ := @renewal_decided Unit Store.acme (kept (some (stored false)))
    .epoch Time.Instant.regular_epoch "d" ["d"] Client.defaultRenewBeforeDays
  have hdue := isDue_kept false
  refine ⟨Time.Instant.regular_epoch, (hdecides _).mp hdue, ?_⟩
  refine (hclient client restarted).2.2.1.mpr ?_
  rw [Client.isDue_on]
  exact congrArg (Except.mapError IssueError.ofDue) hdue

end FirstCertificate

end RegistryFront.Acme
