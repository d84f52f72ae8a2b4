import RegistryFront.Proofs.Acme.Issuance
import RegistryFront.Proofs.Acme.Kept

/-!
# Starting anew over the same directory

What was taken into service once is in the store, for the same domains.  A client that starts there
later, as long as the certificate lasts, finds it and asks the authority nothing.
-/

namespace RegistryFront

/-- The certificate runs out later than so many days from now. -/
def StoredCertificate.Lasts (found : StoredCertificate) (now : Time.Instant) (days : Nat) : Prop :=
  ∃ limit, now.addDays? days = some limit ∧ found.record.expires.notAfter limit = false

namespace Acme

open Files

variable {σ τ : Type} {outside : Outside σ}

namespace Client

structure Holds (client : Client) (disk : Disk) (found : StoredCertificate) : Prop where
  load : client.store.load disk client.primaryDomain = .ok (some found)
  domains : found.record.domains = client.domains

variable {client : Client} {root : Place} {found : StoredCertificate} {certified : Tls.Certified}

theorem Holds.isDue {disk : Disk} (h : client.Holds disk found) {now : Time.Instant}
    (hlasts : found.Lasts now client.renewBeforeDays) :
    client.store.isDue disk now client.primaryDomain client.domains client.renewBeforeDays =
      .ok false :=
  Store.isDue_of_fresh h.load ⟨h.domains, hlasts⟩

theorem holds_of_issue {state after : State σ} (hrooted : state.drive.disk.Rooted)
    (hkeeps : client.store.Keeps root state.drive.disk)
    (hissue : (client.issue outside).on state = (.ok found, after))
    (hfiles : Store.Inner client.primaryDomain ∨
      client.store.Unlinked after.drive.disk client.primaryDomain) :
    client.Holds after.drive.disk found ∧ client.store.Keeps root after.drive.disk := by
  have hextends := client.extends_of_issue outside hrooted
  obtain ⟨made, -, hcomes⟩ := comesOf_of_issue hissue
  rw [hissue] at hextends
  exact ⟨⟨load_of_issue hrooted hkeeps hissue hfiles, hcomes.domains⟩, hkeeps.of_extends hextends⟩

theorem holds_of_validCertificate {state valid : State σ} (hrooted : state.drive.disk.Rooted)
    (hkeeps : client.store.Keeps root state.drive.disk)
    (hvalid : (client.validCertificate outside).on state = (.ok found, valid))
    (hfiles : Store.Inner client.primaryDomain ∨
      client.store.Unlinked valid.drive.disk client.primaryDomain) :
    client.Holds valid.drive.disk found ∧ client.store.Keeps root valid.drive.disk := by
  simp only [validCertificate, Run.on_bind, loadValid_on] at hvalid
  cases hdue : client.store.isDue state.drive.disk state.wall client.primaryDomain client.domains
      client.renewBeforeDays with
  | error => simp [hdue] at hvalid
  | ok due =>
      cases due with
      | false =>
          obtain ⟨stored, hload, hfresh⟩ := Store.fresh_of_isDue hdue
          simp only [hdue, hload, Except.mapError, Run.on_pure] at hvalid
          cases hvalid
          exact ⟨⟨hload, hfresh.1⟩, hkeeps⟩
      | true =>
          rw [hdue] at hvalid
          exact holds_of_issue hrooted hkeeps hvalid hfiles

theorem holds_of_ensureCertificate {state served : State σ} (hrooted : state.drive.disk.Rooted)
    (hkeeps : client.store.Keeps root state.drive.disk)
    (hensure : (client.ensureCertificate outside).on state = (.ok (), served))
    (hfiles : Store.Inner client.primaryDomain ∨
      client.store.Unlinked served.drive.disk client.primaryDomain) :
    client.store.Keeps root served.drive.disk ∧ ∃ found certified,
      client.Holds served.drive.disk found ∧
      certifiedOf found.chainPem found.keyPem = .ok certified ∧
      served.resolver = .serve certified := by
  rw [ensureCertificate, Run.on_bind] at hensure
  rcases hvalid : (client.validCertificate outside).on state with ⟨_ | found, valid⟩ <;>
    rw [hvalid] at hensure
  · cases hensure
  · dsimp only at hensure
    rw [serve_on] at hensure
    cases hcertified : certifiedOf found.chainPem found.keyPem with
    | error => simp [hcertified] at hensure
    | ok certified =>
        rw [hcertified] at hensure
        cases hensure
        obtain ⟨hholds, hkeeps⟩ := holds_of_validCertificate hrooted hkeeps hvalid hfiles
        exact ⟨hkeeps, found, certified, hholds, hcertified, rfl⟩

/-- As long as the certificate lasts, whoever the authority is: a start over this disk asks nothing
and takes the certificate into service, and a look finds nothing to renew; nothing else changes. -/
def RestsOn (client : Client) (disk : Disk) (found : StoredCertificate)
    (resolver : Resolver Tls.Certified) : Prop :=
  ∀ {τ : Type} (outside : Outside τ) (later : State τ), later.drive.disk = disk →
    found.Lasts later.wall client.renewBeforeDays →
    (client.ensureCertificate outside).on later = (.ok (), { later with resolver := resolver }) ∧
      (client.checkRenewal outside).on later = (.ok false, later)

theorem Holds.restsOn {disk : Disk} (h : client.Holds disk found)
    (hcertified : certifiedOf found.chainPem found.keyPem = .ok certified) :
    client.RestsOn disk found (.serve certified) := by
  rintro τ outside later rfl hlasts
  exact ⟨ensureCertificate_of_fresh (h.isDue hlasts) h.load hcertified,
    checkRenewal_of_fresh (h.isDue hlasts)⟩

theorem openAt_of_make {settings : Settings (List X509.Anchor)} {user : UserDirectories}
    {domains : List String} {days : Nat} {drive opened : Drive} {again : Client}
    (hmake : make settings user domains days drive = (.ok again, opened)) :
    again.domains = domains ∧ again.renewBeforeDays = days ∧
      again.store = ⟨settings.storageDirectory user⟩ ∧
      Store.openAt (settings.storageDirectory user) drive = (.ok again.store, opened) := by
  unfold make at hmake
  split at hmake
  · cases hmake
  · split at hmake
    · next hopen =>
        cases hmake
        exact ⟨rfl, rfl, (Store.openAt_eq_ok hopen).1, hopen⟩
    · cases hmake

theorem Holds.of_make {drive opened : Drive} (h : client.Holds drive.disk found)
    (hkeeps : client.store.Keeps root drive.disk) {settings : Settings (List X509.Anchor)}
    {user : UserDirectories} (hstore : settings.storageDirectory user = client.store.basePath)
    {days : Nat} {again : Client}
    (hmake : make settings user client.domains days drive = (.ok again, opened)) :
    again.Holds opened.disk found ∧ Disk.Spares drive.disk opened.disk := by
  obtain ⟨hdomains, -, hsame, hopen⟩ := openAt_of_make hmake
  rw [hstore] at hsame hopen
  have hspares := hkeeps.spares_of_openAt hopen
  have hprimary : again.primaryDomain = client.primaryDomain := by
    simp only [primaryDomain, hdomains]
  refine ⟨⟨?_, h.domains.trans hdomains.symm⟩, hspares⟩
  rw [hsame, hprimary]
  exact Store.load_of_spares hspares h.load

/-- Once a start has succeeded, the store holds a certificate whose chain and key are in service.  As
long as it lasts, neither this client nor any that is made later over the same directory, for the
same domains and with whatever authority, asks for another: they take the same chain and key into
service, and the files stay what they are. -/
theorem restsOn_after_ensureCertificate {state served : State σ} (hrooted : state.drive.disk.Rooted)
    (hkeeps : client.store.Keeps root state.drive.disk)
    (hensure : (client.ensureCertificate outside).on state = (.ok (), served))
    (hfiles : Store.Inner client.primaryDomain ∨
      client.store.Unlinked served.drive.disk client.primaryDomain) :
    ∃ found certified,
      client.store.load served.drive.disk client.primaryDomain = .ok (some found) ∧
      certifiedOf found.chainPem found.keyPem = .ok certified ∧
      served.resolver = .serve certified ∧
      client.RestsOn served.drive.disk found (.serve certified) ∧
      ∀ (settings : Settings (List X509.Anchor)) (user : UserDirectories) (days : Nat)
        (drive opened : Drive) (again : Client),
        settings.storageDirectory user = client.store.basePath →
        drive.disk = served.drive.disk →
        make settings user client.domains days drive = (.ok again, opened) →
        again.renewBeforeDays = days ∧ again.RestsOn opened.disk found (.serve certified) ∧
          ∀ place mode content, opened.disk.node? place = some (.file mode content) ↔
            drive.disk.node? place = some (.file mode content) := by
  obtain ⟨hkept, found, certified, hholds, hcertified, hresolver⟩ :=
    holds_of_ensureCertificate hrooted hkeeps hensure hfiles
  refine ⟨found, certified, hholds.load, hcertified, hresolver, hholds.restsOn hcertified, ?_⟩
  intro settings user days drive opened again hstore hdisk hmake
  rw [← hdisk] at hholds hkept
  obtain ⟨hagain, hspares⟩ := hholds.of_make hkept hstore hmake
  exact ⟨(openAt_of_make hmake).2.1, hagain.restsOn hcertified, hspares.file⟩

end Client

/-! ### A second start -/

namespace FirstCertificate

def successor : Client :=
  ⟨{ settings with directoryUrl? := some "https://other.example/directory" }, ["d"], Store.acme, 7,
    domains_ne_nil⟩

theorem make_successor :
    Client.make successor.settings ⟨none, none⟩ ["d"] 7 serving.drive =
      (.ok successor, serving.drive) := by
  have hopen : Store.openAt (successor.settings.storageDirectory ⟨none, none⟩) serving.drive =
      (.ok Store.acme, serving.drive) := openAt_kept (some (stored false))
  rw [Client.make, dif_neg domains_ne_nil, hopen]
  rfl

theorem rooted_kept (certificate : StoredCertificate) : (kept (some certificate)).Rooted := by
  have hopened : (Drive.ofDisk (kept none)).disk.Rooted := Store.extends_openAcme.rooted
  have hextends := Drive.extends_performAll hopened (Store.acme.saveActions "d" certificate)
  have hsave : ((Drive.ofDisk (kept none)).performAll (Store.acme.saveActions "d" certificate)).2 =
      .ofDisk (kept (some certificate)) := congrArg Prod.snd (save_kept none certificate)
  rw [hsave] at hextends
  exact hextends.rooted

theorem restsOn_after_restart :
    (restarted.drive.disk.Rooted ∧ client.store.Keeps ["acme"] restarted.drive.disk ∧
      (client.ensureCertificate willing).on restarted = (.ok (), serving) ∧
      Store.Inner client.primaryDomain) ∧
    Client.make successor.settings ⟨none, none⟩ ["d"] 7 serving.drive =
      (.ok successor, serving.drive) ∧
    (successor.ensureCertificate willing).on restarted = (.ok (), serving) ∧
    (successor.checkRenewal willing).on restarted = (.ok false, restarted) := by
  have hrooted : restarted.drive.disk.Rooted := rooted_kept (stored false)
  have hkeeps : client.store.Keeps ["acme"] restarted.drive.disk := keeps_kept (stored false)
  obtain ⟨found, certified', hload, hcertified, hresolver, -, hagain⟩ :=
    Client.restsOn_after_ensureCertificate hrooted hkeeps ensureCertificate_restarted
      (.inl inner_primaryDomain)
  obtain rfl : found = stored false :=
    Option.some.inj (Except.ok.inj (hload.symm.trans (load_kept false)))
  obtain ⟨-, hrests, -⟩ := hagain _ _ _ _ _ _ rfl rfl make_successor
  have hlasts : (stored false).Lasts restarted.wall successor.renewBeforeDays :=
    ⟨_, rfl, by decide +kernel⟩
  obtain ⟨hensure, hcheck⟩ := hrests willing restarted rfl hlasts
  refine ⟨⟨hrooted, hkeeps, ensureCertificate_restarted, inner_primaryDomain⟩, make_successor, ?_,
    hcheck⟩
  rw [hensure, ← hresolver]
  rfl

end FirstCertificate

end Acme

end RegistryFront
