import RegistryFront.Proofs.Acme.Restart
import RegistryFront.Proofs.Keys.PrivateKey
import RegistryFront.Proofs.Pem.Leading
import RegistryFront.Proofs.Pem.Writer

/-!
# What is issued can be served

When a chain runs out is read by the loose reader of PEM texts, and the chain that is served by the
other one.  As long as the text is orderly, the certificate that runs out then is the one that is
served first, together with the key that was generated for it.
-/

namespace RegistryFront.Acme

open Files Keys

def RunsOutAt (leaf : Bytes) (expires : Time.Instant) : Prop :=
  ∃ second, X509.lastSecond? leaf = some second ∧ Time.Instant.ofUnix? second 0 = some expires

theorem leading_of_expiryOf {chainPem : String} {expires : Time.Instant}
    (h : expiryOf chainPem = .ok expires) :
    ∃ leaf, Pem.leading chainPem = .ok leaf ∧ RunsOutAt leaf expires := by
  unfold expiryOf at h
  split at h
  · cases h
  · next leaf hleading =>
      split at h
      · cases h
      · next second hsecond =>
          split at h
          · next hexpires =>
              cases h
              exact ⟨leaf, hleading, second, hsecond, hexpires⟩
          · cases h

theorem certificates_of_expiryOf {chainPem : String} {expires : Time.Instant}
    (horderly : Pem.Orderly chainPem) (h : expiryOf chainPem = .ok expires) :
    ∃ leaf rest, Pem.certificates (Text.Utf8.encode chainPem) = leaf :: rest ∧
      RunsOutAt leaf expires := by
  obtain ⟨leaf, hleading, hruns⟩ := leading_of_expiryOf h
  obtain ⟨rest, hchain⟩ := horderly.certificates hleading
  exact ⟨leaf, rest, hchain, hruns⟩

def keyText (key : CurveKey) : String := Pem.writeText .privateKey (PrivateKey.curve key).write

theorem privateKey?_keyText (key : CurveKey) :
    Pem.privateKey? (Text.Utf8.encode (keyText key)) =
      some (.pkcs8, (PrivateKey.curve key).write) := by
  rw [keyText, Pem.encode_writeText]
  exact Pem.privateKey?_write rfl _

theorem certifiedOf_keyText {chainPem : String} {leaf : Bytes} {rest : List Bytes}
    (h : Pem.certificates (Text.Utf8.encode chainPem) = leaf :: rest) (key : CurveKey) :
    certifiedOf chainPem (keyText key) =
      .ok ⟨leaf :: rest, .curve key, List.cons_ne_nil leaf rest⟩ := by
  simp [certifiedOf, Tls.Certified.ofPem, Tls.Certified.make, h, privateKey?_keyText,
    PrivateKey.read?_write, Except.mapError]

namespace Client

variable {σ : Type} {client : Client} {outside : Outside σ}

theorem certified_of_issue {state after : State σ} {certificate : StoredCertificate}
    (hissue : (client.issue outside).on state = (.ok certificate, after)) :
    expiryOf certificate.chainPem = .ok certificate.record.expires ∧
      ∃ key, certificate.keyPem = keyText key := by
  obtain ⟨made, -, hcomes⟩ := comesOf_of_issue hissue
  obtain ⟨key, csr, -, -, hkey⟩ := hcomes.requested
  exact ⟨hcomes.expires, key, hkey⟩

/-- When an orderly text says when it runs out, its first certificate is the one that does, and it can
be served with every generated key.  If a call to issue returns it, it is taken into service right
after that, and by every start that finds it in the store as long as it lasts; it is there
afterwards, for this client and for every other over the same directory. -/
theorem serves_issued {chainPem : String} {expires : Time.Instant} (horderly : Pem.Orderly chainPem)
    (hexpires : expiryOf chainPem = .ok expires) :
    ∃ leaf rest, Pem.certificates (Text.Utf8.encode chainPem) = leaf :: rest ∧
      RunsOutAt leaf expires ∧
      (∀ key, certifiedOf chainPem (keyText key) =
        .ok ⟨leaf :: rest, .curve key, List.cons_ne_nil leaf rest⟩) ∧
      ∀ {σ : Type} (client : Client) (outside : Outside σ) (root : Place) (state after : State σ)
        (certificate : StoredCertificate), state.drive.disk.Rooted →
        client.store.Keeps root state.drive.disk →
        (client.issue outside).on state = (.ok certificate, after) →
        certificate.chainPem = chainPem →
        Store.Inner client.primaryDomain ∨
          client.store.Unlinked after.drive.disk client.primaryDomain →
        ∃ certified, certified.chain = leaf :: rest ∧ certificate.record.expires = expires ∧
          (serve certificate).on after = (.ok (), { after with resolver := .serve certified }) ∧
          (∀ (again : Client) (disk : Disk), again.Holds disk certificate →
            again.RestsOn disk certificate (.serve certified)) ∧
          client.Holds after.drive.disk certificate ∧
          ∀ (settings : Settings (List X509.Anchor)) (user : UserDirectories) (days : Nat)
            (drive opened : Drive) (again : Client),
            settings.storageDirectory user = client.store.basePath →
            drive.disk = after.drive.disk →
            make settings user client.domains days drive = (.ok again, opened) →
            again.Holds opened.disk certificate := by
  obtain ⟨leaf, rest, hchain, hruns⟩ := certificates_of_expiryOf horderly hexpires
  refine ⟨leaf, rest, hchain, hruns, certifiedOf_keyText hchain, ?_⟩
  rintro σ client outside root state after certificate hrooted hkeeps hissue rfl hfiles
  obtain ⟨hrecorded, key, hkey⟩ := certified_of_issue hissue
  obtain rfl : expires = certificate.record.expires := by
    rw [hexpires] at hrecorded
    exact Except.ok.inj hrecorded
  have hcertified := certifiedOf_keyText hchain key
  rw [← hkey] at hcertified
  obtain ⟨hholds, hkept⟩ := holds_of_issue hrooted hkeeps hissue hfiles
  refine ⟨_, rfl, rfl, by rw [serve_on, hcertified], fun again disk h => h.restsOn hcertified,
    hholds, ?_⟩
  intro settings user days drive opened again hstore hdisk hmake
  rw [← hdisk] at hholds hkept
  exact (hholds.of_make hkept hstore hmake).1

end Client

/-! ### An orderly chain, and one under another label -/

namespace FirstCertificate

theorem orderly_chainPem : Pem.Orderly chainPem := Pem.orderly_writeText leaf

def smallestKey : CurveKey := ⟨.p256, 1, Nat.one_pos, CurveKey.order_gt_one .p256⟩

theorem serves_issued_first :
    Pem.Orderly chainPem ∧ expiryOf chainPem = .ok expiry ∧
    ∃ first rest, Pem.certificates (Text.Utf8.encode chainPem) = first :: rest ∧
      RunsOutAt first expiry ∧
      certifiedOf chainPem (keyText smallestKey) =
        .ok ⟨first :: rest, .curve smallestKey, List.cons_ne_nil first rest⟩ ∧
      ∀ csr, X509.request [.dns "d"] (.curve (ready (.ofSeed [])).nextKey.1)
          (ready (.ofSeed [])).nextKey.2 = .ok csr →
        ∃ after certified,
          (client.issue willing).on (begun (.ofSeed [])) = (.ok (certificate (.ofSeed [])), after) ∧
          certified.chain = first :: rest ∧
          (serve (certificate (.ofSeed []))).on after =
            (.ok (), { after with resolver := .serve certified }) ∧
          client.RestsOn after.drive.disk (certificate (.ofSeed [])) (.serve certified) := by
  obtain ⟨first, rest, hchain, hruns, hserved, hissues⟩ :=
    Client.serves_issued orderly_chainPem expiryOf_chainPem
  refine ⟨orderly_chainPem, expiryOf_chainPem, first, rest, hchain, hruns, hserved smallestKey,
    fun csr hcsr => ?_⟩
  obtain ⟨after, hissue, -⟩ := issue_on (.ofSeed []) hcsr
  obtain ⟨certified, hfirst, -, hserve, hrests, hholds, -⟩ := hissues client willing ["acme"]
    (begun (.ofSeed [])) after _ Store.extends_openAcme.rooted Store.keeps_openAcme hissue rfl
    (.inl inner_primaryDomain)
  exact ⟨after, certified, hissue, hfirst, hserve, hrests client _ hholds⟩

/-- The same certificate under another label, which only the loose reader takes. -/
def relabelledText : List Char :=
  "-----BEGIN X509 CERTIFICATE-----\n".toList ++ Pem.asChars (Pem.bodyLines leaf) ++
    "-----END X509 CERTIFICATE-----\n".toList

theorem not_serves_issued :
    ¬ ∀ chainPem expires, expiryOf chainPem = .ok expires →
      ∃ leaf rest, Pem.certificates (Text.Utf8.encode chainPem) = leaf :: rest ∧
        RunsOutAt leaf expires := by
  intro h
  have hleading : Pem.leading (String.ofList relabelledText) = .ok leaf := by
    rw [Pem.leading, String.toList_ofList]
    exact Store.ok_of_toOption (by decide +kernel)
  have hnone : Pem.certificates (Text.Utf8.encode (String.ofList relabelledText)) = [] := by
    rw [Text.Utf8.encode, String.toList_ofList]
    decide +kernel
  obtain ⟨leaf, rest, hchain, -⟩ :=
    h (String.ofList relabelledText) expiry (expiryOf_of_leading hleading)
  rw [hnone] at hchain
  cases hchain

end FirstCertificate

end RegistryFront.Acme
