import Mathlib.Data.List.Induction
import RegistryFront.Proofs.Keys.PrivateKey
import RegistryFront.Proofs.Keys.Rsa
import RegistryFront.Proofs.Pem.Writer
import RegistryFront.Proofs.Time.Calendar
import RegistryFront.Proofs.Time.Rfc3339
import RegistryFront.Proofs.X509.Certificate
import RegistryFront.StaticPair.SelfSigned
import RegistryFront.Tls.Certified

/-!
# A new pair can be served

The certificate of last resort is short enough to be read, whenever it is made and whatever key it is
for; it is read as a certificate for the key that is written beside it.
-/

namespace RegistryFront

/-! ## Sizes -/

theorem Digest.natOfBytes_lt (bytes : Bytes) : natOfBytes bytes < 256 ^ bytes.length := by
  induction bytes using List.reverseRecOn with
  | nil => simp [natOfBytes]
  | append_singleton bytes b ih =>
      have hbyte := b.toNat_lt
      rw [natOfBytes_append_singleton, List.length_append, List.length_singleton, Nat.pow_succ]
      omega

@[simp] theorem Keys.Entropy.length_bytes (entropy : Entropy) (count : Nat) :
    (entropy.bytes count).1.length = count := by
  simp [bytes]

theorem Time.Rfc3339.length_padded_le {width most n : Nat} (hwidth : width ≤ most)
    (hpos : 0 < most) (hlt : n < 10 ^ most) : (padded width n).length ≤ most := by
  have hle := (Nat.length_toDigits_le_iff (by decide) hpos).mpr hlt
  simp only [padded, List.length_append, List.length_replicate]
  omega

theorem Time.Calendar.dateOf_le (number : Int) :
    (dateOf number).year ≤ number / 146097 * 400 + 2800 ∧ (dateOf number).month ≤ 12 ∧
      (dateOf number).day ≤ 31 := by
  have hday := Nat.le_trans (day_dateOf number) (daysInMonth_le _ _)
  obtain ⟨place, month, day, hnumber, hmonth, -, -, hdate⟩ := exists_dateOf number
  have hyear := place.yearOfEra_bounds
  refine ⟨?_, ?_, hday⟩
  · simp only [hdate]
    split <;> omega
  · simp only [hdate]
    split <;> omega

def X509.Moment.latest : Int := (Time.Calendar.maxDay + 366) * 86400

theorem X509.Moment.length_write_le {seconds : Int} (h : seconds ≤ latest) :
    (write seconds).length ≤ 40 := by
  obtain ⟨hyear, hmonth, hday⟩ := Time.Calendar.dateOf_le (seconds / 86400)
  have hlatest : seconds / 86400 ≤ 95026602 := by
    unfold latest Time.Calendar.maxDay at h
    omega
  have htwo {n : Nat} (hn : n < 100) : (Time.Rfc3339.padded 2 n).length ≤ 2 :=
    Time.Rfc3339.length_padded_le (by decide) (by decide) hn
  have hshort := htwo (n := ((Time.Calendar.dateOf (seconds / 86400)).year % 100).toNat) (by omega)
  have hlong : (Time.Rfc3339.padded 4 (Time.Calendar.dateOf (seconds / 86400)).year.toNat).length ≤ 6 :=
    Time.Rfc3339.length_padded_le (by decide) (by decide) (by omega)
  have hmonth := htwo (n := (Time.Calendar.dateOf (seconds / 86400)).month) (by omega)
  have hday := htwo (n := (Time.Calendar.dateOf (seconds / 86400)).day) (by omega)
  have hhour := htwo (n := (seconds % 86400).toNat / 3600) (by omega)
  have hminute := htwo (n := (seconds % 86400).toNat / 60 % 60) (by omega)
  have hsecond := htwo (n := (seconds % 86400).toNat % 60) (by omega)
  unfold write
  dsimp only
  split <;>
    refine Nat.le_trans (Asn1.length_encode_le _ _) ?_ <;>
    simp only [asciiBytes, List.length_map, List.length_append, List.length_singleton] <;>
    omega

namespace StaticPair.SelfSigned

open Keys (RsaKey Entropy PrivateKey)
open Asn1 (length_encode_le)

theorem length_publicInfo_le (key : RsaKey) : (PrivateKey.rsa key).publicInfo.length ≤ 16576 := by
  have hmodulus := Asn1.length_naturalContent_le (Keys.lt_of_bitLength_le
    (Keys.Rsa.Numbers.bitLength_modulus_le key.sound))
  have hexponent := Asn1.length_naturalContent_le (Keys.lt_of_bitLength_le
    (Keys.Rsa.Numbers.bitLength_publicExponent_le key.sound))
  have halgorithm : (Asn1.sequence [Asn1.objectId Keys.rsaId, Asn1.null]).length = 15 := by
    decide +kernel
  have hfirst := length_encode_le Asn1.Tag.integer (Asn1.naturalContent key.numbers.modulus)
  have hsecond := length_encode_le Asn1.Tag.integer (Asn1.naturalContent key.numbers.publicExponent)
  have hpublic : key.writePublic.length ≤ 4134 := by
    refine Nat.le_trans (length_encode_le _ _) ?_
    simp only [Asn1.natural_eq, List.flatten_cons, List.flatten_nil, List.append_nil,
      List.length_append]
    omega
  have hbits : (Asn1.bitString key.writePublic).length ≤ 8272 := by
    refine Nat.le_trans (length_encode_le _ _) ?_
    rw [List.length_cons]
    omega
  refine Nat.le_trans (length_encode_le _ _) ?_
  simp only [PrivateKey.algorithm, PrivateKey.publicBytes, List.flatten_cons, List.flatten_nil,
    List.append_nil, List.length_append]
  omega

theorem length_sign_le (key : RsaKey) (message : Bytes) : (key.sign message).length ≤ 1024 := by
  have hmodulus := Keys.Rsa.Numbers.bitLength_modulus_le key.sound
  rw [RsaKey.sign, Digest.length_bytesOfNat]
  omega

def algorithm : Bytes := Asn1.sequence [Asn1.objectId X509.rsaSignatureId, Asn1.null]

theorem length_algorithm_le : algorithm.length ≤ 20 := by
  decide +kernel

theorem length_signedPart_le {serial : Nat} {now : Int} (hserial : serial < 256 ^ serialBytes)
    (hnow : now + lifetime ≤ X509.Moment.latest) (key : RsaKey) :
    ((template serial now).signedPart (.rsa key) algorithm).length ≤ 34500 := by
  have halgorithm := length_algorithm_le
  have hversion :
      (Asn1.encode (Asn1.Tag.context 0 true) (Asn1.natural 2)).length ≤ 10 := by decide +kernel
  have hname : (Asn1.sequence [X509.Name.ofCommonName commonName]).length ≤ 30 := by decide +kernel
  have htail : (Asn1.encode (Asn1.Tag.context 3 true)
      (Asn1.sequence ((template 0 0).extensions.map X509.Extension.write))).length ≤ 100 := by
    decide +kernel
  have hnumber : (Asn1.natural serial).length ≤ 36 := by
    have hcontent := Asn1.length_naturalContent_le hserial
    have hvalue := length_encode_le Asn1.Tag.integer (Asn1.naturalContent serial)
    rw [Asn1.natural_eq]
    unfold serialBytes at hcontent
    omega
  have hvalidity : (Asn1.sequence [X509.Moment.write (now - backdating),
      X509.Moment.write (now + lifetime)]).length ≤ 162 := by
    have hbefore : (X509.Moment.write (now - backdating)).length ≤ 40 :=
      X509.Moment.length_write_le (by
        unfold backdating lifetime at *
        omega)
    have hafter := X509.Moment.length_write_le hnow
    refine Nat.le_trans (length_encode_le _ _) ?_
    simp only [List.flatten_cons, List.flatten_nil, List.append_nil, List.length_append]
    omega
  have hpublic := length_publicInfo_le key
  refine Nat.le_trans (length_encode_le _ _) ?_
  simp only [template, List.flatten_cons, List.flatten_nil, List.append_nil, List.length_append]
    at htail ⊢
  omega

theorem length_sealed_lt {signed : Bytes} (h : signed.length ≤ 34500) (key : RsaKey) :
    (Asn1.sequence [signed, algorithm, Asn1.bitString (key.sign signed)]).length <
      X509.Certificate.sizeLimit := by
  have halgorithm := length_algorithm_le
  have hsignature := length_sign_le key signed
  have hbits := length_encode_le Asn1.Tag.bitString (0 :: key.sign signed)
  have hcontent : [signed, algorithm, Asn1.bitString (key.sign signed)].flatten.length ≤ 36572 := by
    simp only [Asn1.bitString, List.flatten_cons, List.flatten_nil, List.append_nil,
      List.length_append, List.length_cons] at hbits ⊢
    omega
  refine Nat.lt_of_le_of_lt (Asn1.length_encode_le_add _ (by omega)) ?_
  unfold X509.Certificate.sizeLimit
  omega

theorem exists_selfSigned {serial : Nat} {now : Int} (hserial : serial < 256 ^ serialBytes)
    (hnow : now + lifetime ≤ X509.Moment.latest) (key : RsaKey) (entropy : Entropy) :
    ∃ der, X509.selfSigned (template serial now) (.rsa key) entropy = .ok der ∧
      der.length < X509.Certificate.sizeLimit :=
  ⟨_, rfl, length_sealed_lt (length_signedPart_le hserial hnow key) key⟩

theorem passes_template (serial : Nat) (now : Int) :
    X509.Certificate.Passes X509.Certificate.knownOnce [] (template serial now).extensions := by
  change X509.Certificate.Passes X509.Certificate.knownOnce [] (template 0 0).extensions
  refine ⟨?_, ?_, ?_, ?_, trivial⟩ <;> decide +kernel

/-- What the two texts of a new pair hold: a key that can be read, and a certificate that can be
read and is for that key. -/
theorem ofMatchingPem_write {der : Bytes} {certificate : X509.Certificate} {key : RsaKey}
    (hder : X509.Certificate.read der = .ok certificate)
    (hkey : certificate.publicInfo = (PrivateKey.rsa key).publicInfo) :
    ∃ certified, Tls.Certified.ofMatchingPem (Pem.write .certificate der)
        (Pem.write .rsaPrivateKey key.numbers.write) = .ok certified ∧
      certified.leaf = der ∧ certified.key = .rsa key := by
  obtain ⟨more, hitems⟩ := Pem.items_write .certificate der
  obtain ⟨rest, hchain⟩ : ∃ rest, Pem.certificates (Pem.write .certificate der) = der :: rest :=
    ⟨_, by rw [Pem.certificates, hitems]; rfl⟩
  have hprivate : Pem.privateKey? (Pem.write .rsaPrivateKey key.numbers.write) =
      some (.pkcs1, key.numbers.write) := Pem.privateKey?_write rfl _
  have hread : PrivateKey.read? .pkcs1 key.numbers.write = some (.rsa key) :=
    PrivateKey.readRsa_write key
  have hmade : Tls.Certified.ofPem (Pem.write .certificate der)
      (Pem.write .rsaPrivateKey key.numbers.write) = .ok ⟨der :: rest, .rsa key, nofun⟩ := by
    simp [Tls.Certified.ofPem, Tls.Certified.make, hchain, hprivate, hread]
  have hcheck : Tls.Certified.check ⟨der :: rest, .rsa key, nofun⟩ = .ok () := by
    simp [Tls.Certified.check, Tls.Certified.leaf, hder, hkey]
  refine ⟨⟨der :: rest, .rsa key, nofun⟩, ?_, rfl, rfl⟩
  simp only [Tls.Certified.ofMatchingPem, hmade, hcheck, bind, Except.bind]

theorem lifetime_le_latest (now : Time.Instant) :
    now.unixSeconds + lifetime ≤ X509.Moment.latest := by
  have hday := now.day_le
  have hsecond := now.second_lt
  unfold Time.Instant.unixSeconds lifetime X509.Moment.latest Time.secondsPerDay at *
  omega

theorem ofMatchingPem_generate {now : Time.Instant} {entropy : Entropy} {pair : PemPair}
    (h : generate now.unixSeconds entropy = .ok pair) :
    ∃ certified, Tls.Certified.ofMatchingPem pair.certificate pair.key = .ok certified := by
  rw [generate] at h
  split at h
  · cases h
  · next key entropy hkey =>
      have hserial := Digest.natOfBytes_lt (entropy.bytes serialBytes).1
      rw [Keys.Entropy.length_bytes] at hserial
      obtain ⟨der, hsigned, hsize⟩ := exists_selfSigned hserial (lifetime_le_latest now) key
        (entropy.bytes serialBytes).2
      dsimp only at h
      rw [hsigned] at h
      cases h
      obtain ⟨certificate, hread, hpublic, -⟩ :=
        X509.read_selfSigned hsigned (passes_template _ _) hsize
      obtain ⟨certified, hcertified, -⟩ := ofMatchingPem_write hread hpublic
      exact ⟨certified, hcertified⟩

theorem exists_generate {entropy : Entropy}
    (h : (Keys.Rsa.generate? keyBits entropy).1.isSome = true) (now : Time.Instant) :
    ∃ pair, generate now.unixSeconds entropy = .ok pair := by
  obtain ⟨key, hkey⟩ := Option.isSome_iff_exists.mp h
  rw [generate]
  generalize Keys.Rsa.generate? keyBits entropy = made at hkey
  obtain ⟨made, rest⟩ := made
  dsimp only at hkey
  subst hkey
  exact ⟨_, rfl⟩

end StaticPair.SelfSigned

end RegistryFront
