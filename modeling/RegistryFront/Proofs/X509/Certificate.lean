import RegistryFront.Proofs.Asn1.Der
import RegistryFront.X509.Builder
import RegistryFront.X509.Certificate

/-!
# Certificates come back from what is signed

A certificate that was signed with its own key, and is no longer than a reader takes, is read again:
with the extensions it was given, if they may stand together, and with the key that signed it.
-/

namespace RegistryFront.X509

open Asn1 (IsLow isLow_integer isLow_bitString isLow_octetString isLow_objectId isLow_sequence
  length_lt_encode length_lt_split)

namespace Certificate

/-! ## Parts -/

section

variable {tag : UInt8} {content rest : Bytes}

theorem sayable_of_lt {length : Nat} (h : length < sizeLimit) : Asn1.Sayable length :=
  Nat.lt_trans h (by decide)

theorem part_encode (htag : IsLow tag) (h : content.length < sizeLimit) (rest : Bytes) :
    part tag (Asn1.encode tag content ++ rest) = .ok (content, rest) := by
  simp [part, Asn1.expect_encode htag (sayable_of_lt h), h]

theorem part_front (htag : IsLow tag) (h : (Asn1.encode tag content ++ rest).length < sizeLimit) :
    part tag (Asn1.encode tag content ++ rest) = .ok (content, rest) :=
  part_encode htag (length_lt_split h).1 rest

theorem part_alone (htag : IsLow tag) (h : (Asn1.encode tag content).length < sizeLimit) :
    part tag (Asn1.encode tag content) = .ok (content, []) := by
  have hpart := part_encode htag (Nat.lt_trans (length_lt_encode tag content) h) []
  rwa [List.append_nil] at hpart

theorem whole_encode (htag : IsLow tag) (h : (Asn1.encode tag content).length < sizeLimit) :
    whole tag (Asn1.encode tag content) = .ok content := by
  simp only [whole, part_alone htag h, bind, Except.bind]

end

/-! ## Extensions -/

def Passes (rule : ExtensionRule) (before : List Extension) : List Extension → Prop
  | [] => True
  | extension :: rest => rule before extension = .ok () ∧ Passes rule (before ++ [extension]) rest

def criticalMark : Bool → Bytes
  | true => Asn1.encode Asn1.Tag.boolean [0xFF]
  | false => []

def extensionContent (extension : Extension) : Bytes :=
  Asn1.encode Asn1.Tag.objectId extension.id ++
    (criticalMark extension.critical ++ Asn1.encode Asn1.Tag.octetString extension.value)

theorem write_extension (extension : Extension) :
    extension.write = Asn1.encode Asn1.Tag.sequence (extensionContent extension) := by
  obtain ⟨id, critical, value⟩ := extension
  cases critical <;>
    simp [Extension.write, extensionContent, criticalMark, Asn1.sequence, Asn1.boolean,
      Asn1.octetString]

theorem readCritical_mark {critical : Bool} {value : Bytes}
    (h : (criticalMark critical ++ Asn1.encode Asn1.Tag.octetString value).length < sizeLimit) :
    readCritical (criticalMark critical ++ Asn1.encode Asn1.Tag.octetString value) =
      .ok (critical, Asn1.encode Asn1.Tag.octetString value) := by
  cases critical with
  | false =>
      have htag : Asn1.Tag.octetString ≠ Asn1.Tag.boolean := by decide
      simp [criticalMark, readCritical, Asn1.encode, htag]
  | true =>
      have hboolean : IsLow Asn1.Tag.boolean := by decide
      have hhead : (criticalMark true ++ Asn1.encode Asn1.Tag.octetString value).head? =
          some Asn1.Tag.boolean := rfl
      rw [readCritical, if_pos hhead, criticalMark, part_front hboolean h]
      rfl

theorem readExtension_content {extension : Extension}
    (h : (extensionContent extension).length < sizeLimit) :
    readExtension (extensionContent extension) = .ok (extension, []) := by
  rw [extensionContent] at h ⊢
  have hrest := (length_lt_split h).2
  have hvalue : (Asn1.encode Asn1.Tag.octetString extension.value).length < sizeLimit := by
    rw [List.length_append] at hrest
    omega
  simp only [readExtension, part_front isLow_objectId h, readCritical_mark hrest,
    part_alone isLow_octetString hvalue, bind, Except.bind]

theorem readExtensions_write {rule : ExtensionRule} {before extensions : List Extension}
    (hpasses : Passes rule before extensions) {fuel : Nat} (hfuel : extensions.length ≤ fuel)
    (hsize : (extensions.flatMap Extension.write).length < sizeLimit) :
    readExtensions rule before fuel (extensions.flatMap Extension.write) =
      .ok (before ++ extensions) := by
  induction extensions generalizing before fuel with
  | nil => cases fuel <;> simp [readExtensions]
  | cons extension rest ih =>
      obtain ⟨hrule, hrest⟩ := hpasses
      obtain ⟨fuel, rfl⟩ : ∃ less, fuel = less + 1 := ⟨fuel - 1, by simp at hfuel; omega⟩
      rw [List.flatMap_cons, write_extension] at hsize ⊢
      have hsplit := length_lt_split hsize
      have hpart := part_front isLow_sequence hsize
      have hextension := readExtension_content hsplit.1
      have hmore := ih hrest (Nat.le_of_succ_le_succ hfuel) hsplit.2
      cases htext : Asn1.encode Asn1.Tag.sequence (extensionContent extension) ++
          rest.flatMap Extension.write with
      | nil => simp [Asn1.encode] at htext
      | cons b others =>
          rw [htext] at hpart
          simp only [readExtensions, hpart, hextension, hrule, hmore, bind, Except.bind, if_true]
          simp

theorem length_le_flatMap_write (extensions : List Extension) :
    extensions.length ≤ (extensions.flatMap Extension.write).length := by
  induction extensions with
  | nil => simp
  | cons extension rest ih =>
      have hpos := length_lt_encode Asn1.Tag.sequence (extensionContent extension)
      rw [List.flatMap_cons, write_extension, List.length_append, List.length_cons]
      omega

def tail (extensions : List Extension) : Bytes :=
  Asn1.encode (Asn1.Tag.context 3 true)
    (Asn1.encode Asn1.Tag.sequence (extensions.flatMap Extension.write))

theorem readTail_tail {rule : ExtensionRule} {extensions : List Extension}
    (hpasses : Passes rule [] extensions) (hsize : (tail extensions).length < sizeLimit) :
    readTail rule (tail extensions) = .ok extensions := by
  have hcontext : IsLow (Asn1.Tag.context 3 true) := by decide
  have hne : tail extensions ≠ [] := by simp [tail, Asn1.encode]
  have hwhole := whole_encode hcontext hsize
  have hinner := Nat.lt_trans (length_lt_encode _ _) hsize
  have hlist := readExtensions_write hpasses (length_le_flatMap_write extensions)
    (Nat.lt_trans (length_lt_encode _ _) hinner)
  rw [readTail, if_neg hne, tail]
  simp only [hwhole, whole_encode isLow_sequence hinner, hlist, bind, Except.bind, List.nil_append]

/-! ## The whole -/

/-- The parts of a certificate that is its own issuer, from the serial number on; the algorithm, the
times, the name and the key without their frames. -/
def signedContent (template : Template) (algorithm name validity publicKey : Bytes) : Bytes :=
  Asn1.encode (Asn1.Tag.context 0 true) (Asn1.encode Asn1.Tag.integer [2]) ++
    (Asn1.encode Asn1.Tag.integer (Asn1.naturalContent template.serial) ++
      (Asn1.encode Asn1.Tag.sequence algorithm ++
        (Asn1.encode Asn1.Tag.sequence name ++
          (Asn1.encode Asn1.Tag.sequence validity ++
            (Asn1.encode Asn1.Tag.sequence name ++
              (Asn1.encode Asn1.Tag.sequence publicKey ++ tail template.extensions))))))

theorem readVersion_encode {rest : Bytes}
    (h : (Asn1.encode (Asn1.Tag.context 0 true) (Asn1.encode Asn1.Tag.integer [2]) ++ rest).length <
      sizeLimit) :
    readVersion (Asn1.encode (Asn1.Tag.context 0 true) (Asn1.encode Asn1.Tag.integer [2]) ++ rest) =
      .ok rest := by
  have hcontext : IsLow (Asn1.Tag.context 0 true) := by decide
  have hnumber : part Asn1.Tag.integer (Asn1.encode Asn1.Tag.integer [2]) = .ok ([2], []) := by
    decide
  have htwo : Asn1.readNatural [2] = some 2 := by decide
  simp [readVersion, part_front hcontext h, hnumber, htwo, bind, Except.bind]

theorem readSigned_content {rule : ExtensionRule} {template : Template}
    {algorithm name validity publicKey : Bytes}
    (hpasses : Passes rule [] template.extensions)
    (hsize : (signedContent template algorithm name validity publicKey).length < sizeLimit) :
    readSigned rule (signedContent template algorithm name validity publicKey) algorithm =
      .ok ⟨Asn1.naturalContent template.serial, algorithm, name, validity, name, publicKey,
        template.extensions⟩ := by
  rw [signedContent] at hsize ⊢
  -- what is said of the size of the whole holds of every part, one after the other
  have hbehindVersion := (length_lt_split hsize).2
  have hbehindSerial := (length_lt_split hbehindVersion).2
  have hbehindAlgorithm := (length_lt_split hbehindSerial).2
  have hbehindIssuer := (length_lt_split hbehindAlgorithm).2
  have hbehindValidity := (length_lt_split hbehindIssuer).2
  have hbehindSubject := (length_lt_split hbehindValidity).2
  simp only [readSigned, readVersion_encode hsize, part_front isLow_integer hbehindVersion,
    part_front isLow_sequence hbehindSerial, part_front isLow_sequence hbehindAlgorithm,
    part_front isLow_sequence hbehindIssuer, part_front isLow_sequence hbehindValidity,
    part_front isLow_sequence hbehindSubject,
    readTail_tail hpasses (length_lt_split hbehindSubject).2, bind, Except.bind, ne_eq, not_true,
    if_false]

theorem readWith_sealed {rule : ExtensionRule} {template : Template}
    {algorithm name validity publicKey signature : Bytes}
    (hpasses : Passes rule [] template.extensions) {der : Bytes}
    (hder : der = Asn1.encode Asn1.Tag.sequence
      (Asn1.encode Asn1.Tag.sequence (signedContent template algorithm name validity publicKey) ++
        (Asn1.encode Asn1.Tag.sequence algorithm ++
          Asn1.encode Asn1.Tag.bitString (0 :: signature))))
    (hsize : der.length < sizeLimit) :
    readWith rule der = .ok ⟨Asn1.naturalContent template.serial, algorithm, name, validity, name,
      publicKey, template.extensions⟩ := by
  subst hder
  have hcontent := Nat.lt_trans (length_lt_encode _ _) hsize
  have hbehindSigned := (length_lt_split hcontent).2
  have hbits : (Asn1.readBits (0 :: signature)).isSome = true := rfl
  simp only [readWith, whole_encode isLow_sequence hsize, part_front isLow_sequence hcontent,
    part_front isLow_sequence hbehindSigned,
    whole_encode isLow_bitString (length_lt_split hbehindSigned).2, hbits, if_true,
    readSigned_content hpasses (length_lt_split hcontent).1, bind, Except.bind]

end Certificate

/-! ## What is signed with its own key -/

theorem exists_algorithm {key : Keys.PrivateKey} {algorithm : Bytes}
    (h : signatureAlgorithm? key = some algorithm) :
    ∃ content, algorithm = Asn1.encode Asn1.Tag.sequence content := by
  cases key with
  | rsa => exact ⟨_, (Option.some.inj h).symm⟩
  | curve => exact ⟨_, (Option.some.inj h).symm⟩
  | edwards => cases h

/-- A certificate that is signed with its own key can be read, and it is for that key. -/
theorem read_selfSigned {template : Template} {key : Keys.PrivateKey} {entropy : Keys.Entropy}
    {der : Bytes} (h : selfSigned template key entropy = .ok der)
    (hpasses : Certificate.Passes Certificate.knownOnce [] template.extensions)
    (hsize : der.length < Certificate.sizeLimit) :
    ∃ certificate, Certificate.read der = .ok certificate ∧
      certificate.publicInfo = key.publicInfo ∧ certificate.extensions = template.extensions := by
  have htwo : Asn1.natural 2 = Asn1.encode Asn1.Tag.integer [2] := by
    simp [Asn1.natural, Asn1.bigEndian]
  rw [selfSigned] at h
  split at h
  · next algorithm halgorithm =>
      obtain ⟨content, rfl⟩ := exists_algorithm halgorithm
      rw [sealed] at h
      split at h
      · next again signature hagain hsign =>
          obtain rfl := Option.some.inj (hagain.symm.trans halgorithm)
          have hder := (Except.ok.inj h).symm
          simp only [Template.signedPart, Keys.PrivateKey.publicInfo, Asn1.sequence, htwo,
            Asn1.natural_eq, Asn1.bitString, List.flatten_cons, List.flatten_nil, List.append_nil,
            ← List.flatMap_def] at hder
          refine ⟨_, Certificate.readWith_sealed hpasses hder hsize, ?_, rfl⟩
          simp [Certificate.publicInfo, Keys.PrivateKey.publicInfo, Asn1.sequence, Asn1.bitString]
      · cases h
  · cases h

end RegistryFront.X509
