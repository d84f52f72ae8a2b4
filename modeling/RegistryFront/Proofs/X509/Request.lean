import RegistryFront.Proofs.Asn1.Der
import RegistryFront.Proofs.Text.Utf8
import RegistryFront.X509.Builder
import RegistryFront.X509.Request

/-!
# The names of a request

The names a request is made for are the ones that are read in it.
-/

namespace RegistryFront.X509

open Asn1 (Sayable)

/-! ## Names -/

namespace AlternativeName

def part : AlternativeName → UInt8 × Bytes
  | .dns name => (dnsTag, Text.Utf8.encode name)
  | .ip bytes => (ipTag, bytes)

theorem write_eq (name : AlternativeName) : name.write = Asn1.encode name.part.1 name.part.2 := by
  cases name <;> rfl

theorem ofValue?_part (name : AlternativeName) : ofValue? name.part = some name := by
  cases name with
  | dns name => simp [ofValue?, part]
  | ip bytes =>
      have htag : ipTag ≠ dnsTag := by decide
      simp [ofValue?, part, htag]

theorem isLow_part (name : AlternativeName) : Asn1.IsLow name.part.1 := by
  cases name with
  | dns => exact (by decide : Asn1.IsLow dnsTag)
  | ip => exact (by decide : Asn1.IsLow ipTag)

theorem readAll?_extension {names : List AlternativeName}
    (h : Sayable (extension names).value.length) :
    readAll? (extension names).value = some names := by
  have hparts : (names.map write).flatten =
      (names.map part).flatMap fun part => Asn1.encode part.1 part.2 := by
    rw [List.flatMap_map, ← List.flatMap_def]
    exact congrArg (List.flatMap · names) (funext write_eq)
  have hcontent : Sayable (names.map write).flatten.length := Sayable.inside h
  have hlow : ∀ found ∈ names.map part, Asn1.IsLow found.1 := by
    simpa using fun name _ => isLow_part name
  have hvalues : Asn1.values (names.map write).flatten = some (names.map part) := by
    rw [hparts] at hcontent ⊢
    exact Asn1.values_flatMap _ hlow hcontent
  have hread : (names.map part).filterMap ofValue? = names := by
    rw [List.filterMap_map, (funext ofValue?_part : ofValue? ∘ part = some), List.filterMap_some]
  simp only [readAll?, extension, Asn1.sequence,
    Asn1.expectAll_encode (show Asn1.IsLow Asn1.Tag.sequence by decide) hcontent, hvalues, hread,
    bind, Option.bind]

end AlternativeName

/-! ## Requests -/

def wish (names : List AlternativeName) : Bytes :=
  Asn1.sequence [Asn1.objectId extensionRequestId,
    Asn1.encode Asn1.Tag.setOf (Asn1.sequence [(AlternativeName.extension names).write])]

def requested (names : List AlternativeName) (key : Keys.PrivateKey) : Bytes :=
  Asn1.sequence [Asn1.natural 0, Asn1.sequence [], key.publicInfo,
    Asn1.encode (Asn1.Tag.context 0 true) (wish names)]

theorem exists_of_request {names : List AlternativeName} {key : Keys.PrivateKey}
    {entropy : Keys.Entropy} {csr : Bytes} (h : request names key entropy = .ok csr) :
    ∃ algorithm signature, csr = Asn1.sequence [requested names key, algorithm, signature] := by
  have heq : request names key entropy = sealed key (requested names key) entropy := rfl
  rw [heq, sealed] at h
  split at h
  · exact ⟨_, _, (Except.ok.inj h).symm⟩
  · cases h

namespace RequestSummary

open Asn1 (isLow_integer isLow_octetString isLow_objectId isLow_sequence isLow_setOf expect_front)

theorem wishedNames?_extension {names : List AlternativeName}
    (h : Sayable (AlternativeName.extension names).write.length) :
    wishedNames? (AlternativeName.extension names).write = some names := by
  have hread (hvalue : Sayable (AlternativeName.extension names).value.length) :=
    AlternativeName.readAll?_extension hvalue
  have hwrite : (AlternativeName.extension names).write = Asn1.encode Asn1.Tag.sequence
      (Asn1.encode Asn1.Tag.objectId Extension.alternativeNamesId ++
        Asn1.encode Asn1.Tag.octetString (AlternativeName.extension names).value) := by
    simp [Extension.write, AlternativeName.extension, Asn1.sequence, Asn1.octetString]
  generalize (AlternativeName.extension names).value = value at hread hwrite
  rw [hwrite] at h ⊢
  have hinner := Asn1.values_flatMap
    [(Asn1.Tag.objectId, Extension.alternativeNamesId), (Asn1.Tag.octetString, value)]
    (by simp [isLow_objectId, isLow_octetString]) (by simpa using h.inside)
  have houter := Asn1.values_flatMap
    [(Asn1.Tag.sequence, Asn1.encode Asn1.Tag.objectId Extension.alternativeNamesId ++
      Asn1.encode Asn1.Tag.octetString value)] (by simp [isLow_sequence]) (by simpa using h)
  simp only [List.flatMap_cons, List.flatMap_nil, List.append_nil] at hinner houter
  rw [wishedNames?, houter]
  simp [hinner, hread h.inside.split.2.inside]

theorem ofAttributes?_wish {names : List AlternativeName} (h : Sayable (wish names).length) :
    ofAttributes? (wish names) = some names := by
  have hwish : wish names = Asn1.encode Asn1.Tag.sequence
      (Asn1.encode Asn1.Tag.objectId (Asn1.objectIdContent extensionRequestId) ++
        Asn1.encode Asn1.Tag.setOf
          (Asn1.encode Asn1.Tag.sequence (AlternativeName.extension names).write)) := by
    simp [wish, Asn1.sequence, Asn1.objectId]
  rw [hwish] at h ⊢
  have hset := h.inside.split.2.inside
  simp only [ofAttributes?, Asn1.expect_encode_alone isLow_sequence h.inside,
    expect_front isLow_objectId h.inside, Asn1.expect_encode_alone isLow_setOf hset,
    Asn1.expect_encode_alone isLow_sequence hset.inside, wishedNames?_extension hset.inside, bind,
    Option.bind]

theorem ofDer?_request {names : List AlternativeName} {key : Keys.CurveKey}
    {entropy : Keys.Entropy} {csr : Bytes} (h : request names (.curve key) entropy = .ok csr)
    (hsize : Sayable csr.length) :
    ofDer? csr = some ⟨"", Keys.curveId, names⟩ := by
  obtain ⟨algorithm, signature, rfl⟩ := exists_of_request h
  have hname : Name.text? [] = some "" := by decide
  have hid : Asn1.readObjectId (Asn1.objectIdContent Keys.curveId) = some Keys.curveId := by
    decide +kernel
  have hcontext : Asn1.IsLow (Asn1.Tag.context 0 true) := by decide
  simp only [requested, Keys.PrivateKey.publicInfo, Keys.PrivateKey.algorithm, Asn1.sequence,
    Asn1.objectId, Asn1.natural_zero, List.flatten_cons, List.flatten_nil, List.append_nil] at hsize ⊢
  -- what is said of the size of the whole holds of every part, one level after the other
  have hcsr := hsize.inside
  have hsigned := hcsr.split.1
  have hbehindVersion := hsigned.split.2
  have hbehindSubject := hbehindVersion.split.2
  have hpublic := hbehindSubject.split.1
  have hwish := hbehindSubject.split.2.inside
  simp only [ofDer?, Asn1.expect_encode_alone isLow_sequence hcsr, expect_front isLow_sequence hcsr,
    expect_front isLow_integer hsigned, expect_front isLow_sequence hbehindVersion,
    expect_front isLow_sequence hbehindSubject, expect_front isLow_sequence hpublic,
    expect_front isLow_objectId hpublic.split.1, Asn1.expect_encode_alone hcontext hwish, hname, hid,
    ofAttributes?_wish hwish, bind, Option.bind]

end RequestSummary

end RegistryFront.X509
