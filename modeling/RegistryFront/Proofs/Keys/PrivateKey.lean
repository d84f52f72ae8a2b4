import RegistryFront.Keys.PrivateKey
import RegistryFront.Proofs.Asn1.Der

/-!
# Keys come back from what is written

A key on a curve, written with its kind, is read again: the number, the curve, and the public key that
is given along.
-/

namespace RegistryFront

namespace Digest

/-! ## Numbers of a fixed width -/

theorem bytesOfNat_succ (count n : Nat) :
    bytesOfNat (count + 1) n = bytesOfNat count (n / 256) ++ [UInt8.ofNat n] := by
  rw [bytesOfNat, List.range_succ, List.map_append, bytesOfNat]
  congr 1
  · refine List.map_congr_left fun i hi => ?_
    have hlt : i < count := List.mem_range.mp hi
    have hpower : Nat.pow 256 (count + 1 - 1 - i) = 256 * Nat.pow 256 (count - 1 - i) := by
      rw [show count + 1 - 1 - i = count - 1 - i + 1 by omega, Nat.mul_comm]
      rfl
    rw [hpower, Nat.div_div_eq_div_mul]
  · simp

@[simp] theorem length_bytesOfNat (count n : Nat) : (bytesOfNat count n).length = count := by
  simp [bytesOfNat]

theorem natOfBytes_append_singleton (bytes : Bytes) (b : UInt8) :
    natOfBytes (bytes ++ [b]) = 256 * natOfBytes bytes + b.toNat := by
  simp [natOfBytes]

theorem natOfBytes_bytesOfNat {count n : Nat} (h : n < 256 ^ count) :
    natOfBytes (bytesOfNat count n) = n := by
  induction count generalizing n with
  | zero =>
      obtain rfl : n = 0 := by simpa using h
      rfl
  | succ count ih =>
      have hdiv : n / 256 < 256 ^ count := by
        rw [Nat.pow_succ] at h
        omega
      rw [bytesOfNat_succ, natOfBytes_append_singleton, ih hdiv, UInt8.toNat_ofNat']
      omega

end Digest

namespace Keys

open Asn1 (IsLow Sayable isLow_integer isLow_bitString isLow_octetString isLow_objectId
  isLow_sequence length_encode_le)

variable {key : CurveKey}

theorem Curve.order_lt (curve : Curve) : curve.order < 256 ^ curve.width := by
  cases curve <;> decide

theorem CurveKey.make?_self (key : CurveKey) : make? key.curve key.secret = some key :=
  dif_pos ⟨key.secret_pos, key.secret_lt⟩

/-! ## Sizes -/

theorem Curve.width_le (curve : Curve) : curve.width ≤ 66 := by
  cases curve <;> decide

theorem Curve.length_writePoint_le (curve : Curve) (point : Curve.Point) :
    (curve.writePoint point).length ≤ 133 := by
  have hwidth := curve.width_le
  cases point with
  | infinity => simp [Curve.writePoint]
  | affine x y =>
      simp [Curve.writePoint]
      omega

namespace PrivateKey

/-! ## Optional values -/

theorem optional_self (tag : UInt8) (content : Bytes) (rest : List (UInt8 × Bytes)) :
    optional tag ((tag, content) :: rest) = (some content, rest) := by
  simp [optional]

theorem optional_of_ne {tag found : UInt8} (h : found ≠ tag) (content : Bytes)
    (rest : List (UInt8 × Bytes)) :
    optional tag ((found, content) :: rest) = (none, (found, content) :: rest) := by
  simp [optional, h]

/-! ## Keys on a curve -/

def givenPublic (key : CurveKey) : Bytes := Asn1.bitString (key.curve.writePoint key.publicPoint)

def curveParts (key : CurveKey) : List (UInt8 × Bytes) :=
  [(Asn1.Tag.integer, [1]), (Asn1.Tag.octetString, Digest.bytesOfNat key.curve.width key.secret),
    (Asn1.Tag.context 1 true, givenPublic key)]

theorem writeCurve_eq (key : CurveKey) :
    writeCurve key = Asn1.encode Asn1.Tag.sequence
      ((curveParts key).flatMap fun part => Asn1.encode part.1 part.2) := by
  simp [writeCurve, Asn1.sequence, curveParts, Asn1.natural_one, givenPublic, Asn1.octetString]

theorem length_writeCurve_le (key : CurveKey) : (writeCurve key).length ≤ 2000 := by
  have hwidth := key.curve.width_le
  have hpoint := key.curve.length_writePoint_le key.publicPoint
  have hnumber := length_encode_le Asn1.Tag.octetString
    (Digest.bytesOfNat key.curve.width key.secret)
  have hbits : (givenPublic key).length ≤ _ := length_encode_le Asn1.Tag.bitString _
  have hgiven := length_encode_le (Asn1.Tag.context 1 true) (givenPublic key)
  have hone : (Asn1.encode Asn1.Tag.integer [1]).length = 3 := by decide
  rw [writeCurve_eq]
  refine Nat.le_trans (length_encode_le _ _) ?_
  simp only [curveParts, List.flatMap_cons, List.flatMap_nil, List.append_nil, List.length_append,
    List.length_cons, Digest.length_bytesOfNat] at *
  omega

theorem sayable_writeCurve (key : CurveKey) : Sayable (writeCurve key).length :=
  Nat.lt_of_le_of_lt (length_writeCurve_le key) (by decide)

theorem isPublicOf_given (key : CurveKey) :
    ((Asn1.expectAll Asn1.Tag.bitString (givenPublic key)).bind Asn1.readBits).any
      (isPublicOf key) = true := by
  have hsize : Sayable (0 :: key.curve.writePoint key.publicPoint).length :=
    Nat.lt_of_le_of_lt (Nat.succ_le_succ (key.curve.length_writePoint_le _)) (by decide)
  rw [givenPublic, Asn1.bitString, Asn1.expectAll_encode isLow_bitString hsize]
  simp [Asn1.readBits, isPublicOf]

theorem readCurve_writeCurve (key : CurveKey) :
    readCurve key.curve (writeCurve key) = some (.curve key) := by
  have h := sayable_writeCurve key
  rw [writeCurve_eq] at h ⊢
  have hlow : ∀ part ∈ curveParts key, IsLow part.1 := by
    simp only [curveParts, List.forall_mem_cons]
    exact ⟨by decide, by decide, by decide, nofun⟩
  have hvalues := Asn1.values_flatMap (curveParts key) hlow h.inside
  have hone : Asn1.readNatural [1] = some 1 := by decide
  -- the number of a key is less than the order, so its bytes are enough
  have hsecret := Digest.natOfBytes_bytesOfNat (Nat.lt_trans key.secret_lt key.curve.order_lt)
  have htag : Asn1.Tag.context 1 true ≠ Asn1.Tag.context 0 true := by decide
  simp only [readCurve, Asn1.expectAll_encode isLow_sequence h.inside, hvalues, bind, Option.bind_some]
  simp [curveParts, hone, hsecret, key.make?_self, optional_of_ne htag, optional_self,
    isPublicOf_given]

/-! ## Keys with their kind -/

def kindOf (curve : Curve) : Bytes := Asn1.objectId curveId ++ Asn1.objectId curve.objectId

def IsNamed (curve : Curve) : Prop :=
  Asn1.values (kindOf curve) = some [(Asn1.Tag.objectId, Asn1.objectIdContent curveId),
      (Asn1.Tag.objectId, Asn1.objectIdContent curve.objectId)] ∧
    Curve.all.find? (fun named =>
      Asn1.objectIdContent named.objectId == Asn1.objectIdContent curve.objectId) = some curve ∧
    (kindOf curve).length ≤ 40

instance (curve : Curve) : Decidable (IsNamed curve) := inferInstanceAs (Decidable (_ ∧ _ ∧ _))

theorem isNamed (curve : Curve) : IsNamed curve := by
  have hall : ∀ curve ∈ Curve.all, IsNamed curve := by decide +kernel
  exact hall curve (by cases curve <;> decide)

def wrappedParts (key : CurveKey) : List (UInt8 × Bytes) :=
  [(Asn1.Tag.integer, [0]),
    (Asn1.Tag.sequence, kindOf key.curve),
    (Asn1.Tag.octetString, writeCurve key)]

theorem write_eq (key : CurveKey) :
    write (.curve key) = Asn1.encode Asn1.Tag.sequence
      ((wrappedParts key).flatMap fun part => Asn1.encode part.1 part.2) := by
  simp [write, writeBare, algorithm, Asn1.sequence, wrappedParts, kindOf, Asn1.natural_zero,
    Asn1.octetString]

theorem sayable_write (key : CurveKey) : Sayable (write (.curve key)).length := by
  have hbare := length_writeCurve_le key
  have hwrapped := length_encode_le Asn1.Tag.octetString (writeCurve key)
  have hkind := length_encode_le Asn1.Tag.sequence (kindOf key.curve)
  have hnamed := (isNamed key.curve).2.2
  have hzero : (Asn1.encode Asn1.Tag.integer [0]).length = 3 := by decide
  have hwhole : (write (.curve key)).length ≤ 10000 := by
    rw [write_eq]
    refine Nat.le_trans (length_encode_le _ _) ?_
    simp only [wrappedParts, List.flatMap_cons, List.flatMap_nil, List.append_nil,
      List.length_append] at *
    omega
  exact Nat.lt_of_le_of_lt hwhole (by decide)

theorem readKind_curve (curve : Curve) (bare : Bytes) :
    readKind curveId [(Asn1.Tag.objectId, Asn1.objectIdContent curve.objectId)] bare =
      readCurve curve bare := by
  have hkind : curveId ≠ rsaId := by decide
  simp [readKind, hkind, (isNamed curve).2.1]

theorem readWrapped_write (key : CurveKey) : readWrapped (write (.curve key)) = some (.curve key) := by
  have h := sayable_write key
  rw [write_eq] at h ⊢
  have hlow : ∀ part ∈ wrappedParts key, IsLow part.1 := by
    simp only [wrappedParts, List.forall_mem_cons]
    exact ⟨by decide, by decide, by decide, nofun⟩
  have hvalues := Asn1.values_flatMap (wrappedParts key) hlow h.inside
  have hzero : Asn1.readNatural [0] = some 0 := by decide
  have htail : isTail 0 [] = true := by decide
  have hid : Asn1.readObjectId (Asn1.objectIdContent curveId) = some curveId := by decide +kernel
  simp only [readWrapped, Asn1.expectAll_encode isLow_sequence h.inside, hvalues, bind,
    Option.bind_some]
  simp [wrappedParts, hzero, htail, (isNamed key.curve).1, hid, readKind_curve,
    readCurve_writeCurve]

theorem read?_write (key : CurveKey) : read? .pkcs8 (write (.curve key)) = some (.curve key) :=
  readWrapped_write key

end PrivateKey

end Keys

end RegistryFront
