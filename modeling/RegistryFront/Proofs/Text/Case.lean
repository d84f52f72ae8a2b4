import Mathlib.Data.List.Forall2
import RegistryFront.Acme.ChallengeBoard

/-!
# Letters in either case

Two texts are alike when they differ at most in the case of ASCII letters.  The form in which a
domain counts is one and the same for just those texts that are alike.
-/

namespace RegistryFront

namespace Text

def IsCapitalOf (capital small : Char) : Prop :=
  capital.isUpper ∧ small.toNat = capital.toNat + 32

def AlikeChars (c d : Char) : Prop := c = d ∨ IsCapitalOf c d ∨ IsCapitalOf d c

def Alike (first second : String) : Prop := List.Forall₂ AlikeChars first.toList second.toList

theorem isUpper_iff (c : Char) : c.isUpper = true ↔ 65 ≤ c.toNat ∧ c.toNat ≤ 90 := by
  have hval : c.isUpper = true ↔ 'A'.val ≤ c.val ∧ c.val ≤ 'Z'.val := decide_eq_true_iff
  simp [hval, UInt32.le_iff_toNat_le, ← Char.toNat_val]

theorem toNat_toLower (c : Char) :
    c.toLower.toNat = if c.isUpper then c.toNat + 32 else c.toNat := by
  by_cases h : c.isUpper = true
  · obtain ⟨-, hle⟩ := (isUpper_iff c).mp h
    have hlower : c.toLower.toNat = (c.val + ('a'.val - 'A'.val)).toNat := by
      exact congrArg Char.toNat (dif_pos (of_decide_eq_true h))
    have hval : c.val.toNat = c.toNat := rfl
    have hoffset : ('a'.val - 'A'.val).toNat = 32 := rfl
    rw [if_pos h, hlower, UInt32.toNat_add, hval, hoffset]
    omega
  · rw [if_neg h]
    exact congrArg Char.toNat (dif_neg fun hrange => h (decide_eq_true hrange))

theorem toLower_eq_iff (c d : Char) : c.toLower = d.toLower ↔ AlikeChars c d := by
  rw [AlikeChars, IsCapitalOf, IsCapitalOf, ← Char.toNat_inj, ← Char.toNat_inj, toNat_toLower,
    toNat_toLower]
  simp only [isUpper_iff]
  split <;> split <;> omega

end Text

namespace Acme.ChallengeBoard

theorem fold_eq_iff (first second : String) :
    fold first = fold second ↔ Text.Alike first second := by
  have hchars : fold first = fold second ↔
      first.toList.map Char.toLower = second.toList.map Char.toLower := by
    rw [fold, fold, ← String.toList_inj, String.toList_map, String.toList_map]
  rw [hchars, Text.Alike, ← List.forall₂_eq_eq_eq, List.forall₂_map_left_iff,
    List.forall₂_map_right_iff]
  simp only [Text.toLower_eq_iff]

end Acme.ChallengeBoard

end RegistryFront
