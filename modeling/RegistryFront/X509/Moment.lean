import RegistryFront.Asn1.Der
import RegistryFront.Time.Rfc3339

/-!
# Times in certificates

Times to the second, in Universal Time.  Years from 1950 to 2049 are written with their last two
digits, all others in full.
-/

namespace RegistryFront.X509.Moment

def asciiBytes (text : List Char) : Bytes := text.map fun c => UInt8.ofNat c.toNat

/-- A time in seconds since 1970, for years from 0 to 9999. -/
def write (seconds : Int) : Bytes :=
  let date := Time.Calendar.dateOf (seconds / 86400)
  let second := (seconds % 86400).toNat
  let padded := Time.Rfc3339.padded 2
  let rest := padded date.month ++ padded date.day ++ padded (second / 3600) ++
    padded (second / 60 % 60) ++ padded (second % 60) ++ ['Z']
  if 1950 ≤ date.year ∧ date.year ≤ 2049 then
    Asn1.encode Asn1.Tag.utcTime (asciiBytes (padded (date.year % 100).toNat ++ rest))
  else
    Asn1.encode Asn1.Tag.generalizedTime
      (asciiBytes (Time.Rfc3339.padded 4 date.year.toNat ++ rest))

/-! ## Reading -/

def digit? (b : UInt8) : Option Nat := if 48 ≤ b ∧ b ≤ 57 then some (b.toNat - 48) else none

def pairs : Bytes → Option (List Nat)
  | a :: b :: rest => do
      let a ← digit? a
      let b ← digit? b
      ((10 * a + b) :: ·) <$> pairs rest
  | [] => some []
  | [_] => none

def seconds? (date : Time.Date) (hour minute second : Nat) : Option Int :=
  if Time.Calendar.isDate date ∧ hour < 24 ∧ minute < 60 ∧ second < 60 then
    some (Time.Calendar.dayNumber date * 86400 + (3600 * hour + 60 * minute + second : Nat))
  else none

def beforeZulu? (content : Bytes) : Option Bytes :=
  if content.getLast? = some 90 then some content.dropLast else none

def read? (tag : UInt8) (content : Bytes) : Option Int := do
  let numbers ← pairs (← beforeZulu? content)
  if tag = Asn1.Tag.utcTime then
    match numbers with
    | [yy, month, day, hour, minute, second] =>
        seconds? ⟨if 50 ≤ yy then 1900 + yy else 2000 + yy, month, day⟩ hour minute second
    | _ => none
  else if tag = Asn1.Tag.generalizedTime then
    match numbers with
    | [cc, yy, month, day, hour, minute, second] =>
        seconds? ⟨100 * cc + yy, month, day⟩ hour minute second
    | _ => none
  else none

end RegistryFront.X509.Moment
