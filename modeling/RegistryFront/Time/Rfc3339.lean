import RegistryFront.Text.Blank
import RegistryFront.Text.Utf8
import RegistryFront.Time.Instant

/-!
# Instants as text

Written as `2026-11-19T21:32:37Z`, with a fraction of three, six or nine digits when there is one, and
with a sign and at least four digits for the year where four digits alone do not do.  Reading is more
lenient: white space, missing leading zeros, a blank for the `T`, other offsets than `Z`, and any
number of digits in the fraction.
-/

namespace RegistryFront.Time.Rfc3339

/-! ## Writing -/

def padded (width n : Nat) : List Char :=
  let digits := Nat.toDigits 10 n
  List.replicate (width - digits.length) '0' ++ digits

def writeYear (year : Int) : List Char :=
  if 0 ≤ year ∧ year ≤ 9999 then padded 4 year.toNat
  else (if year < 0 then '-' else '+') :: padded 4 year.natAbs

def writeFraction (nano : Nat) : List Char :=
  if nano = 0 then []
  else if nano % 1000000 = 0 then '.' :: padded 3 (nano / 1000000)
  else if nano % 1000 = 0 then '.' :: padded 6 (nano / 1000)
  else '.' :: padded 9 nano

def writeChars (t : Instant) : List Char :=
  let date := Calendar.dateOf t.day
  let second := t.second % 60 + t.nano / billion
  writeYear date.year ++ '-' :: padded 2 date.month ++ '-' :: padded 2 date.day ++
    'T' :: padded 2 (t.second / 3600) ++ ':' :: padded 2 (t.second / 60 % 60) ++
    ':' :: padded 2 second ++ writeFraction (t.nano % billion) ++ ['Z']

def write (t : Instant) : String := String.ofList (writeChars t)

/-! ## Reading -/

inductive ReadError where
  | outOfRange
  | invalid
  | tooShort
  | tooLong
  | impossible
  deriving DecidableEq, Repr

def ReadError.message : ReadError → String
  | .outOfRange => "input is out of range"
  | .invalid => "input contains invalid characters"
  | .tooShort => "premature end of input"
  | .tooLong => "trailing input"
  | .impossible => "no possible date and time matching input"

def isDigit (c : Char) : Bool := '0' ≤ c && c ≤ '9'

def digitValue (c : Char) : Nat := c.toNat - 48

def trimStart (text : List Char) : List Char := text.dropWhile Text.isBlank

/-- No number in a date may be larger. -/
def maxNumber : Nat := 9223372036854775807

def readDigits (value : Nat) : List Char → Except ReadError Nat
  | [] => .ok value
  | c :: rest =>
      let next := 10 * value + digitValue c
      if next ≤ maxNumber then readDigits next rest else .error .outOfRange

def readNumber (width : Option Nat) (text : List Char) : Except ReadError (Nat × List Char) := do
  let window := (width.map fun w => text.take w).getD text
  let digits := window.takeWhile isDigit
  if text = [] then .error .tooShort
  else if digits = [] then .error .invalid
  else .ok (← readDigits 0 digits, text.drop digits.length)

def readYear (text : List Char) : Except ReadError (Int × List Char) := do
  let (year, rest) ← match trimStart text with
    | '-' :: rest => (readNumber none rest).map fun (n, rest) => (-(n : Int), rest)
    | '+' :: rest => (readNumber none rest).map fun (n, rest) => ((n : Int), rest)
    | rest => (readNumber (some 4) rest).map fun (n, rest) => ((n : Int), rest)
  if -2147483648 ≤ year ∧ year ≤ 2147483647 then .ok (year, rest) else .error .outOfRange

def readField (low high : Nat) (text : List Char) : Except ReadError (Nat × List Char) := do
  let (n, rest) ← readNumber (some 2) (trimStart text)
  if low ≤ n ∧ n ≤ high then .ok (n, rest) else .error .outOfRange

def readMark (mark : Char) (text : List Char) : Except ReadError (List Char) :=
  match trimStart text with
  | [] => .error .tooShort
  | c :: rest => if c = mark then .ok rest else .error .invalid

/-- The fraction of a second in nanoseconds; digits past the ninth are dropped. -/
def readFraction : List Char → Except ReadError (Nat × List Char)
  | '.' :: text => do
      let (n, rest) ← readNumber (some 9) text
      .ok (n * Nat.pow 10 (9 - (text.length - rest.length)), rest.dropWhile isDigit)
  | text => .ok (0, text)

def readTwoDigits (text : List Char) : Except ReadError (Nat × List Char) :=
  match text with
  | a :: b :: rest =>
      if isDigit a && isDigit b then .ok (10 * digitValue a + digitValue b, rest)
      else .error .invalid
  | _ => if (Text.Utf8.encodeChars text).length < 2 then .error .tooShort else .error .invalid

def readOffset (text : List Char) : Except ReadError (Int × List Char) :=
  match text with
  | 'Z' :: rest | 'z' :: rest => .ok (0, rest)
  | [] => .error .tooShort
  | sign :: rest => do
      if sign ≠ '+' ∧ sign ≠ '-' ∧ sign ≠ '\u2212' then .error .invalid
      else
        let (hours, rest) ← readTwoDigits rest
        let (minutes, rest) ← readTwoDigits (rest.dropWhile fun c => c == ':' || Text.isBlank c)
        if 60 ≤ minutes then .error .outOfRange
        else
          let seconds : Int := hours * 3600 + minutes * 60
          .ok (if sign = '+' then seconds else -seconds, rest)

def readZone (text : List Char) : Except ReadError (Int × List Char) :=
  if (text.take 3).map Char.toUpper = ['U', 'T', 'C'] then .ok (0, text.drop 3)
  else readOffset text

def readChars (text : List Char) : Except ReadError Instant := do
  let (year, rest) ← readYear text
  let (month, rest) ← readField 1 12 (← readMark '-' rest)
  let (day, rest) ← readField 1 31 (← readMark '-' rest)
  let rest ← match rest with
    | [] => .error .tooShort
    | c :: rest => if c = 't' ∨ c = 'T' ∨ c = ' ' then .ok rest else .error .invalid
  let (hour, rest) ← readField 0 23 rest
  let (minute, rest) ← readField 0 59 (← readMark ':' rest)
  let (second, rest) ← readField 0 60 (← readMark ':' rest)
  let (fraction, rest) ← readFraction rest
  let (offset, rest) ← readZone (trimStart rest)
  if trimStart rest ≠ [] then .error .tooLong
  else if ¬ Calendar.isDate ⟨year, month, day⟩ then .error .outOfRange
  else if (secondsPerDay : Int) ≤ offset.natAbs then .error .outOfRange
  else
    let nano := if second = 60 then billion + fraction else fraction
    let secondOfDay := hour * 3600 + minute * 60 + min second 59
    let seconds := Calendar.dayNumber ⟨year, month, day⟩ * secondsPerDay + secondOfDay - offset
    match Instant.ofUnix? seconds nano with
    | some t => .ok t
    | none => .error .impossible

def read (text : String) : Except ReadError Instant := readChars text.toList

end RegistryFront.Time.Rfc3339
