import RegistryFront.Base64

/-!
# Base64 without leniency

The variant for addresses, read in its only right form, with the first fault and its place.  All groups
of four but the last are looked at first; then the last one, with what may be wrong about its length.
-/

namespace RegistryFront.Base64

inductive Fault where
  | symbol (byte : UInt8) (offset : Nat)
  | length (count : Nat)
  | lastSymbol (byte : UInt8) (offset : Nat)
  | padding
  deriving DecidableEq, Repr

def Fault.message : Fault → String
  | .symbol byte offset =>
      "Invalid symbol " ++ toString byte.toNat ++ ", offset " ++ toString offset ++ "."
  | .length count => "Invalid input length: " ++ toString count
  | .lastSymbol byte offset =>
      "Invalid last symbol " ++ toString byte.toNat ++ ", offset " ++ toString offset ++ "."
  | .padding => "Invalid padding"

namespace Strict

def firstFault? (offset : Nat) : Bytes → Option Fault
  | [] => none
  | b :: rest =>
      if (urlSafe.value? b).isNone then some (.symbol b offset) else firstFault? (offset + 1) rest

/-- The values of the last group; filling may only stand at its end, behind two of them. -/
def lastValues (start offset : Nat) : Bytes → Except Fault (List Nat)
  | [] => .ok []
  | b :: rest =>
      if b = pad then
        if offset < 2 then .error (.symbol b (start + offset))
        else if rest.all (· == pad) then .ok []
        else .error (.symbol b (start + offset))
      else
        match urlSafe.value? b with
        | none => .error (.symbol b (start + offset))
        | some value => (lastValues start (offset + 1) rest).map (value :: ·)

/-- Bits of the last value that belong to no byte have to be zero. -/
def hasSpareBits : List Nat → Bool
  | [_, b] => b % 16 ≠ 0
  | [_, _, c] => c % 4 ≠ 0
  | _ => false

def checkLast (start : Nat) (last : Bytes) : Except Fault Unit := do
  let values ← lastValues start 0 last
  if values.length < 2 ∧ start + last.length ≠ 0 then .error (.length (start + values.length))
  else if values.length < last.length then .error .padding
  else if hasSpareBits values then
    .error (.lastSymbol (last.getLastD 0) (start + values.length - 1))
  else .ok ()

/-- A single byte left over is looked at before all others. -/
def strayFault? (text : Bytes) : Option Fault :=
  match text.getLast? with
  | some b =>
      if text.length % 4 = 1 ∧ b ≠ pad ∧ (urlSafe.value? b).isNone then
        some (.symbol b (text.length - 1))
      else none
  | none => none

def lastStart (text : Bytes) : Nat := (text.length - 1) / 4 * 4

def check (text : Bytes) : Except Fault Unit :=
  match strayFault? text with
  | some fault => .error fault
  | none =>
      match firstFault? 0 (text.take (lastStart text)) with
      | some fault => .error fault
      | none => checkLast (lastStart text) (text.drop (lastStart text))

end Strict

def decodeStrict (text : Bytes) : Except Fault Bytes := do
  Strict.check text
  match urlSafe.decodeBare? text with
  | some bytes => .ok bytes
  | none => .error .padding

end RegistryFront.Base64
