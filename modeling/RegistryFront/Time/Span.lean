/-!
# Lengths of time in messages

Whole seconds with a fraction as long as needed, below a second whole milliseconds.
-/

namespace RegistryFront.Time

/-- A length of time in milliseconds. -/
structure Span where
  millis : Nat
  deriving DecidableEq, Repr

namespace Span

def ofSeconds (seconds : Nat) : Span := ⟨1000 * seconds⟩

def fraction (width n : Nat) : String :=
  let digits := Nat.toDigits 10 n
  let all := List.replicate (width - digits.length) '0' ++ digits
  String.ofList ((all.reverse.dropWhile (· == '0')).reverse)

def text (span : Span) : String :=
  let seconds := span.millis / 1000
  let rest := span.millis % 1000
  if seconds = 0 then (if rest = 0 then "0ns" else toString rest ++ "ms")
  else if rest = 0 then toString seconds ++ "s"
  else toString seconds ++ "." ++ fraction 3 rest ++ "s"

end Span

end RegistryFront.Time
