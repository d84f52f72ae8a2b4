import RegistryFront.Pem.Basic

/-!
# Writing PEM sections

The body is cut into lines of 64 characters, and every line ends with a line feed.
-/

namespace RegistryFront.Pem

def lineWidth : Nat := 64

/-- Cuts into lines of at most `width + 1` bytes, each ended. -/
def wrap (width : Nat) (text : Bytes) : Bytes :=
  match text with
  | [] => []
  | b :: rest => b :: rest.take width ++ 10 :: wrap width (rest.drop width)
termination_by text.length
decreasing_by
  simp only [List.length_drop, List.length_cons]
  omega

def write (kind : Kind) (body : Bytes) : Bytes :=
  beginMark ++ kind.labelBytes ++ dashes ++ 10 :: wrap (lineWidth - 1) (Base64.encode body) ++
    endMark kind.labelBytes ++ [10]

def writeText (kind : Kind) (body : Bytes) : String :=
  String.ofList ((write kind body).map fun b => Char.ofNat b.toNat)

end RegistryFront.Pem
