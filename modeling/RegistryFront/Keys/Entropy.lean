import RegistryFront.Digest.Sha256

/-!
# Entropy

A source of chance gives streams of bytes, and they may be any bytes.  Whoever draws on it gets a stream
of his own.  Where there is no such source a seed is stretched: the digests of the seed with running
numbers.
-/

namespace RegistryFront.Keys

structure Entropy where
  streams : Nat → Nat → UInt8
  stream : Nat
  drawn : Nat

namespace Entropy

def ofSeed (seed : Bytes) : Entropy where
  streams stream i :=
    let numbers := Digest.bytesOfNat 8 stream ++ Digest.bytesOfNat 8 (i / 32)
    (Digest.sha256 (seed ++ numbers)).getD (i % 32) 0
  stream := 0
  drawn := 0

def bytes (entropy : Entropy) (count : Nat) : Bytes × Entropy :=
  ((List.range count).map fun i => entropy.streams entropy.stream (entropy.drawn + i),
    { entropy with drawn := entropy.drawn + count })

def nextStream (entropy : Entropy) : Entropy :=
  { entropy with stream := entropy.stream + 1, drawn := 0 }

/-- A number below the limit; many more bits are drawn than it has, so that all are alike. -/
def below (entropy : Entropy) (limit : Nat) : Nat × Entropy :=
  let (bytes, entropy) := entropy.bytes (limit.log2 / 8 + 16)
  (Digest.natOfBytes bytes % limit, entropy)

end Entropy

end RegistryFront.Keys
