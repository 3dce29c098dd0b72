import Enrollment.Bytes
namespace Enrollment

/-!
# SHA-256 and HMAC

The message is padded to whole blocks of sixty-four bytes.  Each block is
expanded into a schedule of sixty-four words and mixed into a chaining value of
eight words, whose big-endian bytes are the digest.  For HMAC a key longer than a
block is replaced by its digest; the key is then filled up to a block with zeros and
masks the inner and the outer hash.
-/

namespace Sha256

abbrev Word := UInt32

def rotr (x : Word) (n : Word) : Word := (x >>> n) ||| (x <<< (32 - n))

def choose (x y z : Word) : Word := (x &&& y) ^^^ (~~~x &&& z)
def majority (x y z : Word) : Word := (x &&& y) ^^^ (x &&& z) ^^^ (y &&& z)
def bigSigma0 (x : Word) : Word := rotr x 2 ^^^ rotr x 13 ^^^ rotr x 22
def bigSigma1 (x : Word) : Word := rotr x 6 ^^^ rotr x 11 ^^^ rotr x 25
def smallSigma0 (x : Word) : Word := rotr x 7 ^^^ rotr x 18 ^^^ (x >>> 3)
def smallSigma1 (x : Word) : Word := rotr x 17 ^^^ rotr x 19 ^^^ (x >>> 10)

/-- First thirty-two bits of the fractional parts of the cube roots of the
first sixty-four primes. -/
def roundConstants : List Word := [
  0x428a2f98, 0x71374491, 0xb5c0fbcf, 0xe9b5dba5, 0x3956c25b, 0x59f111f1, 0x923f82a4, 0xab1c5ed5,
  0xd807aa98, 0x12835b01, 0x243185be, 0x550c7dc3, 0x72be5d74, 0x80deb1fe, 0x9bdc06a7, 0xc19bf174,
  0xe49b69c1, 0xefbe4786, 0x0fc19dc6, 0x240ca1cc, 0x2de92c6f, 0x4a7484aa, 0x5cb0a9dc, 0x76f988da,
  0x983e5152, 0xa831c66d, 0xb00327c8, 0xbf597fc7, 0xc6e00bf3, 0xd5a79147, 0x06ca6351, 0x14292967,
  0x27b70a85, 0x2e1b2138, 0x4d2c6dfc, 0x53380d13, 0x650a7354, 0x766a0abb, 0x81c2c92e, 0x92722c85,
  0xa2bfe8a1, 0xa81a664b, 0xc24b8b70, 0xc76c51a3, 0xd192e819, 0xd6990624, 0xf40e3585, 0x106aa070,
  0x19a4c116, 0x1e376c08, 0x2748774c, 0x34b0bcb5, 0x391c0cb3, 0x4ed8aa4a, 0x5b9cca4f, 0x682e6ff3,
  0x748f82ee, 0x78a5636f, 0x84c87814, 0x8cc70208, 0x90befffa, 0xa4506ceb, 0xbef9a3f7, 0xc67178f2]

structure Chain where
  a : Word
  b : Word
  c : Word
  d : Word
  e : Word
  f : Word
  g : Word
  h : Word

/-- First thirty-two bits of the fractional parts of the square roots of the
first eight primes. -/
def start : Chain :=
  ⟨0x6a09e667, 0xbb67ae85, 0x3c6ef372, 0xa54ff53a, 0x510e527f, 0x9b05688c, 0x1f83d9ab, 0x5be0cd19⟩

def Chain.round (s : Chain) (k w : Word) : Chain :=
  let t := s.h + bigSigma1 s.e + choose s.e s.f s.g + k + w
  ⟨t + (bigSigma0 s.a + majority s.a s.b s.c), s.a, s.b, s.c, s.d + t, s.e, s.f, s.g⟩

def Chain.add (s t : Chain) : Chain :=
  ⟨s.a + t.a, s.b + t.b, s.c + t.c, s.d + t.d, s.e + t.e, s.f + t.f, s.g + t.g, s.h + t.h⟩

def word (a b c d : UInt8) : Word :=
  (a.toUInt32 <<< 24) ||| (b.toUInt32 <<< 16) ||| (c.toUInt32 <<< 8) ||| d.toUInt32

def words : Bytes → List Word
  | a :: b :: c :: d :: rest => word a b c d :: words rest
  | _ => []

/-- The next `n` words of the schedule, from a window of the last sixteen. -/
def extend : Nat → List Word → List Word
  | 0, _ => []
  | n + 1, window =>
    let next := smallSigma1 (window.getD 14 0) + window.getD 9 0 +
      smallSigma0 (window.getD 1 0) + window.getD 0 0
    next :: extend n (window.drop 1 ++ [next])

def schedule (block : Bytes) : List Word :=
  let first := words block
  first ++ extend 48 first

def Chain.absorb (s : Chain) (block : Bytes) : Chain :=
  s.add ((roundConstants.zip (schedule block)).foldl (fun t kw ↦ t.round kw.1 kw.2) s)

/-- Absorbs `n` blocks from the front of the message. -/
def Chain.absorbBlocks (s : Chain) : Nat → Bytes → Chain
  | 0, _ => s
  | n + 1, message => (s.absorb (message.take 64)).absorbBlocks n (message.drop 64)

def bigEndian (w : Word) : Bytes :=
  [(w >>> 24).toUInt8, (w >>> 16).toUInt8, (w >>> 8).toUInt8, w.toUInt8]

/-- A one bit, zeros, and the length in bits as eight bytes. -/
def padding (length : Nat) : Bytes :=
  let bits := UInt64.ofNat (length * 8)
  let zeros : Bytes := List.replicate ((119 - length % 64) % 64) 0
  0x80 :: (zeros ++ bigEndian (bits >>> 32).toUInt32 ++ bigEndian bits.toUInt32)

def Chain.bytes (s : Chain) : Bytes :=
  [s.a, s.b, s.c, s.d, s.e, s.f, s.g, s.h].flatMap bigEndian

def digest (message : Bytes) : Bytes :=
  let padded := message ++ padding message.length
  (start.absorbBlocks (padded.length / 64) padded).bytes

theorem length_digest (message : Bytes) : (digest message).length = 32 := by
  simp [digest, Chain.bytes, bigEndian]

end Sha256

namespace Hmac

def blockKey (key : Bytes) : Bytes :=
  let short := if 64 < key.length then Sha256.digest key else key
  short ++ List.replicate (64 - short.length) 0

def sign (key data : Bytes) : Bytes :=
  let k := blockKey key
  Sha256.digest (k.map (· ^^^ 0x5c) ++ Sha256.digest (k.map (· ^^^ 0x36) ++ data))

theorem length_sign (key data : Bytes) : (sign key data).length = 32 :=
  Sha256.length_digest _

end Hmac
end Enrollment
