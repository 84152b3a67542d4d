/-! SHA-256 digests of texts, written `sha256:` and 64 hexadecimal digits. -/
namespace Phrasebook

structure Digest where
  hex : String
deriving DecidableEq, Inhabited, Repr

namespace Digest

/-- The first 32 bits of the fractional parts of the cube roots of the first 64 primes. -/
def roundConstants : Array UInt32 := #[
  0x428a2f98,0x71374491,0xb5c0fbcf,0xe9b5dba5,0x3956c25b,0x59f111f1,0x923f82a4,0xab1c5ed5,
  0xd807aa98,0x12835b01,0x243185be,0x550c7dc3,0x72be5d74,0x80deb1fe,0x9bdc06a7,0xc19bf174,
  0xe49b69c1,0xefbe4786,0x0fc19dc6,0x240ca1cc,0x2de92c6f,0x4a7484aa,0x5cb0a9dc,0x76f988da,
  0x983e5152,0xa831c66d,0xb00327c8,0xbf597fc7,0xc6e00bf3,0xd5a79147,0x06ca6351,0x14292967,
  0x27b70a85,0x2e1b2138,0x4d2c6dfc,0x53380d13,0x650a7354,0x766a0abb,0x81c2c92e,0x92722c85,
  0xa2bfe8a1,0xa81a664b,0xc24b8b70,0xc76c51a3,0xd192e819,0xd6990624,0xf40e3585,0x106aa070,
  0x19a4c116,0x1e376c08,0x2748774c,0x34b0bcb5,0x391c0cb3,0x4ed8aa4a,0x5b9cca4f,0x682e6ff3,
  0x748f82ee,0x78a5636f,0x84c87814,0x8cc70208,0x90befffa,0xa4506ceb,0xbef9a3f7,0xc67178f2]

structure State where
  a : UInt32
  b : UInt32
  c : UInt32
  d : UInt32
  e : UInt32
  f : UInt32
  g : UInt32
  h : UInt32

/-- The first 32 bits of the fractional parts of the square roots of the first eight primes. -/
def start : State :=
  ⟨0x6a09e667,0xbb67ae85,0x3c6ef372,0xa54ff53a,0x510e527f,0x9b05688c,0x1f83d9ab,0x5be0cd19⟩

def rotate (x : UInt32) (n : UInt32) : UInt32 := (x >>> n) ||| (x <<< (32 - n))

/-- The message, a one bit, zeros up to a whole number of blocks, and the length in bits. -/
def pad (message : ByteArray) : ByteArray :=
  let zeros := (119 - message.size % 64) % 64
  let padded := (List.replicate zeros (0 : UInt8)).foldl ByteArray.push (message.push 0x80)
  let bits := UInt64.ofNat (8 * message.size)
  [(56 : UInt64),48,40,32,24,16,8,0].foldl (fun bytes shift => bytes.push (bits >>> shift).toUInt8) padded

def wordAt (bytes : ByteArray) (i : Nat) : UInt32 :=
  let byte := fun k => (bytes[i + k]?.getD 0).toUInt32
  (byte 0 <<< 24) ||| (byte 1 <<< 16) ||| (byte 2 <<< 8) ||| byte 3

def extend (words : Array UInt32) (i : Nat) : Array UInt32 :=
  let w := fun k => words[i - k]?.getD 0
  let s0 := rotate (w 15) 7 ^^^ rotate (w 15) 18 ^^^ (w 15 >>> 3)
  let s1 := rotate (w 2) 17 ^^^ rotate (w 2) 19 ^^^ (w 2 >>> 10)
  words.push (w 16 + s0 + w 7 + s1)

def schedule (bytes : ByteArray) (offset : Nat) : Array UInt32 :=
  let words := ((List.range 16).map fun i => wordAt bytes (offset + 4 * i)).toArray
  (List.range' 16 48).foldl extend words

def round (words : Array UInt32) (s : State) (i : Nat) : State :=
  let s1 := rotate s.e 6 ^^^ rotate s.e 11 ^^^ rotate s.e 25
  let ch := (s.e &&& s.f) ^^^ (~~~s.e &&& s.g)
  let t1 := s.h + s1 + ch + roundConstants[i]?.getD 0 + words[i]?.getD 0
  let s0 := rotate s.a 2 ^^^ rotate s.a 13 ^^^ rotate s.a 22
  let maj := (s.a &&& s.b) ^^^ (s.a &&& s.c) ^^^ (s.b &&& s.c)
  ⟨t1 + (s0 + maj),s.a,s.b,s.c,s.d + t1,s.e,s.f,s.g⟩

def compress (bytes : ByteArray) (s : State) (block : Nat) : State :=
  let r := (List.range 64).foldl (round (schedule bytes (64 * block))) s
  ⟨s.a + r.a,s.b + r.b,s.c + r.c,s.d + r.d,s.e + r.e,s.f + r.f,s.g + r.g,s.h + r.h⟩

def hexDigits (word : UInt32) : List Char :=
  [(28 : UInt32),24,20,16,12,8,4,0].map fun shift => Nat.digitChar ((word >>> shift) &&& 0xf).toNat

def State.hex (s : State) : String :=
  String.ofList ([s.a,s.b,s.c,s.d,s.e,s.f,s.g,s.h].flatMap hexDigits)

def ofText (text : String) : Digest :=
  let bytes := pad text.toUTF8
  ⟨((List.range (bytes.size / 64)).foldl (compress bytes) start).hex⟩

def label (digest : Digest) : String := "sha256:" ++ digest.hex

/-- The first twelve digits, for people. -/
def short (digest : Digest) : String := String.ofList (digest.hex.toList.take 12)

end Digest
end Phrasebook
