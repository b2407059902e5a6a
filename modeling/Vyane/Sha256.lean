import Mathlib

/-!
SHA-256 (FIPS 180-4) on lists of bytes. Words are natural numbers below `2^32`, so that the kernel computes with its own
arithmetic.
-/
namespace Vyane.Sha256
def WORD : Nat := 2 ^ 32

/-- The round constants. -/
def K : List Nat :=
  [0x428a2f98,0x71374491,0xb5c0fbcf,0xe9b5dba5,0x3956c25b,0x59f111f1,0x923f82a4,0xab1c5ed5,
   0xd807aa98,0x12835b01,0x243185be,0x550c7dc3,0x72be5d74,0x80deb1fe,0x9bdc06a7,0xc19bf174,
   0xe49b69c1,0xefbe4786,0x0fc19dc6,0x240ca1cc,0x2de92c6f,0x4a7484aa,0x5cb0a9dc,0x76f988da,
   0x983e5152,0xa831c66d,0xb00327c8,0xbf597fc7,0xc6e00bf3,0xd5a79147,0x06ca6351,0x14292967,
   0x27b70a85,0x2e1b2138,0x4d2c6dfc,0x53380d13,0x650a7354,0x766a0abb,0x81c2c92e,0x92722c85,
   0xa2bfe8a1,0xa81a664b,0xc24b8b70,0xc76c51a3,0xd192e819,0xd6990624,0xf40e3585,0x106aa070,
   0x19a4c116,0x1e376c08,0x2748774c,0x34b0bcb5,0x391c0cb3,0x4ed8aa4a,0x5b9cca4f,0x682e6ff3,
   0x748f82ee,0x78a5636f,0x84c87814,0x8cc70208,0x90befffa,0xa4506ceb,0xbef9a3f7,0xc67178f2]

def rotr (x n : Nat) : Nat := (x >>> n) ||| ((x <<< (32 - n)) % WORD)
/-- Big-endian words of a block. -/
def words : List Nat → List Nat
  | a :: b :: c :: d :: rest => (a * 2 ^ 24 + b * 2 ^ 16 + c * 2 ^ 8 + d) :: words rest
  | _ => []

/-- The message schedule, newest word first. -/
def expand : Nat → List Nat → List Nat
  | 0,schedule => schedule
  | n + 1,schedule =>
    let early := schedule.getD 14 0
    let late := schedule.getD 1 0
    let s0 := rotr early 7 ^^^ rotr early 18 ^^^ (early >>> 3)
    let s1 := rotr late 17 ^^^ rotr late 19 ^^^ (late >>> 10)
    expand n (((schedule.getD 15 0 + s0 + schedule.getD 6 0 + s1) % WORD) :: schedule)

/-- The working variables. -/
structure Working where
  a : Nat
  b : Nat
  c : Nat
  d : Nat
  e : Nat
  f : Nat
  g : Nat
  h : Nat
deriving DecidableEq, Repr

def initial : Working :=
  ⟨0x6a09e667,0xbb67ae85,0x3c6ef372,0xa54ff53a,0x510e527f,0x9b05688c,0x1f83d9ab,0x5be0cd19⟩

/-- One round, with its constant and its word of the schedule. -/
def round (v : Working) (input : Nat × Nat) : Working :=
  let s1 := rotr v.e 6 ^^^ rotr v.e 11 ^^^ rotr v.e 25
  let choice := (v.e &&& v.f) ^^^ ((WORD - 1 - v.e) &&& v.g)
  let t1 := (v.h + s1 + choice + input.1 + input.2) % WORD
  let s0 := rotr v.a 2 ^^^ rotr v.a 13 ^^^ rotr v.a 22
  let majority := (v.a &&& v.b) ^^^ (v.a &&& v.c) ^^^ (v.b &&& v.c)
  ⟨(t1 + s0 + majority) % WORD,v.a,v.b,v.c,(v.d + t1) % WORD,v.e,v.f,v.g⟩

def compress (v : Working) (block : List Nat) : Working :=
  let r := (K.zip (expand 48 (words block).reverse).reverse).foldl round v
  ⟨(v.a + r.a) % WORD,(v.b + r.b) % WORD,(v.c + r.c) % WORD,(v.d + r.d) % WORD,
    (v.e + r.e) % WORD,(v.f + r.f) % WORD,(v.g + r.g) % WORD,(v.h + r.h) % WORD⟩

/-- The blocks of a padded message; the first argument bounds their number. -/
def blocks : Nat → List Nat → List (List Nat)
  | 0,_ => []
  | n + 1,bytes => if bytes.isEmpty then [] else bytes.take 64 :: blocks n (bytes.drop 64)

/-- A one bit, zeros, and the length in bits as eight bytes. -/
def pad (bytes : List Nat) : List Nat :=
  let size := bytes.length
  bytes ++ [128] ++ List.replicate ((119 - size % 64) % 64) 0 ++
    [56,48,40,32,24,16,8,0].map fun shift => ((8 * size) >>> shift) % 256

def beWord (word : Nat) : List UInt8 := [24,16,8,0].map fun shift => UInt8.ofNat (word >>> shift)

def digest (bytes : List UInt8) : List UInt8 :=
  let padded := pad (bytes.map UInt8.toNat)
  let v := (blocks padded.length padded).foldl compress initial
  [v.a,v.b,v.c,v.d,v.e,v.f,v.g,v.h].flatMap beWord

theorem digest_length (bytes : List UInt8) : (digest bytes).length = 32 := by
  simp [digest,beWord]
/-- The digest of `abc`, from the standard. -/
example : digest [0x61,0x62,0x63] =
    [0xba,0x78,0x16,0xbf,0x8f,0x01,0xcf,0xea,0x41,0x41,0x40,0xde,0x5d,0xae,0x22,0x23,
     0xb0,0x03,0x61,0xa3,0x96,0x17,0x7a,0x9c,0xb4,0x10,0xff,0x61,0xf2,0x00,0x15,0xad] := by decide +kernel

end Vyane.Sha256
