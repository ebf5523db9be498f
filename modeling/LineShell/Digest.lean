import LineShell.Text.Utf8

/-!
# Digests

The digest of a byte string is the number of 128 bits that the function XXH3
gives it, with seed zero and the function's own secret.  Short inputs take a
formula of their own for each range of lengths; inputs of more than 240 bytes are
added stripe by stripe to eight accumulators.
-/

namespace LineShell
namespace Digest

def secret : Array UInt8 :=
  #[0xB8, 0xFE, 0x6C, 0x39, 0x23, 0xA4, 0x4B, 0xBE, 0x7C, 0x01, 0x81, 0x2C,
    0xF7, 0x21, 0xAD, 0x1C, 0xDE, 0xD4, 0x6D, 0xE9, 0x83, 0x90, 0x97, 0xDB,
    0x72, 0x40, 0xA4, 0xA4, 0xB7, 0xB3, 0x67, 0x1F, 0xCB, 0x79, 0xE6, 0x4E,
    0xCC, 0xC0, 0xE5, 0x78, 0x82, 0x5A, 0xD0, 0x7D, 0xCC, 0xFF, 0x72, 0x21,
    0xB8, 0x08, 0x46, 0x74, 0xF7, 0x43, 0x24, 0x8E, 0xE0, 0x35, 0x90, 0xE6,
    0x81, 0x3A, 0x26, 0x4C, 0x3C, 0x28, 0x52, 0xBB, 0x91, 0xC3, 0x00, 0xCB,
    0x88, 0xD0, 0x65, 0x8B, 0x1B, 0x53, 0x2E, 0xA3, 0x71, 0x64, 0x48, 0x97,
    0xA2, 0x0D, 0xF9, 0x4E, 0x38, 0x19, 0xEF, 0x46, 0xA9, 0xDE, 0xAC, 0xD8,
    0xA8, 0xFA, 0x76, 0x3F, 0xE3, 0x9C, 0x34, 0x3F, 0xF9, 0xDC, 0xBB, 0xC7,
    0xC7, 0x0B, 0x4F, 0x1D, 0x8A, 0x51, 0xE0, 0x4B, 0xCD, 0xB4, 0x59, 0x31,
    0xC8, 0x9F, 0x7E, 0xC9, 0xD9, 0x78, 0x73, 0x64, 0xEA, 0xC5, 0xAC, 0x83,
    0x34, 0xD3, 0xEB, 0xC3, 0xC5, 0x81, 0xA0, 0xFF, 0xFA, 0x13, 0x63, 0xEB,
    0x17, 0x0D, 0xDD, 0x51, 0xB7, 0xF0, 0xDA, 0x49, 0xD3, 0x16, 0x55, 0x26,
    0x29, 0xD4, 0x68, 0x9E, 0x2B, 0x16, 0xBE, 0x58, 0x7D, 0x47, 0xA1, 0xFC,
    0x8F, 0xF8, 0xB8, 0xD1, 0x7A, 0xD0, 0x31, 0xCE, 0x45, 0xCB, 0x3A, 0x8F,
    0x95, 0x16, 0x04, 0x28, 0xAF, 0xD7, 0xFB, 0xCA, 0xBB, 0x4B, 0x40, 0x7E]

def prime32a : UInt64 := 0x9E3779B1

def prime32b : UInt64 := 0x85EBCA77

def prime32c : UInt64 := 0xC2B2AE3D

def prime64a : UInt64 := 0x9E3779B185EBCA87

def prime64b : UInt64 := 0xC2B2AE3D27D4EB4F

def prime64c : UInt64 := 0x165667B19E3779F9

def prime64d : UInt64 := 0x85EBCA77C2B2AE63

def prime64e : UInt64 := 0x27D4EB2F165667C5

/-- The byte at an offset, zero past the end. -/
def byteAt (bytes : Array UInt8) (i : Nat) : UInt64 :=
  (bytes.getD i 0).toUInt64

/-- The word of 32 bits at an offset, the lowest byte first. -/
def word32 (bytes : Array UInt8) (i : Nat) : UInt64 :=
  byteAt bytes i ||| (byteAt bytes (i + 1) <<< 8) ||| (byteAt bytes (i + 2) <<< 16) |||
    (byteAt bytes (i + 3) <<< 24)

/-- The word of 64 bits at an offset, the lowest byte first. -/
def word64 (bytes : Array UInt8) (i : Nat) : UInt64 :=
  word32 bytes i ||| (word32 bytes (i + 4) <<< 32)

/-- The two words of the secret at an offset, added without carry. -/
def secretPair (i : Nat) : UInt64 :=
  word64 secret i ^^^ word64 secret (i + 8)

/-- A word with its four lowest bytes in reverse, and the others dropped. -/
def reverse32 (x : UInt64) : UInt64 :=
  let part (shift : UInt64) : UInt64 := (x >>> shift) &&& 0xFF
  (part 0 <<< 24) ||| (part 8 <<< 16) ||| (part 16 <<< 8) ||| part 24

def reverse64 (x : UInt64) : UInt64 :=
  (reverse32 x <<< 32) ||| reverse32 (x >>> 32)

def turnLeft32 (x amount : UInt64) : UInt64 :=
  ((x <<< amount) ||| (x >>> (32 - amount))) &&& 0xFFFFFFFF

/-- The lower half of a word. -/
def lower (x : UInt64) : UInt64 :=
  x &&& 0xFFFFFFFF

/-- A number of 128 bits in two words. -/
structure Wide where
  low : UInt64
  high : UInt64
  deriving DecidableEq, Repr

namespace Wide

def toNat (x : Wide) : Nat :=
  x.high.toNat * UInt64.size + x.low.toNat

def product (a b : UInt64) : Wide :=
  let n := a.toNat * b.toNat
  ⟨UInt64.ofNat n, UInt64.ofNat (n / UInt64.size)⟩

def fold (x : Wide) : UInt64 :=
  x.low ^^^ x.high

end Wide

def spread (x : UInt64) : UInt64 :=
  let x := (x ^^^ (x >>> 37)) * 0x165667919E3779F9
  x ^^^ (x >>> 32)

/-- Spreads the bits of a word of a very short input. -/
def spreadShort (x : UInt64) : UInt64 :=
  let x := (x ^^^ (x >>> 33)) * prime64b
  let x := (x ^^^ (x >>> 29)) * prime64c
  x ^^^ (x >>> 32)

def empty : Wide :=
  ⟨spreadShort (secretPair 64), spreadShort (secretPair 80)⟩

def upTo3 (bytes : Array UInt8) : Wide :=
  let n := bytes.size
  let low := (byteAt bytes 0 <<< 16) ||| (byteAt bytes (n / 2) <<< 24) |||
    byteAt bytes (n - 1) ||| (UInt64.ofNat n <<< 8)
  let high := turnLeft32 (reverse32 low) 13
  ⟨spreadShort (low ^^^ (word32 secret 0 ^^^ word32 secret 4)),
   spreadShort (high ^^^ (word32 secret 8 ^^^ word32 secret 12))⟩

def upTo8 (bytes : Array UInt8) : Wide :=
  let n := bytes.size
  let both := word32 bytes 0 + (word32 bytes (n - 4) <<< 32)
  let m := Wide.product (both ^^^ secretPair 16) (prime64a + (UInt64.ofNat n <<< 2))
  let high := m.high + (m.low <<< 1)
  let low := m.low ^^^ (high >>> 3)
  let low := (low ^^^ (low >>> 35)) * 0x9FB21C651E98DF25
  ⟨low ^^^ (low >>> 28), spread high⟩

def upTo16 (bytes : Array UInt8) : Wide :=
  let n := bytes.size
  let first := word64 bytes 0
  let last := word64 bytes (n - 8)
  let m := Wide.product (first ^^^ last ^^^ secretPair 32) prime64a
  let low := m.low + (UInt64.ofNat (n - 1) <<< 54)
  let last := last ^^^ secretPair 48
  let high := m.high + last + lower last * (prime32b - 1)
  let h := Wide.product (low ^^^ reverse64 high) prime64b
  ⟨spread h.low, spread (h.high + high * prime64b)⟩

def mix16 (bytes : Array UInt8) (i key : Nat) : UInt64 :=
  (Wide.product (word64 bytes i ^^^ word64 secret key)
    (word64 bytes (i + 8) ^^^ word64 secret (key + 8))).fold

/-- Adds two stretches of sixteen bytes to the two halves of a sum. -/
def mix32 (bytes : Array UInt8) (sum : Wide) (i j key : Nat) : Wide :=
  let low := (sum.low + mix16 bytes i key) ^^^ (word64 bytes j + word64 bytes (j + 8))
  let high := (sum.high + mix16 bytes j (key + 16)) ^^^ (word64 bytes i + word64 bytes (i + 8))
  ⟨low, high⟩

def ofSum (size : Nat) (sum : Wide) : Wide :=
  let low := sum.low + sum.high
  let high := sum.low * prime64a + sum.high * prime64d + UInt64.ofNat size * prime64b
  ⟨spread low, 0 - spread high⟩

/-- Seventeen to 128 bytes: stretches from both ends, the inner ones first. -/
def upTo128 (bytes : Array UInt8) : Wide :=
  let n := bytes.size
  let rounds := (n - 1) / 32 + 1
  let sum := (List.range rounds).reverse.foldl
    (fun sum i => mix32 bytes sum (16 * i) (n - 16 * (i + 1)) (32 * i))
    ⟨UInt64.ofNat n * prime64a, 0⟩
  ofSum n sum

/-- 129 to 240 bytes: stretches in order, and the last ones once more. -/
def upTo240 (bytes : Array UInt8) : Wide :=
  let n := bytes.size
  let sum := (List.range 4).foldl
    (fun sum i => mix32 bytes sum (32 * i) (32 * i + 16) (32 * i))
    ⟨UInt64.ofNat n * prime64a, 0⟩
  let sum : Wide := ⟨spread sum.low, spread sum.high⟩
  let sum := (List.range (n / 32 - 4)).foldl
    (fun sum i => mix32 bytes sum (128 + 32 * i) (128 + 32 * i + 16) (3 + 32 * i)) sum
  let last (i j key : Nat) : UInt64 :=
    (Wide.product (word64 bytes i ^^^ word64 secret key)
      (word64 bytes j ^^^ word64 secret (key + 8))).fold
  let sum : Wide :=
    ⟨(sum.low + last (n - 16) (n - 8) 103) ^^^
       (word64 bytes (n - 32) + word64 bytes (n - 24)),
     (sum.high + last (n - 32) (n - 24) 119) ^^^
       (word64 bytes (n - 16) + word64 bytes (n - 8))⟩
  ofSum n sum

def startingSums : Array UInt64 :=
  #[prime32c, prime64a, prime64b, prime64c, prime64d, prime32b, prime64e, prime32a]

def addStripe (bytes : Array UInt8) (sums : Array UInt64) (i key : Nat) : Array UInt64 :=
  (Array.range 8).map fun lane =>
    let keyed := word64 bytes (i + 8 * lane) ^^^ word64 secret (key + 8 * lane)
    let other := if lane % 2 = 0 then lane + 1 else lane - 1
    sums.getD lane 0 + word64 bytes (i + 8 * other) + lower keyed * (keyed >>> 32)

/-- Stirs the accumulators after a block of sixteen stripes. -/
def stir (sums : Array UInt64) : Array UInt64 :=
  (Array.range 8).map fun lane =>
    let x := sums.getD lane 0
    (x ^^^ (x >>> 47) ^^^ word64 secret (128 + 8 * lane)) * prime32a

def addStripes (bytes : Array UInt8) (sums : Array UInt64) (i count : Nat) : Array UInt64 :=
  (List.range count).foldl (fun sums k => addStripe bytes sums (i + 64 * k) (8 * k)) sums

def merge (sums : Array UInt64) (key : Nat) (start : UInt64) : UInt64 :=
  spread ((List.range 4).foldl
    (fun sum k => sum +
      (Wide.product (sums.getD (2 * k) 0 ^^^ word64 secret (key + 16 * k))
        (sums.getD (2 * k + 1) 0 ^^^ word64 secret (key + 16 * k + 8))).fold)
    start)

def long (bytes : Array UInt8) : Wide :=
  let n := bytes.size
  let blocks := (n - 1) / 1024
  let sums := (List.range blocks).foldl
    (fun sums k => stir (addStripes bytes sums (1024 * k) 16)) startingSums
  let sums := addStripes bytes sums (1024 * blocks) ((n - 1 - 1024 * blocks) / 64)
  let sums := addStripe bytes sums (n - 64) 121
  ⟨merge sums 11 (UInt64.ofNat n * prime64a),
   merge sums 117 (~~~(UInt64.ofNat n * prime64b))⟩

def wide (bytes : Array UInt8) : Wide :=
  let n := bytes.size
  if n = 0 then empty
  else if n ≤ 3 then upTo3 bytes
  else if n ≤ 8 then upTo8 bytes
  else if n ≤ 16 then upTo16 bytes
  else if n ≤ 128 then upTo128 bytes
  else if n ≤ 240 then upTo240 bytes
  else long bytes

def ofBytes (bytes : Bytes) : BitVec 128 :=
  BitVec.ofNat 128 (wide bytes.toArray).toNat

end Digest
end LineShell
