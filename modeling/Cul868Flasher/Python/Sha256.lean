import Mathlib.Algebra.GroupWithZero.Nat
import Mathlib.Data.List.Basic

/-!
# `hashlib.sha256`

The digest of a validated firmware image is part of its identity: an image is
parsed a second time before the flash, and both digests have to agree.
-/

namespace Python.Sha256

def constants : List UInt32 := [
  0x428a2f98, 0x71374491, 0xb5c0fbcf, 0xe9b5dba5, 0x3956c25b, 0x59f111f1, 0x923f82a4, 0xab1c5ed5,
  0xd807aa98, 0x12835b01, 0x243185be, 0x550c7dc3, 0x72be5d74, 0x80deb1fe, 0x9bdc06a7, 0xc19bf174,
  0xe49b69c1, 0xefbe4786, 0x0fc19dc6, 0x240ca1cc, 0x2de92c6f, 0x4a7484aa, 0x5cb0a9dc, 0x76f988da,
  0x983e5152, 0xa831c66d, 0xb00327c8, 0xbf597fc7, 0xc6e00bf3, 0xd5a79147, 0x06ca6351, 0x14292967,
  0x27b70a85, 0x2e1b2138, 0x4d2c6dfc, 0x53380d13, 0x650a7354, 0x766a0abb, 0x81c2c92e, 0x92722c85,
  0xa2bfe8a1, 0xa81a664b, 0xc24b8b70, 0xc76c51a3, 0xd192e819, 0xd6990624, 0xf40e3585, 0x106aa070,
  0x19a4c116, 0x1e376c08, 0x2748774c, 0x34b0bcb5, 0x391c0cb3, 0x4ed8aa4a, 0x5b9cca4f, 0x682e6ff3,
  0x748f82ee, 0x78a5636f, 0x84c87814, 0x8cc70208, 0x90befffa, 0xa4506ceb, 0xbef9a3f7, 0xc67178f2]

structure Digest where
  a : UInt32
  b : UInt32
  c : UInt32
  d : UInt32
  e : UInt32
  f : UInt32
  g : UInt32
  h : UInt32

def initial : Digest :=
  ⟨0x6a09e667, 0xbb67ae85, 0x3c6ef372, 0xa54ff53a, 0x510e527f, 0x9b05688c, 0x1f83d9ab, 0x5be0cd19⟩

def rotr (x n : UInt32) : UInt32 := (x >>> n) ||| (x <<< (32 - n))

def word (b₀ b₁ b₂ b₃ : UInt8) : UInt32 :=
  (b₀.toUInt32 <<< 24) ||| (b₁.toUInt32 <<< 16) ||| (b₂.toUInt32 <<< 8) ||| b₃.toUInt32

def words : List UInt8 → List UInt32
  | b₀ :: b₁ :: b₂ :: b₃ :: bs => word b₀ b₁ b₂ b₃ :: words bs
  | _ => []

/-- The message schedule, the newest word first. -/
def extend : ℕ → List UInt32 → List UInt32
  | 0, w => w
  | n+1, w =>
    let x := w.getD 14 0
    let y := w.getD 1 0
    let s₀ := rotr x 7 ^^^ rotr x 18 ^^^ (x >>> 3)
    let s₁ := rotr y 17 ^^^ rotr y 19 ^^^ (y >>> 10)
    extend n ((w.getD 15 0 + s₀ + w.getD 6 0 + s₁) :: w)

def round (s : Digest) (k w : UInt32) : Digest :=
  let s₁ := rotr s.e 6 ^^^ rotr s.e 11 ^^^ rotr s.e 25
  let ch := (s.e &&& s.f) ^^^ (~~~s.e &&& s.g)
  let t₁ := s.h + s₁ + ch + k + w
  let s₀ := rotr s.a 2 ^^^ rotr s.a 13 ^^^ rotr s.a 22
  let maj := (s.a &&& s.b) ^^^ (s.a &&& s.c) ^^^ (s.b &&& s.c)
  ⟨t₁ + (s₀ + maj), s.a, s.b, s.c, s.d + t₁, s.e, s.f, s.g⟩

def compress (s : Digest) (block : List UInt32) : Digest :=
  let w := (extend 48 block.reverse).reverse
  let r := (constants.zip w).foldl (fun r kw => round r kw.1 kw.2) s
  ⟨s.a+r.a, s.b+r.b, s.c+r.c, s.d+r.d, s.e+r.e, s.f+r.f, s.g+r.g, s.h+r.h⟩

def blocks : ℕ → Digest → List UInt32 → Digest
  | 0, s, _ => s
  | n+1, s, w => blocks n (compress s (w.take 16)) (w.drop 16)

def padded (bs : List UInt8) : List UInt8 :=
  let bits := 8 * bs.length
  bs ++ 0x80 :: List.replicate ((119 - bs.length % 64) % 64) 0 ++
    (List.range 8).reverse.map (fun i => UInt8.ofNat (bits / 256^i))

def hexChar (n : ℕ) : Char :=
  if n < 10 then Char.ofNat ('0'.toNat + n) else Char.ofNat ('a'.toNat + n - 10)

def hexWord (w : UInt32) : List Char :=
  (List.range 8).reverse.map (fun i => hexChar (w.toNat / 16^i % 16))

/-- `sha256(bs).hexdigest()`. -/
def hexdigest (bs : List UInt8) : String :=
  let p := padded bs
  let s := blocks (p.length / 64) initial (words p)
  String.ofList ([s.a, s.b, s.c, s.d, s.e, s.f, s.g, s.h].flatMap hexWord)

example : hexdigest [0x61, 0x62, 0x63] =
    "ba7816bf8f01cfea414140de5dae2223b00361a396177a9cb410ff61f20015ad" := by decide +kernel

end Python.Sha256
