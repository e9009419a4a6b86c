import TrialLedger.Bytes

/-! The SHA-256 digest of a byte string. -/

namespace TrialLedger.Sha256

def initial : List UInt32 := [
  0x6a09e667, 0xbb67ae85, 0x3c6ef372, 0xa54ff53a, 0x510e527f, 0x9b05688c, 0x1f83d9ab, 0x5be0cd19]

def roundConstants : List UInt32 := [
  0x428a2f98, 0x71374491, 0xb5c0fbcf, 0xe9b5dba5, 0x3956c25b, 0x59f111f1, 0x923f82a4, 0xab1c5ed5,
  0xd807aa98, 0x12835b01, 0x243185be, 0x550c7dc3, 0x72be5d74, 0x80deb1fe, 0x9bdc06a7, 0xc19bf174,
  0xe49b69c1, 0xefbe4786, 0x0fc19dc6, 0x240ca1cc, 0x2de92c6f, 0x4a7484aa, 0x5cb0a9dc, 0x76f988da,
  0x983e5152, 0xa831c66d, 0xb00327c8, 0xbf597fc7, 0xc6e00bf3, 0xd5a79147, 0x06ca6351, 0x14292967,
  0x27b70a85, 0x2e1b2138, 0x4d2c6dfc, 0x53380d13, 0x650a7354, 0x766a0abb, 0x81c2c92e, 0x92722c85,
  0xa2bfe8a1, 0xa81a664b, 0xc24b8b70, 0xc76c51a3, 0xd192e819, 0xd6990624, 0xf40e3585, 0x106aa070,
  0x19a4c116, 0x1e376c08, 0x2748774c, 0x34b0bcb5, 0x391c0cb3, 0x4ed8aa4a, 0x5b9cca4f, 0x682e6ff3,
  0x748f82ee, 0x78a5636f, 0x84c87814, 0x8cc70208, 0x90befffa, 0xa4506ceb, 0xbef9a3f7, 0xc67178f2]

def rotate (x : UInt32) (n : UInt32) : UInt32 := (x >>> n) ||| (x <<< (32 - n))

/-- The message, a one bit, zeros, and its length in bits, filling whole blocks of 64 bytes. -/
def padded (b : Bytes) : Bytes :=
  b ++ 0x80 :: List.replicate ((119 - b.length % 64) % 64) 0 ++ Bytes.ofNat 8 (8 * b.length)

def words : Bytes → List UInt32
  | x :: y :: z :: w :: r => UInt32.ofNat (Bytes.toNat [x, y, z, w]) :: words r
  | _ => []

/-- One more word for a schedule that is kept newest first. -/
def nextWord (s : List UInt32) : UInt32 :=
  let a := s.getD 14 0
  let b := s.getD 1 0
  let s0 := rotate a 7 ^^^ rotate a 18 ^^^ (a >>> 3)
  let s1 := rotate b 17 ^^^ rotate b 19 ^^^ (b >>> 10)
  s.getD 15 0 + s0 + s.getD 6 0 + s1

def schedule (block : List UInt32) : List UInt32 :=
  (Nat.repeat (fun s => nextWord s :: s) 48 block.reverse).reverse

def round (h : List UInt32) (kw : UInt32 × UInt32) : List UInt32 :=
  match h with
  | [a, b, c, d, e, f, g, h] =>
    let s1 := rotate e 6 ^^^ rotate e 11 ^^^ rotate e 25
    let choice := (e &&& f) ^^^ (~~~e &&& g)
    let t1 := h + s1 + choice + kw.1 + kw.2
    let s0 := rotate a 2 ^^^ rotate a 13 ^^^ rotate a 22
    let majority := (a &&& b) ^^^ (a &&& c) ^^^ (b &&& c)
    [t1 + s0 + majority, a, b, c, d + t1, e, f, g]
  | other => other

def compress (h block : List UInt32) : List UInt32 :=
  h.zipWith (· + ·) ((roundConstants.zip (schedule block)).foldl round h)

/-- Takes the words in blocks of sixteen. -/
def blocks : Nat → List UInt32 → List UInt32 → List UInt32
  | 0, h, _ => h
  | n + 1, h, ws => blocks n (compress h (ws.take 16)) (ws.drop 16)

def digest (b : Bytes) : Bytes :=
  let ws := words (padded b)
  (blocks (ws.length / 16) initial ws).flatMap fun x => Bytes.ofNat 4 x.toNat

end TrialLedger.Sha256
