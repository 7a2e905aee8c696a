/-!
# SHA-256 and HMAC-SHA256

The hash of FIPS 180-4 over a list of bytes, and the keyed hash of RFC 2104 built
on it.

A message is padded with one `0x80` byte, zero bytes up to 56 modulo 64, and its
length in bits as eight big-endian bytes, then cut into 64-byte blocks. Each block is
read as sixteen big-endian words, stretched to sixty-four by the schedule
`w t = σ₁ (w (t-2)) + w (t-7) + σ₀ (w (t-15)) + w (t-16)`, and folded into the eight
state words by sixty-four rounds. The digest is the final state, big-endian.

HMAC hashes a key longer than a block first, pads it with zeros to a block, and
computes `H ((k ⊕ opad) ++ H ((k ⊕ ipad) ++ m))` with `ipad = 0x36…` and
`opad = 0x5c…`.

Main statements: every digest is 32 bytes (`length_hash`), and its hex text two
digits a byte (`length_hex`).
-/

namespace LaneGate.Sha256

/-- The round constants: the first 32 bits of the fractional parts of the cube roots
of the first sixty-four primes. -/
def roundConstants : List UInt32 :=
  [0x428a2f98, 0x71374491, 0xb5c0fbcf, 0xe9b5dba5, 0x3956c25b, 0x59f111f1, 0x923f82a4, 0xab1c5ed5,
   0xd807aa98, 0x12835b01, 0x243185be, 0x550c7dc3, 0x72be5d74, 0x80deb1fe, 0x9bdc06a7, 0xc19bf174,
   0xe49b69c1, 0xefbe4786, 0x0fc19dc6, 0x240ca1cc, 0x2de92c6f, 0x4a7484aa, 0x5cb0a9dc, 0x76f988da,
   0x983e5152, 0xa831c66d, 0xb00327c8, 0xbf597fc7, 0xc6e00bf3, 0xd5a79147, 0x06ca6351, 0x14292967,
   0x27b70a85, 0x2e1b2138, 0x4d2c6dfc, 0x53380d13, 0x650a7354, 0x766a0abb, 0x81c2c92e, 0x92722c85,
   0xa2bfe8a1, 0xa81a664b, 0xc24b8b70, 0xc76c51a3, 0xd192e819, 0xd6990624, 0xf40e3585, 0x106aa070,
   0x19a4c116, 0x1e376c08, 0x2748774c, 0x34b0bcb5, 0x391c0cb3, 0x4ed8aa4a, 0x5b9cca4f, 0x682e6ff3,
   0x748f82ee, 0x78a5636f, 0x84c87814, 0x8cc70208, 0x90befffa, 0xa4506ceb, 0xbef9a3f7, 0xc67178f2]

/-- The initial state: the first 32 bits of the fractional parts of the square roots
of the first eight primes. -/
def initial : List UInt32 :=
  [0x6a09e667, 0xbb67ae85, 0x3c6ef372, 0xa54ff53a, 0x510e527f, 0x9b05688c, 0x1f83d9ab, 0x5be0cd19]

/-- Rotation to the right by `n` bits (`0 < n < 32`). -/
def rotr (x : UInt32) (n : UInt32) : UInt32 := (x >>> n) ||| (x <<< (32 - n))

/-- The small sigma of the schedule for words fifteen back. -/
def sigma0 (x : UInt32) : UInt32 := rotr x 7 ^^^ rotr x 18 ^^^ (x >>> 3)

/-- The small sigma of the schedule for words two back. -/
def sigma1 (x : UInt32) : UInt32 := rotr x 17 ^^^ rotr x 19 ^^^ (x >>> 10)

/-- The big sigma of the round on `a`. -/
def bigSigma0 (x : UInt32) : UInt32 := rotr x 2 ^^^ rotr x 13 ^^^ rotr x 22

/-- The big sigma of the round on `e`. -/
def bigSigma1 (x : UInt32) : UInt32 := rotr x 6 ^^^ rotr x 11 ^^^ rotr x 25

/-- The choice of `f` or `g` by the bits of `e`. -/
def choose (e f g : UInt32) : UInt32 := (e &&& f) ^^^ (~~~e &&& g)

/-- The majority of three words, bit by bit. -/
def majority (a b c : UInt32) : UInt32 := (a &&& b) ^^^ (a &&& c) ^^^ (b &&& c)

/-- A word from four big-endian bytes (missing bytes read as zero). -/
def wordOf (bs : List UInt8) : UInt32 :=
  bs.foldl (fun acc b => (acc <<< 8) ||| b.toUInt32) 0

/-- The four big-endian bytes of a word. -/
def bytesOfWord (w : UInt32) : List UInt8 :=
  [(w >>> 24).toUInt8, (w >>> 16).toUInt8, (w >>> 8).toUInt8, w.toUInt8]

/-- The words of a block, four bytes each. -/
def wordsOf : Nat → List UInt8 → List UInt32
  | 0, _ => []
  | _, [] => []
  | n + 1, bs => wordOf (bs.take 4) :: wordsOf n (bs.drop 4)

/-- The schedule of a block: its sixteen words stretched to sixty-four. -/
def schedule (block : List UInt32) : Array UInt32 :=
  (List.range 48).foldl
    (fun (w : Array UInt32) i =>
      let t := i + 16
      w.push (sigma1 (w.getD (t - 2) 0) + w.getD (t - 7) 0 + sigma0 (w.getD (t - 15) 0) + w.getD (t - 16) 0))
    block.toArray

/-- The working variables `a … h` of the rounds. -/
structure Working where
  /-- The word `a`. -/
  a : UInt32
  /-- The word `b`. -/
  b : UInt32
  /-- The word `c`. -/
  c : UInt32
  /-- The word `d`. -/
  d : UInt32
  /-- The word `e`. -/
  e : UInt32
  /-- The word `f`. -/
  f : UInt32
  /-- The word `g`. -/
  g : UInt32
  /-- The word `h`. -/
  h : UInt32

/-- The working variables of a state. -/
def Working.ofState (s : List UInt32) : Working :=
  ⟨s.getD 0 0, s.getD 1 0, s.getD 2 0, s.getD 3 0, s.getD 4 0, s.getD 5 0, s.getD 6 0, s.getD 7 0⟩

/-- One round with its constant and schedule word. -/
def Working.round (v : Working) (k w : UInt32) : Working :=
  let t1 := v.h + bigSigma1 v.e + choose v.e v.f v.g + k + w
  let t2 := bigSigma0 v.a + majority v.a v.b v.c
  ⟨t1 + t2, v.a, v.b, v.c, v.d + t1, v.e, v.f, v.g⟩

/-- The state after one block. -/
def compress (state : List UInt32) (block : List UInt8) : List UInt32 :=
  let w := schedule (wordsOf 16 block)
  let v := (roundConstants.zip (List.range 64)).foldl
    (fun (v : Working) (k, t) => v.round k (w.getD t 0)) (Working.ofState state)
  let s := Working.ofState state
  [s.a + v.a, s.b + v.b, s.c + v.c, s.d + v.d, s.e + v.e, s.f + v.f, s.g + v.g, s.h + v.h]

/-- The blocks of a padded message, sixty-four bytes each. -/
def blocksOf : Nat → List UInt8 → List (List UInt8)
  | 0, _ => []
  | _, [] => []
  | n + 1, bs => bs.take 64 :: blocksOf n (bs.drop 64)

/-- The eight big-endian bytes of a number below 2^64. -/
def lengthBytes (n : Nat) : List UInt8 :=
  (List.range 8).reverse.map fun i => (n / Nat.pow 2 (8 * i) % 256).toUInt8

/-- A message padded to a whole number of blocks. -/
def padded (msg : List UInt8) : List UInt8 :=
  let zeros := (119 - msg.length % 64) % 64
  msg ++ [0x80] ++ List.replicate zeros 0 ++ lengthBytes (8 * msg.length)

/-- The digest of a message. -/
def hash (msg : List UInt8) : List UInt8 :=
  let p := padded msg
  ((blocksOf (p.length / 64) p).foldl compress initial).flatMap bytesOfWord

/-- The block size of the hash, in bytes. -/
def blockSize : Nat := 64

/-- The keyed hash of a message. -/
def hmac (key msg : List UInt8) : List UInt8 :=
  let key := if key.length > blockSize then hash key else key
  let key := key ++ List.replicate (blockSize - key.length) 0
  let inner := hash (key.map (· ^^^ 0x36) ++ msg)
  hash (key.map (· ^^^ 0x5c) ++ inner)

/-- A lowercase hex digit. -/
def hexDigit (n : Nat) : Char :=
  if n < 10 then Char.ofNat (48 + n) else Char.ofNat (87 + n)

/-- Bytes as lowercase hex, two digits each. -/
def hex (bs : List UInt8) : String :=
  String.ofList (bs.flatMap fun b => [hexDigit (b.toNat / 16), hexDigit (b.toNat % 16)])

/-- Compression keeps the eight state words. -/
theorem length_compress (state : List UInt32) (block : List UInt8) : (compress state block).length = 8 := by
  simp [compress]

/-- Folding compression over blocks keeps an eight-word state. -/
theorem length_foldl_compress (blocks : List (List UInt8)) (s : List UInt32) (h : s.length = 8) :
    (blocks.foldl compress s).length = 8 := by
  induction blocks generalizing s with
  | nil => simpa using h
  | cons b bs ih => exact ih _ (length_compress s b)

/-- Four bytes a word. -/
theorem length_flatMap_bytesOfWord (ws : List UInt32) : (ws.flatMap bytesOfWord).length = 4 * ws.length := by
  induction ws with
  | nil => rfl
  | cons w ws ih => simp [List.flatMap_cons, bytesOfWord, ih]; omega

/-- Every digest is 32 bytes. -/
theorem length_hash (msg : List UInt8) : (hash msg).length = 32 := by
  rw [hash, length_flatMap_bytesOfWord, length_foldl_compress _ _ rfl]

/-- Two hex digits a byte. -/
theorem length_hex (bs : List UInt8) : (hex bs).length = 2 * bs.length := by
  simp only [hex, String.length_ofList]
  induction bs with
  | nil => rfl
  | cons b bs ih => simp [List.flatMap_cons, ih]; omega

end LaneGate.Sha256
