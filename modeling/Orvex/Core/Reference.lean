import Orvex.Core.Runtime

/-!
# A runtime that computes

An instance of `Runtime` on which the model runs: plain decimal texts with
exact sums, dates in the ISO form, SHA-256 and the number texts of integers.
-/

namespace Orvex
namespace Reference

/-! ## Texts of numbers -/

def natural? (text : List Char) : Option ℕ :=
  if text.isEmpty then none
  else
    text.foldlM (fun value c =>
      if c.isDigit then some (10 * value + (c.toNat - 48)) else none) 0

/-- A decimal text: an optional sign, digits, and an optional fraction. -/
def unsignedDecimal? (text : List Char) : Option ℚ :=
  let whole := text.takeWhile (fun c => c != '.')
  match text.dropWhile (fun c => c != '.') with
  | [] => (natural? whole).map (fun n => (n : ℚ))
  | _ :: fraction => do
      let n ← natural? whole
      let m ← natural? fraction
      pure ((n : ℚ) + (m : ℚ) / (10 ^ fraction.length : ℕ))

def decimal? (text : String) : Option ℚ :=
  match text.toList with
  | '-' :: rest => (unsignedDecimal? rest).map (fun x => -x)
  | rest => unsignedDecimal? rest

def naturalText (n : ℕ) : List Char := Nat.toDigits 10 n

def integerText (n : ℤ) : List Char :=
  if n < 0 then '-' :: naturalText n.natAbs else naturalText n.natAbs

/-- Integers as JavaScript writes them; other numbers as a quotient. -/
def numberText (x : ℚ) : List Char :=
  if x.den = 1 then integerText x.num
  else integerText x.num ++ 'e' :: naturalText x.den

def decimalText : Decimal → String
  | .nan => "NaN"
  | .infinity true => "-Infinity"
  | .infinity false => "Infinity"
  | .finite x => String.ofList (numberText x)

/-! ## Dates -/

def daysFromCivil (year month day : ℤ) : ℤ :=
  let y := if month ≤ 2 then year - 1 else year
  let era := y / 400
  let yoe := y - era * 400
  let doy := (153 * (if month > 2 then month - 3 else month + 9) + 2) / 5 +
    day - 1
  era * 146097 + (yoe * 365 + yoe / 4 - yoe / 100 + doy) - 719468

def civilFromDays (days : ℤ) : ℤ × ℤ × ℤ :=
  let z := days + 719468
  let era := z / 146097
  let doe := z - era * 146097
  let yoe := (doe - doe / 1460 + doe / 36524 - doe / 146096) / 365
  let doy := doe - (365 * yoe + yoe / 4 - yoe / 100)
  let mp := (5 * doy + 2) / 153
  let month := if mp < 10 then mp + 3 else mp - 9
  let year := yoe + era * 400
  (if month ≤ 2 then year + 1 else year, month, doy - (153 * mp + 2) / 5 + 1)

def field? (text : List Char) (start width : ℕ) : Option ℤ :=
  (natural? ((text.drop start).take width)).map (fun n => (n : ℤ))

/-- `YYYY-MM-DDTHH:MM:SSZ`, with or without milliseconds. -/
def parseDate (text : String) : Option ℤ := do
  let cs := text.toList
  let year ← field? cs 0 4
  let month ← field? cs 5 2
  let day ← field? cs 8 2
  let hour ← field? cs 11 2
  let minute ← field? cs 14 2
  let second ← field? cs 17 2
  let base := ((daysFromCivil year month day * 24 + hour) * 60 + minute) *
    60 + second
  if cs.length = 20 then pure (base * 1000)
  else if cs.length = 24 then
    let ms ← field? cs 20 3
    pure (base * 1000 + ms)
  else none

def padded (width : ℕ) (n : ℤ) : List Char :=
  let digits := naturalText n.natAbs
  List.replicate (width - digits.length) '0' ++ digits

def toISOString (ms : ℤ) : String :=
  let seconds := ms / 1000
  let (year, month, day) := civilFromDays (seconds / 86400)
  let time := seconds % 86400
  String.ofList
    (padded 4 year ++ '-' :: padded 2 month ++ '-' :: padded 2 day ++
      'T' :: padded 2 (time / 3600) ++ ':' :: padded 2 (time / 60 % 60) ++
      ':' :: padded 2 (time % 60) ++ '.' :: padded 3 (ms % 1000) ++ ['Z'])

/-! ## SHA-256 -/

def roundConstants : List ℕ :=
  [0x428a2f98, 0x71374491, 0xb5c0fbcf, 0xe9b5dba5, 0x3956c25b, 0x59f111f1,
    0x923f82a4, 0xab1c5ed5, 0xd807aa98, 0x12835b01, 0x243185be, 0x550c7dc3,
    0x72be5d74, 0x80deb1fe, 0x9bdc06a7, 0xc19bf174, 0xe49b69c1, 0xefbe4786,
    0x0fc19dc6, 0x240ca1cc, 0x2de92c6f, 0x4a7484aa, 0x5cb0a9dc, 0x76f988da,
    0x983e5152, 0xa831c66d, 0xb00327c8, 0xbf597fc7, 0xc6e00bf3, 0xd5a79147,
    0x06ca6351, 0x14292967, 0x27b70a85, 0x2e1b2138, 0x4d2c6dfc, 0x53380d13,
    0x650a7354, 0x766a0abb, 0x81c2c92e, 0x92722c85, 0xa2bfe8a1, 0xa81a664b,
    0xc24b8b70, 0xc76c51a3, 0xd192e819, 0xd6990624, 0xf40e3585, 0x106aa070,
    0x19a4c116, 0x1e376c08, 0x2748774c, 0x34b0bcb5, 0x391c0cb3, 0x4ed8aa4a,
    0x5b9cca4f, 0x682e6ff3, 0x748f82ee, 0x78a5636f, 0x84c87814, 0x8cc70208,
    0x90befffa, 0xa4506ceb, 0xbef9a3f7, 0xc67178f2]

def initialDigest : List ℕ :=
  [0x6a09e667, 0xbb67ae85, 0x3c6ef372, 0xa54ff53a, 0x510e527f, 0x9b05688c,
    0x1f83d9ab, 0x5be0cd19]

def word (n : ℕ) : ℕ := n % 4294967296

def rotateRight (x n : ℕ) : ℕ :=
  Nat.lor (Nat.shiftRight x n) (word (Nat.shiftLeft x (32 - n)))

def xor3 (a b c : ℕ) : ℕ := Nat.xor (Nat.xor a b) c

/-- The UTF-8 bytes of a character. -/
def utf8 (c : Char) : List ℕ :=
  let n := c.toNat
  if n < 0x80 then [n]
  else if n < 0x800 then [0xc0 + n / 64, 0x80 + n % 64]
  else if n < 0x10000 then
    [0xe0 + n / 4096, 0x80 + n / 64 % 64, 0x80 + n % 64]
  else
    [0xf0 + n / 262144, 0x80 + n / 4096 % 64, 0x80 + n / 64 % 64,
      0x80 + n % 64]

def bigEndian (width n : ℕ) : List ℕ :=
  (List.range width).map (fun i => n / 256 ^ (width - 1 - i) % 256)

def pad (bytes : List ℕ) : List ℕ :=
  bytes ++ 0x80 :: List.replicate ((119 - bytes.length % 64) % 64) 0 ++
    bigEndian 8 (8 * bytes.length)

/-- Big-endian words of four bytes each. -/
def wordsOf : List ℕ → List ℕ
  | a :: b :: c :: d :: rest =>
      (((a * 256 + b) * 256 + c) * 256 + d) :: wordsOf rest
  | _ => []

/-- The last sixteen words of the schedule, newest first, extended by the
number of words asked for. -/
def extend : ℕ → List ℕ → List ℕ
  | 0, schedule => schedule
  | n + 1, schedule =>
      let w15 := schedule.getD 14 0
      let w2 := schedule.getD 1 0
      let s0 := xor3 (rotateRight w15 7) (rotateRight w15 18)
        (Nat.shiftRight w15 3)
      let s1 := xor3 (rotateRight w2 17) (rotateRight w2 19)
        (Nat.shiftRight w2 10)
      extend n
        (word (schedule.getD 15 0 + s0 + schedule.getD 6 0 + s1) :: schedule)

def compress : List (ℕ × ℕ) → List ℕ → List ℕ
  | (k, w) :: rest, [a, b, c, d, e, f, g, h] =>
      let s1 := xor3 (rotateRight e 6) (rotateRight e 11) (rotateRight e 25)
      let choice := Nat.xor (Nat.land e f) (Nat.land (4294967295 - e) g)
      let t1 := h + s1 + choice + k + w
      let s0 := xor3 (rotateRight a 2) (rotateRight a 13) (rotateRight a 22)
      let majority := xor3 (Nat.land a b) (Nat.land a c) (Nat.land b c)
      compress rest [word (t1 + s0 + majority), a, b, c, word (d + t1), e, f, g]
  | _, state => state

/-- One block of sixteen words. -/
def block (digest words : List ℕ) : List ℕ :=
  let schedule := (extend 48 words.reverse).reverse
  List.zipWith (fun x y => word (x + y)) digest
    (compress (roundConstants.zip schedule) digest)

def blocks : ℕ → List ℕ → List ℕ → List ℕ
  | 0, digest, _ => digest
  | n + 1, digest, words =>
      blocks n (block digest (words.take 16)) (words.drop 16)

def hexWord (n : ℕ) : List Char :=
  (List.range 8).map (fun i => JsonText.hexDigit (n / 16 ^ (7 - i) % 16))

def sha256Hex (text : String) : String :=
  let words := wordsOf (pad (text.toList.flatMap utf8))
  String.ofList ((blocks (words.length / 16) initialDigest words).flatMap
    hexWord)

end Reference

def Runtime.reference : Runtime where
  sha256Hex := Reference.sha256Hex
  numberToString x := String.ofList (Reference.numberText x)
  stringToNumber text :=
    if text = "" then .finite 0
    else ((Reference.decimal? text).map Decimal.finite).getD .nan
  localeCompare a b := compare a b
  parseDate := Reference.parseDate
  toISOString := Reference.toISOString
  toDecimal text := (Reference.decimal? text).map Decimal.finite
  decimalToString := Reference.decimalText
  round x := x
  column x := some x

/-- The reference runtime with another digest. -/
def Runtime.digesting (digest : String → String) : Runtime :=
  { Runtime.reference with sha256Hex := digest }

theorem Runtime.reference_exact : Runtime.reference.Exact :=
  ⟨fun _ => rfl, fun _ => rfl⟩

end Orvex
