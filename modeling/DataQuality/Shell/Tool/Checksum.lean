import DataQuality.Shell.Tool.Input
import DataQuality.Shell.World

/-!
# Digests, and the tools for them

Digests are short numbers that are made of all bytes of a text: remainders of a division of
polynomials, and digests in which the words of a text are mixed block by block. A text is padded before
it is mixed: with a single bit, zeros and its length, so that it consists of whole blocks.

The tools show the digests of files, or check those that a list of files says.
-/
namespace DataQuality.Shell.Digest

def turnLeft (x : UInt32) (n : Nat) : UInt32 :=
  (x <<< UInt32.ofNat n) ||| (x >>> UInt32.ofNat (32 - n))

def turnRight (x : UInt32) (n : Nat) : UInt32 := turnLeft x (32 - n)

/-- The bytes of a number, the lowest one first. -/
def bytesOf : Nat → Nat → List UInt8
  | 0, _ => []
  | count + 1, n => UInt8.ofNat n :: bytesOf count (n / 256)

/-- The number that bytes make, the lowest one first. -/
def numberOf (bs : List UInt8) : Nat := bs.foldr (fun b n => b.toNat + 256 * n) 0

/-- A text with a bit, zeros and its length behind it, given its length in bits as bytes. -/
def padded (length : Nat → List UInt8) (bs : List UInt8) : List UInt8 :=
  bs ++ 0x80 :: List.replicate ((119 - bs.length % 64) % 64) 0 ++ length (8 * bs.length)

/-- The blocks of sixteen words of a padded text. -/
def blocks (word : List UInt8 → Nat) (bs : List UInt8) : List (Array UInt32) :=
  let count := bs.length / 64
  let (_, done) := (List.range count).foldl
    (fun ((rest, done) : List UInt8 × List (Array UInt32)) _ =>
      let block := rest.take 64
      let words := (List.range 16).map fun i => UInt32.ofNat (word ((block.drop (4 * i)).take 4))
      (rest.drop 64, words.toArray :: done)) (bs, [])
  done.reverse

/-- The hexadecimal digits of bytes. -/
def hexadecimal (bs : List UInt8) : List Char :=
  bs.flatMap fun b =>
    let digit (n : Nat) : Char := (Nat.toDigits 16 n).headD '0'
    [digit (b.toNat / 16), digit (b.toNat % 16)]

/-- The number by which a step of the digest of four words is told from the others. -/
def fourWordsNumbers : Array UInt32 := #[
    0xd76aa478, 0xe8c7b756, 0x242070db, 0xc1bdceee, 0xf57c0faf, 0x4787c62a, 0xa8304613, 0xfd469501,
    0x698098d8, 0x8b44f7af, 0xffff5bb1, 0x895cd7be, 0x6b901122, 0xfd987193, 0xa679438e, 0x49b40821,
    0xf61e2562, 0xc040b340, 0x265e5a51, 0xe9b6c7aa, 0xd62f105d, 0x02441453, 0xd8a1e681, 0xe7d3fbc8,
    0x21e1cde6, 0xc33707d6, 0xf4d50d87, 0x455a14ed, 0xa9e3e905, 0xfcefa3f8, 0x676f02d9, 0x8d2a4c8a,
    0xfffa3942, 0x8771f681, 0x6d9d6122, 0xfde5380c, 0xa4beea44, 0x4bdecfa9, 0xf6bb4b60, 0xbebfbc70,
    0x289b7ec6, 0xeaa127fa, 0xd4ef3085, 0x04881d05, 0xd9d4d039, 0xe6db99e5, 0x1fa27cf8, 0xc4ac5665,
    0xf4292244, 0x432aff97, 0xab9423a7, 0xfc93a039, 0x655b59c3, 0x8f0ccc92, 0xffeff47d, 0x85845dd1,
    0x6fa87e4f, 0xfe2ce6e0, 0xa3014314, 0x4e0811a1, 0xf7537e82, 0xbd3af235, 0x2ad7d2bb, 0xeb86d391]

/-- How far words are turned in the steps of the digest of four words. -/
def fourWordsTurns : Array Nat := #[7, 12, 17, 22, 5, 9, 14, 20, 4, 11, 16, 23, 6, 10, 15, 21]

def mixFour (h : UInt32 × UInt32 × UInt32 × UInt32) (block : Array UInt32) :
    UInt32 × UInt32 × UInt32 × UInt32 :=
  let step (w : UInt32 × UInt32 × UInt32 × UInt32) (i : Nat) : UInt32 × UInt32 × UInt32 × UInt32 :=
    let (a, b, c, d) := w
    let (f, place) :=
      match i / 16 with
      | 0 => ((b &&& c) ||| (~~~b &&& d), i)
      | 1 => ((d &&& b) ||| (~~~d &&& c), 5 * i + 1)
      | 2 => (b ^^^ c ^^^ d, 3 * i + 5)
      | _ => (c ^^^ (b ||| ~~~d), 7 * i)
    let sum := f + a + fourWordsNumbers.getD i 0 + block.getD (place % 16) 0
    (d, b + turnLeft sum (fourWordsTurns.getD (i / 16 * 4 + i % 4) 0), b, c)
  let (a, b, c, d) := (List.range 64).foldl step h
  (h.1 + a, h.2.1 + b, h.2.2.1 + c, h.2.2.2 + d)

/-- The digest of four words, the lowest byte of a word first. -/
def md5 (bs : List UInt8) : List UInt8 :=
  let (a, b, c, d) := (blocks numberOf (padded (bytesOf 8) bs)).foldl mixFour
    (0x67452301, 0xefcdab89, 0x98badcfe, 0x10325476)
  [a, b, c, d].flatMap fun w => bytesOf 4 w.toNat

/-- The blocks of a text of which the highest byte of a word is the first one. -/
def blocksFromTop (bs : List UInt8) : List (Array UInt32) :=
  blocks (fun ws => numberOf ws.reverse) (padded (fun n => (bytesOf 8 n).reverse) bs)

/-- The words of a digest as bytes, the highest byte of a word first. -/
def wordsFromTop (ws : List UInt32) : List UInt8 :=
  ws.flatMap fun w => (bytesOf 4 w.toNat).reverse

def mixFive (h : List UInt32) (block : Array UInt32) : List UInt32 :=
  let schedule := (List.range 64).foldl (fun (w : Array UInt32) k =>
    let at_ (n : Nat) : UInt32 := w.getD (k + 16 - n) 0
    w.push (turnLeft (at_ 3 ^^^ at_ 8 ^^^ at_ 14 ^^^ at_ 16) 1)) block
  let step (ws : List UInt32) (i : Nat) : List UInt32 :=
    match ws with
    | [a, b, c, d, e] =>
      let (f, number) : UInt32 × UInt32 :=
        if i < 20 then ((b &&& c) ||| (~~~b &&& d), 0x5a827999)
        else if i < 40 then (b ^^^ c ^^^ d, 0x6ed9eba1)
        else if i < 60 then ((b &&& c) ||| (b &&& d) ||| (c &&& d), 0x8f1bbcdc)
        else (b ^^^ c ^^^ d, 0xca62c1d6)
      [turnLeft a 5 + f + e + number + schedule.getD i 0, a, turnLeft b 30, c, d]
    | ws => ws
  h.zipWith (· + ·) ((List.range 80).foldl step h)

/-- The digest of five words. -/
def sha1 (bs : List UInt8) : List UInt8 :=
  wordsFromTop ((blocksFromTop bs).foldl mixFive
    [0x67452301, 0xefcdab89, 0x98badcfe, 0x10325476, 0xc3d2e1f0])

/-- The numbers by which the steps of the digest of eight words are told apart. -/
def eightWordsNumbers : Array UInt32 := #[
    0x428a2f98, 0x71374491, 0xb5c0fbcf, 0xe9b5dba5, 0x3956c25b, 0x59f111f1, 0x923f82a4, 0xab1c5ed5,
    0xd807aa98, 0x12835b01, 0x243185be, 0x550c7dc3, 0x72be5d74, 0x80deb1fe, 0x9bdc06a7, 0xc19bf174,
    0xe49b69c1, 0xefbe4786, 0x0fc19dc6, 0x240ca1cc, 0x2de92c6f, 0x4a7484aa, 0x5cb0a9dc, 0x76f988da,
    0x983e5152, 0xa831c66d, 0xb00327c8, 0xbf597fc7, 0xc6e00bf3, 0xd5a79147, 0x06ca6351, 0x14292967,
    0x27b70a85, 0x2e1b2138, 0x4d2c6dfc, 0x53380d13, 0x650a7354, 0x766a0abb, 0x81c2c92e, 0x92722c85,
    0xa2bfe8a1, 0xa81a664b, 0xc24b8b70, 0xc76c51a3, 0xd192e819, 0xd6990624, 0xf40e3585, 0x106aa070,
    0x19a4c116, 0x1e376c08, 0x2748774c, 0x34b0bcb5, 0x391c0cb3, 0x4ed8aa4a, 0x5b9cca4f, 0x682e6ff3,
    0x748f82ee, 0x78a5636f, 0x84c87814, 0x8cc70208, 0x90befffa, 0xa4506ceb, 0xbef9a3f7, 0xc67178f2]

def mixEight (h : List UInt32) (block : Array UInt32) : List UInt32 :=
  let schedule := (List.range 48).foldl (fun (w : Array UInt32) k =>
    let at_ (n : Nat) : UInt32 := w.getD (k + 16 - n) 0
    let low := turnRight (at_ 15) 7 ^^^ turnRight (at_ 15) 18 ^^^ (at_ 15 >>> 3)
    let high := turnRight (at_ 2) 17 ^^^ turnRight (at_ 2) 19 ^^^ (at_ 2 >>> 10)
    w.push (at_ 16 + low + at_ 7 + high)) block
  let step (ws : List UInt32) (i : Nat) : List UInt32 :=
    match ws with
    | [a, b, c, d, e, f, g, h] =>
      let high := turnRight e 6 ^^^ turnRight e 11 ^^^ turnRight e 25
      let choice := (e &&& f) ^^^ (~~~e &&& g)
      let sum := h + high + choice + eightWordsNumbers.getD i 0 + schedule.getD i 0
      let low := turnRight a 2 ^^^ turnRight a 13 ^^^ turnRight a 22
      let majority := (a &&& b) ^^^ (a &&& c) ^^^ (b &&& c)
      [sum + low + majority, a, b, c, d + sum, e, f, g]
    | ws => ws
  h.zipWith (· + ·) ((List.range 64).foldl step h)

/-- The digest of eight words. -/
def sha256 (bs : List UInt8) : List UInt8 :=
  wordsFromTop ((blocksFromTop bs).foldl mixEight
    [0x6a09e667, 0xbb67ae85, 0x3c6ef372, 0xa54ff53a,
      0x510e527f, 0x9b05688c, 0x1f83d9ab, 0x5be0cd19])

/-- The digest of eight words that begins with other ones, without its last word. -/
def sha224 (bs : List UInt8) : List UInt8 :=
  (wordsFromTop ((blocksFromTop bs).foldl mixEight
    [0xc1059ed8, 0x367cd507, 0x3070dd17, 0xf70e5939,
      0xffc00b31, 0x68581511, 0x64f98fa7, 0xbefa4fa4])).take 28

/-- The remainder after one more byte, the highest bit first. -/
def divideByte (r : UInt32) (b : UInt8) : UInt32 :=
  (List.range 8).foldl (fun (r : UInt32) _ =>
    if r &&& 0x80000000 = 0 then r <<< 1 else (r <<< 1) ^^^ 0x04c11db7)
    (r ^^^ (b.toUInt32 <<< 24))

/-- The bytes of a length, the lowest one first, as many as it needs. -/
def lengthBytes : Nat → Nat → List UInt8
  | 0, _ => []
  | fuel + 1, n => if n = 0 then [] else UInt8.ofNat n :: lengthBytes fuel (n / 256)

def remainder (bs : List UInt8) : UInt32 :=
  ~~~((bs ++ lengthBytes 16 bs.length).foldl divideByte 0)

/-- The sum of bytes in which what has been summed up is turned to the right before each one. -/
def turningSum (bs : List UInt8) : Nat :=
  bs.foldl (fun n b => (n / 2 + n % 2 * 32768 + b.toNat) % 65536) 0

end DataQuality.Shell.Digest

namespace DataQuality.Shell.Tool

def bytesIn (cs : List Char) : List UInt8 := cs.map fun c => UInt8.ofNat c.toNat

/-- Whether the files of a list have the digests that stand before their names; the ones that do not are
told. -/
def checkDigests (tool : String) (digest : List UInt8 → List UInt8) (g : Given) (list : List Char) :
    Run Nat := do
  forEach ((lines list).map String.ofList) fun line => do
    let (written, rest) := line.toList.span (· != ' ')
    let name := String.ofList (rest.drop 2)
    match ← textOf? tool name with
    | none => do
      if !g.has 's' then printLine (name ++ ": FAILED open or read")
      return 1
    | some cs =>
      let fine := Digest.hexadecimal (digest (bytesIn cs)) == written.map Char.toLower
      if !g.has 's' && !(g.has 'q' && fine) then
        printLine (name ++ ": " ++ if fine then "OK" else "FAILED")
      return statusOf fine

/-- Shows the digests of files. -/
def digestTool (tool : String) (digest : List UInt8 → List UInt8) : Action := fun g => do
  if g.has 'c' then
    forEach (namesOf g.operands) fun name => do
      match ← textOf? tool name with
      | some list => checkDigests tool digest g list
      | none => return 1
  else
    forEach (namesOf g.operands) fun name => do
      match ← textOf? tool name with
      | none => return 1
      | some cs => do
        let digits := String.ofList (Digest.hexadecimal (digest (bytesIn cs)))
        printLine (if g.has 'T' then (tool.dropEnd 3).toString.toUpper ++ " (" ++ name ++ ") = " ++ digits
          else digits ++ (if g.has 'b' then " *" else "  ") ++ name)
        return 0

/-- Shows a number made of the bytes of each file, its size and its name. -/
def sumTool (tool : String) (shown : List UInt8 → String) (isNamed : Given → Bool) : Action := fun g => do
  forEach (namesOf g.operands) fun name => do
    match ← textOf? tool name with
    | none => return 1
    | some cs => do
      printLine (shown (bytesIn cs) ++ if isNamed g then " " ++ name else "")
      return 0

/-- Shows the remainder of each file. -/
def cksum : Action :=
  sumTool "cksum" (fun bs => Decimal.ofNat (Digest.remainder bs).toNat ++ " " ++ Decimal.ofNat bs.length)
    fun g => !g.operands.isEmpty

/-- Shows the turning sum of each file. -/
def sum : Action :=
  sumTool "sum" (fun bs =>
      String.ofList (Decimal.padded 5 (Digest.turningSum bs)) ++ " " ++
        String.ofList (padded 5 (Decimal.natDigits ((bs.length + 1023) / 1024))))
    fun g => !g.operands.isEmpty

def digestOptions : Options :=
  ⟨"bctTqswz", "", "", [("binary", 'b'), ("check", 'c'), ("tag", 'T'), ("text", 't'), ("quiet", 'q'),
    ("status", 's'), ("strict", 'w'), ("warn", 'w'), ("zero", 'z'), ("ignore-missing", 'w')], true⟩

def digestTools : List (String × Utility) := [
  ("cksum", ⟨{}, 1, id, cksum⟩), ("sum", ⟨⟨"rs", "", "", [], true⟩, 1, id, sum⟩),
  ("md5sum", ⟨digestOptions, 1, id, digestTool "md5sum" Digest.md5⟩),
  ("sha1sum", ⟨digestOptions, 1, id, digestTool "sha1sum" Digest.sha1⟩),
  ("sha224sum", ⟨digestOptions, 1, id, digestTool "sha224sum" Digest.sha224⟩),
  ("sha256sum", ⟨digestOptions, 1, id, digestTool "sha256sum" Digest.sha256⟩)]

end DataQuality.Shell.Tool
