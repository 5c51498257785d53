/-!
Random words. A seed is stretched into a key of eight words by a linear congruence whose output is
permuted; the key opens a ChaCha stream of twelve rounds, and the `n`th random word is the `n`th
word of that stream. A word depends on nothing but the seed and its place.
-/

namespace TextCompletion.Random

def rotateLeft (x : UInt32) (n : UInt32) : UInt32 := (x <<< n) ||| (x >>> (32 - n))

def rotateRight (x : UInt32) (n : UInt32) : UInt32 :=
  if n = 0 then x else (x >>> n) ||| (x <<< (32 - n))

/-- The congruence that stretches a seed. -/
def advance (state : UInt64) : UInt64 := state * 6364136223846793005 + 11634580027462260723

/-- A word from a state: the high bits are folded down and turned by the topmost five. -/
def output (state : UInt64) : UInt32 :=
  rotateRight (((state >>> 18) ^^^ state) >>> 27).toUInt32 (state >>> 59).toUInt32

def stretch : Nat → UInt64 → List UInt32
  | 0, _ => []
  | count + 1, state => output (advance state) :: stretch count (advance state)

structure Row where
  a : UInt32
  b : UInt32
  c : UInt32
  d : UInt32
  deriving DecidableEq, Repr

namespace Row

def zip (f : UInt32 → UInt32 → UInt32) (x y : Row) : Row :=
  ⟨f x.a y.a, f x.b y.b, f x.c y.c, f x.d y.d⟩

def add (x y : Row) : Row := zip (· + ·) x y

def xor (x y : Row) : Row := zip (· ^^^ ·) x y

def turn (x : Row) (n : UInt32) : Row :=
  ⟨rotateLeft x.a n, rotateLeft x.b n, rotateLeft x.c n, rotateLeft x.d n⟩

def shift (x : Row) : Row := ⟨x.b, x.c, x.d, x.a⟩

def toList (x : Row) : List UInt32 := [x.a, x.b, x.c, x.d]

end Row

structure Block where
  w : Row
  x : Row
  y : Row
  z : Row
  deriving DecidableEq, Repr

namespace Block

def round (s : Block) : Block :=
  let w := s.w.add s.x
  let z := (s.z.xor w).turn 16
  let y := s.y.add z
  let x := (s.x.xor y).turn 12
  let w := w.add x
  let z := (z.xor w).turn 8
  let y := y.add z
  let x := (x.xor y).turn 7
  ⟨w, x, y, z⟩

def doubleRound (s : Block) : Block :=
  let s := s.round
  let t := round ⟨s.w, s.x.shift, s.y.shift.shift, s.z.shift.shift.shift⟩
  ⟨t.w, t.x.shift.shift.shift, t.y.shift.shift, t.z.shift⟩

def add (s t : Block) : Block := ⟨s.w.add t.w, s.x.add t.x, s.y.add t.y, s.z.add t.z⟩

def toList (s : Block) : List UInt32 := s.w.toList ++ s.x.toList ++ s.y.toList ++ s.z.toList

end Block

def constants : Row := ⟨0x61707865, 0x3320646E, 0x79622D32, 0x6B206574⟩

/-- A block before its rounds: constants, key, and the block's number in two words. -/
def blockInput (key : List UInt32) (number : Nat) : Block :=
  let word (i : Nat) : UInt32 := key.getD i 0
  { w := constants
    x := ⟨word 0, word 1, word 2, word 3⟩
    y := ⟨word 4, word 5, word 6, word 7⟩
    z := ⟨UInt32.ofNat number, UInt32.ofNat (number / Nat.pow 2 32), 0, 0⟩ }

def blockWords (key : List UInt32) (number : Nat) : List UInt32 :=
  let start := blockInput key number
  (start.add (Nat.repeat Block.doubleRound 6 start)).toList

def word (seed : UInt64) (n : Nat) : UInt32 :=
  (blockWords (stretch 8 seed) (n / 16)).getD (n % 16) 0

/-- A number in the unit interval, 1 excluded, from the upper 23 bits of a word. -/
def unitFloat (w : UInt32) : Float32 :=
  Float32.ofBits ((w >>> 9) ||| 0x3F800000) - 1

end TextCompletion.Random
