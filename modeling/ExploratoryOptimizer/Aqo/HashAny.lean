import Mathlib.Algebra.Order.Ring.Rat

/-! `hash_any` of access/hash/hashfunc.c on a little-endian machine, where the word-wise and the
byte-wise code paths compute the same, and `get_int_array_hash2` of hash.c on arrays of doubles. -/
namespace ExploratoryOptimizer.Aqo.HashAny

structure HashState where
  a : UInt32
  b : UInt32
  c : UInt32

def rot (x : UInt32) (k : UInt32) : UInt32 := (x <<< k) ||| (x >>> (32 - k))

/-- One line of the macro `mix`. -/
def mixLine (x y z k : UInt32) : UInt32 × UInt32 := ((x - z) ^^^ rot z k,z + y)

def mix (state : HashState) : HashState :=
  let (a,c) := mixLine state.a state.b state.c 4
  let (b,a) := mixLine state.b c a 6
  let (c,b) := mixLine c a b 8
  let (a,c) := mixLine a b c 16
  let (b,a) := mixLine b c a 19
  let (c,b) := mixLine c a b 4
  ⟨a,b,c⟩

def final (state : HashState) : UInt32 :=
  let c := (state.c ^^^ state.b) - rot state.b 14
  let a := (state.a ^^^ c) - rot c 11
  let b := (state.b ^^^ a) - rot a 25
  let c := (c ^^^ b) - rot b 16
  let a := (a ^^^ c) - rot c 4
  let b := (b ^^^ a) - rot a 14
  (c ^^^ b) - rot b 24

def littleEndian (bytes : List UInt8) : UInt32 :=
  bytes.foldr (fun byte word => byte.toUInt32 + (word <<< 8)) 0

def hashLoop (state : HashState) : List UInt8 → UInt32
  | k0 :: k1 :: k2 :: k3 :: k4 :: k5 :: k6 :: k7 :: k8 :: k9 :: k10 :: k11 :: rest =>
    hashLoop (mix ⟨state.a + littleEndian [k0,k1,k2,k3],state.b + littleEndian [k4,k5,k6,k7],
      state.c + littleEndian [k8,k9,k10,k11]⟩) rest
  | rest =>
    -- The lowest byte of `c` is reserved for the length.
    final ⟨state.a + littleEndian (rest.take 4),state.b + littleEndian ((rest.drop 4).take 4),
      state.c + (littleEndian (rest.drop 8) <<< 8)⟩

def hashAny (key : List UInt8) : UInt32 :=
  let start : UInt32 := 0x9e3779b9 + UInt32.ofNat key.length + 3923095
  hashLoop ⟨start,start,start⟩ key

/-- The IEEE representation of a whole number below 2^53. -/
def doubleBits (value : Nat) : Nat :=
  if value = 0 then 0 else (1023 + value.log2) * 2 ^ 52 + (value - 2 ^ value.log2) *
    2 ^ (52 - value.log2)

def doubleBytes (value : Nat) : List UInt8 :=
  (List.range 8).map fun place => UInt8.ofNat (doubleBits value / 2 ^ (8 * place))

/-- Hash of an array of doubles that hold whole numbers, as the signed integer it is read as. -/
def getIntArrayHash2 (values : List ℚ) : Int :=
  (hashAny (values.flatMap fun value => doubleBytes value.num.toNat)).toInt32.toInt

/-- The IEEE representation of a fraction with a numerator below 2^53 and a power of two as its
denominator. -/
def fractionBits (value : ℚ) : Nat :=
  let numerator := value.num.natAbs
  if numerator = 0 then 0
  else (if value.num < 0 then 2 ^ 63 else 0) + (1023 + numerator.log2 - value.den.log2) * 2 ^ 52 +
    (numerator - 2 ^ numerator.log2) * 2 ^ (52 - numerator.log2)

def fractionBytes (value : ℚ) : List UInt8 :=
  (List.range 8).map fun place => UInt8.ofNat (fractionBits value / 2 ^ (8 * place))

/-- The same hash where the doubles hold fractions. -/
def getFractionArrayHash2 (values : List ℚ) : Int :=
  (hashAny (values.flatMap fractionBytes)).toInt32.toInt

end ExploratoryOptimizer.Aqo.HashAny
