/-!
# Binary floating point numbers of 64 bits

A number is kept as its bits. `Binary64.decode` reads them as a sign and a multiple of a power of
two, and `Binary64.ofDecimal` finds the number nearest to a decimal, a tie going to the even
significand. All arithmetic is exact.
-/

namespace CaseUnion.Decimal

structure Binary64 where
  bits : UInt64
  deriving DecidableEq, Repr, Inhabited

inductive Decoded where
  | notANumber
  | infinite (isNegative : Bool)
  /-- The number `significand * 2 ^ exponent`; zero has significand zero. -/
  | finite (isNegative : Bool) (significand : Nat) (exponent : Int)
  deriving DecidableEq, Repr

namespace Binary64

def signBit : Nat := 1 <<< 63

/-- The leading bit of a full significand, which is not stored. -/
def leadingBit : Nat := 1 <<< 52

def decode (x : Binary64) : Decoded :=
  let n := x.bits.toNat
  let isNegative : Bool := signBit ≤ n
  let biased : Nat := n / leadingBit % 2048
  let fraction : Nat := n % leadingBit
  if biased = 2047 then
    if fraction = 0 then .infinite isNegative else .notANumber
  else if biased = 0 then .finite isNegative fraction (-1074)
  else .finite isNegative (leadingBit + fraction) ((biased : Int) - 1075)

def nan : Binary64 := ⟨0x7ff8000000000000⟩

def infinity (isNegative : Bool) : Binary64 :=
  ⟨if isNegative then 0xfff0000000000000 else 0x7ff0000000000000⟩

def isFinite (x : Binary64) : Bool :=
  match x.decode with
  | .finite .. => true
  | _ => false

def isZero (x : Binary64) : Bool :=
  match x.decode with
  | .finite _ significand _ => significand == 0
  | _ => false

/-- The quotient `numerator / denominator` rounded to the nearest integer, a tie to the even one. -/
def roundDiv (numerator denominator : Nat) : Nat :=
  let quotient := numerator / denominator
  let twice := 2 * (numerator % denominator)
  if twice > denominator || (twice == denominator && quotient % 2 == 1) then quotient + 1
  else quotient

/-- The exponent of the binade of a positive quotient: the least one for which the quotient, divided
by its power of two, is below `2 ^ 53`, but not below the exponent of the smallest numbers. -/
def binade (numerator denominator : Nat) : Int :=
  let guess : Int := (numerator.log2 : Int) - denominator.log2 - 52
  let fits (e : Int) : Bool := numerator <<< (-e).toNat < denominator <<< e.toNat * (2 * leadingBit)
  max (-1074) (if fits (guess - 1) then guess - 1 else guess)

def ofRatio (isNegative : Bool) (numerator denominator : Nat) : Binary64 :=
  let sign : Nat := if isNegative then signBit else 0
  if numerator = 0 then ⟨.ofNat sign⟩
  else
    let e := binade numerator denominator
    let rounded := roundDiv (numerator <<< (-e).toNat) (denominator <<< e.toNat)
    let (m, e) := if rounded = 2 * leadingBit then (leadingBit, e + 1) else (rounded, e)
    if e > 971 then infinity isNegative
    else if m < leadingBit then ⟨.ofNat (sign + m)⟩
    else ⟨.ofNat (sign + (e + 1075).toNat * leadingBit + (m - leadingBit))⟩

/-- The nearest number to `digits * 10 ^ exponent`. Exponents far out of range are cut first, which
changes nothing: such a decimal is zero or infinite. -/
def ofDecimal (isNegative : Bool) (digits : Nat) (exponent : Int) : Binary64 :=
  let size : Int := (Nat.toDigits 10 digits).length
  if digits = 0 || exponent + size < -400 then ofRatio isNegative 0 1
  else if exponent + size > 400 then infinity isNegative
  else ofRatio isNegative (digits * Nat.pow 10 exponent.toNat)
    (Nat.pow 10 (-exponent).toNat)

/-- The nearest number to `significand * 2 ^ exponent / divisor`. -/
def ofScaled (isNegative : Bool) (significand divisor : Nat) (exponent : Int) : Binary64 :=
  ofRatio isNegative (significand <<< exponent.toNat) (divisor <<< (-exponent).toNat)

def mul (x y : Binary64) : Binary64 :=
  match x.decode, y.decode with
  | .finite s m e, .finite t n f => ofScaled (s != t) (m * n) 1 (e + f)
  | _, _ => nan

def div (x y : Binary64) : Binary64 :=
  match x.decode, y.decode with
  | .finite s m e, .finite t n f => ofScaled (s != t) m n (e - f)
  | _, _ => nan

def neg (x : Binary64) : Binary64 := ⟨x.bits ^^^ .ofNat signBit⟩

/-- The nearest integer, a half going away from zero, cut to the range of unsigned 64-bit
integers; zero for what is no number. -/
def roundToUnsigned (x : Binary64) : Nat :=
  match x.decode with
  | .notANumber => 0
  | .infinite isNegative => if isNegative then 0 else 0xffffffffffffffff
  | .finite true .. => 0
  | .finite false m e =>
    let twice := m <<< (e + 1).toNat >>> (-(e + 1)).toNat
    min ((twice + 1) / 2) (0xffffffffffffffff)

end Binary64
end CaseUnion.Decimal
