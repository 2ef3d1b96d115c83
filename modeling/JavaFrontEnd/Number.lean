/-
Binary floating-point numbers: reading them, taking them apart and writing them.
-/

namespace JavaFrontEnd.Number

/-! Rounding to binary floating point. A non-negative rational number is rounded to the nearest
number `m · 2^q` of a format, an exact half going to the even `m`, by comparing natural numbers.
Reading a decimal literal is rounding the fraction that it spells. -/

section

variable (numerator denominator : Nat)

/-- A binary floating-point format: how many bits a significand has, and the exponents of its
smallest and largest numbers. -/
structure Format where
  precision : Nat
  lowest : Nat
  /-- The largest exponent of the last bit of a significand. -/
  highest : Int

def double : Format :=
  ⟨53, 1074, 971⟩

def single : Format :=
  ⟨24, 149, 104⟩

/-- The quotient of two numbers rounded to the nearest integer, a half to the even one. -/
def divideToEven : Nat :=
  let quotient := numerator / denominator
  let twice := 2 * (numerator % denominator)
  if denominator < twice || (twice == denominator && quotient % 2 == 1) then quotient + 1
  else quotient

/-- The quotient of a fraction by a power of two, rounded to an integer. -/
def scaledToEven (exponent : Int) : Nat :=
  match exponent with
  | .ofNat up => divideToEven numerator (denominator * Nat.pow 2 up)
  | .negSucc down => divideToEven (numerator * Nat.pow 2 (down + 1)) denominator

def leadingExponent : Int :=
  let estimate : Int := (numerator.log2 : Int) - (denominator.log2 : Int)
  let reached : Bool := match estimate with
    | .ofNat up => denominator * Nat.pow 2 up ≤ numerator
    | .negSucc down => denominator ≤ numerator * Nat.pow 2 (down + 1)
  if reached then estimate else estimate - 1

/-- The bits of the number of a format that is nearest to a fraction, without a sign. Numbers that
are too large become infinite. -/
def Format.bits (format : Format) (numerator denominator : Nat) : Nat :=
  if numerator = 0 then 0
  else
    let width := format.precision - 1
    let exponent := max (leadingExponent numerator denominator - width) (-(format.lowest : Int))
    let rounded := scaledToEven numerator denominator exponent
    let carried := rounded == Nat.pow 2 format.precision
    let significand := if carried then Nat.pow 2 width else rounded
    let exponent := if carried then exponent + 1 else exponent
    let infinite := (format.highest + format.lowest + 2).toNat * Nat.pow 2 width
    if format.highest < exponent then infinite
    else if significand < Nat.pow 2 width then significand
    else (exponent + format.lowest + 1).toNat * Nat.pow 2 width + (significand - Nat.pow 2 width)

/-- The bits of the number of a format that is nearest to `digits · 10^exponent`. Exponents far
outside the format are decided without computing the power. -/
def Format.decimalBits (format : Format) (digits : Nat) (exponent : Int) : Nat :=
  let size : Int := ((Nat.toDigits 10 digits).length : Int) + exponent
  if digits = 0 || size < -400 then 0
  else if 400 < size then format.bits (Nat.pow 2 2000) 1
  else
    match exponent with
    | .ofNat up => format.bits (digits * Nat.pow 10 up) 1
    | .negSucc down => format.bits digits (Nat.pow 10 (down + 1))

end

/-! Binary floating-point numbers taken apart: sign, significand and exponent. The remainder of two
numbers is computed on those parts exactly. -/

/-- What the bits of a number say. A finite number is `significand · 2^exponent`. -/
inductive Decoded where
  | nan
  | infinite (negative : Bool)
  | finite (negative : Bool) (significand : Nat) (exponent : Int)
  deriving DecidableEq, Repr

def Format.decode (format : Format) (bits : Nat) : Decoded :=
  let width := format.precision - 1
  let top := (format.highest + format.lowest + 2).toNat
  let fraction := bits % Nat.pow 2 width
  let field := bits / Nat.pow 2 width % (top + 1)
  let negative := bits / Nat.pow 2 width / (top + 1) % 2 == 1
  if field = top then if fraction = 0 then .infinite negative else .nan
  else if field = 0 then .finite negative fraction (-(format.lowest : Int))
  else .finite negative (Nat.pow 2 width + fraction) ((field : Int) - format.lowest - 1)

def decodeDouble (value : Float) : Decoded :=
  double.decode value.toBits.toNat

def decodeSingle (value : Float32) : Decoded :=
  single.decode value.toBits.toNat

def ofFraction (negative : Bool) (numerator denominator : Nat) : Float :=
  let bits := double.bits numerator denominator
  Float.ofBits (UInt64.ofNat (if negative then Nat.pow 2 63 + bits else bits))

def notANumber : Float :=
  0.0 / 0.0

/-- The remainder of a division whose quotient is rounded toward zero. It has the sign of the
dividend and is exact. -/
def remainder (dividend divisor : Float) : Float :=
  match decodeDouble dividend, decodeDouble divisor with
  | .nan, _ | _, .nan | .infinite _, _ => notANumber
  | .finite .., .infinite _ => dividend
  | .finite negative first firstExponent, .finite _ second secondExponent =>
    if second = 0 then notANumber
    else
      let base := min firstExponent secondExponent
      let scaledFirst := first * Nat.pow 2 (firstExponent - base).toNat
      let scaledSecond := second * Nat.pow 2 (secondExponent - base).toNat
      let rest := scaledFirst % scaledSecond
      match base with
      | .ofNat up => ofFraction negative (rest * Nat.pow 2 up) 1
      | .negSucc down => ofFraction negative rest (Nat.pow 2 (down + 1))

/-! The shortest decimal text of a binary floating-point number: the fewest digits that read back as
the number and, of those, the nearest to it. Digit counts are tried in turn; for each, only the two
neighbours of the number among the decimals with that many digits can be hits. All comparisons are
between natural numbers. -/

/-- A positive number and the interval that rounds to it, over a common denominator. -/
structure Target where
  low : Nat
  value : Nat
  high : Nat
  denominator : Nat
  /-- The ends of the interval round to the number too. -/
  closed : Bool

/-- The interval around `significand · 2^exponent`. Below a power of two the numbers lie more
densely, so the interval is shorter on that side. -/
def Format.target (format : Format) (significand : Nat) (exponent : Int) : Target :=
  let narrow := significand = Nat.pow 2 (format.precision - 1) ∧ -(format.lowest : Int) < exponent
  let low := 4 * significand - (if narrow then 1 else 2)
  let value := 4 * significand
  let high := 4 * significand + 2
  let closed := significand % 2 == 0
  match exponent - 2 with
  | .ofNat up =>
    { low := low * Nat.pow 2 up, value := value * Nat.pow 2 up, high := high * Nat.pow 2 up
      denominator := 1, closed }
  | .negSucc down => { low, value, high, denominator := Nat.pow 2 (down + 1), closed }

namespace Target

variable (target : Target)

def accepts (digits scale : Nat) : Bool :=
  let decimal := digits * target.denominator
  if target.closed then target.low * scale ≤ decimal && decimal ≤ target.high * scale
  else target.low * scale < decimal && decimal < target.high * scale

/-- A bound for the number of decimal digits before the point, at most one too great; a number
below a tenth has none, and a lesser number a negative count. A bound that is too great only makes
the search begin at a coarser grid. -/
def magnitude : Int :=
  let digitCount (number : Nat) : Int := (Nat.toDigits 10 number).length
  if target.denominator ≤ target.value then digitCount (target.value / target.denominator)
  else 2 - digitCount (target.denominator / target.value)

/-- The interval with numerator and denominator multiplied so that a unit is `10^(-places)`. -/
def scaled (places : Int) : Target :=
  match places with
  | .ofNat up =>
    { target with
      low := target.low * Nat.pow 10 up, value := target.value * Nat.pow 10 up
      high := target.high * Nat.pow 10 up }
  | .negSucc down => { target with denominator := target.denominator * Nat.pow 10 (down + 1) }

/-- A number with a certain count of digits that reads back, if there is one; of two, the nearer,
and of two equally near ones the greater. The result counts units of `10^(-places)`. -/
def hit? (places : Int) : Option Nat :=
  let unit := target.scaled places
  let below := unit.value / unit.denominator
  let rest := unit.value % unit.denominator
  let belowHits := unit.accepts below 1 && 0 < below
  let aboveHits := unit.accepts (below + 1) 1
  if belowHits && aboveHits then
    if 2 * rest < unit.denominator then some below else some (below + 1)
  else if belowHits then some below
  else if aboveHits then some (below + 1)
  else none

/-- The first hit among growing counts of digits, as digits and the number of places after the
point. -/
def search (target : Target) (magnitude : Int) : Nat → Nat → Option (Nat × Int)
  | 0, _ => none
  | fuel + 1, count =>
    let places := (count : Int) - magnitude
    match target.hit? places with
    | some digits => some (digits, places)
    | none => search target magnitude fuel (count + 1)

end Target

/-- Digits without the zeros at their end, and the places without them. -/
def dropZeros : Nat → Nat → Int → Nat × Int
  | 0, digits, places => (digits, places)
  | fuel + 1, digits, places =>
    if digits ≠ 0 ∧ digits % 10 = 0 then dropZeros fuel (digits / 10) (places - 1)
    else (digits, places)

def positional (digits : Nat) (places : Int) : String :=
  let text := Nat.toDigits 10 digits
  match places with
  | .negSucc down => String.ofList (text ++ List.replicate (down + 1) '0')
  | .ofNat 0 => String.ofList text
  | .ofNat count =>
    let padded := List.replicate (count + 1 - text.length) '0' ++ text
    let whole := padded.length - count
    String.ofList (padded.take whole ++ '.' :: padded.drop whole)

def Format.display (format : Format) (decoded : Decoded) : String :=
  let signed (negative : Bool) (text : String) : String := if negative then "-" ++ text else text
  match decoded with
  | .nan => "NaN"
  | .infinite negative => signed negative "inf"
  | .finite negative 0 _ => signed negative "0"
  | .finite negative significand exponent =>
    let target := format.target significand exponent
    let (digits, places) := (target.search target.magnitude 20 1).getD (0, 0)
    let (digits, places) := dropZeros 400 digits places
    signed negative (positional digits places)

def displayDouble (value : Float) : String :=
  double.display (decodeDouble value)

def displaySingle (value : Float32) : String :=
  single.display (decodeSingle value)

end JavaFrontEnd.Number
