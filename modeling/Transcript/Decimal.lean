/-!
Floating point numbers and decimal text: the parts of a number, the fewest digits that read back as it, its text, and
the number nearest to what a text says.
-/
namespace Transcript.Decimal

/-!
## Powers

Powers of the two bases between which numbers are converted.
-/

def twoTo (n : Nat) : Nat := Nat.pow 2 n

def tenTo (n : Nat) : Nat := Nat.pow 10 n

/-!
## The parts of a number

The parts of a floating point number, read off its 64 bits: one bit of sign, 11 of exponent and 52 of
fraction. A finite number is `mantissa * 2 ^ exponent` with a sign.
-/

/-- A floating point number by its parts. -/
inductive Double where
  | nan
  | infinite (negative : Bool)
  | finite (negative : Bool) (mantissa : Nat) (exponent : Int)
  deriving DecidableEq, Repr

/-- The parts that 64 bits stand for. The least exponent has no hidden bit. -/
def Double.ofBits (bits : Nat) : Double :=
  let negative : Bool := bits / twoTo 63 % 2 = 1
  let exponent : Nat := bits / twoTo 52 % 2048
  let fraction : Nat := bits % twoTo 52
  if exponent = 2047 then
    if fraction = 0 then .infinite negative else .nan
  else if exponent = 0 then .finite negative fraction (-1074)
  else .finite negative (twoTo 52 + fraction) ((exponent : Int) - 1075)

def Double.ofFloat (x : Float) : Double := Double.ofBits x.toBits.toNat

/-!
## The fewest digits

The fewest decimal digits that read back as a given binary number. The numbers that round to
`m * 2 ^ q` form an interval around it, closed if `m` is even. For one digit, two digits and so on
the two neighbours of the number on that decimal grid are tried; the first grid that has one of them
in the interval gives the digits, the nearer of two, and the upper one in a tie.
-/

/-- A positive number and the interval that rounds to it, over one denominator. -/
structure Rounding where
  low : Nat
  value : Nat
  high : Nat
  den : Nat
  closed : Bool

/-- The interval around `m * 2 ^ q`, in quarters of a unit of its last place. Below the least
mantissa of a binade the next number is only half a unit away, unless that binade is the lowest. -/
def Rounding.ofDyadic (m : Nat) (q : Int) : Rounding :=
  let below := if m = twoTo 52 ∧ q > -1074 then 1 else 2
  let up := twoTo (q - 2).toNat
  { low := (4 * m - below) * up
    value := 4 * m * up
    high := (4 * m + 2) * up
    den := twoTo (2 - q).toNat
    closed := m % 2 = 0 }

/-- Decimal digits `digits` with the point moved right by `power` places. -/
structure Digits where
  digits : Nat
  power : Int
  deriving DecidableEq, Repr

/-- Whether `d * up / down` lies in the interval. -/
def Rounding.holds (r : Rounding) (up down d : Nat) : Bool :=
  let point := d * up * r.den
  if r.closed then r.low * down ≤ point && point ≤ r.high * down
  else r.low * down < point && point < r.high * down

/-- The better neighbour of the value on the grid of multiples of `10 ^ power`, if one of the two
lies in the interval. -/
def Rounding.onGrid (r : Rounding) (power : Int) : Option Nat :=
  let up := tenTo power.toNat
  let down := tenTo (-power).toNat
  let d := r.value * down / (r.den * up)
  match r.holds up down d, r.holds up down (d + 1) with
  | false, false => none
  | true, false => some d
  | false, true => some (d + 1)
  | true, true => if 2 * r.value * down < (2 * d + 1) * up * r.den then some d else some (d + 1)

/-- The number of digits before the point, negative if zeros follow the point. The value times
`10 ^ 400` has digits before its point however small the value is. -/
def Rounding.magnitude (r : Rounding) : Int :=
  (Nat.toDigits 10 (r.value * tenTo 400 / r.den)).length - 400

/-- The digits on the coarsest grid that has a hit; 17 digits always suffice. -/
def Rounding.shortest (r : Rounding) : Digits :=
  let hit := (List.range 17).findSome? fun n : Nat =>
    let power : Int := r.magnitude - (n + 1)
    (r.onGrid power).map fun d => if d = tenTo (n + 1) then ⟨1, r.magnitude⟩ else ⟨d, power⟩
  hit.getD ⟨0, 0⟩

/-- The fewest digits that read back as `m * 2 ^ q`; zero has the digit 0. -/
def shortest (m : Nat) (q : Int) : Digits :=
  if m = 0 then ⟨0, 0⟩ else (Rounding.ofDyadic m q).shortest

/-!
## Writing

Numbers as decimal text: the fewest digits that read back, always in positional notation, with a point
only if digits follow it.
-/

/-- The digits with the point in its place. -/
def Digits.positional (d : Digits) : List Char :=
  let cs := Nat.toDigits 10 d.digits
  if 0 ≤ d.power then cs ++ List.replicate d.power.toNat '0'
  else
    let places := (-d.power).toNat
    if places < cs.length then
      cs.take (cs.length - places) ++ '.' :: cs.drop (cs.length - places)
    else '0' :: '.' :: (List.replicate (places - cs.length) '0' ++ cs)

/-- The text of the parts of a number; the sign of a zero is kept. -/
def Double.text : Double → String
  | .nan => "NaN"
  | .infinite false => "inf"
  | .infinite true => "-inf"
  | .finite negative m q =>
    let cs := (shortest m q).positional
    String.ofList (if negative then '-' :: cs else cs)

def text (x : Float) : String := (Double.ofFloat x).text

/-!
## Reading

Reading a number. The text is an optional sign and a word for infinity or for no number, in either case,
or digits with at most one point and an optional power of ten. The result is the floating point number
nearest to what the digits say, and of two the one with the even mantissa.
-/

/-- The quotient rounded to the nearest number, a half to the even neighbour. -/
def roundHalfEven (num den : Nat) : Nat :=
  let whole := num / den
  let twice := 2 * (num % den)
  if twice < den then whole
  else if twice > den then whole + 1
  else whole + whole % 2

/-- The bits of the floating point number nearest to `num / den`. The quotient of logarithms is at
most one off, so the unit of the last place is found in one comparison; numbers below the lowest
binade share its unit, and numbers above the highest are infinite. -/
def nearestBits (num den : Nat) : Nat :=
  if num = 0 then 0
  else
    let guess : Int := (num.log2 : Int) - den.log2 - 52
    let small := num * twoTo (-guess).toNat < twoTo 52 * den * twoTo guess.toNat
    let unit := max (if small then guess - 1 else guess) (-1074)
    let m := roundHalfEven (num * twoTo (-unit).toNat) (den * twoTo unit.toNat)
    min (2047 * twoTo 52) ((unit + 1074).toNat * twoTo 52 + m)

/-- The number nearest to `m * 10 ^ e`. Powers far outside the range are decided without computing
them. -/
def ofDigits (m : Nat) (e : Int) : Float :=
  let top : Int := (Nat.toDigits 10 m).length + e
  let bits :=
    if m = 0 ∨ top < -400 then 0
    else if top > 400 then 2047 * twoTo 52
    else nearestBits (m * tenTo e.toNat) (tenTo (-e).toNat)
  Float.ofBits (UInt64.ofNat bits)

/-- The number that decimal digits write. -/
def natOfDigits (cs : List Char) : Nat :=
  cs.foldl (fun n c => 10 * n + (c.toNat - '0'.toNat)) 0

/-- The power that is great enough to be read no further. -/
def greatPower : Nat := 65536

/-- The power that digits write. It is far out of range once it is great, and the digits behind that place
are passed over. -/
def powerOfDigits (cs : List Char) : Nat :=
  cs.foldl (fun n c => if n < greatPower then 10 * n + (c.toNat - '0'.toNat) else n) 0

/-- The power of ten that ends a number: nothing, or the letter, an optional sign and digits. -/
def readPower? : List Char → Option Int
  | [] => some 0
  | e :: cs =>
    if e ≠ 'e' ∧ e ≠ 'E' then none
    else
      let (negative, digits) : Bool × List Char := match cs with
        | '-' :: rest => (true, rest)
        | '+' :: rest => (false, rest)
        | _ => (false, cs)
      if digits.isEmpty ∨ ¬ digits.all Char.isDigit then none
      else
        let n : Int := powerOfDigits digits
        some (if negative then -n else n)

/-- A number without a sign. -/
def readDigits? (cs : List Char) : Option Float := do
  let whole := cs.takeWhile Char.isDigit
  let rest := cs.dropWhile Char.isDigit
  let (fraction, rest) := match rest with
    | '.' :: rest => (rest.takeWhile Char.isDigit, rest.dropWhile Char.isDigit)
    | _ => ([], rest)
  let digits := whole ++ fraction
  if digits.isEmpty then none
  else
    let power ← readPower? rest
    return ofDigits (natOfDigits digits) (power - fraction.length)

/-- A number or a word without a sign. -/
def readMagnitude? (cs : List Char) : Option Float :=
  let word := String.ofList (cs.map Char.toLower)
  if word = "inf" ∨ word = "infinity" then some (1.0 / 0.0)
  else if word = "nan" then some (0.0 / 0.0)
  else readDigits? cs

def read? : List Char → Option Float
  | '-' :: cs => (readMagnitude? cs).map (- ·)
  | '+' :: cs => readMagnitude? cs
  | cs => readMagnitude? cs

end Transcript.Decimal
