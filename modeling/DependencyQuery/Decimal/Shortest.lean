/-!
# Decimal numbers and the shortest text of a floating-point number

A number written with a decimal point stands for the binary floating-point number nearest to it, with
53 bits of precision and exponents from -1074 on; of two equally near the even one.  Its text is the
shortest decimal that stands for the same floating-point number, and of those the nearest to it; of
two equally near the even one.

* `Decimal` — a decimal fraction, as it is written;
* `Decimal.nearest` — the floating-point number that it stands for, as mantissa and exponent of two;
* `shortest` — the digits and the exponent of ten of the shortest decimal for it;
* `Decimal.text` — the text, positional from a ten-thousandth up to below ten to the sixteenth and
  with an exponent outside of that.
-/

namespace DependencyQuery

/-- The decimal fraction `mantissa / 10 ^ places`. -/
structure Decimal where
  mantissa : Int
  places : Nat
deriving DecidableEq, Repr

namespace Decimal

/-- The fraction `num / den` rounded to an integer, a half to the even neighbour. -/
def roundHalfEven (num den : Nat) : Nat :=
  let q := num / den
  let r := 2 * (num % den)
  if r < den then q else if den < r then q + 1 else if q % 2 = 0 then q else q + 1

/-- The fraction `num / den` divided by a power of two, as numerator and denominator. -/
def scaleByTwo (num den : Nat) (exponent : Int) : Nat × Nat :=
  if 0 ≤ exponent then (num, den * Nat.pow 2 exponent.toNat) else (num * Nat.pow 2 (-exponent).toNat, den)

/-- The floating-point number nearest to `num / den`, as its mantissa and its exponent of two. -/
def nearest (num den : Nat) : Nat × Int :=
  let guess : Int := (Nat.log2 num : Int) - (Nat.log2 den : Int) - 53
  let fits (e : Int) : Bool :=
    let (n, d) := scaleByTwo num den e
    n < d * Nat.pow 2 53
  let exponent := max (-1074) (if fits guess then guess else if fits (guess + 1) then guess + 1 else guess + 2)
  let (n, d) := scaleByTwo num den exponent
  let mantissa := roundHalfEven n d
  if mantissa = Nat.pow 2 53 then (Nat.pow 2 52, exponent + 1) else (mantissa, exponent)

/-- The powers of ten and two by which a comparison of `digits * 10 ^ ten` with
`quarters / 4 * 2 ^ two` multiplies out. -/
def crossed (digits : Nat) (ten : Int) (quarters : Nat) (two : Int) : Nat × Nat :=
  (4 * digits * Nat.pow 10 ten.toNat * Nat.pow 2 (-two).toNat,
    quarters * Nat.pow 2 two.toNat * Nat.pow 10 (-ten).toNat)

/-- Whether `digits * 10 ^ ten` stands for the floating-point number `mantissa * 2 ^ two`: it lies
between the middles to the two neighbours, or on one of them if the mantissa is even. -/
def standsFor (mantissa : Nat) (two : Int) (digits : Nat) (ten : Int) : Bool :=
  let below :=
    if mantissa = Nat.pow 2 52 && (-1074 : Int) < two then 4 * mantissa - 1 else 4 * mantissa - 2
  let (a, low) := crossed digits ten below two
  let (b, high) := crossed digits ten (4 * mantissa + 2) two
  if mantissa % 2 = 0 then low ≤ a && b ≤ high else low < a && b < high

/-- The decimal with `count` digits nearest to the floating-point number that stands for it, if one
does; `magnitude` is the number of digits before its point. -/
def withDigits? (mantissa : Nat) (two : Int) (magnitude : Int) (count : Nat) : Option (Nat × Int) :=
  let ten := magnitude - count
  let num := mantissa * Nat.pow 2 two.toNat * Nat.pow 10 (-ten).toNat
  let den := Nat.pow 2 (-two).toNat * Nat.pow 10 ten.toNat
  let low := num / den
  let candidates := if roundHalfEven num den = low then [low, low + 1] else [low + 1, low]
  (candidates.find? fun digits => standsFor mantissa two digits ten).map fun digits => (digits, ten)

/-- The number of digits that `num / den` has before its point, negative where zeros follow it. -/
def magnitude (num den : Nat) : Int :=
  let guess : Int := ((toString num).length : Int) - ((toString den).length : Int)
  let reaches (e : Int) : Bool := den * Nat.pow 10 e.toNat ≤ num * Nat.pow 10 (-e).toNat
  if reaches guess then guess + 1 else guess

/-- The shortest decimal that stands for a floating-point number: its digits and exponent of ten. -/
def shortest (mantissa : Nat) (two : Int) : Nat × Int :=
  let m := magnitude (mantissa * Nat.pow 2 two.toNat) (Nat.pow 2 (-two).toNat)
  let counts := (List.range 17).map (· + 1)
  (counts.findSome? (withDigits? mantissa two m)).getD (mantissa, 0)

/-- Digits without the zeros at their end, and the exponent that makes up for them. -/
def trimZeros : (fuel digits : Nat) → (ten : Int) → Nat × Int
  | 0, digits, ten => (digits, ten)
  | fuel + 1, digits, ten =>
    if digits ≠ 0 ∧ digits % 10 = 0 then trimZeros fuel (digits / 10) (ten + 1) else (digits, ten)

/-- A run of zeros. -/
def zeros (count : Int) : String := String.ofList (List.replicate count.toNat '0')

/-- The text of `digits * 10 ^ ten`. -/
def layOut (digits : Nat) (ten : Int) : String :=
  let text := toString digits
  let point := (text.length : Int) + ten
  if -4 < point ∧ point ≤ 16 then
    if point ≤ 0 then "0." ++ zeros (-point) ++ text
    else if 0 ≤ ten then text ++ zeros ten ++ ".0"
    else
      String.ofList (text.toList.take point.toNat) ++ "." ++
        String.ofList (text.toList.drop point.toNat)
  else
    let exponent := point - 1
    let rest := String.ofList (text.toList.drop 1)
    String.ofList (text.toList.take 1) ++ (if rest.isEmpty then "" else "." ++ rest) ++ "e" ++
      (if exponent < 0 then "-" else "+") ++
      (if exponent.natAbs < 10 then "0" else "") ++ toString exponent.natAbs

/-- The text of the floating-point number that the decimal stands for. -/
def text (d : Decimal) : String :=
  let sign := if d.mantissa < 0 then "-" else ""
  if d.mantissa = 0 then "0.0"
  else
    let (mantissa, two) := nearest d.mantissa.natAbs (Nat.pow 10 d.places)
    if mantissa = 0 then sign ++ "0.0"
    else
      let (digits, ten) := shortest mantissa two
      let (digits, ten) := trimZeros 20 digits ten
      sign ++ layOut digits ten

/-- The integer that the decimal equals, if it equals one. -/
def toInt? (d : Decimal) : Option Int :=
  let scale : Int := Nat.pow 10 d.places
  if d.mantissa % scale = 0 then some (d.mantissa / scale) else none

end Decimal

end DependencyQuery
