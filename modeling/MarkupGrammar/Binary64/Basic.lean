import MarkupGrammar.Text.Basic

/-!
# Double-precision numbers

A JSON number with a point or an exponent is a double. Doubles are kept exactly, as a sign, a
mantissa and a power of two, so that reading and printing are statements about natural numbers. No
arithmetic is done on them here: a double is read, shown, compared and cut to an integer.
-/

namespace MarkupGrammar

/-- A double: `± mantissa · 2 ^ exponent`, an infinity, or not a number. A normal number has its
mantissa in `[2 ^ 52, 2 ^ 53)`; a subnormal one has the least exponent. -/
inductive Binary64 where
  | finite (negative : Bool) (mantissa : Nat) (exponent : Int)
  | infinity (negative : Bool)
  | nan
deriving DecidableEq

namespace Binary64

/-- The least exponent of a double. -/
def leastExponent : Int := -1074

/-- The greatest exponent of a double. -/
def greatestExponent : Int := 971

/-- The quotient `n / d` rounded to a natural number, a half to the even neighbour. -/
def roundQuotient (n d : Nat) : Nat :=
  let q := n / d
  let r := n % d
  if 2 * r < d then q
  else if d < 2 * r then q + 1
  else if q % 2 = 0 then q else q + 1

/-- The positive quotient `n / d` divided by `2 ^ e` and rounded. -/
def roundAt (n d : Nat) (e : Int) : Nat :=
  if 0 ≤ e then roundQuotient n (d * Nat.pow 2 e.toNat)
  else roundQuotient (n * Nat.pow 2 (-e).toNat) d

/-- The double nearest to the positive quotient `n / d`, a tie to the even mantissa. -/
def ofQuotient (negative : Bool) (n d : Nat) : Binary64 :=
  if n = 0 then .finite negative 0 leastExponent
  else
    -- the quotient lies in `(2 ^ (guess + 52), 2 ^ (guess + 54))`
    let guess : Int := (Nat.log2 n : Int) - (Nat.log2 d : Int) - 53
    let settle (e : Int) : Int := max e leastExponent
    let low := settle guess
    let mantissa := roundAt n d low
    let (mantissa, e) :=
      if mantissa < Nat.pow 2 53 then (mantissa, low)
      else (roundAt n d (settle (guess + 1)), settle (guess + 1))
    let (mantissa, e) :=
      if mantissa = Nat.pow 2 53 then (Nat.pow 2 52, e + 1) else (mantissa, e)
    if greatestExponent < e then .infinity negative else .finite negative mantissa e

/-- The double nearest to `digits · 10 ^ exponent`. -/
def ofDecimal (negative : Bool) (digits : Nat) (exponent : Int) : Binary64 :=
  if digits = 0 then .finite negative 0 leastExponent
  else
    let places : Int := (Nat.toDigits 10 digits).length
    if 310 < places + exponent then .infinity negative
    else if places + exponent < -330 then .finite negative 0 leastExponent
    else if 0 ≤ exponent then ofQuotient negative (digits * Nat.pow 10 exponent.toNat) 1
    else ofQuotient negative digits (Nat.pow 10 (-exponent).toNat)

/-- The magnitude of a finite double as a quotient of natural numbers. -/
def quotient (mantissa : Nat) (exponent : Int) : Nat × Nat :=
  if 0 ≤ exponent then (mantissa * Nat.pow 2 exponent.toNat, 1)
  else (mantissa, Nat.pow 2 (-exponent).toNat)

/-- Whether the number is a zero of either sign. -/
def isZero : Binary64 → Bool
  | .finite _ m _ => m == 0
  | _ => false

/-- The integer part of a finite double, toward zero. -/
def truncate? : Binary64 → Option Int
  | .finite negative m e =>
    let (n, d) := quotient m e
    let whole : Int := (n / d : Nat)
    some (if negative then -whole else whole)
  | _ => none

/-- The integer that a double is equal to, if there is one. -/
def toInt? : Binary64 → Option Int
  | .finite negative m e =>
    let (n, d) := quotient m e
    if n % d = 0 then
      let whole : Int := (n / d : Nat)
      some (if negative then -whole else whole)
    else none
  | _ => none

/-- Whether two doubles are the same as keys: zeros of either sign are, and `nan`, which is no
number, is the same as itself. -/
def same : Binary64 → Binary64 → Bool
  | .finite s m e, .finite s' m' e' => (m == 0 && m' == 0) || (s == s' && m == m' && e == e')
  | .infinity s, .infinity s' => s == s'
  | .nan, .nan => true
  | _, _ => false

end Binary64

end MarkupGrammar
