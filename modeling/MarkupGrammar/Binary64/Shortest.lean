import MarkupGrammar.Binary64.Basic

/-!
# The shortest decimal that reads back

A double is shown by the fewest decimal digits that read back as it, and of those by the nearest to
it. Seventeen digits always suffice, so the search goes through the grids of one, two, … seventeen
digits and takes the first that has a point in the interval of reals which round to the double. The
interval's ends belong to it exactly when the mantissa is even.
-/

namespace MarkupGrammar

namespace Binary64

/-- The largest `k` with `10 ^ k ≤ n / d`, for a positive quotient. -/
def decimalExponent (n d : Nat) : Int :=
  if d ≤ n then ((Nat.toDigits 10 (n / d)).length : Int) - 1
  else
    -- `d / n` rounded up has one digit more than there are zeros to pass
    let places := (Nat.toDigits 10 ((d + n - 1) / n - 1)).length
    Int.negOfNat places

/-- The quotient `n / d` scaled by `10 ^ (-k)`. -/
def scaleDown (n d : Nat) (k : Int) : Nat × Nat :=
  if 0 ≤ k then (n, d * Nat.pow 10 k.toNat) else (n * Nat.pow 10 (-k).toNat, d)

/-- Whether `digits · 10 ^ k` rounds to the double with this mantissa and exponent. -/
def roundsTo (mantissa : Nat) (exponent : Int) (digits : Nat) (k : Int) : Bool :=
  match (if 0 ≤ k then ofQuotient false (digits * Nat.pow 10 k.toNat) 1
    else ofQuotient false digits (Nat.pow 10 (-k).toNat)) with
  | .finite _ m e => m == mantissa && e == exponent
  | _ => false

/-- The digits of the shortest decimal and the exponent of its last digit, among grids of `places`
and more digits. -/
def shortestFrom (mantissa : Nat) (exponent : Int) (n d : Nat) (top : Int) :
    Nat → Nat → Nat × Int
  | places, 0 =>
    let k := top - places + 1
    let (a, b) := scaleDown n d k
    (roundQuotient a b, k)
  | places, more + 1 =>
    let k := top - places + 1
    let (a, b) := scaleDown n d k
    let low := a / b
    let lowFits := roundsTo mantissa exponent low k
    let highFits := roundsTo mantissa exponent (low + 1) k
    if lowFits && highFits then (roundQuotient a b, k)
    else if lowFits then (low, k)
    else if highFits then (low + 1, k)
    else shortestFrom mantissa exponent n d top (places + 1) more

/-- The digits of the shortest decimal for a positive finite double, and the exponent of its last
digit. -/
def shortest (mantissa : Nat) (exponent : Int) : Nat × Int :=
  let (n, d) := quotient mantissa exponent
  shortestFrom mantissa exponent n d (decimalExponent n d) 1 16

/-- How decimals are laid out: the powers of ten between which a number is written positionally, the
width of the exponent otherwise, and the names of what is not finite. -/
structure Layout where
  leastPositional : Int
  greatestPositional : Int
  exponentWidth : Nat
  infinityName : String
  nanName : String

/-- Digits with trailing zeros taken off; the exponent grows by their number. -/
def stripZeros (digits : List Char) : List Char :=
  match (digits.reverse.dropWhile (· == '0')).reverse with
  | [] => ['0']
  | ds => ds

/-- The digits of a decimal whose first digit stands at the power `top`. -/
def Layout.write (layout : Layout) (digits : List Char) (top : Int) : String :=
  if layout.leastPositional ≤ top && top ≤ layout.greatestPositional then
    if top < 0 then
      "0." ++ String.ofList (List.replicate ((-top).toNat - 1) '0' ++ digits)
    else
      let whole := top.toNat + 1
      let front := digits.take whole ++ List.replicate (whole - digits.length) '0'
      let back := digits.drop whole
      String.ofList front ++ "." ++ (if back.isEmpty then "0" else String.ofList back)
  else
    let exponent := Nat.toDigits 10 top.natAbs
    let padded := List.replicate (layout.exponentWidth - exponent.length) '0' ++ exponent
    let mantissa :=
      match digits with
      | [] => "0"
      | [d] => String.ofList [d]
      | d :: ds => String.ofList [d] ++ "." ++ String.ofList ds
    mantissa ++ "e" ++ (if top < 0 then "-" else "+") ++ String.ofList padded

/-- The text of a double under a layout. -/
def Layout.render (layout : Layout) : Binary64 → Text
  | .nan => Text.ofString layout.nanName
  | .infinity negative => Text.ofString ((if negative then "-" else "") ++ layout.infinityName)
  | .finite negative m e =>
    let sign := if negative then "-" else ""
    if m = 0 then Text.ofString (sign ++ "0.0")
    else
      let (digits, last) := shortest m e
      let written := Nat.toDigits 10 digits
      let top := last + written.length - 1
      Text.ofString (sign ++ layout.write (stripZeros written) top)

/-- Numbers in messages: positional from one ten-thousandth to below ten to the sixteenth. -/
def messageLayout : Layout := ⟨-4, 15, 2, "inf", "nan"⟩

/-- Numbers in JSON text: as in messages, with the names that JSON readers know. -/
def jsonLayout : Layout := ⟨-4, 15, 2, "Infinity", "NaN"⟩

end Binary64

end MarkupGrammar
