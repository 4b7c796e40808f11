import FormSchema.Number.Binary64

/-!
# Shortest decimal text

A number is written with the fewest digits that read back as the same number,
of two such the nearer, and of two that are as near the one with an even end.
Positional notation is used from `10 ^ -4` up to `10 ^ 16`; outside it the exponent
has a sign and at least two digits.
-/

namespace FormSchema.Binary64

def leadingExponent (units : Nat) : Int :=
  (Nat.toDigits 10 (units * Nat.pow 10 400 / one)).length - 401

/-- The two neighbours of a number among the multiples of `10 ^ exponent`,
the nearer first; the even multiple is first when both are as near. -/
def neighbours (units : Nat) (exponent : Int) : List Nat :=
  let numerator := units * Nat.pow 10 (-exponent).toNat
  let denominator := one * Nat.pow 10 exponent.toNat
  let below := numerator / denominator
  if roundQuotient numerator denominator = below then [below, below + 1]
  else [below + 1, below]

def shortestFrom (units : Nat) (leading : Int) : Nat → Nat → Nat × Int
  | 0, _ => (units, -1074)
  | tries + 1, digits =>
      let exponent := leading - digits
      match (neighbours units exponent).find? fun candidate =>
          ofDecimal false candidate exponent == .finite false units with
      | some candidate => (candidate, exponent)
      | none => shortestFrom units leading tries (digits + 1)

def shortest (units : Nat) : Nat × Int :=
  shortestFrom units (leadingExponent units) 17 0

def exponentText (exponent : Int) : String :=
  let digits := Nat.toDigits 10 exponent.natAbs
  (if exponent < 0 then "e-" else "e+") ++
    (if digits.length < 2 then "0" else "") ++ String.ofList digits

def positional (digits : List Char) (place : Int) : List Char :=
  if place ≤ 0 then
    '0' :: '.' :: List.replicate (-place).toNat '0' ++ digits
  else if place.toNat < digits.length then
    digits.take place.toNat ++ '.' :: digits.drop place.toNat
  else
    digits ++ List.replicate (place.toNat - digits.length) '0' ++ ['.', '0']

def magnitudeText (units : Nat) : String :=
  if units = 0 then "0.0"
  else
    let (number, exponent) := shortest units
    let written := Nat.toDigits 10 number
    let place := written.length + exponent
    let digits := (written.reverse.dropWhile (· == '0')).reverse
    if -4 < place ∧ place ≤ 16 then String.ofList (positional digits place)
    else
      let fraction := match digits.drop 1 with
        | [] => []
        | rest => '.' :: rest
      String.ofList (digits.take 1 ++ fraction) ++ exponentText (place - 1)

def text : Binary64 → String
  | .finite negative units =>
      (if negative then "-" else "") ++ magnitudeText units
  | .infinite negative => if negative then "-inf" else "inf"
  | .nan => "nan"

example : neighbours (7 * one / 4) (-1) = [18, 17] := by decide +kernel

example : neighbours (5 * one / 4) (-1) = [12, 13] := by decide +kernel

end FormSchema.Binary64
