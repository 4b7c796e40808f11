/-!
# Binary64 numbers

A finite number is a whole count of the least positive one, `2 ^ -1074`, so
equality and rounding are questions about natural numbers.
-/

namespace FormSchema

inductive Binary64 where
  | finite (negative : Bool) (units : Nat)
  | infinite (negative : Bool)
  | nan
  deriving DecidableEq, Repr

namespace Binary64

def one : Nat := Nat.pow 2 1074

def bound : Nat := Nat.pow 2 1024 * one

/-- The nearest natural number to a quotient; a half goes to the even one. -/
def roundQuotient (numerator denominator : Nat) : Nat :=
  let quotient := numerator / denominator
  let twice := 2 * (numerator % denominator)
  if twice < denominator then quotient
  else if denominator < twice then quotient + 1
  else quotient + quotient % 2

def spacing (units : Nat) : Nat :=
  if units < Nat.pow 2 53 then 1 else Nat.pow 2 (units.log2 - 52)

def ofQuotient (negative : Bool) (numerator denominator : Nat) : Binary64 :=
  let step := spacing (numerator * one / denominator)
  let units := roundQuotient (numerator * one) (denominator * step) * step
  if units < bound then .finite negative units else .infinite negative

/--
The number nearest to `digits * 10 ^ exponent`.  Exponents far out of range are
settled first: a numeral of `b` binary digits has at most `b / 3 + 1` decimal ones.
-/
def ofDecimal (negative : Bool) (digits : Nat) (exponent : Int) : Binary64 :=
  if digits = 0 then .finite negative 0
  else if 400 < exponent then .infinite negative
  else if exponent + (digits.log2 / 3 + 1 : Nat) < -400 then .finite negative 0
  else if 0 ≤ exponent then
    ofQuotient negative (digits * Nat.pow 10 exponent.toNat) 1
  else
    ofQuotient negative digits (Nat.pow 10 (-exponent).toNat)

def isZero : Binary64 → Bool
  | .finite _ units => units == 0
  | _ => false

def same : Binary64 → Binary64 → Bool
  | .finite p m, .finite q n => m == n && (p == q || m == 0)
  | .infinite p, .infinite q => p == q
  | _, _ => false

def sameInteger : Binary64 → Int → Bool
  | .finite negative units, n =>
      units == n.natAbs * one && (units == 0 || negative == decide (n < 0))
  | _, _ => false

example : ofDecimal false 15 (-1) = .finite false (one + one / 2) := by
  decide +kernel

example : ofDecimal false 5 (-324) = .finite false 1 := by decide +kernel

example : ofDecimal true 2 400 = .infinite true := by decide +kernel

end Binary64

end FormSchema
