/-!
Numbers of the binary64 format, kept exactly: a sign, a significand below 2^53 and a power of two.
Every conversion from a decimal rounds to the nearest number, a tie to the even significand, and
is carried out on natural numbers.
-/

namespace ScriptTree

/-- A number of the binary64 format. `finite negative significand exponent` has the absolute value
`significand * 2 ^ exponent`; zero has the least exponent. -/
inductive Binary64 where
  | finite (negative : Bool) (significand : Nat) (exponent : Int)
  | infinity (negative : Bool)
  | nan
  deriving DecidableEq, Repr

namespace Binary64

/-- The least exponent of a finite number. -/
def leastExponent : Int := -1074

/-- The greatest exponent of a finite number. -/
def greatestExponent : Int := 971

/-- Zero. -/
def zero : Binary64 := .finite false 0 leastExponent

/-- `num / den` divided by `2 ^ e`, as a fraction. -/
def scaled (num den : Nat) (e : Int) : Nat × Nat :=
  if 0 ≤ e then (num, den * Nat.pow 2 e.toNat) else (num * Nat.pow 2 (-e).toNat, den)

/-- The whole number nearest to `num / den`, a tie going to the even one. -/
def nearest (num den : Nat) : Nat :=
  let q := num / den
  let r := num % den
  if 2 * r > den || (2 * r == den && q % 2 == 1) then q + 1 else q

/-- The number nearest to `num / den`. -/
def ofRatio (negative : Bool) (num den : Nat) : Binary64 :=
  if num = 0 || den = 0 then .finite negative 0 leastExponent
  else
    let guess := max ((num.log2 : Int) - (den.log2 : Int) - 53) leastExponent
    let (p, q) := scaled num den guess
    let e := if p / q < Nat.pow 2 53 then guess else guess + 1
    let (p, q) := scaled num den e
    let m := nearest p q
    let (m, e) := if m = Nat.pow 2 53 then (Nat.pow 2 52, e + 1) else (m, e)
    if e > greatestExponent then .infinity negative else .finite negative m e

/-- The number of decimal digits of `n`. -/
def decimalLength (n : Nat) : Nat :=
  (Nat.toDigits 10 n).length

/-- The number nearest to `digits * 10 ^ e`. Far beyond the range of the format the power is not
formed. -/
def ofDecimal (negative : Bool) (digits : Nat) (e : Int) : Binary64 :=
  if digits = 0 then .finite negative 0 leastExponent
  else
    let magnitude := e + decimalLength digits
    if magnitude > 400 then .infinity negative
    else if magnitude < -400 then .finite negative 0 leastExponent
    else if 0 ≤ e then ofRatio negative (digits * Nat.pow 10 e.toNat) 1
    else ofRatio negative digits (Nat.pow 10 (-e).toNat)

/-- The number nearest to a whole number. -/
def ofInt (i : Int) : Binary64 :=
  ofRatio (decide (i < 0)) i.natAbs 1

/-- The whole part of a finite number. -/
def truncate? : Binary64 → Option Int
  | .finite negative m e =>
    let n : Nat := if 0 ≤ e then m * Nat.pow 2 e.toNat else m / Nat.pow 2 (-e).toNat
    some (if negative then -(n : Int) else n)
  | _ => none

/-- Whether this is a zero of either sign. -/
def isZero : Binary64 → Bool
  | .finite _ m _ => m == 0
  | _ => false

/-- Whether this is below zero. -/
def isNegative : Binary64 → Bool
  | .finite negative m _ => negative && m != 0
  | .infinity negative => negative
  | .nan => false

/-- Whether this is above zero. -/
def isPositive : Binary64 → Bool
  | .finite negative m _ => !negative && m != 0
  | .infinity negative => !negative
  | .nan => false

/-- The value of a finite number as a fraction with a sign. -/
def ratio? : Binary64 → Option (Int × Nat)
  | .finite negative m e =>
    let (p, q) := scaled m 1 (-e)
    some (if negative then -(p : Int) else p, q)
  | _ => none

/-- Strict order; `nan` is neither below nor above anything. -/
def lt (x y : Binary64) : Bool :=
  match x, y with
  | .nan, _ => false
  | _, .nan => false
  | .infinity a, .infinity b => a && !b
  | .infinity a, _ => a
  | _, .infinity b => !b
  | x, y =>
    match x.ratio?, y.ratio? with
    | some (p, q), some (r, s) => p * s < r * q
    | _, _ => false

/-- Equality of values: the zeros are equal, and `nan` differs from itself. -/
def same (x y : Binary64) : Bool :=
  match x, y with
  | .nan, _ => false
  | _, .nan => false
  | x, y => !lt x y && !lt y x

/-! ## Arithmetic -/

/-- The number with the opposite sign. -/
def negate : Binary64 → Binary64
  | .finite negative m e => .finite (!negative) m e
  | .infinity negative => .infinity (!negative)
  | .nan => .nan

/-- Whether the sign is a minus; `nan` has none. -/
def hasMinus : Binary64 → Bool
  | .finite negative _ _ => negative
  | .infinity negative => negative
  | .nan => false

/-- The number nearest to a sum. Numbers that cancel out give the positive zero. -/
def add (x y : Binary64) : Binary64 :=
  match x, y with
  | .nan, _ => .nan
  | _, .nan => .nan
  | .infinity a, .infinity b => if a == b then .infinity a else .nan
  | .infinity a, _ => .infinity a
  | _, .infinity b => .infinity b
  | x, y =>
    match x.ratio?, y.ratio? with
    | some (p, q), some (r, s) =>
      let sum := p * (s : Int) + r * (q : Int)
      let negative := if sum = 0 then x.hasMinus && y.hasMinus else decide (sum < 0)
      ofRatio negative sum.natAbs (q * s)
    | _, _ => .nan

/-- The number nearest to a product. -/
def mul (x y : Binary64) : Binary64 :=
  let negative := x.hasMinus != y.hasMinus
  match x, y with
  | .nan, _ => .nan
  | _, .nan => .nan
  | .infinity _, y => if y.isZero then .nan else .infinity negative
  | x, .infinity _ => if x.isZero then .nan else .infinity negative
  | x, y =>
    match x.ratio?, y.ratio? with
    | some (p, q), some (r, s) => ofRatio negative (p * r).natAbs (q * s)
    | _, _ => .nan

end Binary64
end ScriptTree
