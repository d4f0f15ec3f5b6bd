import ScriptTree.Number.Binary64

/-!
The shortest decimal of a binary64 number: the fewest digits that read back as the number, and of
those the nearest to it. For one digit, two digits and so on the two decimals next to the value on
that grid are tried, the first grid with a hit wins.
-/

namespace ScriptTree.Binary64

/-- The power of ten of the leading digit of `m * 2 ^ e`, for `m` above zero. The value is raised
by 10^400 first, which makes it larger than one for every exponent of the format. -/
def leadingPower (m : Nat) (e : Int) : Int :=
  let raised := if 0 ≤ e then m * Nat.pow 10 400 * Nat.pow 2 e.toNat
    else m * Nat.pow 10 400 / Nat.pow 2 (-e).toNat
  (decimalLength raised : Int) - 401

/-- The fraction `m * 2 ^ e / 10 ^ g`. -/
def onGrid (m : Nat) (e g : Int) : Nat × Nat :=
  let (p, q) := scaled m 1 (-e)
  if 0 ≤ g then (p, q * Nat.pow 10 g.toNat) else (p * Nat.pow 10 (-g).toNat, q)

/-- The decimal `d * 10 ^ g` of this grid that reads back as `m * 2 ^ e`, the nearer one if both
neighbours do. -/
def hit? (m : Nat) (e g : Int) : Option (Nat × Int) :=
  let (p, q) := onGrid m e g
  let low := p / q
  let back (d : Nat) : Bool := decide (ofDecimal false d g = .finite false m e)
  let rest := 2 * (p % q)
  match back low, back (low + 1) with
  | true, true =>
    if rest < q || (rest == q && low % 2 == 0) then some (low, g) else some (low + 1, g)
  | true, false => some (low, g)
  | false, true => some (low + 1, g)
  | false, false => none

/-- The first hit on the grids of `n`, `n + 1`, … digits, at most `tries` of them. -/
def searchGrids (m : Nat) (e top : Int) : Nat → Nat → Option (Nat × Int)
  | 0, _ => none
  | tries + 1, n =>
    match hit? m e (top - n + 1) with
    | some d => some d
    | none => searchGrids m e top tries (n + 1)

/-- The shortest decimal of `m * 2 ^ e`: its digits without zeros at the end, and the place of the
point, counted from the left of the digits. -/
def shortest (m : Nat) (e : Int) : List Char × Int :=
  let top := leadingPower m e
  let (d, g) := (searchGrids m e top 17 1).getD (m, e)
  let digits := Nat.toDigits 10 d
  let point := (digits.length : Int) + g
  ((digits.reverse.dropWhile (· == '0')).reverse, point)

/-- How a number is written: positionally from 10^-4 up to below 10^16 and with an exponent of at
least two digits elsewhere. A positional number always has a fraction. -/
def layout (digits : List Char) (point : Int) : List Char :=
  if point > 16 || point < -3 then
    let exponent := point - 1
    let size := Nat.toDigits 10 exponent.natAbs
    let size := if size.length < 2 then '0' :: size else size
    let mantissa :=
      match digits with
      | [] => ['0']
      | [d] => [d]
      | d :: ds => d :: '.' :: ds
    mantissa ++ 'e' :: (if exponent < 0 then '-' else '+') :: size
  else if point ≤ 0 then
    '0' :: '.' :: List.replicate (-point).toNat '0' ++ digits
  else
    let whole := digits.take point.toNat
    let whole := whole ++ List.replicate (point.toNat - whole.length) '0'
    let fraction := digits.drop point.toNat
    whole ++ '.' :: (if fraction.isEmpty then ['0'] else fraction)

/-- The text of a number. -/
def text (x : Binary64) : String :=
  match x with
  | .nan => "nan"
  | .infinity negative => if negative then "-inf" else "inf"
  | .finite negative m e =>
    let body :=
      if m = 0 then ['0', '.', '0']
      else
        let (digits, point) := shortest m e
        layout digits point
    String.ofList (if negative then '-' :: body else body)

end ScriptTree.Binary64
