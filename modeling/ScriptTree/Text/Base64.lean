/-!
Base64: three bytes become four letters of an alphabet of 64, and the last group is filled up
with equals signs.
-/

namespace ScriptTree.Text.Base64

/-- The letter of a number below 64. -/
def letter (n : Nat) : Char :=
  if n < 26 then Char.ofNat (0x41 + n)
  else if n < 52 then Char.ofNat (0x61 + (n - 26))
  else if n < 62 then Char.ofNat (0x30 + (n - 52))
  else if n = 62 then '+'
  else '/'

/-- The letters of some bytes. -/
def encode : List UInt8 → List Char
  | [] => []
  | [a] =>
    let x := a.toNat
    [letter (x / 4), letter (x % 4 * 16), '=', '=']
  | [a, b] =>
    let x := a.toNat
    let y := b.toNat
    [letter (x / 4), letter (x % 4 * 16 + y / 16), letter (y % 16 * 4), '=']
  | a :: b :: c :: rest =>
    let x := a.toNat
    let y := b.toNat
    let z := c.toNat
    letter (x / 4) :: letter (x % 4 * 16 + y / 16) :: letter (y % 16 * 4 + z / 64) ::
      letter (z % 64) :: encode rest

/-- The number of a letter. -/
def value? (c : Char) : Option Nat :=
  let n := c.toNat
  if 0x41 ≤ n && n ≤ 0x5a then some (n - 0x41)
  else if 0x61 ≤ n && n ≤ 0x7a then some (n - 0x61 + 26)
  else if 0x30 ≤ n && n ≤ 0x39 then some (n - 0x30 + 52)
  else if c = '+' then some 62
  else if c = '/' then some 63
  else none

/-- The bytes of a text of whole groups, filled up with equals signs. -/
def decode? : List Char → Option (List UInt8)
  | [] => some []
  | [p, q, '=', '='] => do
    let p ← value? p
    let q ← value? q
    pure [UInt8.ofNat (p * 4 + q / 16)]
  | [p, q, r, '='] => do
    let p ← value? p
    let q ← value? q
    let r ← value? r
    pure [UInt8.ofNat (p * 4 + q / 16), UInt8.ofNat (q % 16 * 16 + r / 4)]
  | p :: q :: r :: s :: rest => do
    let p ← value? p
    let q ← value? q
    let r ← value? r
    let s ← value? s
    let more ← decode? rest
    pure (UInt8.ofNat (p * 4 + q / 16) :: UInt8.ofNat (q % 16 * 16 + r / 4) ::
      UInt8.ofNat (r % 4 * 64 + s) :: more)
  | _ => none

/-- The bytes of letters in the middle of a group: `filled` letters came before, `left` holds their
bits that are no whole byte, and `signs` equals signs came after them. Other characters do not
count, and a group that the signs fill up ends the text. -/
def decodeLooseFrom? (filled left signs : Nat) : List Char → Option (List UInt8)
  | [] => if filled = 0 then some [] else none
  | c :: cs =>
    if c = '=' then
      if filled < 2 then decodeLooseFrom? filled left signs cs
      else if 4 ≤ filled + signs + 1 then some []
      else decodeLooseFrom? filled left (signs + 1) cs
    else
      match value? c, filled with
      | none, _ => decodeLooseFrom? filled left signs cs
      | some n, 0 => decodeLooseFrom? 1 n 0 cs
      | some n, 1 => (decodeLooseFrom? 2 (n % 16) 0 cs).map (UInt8.ofNat (left * 4 + n / 16) :: ·)
      | some n, 2 => (decodeLooseFrom? 3 (n % 4) 0 cs).map (UInt8.ofNat (left * 16 + n / 4) :: ·)
      | some n, _ => (decodeLooseFrom? 0 0 0 cs).map (UInt8.ofNat (left * 64 + n) :: ·)

/-- The bytes of a text in which other characters may stand between the letters. -/
def decodeLoose? (cs : List Char) : Option (List UInt8) :=
  decodeLooseFrom? 0 0 0 cs

end ScriptTree.Text.Base64
