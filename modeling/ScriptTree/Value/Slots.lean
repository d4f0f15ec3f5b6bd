import ScriptTree.Value.Scalar

/-!
The order in which a set of numbers is listed. A set has no order of its own: each member goes to a
slot of a table that its number gives and, if that is taken, to one near it or further on, and the
members are listed slot by slot.
-/

namespace ScriptTree.Slots

/-- The prime that numbers are reduced by. -/
def modulus : Nat := Nat.pow 2 61 - 1

/-- The number of words of 64 bits. -/
def wordCount : Nat := Nat.pow 2 64

/-- A reduced number; minus one is left free. -/
def signed (negative : Bool) (n : Nat) : Int :=
  let reduced : Int := if negative then -(n % modulus : Nat) else (n % modulus : Nat)
  if reduced = -1 then -2 else reduced

/-- The key of a number, the same for all forms of one number. `nan` has none. -/
def keyOf? : Scalar → Option Int
  | .bool b => some (if b then 1 else 0)
  | .int i => some (signed (decide (i < 0)) i.natAbs)
  | .real (.finite negative m e) =>
    some (signed negative (m % modulus * Nat.pow 2 (Int.emod e 61).toNat))
  | .real (.infinity negative) => some (if negative then -314159 else 314159)
  | _ => none

/-- The least power of two above `n`, from `size` on, after at most `fuel` doublings. -/
def sizeAbove (n : Nat) : Nat → Nat → Nat
  | 0, size => size
  | fuel + 1, size => if n < size then size else sizeAbove n fuel (2 * size)

/-- The number of slots for some members: eight for up to four, and else more than two for each. -/
def tableSize (members : Nat) : Nat :=
  if members < 5 then 8 else sizeAbove (2 * members) members 8

/-- The number of slots that are tried in a row, if the table has that many from there on. -/
def neighbours : Nat := 9

/-- The first free slot for a key, after at most `fuel` jumps. -/
def freeSlot {α : Type} (table : Array (Option α)) : Nat → Nat → Nat → Option Nat
  | 0, _, _ => none
  | fuel + 1, slot, rest =>
    let row := if slot + neighbours < table.size then neighbours + 1 else 1
    let isFree (i : Nat) : Bool := ((table[i]?).getD none).isNone
    match ((List.range row).map (slot + ·)).find? isFree with
    | some i => some i
    | none =>
      let rest := rest / 32
      freeSlot table fuel ((slot * 5 + 1 + rest) % table.size) rest

/-- Puts a member with a key into a table. -/
def put {α : Type} (table : Array (Option α)) (key : Int) (member : α) : Array (Option α) :=
  let word := (Int.emod key wordCount).toNat
  match freeSlot table (table.size + 64) (word % table.size) word with
  | some i => table.set! i (some member)
  | none => table

/-- Members with their keys in the order in which they are listed. -/
def ordered {α : Type} (members : List (Int × α)) : List α :=
  let empty : Array (Option α) := Array.replicate (tableSize members.length) none
  (members.foldl (fun table m => put table m.1 m.2) empty).toList.filterMap id

end ScriptTree.Slots
