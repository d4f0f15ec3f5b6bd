/-!
UTF-8: writing a text as bytes, and a machine that reads bytes back one at a time.

The machine yields pieces: characters, and faults where the bytes are no UTF-8. A fault covers the
longest run of bytes that could still have started a character, so the pieces cover the input
without gaps. Reading strictly stops at the first fault; reading leniently writes one replacement
character for each. Because the machine holds all that it remembers in its state, cutting the
input anywhere and reading the parts in turn gives the same pieces (`run_append`).
-/

namespace ScriptTree.Text.Utf8

/-- The bytes of a text. -/
def encode (cs : List Char) : List UInt8 :=
  cs.flatMap String.utf8EncodeChar

/-- The bytes of a text. -/
def bytes (s : String) : List UInt8 :=
  encode s.toList

/-- Why bytes are no UTF-8. -/
inductive Fault where
  | invalidStart
  | invalidContinuation
  | truncated
  deriving DecidableEq, Repr

/-- The wording of a fault. -/
def Fault.reason : Fault → String
  | .invalidStart => "invalid start byte"
  | .invalidContinuation => "invalid continuation byte"
  | .truncated => "unexpected end of data"

/-- What the machine yields: a character, or a fault over `width` bytes. -/
inductive Piece where
  | char (c : Char)
  | fault (width : Nat) (why : Fault)
  deriving DecidableEq, Repr

/-- Where the machine stands: between characters, or inside one of which `seen` bytes are read
with the code point `code` so far, `owed` bytes are missing, and the next must lie from `least`
to `greatest`. -/
inductive State where
  | start
  | inside (seen : Nat) (owed : Nat) (code : Nat) (least : Nat) (greatest : Nat)
  deriving DecidableEq, Repr

/-- A byte between characters. -/
def first (b : UInt8) : State × List Piece :=
  let n := b.toNat
  if n < 0x80 then (.start, [.char (Char.ofNat n)])
  else if n < 0xc2 then (.start, [.fault 1 .invalidStart])
  else if n < 0xe0 then (.inside 1 1 (n - 0xc0) 0x80 0xbf, [])
  else if n = 0xe0 then (.inside 1 2 0 0xa0 0xbf, [])
  else if n = 0xed then (.inside 1 2 0xd 0x80 0x9f, [])
  else if n < 0xf0 then (.inside 1 2 (n - 0xe0) 0x80 0xbf, [])
  else if n = 0xf0 then (.inside 1 3 0 0x90 0xbf, [])
  else if n < 0xf4 then (.inside 1 3 (n - 0xf0) 0x80 0xbf, [])
  else if n = 0xf4 then (.inside 1 3 4 0x80 0x8f, [])
  else (.start, [.fault 1 .invalidStart])

/-- One byte: the state after it and the pieces it completes. A byte that cannot continue the
character in progress ends that character with a fault and is read anew. -/
def step : State → UInt8 → State × List Piece
  | .start, b => first b
  | .inside seen owed code least greatest, b =>
    let n := b.toNat
    if least ≤ n && n ≤ greatest then
      let code := code * 64 + (n - 0x80)
      if owed ≤ 1 then (.start, [.char (Char.ofNat code)])
      else (.inside (seen + 1) (owed - 1) code 0x80 0xbf, [])
    else
      let (state, pieces) := first b
      (state, .fault seen .invalidContinuation :: pieces)

/-- All of some bytes in turn. -/
def run : State → List UInt8 → State × List Piece
  | state, [] => (state, [])
  | state, b :: bs =>
    let (next, pieces) := step state b
    let (last, more) := run next bs
    (last, pieces ++ more)

/-- The pieces that the end of the input completes. -/
def finish : State → List Piece
  | .start => []
  | .inside seen _ _ _ _ => [.fault seen .truncated]

/-- Reading two parts in turn is reading the whole. -/
theorem run_append (s : State) (xs ys : List UInt8) :
    run s (xs ++ ys) =
      ((run (run s xs).1 ys).1, (run s xs).2 ++ (run (run s xs).1 ys).2) := by
  induction xs generalizing s with
  | nil => simp [run]
  | cons b bs ih => simp [run, ih, List.append_assoc]

/-- The pieces of a whole input. -/
def pieces (bs : List UInt8) : List Piece :=
  let (state, ps) := run .start bs
  ps ++ finish state

/-- A piece as text, with the replacement character for a fault. -/
def Piece.toChar : Piece → Char
  | .char c => c
  | .fault _ _ => Char.ofNat 0xfffd

/-- Reads bytes leniently. -/
def decodeLenient (bs : List UInt8) : List Char :=
  (pieces bs).map Piece.toChar

/-- The first fault of an input: where it starts, how many bytes it covers, the first of them,
and what is wrong. -/
structure DecodeError where
  position : Nat
  width : Nat
  byte : UInt8
  why : Fault
  deriving DecidableEq, Repr

/-- The wording of a decoding error. -/
def DecodeError.message (e : DecodeError) : String :=
  let place :=
    if e.width = 1 then
      let hex := String.ofList
        ((Nat.toDigits 16 (e.byte.toNat / 16)) ++ (Nat.toDigits 16 (e.byte.toNat % 16)))
      s!"byte 0x{hex} in position {e.position}"
    else s!"bytes in position {e.position}-{e.position + e.width - 1}"
  s!"'utf-8' codec can't decode {place}: {e.why.reason}"

/-- The characters of the pieces, or the place, width and kind of the first fault. -/
def strictFrom (position : Nat) : List Piece → Except (Nat × Nat × Fault) (List Char)
  | [] => .ok []
  | .fault width why :: _ => .error (position, width, why)
  | .char c :: ps =>
    match strictFrom (position + c.utf8Size) ps with
    | .ok cs => .ok (c :: cs)
    | .error e => .error e

/-- Reads bytes strictly. -/
def decode (bs : List UInt8) : Except DecodeError (List Char) :=
  match strictFrom 0 (pieces bs) with
  | .ok cs => .ok cs
  | .error (position, width, why) =>
    .error { position, width, byte := bs.getD position 0, why }

end ScriptTree.Text.Utf8
