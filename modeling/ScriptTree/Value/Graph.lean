import ScriptTree.Value.Slots

/-!
A value with parts. A document may name a part and use it in several places, even inside itself, so
the parts lie in one store and refer to each other by place. The text of a value stands a mark in
for a part inside itself.
-/

namespace ScriptTree

/-- A part of a value. The fields of a record keep their order, and no two keys are the same. -/
inductive Part where
  | scalar (s : Scalar)
  | list (items : List Nat)
  | pair (first second : Nat)
  | set (items : List Nat)
  | record (fields : List (Nat × Nat))
  deriving Repr, Inhabited

/-- The parts of a value and the place of the outermost one. -/
structure ValueGraph where
  parts : Array Part
  root : Nat
  deriving Repr

namespace ValueGraph

/-- The part at a place. -/
def part (g : ValueGraph) (place : Nat) : Part :=
  (g.parts[place]?).getD (.scalar .null)

/-- The name of a part's type. -/
def typeName (g : ValueGraph) (place : Nat) : String :=
  match g.part place with
  | .scalar s => s.typeName
  | .list _ => "list"
  | .pair _ _ => "tuple"
  | .set _ => "set"
  | .record _ => "dict"

/-- Parts that count as absent: nothing, false, zero, and all that is empty. -/
def isBlank (g : ValueGraph) (place : Nat) : Bool :=
  match g.part place with
  | .scalar s => s.isBlank
  | .list items => items.isEmpty
  | .pair _ _ => false
  | .set items => items.isEmpty
  | .record fields => fields.isEmpty

/-- The place of the value of a record's field with the given text as key. -/
def field? (g : ValueGraph) (name : Points) : List (Nat × Nat) → Option Nat
  | [] => none
  | (key, v) :: rest =>
    match g.part key with
    | .scalar (.text s) => if s = name then some v else g.field? name rest
    | _ => g.field? name rest

/-- Texts with commas between them, inside brackets. -/
def bracketed (opening closing : String) (texts : List String) : String :=
  opening ++ ", ".intercalate texts ++ closing

/-- The text of a part inside others, down to a depth that no document reaches; `outer` are the parts
around it. There is none if a number in it has too many digits. As in reading, no guard against deep nesting
is set. -/
def quotedIn? (g : ValueGraph) : Nat → List Nat → Nat → Option String
  | 0, _, _ => some "..."
  | depth + 1, outer, place =>
    let inner := quotedIn? g depth (place :: outer)
    match g.part place with
    | .scalar s => if s.isWritable then some s.quoted else none
    | .list items =>
      if outer.contains place then some "[...]"
      else (items.mapM inner).map (bracketed "[" "]")
    | .pair first second => ([first, second].mapM inner).map (bracketed "(" ")")
    | .set items =>
      if items.isEmpty then some "set()" else (items.mapM inner).map (bracketed "\x7b" "\x7d")
    | .record fields =>
      if outer.contains place then some "\x7b...\x7d"
      else
        (fields.mapM fun (key, v) => do
          let key ← inner key
          let v ← inner v
          pure (key ++ ": " ++ v)).map (bracketed "\x7b" "\x7d")

/-- The text of a part on its own. There is none if a number in it has too many digits. -/
def text? (g : ValueGraph) (place : Nat) : Option Points :=
  match g.part place with
  | .scalar s => if s.isWritable then some s.display else none
  | _ => (g.quotedIn? (g.parts.size + 1) [] place).map Points.ofString

/-- Whether two parts are the same key of a record: one part, or two scalars that are the same. -/
def sameKey (g : ValueGraph) (a b : Nat) : Bool :=
  a == b ||
    match g.part a, g.part b with
    | .scalar s, .scalar t => Scalar.same s t
    | _, _ => false

end ValueGraph
end ScriptTree
