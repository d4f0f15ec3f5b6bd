import ScriptTree.Text.Quoted

/-!
Writing a text that may hold half of a surrogate pair alone. Where such a text cannot be written it is
refused at the first half, and where it is shown nevertheless an escape stands for each half.
-/

namespace ScriptTree

/-- Halves of surrogate pairs that follow each other in a text, at a position counted in points. -/
structure EncodeFault where
  position : Nat
  first : Fin 2048
  count : Nat
  deriving DecidableEq, Repr

namespace EncodeFault

/-- The kind of error that a fault is. -/
def kind : String := "UnicodeEncodeError"

/-- The wording of a fault. -/
def message (f : EncodeFault) : String :=
  let what :=
    if f.count = 1 then
      s!"character '{String.ofList (Text.codeEscape (Point.half f.first).code)}' in position {f.position}"
    else s!"characters in position {f.position}-{f.position + f.count - 1}"
  s!"'utf-8' codec can't encode {what}: surrogates not allowed"

end EncodeFault

namespace Points

/-- What keeps a text from being written, if anything does. -/
def encodeFault? (ps : Points) : Option EncodeFault :=
  match ps.dropWhile Point.isChar with
  | .half n :: rest =>
    some
      { position := (ps.takeWhile Point.isChar).length
        first := n
        count := (rest.takeWhile fun p => !p.isChar).length + 1 }
  | _ => none

/-- A text with an escape for each half. -/
def escaped (ps : Points) : String :=
  String.ofList (ps.flatMap fun
    | .char c => [c]
    | .half n => Text.codeEscape (Point.half n).code)

end Points
end ScriptTree
