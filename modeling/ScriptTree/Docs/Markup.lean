import ScriptTree.Text.Find
import ScriptTree.Text.Point

/-!
Code inside a documentation text: it stands between tags in the files, and between backticks in
what is shown. The first closing tag ends the code; an opening tag that is never closed is text.
-/

namespace ScriptTree.Docs

open Text (cutAt? cutAt?_length)

/-- The tag before code. -/
def openTag : Points := "<c>"

/-- The tag after code. -/
def closeTag : Points := "</c>"

/-- The sign on either side of code that is shown. -/
def codeMark : Point := .char '\x60'

/-- A text with its code between backticks. -/
def shown (text : Points) : Points :=
  match h : cutAt? openTag text with
  | none => text
  | some (before, rest) =>
    match h' : cutAt? closeTag rest with
    | none => text
    | some (code, after) =>
      have : after.length < text.length := by
        have := cutAt?_length (by decide) h
        have := cutAt?_length (by decide) h'
        omega
      before ++ codeMark :: code ++ codeMark :: shown after
termination_by text.length

end ScriptTree.Docs
