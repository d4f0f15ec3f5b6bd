/-
The two streams of a process as their readers hand them on. Each reader takes the bytes in pieces as they
come and hands on a text for each; the reader of the output also hands on what its decoder makes of the end.
So the texts of the output together are what its bytes stand for, however they are cut, and the texts of the
error stream are so only if the bytes do not end in the middle of a character: the replacement for a
character that is cut off there is never handed on (`streams_delivered`).
-/
import ScriptTree.Interpreter.Transport
import ScriptTree.Proofs.Text.Replacement

namespace ScriptTree.Interpreter.Transport

open Text.Utf8 (Denotes EndsInside Piece denotes_iff finish replacement run_append run_ne_start_iff)

/-! ## The texts that are handed on -/

/-- The texts that a decoder makes of some pieces of bytes, one for each, and where it then stands. -/
def textsOf (s : Text.Utf8.State) : List (List UInt8) → List (List Char) × Text.Utf8.State
  | [] => ([], s)
  | piece :: pieces =>
    let (next, chars) := Text.Utf8.run s piece
    let (texts, last) := textsOf next pieces
    (chars.map Piece.toChar :: texts, last)

/-- The texts that the reader of the error stream hands on. -/
def errorTexts (pieces : List (List UInt8)) : List (List Char) :=
  (textsOf .start pieces).1

/-- The texts that the reader of the output hands on: the last one is what the end makes of a character begun. -/
def outputTexts (pieces : List (List UInt8)) : List (List Char) :=
  (textsOf .start pieces).1 ++ [(finish (textsOf .start pieces).2).map Piece.toChar]

/-- Texts of the output arrive one after the other. -/
def feedOutputs (t : Transport) (fs : Futures) : List (List Char) → Transport × Change
  | [] => (t, ⟨fs, []⟩)
  | text :: texts =>
    let (t, first) := t.feedOutput fs text
    let (t, rest) := t.feedOutputs first.futures texts
    (t, { rest with events := first.events ++ rest.events })

/-! ## What the readers do -/

/-- Output text is taken in wherever the decoder stands. -/
theorem feedOutputs_withDecoder (t : Transport) (fs : Futures) (s : Text.Utf8.State) (texts : List (List Char)) :
    ({ t with outDecoder := s }).feedOutputs fs texts =
      ({ (t.feedOutputs fs texts).1 with outDecoder := s }, (t.feedOutputs fs texts).2) := by
  induction texts generalizing t fs with
  | nil => rfl
  | cons text texts ih =>
    have hfirst : ({ t with outDecoder := s }).feedOutput fs text =
        ({ (t.feedOutput fs text).1 with outDecoder := s }, (t.feedOutput fs text).2) := rfl
    simp only [feedOutputs, hfirst, ih]

theorem feedOutputs_append (t : Transport) (fs : Futures) (texts more : List (List Char)) :
    t.feedOutputs fs (texts ++ more) =
      let (t', first) := t.feedOutputs fs texts
      let (t'', rest) := t'.feedOutputs first.futures more
      (t'', { rest with events := first.events ++ rest.events }) := by
  induction texts generalizing t fs with
  | nil => rfl
  | cons text texts ih => simp only [List.cons_append, feedOutputs, ih, List.append_assoc]

theorem receivePieces_eq (t : Transport) (fs : Futures) (pieces : List (List UInt8)) :
    t.receivePieces fs pieces =
      ({ t with outDecoder := (textsOf t.outDecoder pieces).2 }).feedOutputs fs
        (textsOf t.outDecoder pieces).1 := by
  induction pieces generalizing t fs with
  | nil => rfl
  | cons piece pieces ih =>
    have hfirst : t.receiveOutput fs piece =
        let (t', first) := t.feedOutput fs ((Text.Utf8.run t.outDecoder piece).2.map Piece.toChar)
        ({ t' with outDecoder := (Text.Utf8.run t.outDecoder piece).1 }, first) := rfl
    simp only [receivePieces, hfirst, ih, textsOf, feedOutputs_withDecoder, feedOutputs]

theorem feedOutputs_singleton (t : Transport) (fs : Futures) (text : List Char) :
    t.feedOutputs fs [text] = t.feedOutput fs text := by
  simp only [feedOutputs, List.append_nil]

/-- The reader of the output hands on its texts. -/
theorem readOutput_eq (t : Transport) (fs : Futures) (pieces : List (List UInt8)) :
    t.readOutput fs pieces = ({ t with outDecoder := .start }).feedOutputs fs (outputTexts pieces) := by
  -- at the end the decoder goes back to its start, wherever it stands
  have hend : ∀ (t : Transport) (fs : Futures) (s : Text.Utf8.State),
      ({ t with outDecoder := s }).endOutput fs =
        ({ t with outDecoder := .start }).feedOutput fs ((finish s).map Piece.toChar) := fun _ _ _ => rfl
  rw [readOutput, receivePieces_eq, feedOutputs_withDecoder t fs (textsOf .start pieces).2, outputTexts,
    feedOutputs_append, feedOutputs_withDecoder t fs .start]
  simp only [feedOutputs_singleton, hend]

/-- Error texts that arrive one after the other stand together. -/
theorem foldl_feedError (t : Transport) (texts : List (List Char)) :
    texts.foldl feedError t = { t with stderr := t.stderr ++ texts.flatten } := by
  induction texts generalizing t with
  | nil => rw [List.foldl_nil, List.flatten_nil, List.append_nil]
  | cons text texts ih =>
    rw [List.foldl_cons, ih, List.flatten_cons]
    simp only [feedError, List.append_assoc]

theorem foldl_receiveError (t : Transport) (pieces : List (List UInt8)) :
    pieces.foldl receiveError t =
      { t with
        errDecoder := (textsOf t.errDecoder pieces).2
        stderr := t.stderr ++ (textsOf t.errDecoder pieces).1.flatten } := by
  induction pieces generalizing t with
  | nil => rw [List.foldl_nil, textsOf, List.flatten_nil, List.append_nil]
  | cons piece pieces ih =>
    rw [List.foldl_cons, ih]
    simp only [receiveError, feedError, textsOf, List.flatten_cons, List.append_assoc]

/-- The reader of the error stream hands on its texts. -/
theorem drainError_eq (t : Transport) (pieces : List (List UInt8)) :
    t.drainError pieces = (errorTexts pieces).foldl feedError { t with errDecoder := .start } := by
  rw [drainError, foldl_receiveError, foldl_feedError]
  rfl

/-! ## What the texts are together -/

/-- However the bytes are cut, the texts together are what the machine yields for all of them. -/
theorem textsOf_eq (s : Text.Utf8.State) (pieces : List (List UInt8)) :
    (textsOf s pieces).1.flatten = (Text.Utf8.run s pieces.flatten).2.map Piece.toChar ∧
      (textsOf s pieces).2 = (Text.Utf8.run s pieces.flatten).1 := by
  induction pieces generalizing s with
  | nil => exact ⟨rfl, rfl⟩
  | cons piece pieces ih =>
    obtain ⟨htexts, hlast⟩ := ih (Text.Utf8.run s piece).1
    simp only [textsOf, List.flatten_cons, run_append, List.map_append, htexts, hlast, and_self]

/-- What the end of the bytes makes of a character begun is the replacement character. -/
theorem finish_texts (bs : List UInt8) :
    let last := (finish (Text.Utf8.run .start bs).1).map Piece.toChar
    last = [] ∧ ¬ EndsInside bs ∨ last = [replacement] ∧ EndsInside bs := by
  have hinside := run_ne_start_iff bs
  cases hs : (Text.Utf8.run .start bs).1 with
  | start =>
    rw [hs] at hinside
    exact .inl ⟨rfl, fun h => hinside.2 h rfl⟩
  | inside seen owed code least greatest =>
    rw [hs] at hinside
    exact .inr ⟨rfl, hinside.1 nofun⟩

theorem outputTexts_denotes (pieces : List (List UInt8)) : Denotes pieces.flatten (outputTexts pieces).flatten := by
  obtain ⟨htexts, hlast⟩ := textsOf_eq .start pieces
  refine denotes_iff.2 ?_
  rw [outputTexts, List.flatten_append, htexts, hlast, List.flatten_singleton, ← List.map_append]
  rfl

/-- What the error stream stands for are the texts that are handed on and what the end makes of a character
begun, which is not. -/
theorem errorTexts_denotes (pieces : List (List UInt8)) :
    ∃ lost, Denotes pieces.flatten ((errorTexts pieces).flatten ++ lost) ∧
      (lost = [] ∧ ¬ EndsInside pieces.flatten ∨ lost = [replacement] ∧ EndsInside pieces.flatten) := by
  obtain ⟨htexts, -⟩ := textsOf_eq .start pieces
  refine ⟨_, denotes_iff.2 ?_, finish_texts pieces.flatten⟩
  rw [errorTexts, htexts, ← List.map_append]
  rfl

end ScriptTree.Interpreter.Transport
