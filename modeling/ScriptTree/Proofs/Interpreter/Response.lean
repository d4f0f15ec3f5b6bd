/-
The text of a response. It does not depend on the line break that was printed after the response before it,
and there is no white space at its ends. The escapes of a terminal and the returns of line ends are taken out
in one pass each, so a text can come out with an escape in which others stood, or with one of two returns:
exactly these texts change when they are cleaned again (`normalized_cleaned`).
-/
import ScriptTree.Interpreter.Response
import ScriptTree.Proofs.Text.Terminal

namespace ScriptTree.Interpreter

open Text

/-! ## Line breaks between responses -/

/-- The two line breaks. -/
inductive LineEnd where
  | lineFeed
  | returnLineFeed
  deriving DecidableEq, Repr

/-- The characters of a line break. -/
def LineEnd.text : LineEnd → List Char
  | .lineFeed => ['\n']
  | .returnLineFeed => ['\r', '\n']

theorem normalize_nil : normalize [] = [] := rfl

theorem normalize_lineEnd (e : LineEnd) (cs : List Char) : normalize (e.text ++ cs) = normalize cs := by
  have blank : isBlank '\n' = true := by decide
  cases e with
  | lineFeed =>
    show trim (joinLineEnds (dropEscapes ('\n' :: cs))) = _
    rw [dropEscapes_cons (by decide), joinLineEnds_lineFeed, trim_cons blank, normalize]
  | returnLineFeed =>
    show trim (joinLineEnds (dropEscapes ('\r' :: '\n' :: cs))) = _
    rw [dropEscapes_cons (by decide), dropEscapes_cons (by decide), joinLineEnds, trim_cons blank,
      normalize]

/-! ## What cleaning leaves -/

/-- Escapes hold no line breaks and no white space, so what is done after they are dropped keeps each one. -/
theorem hasEscape_normalize_iff {cs : List Char} : HasEscape (normalize cs) ↔ HasEscape (dropEscapes cs) := by
  refine exists_congr fun e => and_congr_right fun he => ?_
  refine Iff.trans ?_ (infix_joinLineEnds_iff he.return_not_mem he.lineFeed_not_mem)
  obtain ⟨params, letter, rfl, -, hletter⟩ := he
  have hescape : isBlank '\x1b' = false := by decide
  rw [← List.cons_append]
  exact infix_trim_iff hescape (isBlank_of_isAlpha hletter)

theorem normalize_eq (cs : List Char) : normalize cs = joinLineEnds (trim (dropEscapes cs)) :=
  trim_joinLineEnds _

/-- A trimmed text stays as it is if nothing is to be taken out of it. -/
theorem normalize_eq_self_iff {cs : List Char} (htrim : trim cs = cs) :
    normalize cs = cs ↔ ¬ HasEscape cs ∧ ¬ ['\r', '\n'] <:+: cs := by
  rw [← dropEscapes_eq_self_iff, ← joinLineEnds_eq_self_iff]
  constructor
  · intro h
    -- each step takes something out, so none does if all of it is there in the end
    have hdrop : dropEscapes cs = cs := by
      refine (dropEscapes_sublist cs).antisymm ?_
      have hrest : (normalize cs).Sublist (dropEscapes cs) :=
        (trim_part _).sublist.trans (joinLineEnds_sublist _)
      rwa [h] at hrest
    refine ⟨hdrop, ?_⟩
    rwa [normalize_eq, hdrop, htrim] at h
  · rintro ⟨hdrop, hjoin⟩
    rw [normalize, hdrop, hjoin, htrim]

/-- How clean the text of a response is. -/
structure Cleaned (s : String) : Prop where
  /-- It neither begins nor ends with white space. -/
  first : ∀ c, (normalized s).toList.head? = some c → isBlank c = false
  last : ∀ c, (normalized s).toList.getLast? = some c → isBlank c = false
  /-- It has an escape exactly where the text had one with whole escapes between its characters. -/
  escape : HasEscape (normalized s).toList ↔ HasInterruptedEscape s.toList
  /-- It has a return before a line feed exactly where the text had two, when the escapes were out. -/
  lineEnd : ['\r', '\n'] <:+: (normalized s).toList ↔ ['\r', '\r', '\n'] <:+: trim (dropEscapes s.toList)
  /-- It stays the same when it is cleaned again, but for these two. -/
  again : normalized (normalized s) = normalized s ↔
    ¬ HasInterruptedEscape s.toList ∧ ¬ ['\r', '\r', '\n'] <:+: trim (dropEscapes s.toList)

theorem normalized_cleaned (s : String) : Cleaned s := by
  have htext : (normalized s).toList = normalize s.toList := String.toList_ofList
  have hescape : HasEscape (normalize s.toList) ↔ HasInterruptedEscape s.toList :=
    hasEscape_normalize_iff.trans hasEscape_dropEscapes_iff
  have hlineEnd : ['\r', '\n'] <:+: normalize s.toList ↔
      ['\r', '\r', '\n'] <:+: trim (dropEscapes s.toList) := by
    rw [normalize_eq]
    exact returnLineFeed_joinLineEnds_iff
  refine
    { first := fun c hc => head?_trim (htext ▸ hc), last := fun c hc => getLast?_trim (htext ▸ hc)
      escape := by rw [htext]; exact hescape, lineEnd := by rw [htext]; exact hlineEnd, again := ?_ }
  have hagain : (normalized (normalized s)).toList = normalize (normalize s.toList) := by
    rw [normalized, String.toList_ofList, htext]
  have htrim : trim (normalize s.toList) = normalize s.toList := trim_trim _
  rw [← hescape, ← hlineEnd, ← normalize_eq_self_iff htrim, ← String.toList_inj, hagain, htext]

/-- An escape is left of one in which another stood, and a return of two before one line feed; cleaned
again, both texts lose them. -/
theorem not_cleaned_interrupted :
    HasEscape (normalized "\x1b\x1b[0m[31mx").toList ∧
      normalized (normalized "\x1b\x1b[0m[31mx") ≠ normalized "\x1b\x1b[0m[31mx" ∧
      ['\r', '\n'] <:+: (normalized "a\r\r\nb").toList ∧
      normalized (normalized "a\r\r\nb") ≠ normalized "a\r\r\nb" := by
  have hescape : normalized "\x1b\x1b[0m[31mx" = "\x1b[31mx" := by cbv
  have hescape' : normalized "\x1b[31mx" = "x" := by cbv
  have hreturn : normalized "a\r\r\nb" = "a\r\nb" := by cbv
  have hreturn' : normalized "a\r\nb" = "a\nb" := by cbv
  have hparams : ∀ c ∈ ['3', '1'], isEscapeParameter c = true := by simp [isEscapeParameter, Char.isDigit]
  have hcolour : IsEscape ['\x1b', '[', '3', '1', 'm'] := ⟨['3', '1'], 'm', rfl, hparams, by decide⟩
  rw [hescape, hescape', hreturn, hreturn']
  exact ⟨⟨_, hcolour, [], ['x'], by decide⟩, by decide, ⟨['a'], ['b'], by decide⟩, by decide⟩

end ScriptTree.Interpreter
