/-
The line that has PowerShell parse a source. Reading its arguments back by the rule for quotes gives
the path of the script and the encoded source (`readCommand?_line`), so the line carries every source
as it is. A quote can stand in the path only, and written twice; hence the line has no other line break
than the path has, and a mark without quotes occurs in it only where it occurs in the path. The mark
that ends a response is not in the statement that prints it either: no command brings it into the
line unless it holds it itself.
-/
import ScriptTree.Analysis.Command
import ScriptTree.Interpreter.Profile
import ScriptTree.Proofs.Text.Base64
import ScriptTree.Proofs.Text.Part
import ScriptTree.Proofs.Text.Utf8

namespace ScriptTree

namespace Analysis

/-! ## Where a mark can occur -/

theorem doubleQuotes_quote (cs : List Char) : doubleQuotes ('\'' :: cs) = '\'' :: '\'' :: doubleQuotes cs := rfl

theorem doubleQuotes_cons {c : Char} (hc : c ≠ '\'') (cs : List Char) :
    doubleQuotes (c :: cs) = c :: doubleQuotes cs := by
  unfold doubleQuotes
  rw [List.flatMap_cons, if_neg hc]
  rfl

/-- Writing quotes twice brings no mark without quotes about, even behind other text. -/
theorem infix_of_doubleQuotes {mark : List Char} (hquote : '\'' ∉ mark) (before : List Char)
    {cs : List Char} (h : mark <:+: before ++ doubleQuotes cs) : mark <:+: before ++ cs := by
  induction cs generalizing before with
  | nil => exact h
  | cons c cs ih =>
    by_cases hc : c = '\''
    · subst hc
      rw [doubleQuotes_quote] at h
      rcases Text.infix_of_not_mem hquote _ h with hleft | hright
      · exact hleft.trans (List.prefix_append _ _).isInfix
      · rcases Text.infix_of_not_mem hquote [] hright with hnil | hright
        · rw [List.infix_nil.1 hnil]
          exact List.nil_infix
        · exact (ih [] hright).trans
            ((List.suffix_cons _ _).isInfix.trans (List.suffix_append _ _).isInfix)
    · rw [doubleQuotes_cons hc, ← List.singleton_append, ← List.append_assoc] at h
      have := ih _ h
      rwa [List.append_assoc, List.singleton_append] at this

open Interpreter (Profile)

/-! ## Reading the arguments of a line -/

/-- The text up to the quote that ends it, and what follows that; a quote written twice stands for
one. -/
def readQuotedRest : List Char → Option (List Char × List Char)
  | [] => none
  | '\'' :: '\'' :: cs => (readQuotedRest cs).map fun (text, rest) => ('\'' :: text, rest)
  | '\'' :: cs => some ([], cs)
  | c :: cs => (readQuotedRest cs).map fun (text, rest) => (c :: text, rest)

/-- A text between single quotes, and what follows it. -/
def readQuoted : List Char → Option (List Char × List Char)
  | '\'' :: cs => readQuotedRest cs
  | _ => none

/-- What follows a word at the beginning of a text. -/
def afterWord? (word cs : List Char) : Option (List Char) :=
  if word.isPrefixOf cs then some (cs.drop word.length) else none

/-- The word that calls a script. -/
def callWord : List Char := ['&', ' ']

/-- The name of the argument that carries a source. -/
def contentWord : List Char := " -Base64Content ".toList

/-- The script that a line calls, the argument that carries the source, and what follows them. -/
def readCommand? (line : List Char) : Option (List Char × List Char × List Char) := do
  let line ← afterWord? callWord line
  let (script, line) ← readQuoted line
  let line ← afterWord? contentWord line
  let (content, line) ← readQuoted line
  pure (script, content, line)

/-- The source that a line carries. -/
def carriedSource? (line : String) : Option String := do
  let (_, content, _) ← readCommand? line.toList
  let bytes ← Text.Base64.decode? content
  let text ← (Text.Utf8.decode bytes).toOption
  pure (String.ofList text)

theorem afterWord?_append (word cs : List Char) : afterWord? word (word ++ cs) = some cs := by
  unfold afterWord?
  rw [if_pos (List.isPrefixOf_iff_prefix.2 (List.prefix_append _ _)), List.drop_left]

/-- A text that was put between quotes is read as it is, unless another quote follows. -/
theorem readQuotedRest_doubleQuotes (cs : List Char) {rest : List Char} (hrest : rest.head? ≠ some '\'') :
    readQuotedRest (doubleQuotes cs ++ '\'' :: rest) = some (cs, rest) := by
  induction cs with
  | nil =>
    show readQuotedRest ('\'' :: rest) = _
    unfold readQuotedRest
    split
    · rename_i heq
      cases heq
    · rename_i heq
      cases heq
      exact absurd rfl hrest
    · rename_i heq
      cases heq
      rfl
    · rename_i hquote heq
      cases heq
      exact absurd rfl hquote
  | cons c cs ih =>
    by_cases hc : c = '\''
    · subst hc
      show readQuotedRest ('\'' :: '\'' :: (doubleQuotes cs ++ '\'' :: rest)) = _
      rw [readQuotedRest, ih]
      rfl
    · rw [doubleQuotes_cons hc, List.cons_append, readQuotedRest, ih]
      · rfl
      · rintro ds rfl
        exact absurd rfl hc
      · exact hc

theorem singleQuoted_toList (s : String) : (singleQuoted s).toList = '\'' :: doubleQuotes s.toList ++ ['\''] :=
  String.toList_ofList

theorem readQuoted_singleQuoted (s : String) (rest : List Char) (hrest : rest.head? ≠ some '\'') :
    readQuoted ((singleQuoted s).toList ++ rest) = some (s.toList, rest) := by
  rw [singleQuoted_toList, List.cons_append, List.cons_append, List.append_assoc]
  exact readQuotedRest_doubleQuotes s.toList hrest

/-! ## The line as a whole -/

/-- What is written for a source between the quotes. -/
theorem encodeSource_toList (source : String) :
    (encodeSource source).toList = Text.Base64.encode (Text.Utf8.encode source.toList) :=
  String.toList_ofList

/-- No character but those of Base64 stands for a source. -/
theorem not_mem_encodeSource {c : Char} (hc : c ∉ Text.Base64.alphabet) (source : String) :
    c ∉ (encodeSource source).toList := by
  rw [encodeSource_toList]
  exact fun hin => hc (Text.Base64.mem_alphabet_of_mem_encode hin)

/-- An encoded source is its own text between quotes: there is no quote in it to be written twice. -/
theorem singleQuoted_encodeSource (source : String) :
    (singleQuoted (encodeSource source)).toList = '\'' :: (encodeSource source).toList ++ ['\''] := by
  have hsame : ∀ cs : List Char, '\'' ∉ cs → doubleQuotes cs = cs := by
    intro cs hcs
    induction cs with
    | nil => rfl
    | cons c cs ih =>
      rw [List.mem_cons, not_or] at hcs
      rw [doubleQuotes_cons (Ne.symm hcs.1), ih hcs.2]
  rw [singleQuoted_toList, hsame _ (not_mem_encodeSource (by decide) source)]

theorem parseCommand_toList (script source : String) :
    (parseCommand script source).toList =
      callWord ++ ((singleQuoted script).toList ++
        (contentWord ++ (singleQuoted (encodeSource source)).toList)) := by
  have hcall : "& ".toList = callWord := by decide
  have hopen : " -Base64Content '".toList = contentWord ++ ['\''] := by decide
  have hclose : "'".toList = ['\''] := by decide
  rw [singleQuoted_encodeSource]
  simp only [parseCommand, String.toList_append, toString, hcall, hopen, hclose, List.append_assoc,
    List.cons_append, List.nil_append]

/-- The arguments of a line are the path and the encoded source that it was made of. -/
theorem readCommand?_line (script source : String) (rest : List Char) (hrest : rest.head? ≠ some '\'') :
    readCommand? ((parseCommand script source).toList ++ rest) =
      some (script.toList, (encodeSource source).toList, rest) := by
  have hspace : contentWord.head? = some ' ' := by decide
  have hscript := readQuoted_singleQuoted script
    (contentWord ++ ((singleQuoted (encodeSource source)).toList ++ rest))
    (by rw [List.head?_append, hspace, Option.some_or]; decide)
  rw [parseCommand_toList]
  simp only [List.append_assoc, readCommand?, afterWord?_append, hscript, readQuoted_singleQuoted _ rest hrest,
    Option.bind_eq_bind, Option.bind_some, Option.pure_def]

theorem carriedSource?_line (script source line : String) (rest : List Char)
    (hline : line.toList = (parseCommand script source).toList ++ rest) (hrest : rest.head? ≠ some '\'') :
    carriedSource? line = some source := by
  unfold carriedSource?
  rw [hline, readCommand?_line script source rest hrest, encodeSource_toList]
  simp only [Option.bind_eq_bind, Option.bind_some, Text.Base64.decode?_encode, Text.Utf8.decode_encode,
    Except.toOption, String.ofList_toList, Option.pure_def]

/-- Both parts of a command can be read off it. -/
theorem parseCommand_injective {script source script' source' : String}
    (h : parseCommand script' source' = parseCommand script source) : script' = script ∧ source' = source := by
  have hread := readCommand?_line script source [] (by simp)
  have hsource := carriedSource?_line script source _ [] (List.append_nil _).symm (by simp)
  rw [← h, readCommand?_line script' source' [] (by simp)] at hread
  rw [← h, carriedSource?_line script' source' _ [] (List.append_nil _).symm (by simp)] at hsource
  exact ⟨String.toList_inj.1 (congrArg Prod.fst (Option.some.inj hread)), Option.some.inj hsource⟩

/-! ## Line breaks and marks -/

theorem mem_of_mem_doubleQuotes {c : Char} {cs : List Char} (h : c ∈ doubleQuotes cs) : c ∈ cs := by
  obtain ⟨d, hd, hc⟩ := List.mem_flatMap.1 h
  by_cases hquote : d = '\''
  · rw [if_pos hquote] at hc
    simp only [List.mem_cons, List.not_mem_nil, or_false, or_self] at hc
    rwa [hc, ← hquote]
  · rw [if_neg hquote, List.mem_singleton] at hc
    rwa [hc]

/-- A line feed in a command is one of the path's. -/
theorem lineFeed_of_mem_parseCommand {script source : String}
    (h : '\n' ∈ (parseCommand script source).toList) : '\n' ∈ script.toList := by
  have hencoded := not_mem_encodeSource (c := '\n') (by decide) source
  rw [parseCommand_toList, singleQuoted_encodeSource, singleQuoted_toList] at h
  have hcall : '\n' ∉ callWord := by decide
  have hcontent : '\n' ∉ contentWord := by decide
  simp only [List.mem_append, List.mem_cons, List.not_mem_nil, hcall, hcontent, hencoded, or_false, false_or,
    Char.reduceEq] at h
  exact mem_of_mem_doubleQuotes h

/-- A mark that holds a character which is not one of Base64's occurs in a command only where the path
holds it, if it holds no quote and is in none of the command's own words. -/
theorem infix_of_parseCommand {mark : List Char} (hquote : '\'' ∉ mark) {c : Char} (hc : c ∈ mark)
    (houtside : c ∉ Text.Base64.alphabet) (hcall : ¬ mark <:+: callWord) (hcontent : ¬ mark <:+: contentWord)
    {script source : String} (h : mark <:+: (parseCommand script source).toList) :
    mark <:+: script.toList := by
  have hnil : ¬ mark <:+: [] := by
    rw [List.infix_nil]
    rintro rfl
    cases hc
  have hencoded : ¬ mark <:+: (encodeSource source).toList :=
    fun hin => not_mem_encodeSource houtside source (hin.subset hc)
  rw [parseCommand_toList, singleQuoted_encodeSource, singleQuoted_toList] at h
  simp only [List.append_assoc, List.cons_append, List.nil_append] at h
  -- one step for each quote that opens or ends a text
  rcases Text.infix_of_not_mem hquote _ h with h | h
  · exact absurd h hcall
  · rcases Text.infix_of_not_mem hquote _ h with h | h
    · exact infix_of_doubleQuotes hquote [] h
    · rcases Text.infix_of_not_mem hquote _ h with h | h
      · exact absurd h hcontent
      · rcases Text.infix_of_not_mem hquote _ h with h | h
        · exact absurd h hencoded
        · exact absurd h hnil

/-- The statement that prints the mark does not hold it, and nothing behind a command that does not hold
it either completes it. -/
theorem infix_of_wrap {p : Profile} {suffix : List Char} (hsuffix : p.suffix.toList = ';' :: suffix)
    (hmark : ';' ∉ p.sentinel.toList) (hapart : ¬ p.sentinel.toList <:+: suffix ++ ['\n']) {command : String}
    (h : p.sentinel.toList <:+: (p.wrap command).toList) : p.sentinel.toList <:+: command.toList := by
  have hbreak : "\n".toList = ['\n'] := by decide
  have hwrap : (p.wrap command).toList = command.toList ++ ';' :: (suffix ++ ['\n']) := by
    simp only [Profile.wrap, String.toList_append, hsuffix, hbreak, List.append_assoc, List.cons_append]
  rw [hwrap] at h
  rcases Text.infix_of_not_mem hmark _ h with h | h
  · exact h
  · exact absurd h hapart

/-- The suffix of PowerShell after its semicolon. -/
def powershellSuffix : List Char := " Write-Output ('__SHOWAST_END_' + 'OF_COMMAND__')".toList

/-- The suffix of the shell after its semicolon. -/
def shSuffix : List Char := " printf '%s%s\\n' '__SHOWAST_END_' 'OF_COMMAND__'".toList

theorem powershell_suffix (windows : Bool) (executable : String) :
    (Profile.powershell windows executable).suffix.toList = ';' :: powershellSuffix := by
  show "; Write-Output ('__SHOWAST_END_' + 'OF_COMMAND__')".toList = ';' :: powershellSuffix
  decide

theorem sh_suffix : Profile.sh.suffix.toList = ';' :: shSuffix := by decide

theorem infix_of_wrap_powershell {windows : Bool} {executable command : String}
    (h : Profile.endOfCommand.toList <:+: ((Profile.powershell windows executable).wrap command).toList) :
    Profile.endOfCommand.toList <:+: command.toList :=
  have hmark : ';' ∉ Profile.endOfCommand.toList := by decide
  have hapart : ¬ Profile.endOfCommand.toList <:+: powershellSuffix ++ ['\n'] := by decide
  infix_of_wrap (powershell_suffix windows executable) hmark hapart h

theorem infix_of_wrap_sh {command : String}
    (h : Profile.endOfCommand.toList <:+: (Profile.sh.wrap command).toList) :
    Profile.endOfCommand.toList <:+: command.toList :=
  infix_of_wrap sh_suffix (by decide) (by decide) h

/-! ## What the line promises -/

/-- A line that has the interpreter of a profile run the script on the source. -/
def parseLine (p : Profile) (script source : String) : String :=
  p.wrap (parseCommand script source)

/-- The line carries the source safely. -/
structure Carries (p : Profile) (script source : String) : Prop where
  /-- The argument of the line decodes to the source. -/
  decoded : carriedSource? (parseLine p script source) = some source
  /-- Another source, or another path, gives another command and another line. -/
  unique : ∀ script' source', parseCommand script' source' = parseCommand script source ∨
    parseLine p script' source' = parseLine p script source → script' = script ∧ source' = source
  /-- The only line feed is at the end, unless the path has one. -/
  oneLine : '\n' ∉ script.toList → ∃ before, (parseLine p script source).toList = before ++ ['\n'] ∧
    '\n' ∉ before
  /-- The mark that ends a response is not in the line, unless it is in the path. -/
  unmarked : ¬ p.sentinel.toList <:+: script.toList → ¬ p.sentinel.toList <:+: (parseLine p script source).toList

theorem wrap_toList (p : Profile) (command : String) :
    (p.wrap command).toList = command.toList ++ (p.suffix.toList ++ ['\n']) := by
  have hbreak : "\n".toList = ['\n'] := by decide
  simp only [Profile.wrap, String.toList_append, hbreak, List.append_assoc]

theorem powershell_carries (windows : Bool) (executable script source : String) :
    Carries (.powershell windows executable) script source where
  decoded := by
    refine carriedSource?_line script source _ _ (wrap_toList _ _) ?_
    rw [powershell_suffix]
    decide
  unique script' source' h := by
    rcases h with h | h
    · exact parseCommand_injective h
    · have hlists := congrArg String.toList h
      unfold parseLine at hlists
      rw [wrap_toList, wrap_toList, List.append_cancel_right_eq] at hlists
      exact parseCommand_injective (String.toList_inj.1 hlists)
  oneLine hscript := by
    refine ⟨(parseCommand script source).toList ++ ';' :: powershellSuffix, ?_, ?_⟩
    · unfold parseLine
      rw [wrap_toList, powershell_suffix, List.append_assoc]
    · have hsuffix : '\n' ∉ ';' :: powershellSuffix := by decide
      rw [List.mem_append, not_or]
      exact ⟨fun hin => hscript (lineFeed_of_mem_parseCommand hin), hsuffix⟩
  unmarked hscript hin := by
    have hquote : '\'' ∉ Profile.endOfCommand.toList := by decide
    have hin : Profile.endOfCommand.toList <:+: (parseCommand script source).toList :=
      infix_of_wrap_powershell hin
    exact hscript (infix_of_parseCommand (c := '_') hquote (by decide) (by decide) (by decide) (by decide) hin)

end Analysis
end ScriptTree
