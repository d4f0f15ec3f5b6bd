/-
How PowerShell reads the line that calls the parser script. It opens and closes a literal with any of five
characters, the apostrophe and four quotation marks of type-setting, and of two of them in a row inside a
literal it reads the second. The path of the script is written with its apostrophes twice, so the line gives
back every path without the other four. It gives back no path with one of them
(`readCall?_parseCommand_iff`): a literal uses up one character for each of its text and one more for each
quote in it, which is more than was written for such a path, and no other quote of the line ends a literal
that arguments follow.
-/
import ScriptTree.Proofs.Analysis.Command

namespace ScriptTree.Analysis

/-! ## Reading a call -/

/-- The quotation marks that PowerShell takes for an apostrophe. -/
def typographicQuotes : List Char := ['\u2018', '\u2019', '\u201a', '\u201b']

/-- The characters that open and close a literal. -/
def literalQuotes : List Char := '\'' :: typographicQuotes

/-- Reads a literal behind the quote that opens it: its text, and what follows the quote that closes it. Of
two quotes in a row the second is read; all else is read as it is. -/
def readLiteralRest? : List Char → Option (List Char × List Char)
  | [] => none
  | [c] => if c ∈ literalQuotes then some ([], []) else none
  | c :: d :: cs =>
    if c ∈ literalQuotes then
      if d ∈ literalQuotes then (readLiteralRest? cs).map fun (text, rest) => (d :: text, rest)
      else some ([], d :: cs)
    else (readLiteralRest? (d :: cs)).map fun (text, rest) => (c :: text, rest)

/-- Reads a literal. -/
def readLiteral? : List Char → Option (List Char × List Char)
  | [] => none
  | c :: cs => if c ∈ literalQuotes then readLiteralRest? cs else none

/-- An argument of a call: the name of a parameter, with its dash, or a literal. -/
inductive Argument where
  | parameter (name : List Char)
  | literal (text : List Char)
  deriving DecidableEq, Repr

/-- Reads an argument. -/
def readArgument? : List Char → Option (Argument × List Char)
  | [] => none
  | c :: cs =>
    if c = '-' then some (.parameter (c :: cs.takeWhile Char.isAlphanum), cs.dropWhile Char.isAlphanum)
    else (readLiteral? (c :: cs)).map fun (text, rest) => (.literal text, rest)

section

variable {c d : Char} {cs text rest : List Char}

theorem readLiteralRest?_pair (hc : c ∈ literalQuotes) (hd : d ∈ literalQuotes) (cs : List Char) :
    readLiteralRest? (c :: d :: cs) = (readLiteralRest? cs).map fun (text, rest) => (d :: text, rest) := by
  rw [readLiteralRest?, if_pos hc, if_pos hd]

theorem readLiteralRest?_close (hc : c ∈ literalQuotes) (hrest : ∀ d ∈ rest.head?, d ∉ literalQuotes) :
    readLiteralRest? (c :: rest) = some ([], rest) := by
  cases rest with
  | nil => rw [readLiteralRest?, if_pos hc]
  | cons d ds => rw [readLiteralRest?, if_pos hc, if_neg (hrest d rfl)]

theorem readLiteralRest?_char (hc : c ∉ literalQuotes) (cs : List Char) :
    readLiteralRest? (c :: cs) = (readLiteralRest? cs).map fun (text, rest) => (c :: text, rest) := by
  cases cs with
  | nil =>
    unfold readLiteralRest?
    rw [if_neg hc]
    rfl
  | cons d ds => rw [readLiteralRest?, if_neg hc]

/-- What a literal uses up: one character for each of its text, one more for each quote in it, and the quote
that closes it. -/
theorem readLiteralRest?_eq_some (h : readLiteralRest? cs = some (text, rest)) :
    ∃ before, ∃ c ∈ literalQuotes, cs = before ++ c :: rest ∧
      before.length = text.length + text.countP (· ∈ literalQuotes) := by
  fun_induction readLiteralRest? cs generalizing text rest with
  | case1 => cases h
  | case2 c hc =>
    cases h
    exact ⟨[], c, hc, rfl, rfl⟩
  | case3 c hc => cases h
  | case4 c d cs hc hd ih =>
    obtain ⟨⟨inner, rest⟩, hinner, heq⟩ := Option.map_eq_some_iff.1 h
    cases heq
    obtain ⟨before, q, hq, rfl, hlength⟩ := ih hinner
    refine ⟨c :: d :: before, q, hq, rfl, ?_⟩
    have hcount : (d :: inner).countP (· ∈ literalQuotes) = inner.countP (· ∈ literalQuotes) + 1 :=
      List.countP_cons_of_pos (decide_eq_true hd)
    rw [hcount, List.length_cons, List.length_cons, List.length_cons, hlength]
    omega
  | case5 c d cs hc hd =>
    cases h
    exact ⟨[], c, hc, rfl, rfl⟩
  | case6 c d cs hc ih =>
    obtain ⟨⟨inner, rest⟩, hinner, heq⟩ := Option.map_eq_some_iff.1 h
    cases heq
    obtain ⟨before, q, hq, heq, hlength⟩ := ih hinner
    refine ⟨c :: before, q, hq, by rw [heq, List.cons_append], ?_⟩
    have hcount : (c :: inner).countP (· ∈ literalQuotes) = inner.countP (· ∈ literalQuotes) :=
      List.countP_cons_of_neg (by simpa using hc)
    rw [hcount, List.length_cons, List.length_cons, hlength]
    omega

theorem readLiteral?_cons (hc : c ∈ literalQuotes) (cs : List Char) :
    readLiteral? (c :: cs) = readLiteralRest? cs := if_pos hc

theorem readLiteral?_length (h : readLiteral? cs = some (text, rest)) : rest.length < cs.length := by
  cases cs with
  | nil => cases h
  | cons c cs =>
    obtain ⟨-, hrest⟩ := Option.ite_none_right_eq_some.1 h
    obtain ⟨before, q, -, rfl, -⟩ := readLiteralRest?_eq_some hrest
    simp only [List.length_cons, List.length_append]
    omega

theorem readArgument?_length {a : Argument} (h : readArgument? cs = some (a, rest)) :
    rest.length < cs.length := by
  cases cs with
  | nil => cases h
  | cons c cs =>
    rw [readArgument?] at h
    split at h
    · cases h
      exact Nat.lt_succ_of_le (List.dropWhile_suffix _).length_le
    · obtain ⟨⟨text, rest⟩, hread, heq⟩ := Option.map_eq_some_iff.1 h
      cases heq
      exact readLiteral?_length hread

end

/-- Reads the arguments of a call up to its end, each behind a space. -/
def readArguments? : List Char → Option (List Argument)
  | [] => some []
  | c :: cs =>
    if c = ' ' then
      match h : readArgument? cs with
      | none => none
      | some (a, rest) =>
        have : rest.length < cs.length := readArgument?_length h
        (readArguments? rest).map (a :: ·)
    else none
termination_by cs => cs.length
decreasing_by
  simp only [List.length_cons]
  omega

/-- The call of a command with arguments. -/
structure Call where
  command : List Char
  arguments : List Argument
  deriving DecidableEq, Repr

/-- Reads the call of a command that a literal names. -/
def readCall? (line : List Char) : Option Call := do
  let line ← afterWord? callWord line
  let (command, line) ← readLiteral? line
  let arguments ← readArguments? line
  pure ⟨command, arguments⟩

/-! ## Reading the line of the parser script -/

theorem readArguments?_cons {cs rest : List Char} {a : Argument} (h : readArgument? cs = some (a, rest)) :
    readArguments? (' ' :: cs) = (readArguments? rest).map (a :: ·) := by
  rw [readArguments?, if_pos rfl]
  split
  · rename_i hnone
    rw [h] at hnone
    cases hnone
  · rename_i hsome
    rw [h] at hsome
    cases hsome
    rfl

/-- Arguments begin with a space. -/
theorem head?_of_readArguments? {cs : List Char} {a : Argument} {as : List Argument}
    (h : readArguments? cs = some (a :: as)) : cs.head? = some ' ' := by
  cases cs with
  | nil =>
    rw [readArguments?] at h
    cases h
  | cons c cs =>
    rw [readArguments?] at h
    rw [(Option.ite_none_right_eq_some.1 h).1, List.head?_cons]

theorem readCall?_eq_some {line : List Char} {call : Call} (h : readCall? line = some call) :
    ∃ text rest, afterWord? callWord line = some text ∧ readLiteral? text = some (call.command, rest) ∧
      readArguments? rest = some call.arguments := by
  rw [readCall?, Option.bind_eq_bind] at h
  obtain ⟨text, hcall, h⟩ := Option.bind_eq_some_iff.1 h
  obtain ⟨⟨command, rest⟩, hliteral, h⟩ := Option.bind_eq_some_iff.1 h
  obtain ⟨arguments, harguments, heq⟩ := Option.bind_eq_some_iff.1 h
  cases heq
  exact ⟨text, rest, hcall, hliteral, harguments⟩

/-- A text without typographic quotes is read as it is behind the quote that opens it. -/
theorem readLiteralRest?_doubleQuotes {cs rest : List Char} (hcs : ∀ c ∈ cs, c ∉ typographicQuotes)
    (hrest : ∀ d ∈ rest.head?, d ∉ literalQuotes) :
    readLiteralRest? (doubleQuotes cs ++ '\'' :: rest) = some (cs, rest) := by
  have hquote : '\'' ∈ literalQuotes := List.mem_cons_self
  induction cs with
  | nil => exact readLiteralRest?_close hquote hrest
  | cons c cs ih =>
    have hread := ih fun c hc => hcs c (List.mem_cons_of_mem _ hc)
    by_cases hc : c = '\''
    · rw [hc, doubleQuotes_quote, List.cons_append, List.cons_append, readLiteralRest?_pair hquote hquote, hread]
      rfl
    · have hplain : c ∉ literalQuotes := by
        rw [literalQuotes, List.mem_cons, not_or]
        exact ⟨hc, hcs c List.mem_cons_self⟩
      rw [doubleQuotes_cons hc, List.cons_append, readLiteralRest?_char hplain, hread]
      rfl

theorem readLiteral?_singleQuoted_append (s : String) (rest : List Char) :
    readLiteral? ((singleQuoted s).toList ++ rest) = readLiteralRest? (doubleQuotes s.toList ++ '\'' :: rest) := by
  rw [singleQuoted_toList, List.cons_append, List.cons_append, List.append_assoc, List.singleton_append,
    readLiteral?_cons List.mem_cons_self]

theorem readLiteral?_singleQuoted {s : String} {rest : List Char} (hs : ∀ c ∈ s.toList, c ∉ typographicQuotes)
    (hrest : ∀ d ∈ rest.head?, d ∉ literalQuotes) :
    readLiteral? ((singleQuoted s).toList ++ rest) = some (s.toList, rest) :=
  (readLiteral?_singleQuoted_append s rest).trans (readLiteralRest?_doubleQuotes hs hrest)

/-- What is written for a text falls short of what a literal of it uses up by one character for each
typographic quote. -/
theorem length_doubleQuotes (cs : List Char) :
    (doubleQuotes cs).length + cs.countP (· ∈ typographicQuotes) =
      cs.length + cs.countP (· ∈ literalQuotes) := by
  induction cs with
  | nil => rfl
  | cons c cs ih =>
    simp only [List.countP_cons, List.length_cons]
    by_cases hc : c = '\''
    · have hliteral : decide (c ∈ literalQuotes) = true := decide_eq_true (hc ▸ List.mem_cons_self)
      have htypographic : decide (c ∈ typographicQuotes) = false := by
        rw [hc]
        decide
      rw [hliteral, htypographic, hc, doubleQuotes_quote, List.length_cons, List.length_cons]
      simp only [if_true, Bool.false_eq_true, if_false]
      omega
    · have hiff : c ∈ literalQuotes ↔ c ∈ typographicQuotes := by
        rw [literalQuotes, List.mem_cons, or_iff_right hc]
      rw [doubleQuotes_cons hc, List.length_cons, decide_eq_decide.2 hiff]
      omega

/-- The characters of the encoded source are no quotes and no spaces. -/
theorem not_mem_encodeSource_of_quote {c : Char} (hc : c ∈ ' ' :: literalQuotes) (source : String) :
    c ∉ (encodeSource source).toList := by
  have houtside : ∀ c ∈ ' ' :: literalQuotes, c ∉ Text.Base64.alphabet := by
    intro c hc
    fin_cases hc <;> decide
  exact not_mem_encodeSource (houtside c hc) source

/-- The arguments of the line. -/
def contentArguments (source : String) : List Argument :=
  [.parameter "-Base64Content".toList, .literal (encodeSource source).toList]

/-- The text of the arguments, with the space before them. -/
def contentText (source : String) : List Char :=
  contentWord ++ (singleQuoted (encodeSource source)).toList

theorem readArguments?_contentText (source : String) :
    readArguments? (contentText source) = some (contentArguments source) := by
  have hparameter (rest : List Char) : readArgument? ("-Base64Content".toList ++ ' ' :: rest) =
      some (.parameter "-Base64Content".toList, ' ' :: rest) := rfl
  have hencoded : ∀ c ∈ (encodeSource source).toList, c ∉ typographicQuotes := fun c hc hquote =>
    not_mem_encodeSource_of_quote (List.mem_cons_of_mem _ (List.mem_cons_of_mem _ hquote)) source hc
  have hliteral : readArgument? (singleQuoted (encodeSource source)).toList =
      some (.literal (encodeSource source).toList, []) := by
    have hread : readLiteral? (singleQuoted (encodeSource source)).toList =
        some ((encodeSource source).toList, []) := by
      rw [← List.append_nil (singleQuoted (encodeSource source)).toList]
      exact readLiteral?_singleQuoted hencoded nofun
    rw [singleQuoted_encodeSource, List.cons_append] at hread ⊢
    rw [readArgument?, if_neg (by decide), hread]
    rfl
  have hword : contentWord = ' ' :: "-Base64Content".toList ++ [' '] := by decide
  rw [contentText, hword, List.append_assoc, List.cons_append, List.singleton_append,
    readArguments?_cons (hparameter _), readArguments?_cons hliteral, readArguments?]
  rfl

/-- No quote in the text of the arguments has a space behind it. -/
theorem not_infix_quote_space {q : Char} (hq : q ∈ literalQuotes) (source : String) :
    ¬ [q, ' '] <:+: contentText source := by
  have hname : ∀ q ∈ literalQuotes, q ∉ " -Base64Conten".toList ∧ 't' ∉ [q, ' '] ∧ q ≠ ' ' := by
    intro q hq
    fin_cases hq <;> decide
  obtain ⟨hbefore, ht, hne⟩ := hname q hq
  have hspace : ' ' ∉ (encodeSource source).toList := not_mem_encodeSource_of_quote List.mem_cons_self source
  have hword : contentWord = " -Base64Conten".toList ++ ['t', ' '] := by decide
  intro h
  rw [contentText, singleQuoted_encodeSource, hword, List.append_assoc] at h
  rcases Text.infix_of_not_mem ht _ h with h | h
  · exact hbefore (h.subset List.mem_cons_self)
  · rcases List.infix_cons_iff.1 h with h | h
    · exact hne (List.cons_prefix_cons.1 h).1
    · have hin : ' ' ∈ '\'' :: (encodeSource source).toList ++ ['\''] := h.subset (by simp)
      simp [hspace] at hin

/-- A path that is read as it is has no typographic quote. -/
theorem not_typographic_of_readLiteral? {script source : String} {rest : List Char}
    (h : readLiteral? ((singleQuoted script).toList ++ contentText source) = some (script.toList, rest))
    (hrest : rest.head? = some ' ') : ∀ c ∈ script.toList, c ∉ typographicQuotes := by
  rw [readLiteral?_singleQuoted_append] at h
  obtain ⟨before, q, hq, heq, hlength⟩ := readLiteralRest?_eq_some h
  -- the quote that closes the literal has a space behind it, as none has behind what is written for the path
  have hle : before.length ≤ (doubleQuotes script.toList).length := by
    rcases List.append_eq_append_iff.1 heq with ⟨middle, rfl, htail⟩ | ⟨middle, hwritten, -⟩
    · cases middle with
      | nil => rw [List.append_nil]
      | cons c middle =>
        obtain ⟨after, rfl⟩ : ∃ after, rest = ' ' :: after := List.head?_eq_some_iff.1 hrest
        refine absurd ?_ (not_infix_quote_space hq source)
        have htail : contentText source = middle ++ q :: ' ' :: after := (List.cons.inj htail).2
        exact ⟨middle, after, by rw [htail, List.append_assoc]; rfl⟩
    · rw [hwritten, List.length_append]
      exact Nat.le_add_right _ _
  have hwritten := length_doubleQuotes script.toList
  have hnone : script.toList.countP (· ∈ typographicQuotes) = 0 := by omega
  simpa using hnone

/-- PowerShell reads the line as the call of the script with the source if and only if the path has no
typographic quote. -/
theorem readCall?_parseCommand_iff (script source : String) :
    readCall? (parseCommand script source).toList = some ⟨script.toList, contentArguments source⟩ ↔
      ∀ c ∈ script.toList, c ∉ typographicQuotes := by
  rw [parseCommand_toList, ← contentText]
  constructor
  · intro h
    obtain ⟨text, rest, hcall, hliteral, harguments⟩ := readCall?_eq_some h
    rw [afterWord?_append] at hcall
    obtain rfl := Option.some.inj hcall
    exact not_typographic_of_readLiteral? hliteral (head?_of_readArguments? harguments)
  · intro hscript
    have hspace : ∀ d ∈ (contentText source).head?, d ∉ literalQuotes := by
      rw [head?_of_readArguments? (readArguments?_contentText source)]
      intro d hd
      rw [← Option.some.inj hd]
      decide
    have hread := readLiteral?_singleQuoted hscript hspace
    simp only [readCall?, afterWord?_append, hread, readArguments?_contentText, Option.bind_eq_bind,
      Option.bind_some, Option.pure_def]

example : readCall? (parseCommand "/tmp/it's/AstParse.ps1" "x").toList =
    some ⟨"/tmp/it's/AstParse.ps1".toList, contentArguments "x"⟩ := by cbv

/-- An apostrophe of type-setting ends the name of the script, and what follows it is read as code. -/
theorem not_readCall?_typographic :
    let script := "/tmp/it\u2019s/AstParse.ps1"
    (afterWord? callWord (parseCommand script "x").toList).bind readLiteral? =
        some ("/tmp/it".toList, "s/AstParse.ps1' -Base64Content 'eA=='".toList) ∧
      readCall? (parseCommand script "x").toList ≠ some ⟨script.toList, contentArguments "x"⟩ := by
  intro script
  have hread : (afterWord? callWord (parseCommand script "x").toList).bind readLiteral? =
      some ("/tmp/it".toList, "s/AstParse.ps1' -Base64Content 'eA=='".toList) := by cbv
  refine ⟨hread, fun h => ?_⟩
  obtain ⟨text, rest, hcall, hliteral, harguments⟩ := readCall?_eq_some h
  rw [hcall, Option.bind_some, hliteral] at hread
  have hspace := head?_of_readArguments? harguments
  rw [(Prod.mk.inj (Option.some.inj hread)).2] at hspace
  exact absurd hspace (by decide)

end ScriptTree.Analysis
