/-!
Splitting a line into words the way a shell does: white space parts words, quotes of either kind and
backslashes take its meaning away. A line that ends inside quotes or after a backslash ends its last
word there.
-/

namespace ScriptTree.CommandLine

/-- Where a character of a line stands. -/
inductive LinePlace where
  /-- Between words or in one, outside of quotes. -/
  | plain
  | quoted (quote : Char)
  /-- After a backslash; `quote` tells the quotes around it. -/
  | escaped (quote : Option Char)
  deriving DecidableEq, Repr

/-- The white space that parts words. -/
def partsWords (c : Char) : Bool :=
  c == ' ' || c == '\t' || c == '\r' || c == '\n'

/-- A word with its last character first; an empty word counts only if it was quoted. -/
def wordIf (counts : Bool) (word : List Char) : List String :=
  if counts || !word.isEmpty then [String.ofList word.reverse] else []

/-- The words from a place in a line, where `word` holds the characters of the word in progress,
the last one first, and `hasQuotes` tells whether some of them were quoted. -/
def splitWordsFrom (place : LinePlace) (word : List Char) (hasQuotes : Bool) :
    List Char → List String
  | [] =>
    match place with
    | .plain => wordIf hasQuotes word
    | _ => [String.ofList word.reverse]
  | c :: cs =>
    match place with
    | .plain =>
      if partsWords c then wordIf hasQuotes word ++ splitWordsFrom .plain [] false cs
      else if c = '\\' then splitWordsFrom (.escaped none) word hasQuotes cs
      else if c = '\'' || c = '"' then splitWordsFrom (.quoted c) word hasQuotes cs
      else splitWordsFrom .plain (c :: word) hasQuotes cs
    | .quoted quote =>
      if c = quote then splitWordsFrom .plain word true cs
      else if c = '\\' && quote = '"' then splitWordsFrom (.escaped (some quote)) word true cs
      else splitWordsFrom (.quoted quote) (c :: word) true cs
    | .escaped none => splitWordsFrom .plain (c :: word) hasQuotes cs
    | .escaped (some quote) =>
      let word := if c = '\\' || c = quote then word else '\\' :: word
      splitWordsFrom (.quoted quote) (c :: word) hasQuotes cs

/-- The words of a line. -/
def splitWords (line : String) : List String :=
  splitWordsFrom .plain [] false line.toList

end ScriptTree.CommandLine
