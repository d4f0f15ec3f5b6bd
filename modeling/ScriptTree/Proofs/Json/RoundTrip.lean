/-
Reading what was written. A value that is written without loss, and that can be encoded, is read back from
its text on many lines (`readChars_block`). Each part is read up to the character behind it, which ends a number (`Stops`), and
with as much fuel as the length of the text requires (`Returns`).
-/
import ScriptTree.Json.Reader
import ScriptTree.Proofs.Json.Writer

namespace ScriptTree.Json

open Integer (IsShort)

/-! ## Numbers -/

/-- What follows a number: nothing that could be part of one. -/
def Stops : List Char → Prop
  | [] => True
  | c :: _ => c.isDigit = false ∧ c ≠ '.' ∧ c ≠ 'e' ∧ c ≠ 'E'

theorem spanDigits_append {ds rest : List Char} (hdigits : ∀ c ∈ ds, c.isDigit = true) (hstops : Stops rest) :
    spanDigits (ds ++ rest) = (ds, rest) := by
  have hrest : rest.takeWhile Char.isDigit = [] ∧ rest.dropWhile Char.isDigit = rest := by
    cases rest with
    | nil => exact ⟨rfl, rfl⟩
    | cons c rest =>
      rw [List.takeWhile_cons_of_neg (by simp [hstops.1]), List.dropWhile_cons_of_neg (by simp [hstops.1])]
      exact ⟨rfl, rfl⟩
  rw [spanDigits, List.takeWhile_append_of_pos hdigits, List.dropWhile_append_of_pos hdigits, hrest.1,
    hrest.2, List.append_nil]

theorem readFraction_stops {rest : List Char} (h : Stops rest) : readFraction rest = (none, rest) := by
  unfold readFraction
  split
  · exact absurd rfl h.2.1
  · rfl

theorem readExponent_stops {rest : List Char} (h : Stops rest) : readExponent rest = (none, rest) := by
  cases rest with
  | nil => rfl
  | cons c rest =>
    unfold readExponent
    dsimp only
    rw [if_neg]
    simp [h.2.2.1, h.2.2.2]

theorem natOf_toDigits (n : Nat) : natOf (Nat.toDigits 10 n) = n :=
  Nat.ofDigitChars_ten_toDigits

/-- Only the number zero begins with a zero. -/
theorem toDigits_head {n : Nat} {d : Char} {ds : List Char} (h : Nat.toDigits 10 n = d :: ds) (hd : d = '0') :
    n = 0 ∧ ds = [] := by
  induction n using Nat.strong_induction_on generalizing d ds with
  | _ n ih =>
    rw [Nat.toDigits_eq_if (by decide)] at h
    split at h
    · cases h
      exact ⟨Nat.digitChar_eq_zero.1 hd, rfl⟩
    · rename_i hlarge
      obtain ⟨ds', hhigh⟩ : ∃ ds', Nat.toDigits 10 (n / 10) = d :: ds' := by
        cases hhigh : Nat.toDigits 10 (n / 10) with
        | nil => exact absurd hhigh Nat.toDigits_ne_nil
        | cons d' ds' =>
          rw [hhigh] at h
          cases h
          exact ⟨ds', rfl⟩
      have hzero := (ih (n / 10) (by omega) hhigh hd).1
      omega

theorem readNumber_toDigits (negative : Bool) {n : Nat} (hn : n < 10 ^ Integer.digitLimit) {rest : List Char}
    (hstops : Stops rest) : readNumber negative (Nat.toDigits 10 n ++ rest) =
      some (.ok (.int (if negative then -(n : Int) else n), rest)) := by
  have hdigits : ∀ c ∈ Nat.toDigits 10 n, c.isDigit = true :=
    fun c hc => Nat.isDigit_of_mem_toDigits (by decide) (by decide) hc
  have hlength : ¬ (Nat.toDigits 10 n).length > Integer.digitLimit :=
    Nat.not_lt.2 ((Nat.length_toDigits_le_iff (by decide) (by decide)).2 hn)
  have hspan := spanDigits_append hdigits hstops
  have hvalue := natOf_toDigits n
  cases hds : Nat.toDigits 10 n with
  | nil => exact absurd hds Nat.toDigits_ne_nil
  | cons d ds =>
    rw [hds] at hdigits hlength hspan hvalue
    have hd : d.isDigit = true := hdigits d List.mem_cons_self
    have hwhole : (if d = '0' then (['0'], ds ++ rest) else spanDigits (d :: (ds ++ rest))) =
        (d :: ds, rest) := by
      split
      · rename_i hzero
        obtain ⟨-, rfl⟩ := toDigits_head hds hzero
        rw [hzero]
        rfl
      · exact hspan
    rw [List.cons_append, readNumber]
    simp only [hd, Bool.not_true, Bool.false_eq_true, if_false, hwhole, readFraction_stops hstops,
      readExponent_stops hstops, Option.isNone_none, Bool.and_self, if_true, hlength, hvalue]

theorem readAtom_digit {d : Char} (hd : d.isDigit = true) (cs : List Char) :
    readAtom (d :: cs) = (readNumber false (d :: cs)).getD (.error (.fault .valueWanted (cs.length + 1))) := by
  unfold readAtom
  split
  case h_7 => rfl
  -- no word begins with a digit
  all_goals
    rename_i heq
    cases heq
    cases hd

theorem readAtom_minus {d : Char} (hd : d.isDigit = true) (cs : List Char) :
    readAtom ('-' :: d :: cs) =
      (readNumber true (d :: cs)).getD (.error (.fault .valueWanted (cs.length + 2))) := by
  have hword : dropWord? "-Infinity".toList ('-' :: d :: cs) = none := by
    have hI : ('I' == d) = false := by
      rw [beq_eq_false_iff_ne]
      rintro rfl
      cases hd
    unfold dropWord?
    rw [if_neg]
    simp [List.isPrefixOf, hI]
  unfold readAtom
  dsimp only
  rw [hword]
  rfl

theorem readAtom_int {i : Int} (h : IsShort i) {rest : List Char} (hstops : Stops rest) :
    readAtom ((Integer.text i).toList ++ rest) = .ok (.int i, rest) := by
  rw [Integer.text, String.toList_ofList]
  cases hds : Nat.toDigits 10 i.natAbs with
  | nil => exact absurd hds Nat.toDigits_ne_nil
  | cons d ds =>
    have hd : d.isDigit = true :=
      Nat.isDigit_of_mem_toDigits (by decide) (by decide) (hds ▸ List.mem_cons_self)
    have hread : ∀ negative, readNumber negative (d :: (ds ++ rest)) = _ := fun negative =>
      List.cons_append ▸ hds ▸ readNumber_toDigits negative h hstops
    by_cases hneg : i < 0
    · rw [if_pos hneg, List.cons_append, List.cons_append, readAtom_minus hd, hread, if_pos rfl]
      rw [show -(i.natAbs : Int) = i by omega]
      rfl
    · rw [if_neg hneg, List.cons_append, readAtom_digit hd, hread, if_neg Bool.false_ne_true]
      rw [show (i.natAbs : Int) = i by omega]
      rfl

/-! ## Strings -/

/-- No code below the space is half of a surrogate pair, so the escape is read alone. -/
theorem readCodeEscape_control {c : Char} (hc : c.toNat < 0x20) (d : Char) (cs : List Char) :
    readCodeEscape (Text.hexDigits 4 c.toNat ++ d :: cs) = .ok (.char c, d :: cs) := by
  -- the digits are computed for all codes at once
  have hall : ∀ n < 0x20, ∃ x y z w, Text.hexDigits 4 n = [x, y, z, w] ∧ hexFour? x y z w = some n ∧
      isHighSurrogate n = false ∧ isLowSurrogate n = false := by
    intro n hn
    refine ⟨'0', '0', Text.hexDigit (n / 16), Text.hexDigit (n % 16), ?_⟩
    revert n
    decide
  obtain ⟨x, y, z, w, hhex, hfour, hhigh, hlow⟩ := hall c.toNat hc
  rw [hhex]
  simp only [List.cons_append, List.nil_append, readCodeEscape, hfour, hhigh, Bool.false_eq_true, if_false,
    pointOfCode, hlow, Bool.or_self, Char.ofNat_toNat]

section

variable {opening : Nat} {cs tail : List Char} {s : Points} (h : readString opening cs = .ok (s, tail))

include h

theorem readString_short {e c : Char} (he : shortEscape? e = some c) :
    readString opening ('\\' :: e :: cs) = .ok (.char c :: s, tail) := by
  have hu : e ≠ 'u' := by
    rintro rfl
    cases he
  rw [readString.eq_def]
  simp only [he, h]

theorem readString_escape {p : Point} {cs' : List Char} (hescape : readCodeEscape cs' = .ok (p, cs)) :
    readString opening ('\\' :: 'u' :: cs') = .ok (p :: s, tail) := by
  rw [readString]
  split <;> rename_i heq <;> rw [hescape] at heq <;> cases heq
  rw [h]

theorem readString_code {c : Char} (hc : c.toNat < 0x20) (hcs : cs ≠ []) :
    readString opening ('\\' :: 'u' :: (Text.hexDigits 4 c.toNat ++ cs)) = .ok (.char c :: s, tail) := by
  obtain ⟨d, cs, rfl⟩ := List.exists_cons_of_ne_nil hcs
  exact readString_escape h (readCodeEscape_control hc d cs)

theorem readString_plain {c : Char} (hquote : c ≠ '"') (hslash : c ≠ '\\') (hc : ¬ c.toNat < 0x20) :
    readString opening (c :: cs) = .ok (.char c :: s, tail) := by
  rw [readString.eq_def]
  simp only [hc, h, if_false]

/-- One character is read back, whichever way it was written. -/
theorem readString_char (c : Char) (hcs : cs ≠ []) :
    readString opening (stringChar c ++ cs) = .ok (.char c :: s, tail) := by
  unfold stringChar
  -- the escapes of one letter, the escape by code, and the character itself
  iterate 7
    split
    · rename_i hc
      subst hc
      exact readString_short h rfl
  split
  · rename_i hc
    exact readString_code h hc hcs
  · exact readString_plain h ‹_› ‹_› ‹_›

end

/-- A string is read back up to its closing quote. -/
theorem readString_body (opening : Nat) (cs rest : List Char) :
    readString opening (cs.flatMap stringChar ++ '"' :: rest) = .ok (.ofChars cs, rest) := by
  induction cs with
  | nil =>
    rw [List.flatMap_nil, List.nil_append, readString]
    rfl
  | cons c cs ih =>
    rw [List.flatMap_cons, List.append_assoc]
    exact readString_char ih c (by simp)

/-! ## Objects -/

theorem insert_of_not_mem {key : Points} {fs : List (Points × Value)} (h : key ∉ fs.map Prod.fst) (v : Value) :
    Value.insert key v fs = fs ++ [(key, v)] := by
  induction fs with
  | nil => rfl
  | cons f fs ih =>
    rw [List.map_cons, List.mem_cons, not_or] at h
    rw [Value.insert, if_neg (Ne.symm h.1), ih h.2, List.cons_append]

/-- Fields with distinct keys stay as they are. -/
theorem ofFields_of_nodup {fs : List (Points × Value)} (nodup : (fs.map Prod.fst).Nodup) :
    Value.ofFields fs = fs := by
  induction fs using List.reverseRecOn with
  | nil => rfl
  | append_singleton fs f ih =>
    rw [List.map_append, List.map_singleton, List.nodup_append'] at nodup
    obtain ⟨hnodup, -, hnew⟩ := nodup
    rw [Value.ofFields, List.foldl_append, ← Value.ofFields, ih hnodup, List.foldl_cons, List.foldl_nil,
      insert_of_not_mem fun hmem => hnew hmem (List.mem_singleton_self _)]

/-! ## The characters that are written -/

theorem chars_joined (separator : Points) (ps : List Points) :
    Points.chars (joined separator ps) = joined separator.chars (ps.map Points.chars) := by
  induction ps with
  | nil => rfl
  | cons p ps ih =>
    cases ps with
    | nil => rfl
    | cons q ps =>
      rw [joined_cons_cons, Points.chars_append, Points.chars_append, ih]
      rfl

/-- The characters of a string with its quotes. -/
def stringChars (cs : List Char) : List Char :=
  '"' :: (cs.flatMap stringChar ++ ['"'])

theorem chars_stringText (s : Points) : Points.chars (stringText s) = stringChars s.chars := by
  have hbody : Points.chars (s.flatMap stringPoint) = s.chars.flatMap stringChar := by
    induction s with
    | nil => rfl
    | cons p s ih =>
      rw [List.flatMap_cons, Points.chars_append, ih]
      cases p with
      | char c => rw [stringPoint, Points.chars_ofChars]; rfl
      | half n => rfl
  rw [stringText, Points.chars_append, Points.chars_append, hbody]
  rfl

/-- The characters of a new line at a level. -/
def lineBreak (level : Nat) : List Char :=
  '\n' :: List.replicate (2 * level) ' '

theorem chars_newLine (level : Nat) : Points.chars (newLine level) = lineBreak level := by
  have hspaces : Points.chars (List.replicate (2 * level) (.char ' ')) = List.replicate (2 * level) ' ' := by
    rw [← Points.chars_ofChars (List.replicate (2 * level) ' '), Points.ofChars, List.map_replicate]
  rw [newLine, Points.chars_append, hspaces]
  rfl

/-- The characters of a value on many lines. -/
def blockChars (level : Nat) (v : Value) : List Char :=
  Points.chars (blockText level v)

/-- The characters of a field on many lines. -/
def fieldChars (level : Nat) (f : Points × Value) : List Char :=
  stringChars f.1.chars ++ ':' :: ' ' :: blockChars level f.2

theorem blockChars_list (level : Nat) (x : Value) (xs : List Value) :
    blockChars level (.list (x :: xs)) = '[' :: (lineBreak (level + 1) ++
      (joined (',' :: lineBreak (level + 1)) ((x :: xs).map (blockChars (level + 1))) ++
        (lineBreak level ++ [']']))) := by
  rw [blockChars, blockText]
  simp only [Points.chars_append, chars_joined, chars_newLine, blockItems_eq, List.map_map, List.append_assoc]
  rfl

theorem blockChars_object (level : Nat) (f : Points × Value) (fs : List (Points × Value)) :
    blockChars level (.object (f :: fs)) = '\x7b' :: (lineBreak (level + 1) ++
      (joined (',' :: lineBreak (level + 1)) ((f :: fs).map (fieldChars (level + 1))) ++
        (lineBreak level ++ ['\x7d']))) := by
  have hfields : (blockFields (level + 1) (f :: fs)).map Points.chars =
      (f :: fs).map (fieldChars (level + 1)) := by
    rw [blockFields_eq, List.map_map]
    refine List.map_congr_left fun g _ => ?_
    rw [Function.comp, Points.chars_append, Points.chars_append, chars_stringText, List.append_assoc]
    rfl
  rw [blockChars, blockText]
  simp only [Points.chars_append, chars_joined, chars_newLine, hfields, List.append_assoc]
  rfl

/-! ## Values -/

/-- Whether a value may begin with a character. -/
def isStart (c : Char) : Bool :=
  c.isDigit || "\"[\x7bntf-".toList.contains c

/-- The text begins as a value does. -/
def Begins : List Char → Prop
  | [] => False
  | c :: _ => isStart c = true

theorem Begins.append {cs : List Char} (h : Begins cs) (rest : List Char) : Begins (cs ++ rest) := by
  cases cs with
  | nil => exact h.elim
  | cons c cs => exact h

theorem Begins.head_ne {c : Char} {cs : List Char} (h : Begins (c :: cs)) {b : Char} (hb : isStart b = false) :
    c ≠ b := by
  rintro rfl
  exact Bool.false_ne_true (hb.symm.trans h)

theorem Begins.skipSpace {cs : List Char} (h : Begins cs) : skipSpace cs = cs := by
  cases cs with
  | nil => rfl
  | cons c cs =>
    refine List.dropWhile_cons_of_neg ?_
    simp [isSpace, h.head_ne (b := ' ') (by decide), h.head_ne (b := '\t') (by decide),
      h.head_ne (b := '\n') (by decide), h.head_ne (b := '\r') (by decide)]

theorem skipSpace_lineBreak (level : Nat) (cs : List Char) : skipSpace (lineBreak level ++ cs) = skipSpace cs := by
  have hspaces : ∀ n, skipSpace (List.replicate n ' ' ++ cs) = skipSpace cs := by
    intro n
    induction n with
    | zero => rfl
    | succ n ih =>
      rw [List.replicate_succ, List.cons_append]
      exact ih
  exact hspaces (2 * level)

theorem text_head (i : Int) : ∃ c cs, (Integer.text i).toList = c :: cs ∧ (c = '-' ∨ c.isDigit = true) := by
  rw [Integer.text, String.toList_ofList]
  split
  · exact ⟨_, _, rfl, .inl rfl⟩
  · cases hds : Nat.toDigits 10 i.natAbs with
    | nil => exact absurd hds Nat.toDigits_ne_nil
    | cons d ds =>
      exact ⟨d, ds, rfl, .inr (Nat.isDigit_of_mem_toDigits (by decide) (by decide) (hds ▸ List.mem_cons_self))⟩

theorem text_begins (i : Int) : Begins (Integer.text i).toList := by
  obtain ⟨c, cs, hi, hc⟩ := text_head i
  rw [hi]
  rcases hc with rfl | hd
  · rfl
  · show isStart c = true
    rw [isStart, hd, Bool.true_or]

theorem blockChars_int (level : Nat) (i : Int) : blockChars level (.int i) = (Integer.text i).toList :=
  Points.chars_ofString _

theorem blockChars_text (level : Nat) (s : String) : blockChars level (.text s) = stringChars s.toList := by
  have htext : blockText level (.text s) = stringText s := rfl
  rw [blockChars, htext, chars_stringText, Points.chars_ofString]

theorem blockChars_begins (level : Nat) {v : Value} (h : Plain v) : Begins (blockChars level v) := by
  cases h with
  | null => rfl
  | bool b => cases b <;> rfl
  | int hi =>
    rw [blockChars_int]
    exact text_begins _
  | text s => rfl
  | @list xs _ => cases xs <;> rfl
  | @object fs _ _ => cases fs <;> rfl

/-- What was written at a level is read back as the value, up to where it ends. Two units of fuel for each
character are enough: every list and every item takes one, and a list has two brackets. -/
def Returns (level : Nat) (v : Value) : Prop :=
  ∀ fuel rest, 2 * (blockChars level v).length ≤ fuel → Stops rest →
    readValue fuel (blockChars level v ++ rest) = .ok (v, rest)

theorem stops_lineBreak (level : Nat) (cs : List Char) : Stops (lineBreak level ++ cs) :=
  ⟨rfl, by decide, by decide, by decide⟩

theorem stops_comma (cs : List Char) : Stops (',' :: cs) :=
  ⟨rfl, by decide, by decide, by decide⟩

theorem items_begins (level : Nat) {xs : List Value} (hne : xs ≠ []) (h : ∀ x ∈ xs, Plain x)
    (separator : List Char) : Begins (joined separator (xs.map (blockChars level))) := by
  match xs, hne with
  | [x], _ => exact blockChars_begins level (h x List.mem_cons_self)
  | x :: y :: xs, _ =>
    rw [List.map_cons, List.map_cons, joined_cons_cons, List.append_assoc]
    exact (blockChars_begins level (h x List.mem_cons_self)).append _

section

variable {fuel : Nat} {cs rest tail : List Char} {x : Value}

theorem readItems_last (hvalue : readValue fuel cs = .ok (x, rest)) (hnext : skipSpace rest = ']' :: tail) :
    readItems (fuel + 1) cs = .ok ([x], tail) := by
  rw [readItems, hvalue]
  simp only [hnext]

theorem readItems_more {xs : List Value} {after : List Char} (hvalue : readValue fuel cs = .ok (x, rest))
    (hnext : skipSpace rest = ',' :: after) (hmore : readItems fuel (skipSpace after) = .ok (xs, tail)) :
    readItems (fuel + 1) cs = .ok (x :: xs, tail) := by
  rw [readItems, hvalue]
  simp only [hnext, hmore]

end

/-- The items of a list are read back up to its bracket. Each item takes one unit of fuel beside its own,
which the comma before the next one pays for. -/
theorem readItems_block {level : Nat} (outer : Nat) (rest : List Char) {xs : List Value} (hne : xs ≠ [])
    (hplain : ∀ x ∈ xs, Plain x) (h : ∀ x ∈ xs, Returns level x) : ∀ fuel,
    2 * (joined (',' :: lineBreak level) (xs.map (blockChars level))).length + 1 ≤ fuel →
    readItems fuel (joined (',' :: lineBreak level) (xs.map (blockChars level)) ++ (lineBreak outer ++ ']' :: rest)) =
      .ok (xs, rest) := by
  induction xs with
  | nil => exact absurd rfl hne
  | cons x xs ih =>
    intro fuel hfuel
    obtain ⟨fuel, rfl⟩ : ∃ f, fuel = f + 1 := ⟨fuel - 1, by omega⟩
    have hx := h x List.mem_cons_self
    cases xs with
    | nil =>
      rw [List.map_singleton, joined] at hfuel ⊢
      exact readItems_last (hx fuel _ (by omega) (stops_lineBreak outer _)) (skipSpace_lineBreak outer _)
    | cons y ys =>
      have hplain' : ∀ z ∈ y :: ys, Plain z := fun z hz => hplain z (List.mem_cons_of_mem x hz)
      have hbegins := items_begins level (List.cons_ne_nil y ys) hplain' (',' :: lineBreak level)
      have hmore := ih (List.cons_ne_nil y ys) hplain' (fun z hz => h z (List.mem_cons_of_mem x hz)) fuel
      have hjoined : joined (',' :: lineBreak level) ((x :: y :: ys).map (blockChars level)) =
          blockChars level x ++ ',' :: (lineBreak level ++
            joined (',' :: lineBreak level) ((y :: ys).map (blockChars level))) := by
        rw [List.map_cons, List.map_cons, joined_cons_cons, List.append_assoc, List.cons_append]
      -- from here on only the place where the other items begin matters
      generalize joined (',' :: lineBreak level) ((y :: ys).map (blockChars level)) = items at hmore hbegins hjoined
      rw [hjoined] at hfuel ⊢
      simp only [List.length_append, List.length_cons] at hfuel
      rw [List.append_assoc, List.cons_append, List.append_assoc]
      refine readItems_more (hx fuel _ (by omega) (stops_comma _)) rfl ?_
      rw [skipSpace_lineBreak, (hbegins.append _).skipSpace, hmore (by omega)]

section

variable {fuel : Nat} {cs behind after rest tail : List Char} {key : Points} {v : Value}
  (hkey : readString ('"' :: cs).length cs = .ok (key, behind)) (hcolon : skipSpace behind = ':' :: after)

include hkey hcolon

theorem readFields_last (hvalue : readValue fuel (skipSpace after) = .ok (v, rest))
    (hnext : skipSpace rest = '\x7d' :: tail) :
    readFields (fuel + 1) ('"' :: cs) = .ok ([(key, v)], tail) := by
  rw [readFields, hkey]
  simp only [hcolon, hvalue, hnext]

theorem readFields_more {fs : List (Points × Value)} {next : List Char}
    (hvalue : readValue fuel (skipSpace after) = .ok (v, rest)) (hnext : skipSpace rest = ',' :: next)
    (hmore : readFields fuel (skipSpace next) = .ok (fs, tail)) :
    readFields (fuel + 1) ('"' :: cs) = .ok ((key, v) :: fs, tail) := by
  rw [readFields, hkey]
  simp only [hcolon, hvalue, hnext, hmore]

end

theorem stringChars_append (cs rest : List Char) :
    stringChars cs ++ rest = '"' :: (cs.flatMap stringChar ++ '"' :: rest) := by
  rw [stringChars, List.cons_append, List.append_assoc, List.singleton_append]

theorem fields_begins (level : Nat) {fs : List (Points × Value)} (hne : fs ≠ []) (separator : List Char) :
    Begins (joined separator (fs.map (fieldChars level))) := by
  obtain ⟨f, fs, rfl⟩ := List.exists_cons_of_ne_nil hne
  rw [List.map_cons, fieldChars]
  cases fs <;> rfl

/-- The fields of an object are read back up to its brace. -/
theorem readFields_block {level : Nat} (outer : Nat) (rest : List Char) {fs : List (Points × Value)}
    (hne : fs ≠ []) (hkeys : ∀ f ∈ fs, Points.isLegible f.1 = true) (hplain : ∀ f ∈ fs, Plain f.2)
    (h : ∀ f ∈ fs, Returns level f.2) : ∀ fuel,
    2 * (joined (',' :: lineBreak level) (fs.map (fieldChars level))).length + 1 ≤ fuel →
    readFields fuel (joined (',' :: lineBreak level) (fs.map (fieldChars level)) ++ (lineBreak outer ++ '\x7d' :: rest)) =
      .ok (fs, rest) := by
  induction fs with
  | nil => exact absurd rfl hne
  | cons f fs ih =>
    obtain ⟨k, v⟩ := f
    intro fuel hfuel
    obtain ⟨fuel, rfl⟩ : ∃ f, fuel = f + 1 := ⟨fuel - 1, by omega⟩
    have hv : Returns level v := h (k, v) List.mem_cons_self
    have hk : Points.ofChars k.chars = k := Points.ofChars_chars (hkeys (k, v) List.mem_cons_self)
    have hcolon : ∀ more, skipSpace (':' :: more) = ':' :: more := fun _ => rfl
    have hspace : ∀ more, skipSpace (' ' :: (blockChars level v ++ more)) = blockChars level v ++ more :=
      fun more => ((blockChars_begins level (hplain (k, v) List.mem_cons_self)).append more).skipSpace
    cases fs with
    | nil =>
      rw [List.map_singleton, joined, fieldChars] at hfuel ⊢
      simp only [List.length_append, List.length_cons] at hfuel
      rw [List.append_assoc, List.cons_append, List.cons_append, stringChars_append]
      have hend : skipSpace (lineBreak outer ++ '\x7d' :: rest) = '\x7d' :: rest := skipSpace_lineBreak outer _
      have hlast := readFields_last (readString_body _ k.chars _) (hcolon _)
        ((congrArg _ (hspace _)).trans (hv fuel _ (by omega) (stops_lineBreak outer _))) hend
      rwa [hk] at hlast
    | cons g gs =>
      have hbegins := fields_begins level (List.cons_ne_nil g gs) (',' :: lineBreak level)
      have hmore := ih (List.cons_ne_nil g gs) (fun f hf => hkeys f (List.mem_cons_of_mem _ hf))
        (fun f hf => hplain f (List.mem_cons_of_mem _ hf))
        (fun f hf => h f (List.mem_cons_of_mem _ hf)) fuel
      have hjoined : joined (',' :: lineBreak level) (((k, v) :: g :: gs).map (fieldChars level)) =
          stringChars k.chars ++ ':' :: ' ' :: (blockChars level v ++ ',' :: (lineBreak level ++
            joined (',' :: lineBreak level) ((g :: gs).map (fieldChars level)))) := by
        rw [List.map_cons, List.map_cons, joined_cons_cons, fieldChars]
        simp only [List.append_assoc, List.cons_append]
      generalize joined (',' :: lineBreak level) ((g :: gs).map (fieldChars level)) = fields at hmore hbegins hjoined
      rw [hjoined] at hfuel ⊢
      simp only [List.length_append, List.length_cons] at hfuel
      rw [List.append_assoc, List.cons_append, List.cons_append, List.append_assoc, List.cons_append,
        List.append_assoc, stringChars_append]
      have hnext : readFields fuel (skipSpace (lineBreak level ++ (fields ++ (lineBreak outer ++ '\x7d' :: rest)))) =
          .ok (g :: gs, rest) := by
        rw [skipSpace_lineBreak, (hbegins.append _).skipSpace, hmore (by omega)]
      have hall := readFields_more (readString_body _ k.chars _) (hcolon _)
        ((congrArg _ (hspace _)).trans (hv fuel _ (by omega) (stops_comma _))) rfl hnext
      rwa [hk] at hall

theorem readValue_atom {cs : List Char} (hquote : cs.head? ≠ some '"') (hlist : cs.head? ≠ some '[')
    (hobject : cs.head? ≠ some '\x7b') (fuel : Nat) : readValue (fuel + 1) cs = readAtom cs := by
  rw [readValue.eq_def]
  dsimp only
  split
  · exact absurd rfl hquote
  · exact absurd rfl hlist
  · exact absurd rfl hobject
  · rfl

theorem readValue_text (fuel : Nat) (s : String) (rest : List Char) :
    readValue (fuel + 1) (stringChars s.toList ++ rest) = .ok (.text s, rest) := by
  rw [stringChars_append, readValue, readString_body]
  rfl

section

variable {fuel : Nat} {cs rest : List Char}

theorem readValue_items {xs : List Value} (h : readItems fuel (skipSpace cs) = .ok (xs, rest)) :
    readValue (fuel + 1) ('[' :: cs) = .ok (.list xs, rest) := by
  rw [readValue]
  split
  · -- no item begins with the closing bracket
    rename_i hclosed
    rw [hclosed] at h
    rcases fuel with _ | _ | fuel <;> rw [readItems] at h <;> cases h
  · rw [h]

theorem readValue_fields {fs : List (Points × Value)} (h : readFields fuel (skipSpace cs) = .ok (fs, rest)) :
    readValue (fuel + 1) ('\x7b' :: cs) = .ok (.object (Value.ofFields fs), rest) := by
  rw [readValue]
  split
  · rename_i hclosed
    rw [hclosed] at h
    cases fuel <;> rw [readFields] at h <;> cases h
  · rw [h]

variable (hbegins : Begins cs)

include hbegins

theorem readValue_list {xs : List Value} (h : readItems fuel cs = .ok (xs, rest)) (level : Nat) :
    readValue (fuel + 1) ('[' :: (lineBreak level ++ cs)) = .ok (.list xs, rest) := by
  refine readValue_items ?_
  rwa [skipSpace_lineBreak, hbegins.skipSpace]

theorem readValue_object {fs : List (Points × Value)} (h : readFields fuel cs = .ok (fs, rest)) (level : Nat) :
    readValue (fuel + 1) ('\x7b' :: (lineBreak level ++ cs)) = .ok (.object (Value.ofFields fs), rest) := by
  refine readValue_fields ?_
  rwa [skipSpace_lineBreak, hbegins.skipSpace]

end

theorem Returns.of_succ {level : Nat} {v : Value} (hplain : Plain v)
    (h : ∀ fuel rest, 2 * (blockChars level v).length ≤ fuel + 1 → Stops rest →
      readValue (fuel + 1) (blockChars level v ++ rest) = .ok (v, rest)) : Returns level v := by
  intro fuel rest hfuel hstops
  have hpos : 0 < (blockChars level v).length := by
    have hbegins := blockChars_begins level hplain
    generalize blockChars level v = cs at hbegins
    cases cs with
    | nil => exact hbegins.elim
    | cons c cs => exact Nat.succ_pos _
  obtain ⟨fuel, rfl⟩ : ∃ f, fuel = f + 1 := ⟨fuel - 1, by omega⟩
  exact h fuel rest hfuel hstops

theorem returns_int {i : Int} (hi : IsShort i) (level : Nat) : Returns level (.int i) := by
  refine Returns.of_succ (.int hi) fun fuel rest _ hstops => ?_
  obtain ⟨c, cs, htext, hc⟩ := text_head i
  have hother : ∀ b : Char, b ≠ '-' → b.isDigit = false → (c :: (cs ++ rest)).head? ≠ some b := by
    rintro b hminus hdigit ⟨⟩
    exact hc.elim hminus fun hd => Bool.false_ne_true (hdigit.symm.trans hd)
  have hread := readAtom_int hi hstops
  rw [blockChars_int]
  rw [htext, List.cons_append] at hread ⊢
  rw [readValue_atom (hother _ (by decide) (by decide)) (hother _ (by decide) (by decide))
    (hother _ (by decide) (by decide)), hread]

/-- A value without loss that can be encoded is read back from its text on many lines. -/
theorem returns_of_plain {v : Value} (h : Plain v) (hlegible : Legible v) : ∀ level, Returns level v := by
  induction h with
  | null => exact fun level => .of_succ .null fun fuel rest _ _ => rfl
  | bool b =>
    intro level
    refine .of_succ (.bool b) fun fuel rest _ _ => ?_
    cases b <;> rfl
  | int hi => exact returns_int hi
  | text s =>
    obtain ⟨s, rfl⟩ := Points.isLegible_iff.1 (legible_text_iff.1 hlegible)
    refine fun level => .of_succ (.text s) fun fuel rest _ _ => ?_
    rw [blockChars_text, readValue_text]
  | @list xs hplain ih =>
    have hitem := legible_list_iff.1 hlegible
    intro level
    refine .of_succ (.list hplain) fun fuel rest hfuel _ => ?_
    cases xs with
    | nil => rfl
    | cons x xs =>
      have hitems := readItems_block level rest (List.cons_ne_nil x xs) hplain
        (fun x hx => ih x hx (hitem x hx) (level + 1))
      have hbegins := items_begins (level + 1) (List.cons_ne_nil x xs) hplain (',' :: lineBreak (level + 1))
      rw [blockChars_list] at hfuel ⊢
      generalize joined (',' :: lineBreak (level + 1)) ((x :: xs).map (blockChars (level + 1))) = items
        at hitems hbegins hfuel ⊢
      simp only [List.length_append, List.length_cons] at hfuel
      simp only [List.cons_append, List.append_assoc, List.nil_append]
      exact readValue_list (hbegins.append _) (hitems fuel (by omega)) _
  | @object fs nodup hplain ih =>
    have hfield := legible_object_iff.1 hlegible
    intro level
    refine .of_succ (.object nodup hplain) fun fuel rest hfuel _ => ?_
    cases fs with
    | nil => rfl
    | cons f fs =>
      have hfields := readFields_block level rest (List.cons_ne_nil f fs) (fun f hf => (hfield f hf).1) hplain
        (fun f hf => ih f hf (hfield f hf).2 (level + 1))
      have hbegins := fields_begins (level + 1) (List.cons_ne_nil f fs) (',' :: lineBreak (level + 1))
      rw [blockChars_object] at hfuel ⊢
      generalize joined (',' :: lineBreak (level + 1)) ((f :: fs).map (fieldChars (level + 1))) = fields
        at hfields hbegins hfuel ⊢
      simp only [List.length_append, List.length_cons] at hfuel
      simp only [List.cons_append, List.append_assoc, List.nil_append]
      rw [readValue_object (hbegins.append _) (hfields fuel (by omega)), ofFields_of_nodup nodup]

/-- A value without loss that can be encoded is read back from the text that is printed for it. -/
theorem readChars_block {v : Value} (h : Plain v) (hlegible : Legible v) : readChars (blockChars 0 v ++ ['\n']) = .ok v := by
  have hbegins := (blockChars_begins 0 h).append ['\n']
  have hmark : ¬ (blockChars 0 v ++ ['\n']).head? = some (Char.ofNat 0xfeff) := by
    generalize blockChars 0 v ++ ['\n'] = cs at hbegins
    cases cs with
    | nil => nofun
    | cons c cs => exact fun heq => hbegins.head_ne (by decide) (Option.some.inj heq)
  have hvalue := returns_of_plain h hlegible 0 (2 * (blockChars 0 v ++ ['\n']).length + 1) ['\n']
    (by rw [List.length_append]; omega) (stops_lineBreak 0 [])
  unfold readChars
  rw [hbegins.skipSpace, hvalue, if_neg hmark]
  rfl

end ScriptTree.Json
