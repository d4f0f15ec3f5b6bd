/-
Texts on one line. Quoted texts and numbers have no line break, and what a terminal does not show of a
text is taken out without touching one: neither their number changes (`count_dropEscapes`,
`count_joinLineEnds`) nor whether the text ends with one.
-/
import ScriptTree.Number.Integer
import ScriptTree.Text.Quoted
import ScriptTree.Proofs.Text.Point
import ScriptTree.Proofs.Text.Terminal

namespace ScriptTree.Text

/-! ## Texts without a line break -/

/-- The text has no line break. -/
def OneLine (ps : Points) : Prop :=
  .char '\n' ∉ ps

instance (ps : Points) : Decidable (OneLine ps) :=
  inferInstanceAs (Decidable (Point.char '\n' ∉ ps))

@[simp]
theorem oneLine_append (ps qs : Points) : OneLine (ps ++ qs) ↔ OneLine ps ∧ OneLine qs := by
  rw [OneLine, List.mem_append, not_or]
  rfl

@[simp]
theorem oneLine_stringAppend (s t : String) : OneLine (Points.ofString (s ++ t)) ↔ OneLine s ∧ OneLine t := by
  rw [Points.ofString_append, oneLine_append]

theorem oneLine_ofString {s : String} : OneLine s ↔ '\n' ∉ s.toList :=
  not_congr Points.mem_ofString

@[simp]
theorem oneLine_toString (s : String) : OneLine (toString s) ↔ OneLine s :=
  Iff.rfl

/-- Of a literal it is decided on its characters: to take them out of a text, its bytes would have to be read first. -/
theorem oneLine_ofList {cs : List Char} : OneLine (String.ofList cs) ↔ '\n' ∉ cs := by
  rw [oneLine_ofString, String.toList_ofList]

theorem hexDigits_ne_lineBreak (width n : Nat) : '\n' ∉ hexDigits width n := by
  have hdigit : ∀ m < 16, '\n' ≠ hexDigit m := by decide
  induction width generalizing n with
  | zero => exact List.not_mem_nil
  | succ width ih =>
    rw [hexDigits, List.mem_append, List.mem_singleton, not_or]
    exact ⟨ih (n / 16), hdigit (n % 16) (Nat.mod_lt n (by decide))⟩

theorem codeEscape_ne_lineBreak (n : Nat) : '\n' ∉ codeEscape n := by
  unfold codeEscape
  split
  · simpa using hexDigits_ne_lineBreak 2 n
  · split
    · simpa using hexDigits_ne_lineBreak 4 n
    · simpa using hexDigits_ne_lineBreak 8 n

/-- A line break is quoted as an escape, and all that stands for other points stands on one line. -/
theorem quotedPoint_oneLine {quote : Char} (hquote : quote ≠ '\n') (p : Point) : '\n' ∉ quotedPoint quote p := by
  cases p with
  | half n => exact codeEscape_ne_lineBreak _
  | char c =>
    rw [quotedPoint, quotedChar]
    split
    · rename_i hc
      simpa [hc] using hquote.symm
    · split
      · decide
      · split
        · decide
        · rename_i hc
          split
          · decide
          · split
            · decide
            · split
              · simpa using Ne.symm hc
              · exact codeEscape_ne_lineBreak _

@[simp]
theorem quoted_oneLine (ps : Points) : OneLine (quoted ps) := by
  have hquote : quoteFor ps.chars ≠ '\n' := by
    unfold quoteFor
    split <;> decide
  have hbody : '\n' ∉ ps.flatMap (quotedPoint (quoteFor ps.chars)) := by
    rw [List.mem_flatMap]
    rintro ⟨p, -, hp⟩
    exact quotedPoint_oneLine hquote p hp
  rw [oneLine_ofString, quoted, String.toList_ofList, quotedChars]
  simp [hquote.symm, hbody]

@[simp]
theorem toString_nat_oneLine (n : Nat) : OneLine (toString n) := by
  have hdigits : '\n' ∉ Nat.toDigits 10 n := by
    intro h
    have hdigit : Char.isDigit '\n' = true := Nat.isDigit_of_mem_toDigits (by decide) (by decide) h
    exact absurd hdigit (by decide)
  rw [oneLine_ofString]
  show '\n' ∉ (Nat.repr n).toList
  rw [Nat.repr, String.toList_ofList]
  exact hdigits

/-! ## What a terminal does not show -/

/-- Line breaks are not dropped with escapes. -/
theorem count_dropEscapes (cs : List Char) : (dropEscapes cs).count '\n' = cs.count '\n' := by
  induction cs using escapeInduction with
  | nil => rfl
  | escape e cs he ih =>
    rw [dropEscapes_escape he, ih, List.count_append, List.count_eq_zero_of_not_mem he.lineFeed_not_mem,
      Nat.zero_add]
  | char c cs hchar ih => rw [dropEscapes_char hchar, List.count_cons, List.count_cons, ih]

/-- Nor is the one at the end. -/
theorem getLast?_dropEscapes {cs : List Char} (h : cs.getLast? = some '\n') :
    (dropEscapes cs).getLast? = some '\n' := by
  induction cs using escapeInduction with
  | nil => cases h
  | escape e cs he ih =>
    rw [dropEscapes_escape he]
    rw [List.getLast?_append, Option.or_eq_some_iff] at h
    rcases h with h | ⟨-, h⟩
    · exact ih h
    · exact absurd (List.mem_of_getLast? h) he.lineFeed_not_mem
  | char c cs hchar ih =>
    rw [dropEscapes_char hchar, List.getLast?_cons]
    cases hlast : cs.getLast? with
    | none =>
      obtain rfl := List.getLast?_eq_none_iff.1 hlast
      exact h
    | some d =>
      rw [List.getLast?_cons, hlast, Option.getD_some] at h
      rw [ih (hlast.trans h), Option.getD_some]

theorem count_joinLineEnds (cs : List Char) : (joinLineEnds cs).count '\n' = cs.count '\n' := by
  fun_induction joinLineEnds cs with
  | case1 cs ih => simp [ih]
  | case2 c cs hpair ih => rw [List.count_cons, List.count_cons, ih]
  | case3 => rfl

theorem getLast?_joinLineEnds (cs : List Char) : (joinLineEnds cs).getLast? = cs.getLast? := by
  fun_induction joinLineEnds cs with
  | case1 cs ih => rw [List.getLast?_cons, ih, List.getLast?_cons_cons, List.getLast?_cons]
  | case2 c cs hpair ih => rw [List.getLast?_cons, List.getLast?_cons, ih]
  | case3 => rfl

section

variable {f : List Char → List Char}

theorem count_half (n : Fin 2048) (ps : Points) :
    (Point.half n :: ps).count (.char '\n') = ps.count (.char '\n') :=
  List.count_cons_of_ne (by simp)

theorem count_mapRunsFrom (hf : ∀ cs, (f cs).count '\n' = cs.count '\n') (run : List Char) (ps : Points) :
    (Points.mapRunsFrom f run ps).count (.char '\n') = run.count '\n' + ps.count (.char '\n') := by
  have hchars : ∀ cs, (Points.ofChars cs).count (.char '\n') = cs.count '\n' := fun cs =>
    List.count_map_of_injective cs Point.char (fun _ _ => Point.char.inj) '\n'
  induction ps generalizing run with
  | nil => rw [Points.mapRunsFrom, hchars, hf, List.count_reverse, List.count_nil, Nat.add_zero]
  | cons p ps ih =>
    cases p with
    | char c =>
      rw [Points.mapRunsFrom, ih, List.count_cons, List.count_cons, Nat.add_assoc, Nat.add_comm (ps.count _)]
      congr 2
      simp
    | half n =>
      rw [Points.mapRunsFrom, List.count_append, hchars, hf, List.count_reverse, count_half, count_half, ih,
        List.count_nil, Nat.zero_add]

theorem getLast?_mapRunsFrom (hf : ∀ {cs}, cs.getLast? = some '\n' → (f cs).getLast? = some '\n') (run : List Char)
    {ps : Points} (h : ps.getLast? = some (.char '\n')) :
    (Points.mapRunsFrom f run ps).getLast? = some (.char '\n') := by
  obtain ⟨front, rfl⟩ := List.getLast?_eq_some_iff.1 h
  clear h
  induction front generalizing run with
  | nil =>
    have hlast : (f ('\n' :: run).reverse).getLast? = some '\n' := hf (by rw [List.reverse_cons, List.getLast?_concat])
    rw [List.nil_append, Points.mapRunsFrom, Points.mapRunsFrom, Points.ofChars, List.getLast?_map, hlast]
    rfl
  | cons p front ih =>
    cases p with
    | char c => exact ih (c :: run)
    | half n => rw [List.cons_append, Points.mapRunsFrom, List.getLast?_append, List.getLast?_cons, ih]; rfl

end

/-! ## Escapes for halves -/

theorem count_escaped (ps : Points) : ps.escaped.toList.count '\n' = ps.count (.char '\n') := by
  rw [Points.escaped, String.toList_ofList]
  induction ps with
  | nil => rfl
  | cons p ps ih =>
    rw [List.flatMap_cons, List.count_append, ih]
    cases p with
    | char c => rw [List.count_singleton, List.count_cons, Nat.add_comm]; simp
    | half n =>
      rw [count_half]
      exact (congrArg (· + _) (List.count_eq_zero_of_not_mem (codeEscape_ne_lineBreak _))).trans (Nat.zero_add _)

theorem getLast?_escaped {ps : Points} (h : ps.getLast? = some (.char '\n')) :
    ps.escaped.toList.getLast? = some '\n' := by
  obtain ⟨front, rfl⟩ := List.getLast?_eq_some_iff.1 h
  rw [Points.escaped, String.toList_ofList, List.flatMap_append, List.flatMap_singleton, List.getLast?_concat]

/-- The text is a line: it has one line break, at its end. -/
def IsLine (s : String) : Prop :=
  s.toList.count '\n' = 1 ∧ s.toList.getLast? = some '\n'

instance (s : String) : Decidable (IsLine s) :=
  inferInstanceAs (Decidable (_ ∧ _))

end ScriptTree.Text
