/-
Reading a text that goes on. A value that is read from a text is also read with more fuel, and from the text with
a comma or a closing bracket behind it, whatever follows that (`readValue_extends`).
-/
import ScriptTree.Proofs.Json.RoundTrip

namespace ScriptTree.Json

/-- What comes behind a value: nothing, or what does so inside a list or an object. -/
def Closes : List Char → Prop
  | [] => True
  | c :: _ => c = ',' ∨ c = ']' ∨ c = '\x7d'

theorem closes_nil : Closes [] := trivial

theorem closes_comma (cs : List Char) : Closes (',' :: cs) := .inl rfl

theorem closes_bracket (cs : List Char) : Closes (']' :: cs) := .inr (.inl rfl)

theorem closes_brace (cs : List Char) : Closes ('\x7d' :: cs) := .inr (.inr rfl)

/-! ## Numbers and words -/

theorem skipSpace_append {more : List Char} (hmore : skipSpace more = more) (cs : List Char) :
    skipSpace (cs ++ more) = skipSpace cs ++ more := by
  induction cs with
  | nil => exact hmore
  | cons c cs ih =>
    unfold skipSpace at ih ⊢
    rw [List.cons_append, List.dropWhile_cons, List.dropWhile_cons]
    split
    · exact ih
    · rfl

theorem dropWord?_extends {word cs rest : List Char} (h : dropWord? word cs = some rest) (more : List Char) :
    dropWord? word (cs ++ more) = some (rest ++ more) := by
  unfold dropWord? at h ⊢
  split at h <;> cases h
  rename_i hin
  obtain ⟨tail, rfl⟩ := List.isPrefixOf_iff_prefix.1 hin
  simp

theorem numberOr_head {negative : Bool} {cs : List Char} {e : Refusal} {v : Value} {rest : List Char}
    (h : (readNumber negative cs).getD (.error e) = .ok (v, rest)) :
    ∃ d tail, cs = d :: tail ∧ d.isDigit = true := by
  cases cs with
  | nil => cases h
  | cons d tail =>
    refine ⟨d, tail, rfl, ?_⟩
    by_contra hd
    rw [readNumber, if_pos (by simp [hd])] at h
    cases h

section

variable {more : List Char} (hmore : Closes more)

include hmore

theorem Closes.eq_nil_or_cons : more = [] ∨ ∃ c tail, more = c :: tail ∧ (c = ',' ∨ c = ']' ∨ c = '\x7d') := by
  cases more with
  | nil => exact .inl rfl
  | cons c tail => exact .inr ⟨c, tail, rfl, hmore⟩

theorem Closes.stops : Stops more := by
  obtain rfl | ⟨c, tail, rfl, rfl | rfl | rfl⟩ := hmore.eq_nil_or_cons
  · trivial
  all_goals exact ⟨rfl, by decide, by decide, by decide⟩

theorem Closes.skipSpace : skipSpace more = more := by
  obtain rfl | ⟨c, tail, rfl, rfl | rfl | rfl⟩ := hmore.eq_nil_or_cons <;> rfl

theorem skipSpace_extends (cs : List Char) : skipSpace (cs ++ more) = skipSpace cs ++ more :=
  skipSpace_append hmore.skipSpace cs

theorem spanDigits_extends (cs : List Char) :
    spanDigits (cs ++ more) = ((spanDigits cs).1, (spanDigits cs).2 ++ more) := by
  induction cs with
  | nil => exact spanDigits_append (List.forall_mem_nil _) hmore.stops
  | cons c cs ih =>
    obtain ⟨hfirst, hrest⟩ := Prod.mk.inj ih
    unfold spanDigits at hfirst hrest ⊢
    rw [List.cons_append, List.takeWhile_cons, List.dropWhile_cons, List.takeWhile_cons, List.dropWhile_cons]
    split
    · rw [hfirst, hrest]
    · rfl

theorem readFraction_extends (cs : List Char) :
    readFraction (cs ++ more) = ((readFraction cs).1, (readFraction cs).2 ++ more) := by
  cases cs with
  | nil => exact readFraction_stops hmore.stops
  | cons p cs =>
    by_cases hpoint : p = '.'
    · subst hpoint
      cases cs with
      | nil =>
        obtain rfl | ⟨c, tail, rfl, -⟩ := hmore.eq_nil_or_cons
        · rfl
        · have hdigit : c.isDigit = false := hmore.stops.1
          simp [readFraction, hdigit]
      | cons d cs =>
        have hdigits := spanDigits_extends hmore (d :: cs)
        simp only [List.cons_append, readFraction] at hdigits ⊢
        split
        · rw [hdigits]
        · rfl
    · have hother : ∀ rest, readFraction (p :: rest) = (none, p :: rest) := by
        intro rest
        unfold readFraction
        split
        · rename_i heq
          exact absurd (List.cons.inj heq).1 hpoint
        · rfl
      rw [List.cons_append, hother, hother]
      rfl

theorem splitSign_extends (cs : List Char) :
    Integer.splitSign (cs ++ more) = ((Integer.splitSign cs).1, (Integer.splitSign cs).2 ++ more) := by
  cases cs with
  | nil => obtain rfl | ⟨c, tail, rfl, rfl | rfl | rfl⟩ := hmore.eq_nil_or_cons <;> rfl
  | cons c cs =>
    rw [List.cons_append]
    unfold Integer.splitSign
    split <;> rename_i heq <;> simp_all

theorem readExponent_extends (cs : List Char) :
    readExponent (cs ++ more) = ((readExponent cs).1, (readExponent cs).2 ++ more) := by
  cases cs with
  | nil => exact readExponent_stops hmore.stops
  | cons c cs =>
    simp only [List.cons_append, readExponent, splitSign_extends hmore, spanDigits_extends hmore]
    split
    · generalize spanDigits (Integer.splitSign cs).2 = digits
      obtain ⟨ds, rest⟩ := digits
      cases ds <;> rfl
    · rfl

theorem readNumber_extends (negative : Bool) (cs : List Char) :
    readNumber negative (cs ++ more) =
      (readNumber negative cs).map (Except.map fun read => (read.1, read.2 ++ more)) := by
  cases cs with
  | nil =>
    obtain rfl | ⟨c, tail, rfl, -⟩ := hmore.eq_nil_or_cons
    · rfl
    · have hdigit : c.isDigit = false := hmore.stops.1
      simp [readNumber, hdigit]
  | cons d cs =>
    have hdigits := spanDigits_extends hmore (d :: cs)
    rw [List.cons_append] at hdigits ⊢
    have hwhole : (if d = '0' then (['0'], cs ++ more) else spanDigits (d :: (cs ++ more))) =
        ((if d = '0' then (['0'], cs) else spanDigits (d :: cs)).1,
          (if d = '0' then (['0'], cs) else spanDigits (d :: cs)).2 ++ more) := by
      rw [hdigits]
      split <;> rfl
    simp only [readNumber, hwhole, readFraction_extends hmore, readExponent_extends hmore]
    generalize (if d = '0' then (['0'], cs) else spanDigits (d :: cs)) = whole
    split
    · rfl
    · rw [Option.map_some, Option.some.injEq]
      split
      · split <;> rfl
      · rfl

theorem numberOr_extends {negative : Bool} {cs : List Char} {e : Refusal} {v : Value} {rest : List Char}
    (h : (readNumber negative cs).getD (.error e) = .ok (v, rest)) (e' : Refusal) :
    (readNumber negative (cs ++ more)).getD (.error e') = .ok (v, rest ++ more) := by
  rw [readNumber_extends hmore]
  cases hr : readNumber negative cs with
  | none =>
    rw [hr] at h
    cases h
  | some r =>
    rw [hr] at h
    cases h
    rfl

theorem readAtom_extends {cs : List Char} {v : Value} {rest : List Char} (h : readAtom cs = .ok (v, rest)) :
    readAtom (cs ++ more) = .ok (v, rest ++ more) := by
  unfold readAtom at h
  dsimp only at h
  split at h
  case h_7 =>
    obtain ⟨d, tail, rfl, hd⟩ := numberOr_head h
    rw [List.cons_append, readAtom_digit hd]
    exact numberOr_extends hmore h _
  · split at h
    · cases h
      rename_i hword
      have hlonger := dropWord?_extends hword more
      unfold readAtom
      simp only [List.cons_append] at hlonger ⊢
      rw [hlonger]
    · obtain ⟨d, tail, rfl, hd⟩ := numberOr_head h
      rw [List.cons_append, List.cons_append, readAtom_minus hd]
      exact numberOr_extends hmore h _
  all_goals
    split at h <;> cases h
    rename_i hword
    have hlonger := dropWord?_extends hword more
    unfold readAtom
    simp only [List.cons_append] at hlonger ⊢
    rw [hlonger]

end

/-! ## Strings -/

/-- Half a surrogate pair is read alone where the escape behind it is cut short, but the string then is not. -/
theorem readString_cut (opening : Nat) {cs : List Char} (h : cs.length ≤ 4) {r : Points × List Char} :
    readString opening ('\\' :: 'u' :: cs) ≠ .ok r := by
  have hescape : ∃ e, readCodeEscape cs = .error e := by
    unfold readCodeEscape
    split
    · rename_i a b c d rest
      have hrest : rest = [] := List.eq_nil_of_length_eq_zero (by simp only [List.length_cons] at h; omega)
      subst hrest
      cases hexFour? a b c d <;> exact ⟨_, rfl⟩
    · exact ⟨_, rfl⟩
  obtain ⟨e, he⟩ := hescape
  intro hok
  rw [readString] at hok
  split at hok
  · cases hok
  · rename_i heq
    rw [he] at heq
    cases heq

/-- The escape behind a half pair is not cut in two by the end of the text, since the string goes on to its end. -/
theorem exists_escape_of_readString {opening : Nat} {cs : List Char} {r : Points × List Char}
    (h : readString opening cs = .ok r) {more behind : List Char} {e f g k : Char}
    (hescape : cs ++ more = '\\' :: 'u' :: e :: f :: g :: k :: behind) :
    ∃ e f g k behind, cs = '\\' :: 'u' :: e :: f :: g :: k :: behind := by
  rcases cs with _ | ⟨b, _ | ⟨u, cs⟩⟩
  · rw [readString] at h
    cases h
  · obtain ⟨rfl, -⟩ := List.cons.inj hescape
    simp [readString] at h
  · obtain ⟨rfl, htail⟩ := List.cons.inj hescape
    obtain ⟨rfl, -⟩ := List.cons.inj htail
    have hlength : ¬ cs.length ≤ 4 := fun hlength => readString_cut opening hlength h
    rcases cs with _ | ⟨e, _ | ⟨f, _ | ⟨g, _ | ⟨k, behind⟩⟩⟩⟩
    case cons.cons.cons.cons => exact ⟨e, f, g, k, behind, rfl⟩
    all_goals exact (hlength (by simp)).elim

theorem readCodeEscape_extends {cs : List Char} {p : Point} {rest : List Char}
    (h : readCodeEscape cs = .ok (p, rest)) {opening : Nat} {r : Points × List Char}
    (hrest : readString opening rest = .ok r) (more : List Char) :
    readCodeEscape (cs ++ more) = .ok (p, rest ++ more) := by
  unfold readCodeEscape at h
  split at h
  · rename_i x y z w tail
    split at h
    · cases h
    · cases h
    · rename_i n hn htail
      obtain ⟨t, tail, rfl⟩ := List.exists_cons_of_ne_nil htail
      split at h
      · rename_i hhigh
        split at h
        · -- the other half of the pair follows
          rename_i e f g k behind htail
          cases htail
          cases behind with
          | nil =>
            cases h
            exact absurd hrest (readString_cut opening (by simp))
          | cons b behind =>
            simp only [List.isEmpty_cons, Bool.false_eq_true, if_false] at h
            split at h
            · cases h
            · rename_i m hm
              split at h <;> rename_i hlow
              all_goals
                simp only [Except.ok.injEq, Prod.mk.injEq] at h
                obtain ⟨rfl, rfl⟩ := h
                simp only [List.cons_append, readCodeEscape, hn, hhigh, hm, hlow, List.isEmpty_cons,
                  Bool.false_eq_true, if_true, if_false]
        · rename_i hother
          cases h
          simp only [List.cons_append, readCodeEscape, hn, hhigh, if_true]
          split
          · -- the pair would be complete with what comes behind the text only
            rename_i heq
            obtain ⟨e, f, g, k, behind, hpair⟩ := exists_escape_of_readString hrest heq
            exact (hother e f g k behind hpair).elim
          · rfl
      · cases h
        rename_i hhigh
        simp [readCodeEscape, hn, hhigh]
  · cases h

theorem readString_extends {opening : Nat} {cs rest : List Char} {s : Points} (h : readString opening cs = .ok (s, rest))
    (opening' : Nat) (more : List Char) : readString opening' (cs ++ more) = .ok (s, rest ++ more) := by
  fun_induction readString opening cs generalizing s with
  | case2 cs =>
    cases h
    rw [List.cons_append, readString]
  | case5 cs c after hescape hlt s' tail hafter ih =>
    cases h
    exact readString_escape (ih hafter) (readCodeEscape_extends hescape hafter more)
  | case8 e cs hne c hc s' tail hcs ih =>
    cases h
    exact readString_short (ih hcs) hc
  | case11 c cs hquote hslash hlow s' tail hcs ih =>
    cases h
    exact readString_plain (ih hcs) hquote hslash hlow
  | case1 => cases h
  | case3 => cases h
  | case4 => cases h
  | case6 => cases h
  | case7 => cases h
  | case9 => cases h
  | case10 => cases h
  | case12 => cases h

/-! ## Values -/

/-- The second step reads what the first one does, and leaves `more` behind it. -/
def Extends {α : Type} (more : List Char) (r r' : Read α) : Prop :=
  ∀ x rest, r = .ok (x, rest) → r' = .ok (x, rest ++ more)

section

variable {more : List Char} (hmore : Closes more) {fuel fuel' : Nat}

include hmore

theorem readValue_extends_of
    (hitems : ∀ cs, Extends more (readItems fuel cs) (readItems fuel' (cs ++ more)))
    (hfields : ∀ cs, Extends more (readFields fuel cs) (readFields fuel' (cs ++ more))) (cs : List Char) :
    Extends more (readValue (fuel + 1) cs) (readValue (fuel' + 1) (cs ++ more)) := by
  intro v rest h
  rw [readValue.eq_def] at h
  dsimp only at h
  split at h
  · split at h <;> cases h
    rename_i hstring
    rw [List.cons_append, readValue, readString_extends hstring _ more]
  · rename_i cs
    split at h
    · rename_i hclosed
      cases h
      rw [List.cons_append, readValue, skipSpace_extends hmore, hclosed]
      rfl
    · split at h <;> cases h
      rename_i hlist
      rw [List.cons_append]
      refine readValue_items ?_
      rw [skipSpace_extends hmore]
      exact hitems _ _ _ hlist
  · rename_i cs
    split at h
    · rename_i hclosed
      cases h
      rw [List.cons_append, readValue, skipSpace_extends hmore, hclosed]
      rfl
    · split at h <;> cases h
      rename_i hobject
      rw [List.cons_append]
      refine readValue_fields ?_
      rw [skipSpace_extends hmore]
      exact hfields _ _ _ hobject
  · rename_i hquote hlist hobject
    have hatom := readAtom_extends hmore h
    cases cs with
    | nil => cases h
    | cons c cs =>
      have hother : ∀ b : Char, (∀ tail, c :: cs = b :: tail → False) → ((c :: cs) ++ more).head? ≠ some b := by
        rintro b hb ⟨⟩
        exact hb cs rfl
      rw [readValue_atom (hother _ hquote) (hother _ hlist) (hother _ hobject), hatom]

theorem readItems_extends_of
    (hvalue : ∀ cs, Extends more (readValue fuel cs) (readValue fuel' (cs ++ more)))
    (hitems : ∀ cs, Extends more (readItems fuel cs) (readItems fuel' (cs ++ more))) (cs : List Char) :
    Extends more (readItems (fuel + 1) cs) (readItems (fuel' + 1) (cs ++ more)) := by
  intro xs rest h
  rw [readItems.eq_def] at h
  dsimp only at h
  split at h
  · cases h
  · rename_i x behind hfirst
    have hnext := skipSpace_extends hmore behind
    split at h
    · rename_i hclosed
      cases h
      rw [hclosed] at hnext
      exact readItems_last (hvalue _ _ _ hfirst) hnext
    · rename_i after hcomma
      split at h <;> cases h
      rename_i hlast
      rw [hcomma, List.cons_append] at hnext
      refine readItems_more (hvalue _ _ _ hfirst) hnext ?_
      rw [skipSpace_extends hmore]
      exact hitems _ _ _ hlast
    · cases h

theorem readFields_extends_of
    (hvalue : ∀ cs, Extends more (readValue fuel cs) (readValue fuel' (cs ++ more)))
    (hfields : ∀ cs, Extends more (readFields fuel cs) (readFields fuel' (cs ++ more))) (cs : List Char) :
    Extends more (readFields (fuel + 1) cs) (readFields (fuel' + 1) (cs ++ more)) := by
  intro fs rest h
  rw [readFields.eq_def] at h
  dsimp only at h
  split at h
  · rename_i cs
    split at h
    · cases h
    · rename_i key behind hkey
      have hkey' := readString_extends hkey ('"' :: (cs ++ more)).length more
      split at h
      · rename_i after hcolon
        have hcolon' := skipSpace_extends hmore behind
        rw [hcolon, List.cons_append] at hcolon'
        split at h
        · cases h
        · rename_i v end' hv
          have hv' := hvalue _ _ _ hv
          rw [← skipSpace_extends hmore] at hv'
          have hnext := skipSpace_extends hmore end'
          split at h
          · rename_i hclosed
            cases h
            rw [hclosed] at hnext
            exact readFields_last hkey' hcolon' hv' hnext
          · rename_i next hcomma
            split at h <;> cases h
            rename_i hlast
            rw [hcomma, List.cons_append] at hnext
            refine readFields_more hkey' hcolon' hv' hnext ?_
            rw [skipSpace_extends hmore]
            exact hfields _ _ _ hlast
          · cases h
      · cases h
  · cases h

/-- The three readers call each other with one unit of fuel less, so they are taken together. -/
theorem readers_extend (fuel : Nat) : ∀ fuel', fuel ≤ fuel' →
    (∀ cs, Extends more (readValue fuel cs) (readValue fuel' (cs ++ more))) ∧
      (∀ cs, Extends more (readItems fuel cs) (readItems fuel' (cs ++ more))) ∧
      ∀ cs, Extends more (readFields fuel cs) (readFields fuel' (cs ++ more)) := by
  induction fuel with
  | zero =>
    refine fun fuel' _ => ⟨fun cs v rest h => ?_, fun cs xs rest h => ?_, fun cs fs rest h => ?_⟩
    · rw [readValue] at h
      cases h
    · rw [readItems] at h
      cases h
    · rw [readFields] at h
      cases h
  | succ fuel ih =>
    intro fuel' hle
    obtain ⟨fuel', rfl⟩ : ∃ f, fuel' = f + 1 := ⟨fuel' - 1, by omega⟩
    obtain ⟨hvalue, hitems, hfields⟩ := ih fuel' (by omega)
    exact ⟨readValue_extends_of hmore hitems hfields, readItems_extends_of hmore hvalue hitems,
      readFields_extends_of hmore hvalue hfields⟩

/-- What is read as a value is read as the same value with more fuel, and where a comma or a closing bracket comes
behind it. -/
theorem readValue_extends (hle : fuel ≤ fuel') {cs : List Char} {v : Value} {rest : List Char}
    (h : readValue fuel cs = .ok (v, rest)) : readValue fuel' (cs ++ more) = .ok (v, rest ++ more) :=
  (readers_extend hmore fuel fuel' hle).1 cs v rest h

end

end ScriptTree.Json
