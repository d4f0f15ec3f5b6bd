/-
Where a reading step ends. What a step has not yet read is an end of the text it was given, and a
whole number is refused only where its text holds that number's digits in a row. Hence a text without
a run of more digits than the limit is read, or refused for a fault at a position.
-/
import ScriptTree.Json.Reader
import Mathlib

namespace ScriptTree.Json

/-! ## Runs of digits -/

/-- The text holds `n` digits in a row. -/
def HasRun (n : Nat) (cs : List Char) : Prop :=
  ∃ ds, ds.length = n ∧ (∀ c ∈ ds, c.isDigit = true) ∧ ds <:+: cs

theorem HasRun.of_part {n : Nat} {cs cs' : List Char} (h : HasRun n cs) (hin : cs <:+: cs') :
    HasRun n cs' := by
  obtain ⟨ds, hlen, hdigits, hds⟩ := h
  exact ⟨ds, hlen, hdigits, hds.trans hin⟩

/-- A step on a text: the rest is an end of the text, and a number with too many digits is in it. -/
def Within {α : Type} (cs : List Char) : Read α → Prop
  | .ok (_, rest) => rest <:+ cs
  | .error (.fault _ _) => True
  | .error (.integerTooLong n) => Integer.digitLimit < n ∧ HasRun n cs

section

variable {α β : Type} {cs cs' : List Char}

theorem Within.of_suffix {r : Read α} (h : Within cs' r) (hs : cs' <:+ cs) : Within cs r := by
  match r with
  | .ok (_, rest) => exact List.IsSuffix.trans h hs
  | .error (.fault _ _) => trivial
  | .error (.integerTooLong n) => exact ⟨h.1, h.2.of_part hs.isInfix⟩

/-- A refusal is passed on. -/
theorem Within.error {e : Refusal} (h : Within cs (.error e : Read α)) : Within cs (.error e : Read β) := by
  cases e with
  | fault f remaining => trivial
  | integerTooLong n => exact h

theorem within_fault (fault : Fault) (remaining : Nat) :
    Within cs (.error (.fault fault remaining) : Read α) := trivial

end

/-! ## The parts of a number -/

theorem skipSpace_suffix (cs : List Char) : skipSpace cs <:+ cs :=
  List.dropWhile_suffix _

theorem spanDigits_suffix (cs : List Char) : (spanDigits cs).2 <:+ cs :=
  List.dropWhile_suffix _

/-- The digits at the start of a text are a run. -/
theorem spanDigits_run (cs : List Char) : HasRun (spanDigits cs).1.length cs :=
  ⟨_, rfl, fun _ hc => List.mem_takeWhile_imp hc, (List.takeWhile_prefix _).isInfix⟩

theorem readFraction_suffix (cs : List Char) : (readFraction cs).2 <:+ cs := by
  unfold readFraction
  split
  · split
    · exact (spanDigits_suffix _).trans (List.suffix_cons _ _)
    · exact List.suffix_refl _
  · exact List.suffix_refl _

theorem splitSign_suffix (cs : List Char) : (Integer.splitSign cs).2 <:+ cs := by
  unfold Integer.splitSign
  split
  · exact List.suffix_cons _ _
  · exact List.suffix_cons _ _
  · exact List.suffix_refl _

theorem readExponent_suffix (cs : List Char) : (readExponent cs).2 <:+ cs := by
  unfold readExponent
  split
  · rename_i e rest
    split
    · have hdigits := spanDigits_suffix (Integer.splitSign rest).2
      dsimp only
      split
      · exact List.suffix_refl _
      · rename_i ds after heq
        rw [heq] at hdigits
        exact (hdigits.trans (splitSign_suffix rest)).trans (List.suffix_cons _ _)
    · exact List.suffix_refl _
  · exact List.suffix_refl _

/-- The whole part of a number and what follows it. -/
theorem wholePart (d : Char) (rest : List Char) :
    HasRun (if d = '0' then (['0'], rest) else spanDigits (d :: rest)).1.length (d :: rest) ∧
      (if d = '0' then (['0'], rest) else spanDigits (d :: rest)).2 <:+ d :: rest := by
  split
  · rename_i hd
    subst hd
    refine ⟨⟨['0'], rfl, fun c hc => ?_, ⟨[], rest, rfl⟩⟩, List.suffix_cons _ _⟩
    rw [List.mem_singleton.1 hc]
    rfl
  · exact ⟨spanDigits_run _, spanDigits_suffix _⟩

theorem readNumber_within {negative : Bool} {cs : List Char} {r : Read Value}
    (h : readNumber negative cs = some r) : Within cs r := by
  unfold readNumber at h
  split at h
  · cases h
  · rename_i d rest
    split at h
    · cases h
    · obtain ⟨hrun, hwhole⟩ := wholePart d rest
      dsimp only at h
      generalize (if d = '0' then (['0'], rest) else spanDigits (d :: rest)) = part at h hrun hwhole
      have hrest := ((readExponent_suffix _).trans (readFraction_suffix part.2)).trans hwhole
      cases h
      split
      · split
        · rename_i hlong
          exact ⟨hlong, hrun⟩
        · exact hrest
      · exact hrest

theorem readNumber_getD_within (negative : Bool) (cs : List Char) (fault : Fault) (remaining : Nat) :
    Within cs ((readNumber negative cs).getD (.error (.fault fault remaining))) := by
  cases h : readNumber negative cs with
  | none => exact within_fault fault remaining
  | some r => exact readNumber_within h

/-! ## Strings and words -/

theorem readCodeEscape_within (cs : List Char) : Within cs (readCodeEscape cs) := by
  have four : ∀ (a b c d : Char) (rest : List Char), rest <:+ a :: b :: c :: d :: rest :=
    fun a b c d rest => ⟨[a, b, c, d], rfl⟩
  unfold readCodeEscape
  split
  · rename_i a b c d rest
    split
    · trivial
    · trivial
    · split
      · split
        · rename_i e f g h more _
          have six : more <:+ '\\' :: 'u' :: e :: f :: g :: h :: more := ⟨['\\', 'u', e, f, g, h], rfl⟩
          split
          · exact four a b c d _
          · split
            · trivial
            · split
              · exact six.trans (four a b c d _)
              · exact four a b c d _
        · exact four a b c d _
      · exact four a b c d _
  · trivial

theorem readString_within (opening : Nat) (cs : List Char) : Within cs (readString opening cs) := by
  fun_induction readString opening cs with
  | case1 => trivial
  | case2 rest => exact List.suffix_cons _ _
  | case3 => trivial
  | case4 more e h =>
    have hescape := readCodeEscape_within more
    rw [h] at hescape
    exact hescape.error.of_suffix ⟨['\\', 'u'], rfl⟩
  | case5 more c after h hlt s tail hrest ih =>
    have hescape := readCodeEscape_within more
    rw [h] at hescape
    rw [hrest] at ih
    exact (List.IsSuffix.trans ih hescape).trans ⟨['\\', 'u'], rfl⟩
  | case6 more c after h hlt e hrest ih =>
    have hescape := readCodeEscape_within more
    rw [h] at hescape
    rw [hrest] at ih
    exact ih.error.of_suffix (List.IsSuffix.trans hescape ⟨['\\', 'u'], rfl⟩)
  | case7 => trivial
  | case8 e more hne c hc s tail hrest ih =>
    rw [hrest] at ih
    exact List.IsSuffix.trans ih ⟨['\\', e], rfl⟩
  | case9 e more hne c hc e' hrest ih =>
    rw [hrest] at ih
    exact ih.error.of_suffix ⟨['\\', e], rfl⟩
  | case10 => trivial
  | case11 c rest hquote hslash hlow s tail hrest ih =>
    rw [hrest] at ih
    exact List.IsSuffix.trans ih (List.suffix_cons _ _)
  | case12 c rest hquote hslash hlow e hrest ih =>
    rw [hrest] at ih
    exact ih.error.of_suffix (List.suffix_cons _ _)

theorem dropWord?_suffix {word cs rest : List Char} (h : dropWord? word cs = some rest) : rest <:+ cs := by
  unfold dropWord? at h
  split at h
  · cases h
    exact List.drop_suffix _ _
  · cases h

theorem readAtom_within (cs : List Char) : Within cs (readAtom cs) := by
  unfold readAtom
  dsimp only
  split
  · split
    · rename_i hword
      exact dropWord?_suffix hword
    · exact (readNumber_getD_within true _ _ _).of_suffix (List.suffix_cons _ _)
  all_goals first
    | exact readNumber_getD_within false _ _ _
    | split
      · rename_i hword
        exact dropWord?_suffix hword
      · exact within_fault _ _

/-! ## Values -/

theorem readValue_within_of {fuel : Nat} (hitems : ∀ cs, Within cs (readItems fuel cs))
    (hfields : ∀ cs, Within cs (readFields fuel cs)) (cs : List Char) :
    Within cs (readValue (fuel + 1) cs) := by
  rw [readValue.eq_def]
  dsimp only
  split
  · -- a string
    rename_i rest
    have hstring := readString_within ('"' :: rest).length rest
    split <;> rename_i heq <;> rw [heq] at hstring
    · exact List.IsSuffix.trans hstring (List.suffix_cons _ _)
    · exact hstring.error.of_suffix (List.suffix_cons _ _)
  · -- a list
    rename_i rest
    have hspace : skipSpace rest <:+ '[' :: rest := (skipSpace_suffix rest).trans (List.suffix_cons _ _)
    split
    · rename_i after heq
      rw [heq] at hspace
      exact (List.suffix_cons _ _).trans hspace
    · have hlist := (hitems (skipSpace rest)).of_suffix hspace
      split <;> rename_i heq <;> rw [heq] at hlist
      · exact hlist
      · exact hlist.error
  · -- an object
    rename_i rest
    have hspace : skipSpace rest <:+ '\x7b' :: rest := (skipSpace_suffix rest).trans (List.suffix_cons _ _)
    split
    · rename_i after heq
      rw [heq] at hspace
      exact (List.suffix_cons _ _).trans hspace
    · have hobject := (hfields (skipSpace rest)).of_suffix hspace
      split <;> rename_i heq <;> rw [heq] at hobject
      · exact hobject
      · exact hobject.error
  · exact readAtom_within cs

theorem readItems_within_of {fuel : Nat} (hvalue : ∀ cs, Within cs (readValue fuel cs))
    (hitems : ∀ cs, Within cs (readItems fuel cs)) (cs : List Char) :
    Within cs (readItems (fuel + 1) cs) := by
  rw [readItems.eq_def]
  dsimp only
  have hfirst := hvalue cs
  split <;> rename_i heq <;> rw [heq] at hfirst
  · exact hfirst.error
  · rename_i x rest
    have hspace : skipSpace rest <:+ cs := (skipSpace_suffix rest).trans hfirst
    split
    · rename_i after hnext
      rw [hnext] at hspace
      exact (List.suffix_cons _ _).trans hspace
    · rename_i after hnext
      rw [hnext] at hspace
      have hmore := (hitems (skipSpace after)).of_suffix
        ((skipSpace_suffix after).trans ((List.suffix_cons _ _).trans hspace))
      split <;> rename_i hlast <;> rw [hlast] at hmore
      · exact hmore
      · exact hmore.error
    · trivial

theorem readFields_within_of {fuel : Nat} (hvalue : ∀ cs, Within cs (readValue fuel cs))
    (hfields : ∀ cs, Within cs (readFields fuel cs)) (cs : List Char) :
    Within cs (readFields (fuel + 1) cs) := by
  rw [readFields.eq_def]
  dsimp only
  split
  · rename_i rest
    have hkey := (readString_within ('"' :: rest).length rest).of_suffix (List.suffix_cons '"' rest)
    split <;> rename_i heq <;> rw [heq] at hkey
    · exact hkey.error
    · rename_i key rest
      have hcolon := (skipSpace_suffix rest).trans hkey
      split
      · rename_i after hnext
        rw [hnext] at hcolon
        have hmember := (hvalue (skipSpace after)).of_suffix
          ((skipSpace_suffix after).trans ((List.suffix_cons _ _).trans hcolon))
        split <;> rename_i hv <;> rw [hv] at hmember
        · exact hmember.error
        · rename_i v behind
          have hend := (skipSpace_suffix behind).trans hmember
          split
          · rename_i last hlast
            rw [hlast] at hend
            exact (List.suffix_cons _ _).trans hend
          · rename_i last hlast
            rw [hlast] at hend
            have hmore := (hfields (skipSpace last)).of_suffix
              ((skipSpace_suffix last).trans ((List.suffix_cons _ _).trans hend))
            split <;> rename_i hrest <;> rw [hrest] at hmore
            · exact hmore
            · exact hmore.error
          · trivial
      · trivial
  · trivial

/-- The three readers call each other with one unit of fuel less, so they are taken together. -/
theorem readers_within (fuel : Nat) :
    (∀ cs, Within cs (readValue fuel cs)) ∧ (∀ cs, Within cs (readItems fuel cs)) ∧
      ∀ cs, Within cs (readFields fuel cs) := by
  induction fuel with
  | zero =>
    refine ⟨fun cs => ?_, fun cs => ?_, fun cs => ?_⟩
    · rw [readValue]
      trivial
    · rw [readItems]
      trivial
    · rw [readFields]
      trivial
  | succ fuel ih =>
    obtain ⟨hvalue, hitems, hfields⟩ := ih
    exact ⟨readValue_within_of hitems hfields, readItems_within_of hvalue hitems,
      readFields_within_of hvalue hfields⟩

/-- A text that is refused for a number with `n` digits holds `n` digits in a row, and they are
beyond the limit. -/
theorem hasRun_of_integerTooLong {cs : List Char} {n : Nat} (h : readChars cs = .error (.integerTooLong n)) :
    Integer.digitLimit < n ∧ HasRun n cs := by
  have hvalue := ((readers_within (2 * cs.length + 1)).1 (skipSpace cs)).of_suffix (skipSpace_suffix cs)
  unfold readChars at h
  dsimp only at h
  split at h
  · cases h
  · split at h <;> rename_i heq <;> rw [heq] at hvalue
    · rename_i e
      cases e with
      | fault fault remaining => cases h
      | integerTooLong digits =>
        cases h
        exact hvalue
    · split at h <;> cases h

end ScriptTree.Json
