/-
Texts put together. The texts of some values in brackets, with commas between them, are read as their list
(`isText_list`), and those of keys and values in braces as the object with these fields (`isText_object`). White
space belongs to the texts of the parts, so it may stand around each of them. Under each key an object has the
value that comes last with it (`field?_ofFields`).
-/
import ScriptTree.Proofs.Json.Extension

namespace ScriptTree.Json

/-! ## Texts of parts -/

/-- The whole text is read as the value. -/
def IsText (cs : List Char) (v : Value) : Prop :=
  readChars cs = .ok v

/-- The texts of a field are those of its key and its value. -/
def IsField (part : List Char × List Char) (f : Points × Value) : Prop :=
  IsText part.1 (.text f.1) ∧ IsText part.2 f.2

/-- A list with the given texts of its items. -/
def listText (ts : List (List Char)) : List Char :=
  '[' :: (joined [','] ts ++ [']'])

/-- A field with the given texts of its key and its value. -/
def fieldText (part : List Char × List Char) : List Char :=
  part.1 ++ ':' :: part.2

/-- An object with the given texts of its fields. -/
def objectText (parts : List (List Char × List Char)) : List Char :=
  '\x7b' :: (joined [','] (parts.map fieldText) ++ ['\x7d'])

theorem isText_of_readValue {c : Char} {cs : List Char} {v : Value} (hmark : c ≠ Char.ofNat 0xfeff)
    (hspace : isSpace c = false) (h : readValue (2 * (c :: cs).length + 1) (c :: cs) = .ok (v, [])) :
    IsText (c :: cs) v := by
  have hstart : skipSpace (c :: cs) = c :: cs := List.dropWhile_cons_of_neg (by simp [hspace])
  unfold IsText readChars
  rw [List.head?_cons, if_neg (fun heq => hmark (Option.some.inj heq)), hstart, h]
  rfl

section

variable {cs : List Char} {v : Value}

theorem IsText.readValue_eq (h : IsText cs v) :
    ∃ rest, readValue (2 * cs.length + 1) (skipSpace cs) = .ok (v, rest) ∧ skipSpace rest = [] := by
  unfold IsText readChars at h
  dsimp only at h
  split at h
  · cases h
  · split at h
    · cases h
    · rename_i w rest hvalue
      split at h <;> cases h
      exact ⟨rest, hvalue, ‹_›⟩

/-- The text of a value is read up to the comma or the bracket behind it. -/
theorem IsText.readValue_append (h : IsText cs v) {more : List Char} (hmore : Closes more) {fuel : Nat}
    (hfuel : 2 * cs.length + 1 ≤ fuel) :
    ∃ rest, readValue fuel (skipSpace (cs ++ more)) = .ok (v, rest) ∧ skipSpace rest = more := by
  obtain ⟨rest, hvalue, hrest⟩ := h.readValue_eq
  refine ⟨rest ++ more, ?_, ?_⟩
  · rw [skipSpace_extends hmore]
    exact readValue_extends hmore hfuel hvalue
  · rw [skipSpace_extends hmore, hrest, List.nil_append]

theorem readAtom_ne_text {s : Points} {rest : List Char} : readAtom cs ≠ .ok (.text s, rest) := by
  have hnumber : ∀ (negative : Bool) (cs : List Char) (e : Refusal),
      (readNumber negative cs).getD (.error e) ≠ .ok (.text s, rest) := by
    intro negative cs e h
    obtain ⟨d, tail, rfl, hd⟩ := numberOr_head h
    rw [readNumber, if_neg (by simp [hd]), Option.getD_some] at h
    generalize (if d = '0' then (['0'], tail) else spanDigits (d :: tail)) = whole at h
    split at h
    · split at h <;> cases h
    · cases h
  unfold readAtom
  dsimp only
  split
  · split
    · exact fun h => by cases h
    · exact hnumber _ _ _
  all_goals first
    | exact hnumber _ _ _
    | split <;> exact fun h => by cases h

/-- The text of a key is a string with nothing but white space around it. -/
theorem IsText.readString_append {key : Points} (h : IsText cs (.text key)) (more : List Char) :
    ∃ tail behind, skipSpace (cs ++ ':' :: more) = '"' :: tail ∧
      readString ('"' :: tail).length tail = .ok (key, behind) ∧ skipSpace behind = ':' :: more := by
  have hcolon : ∀ cs, skipSpace (cs ++ ':' :: more) = skipSpace cs ++ ':' :: more := skipSpace_append rfl
  obtain ⟨rest, hvalue, hrest⟩ := h.readValue_eq
  rw [readValue.eq_def] at hvalue
  dsimp only at hvalue
  split at hvalue
  · rename_i tail hquote
    split at hvalue <;> cases hvalue
    rename_i hstring
    refine ⟨tail ++ ':' :: more, rest ++ ':' :: more, ?_, readString_extends hstring _ _, ?_⟩
    · rw [hcolon, hquote, List.cons_append]
    · rw [hcolon, hrest, List.nil_append]
  · split at hvalue
    · cases hvalue
    · split at hvalue <;> cases hvalue
  · split at hvalue
    · cases hvalue
    · split at hvalue <;> cases hvalue
  · exact absurd hvalue readAtom_ne_text

end

/-! ## Lists and objects -/

/-- Each item takes one unit of fuel beside its own, which the comma or the bracket behind it pays for. -/
theorem readItems_texts {ts : List (List Char)} {xs : List Value} (h : List.Forall₂ IsText ts xs) (hne : ts ≠ [])
    (rest : List Char) : ∀ fuel, 2 * (joined [','] ts).length + 2 ≤ fuel →
    readItems fuel (skipSpace (joined [','] ts ++ ']' :: rest)) = .ok (xs, rest) := by
  induction h with
  | nil => exact absurd rfl hne
  | @cons t x ts xs ht hts ih =>
    intro fuel hfuel
    obtain ⟨fuel, rfl⟩ : ∃ f, fuel = f + 1 := ⟨fuel - 1, by omega⟩
    cases hts with
    | nil =>
      rw [joined] at hfuel ⊢
      have hlength : 2 * t.length + 1 ≤ fuel := by omega
      obtain ⟨behind, hvalue, hbehind⟩ := ht.readValue_append (closes_bracket rest) hlength
      exact readItems_last hvalue hbehind
    | @cons u y us ys hu hus =>
      rw [joined_cons_cons] at hfuel ⊢
      simp only [List.append_assoc, List.singleton_append, List.length_append, List.length_cons] at hfuel ⊢
      have hlength : 2 * t.length + 1 ≤ fuel := by omega
      obtain ⟨behind, hvalue, hbehind⟩ := ht.readValue_append
        (closes_comma (joined [','] (u :: us) ++ ']' :: rest)) hlength
      exact readItems_more hvalue hbehind (ih (List.cons_ne_nil _ _) fuel (by omega))

theorem readFields_texts {parts : List (List Char × List Char)} {fs : List (Points × Value)}
    (h : List.Forall₂ IsField parts fs) (hne : parts ≠ []) (rest : List Char) :
    ∀ fuel, 2 * (joined [','] (parts.map fieldText)).length + 2 ≤ fuel →
    readFields fuel (skipSpace (joined [','] (parts.map fieldText) ++ '\x7d' :: rest)) = .ok (fs, rest) := by
  induction h with
  | nil => exact absurd rfl hne
  | @cons part f parts fs hpart hparts ih =>
    obtain ⟨k, t⟩ := part
    obtain ⟨key, v⟩ := f
    obtain ⟨hkey, hv⟩ : IsText k (.text key) ∧ IsText t v := hpart
    intro fuel hfuel
    obtain ⟨fuel, rfl⟩ : ∃ f, fuel = f + 1 := ⟨fuel - 1, by omega⟩
    cases hparts with
    | nil =>
      simp only [List.map_cons, List.map_nil, joined, fieldText, List.append_assoc, List.cons_append,
        List.length_append, List.length_cons] at hfuel ⊢
      obtain ⟨tail, behind, hquote, hstring, hcolon⟩ := hkey.readString_append (t ++ '\x7d' :: rest)
      have hlength : 2 * t.length + 1 ≤ fuel := by omega
      obtain ⟨after, hvalue, hafter⟩ := hv.readValue_append (closes_brace rest) hlength
      rw [hquote]
      exact readFields_last hstring hcolon hvalue hafter
    | @cons part' g parts' gs hpart' hparts' =>
      rw [List.map_cons, List.map_cons, joined_cons_cons, ← List.map_cons] at hfuel ⊢
      simp only [fieldText, List.append_assoc, List.cons_append, List.nil_append, List.length_append,
        List.length_cons] at hfuel ⊢
      generalize hmore : joined [','] ((part' :: parts').map fieldText) = more at hfuel ih ⊢
      obtain ⟨tail, behind, hquote, hstring, hcolon⟩ :=
        hkey.readString_append (t ++ ',' :: (more ++ '\x7d' :: rest))
      have hlength : 2 * t.length + 1 ≤ fuel := by omega
      obtain ⟨after, hvalue, hafter⟩ := hv.readValue_append (closes_comma (more ++ '\x7d' :: rest)) hlength
      rw [hquote]
      exact readFields_more hstring hcolon hvalue hafter (ih (List.cons_ne_nil _ _) fuel (by omega))

theorem isText_list {ts : List (List Char)} {xs : List Value} (h : List.Forall₂ IsText ts xs) :
    IsText (listText ts) (.list xs) := by
  refine isText_of_readValue (by decide) (by decide) ?_
  cases h with
  | nil => rfl
  | cons ht hts =>
    refine readValue_items (readItems_texts (.cons ht hts) (List.cons_ne_nil _ _) [] _ ?_)
    simp only [List.length_cons, List.length_append]
    omega

theorem isText_object {parts : List (List Char × List Char)} {fs : List (Points × Value)}
    (h : List.Forall₂ IsField parts fs) : IsText (objectText parts) (.object (Value.ofFields fs)) := by
  refine isText_of_readValue (by decide) (by decide) ?_
  cases h with
  | nil => rfl
  | cons hpart hparts =>
    refine readValue_fields (readFields_texts (.cons hpart hparts) (List.cons_ne_nil _ _) [] _ ?_)
    simp only [List.length_cons, List.length_append]
    omega

/-! ## Fields -/

namespace Value

theorem field?_insert (key k : Points) (v : Value) (fs : List (Points × Value)) :
    field? key (insert k v fs) = if k = key then some v else field? key fs := by
  induction fs with
  | nil => rfl
  | cons f fs ih =>
    obtain ⟨k', w⟩ := f
    rw [insert]
    split
    · rename_i heq
      subst heq
      rw [field?, field?]
      split <;> rfl
    · rename_i hne
      rw [field?, field?, ih]
      split
      · rename_i heq
        subst heq
        rw [if_neg (Ne.symm hne)]
      · rfl

theorem fieldOrNull_insert (key k : Points) (v : Value) (fs : List (Points × Value)) :
    fieldOrNull key (insert k v fs) = if k = key then v else fieldOrNull key fs := by
  rw [fieldOrNull, field?_insert]
  split <;> rfl

theorem field?_append (key : Points) (fs gs : List (Points × Value)) :
    field? key (fs ++ gs) = (field? key fs).or (field? key gs) := by
  induction fs with
  | nil => rfl
  | cons f fs ih =>
    obtain ⟨k, v⟩ := f
    rw [List.cons_append, field?, field?]
    split
    · rfl
    · exact ih

theorem ofFields_concat (fs : List (Points × Value)) (f : Points × Value) :
    ofFields (fs ++ [f]) = insert f.1 f.2 (ofFields fs) := by
  rw [ofFields, List.foldl_append]
  rfl

/-- Of the values with one key the last one counts. -/
theorem field?_ofFields (key : Points) (fs : List (Points × Value)) :
    field? key (ofFields fs) = field? key fs.reverse := by
  induction fs using List.reverseRecOn with
  | nil => rfl
  | append_singleton fs f ih =>
    rw [ofFields_concat, field?_insert, ih, List.reverse_append]
    rfl

/-- A field that is replaced by one of its key makes no difference under other keys, nor under its own where a
later field has the key. -/
theorem field?_replace (key k : Points) (v w : Value) (before after : List (Points × Value)) :
    field? key (ofFields (before ++ (k, v) :: after)) = field? key (ofFields (before ++ (k, w) :: after)) ∨
      key = k ∧ field? key (ofFields (before ++ (k, v) :: after)) = some v ∧
        field? key (ofFields (before ++ (k, w) :: after)) = some w := by
  simp only [field?_ofFields, List.reverse_append, List.reverse_cons, List.append_assoc, List.singleton_append,
    field?_append]
  cases field? key after.reverse with
  | some x => exact .inl rfl
  | none =>
    by_cases hk : k = key
    · subst hk
      exact .inr ⟨rfl, by simp [field?], by simp [field?]⟩
    · exact .inl (by simp [field?, hk])

theorem fieldOrNull_replace (key k : Points) (v w : Value) (before after : List (Points × Value)) :
    fieldOrNull key (ofFields (before ++ (k, v) :: after)) = fieldOrNull key (ofFields (before ++ (k, w) :: after)) ∨
      key = k ∧ fieldOrNull key (ofFields (before ++ (k, v) :: after)) = v ∧
        fieldOrNull key (ofFields (before ++ (k, w) :: after)) = w := by
  unfold fieldOrNull
  rcases field?_replace key k v w before after with h | ⟨hkey, hv, hw⟩
  · rw [h]
    exact .inl rfl
  · rw [hv, hw]
    exact .inr ⟨hkey, rfl, rfl⟩

end Value
end ScriptTree.Json
