/-
Texts that hold nothing but characters. They are the texts of the strings (`isLegible_iff`), a change of their
characters is a change of the string, and so is what white space is taken from them (`stripped_ofString`).
-/
import ScriptTree.Text.Blank
import ScriptTree.Text.Encode
import Mathlib

namespace ScriptTree.Points

/-! ## Texts of characters -/

theorem ofChars_injective : Function.Injective ofChars :=
  List.map_injective_iff.2 fun _ _ => Point.char.inj

@[simp]
theorem ofChars_inj {cs ds : List Char} : ofChars cs = ofChars ds ↔ cs = ds :=
  ofChars_injective.eq_iff

@[simp]
theorem ofString_inj {s t : String} : ofString s = ofString t ↔ s = t := by
  rw [ofString, ofString, ofChars_inj, String.toList_inj]

@[simp]
theorem ofString_eq_nil_iff {s : String} : ofString s = [] ↔ s = "" :=
  ofString_inj (t := "")

@[simp]
theorem ofString_append (s t : String) : ofString (s ++ t) = ofString s ++ ofString t := by
  rw [ofString, String.toList_append, ofChars, List.map_append]
  rfl

@[simp]
theorem ofString_ofList (cs : List Char) : ofString (String.ofList cs) = ofChars cs := by
  rw [ofString, String.toList_ofList]

@[simp]
theorem mem_ofString {c : Char} {s : String} : Point.char c ∈ ofString s ↔ c ∈ s.toList :=
  List.mem_map_of_injective fun _ _ => Point.char.inj

/-! ## The characters of a text -/

@[simp]
theorem chars_append (ps qs : Points) : chars (ps ++ qs) = chars ps ++ chars qs :=
  List.filterMap_append

@[simp]
theorem chars_char (c : Char) (ps : Points) : chars (.char c :: ps) = c :: chars ps := rfl

@[simp]
theorem chars_half (n : Fin 2048) (ps : Points) : chars (.half n :: ps) = chars ps := rfl

@[simp]
theorem chars_nil : chars [] = [] := rfl

@[simp]
theorem chars_ofChars (cs : List Char) : chars (ofChars cs) = cs := by
  rw [chars, ofChars, List.filterMap_map]
  exact List.filterMap_some

@[simp]
theorem chars_ofString (s : String) : chars (ofString s) = s.toList :=
  chars_ofChars s.toList

theorem mem_chars {c : Char} {ps : Points} : c ∈ chars ps ↔ Point.char c ∈ ps := by
  rw [chars, List.mem_filterMap]
  constructor
  · rintro ⟨_ | n, hp, hc⟩
    · cases hc
      exact hp
    · cases hc
  · exact fun hc => ⟨_, hc, rfl⟩

@[simp]
theorem isLegible_ofChars (cs : List Char) : isLegible (ofChars cs) = true := by
  rw [isLegible, ofChars, List.all_map]
  exact List.all_eq_true.2 fun _ _ => rfl

@[simp]
theorem isLegible_ofString (s : String) : isLegible (ofString s) = true :=
  isLegible_ofChars s.toList

@[simp]
theorem isLegible_append (ps qs : Points) : isLegible (ps ++ qs) = (isLegible ps && isLegible qs) :=
  List.all_append

/-- A text without halves is the text of its characters. -/
theorem ofChars_chars {ps : Points} (h : isLegible ps = true) : ofChars (chars ps) = ps := by
  induction ps with
  | nil => rfl
  | cons p ps ih =>
    cases p with
    | char c => exact congrArg (Point.char c :: ·) (ih h)
    | half n => cases h

theorem isLegible_iff {ps : Points} : isLegible ps = true ↔ ∃ s : String, ps = s := by
  constructor
  · exact fun h => ⟨String.ofList (chars ps), by rw [ofString_ofList, ofChars_chars h]⟩
  · rintro ⟨s, rfl⟩
    exact isLegible_ofString s

@[simp]
theorem legible?_ofString (s : String) : legible? s = some s := by
  rw [legible?, if_pos (isLegible_ofString s), chars_ofString, String.ofList_toList]

theorem legible?_eq_some_iff {ps : Points} {s : String} : legible? ps = some s ↔ ps = s := by
  constructor
  · intro h
    rw [legible?, Option.ite_none_right_eq_some] at h
    obtain ⟨hlegible, hs⟩ := h
    cases hs
    rw [ofString_ofList, ofChars_chars hlegible]
  · rintro rfl
    exact legible?_ofString s

/-! ## Changes of the characters -/

theorem mapRunsFrom_ofChars (f : List Char → List Char) (run cs : List Char) :
    mapRunsFrom f run (ofChars cs) = ofChars (f (run.reverse ++ cs)) := by
  induction cs generalizing run with
  | nil => rw [List.append_nil]; rfl
  | cons c cs ih =>
    have hnext := ih (c :: run)
    rwa [List.reverse_cons, List.append_assoc] at hnext

theorem mapRuns_ofChars (f : List Char → List Char) (cs : List Char) : mapRuns f (ofChars cs) = ofChars (f cs) :=
  mapRunsFrom_ofChars f [] cs

theorem isLegible_mapRunsFrom (f : List Char → List Char) (run : List Char) (ps : Points) :
    isLegible (mapRunsFrom f run ps) = isLegible ps := by
  induction ps generalizing run with
  | nil => exact isLegible_ofChars _
  | cons p ps ih =>
    cases p with
    | char c => exact ih (c :: run)
    | half n =>
      rw [mapRunsFrom, isLegible_append]
      exact Bool.and_false _

@[simp]
theorem isLegible_mapRuns (f : List Char → List Char) (ps : Points) : isLegible (mapRuns f ps) = isLegible ps :=
  isLegible_mapRunsFrom f [] ps

/-! ## Texts that cannot be written -/

theorem encodeFault?_isSome (ps : Points) : (encodeFault? ps).isSome = !isLegible ps := by
  unfold encodeFault?
  cases h : ps.dropWhile Point.isChar with
  | nil => rw [isLegible, List.all_eq_true.2 (List.dropWhile_eq_nil_iff.1 h)]; rfl
  | cons p rest =>
    have hmem : p ∈ ps := (List.dropWhile_suffix _).subset (h ▸ List.mem_cons_self)
    have hnot : ¬ p.isChar = true := by
      have hhead := List.head_dropWhile_not Point.isChar (l := ps) (by rw [h]; exact List.cons_ne_nil _ _)
      simpa [h] using hhead
    cases p with
    | char c => exact absurd rfl hnot
    | half n =>
      have hall : isLegible ps = false := List.all_eq_false.2 ⟨_, hmem, hnot⟩
      rw [hall]
      rfl

/-! ## White space -/

theorem dropWhile_ofChars (cs : List Char) :
    (ofChars cs).dropWhile Text.isBlankPoint = ofChars (cs.dropWhile Text.isBlank) :=
  List.dropWhile_map

theorem stripRight_ofChars (cs : List Char) : Text.stripRight (ofChars cs) = ofChars (Text.trimRight cs) := by
  rw [Text.stripRight, ofChars, ← List.map_reverse, ← ofChars, dropWhile_ofChars, ofChars, ← List.map_reverse]
  rfl

theorem stripped_ofString (s : String) : Text.stripped s = ofChars (Text.trim s.toList) := by
  rw [Text.stripped, ofString, dropWhile_ofChars, stripRight_ofChars]
  rfl

end ScriptTree.Points
