/-
Values on one line. What is written for a value without loss on one line holds no control character, so that it is
one line (`lineText_visible`), and is read back as the value if it can be encoded (`isText_line`). White space may stand before each part
of a list or an object, so the spaces behind the commas belong to the parts that follow them.
-/
import ScriptTree.Proofs.Json.Compose

namespace ScriptTree.Json

/-! ## Spaces -/

/-- A space before a text makes no difference. -/
theorem IsText.space {cs : List Char} {v : Value} (h : IsText cs v) : IsText (' ' :: cs) v := by
  have hfuel : 2 * cs.length + 1 ≤ 2 * (' ' :: cs).length + 1 := by
    rw [List.length_cons]
    omega
  obtain ⟨rest, hvalue, hrest⟩ := h.readValue_append closes_nil hfuel
  rw [List.append_nil] at hvalue
  have hspace : skipSpace (' ' :: cs) = skipSpace cs := rfl
  unfold IsText readChars
  rw [List.head?_cons, if_neg (by decide), hspace, hvalue]
  dsimp only
  rw [hrest]

/-- The texts with a space before each but the first. -/
def spaced : List (List Char) → List (List Char)
  | [] => []
  | t :: ts => t :: ts.map (' ' :: ·)

theorem joined_spaced (ts : List (List Char)) : joined [','] (spaced ts) = joined [',', ' '] ts := by
  have hspace : ∀ (u : List Char) (vs : List (List Char)),
      joined [','] ((' ' :: u) :: vs) = ' ' :: joined [','] (u :: vs) := by
    intro u vs
    cases vs <;> rfl
  induction ts with
  | nil => rfl
  | cons t ts ih =>
    cases ts with
    | nil => rfl
    | cons u us =>
      rw [joined_cons_cons, ← ih, spaced, List.map_cons, joined_cons_cons, hspace, spaced]
      simp

/-! ## Lines -/

theorem lineItems_eq (xs : List Value) : lineItems xs = xs.map lineText := by
  induction xs with
  | nil => rfl
  | cons x xs ih => rw [lineItems, ih, List.map_cons]

theorem lineFields_eq (fs : List (Points × Value)) :
    lineFields fs = fs.map fun f => stringText f.1 ++ ": " ++ lineText f.2 := by
  induction fs with
  | nil => rfl
  | cons f fs ih => rw [lineFields, ih, List.map_cons]

/-- A value without loss is written without control characters. -/
theorem lineText_visible {v : Value} (h : Plain v) : ∀ p ∈ lineText v, 0x20 ≤ p.code := by
  have hcomma : ∀ p ∈ Points.ofString ", ", 0x20 ≤ p.code := by decide
  induction h with
  | null => exact show ∀ p ∈ Points.ofString "null", 0x20 ≤ p.code by decide
  | bool b =>
    cases b
    · exact show ∀ p ∈ Points.ofString "false", 0x20 ≤ p.code by decide
    · exact show ∀ p ∈ Points.ofString "true", 0x20 ≤ p.code by decide
  | int _ => exact List.forall_mem_map.2 (text_visible _)
  | text s => exact stringText_visible s
  | @list xs _ ih =>
    rw [lineText, List.forall_mem_append, List.forall_mem_append]
    refine ⟨⟨by decide, forall_mem_joined hcomma ?_⟩, by decide⟩
    rw [lineItems_eq, List.forall_mem_map]
    exact ih
  | @object fs _ _ ih =>
    rw [lineText, List.forall_mem_append, List.forall_mem_append]
    refine ⟨⟨by decide, forall_mem_joined hcomma ?_⟩, by decide⟩
    rw [lineFields_eq, List.forall_mem_map]
    intro f hf
    rw [List.forall_mem_append, List.forall_mem_append]
    exact ⟨⟨stringText_visible _, by decide⟩, ih f hf⟩

/-- What is written on one line holds half of a surrogate pair just where a text in the value does. -/
theorem lineText_isLegible_iff {v : Value} (h : Plain v) :
    Points.isLegible (lineText v) = true ↔ Legible v := by
  have hcomma : Points.isLegible ", " = true := rfl
  induction h with
  | null => exact iff_of_true rfl .null
  | bool b => exact iff_of_true (by cases b <;> rfl) (.bool b)
  | int _ => exact iff_of_true (Points.isLegible_ofString _) (.int _)
  | text s => rw [legible_text_iff, lineText, stringText_isLegible]
  | @list xs _ ih =>
    rw [legible_list_iff, lineText]
    simp only [Points.isLegible_append, Points.isLegible_ofString, Bool.true_and, Bool.and_true,
      joined_isLegible_iff hcomma, lineItems_eq, List.forall_mem_map]
    exact forall₂_congr ih
  | @object fs _ _ ih =>
    rw [legible_object_iff, lineText]
    simp only [Points.isLegible_append, Points.isLegible_ofString, Bool.true_and, Bool.and_true,
      joined_isLegible_iff hcomma, lineFields_eq, List.forall_mem_map, Bool.and_eq_true, stringText_isLegible]
    exact forall₂_congr fun g hg => and_congr_right fun _ => ih g hg

/-- The characters of a value on one line. -/
def lineChars (v : Value) : List Char :=
  Points.chars (lineText v)

theorem lineChars_list (xs : List Value) :
    lineChars (.list xs) = '[' :: (joined [',', ' '] (xs.map lineChars) ++ [']']) := by
  rw [lineChars, lineText]
  simp only [Points.chars_append, chars_joined, lineItems_eq, List.map_map, List.append_assoc]
  rfl

theorem lineChars_object (fs : List (Points × Value)) : lineChars (.object fs) =
    '\x7b' :: (joined [',', ' '] (fs.map fun f => fieldText (stringChars f.1.chars, ' ' :: lineChars f.2)) ++
      ['\x7d']) := by
  have hfields : (lineFields fs).map Points.chars =
      fs.map fun f => fieldText (stringChars f.1.chars, ' ' :: lineChars f.2) := by
    rw [lineFields_eq, List.map_map]
    refine List.map_congr_left fun g _ => ?_
    rw [Function.comp, Points.chars_append, Points.chars_append, chars_stringText, List.append_assoc]
    rfl
  rw [lineChars, lineText]
  simp only [Points.chars_append, chars_joined, hfields, List.append_assoc]
  rfl

/-- What is the same on one line and on many. -/
theorem isText_of_block {v : Value} (h : Plain v) (hlegible : Legible v) (hsame : lineText v = blockText 0 v) :
    IsText (lineChars v) v := by
  have hbegins := blockChars_begins 0 h
  have hread := returns_of_plain h hlegible 0 (2 * (blockChars 0 v).length + 1) [] (by omega) trivial
  rw [List.append_nil] at hread
  have hchars : lineChars v = blockChars 0 v := congrArg Points.chars hsame
  rw [hchars]
  generalize blockChars 0 v = cs at hbegins hread
  cases cs with
  | nil => exact hbegins.elim
  | cons c cs =>
    refine isText_of_readValue (hbegins.head_ne (by decide)) ?_ hread
    simp [isSpace, hbegins.head_ne (b := ' ') (by decide), hbegins.head_ne (b := '\t') (by decide),
      hbegins.head_ne (b := '\n') (by decide), hbegins.head_ne (b := '\r') (by decide)]

theorem isText_string {s : Points} (h : Points.isLegible s = true) : IsText (stringChars s.chars) (.text s) := by
  have htext := isText_of_block (.text s) (legible_text_iff.2 h) rfl
  rwa [lineChars, lineText, chars_stringText] at htext

/-- A value without loss that can be encoded is read back from its text on one line. -/
theorem isText_line {v : Value} (h : Plain v) (hlegible : Legible v) : IsText (lineChars v) v := by
  induction h with
  | null => exact isText_of_block .null hlegible rfl
  | bool b => exact isText_of_block (.bool b) hlegible rfl
  | int hi => exact isText_of_block (.int hi) hlegible rfl
  | text s =>
    rw [lineChars, lineText, chars_stringText]
    exact isText_string (legible_text_iff.1 hlegible)
  | @list xs _ ih =>
    have hitem := legible_list_iff.1 hlegible
    have hitems : List.Forall₂ IsText (spaced (xs.map lineChars)) xs := by
      cases xs with
      | nil => exact .nil
      | cons x xs =>
        rw [List.map_cons, spaced, List.map_map]
        refine .cons (ih x List.mem_cons_self (hitem x List.mem_cons_self)) ?_
        rw [List.forall₂_map_left_iff, List.forall₂_same]
        exact fun y hy => (ih y (List.mem_cons_of_mem x hy) (hitem y (List.mem_cons_of_mem x hy))).space
    have htext := isText_list hitems
    rwa [listText, joined_spaced, ← lineChars_list] at htext
  | @object fs nodup _ ih =>
    have hfield := legible_object_iff.1 hlegible
    obtain ⟨parts, hparts, hfields⟩ : ∃ parts, parts.map fieldText =
          spaced (fs.map fun f => fieldText (stringChars f.1.chars, ' ' :: lineChars f.2)) ∧
        List.Forall₂ IsField parts fs := by
      cases fs with
      | nil => exact ⟨[], rfl, .nil⟩
      | cons f fs =>
        refine ⟨(stringChars f.1.chars, ' ' :: lineChars f.2) ::
          fs.map fun g => (' ' :: stringChars g.1.chars, ' ' :: lineChars g.2), ?_, ?_⟩
        · rw [List.map_cons, List.map_cons, spaced, List.map_map, List.map_map]
          rfl
        · have hf := hfield f List.mem_cons_self
          refine .cons ⟨isText_string hf.1, (ih f List.mem_cons_self hf.2).space⟩ ?_
          rw [List.forall₂_map_left_iff, List.forall₂_same]
          intro g hg
          have hg' := hfield g (List.mem_cons_of_mem f hg)
          exact ⟨(isText_string hg'.1).space, (ih g (List.mem_cons_of_mem f hg) hg'.2).space⟩
    have htext := isText_object hfields
    rwa [objectText, hparts, joined_spaced, ← lineChars_object, ofFields_of_nodup nodup] at htext

end ScriptTree.Json
