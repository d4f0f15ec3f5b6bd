/-
The texts of paths. A path that was read holds parts of one kind (`Normal`), and its text is read as the
same path again (`ofText_text`). The text is not the one that was read: it has a slash only if the path
starts at the root or has more than one part (`slash_mem_text_iff`).
-/
import ScriptTree.File.Path
import Mathlib

namespace ScriptTree.Path

/-! ## Pieces between slashes -/

theorem split_go_eq (piece cs : List Char) :
    split.go piece cs = (cs.splitOn '/').modifyHead (piece.reverse ++ ·) := by
  induction cs generalizing piece with
  | nil => simp [split.go, List.splitOn_nil]
  | cons c cs ih =>
    rw [split.go, List.splitOn_cons_eq_if_modifyHead, ih, ih]
    obtain ⟨first, others, h⟩ := List.exists_cons_of_ne_nil (List.splitOn_ne_nil '/' cs)
    by_cases hc : c = '/' <;> simp [hc, h]

theorem split_eq (cs : List Char) : split cs = (cs.splitOn '/').map String.ofList := by
  rw [split, split_go_eq]
  obtain ⟨first, others, h⟩ := List.exists_cons_of_ne_nil (List.splitOn_ne_nil '/' cs)
  simp [h]

theorem slash_not_mem_splitOn (cs : List Char) : ∀ piece ∈ cs.splitOn '/', '/' ∉ piece := by
  induction cs with
  | nil => simp [List.splitOn_nil]
  | cons c cs ih =>
    rw [List.splitOn_cons_eq_if_modifyHead]
    split
    · simpa using ih
    · rename_i hc
      obtain ⟨first, others, h⟩ := List.exists_cons_of_ne_nil (List.splitOn_ne_nil '/' cs)
      rw [h] at ih ⊢
      rw [List.modifyHead_cons, List.forall_mem_cons]
      rw [List.forall_mem_cons] at ih
      refine ⟨fun hmem => ?_, ih.2⟩
      rcases List.mem_cons.1 hmem with rfl | hmem
      · exact hc (by rfl)
      · exact ih.1 hmem

theorem slash_not_mem_split {cs : List Char} {piece : String} (h : piece ∈ split cs) :
    '/' ∉ piece.toList := by
  rw [split_eq] at h
  obtain ⟨ds, hds, rfl⟩ := List.mem_map.1 h
  rw [String.toList_ofList]
  exact slash_not_mem_splitOn cs ds hds

/-- Nothing but empty pieces stands before the slashes at the start of a text. -/
theorem split_slashes (n : Nat) (cs : List Char) :
    split (List.replicate n '/' ++ cs) = List.replicate n "" ++ split cs := by
  induction n with
  | zero => rfl
  | succ n ih =>
    rw [List.replicate_succ, List.replicate_succ, List.cons_append, List.cons_append, ← ih, split_eq, split_eq,
      List.splitOn_cons_eq_if_modifyHead, if_pos (by rfl)]
    rfl

/-! ## Paths that were read -/

/-- Whether a piece of a text is a part of its path. -/
def IsPart (piece : String) : Prop :=
  piece ≠ "" ∧ piece ≠ "." ∧ '/' ∉ piece.toList

/-- A path that some text is read as. -/
structure Normal (p : Path) : Prop where
  root : ∃ slashes ≤ 2, p.root.toList = List.replicate slashes '/'
  parts : ∀ part ∈ p.parts, IsPart part

theorem ofText_normal (s : String) : (ofText s).Normal := by
  constructor
  case root =>
    unfold ofText
    dsimp only
    split
    · exact ⟨0, by decide, rfl⟩
    · split
      · exact ⟨2, by decide, rfl⟩
      · exact ⟨1, by decide, rfl⟩
  case parts =>
    intro part hpart
    obtain ⟨hpiece, hkept⟩ := List.mem_filter.1 hpart
    refine ⟨?_, ?_, slash_not_mem_split hpiece⟩
    · rintro rfl
      exact Bool.false_ne_true hkept
    · rintro rfl
      exact Bool.false_ne_true hkept

/-- The parts with slashes between them. -/
def body (p : Path) : List Char :=
  ['/'].intercalate (p.parts.map String.toList)

theorem text_toList (p : Path) :
    p.text.toList = if p.root.isEmpty && p.parts.isEmpty then ['.'] else p.root.toList ++ p.body := by
  unfold text body
  dsimp only
  split
  · rfl
  · rw [String.toList_append, String.toList_intercalate]
    rfl

namespace Normal

variable {p : Path} (h : p.Normal)
include h

theorem split_body (hparts : p.parts ≠ []) : split p.body = p.parts := by
  rw [split_eq, body, List.splitOn_intercalate]
  · rw [List.map_map]
    exact (List.map_congr_left fun part _ => String.ofList_toList).trans (List.map_id _)
  · intro piece hpiece
    obtain ⟨part, hpart, rfl⟩ := List.mem_map.1 hpiece
    exact (h.parts part hpart).2.2
  · simpa using hparts

/-- The parts begin with something else than a slash. -/
theorem takeWhile_body : p.body.takeWhile (· == '/') = [] := by
  unfold body
  cases hparts : p.parts with
  | nil => rfl
  | cons part parts =>
    obtain ⟨hempty, -, hslash⟩ := h.parts part (hparts ▸ List.mem_cons_self)
    obtain ⟨c, cs, hpart⟩ : ∃ c cs, part.toList = c :: cs :=
      List.exists_cons_of_ne_nil (by simpa using hempty)
    have hc : (c == '/') = false := by
      rw [hpart, List.mem_cons, not_or] at hslash
      simpa using Ne.symm hslash.1
    cases parts <;> simp [List.intercalate, hpart, hc]

/-- What is kept of the pieces of the parts is the parts. -/
theorem filter_split_body : (split p.body).filter (fun piece => !piece.isEmpty && piece != ".") = p.parts := by
  by_cases hparts : p.parts = []
  · have hbody : p.body = [] := by
      rw [body, hparts]
      rfl
    rw [hbody, hparts]
    rfl
  · rw [h.split_body hparts, List.filter_eq_self]
    intro part hpart
    obtain ⟨hempty, hdot, -⟩ := h.parts part hpart
    simpa using ⟨hempty, hdot⟩

/-- The text of a path is read as the path. -/
theorem ofText_text : ofText p.text = p := by
  obtain ⟨slashes, htwo, hroot⟩ := h.root
  unfold ofText
  rw [text_toList]
  split
  · rename_i hnone
    obtain ⟨root, parts⟩ := p
    obtain ⟨rfl, rfl⟩ : root = "" ∧ parts = [] := by simpa using hnone
    rfl
  · have hslashes : (p.root.toList ++ p.body).takeWhile (· == '/') = List.replicate slashes '/' := by
      rw [hroot, List.takeWhile_append_of_pos (by simp), h.takeWhile_body, List.append_nil]
    have hpieces : (split (p.root.toList ++ p.body)).filter (fun piece => !piece.isEmpty && piece != ".") =
        p.parts := by
      have hempty : (List.replicate slashes "").filter (fun piece => !piece.isEmpty && piece != ".") = [] := by
        simp
      rw [hroot, split_slashes, List.filter_append, hempty, h.filter_split_body, List.nil_append]
    dsimp only
    rw [hslashes, hpieces, List.length_replicate]
    obtain ⟨root, parts⟩ := p
    congr 1
    rw [← String.toList_inj]
    interval_cases slashes <;> exact hroot.symm

/-- The text of a path has a slash if the path starts at the root or has two parts. -/
theorem slash_mem_text_iff : '/' ∈ p.text.toList ↔ p.isAbsolute = true ∨ 2 ≤ p.parts.length := by
  obtain ⟨slashes, -, hroot⟩ := h.root
  have hbody : '/' ∈ p.body ↔ 2 ≤ p.parts.length := by
    unfold body
    rcases hparts : p.parts with _ | ⟨part, _ | ⟨next, parts⟩⟩
    · simp [List.intercalate]
    · simpa [List.intercalate] using (h.parts part (by simp [hparts])).2.2
    · simp [List.intercalate_cons_cons]
  rw [text_toList]
  split
  · rename_i hnone
    obtain ⟨hempty, hparts⟩ : p.root = "" ∧ p.parts = [] := by simpa using hnone
    simp [isAbsolute, hempty, hparts]
  · rw [List.mem_append, hbody]
    refine or_congr_left ?_
    have hempty : p.root.isEmpty = true ↔ slashes = 0 := by
      rw [String.isEmpty_iff, ← String.toList_eq_nil_iff, hroot, List.replicate_eq_nil_iff]
    rw [hroot, isAbsolute, List.mem_replicate, Bool.not_eq_true', ← Bool.not_eq_true, hempty]
    exact and_iff_left rfl

/-- The pieces of the text of a path with parts end with these. -/
theorem split_text (hparts : p.parts ≠ []) :
    ∃ slashes, split p.text.toList = List.replicate slashes "" ++ p.parts := by
  obtain ⟨slashes, -, hroot⟩ := h.root
  rw [text_toList, if_neg (by simp [hparts]), hroot, split_slashes, h.split_body hparts]
  exact ⟨slashes, rfl⟩

end Normal

/-! ## Names of directories -/

/-- Whether a text can only name a directory: nothing or a dot follows its last slash. -/
def isOfDirectory (s : String) : Bool :=
  ((split s.toList).getLast?.getD "").isEmpty || (split s.toList).getLast?.getD "" == "."

/-- A text that can name a file has this name as the last part of its path. -/
theorem parts_ne_nil {s : String} (h : isOfDirectory s = false) : (ofText s).parts ≠ [] := by
  intro hparts
  obtain ⟨hempty, hdot⟩ := Bool.or_eq_false_iff.1 h
  cases hlast : (split s.toList).getLast? with
  | none => simp [hlast] at hempty
  | some last =>
    rw [hlast] at hempty hdot
    rw [Option.getD_some] at hempty hdot
    refine List.filter_eq_nil_iff.1 hparts last (List.mem_of_getLast? hlast) ?_
    simpa [hempty] using hdot

/-- The text of its path names a file as well. -/
theorem Normal.isOfDirectory_text {p : Path} (h : p.Normal) (hparts : p.parts ≠ []) :
    isOfDirectory p.text = false := by
  obtain ⟨slashes, hsplit⟩ := h.split_text hparts
  obtain ⟨parts, part, hpart⟩ := List.eq_nil_or_concat' p.parts |>.resolve_left hparts
  obtain ⟨hempty, hdot, -⟩ := h.parts part (by simp [hpart])
  have hlast : (split p.text.toList).getLast?.getD "" = part := by
    rw [hsplit, hpart, ← List.append_assoc, List.getLast?_concat, Option.getD_some]
  unfold isOfDirectory
  rw [hlast]
  simpa using ⟨hempty, hdot⟩

/-- A text without a slash that can name a file is its path. -/
theorem text_ofText_name {s : String} (hslash : '/' ∉ s.toList) (h : isOfDirectory s = false) :
    (ofText s).text = s := by
  have hsplit : split s.toList = [s] := by
    rw [split_eq, List.splitOn_eq_singleton hslash, List.map_singleton, String.ofList_toList]
  have hstart : s.toList.takeWhile (· == '/') = [] := by
    rw [List.takeWhile_eq_nil_iff]
    intro hpos hhead
    exact hslash (by rw [← beq_iff_eq.1 hhead]; exact List.getElem_mem hpos)
  have hkept : (!s.isEmpty && s != ".") = true := by
    unfold isOfDirectory at h
    rw [hsplit] at h
    simpa using h
  have hpath : ofText s = ⟨"", [s]⟩ := by
    unfold ofText
    dsimp only
    rw [hstart, hsplit, List.filter_singleton, hkept]
    rfl
  rw [hpath, ← String.toList_inj, text_toList]
  simp [body, List.intercalate]

end ScriptTree.Path
