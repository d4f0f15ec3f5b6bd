/-
The way to a file. The parts of an ordinary path lead from directory to directory (`follow_spot`), as long as
they are there; where they are missing nothing is found (`follow_missing`), and to make the directory makes
them, and changes nothing else (`makeWay_spot`).
-/
import ScriptTree.Proofs.File.Directory

namespace ScriptTree.FileStore

/-! ## Parts of a path -/

/-- A part that is a name, and not too long for one. -/
def IsName (part : String) : Prop :=
  part ≠ ".." ∧ part.utf8ByteSize ≤ longestName

/-- A path of a file that can be asked for, none of whose parts leads up. -/
structure Ordinary (p : Path) : Prop where
  parts : p.parts ≠ []
  names : ∀ part ∈ p.parts, IsName part
  fault : pathFault? p = none

namespace Ordinary

variable {p : Path} (h : Ordinary p)
include h

theorem parts_eq : p.parts = p.parent.parts ++ [p.name] := by
  rw [Path.parent, Path.name, List.getLast?_eq_some_getLast h.parts, Option.getD_some,
    List.dropLast_append_getLast]

theorem isName_name : IsName p.name :=
  h.names _ (by rw [h.parts_eq]; simp)

theorem isName_above : ∀ part ∈ p.parent.parts, IsName part :=
  fun part hpart => h.names part (by rw [h.parts_eq]; exact List.mem_append_left _ hpart)

/-- The text of the path above is no longer, if it is not the dot. -/
theorem parent_text_size : p.parent.text.utf8ByteSize < pathLimit := by
  have hsize : p.text.utf8ByteSize < pathLimit := by
    by_contra hlong
    have hfault := h.fault
    rw [pathFault?, if_pos (not_lt.1 hlong)] at hfault
    split at hfault <;> cases hfault
  have htext : p.text = p.root ++ "/".intercalate (p.parent.parts ++ [p.name]) := by
    rw [Path.text, ← h.parts_eq]
    simp [h.parts]
  have hroot : p.parent.root = p.root := rfl
  rw [htext, String.utf8ByteSize_append] at hsize
  rw [Path.text, hroot]
  split
  · decide
  · rw [String.utf8ByteSize_append]
    by_cases habove : p.parent.parts = []
    · rw [habove, String.intercalate_nil]
      exact lt_of_le_of_lt (Nat.add_le_add_left (Nat.zero_le _) _) hsize
    · rw [String.intercalate_append_of_ne_nil habove (List.cons_ne_nil _ _), String.utf8ByteSize_append,
        String.utf8ByteSize_append] at hsize
      omega

theorem parent_fault : pathFault? p.parent = none := by
  have hplain : ¬ p.parts.any (·.toList.contains '\x00') := by
    intro hnull
    have hfault := h.fault
    rw [pathFault?, if_pos hnull] at hfault
    cases hfault
  have hnull : ¬ p.parent.parts.any (·.toList.contains '\x00') := by
    rw [h.parts_eq, List.any_append, Bool.or_eq_true, not_or] at hplain
    exact hplain.1
  rw [pathFault?, if_neg hnull, if_neg (Nat.not_le.2 h.parent_text_size)]

end Ordinary

section

variable {s : FileStore} {absolute : Bool} {q : List String}

theorem step_spot (hdir : s.entry? (spot absolute q) = some .directory) {part : String} (hname : IsName part) :
    s.step (spot absolute q) part = .ok (spot absolute (q ++ [part])) := by
  rw [step, hdir]
  dsimp only
  rw [if_neg hname.1, if_neg (Nat.not_lt.2 hname.2), placeIn_spot]

theorem step_missing (hnone : s.entry? (spot absolute q) = none) (part : String) :
    s.step (spot absolute q) part = .error .missing := by
  rw [step, hnone]

theorem prefix_cons_of_snoc {part : String} {parts r : List String} (h : r <+: (q ++ [part]) ++ parts) :
    r <+: q ++ part :: parts := by
  rwa [List.append_assoc, List.singleton_append] at h

theorem follow_spot {parts : List String} (hnames : ∀ part ∈ parts, IsName part)
    (hdirs : ∀ r, r <+: q ++ parts → s.entry? (spot absolute r) = some .directory) :
    s.follow (spot absolute q) parts = .ok (spot absolute (q ++ parts)) := by
  induction parts generalizing q with
  | nil => rw [follow, List.append_nil]
  | cons part parts ih =>
    obtain ⟨hname, hnames⟩ := List.forall_mem_cons.1 hnames
    rw [follow, step_spot (hdirs q (List.prefix_append _ _)) hname]
    dsimp only
    rw [ih hnames fun r hr => hdirs r (prefix_cons_of_snoc hr), List.append_assoc, List.singleton_append]

theorem follow_append {place next : FilePlace} {parts : List String} (h : s.follow place parts = .ok next)
    (more : List String) : s.follow place (parts ++ more) = s.follow next more := by
  induction parts generalizing place with
  | nil =>
    rw [follow] at h
    rw [List.nil_append, Except.ok.inj h]
  | cons part parts ih =>
    rw [follow] at h
    rw [List.cons_append, follow]
    split at h
    · exact ih h
    · cases h

/-- A way on which something is missing leads nowhere. -/
theorem follow_missing {parts : List String} (hnames : ∀ part ∈ parts, IsName part)
    (hopen : ∀ r, r <+: q ++ parts →
      s.entry? (spot absolute r) = some .directory ∨ s.entry? (spot absolute r) = none)
    (hnone : s.entry? (spot absolute (q ++ parts)) = none) (name : String) :
    s.follow (spot absolute q) (parts ++ [name]) = .error .missing := by
  induction parts generalizing q with
  | nil =>
    rw [List.append_nil] at hnone
    rw [List.nil_append, follow, step_missing hnone]
  | cons part parts ih =>
    obtain ⟨hname, hnames⟩ := List.forall_mem_cons.1 hnames
    rw [List.cons_append, follow]
    rcases hopen q (List.prefix_append _ _) with hdir | hmissing
    · rw [step_spot hdir hname]
      dsimp only
      refine ih hnames (fun r hr => hopen r (prefix_cons_of_snoc hr)) ?_
      rwa [List.append_assoc, List.singleton_append]
    · rw [step_missing hmissing]

/-- The directories on a way are made where they are missing. -/
theorem makeWay_spot {parts : List String} (hnames : ∀ part ∈ parts, IsName part)
    (hdirs : ∀ r, r <+: q → s.entry? (spot absolute r) = some .directory)
    (hopen : ∀ r, r <+: q ++ parts →
      s.entry? (spot absolute r) = some .directory ∨ s.entry? (spot absolute r) = none) :
    ∃ s', s.makeWay (spot absolute q) parts = (.ok (spot absolute (q ++ parts)), s') ∧
      (∀ r, r <+: q ++ parts → entry? s' (spot absolute r) = some .directory) ∧
      ∀ r, ¬ r <+: q ++ parts → entry? s' (spot absolute r) = s.entry? (spot absolute r) := by
  induction parts generalizing q s with
  | nil => exact ⟨s, by rw [makeWay, List.append_nil], by simpa using hdirs, fun r _ => rfl⟩
  | cons part parts ih =>
    obtain ⟨hname, hnames⟩ := List.forall_mem_cons.1 hnames
    have hthere : Holds (s.side absolute) q := by
      rw [holds_iff, ← entry?_spot, hdirs q (List.prefix_refl _), Option.isSome_some]
    rw [makeWay, step_spot (hdirs q (List.prefix_refl _)) hname]
    dsimp only
    rw [show q ++ part :: parts = (q ++ [part]) ++ parts by simp] at hopen ⊢
    rcases hopen (q ++ [part]) (List.prefix_append _ _) with hdir | hmissing
    · rw [hdir]
      refine ih hnames (fun r hr => ?_) hopen
      rcases List.prefix_concat_iff.1 hr with rfl | hr
      exacts [hdir, hdirs r hr]
    · rw [hmissing]
      have hput : ∀ r, entry? (s.putAt (spot absolute (q ++ [part])) .directory) (spot absolute r) =
          if r = q ++ [part] then some .directory else s.entry? (spot absolute r) := by
        intro r
        rw [entry?_spot, side_putAt, entryIn?_putIn hthere, entry?_spot]
      obtain ⟨s', hmake, hmade, hsame⟩ := ih (s := s.putAt (spot absolute (q ++ [part])) .directory) hnames
        (fun r hr => by
          rw [hput]
          split
          · rfl
          · exact hdirs r ((List.prefix_concat_iff.1 hr).resolve_left ‹_›))
        (fun r hr => by
          rw [hput]
          split
          · exact .inl rfl
          · exact hopen r hr)
      refine ⟨s', hmake, hmade, fun r hr => ?_⟩
      rw [hsame r hr, hput, if_neg]
      rintro rfl
      exact hr (List.prefix_append _ _)

end

/-! ## The directory of a file -/

/-- The way to a path's file is open: what is above it is a directory or missing. In its directory stands what the
map has for each name. -/
structure Way (s : FileStore) (p : Path) (contents : String → Option FileEntry) : Prop where
  above : ∀ q, q <+: p.parent.parts →
    s.entry? (spot p.isAbsolute q) = some .directory ∨ s.entry? (spot p.isAbsolute q) = none
  inside : ∀ name, s.entry? (spot p.isAbsolute (p.parent.parts ++ [name])) = contents name

section

variable {s : FileStore} {p : Path} {contents : String → Option FileEntry} (hp : Ordinary p)

theorem Directory.way (h : s.Directory p.isAbsolute p.parent.parts contents) : s.Way p contents :=
  ⟨fun q hq => .inl (h.above q hq), h.inside⟩

/-- Where there are no files every way is open. -/
theorem empty_way (p : Path) : empty.Way p fun _ => none := by
  have hnone : ∀ q, empty.entry? (spot p.isAbsolute q) = if q.isEmpty then some .directory else none := by
    intro q
    rw [entry?_spot]
    cases p.isAbsolute <;> simp [side, empty, entryIn?]
  refine ⟨fun q _ => ?_, fun name => ?_⟩
  · rw [hnone]
    split
    · exact .inl rfl
    · exact .inr rfl
  · rw [hnone, if_neg (by simp)]

/-- Above what is there all is there. -/
theorem Way.directory (h : s.Way p contents) (hthere : ( s.entry? (spot p.isAbsolute p.parent.parts)).isSome) :
    s.Directory p.isAbsolute p.parent.parts contents := by
  refine ⟨fun q hq => (h.above q hq).resolve_right fun hnone => ?_, h.inside⟩
  rw [entry?_spot] at hthere hnone
  have hq := holds_iff.1 ((holds_iff.2 hthere).above hq)
  rw [hnone] at hq
  cases hq

include hp

namespace Directory

variable (h : s.Directory p.isAbsolute p.parent.parts contents)
include h

theorem follow_parent : s.follow (top p) p.parent.parts = .ok (spot p.isAbsolute p.parent.parts) :=
  follow_spot (q := []) hp.isName_above h.above

theorem homeOf?_eq : s.homeOf? p = some (spot p.isAbsolute p.parent.parts) := by
  rw [homeOf?, hp.fault, h.follow_parent hp]

theorem step_name : s.step (spot p.isAbsolute p.parent.parts) p.name =
    .ok (placeIn (spot p.isAbsolute p.parent.parts) p.name) := by
  rw [step_spot (h.above _ (List.prefix_refl _)) hp.isName_name, placeIn_spot]

theorem lookup_eq : s.lookup p = .ok (contents p.name) := by
  have hplace : s.placeOf p = .ok (placeIn (spot p.isAbsolute p.parent.parts) p.name) := by
    rw [placeOf, hp.fault, hp.parts_eq]
    dsimp only
    rw [follow_append (h.follow_parent hp), follow, h.step_name hp]
    rfl
  rw [lookup, find, hplace]
  dsimp only
  rw [placeIn_spot, h.inside]
  cases contents p.name <;> rfl

end Directory

namespace Way

variable (h : s.Way p contents)
include h

theorem lookup_eq : s.lookup p = .ok (contents p.name) := by
  cases hhome : s.entry? (spot p.isAbsolute p.parent.parts) with
  | some e => exact (h.directory (by rw [hhome, Option.isSome_some])).lookup_eq hp
  | none =>
    have hplace : s.placeOf p = .error .missing := by
      rw [placeOf, hp.fault, hp.parts_eq]
      exact follow_missing (q := []) hp.isName_above h.above hhome p.name
    have hnone : contents p.name = none := by
      by_contra hsome
      rw [← h.inside, ← ne_eq, Option.ne_none_iff_isSome, entry?_spot, ← holds_iff] at hsome
      have habove := holds_iff.1 (hsome.above (List.prefix_append p.parent.parts [p.name]))
      rw [← entry?_spot, hhome] at habove
      cases habove
    rw [lookup, find, hplace, hnone]
    rfl

/-- The directory of the file is made, and holds what it held. -/
theorem makeDirectory_eq : ∃ s', s.makeDirectory p.parent = (.ok (spot p.isAbsolute p.parent.parts), s') ∧
    s'.Directory p.isAbsolute p.parent.parts contents := by
  have hroot : ∀ r, r <+: [] → s.entry? (spot p.isAbsolute r) = some .directory := by
    rintro r hr
    rw [List.prefix_nil.1 hr]
    refine (h.above [] List.nil_prefix).resolve_right fun hnone => ?_
    rw [entry?_spot, entryIn?_of_holds (.inl rfl)] at hnone
    cases hnone
  obtain ⟨s', hmake, hmade, hsame⟩ := makeWay_spot (q := []) hp.isName_above hroot h.above
  rw [List.nil_append] at hmake hmade hsame
  refine ⟨s', ?_, hmade, fun name => ?_⟩
  · rw [makeDirectory, hp.parent_fault]
    exact hmake
  · rw [hsame _ (not_snoc_above (List.prefix_refl _)), h.inside]

end Way

end
end ScriptTree.FileStore
