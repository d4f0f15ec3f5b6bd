/-
A directory as a map from places to what stands there. Putting an entry into a directory, taking one away and
moving a file to another name change the map at these places only (`Directory.putAt`, `Directory.removeAt`,
`Directory.move`). All three are proved of lists of entries first, where something stands at each place that is a
prefix of a listed one (`Holds`). The names that are listed in a directory are those under which something stands
(`mem_list`).
-/
import ScriptTree.File.Store
import Mathlib

namespace ScriptTree.FileStore

/-! ## Lists of entries -/

/-- Something stands at the place, or below it. -/
def Holds (entries : List (List String × FileEntry)) (place : List String) : Prop :=
  place = [] ∨ ∃ x ∈ entries, place <+: x.1

/-- What is listed for a place, if nothing is a directory. -/
def listed (entries : List (List String × FileEntry)) (place : List String) : FileEntry :=
  ((entries.find? (·.1 == place)).map (·.2)).getD .directory

section

variable {entries entries' : List (List String × FileEntry)} {dir place q : List String} {name : String}
  {e : FileEntry}

theorem entryIn?_of_holds (h : Holds entries q) : entryIn? entries q = some (listed entries q) := by
  unfold entryIn? listed
  cases entries.find? (·.1 == q) with
  | some x => rfl
  | none =>
    refine if_pos ?_
    simpa [Holds, List.isPrefixOf_iff_prefix] using h

theorem entryIn?_of_not_holds (h : ¬ Holds entries q) : entryIn? entries q = none := by
  unfold entryIn?
  cases hfind : entries.find? (·.1 == q) with
  | some x =>
    have hx : x.1 = q := by simpa using List.find?_some hfind
    exact absurd (.inr ⟨x, List.mem_of_find?_eq_some hfind, hx ▸ List.prefix_refl _⟩) h
  | none =>
    refine if_neg ?_
    simpa [Holds, List.isPrefixOf_iff_prefix] using h

theorem holds_iff : Holds entries q ↔ (entryIn? entries q).isSome := by
  by_cases h : Holds entries q
  · simp [h, entryIn?_of_holds]
  · simp [h, entryIn?_of_not_holds]

theorem Holds.above (h : Holds entries place) (hq : q <+: place) : Holds entries q := by
  rcases h with rfl | ⟨x, hx, hin⟩
  · exact .inl (List.prefix_nil.1 hq)
  · exact .inr ⟨x, hx, hq.trans hin⟩

theorem entryIn?_congr (hlisted : listed entries' q = listed entries q)
    (hholds : Holds entries' q ↔ Holds entries q) : entryIn? entries' q = entryIn? entries q := by
  by_cases h : Holds entries q
  · rw [entryIn?_of_holds h, entryIn?_of_holds (hholds.2 h), hlisted]
  · rw [entryIn?_of_not_holds h, entryIn?_of_not_holds (mt hholds.1 h)]

/-- A file is listed itself. -/
theorem find?_of_file {content : List UInt8} (h : entryIn? entries q = some (.file content)) :
    entries.find? (·.1 == q) = some (q, .file content) := by
  unfold entryIn? at h
  cases hfind : entries.find? (·.1 == q) with
  | some x =>
    have hx : x.1 = q := by simpa using List.find?_some hfind
    rw [hfind] at h
    exact congrArg some (Prod.ext hx (Option.some.inj h))
  | none => simp [hfind] at h

/-- A filter that keeps all that is listed for a place. -/
theorem find?_filter_of_keeps {keep : List String × FileEntry → Bool} (h : ∀ x, x.1 = q → keep x = true) :
    (entries.filter keep).find? (·.1 == q) = entries.find? (·.1 == q) := by
  rw [List.find?_filter]
  refine congrArg (List.find? · entries) (funext fun x => ?_)
  by_cases hx : x.1 = q
  · simp [hx, h x hx]
  · simp [hx]

/-! ### Places of a directory -/

theorem not_snoc_above (h : q <+: dir) : ¬ dir ++ [name] <+: q := by
  intro h'
  have := (h'.trans h).length_le
  simp at this

/-- What is below one of two names in a directory is not below the other. -/
theorem not_both_above {a b : String} (hne : a ≠ b) (ha : dir ++ [a] <+: q) : ¬ dir ++ [b] <+: q := by
  intro hb
  have hsame : dir ++ [a] = dir ++ [b] := (List.prefix_of_prefix_length_le ha hb (by simp)).eq_of_length (by simp)
  exact hne (by simpa using hsame)

/-! ### Putting -/

theorem listed_putIn_self : listed (putIn entries place e) place = e := by
  have hnone : (entries.filter (·.1 != place)).find? (·.1 == place) = none := by simp [List.find?_eq_none]
  rw [listed, putIn, List.find?_append, hnone]
  simp

theorem listed_putIn_of_ne (h : q ≠ place) : listed (putIn entries place e) q = listed entries q := by
  have hkeeps : (entries.filter (·.1 != place)).find? (·.1 == q) = entries.find? (·.1 == q) :=
    find?_filter_of_keeps fun x hx => by simp [hx, h]
  rw [listed, listed, putIn, List.find?_append, hkeeps]
  simp [Ne.symm h]

theorem holds_putIn : Holds (putIn entries place e) q ↔ q <+: place ∨ Holds entries q := by
  constructor
  · rintro (rfl | ⟨x, hx, hin⟩)
    · exact .inr (.inl rfl)
    · rcases List.mem_append.1 hx with hx | hx
      · exact .inr (.inr ⟨x, (List.mem_filter.1 hx).1, hin⟩)
      · rw [List.mem_singleton.1 hx] at hin
        exact .inl hin
  · intro h
    by_cases hq : q <+: place
    · exact .inr ⟨(place, e), by simp [putIn], hq⟩
    · obtain rfl | ⟨x, hx, hin⟩ := h.resolve_left hq
      · exact absurd List.nil_prefix hq
      · have hne : x.1 ≠ place := fun heq => hq (heq ▸ hin)
        exact .inr ⟨x, List.mem_append_left _ (List.mem_filter.2 ⟨hx, by simpa using hne⟩), hin⟩

theorem entryIn?_putIn (hthere : Holds entries dir) :
    entryIn? (putIn entries (dir ++ [name]) e) q = if q = dir ++ [name] then some e else entryIn? entries q := by
  split
  · rename_i hq
    rw [hq, entryIn?_of_holds (holds_putIn.2 (.inl (List.prefix_refl _))), listed_putIn_self]
  · rename_i hq
    refine entryIn?_congr (listed_putIn_of_ne hq) (holds_putIn.trans (or_iff_right_of_imp fun hin => ?_))
    exact hthere.above ((List.prefix_concat_iff.1 hin).resolve_left hq)

/-! ### Taking away -/

/-- The entries that are neither at the place nor below it. -/
def beside (entries : List (List String × FileEntry)) (place : List String) : List (List String × FileEntry) :=
  entries.filter fun x => !place.isPrefixOf x.1

theorem mem_beside {x : List String × FileEntry} : x ∈ beside entries place ↔ x ∈ entries ∧ ¬ place <+: x.1 := by
  rw [beside, List.mem_filter, Bool.not_eq_true', ← Bool.not_eq_true, List.isPrefixOf_iff_prefix]

theorem removeIn_eq : removeIn entries (dir ++ [name]) =
    if (entryIn? (beside entries (dir ++ [name])) dir).isSome then beside entries (dir ++ [name])
    else beside entries (dir ++ [name]) ++ [(dir, .directory)] := by
  rw [removeIn, List.dropLast_concat, beside]

/-- The directory stays: what is left shows it, or it is listed for that. -/
theorem holds_removeIn : Holds (removeIn entries (dir ++ [name])) q ↔
    q <+: dir ∨ Holds (beside entries (dir ++ [name])) q := by
  rw [removeIn_eq]
  split
  · rename_i hdir
    exact (or_iff_right_of_imp (holds_iff.2 hdir).above).symm
  · constructor
    · rintro (rfl | ⟨x, hx, hin⟩)
      · exact .inl List.nil_prefix
      · rcases List.mem_append.1 hx with hx | hx
        · exact .inr (.inr ⟨x, hx, hin⟩)
        · rw [List.mem_singleton.1 hx] at hin
          exact .inl hin
    · rintro (hq | rfl | ⟨x, hx, hin⟩)
      · exact .inr ⟨(dir, .directory), by simp, hq⟩
      · exact .inl rfl
      · exact .inr ⟨x, List.mem_append_left _ hx, hin⟩

theorem listed_removeIn (hq : ¬ dir ++ [name] <+: q) :
    listed (removeIn entries (dir ++ [name])) q = listed entries q := by
  have hkeeps : (beside entries (dir ++ [name])).find? (·.1 == q) = entries.find? (·.1 == q) := by
    refine find?_filter_of_keeps fun x hx => ?_
    rwa [hx, Bool.not_eq_true', ← Bool.not_eq_true, List.isPrefixOf_iff_prefix]
  rw [removeIn_eq]
  split
  · rw [listed, hkeeps, listed]
  · rw [listed, listed, List.find?_append, hkeeps]
    by_cases hd : dir = q <;> cases entries.find? (·.1 == q) <;> simp [hd]

theorem entryIn?_removeIn (hthere : Holds entries dir) :
    entryIn? (removeIn entries (dir ++ [name])) q = if dir ++ [name] <+: q then none else entryIn? entries q := by
  split
  · rename_i hq
    refine entryIn?_of_not_holds fun h => ?_
    rcases holds_removeIn.1 h with hin | hin | ⟨x, hx, hin⟩
    · exact not_snoc_above hin hq
    · simp [hin] at hq
    · exact (mem_beside.1 hx).2 (hq.trans hin)
  · rename_i hq
    refine entryIn?_congr (listed_removeIn hq) (holds_removeIn.trans ⟨?_, ?_⟩)
    · rintro (hin | hin | ⟨x, hx, hin⟩)
      · exact hthere.above hin
      · exact .inl hin
      · exact .inr ⟨x, (mem_beside.1 hx).1, hin⟩
    · rintro (rfl | ⟨x, hx, hin⟩)
      · exact .inl List.nil_prefix
      · by_cases hname : dir ++ [name] <+: x.1
        · have hsnoc : q <+: dir ++ [name] := (List.prefix_or_prefix_of_prefix hin hname).resolve_right hq
          refine .inl ((List.prefix_concat_iff.1 hsnoc).resolve_left fun heq => hq ?_)
          rw [heq]
        · exact .inr (.inr ⟨x, mem_beside.2 ⟨hx, hname⟩, hin⟩)

/-! ### Moving a file -/

/-- A listed entry after a move. -/
def moved (source target : List String) (x : List String × FileEntry) : List String × FileEntry :=
  if source.isPrefixOf x.1 then (target ++ x.1.drop source.length, x.2) else x

theorem moveIn_eq (source target : List String) :
    moveIn entries source target = (entries.filter (·.1 != target)).map (moved source target) := rfl

section

variable {source target : List String} {x : List String × FileEntry}

theorem moved_of_outside (h : ¬ source <+: x.1) : moved source target x = x :=
  if_neg (by rwa [List.isPrefixOf_iff_prefix])

theorem moved_fst (h : source <+: x.1) : target <+: (moved source target x).1 := by
  rw [moved, if_pos (List.isPrefixOf_iff_prefix.2 h)]
  exact List.prefix_append _ _

theorem moved_fst_eq_iff (hx : x.1 ≠ target) : (moved source target x).1 = target ↔ x.1 = source := by
  by_cases h : source <+: x.1
  · obtain ⟨rest, hrest⟩ := h
    simp [moved, ← hrest, List.isPrefixOf_iff_prefix]
  · rw [moved_of_outside h]
    exact ⟨fun heq => absurd heq hx, fun heq => absurd (heq ▸ List.prefix_refl _) h⟩

end

section

variable {a b : String} {content : List UInt8}

/-- Nothing is left at the old name. -/
theorem entryIn?_moveIn_source (hne : a ≠ b) :
    entryIn? (moveIn entries (dir ++ [a]) (dir ++ [b])) (dir ++ [a]) = none := by
  refine entryIn?_of_not_holds ?_
  rintro (h | ⟨x, hx, hin⟩)
  · simp at h
  · rw [moveIn_eq] at hx
    obtain ⟨y, hy, rfl⟩ := List.mem_map.1 hx
    by_cases hsource : dir ++ [a] <+: y.1
    · exact not_both_above hne hin (moved_fst hsource)
    · exact hsource (moved_of_outside hsource ▸ hin)

/-- The new name has the file. -/
theorem entryIn?_moveIn_target (hne : a ≠ b) (hfile : entryIn? entries (dir ++ [a]) = some (.file content)) :
    entryIn? (moveIn entries (dir ++ [a]) (dir ++ [b])) (dir ++ [b]) = some (.file content) := by
  have hsame : ∀ x ∈ entries.filter (·.1 != dir ++ [b]),
      ((·.1 == dir ++ [b]) ∘ moved (dir ++ [a]) (dir ++ [b])) x = (x.1 == dir ++ [a]) := by
    intro x hx
    have hb : x.1 ≠ dir ++ [b] := by simpa using (List.mem_filter.1 hx).2
    rw [Bool.eq_iff_iff, Function.comp_apply, beq_iff_eq, beq_iff_eq, moved_fst_eq_iff hb]
  have hfind : (moveIn entries (dir ++ [a]) (dir ++ [b])).find? (·.1 == dir ++ [b]) =
      some (dir ++ [b], .file content) := by
    rw [moveIn_eq, List.find?_map, List.find?_congr hsame,
      find?_filter_of_keeps fun x hx => by simpa [hx] using hne, find?_of_file hfile]
    simp [moved, List.isPrefixOf_iff_prefix]
  rw [entryIn?, hfind]

/-- What is neither at the old name nor at the new one stays. -/
theorem entryIn?_moveIn_other (hthere : Holds entries dir) (hne : a ≠ b)
    (hfile : entryIn? entries (dir ++ [a]) = some (.file content)) (ha : ¬ dir ++ [a] <+: q)
    (hb : ¬ dir ++ [b] <+: q) : entryIn? (moveIn entries (dir ++ [a]) (dir ++ [b])) q = entryIn? entries q := by
  have hfind : (moveIn entries (dir ++ [a]) (dir ++ [b])).find? (·.1 == q) = entries.find? (·.1 == q) := by
    have hsame : ∀ x, ((·.1 == q) ∘ moved (dir ++ [a]) (dir ++ [b])) x = (x.1 == q) := by
      intro x
      rw [Bool.eq_iff_iff, Function.comp_apply, beq_iff_eq, beq_iff_eq]
      by_cases hx : dir ++ [a] <+: x.1
      · exact ⟨fun h => absurd (h ▸ moved_fst hx) hb, fun h => absurd (h ▸ hx) ha⟩
      · rw [moved_of_outside hx]
    have hq : q ≠ dir ++ [b] := fun h => hb (h ▸ List.prefix_refl _)
    rw [moveIn_eq, List.find?_map, List.find?_congr fun x _ => hsame x,
      find?_filter_of_keeps fun x hx => by simpa [hx] using hq]
    cases hfind : entries.find? (·.1 == q) with
    | none => rfl
    | some x =>
      have hx : x.1 = q := by simpa using List.find?_some hfind
      rw [Option.map_some, moved_of_outside (hx ▸ ha)]
  refine entryIn?_congr (by rw [listed, listed, hfind]) ⟨?_, ?_⟩
  · rintro (h | ⟨x, hx, hin⟩)
    · exact .inl h
    · rw [moveIn_eq] at hx
      obtain ⟨y, hy, rfl⟩ := List.mem_map.1 hx
      by_cases hsource : dir ++ [a] <+: y.1
      · have hsnoc : q <+: dir ++ [b] := (List.prefix_or_prefix_of_prefix hin (moved_fst hsource)).resolve_right hb
        refine hthere.above ((List.prefix_concat_iff.1 hsnoc).resolve_left fun heq => hb ?_)
        rw [heq]
      · rw [moved_of_outside hsource] at hin
        exact .inr ⟨y, (List.mem_filter.1 hy).1, hin⟩
  · have hnew : Holds (moveIn entries (dir ++ [a]) (dir ++ [b])) (dir ++ [b]) :=
      holds_iff.2 (by rw [entryIn?_moveIn_target hne hfile, Option.isSome_some])
    rintro (h | ⟨x, hx, hin⟩)
    · exact .inl h
    · by_cases htarget : x.1 = dir ++ [b]
      · exact hnew.above (htarget ▸ hin)
      · by_cases hsource : dir ++ [a] <+: x.1
        · have hsnoc : q <+: dir ++ [a] := (List.prefix_or_prefix_of_prefix hin hsource).resolve_right ha
          refine hnew.above (((List.prefix_concat_iff.1 hsnoc).resolve_left fun heq => ha ?_).trans
            (List.prefix_append _ _))
          rw [heq]
        · refine .inr ⟨x, ?_, hin⟩
          rw [moveIn_eq]
          exact List.mem_map.2 ⟨x, List.mem_filter.2 ⟨hx, by simpa using htarget⟩, moved_of_outside hsource⟩

end

/-! ### Names -/

theorem mem_namesIn : name ∈ namesIn entries dir ↔ Holds entries (dir ++ [name]) := by
  rw [namesIn, List.mem_eraseDups, List.mem_filterMap]
  constructor
  · rintro ⟨x, hx, hname⟩
    split at hname
    · rename_i hin
      obtain ⟨rest, hrest⟩ := List.isPrefixOf_iff_prefix.1 hin
      rw [← hrest, List.getElem?_append_right (Nat.le_refl _), Nat.sub_self] at hname
      cases rest with
      | nil => cases hname
      | cons first more =>
        obtain rfl : first = name := Option.some.inj hname
        exact .inr ⟨x, hx, more, by rw [← hrest, List.append_assoc, List.singleton_append]⟩
    · cases hname
  · rintro (h | ⟨x, hx, more, hmore⟩)
    · simp at h
    · rw [List.append_assoc] at hmore
      refine ⟨x, hx, ?_⟩
      rw [if_pos (List.isPrefixOf_iff_prefix.2 ⟨_, hmore⟩), ← hmore,
        List.getElem?_append_right (Nat.le_refl _), Nat.sub_self]
      rfl

end

/-! ## Places of a machine -/

/-- A place known by its parts, at the root or in the working directory. -/
def spot (absolute : Bool) (parts : List String) : FilePlace :=
  if absolute then .elsewhere parts else .below parts

/-- What is listed on the one side or on the other. -/
def side (s : FileStore) (absolute : Bool) : List (List String × FileEntry) :=
  if absolute then s.outside else s.entries

section

variable {s : FileStore} {absolute : Bool} {dir place q : List String} {name : String} {e : FileEntry}

theorem entry?_spot : s.entry? (spot absolute q) = entryIn? (s.side absolute) q := by
  cases absolute <;> rfl

theorem placeIn_spot : placeIn (spot absolute dir) name = spot absolute (dir ++ [name]) := by
  cases absolute <;> rfl

theorem side_putAt : (s.putAt (spot absolute place) e).side absolute = putIn (s.side absolute) place e := by
  cases absolute <;> rfl

theorem side_removeAt : (s.removeAt (spot absolute place)).side absolute = removeIn (s.side absolute) place := by
  cases absolute <;> rfl

theorem side_move {source target : List String} : (s.move (spot absolute source) (spot absolute target)).side absolute =
    moveIn (s.side absolute) source target := by
  cases absolute <;> rfl

theorem names_spot : s.names (spot absolute dir) = namesIn (s.side absolute) dir := by
  cases absolute <;> rfl

end

/-! ## Directories -/

/-- The directory with all above it is there, and under each name in it stands what the map has for it. -/
structure Directory (s : FileStore) (absolute : Bool) (dir : List String) (contents : String → Option FileEntry) :
    Prop where
  above : ∀ q, q <+: dir → s.entry? (spot absolute q) = some .directory
  inside : ∀ name, s.entry? (spot absolute (dir ++ [name])) = contents name

namespace Directory

variable {s : FileStore} {absolute : Bool} {dir : List String} {contents : String → Option FileEntry}
  (h : s.Directory absolute dir contents)
include h

theorem holds : Holds (s.side absolute) dir := by
  rw [holds_iff, ← entry?_spot, h.above dir (List.prefix_refl _), Option.isSome_some]

/-- The store after a change that keeps what is above the directory. -/
theorem change {s' : FileStore} {contents' : String → Option FileEntry}
    (habove : ∀ q, q <+: dir → entryIn? (s'.side absolute) q = entryIn? (s.side absolute) q)
    (hinside : ∀ name, entryIn? (s'.side absolute) (dir ++ [name]) = contents' name) :
    s'.Directory absolute dir contents' where
  above q hq := by rw [entry?_spot, habove q hq, ← entry?_spot, h.above q hq]
  inside name := by rw [entry?_spot, hinside name]

theorem entryIn?_inside (name : String) : entryIn? (s.side absolute) (dir ++ [name]) = contents name := by
  rw [← entry?_spot, h.inside]

theorem putAt (name : String) (e : FileEntry) :
    (s.putAt (placeIn (spot absolute dir) name) e).Directory absolute dir
      (Function.update contents name (some e)) := by
  refine h.change (fun q hq => ?_) fun n => ?_
  · rw [placeIn_spot, side_putAt, entryIn?_putIn h.holds, if_neg]
    rintro rfl
    exact not_snoc_above hq (List.prefix_refl _)
  · rw [placeIn_spot, side_putAt, entryIn?_putIn h.holds, h.entryIn?_inside, Function.update_apply]
    simp

theorem removeAt (name : String) :
    (s.removeAt (placeIn (spot absolute dir) name)).Directory absolute dir
      (Function.update contents name none) := by
  refine h.change (fun q hq => ?_) fun n => ?_
  · rw [placeIn_spot, side_removeAt, entryIn?_removeIn h.holds, if_neg (not_snoc_above hq)]
  · rw [placeIn_spot, side_removeAt, entryIn?_removeIn h.holds, h.entryIn?_inside, Function.update_apply]
    simp [List.prefix_append_right_inj, eq_comm]

theorem move {a b : String} {content : List UInt8} (ha : contents a = some (.file content)) (hne : a ≠ b) :
    (s.move (placeIn (spot absolute dir) a) (placeIn (spot absolute dir) b)).Directory absolute dir
      (Function.update (Function.update contents b (some (.file content))) a none) := by
  have hfile : entryIn? (s.side absolute) (dir ++ [a]) = some (.file content) := by rw [h.entryIn?_inside, ha]
  refine h.change (fun q hq => ?_) fun n => ?_
  · rw [placeIn_spot, placeIn_spot, side_move,
      entryIn?_moveIn_other h.holds hne hfile (not_snoc_above hq) (not_snoc_above hq)]
  · rw [placeIn_spot, placeIn_spot, side_move, Function.update_apply, Function.update_apply]
    split
    · rename_i hn
      rw [hn, entryIn?_moveIn_source hne]
    · split
      · rename_i hn
        rw [hn, entryIn?_moveIn_target hne hfile]
      · rename_i hna hnb
        rw [entryIn?_moveIn_other h.holds hne hfile, h.entryIn?_inside]
        · simpa [List.prefix_append_right_inj] using Ne.symm hna
        · simpa [List.prefix_append_right_inj] using Ne.symm hnb

theorem mem_list {name : String} {e : FileEntry} :
    (name, e) ∈ s.list (spot absolute dir) ↔ contents name = some e := by
  rw [list, List.mem_filterMap, names_spot]
  constructor
  · rintro ⟨n, -, hn⟩
    obtain ⟨e', he', heq⟩ := Option.map_eq_some_iff.1 hn
    obtain ⟨rfl, rfl⟩ := Prod.mk.inj heq
    rw [← h.inside, ← placeIn_spot, he']
  · intro hname
    refine ⟨name, ?_, ?_⟩
    · rw [mem_namesIn, holds_iff, h.entryIn?_inside, hname, Option.isSome_some]
    · rw [placeIn_spot, h.inside, hname, Option.map_some]

end Directory

theorem nodup_namesIn (entries : List (List String × FileEntry)) (dir : List String) :
    (namesIn entries dir).Nodup := by
  have hdups : ∀ (n : Nat) (names : List String), names.length ≤ n → names.eraseDups.Nodup := by
    intro n
    induction n with
    | zero => exact fun names h => by simp [List.eq_nil_of_length_eq_zero (Nat.le_zero.1 h)]
    | succ n ih =>
      rintro (_ | ⟨name, names⟩) h
      · simp
      · have hshort : (names.filter fun other => !other == name).length ≤ n :=
          (List.length_filter_le _ _).trans (Nat.le_of_succ_le_succ h)
        rw [List.eraseDups_cons, List.nodup_cons]
        exact ⟨by simp [List.mem_eraseDups], ih _ hshort⟩
  exact hdups _ _ (Nat.le_refl _)

/-- Each name is listed once. -/
theorem nodup_list (s : FileStore) (place : FilePlace) : ((s.list place).map Prod.fst).Nodup := by
  have hnames : (s.names place).Nodup := by
    unfold names
    split
    · exact nodup_namesIn _ _
    · exact nodup_namesIn _ _
    · exact List.nodup_nil
  have hlist : (s.list place).map Prod.fst =
      (s.names place).filter fun name => (s.entry? (placeIn place name)).isSome := by
    rw [list, List.map_filterMap, ← List.filterMap_eq_filter]
    refine congrArg (List.filterMap · _) (funext fun name => ?_)
    cases hentry : s.entry? (placeIn place name) <;> simp [Option.guard, hentry]
  rw [hlist]
  exact hnames.filter _

end ScriptTree.FileStore
