/-
Putting the log aside. What is written goes to the end of one file until that is put aside as a volume, named by the
second in which this happens (`Shelf`). A volume replaces the one before it if that has the same stamp, and of those
that are left the last five are kept (`kept`). The directory of the log holds these and the current file, nothing else
(`appendAll_shelved`). So no line is lost but with a volume that five later ones follow, as long as no two volumes
have the same stamp; and as soon as two have, the lines of the first of them are lost (`keeps_iff`).
-/
import ScriptTree.Proofs.Log.Journal
import ScriptTree.Proofs.Time.Moment

namespace ScriptTree.Log

open FileStore (Ordinary spot placeIn placeIn_spot)

/-! ## Names -/

section

variable {path : Path} {s t : String}

theorem splitName_toList (name : String) :
    (Path.splitName name).1.toList ++ (Path.splitName name).2.toList = name.toList := by
  unfold Path.splitName
  dsimp only
  split
  · rw [String.toList_ofList, String.toList_ofList, List.take_append_drop]
  · simp

theorem asideName_toList : (asideName path s).toList =
    (path.stem.toList ++ ['.']) ++ (s.toList ++ path.suffix.toList) := by
  rw [asideName]
  simp only [String.toList_append, List.append_assoc]
  rfl

theorem isPutAside_asideName : isPutAside path.stem path.suffix (asideName path s) = true := by
  unfold isPutAside
  dsimp only
  rw [asideName_toList, Bool.and_eq_true, Bool.and_eq_true, List.isPrefixOf_iff_prefix, List.isSuffixOf_iff_suffix,
    decide_eq_true_eq]
  refine ⟨⟨List.prefix_append _ _, (List.suffix_append _ _).trans (List.suffix_append _ _)⟩, ?_⟩
  simp only [List.length_append]
  omega

/-- The log itself is not one of the files that are put aside. -/
theorem isPutAside_name : isPutAside path.stem path.suffix path.name = false := by
  have hname := splitName_toList path.name
  rw [← Bool.not_eq_true]
  intro h
  unfold isPutAside at h
  dsimp only at h
  rw [Bool.and_eq_true, decide_eq_true_eq] at h
  have hlength := h.2
  rw [← hname] at hlength
  simp only [List.length_append, List.length_singleton] at hlength
  unfold Path.stem Path.suffix at hlength
  omega

theorem asideName_ne_name : asideName path s ≠ path.name := by
  intro h
  have haside : isPutAside path.stem path.suffix (asideName path s) = true := isPutAside_asideName
  rw [h, isPutAside_name] at haside
  cases haside

theorem asideName_inj (h : asideName path s = asideName path t) : s = t := by
  rw [← String.toList_inj, asideName_toList, asideName_toList, List.append_cancel_left_eq,
    List.append_cancel_right_eq, String.toList_inj] at h
  exact h

/-- The names of files put aside are ordered as their stamps. -/
theorem asideName_lt (hlength : s.toList.length = t.toList.length) (h : s < t) :
    asideName path s < asideName path t := by
  rw [String.lt_iff_toList_lt] at h ⊢
  rw [asideName_toList, asideName_toList]
  exact append_lt_append rfl (.inr ⟨rfl, append_lt_append hlength (.inl h)⟩)

end

/-! ## Volumes -/

/-- What was put aside at one moment. A line that cannot be encoded is one of the lines, though it has no bytes. -/
structure Volume where
  stamp : String
  lines : List Points

/-- All that was put aside, in the order in which this happened, and the lines written since. -/
structure Shelf where
  closed : List Volume
  current : List Points

namespace Shelf

/-- Nothing was written yet. -/
def empty : Shelf := ⟨[], []⟩

/-- All lines that were written. -/
def lines (s : Shelf) : List Points :=
  s.closed.flatMap Volume.lines ++ s.current

/-- Writes a line, before which the current ones are put aside if they are more than the limit and there can be a
file for the stamp. -/
def write (limit : Int) (takes : String → Bool) (stamp : String) (line : Points) (s : Shelf) : Shelf :=
  if s.current ≠ [] ∧ limit < (bytesOf s.current).length ∧ takes stamp then
    { closed := s.closed ++ [⟨stamp, s.current⟩], current := [line] }
  else { s with current := s.current ++ [line] }

theorem lines_write (limit : Int) (takes : String → Bool) (stamp : String) (line : Points) (s : Shelf) :
    (s.write limit takes stamp line).lines = s.lines ++ [line] := by
  unfold write
  split <;> simp [lines]

end Shelf

/-- The volumes whose stamp no later one has. -/
def survivors : List Volume → List Volume
  | [] => []
  | v :: vs => if v.stamp ∈ vs.map Volume.stamp then survivors vs else v :: survivors vs

/-- The volumes that are kept: the last five of those that were not replaced. -/
def kept (vs : List Volume) : List Volume :=
  (survivors vs).rtake keptFiles

/-- Each volume may have the stamp of the one before it, but none less. -/
def Ordered (vs : List Volume) : Prop :=
  vs.Pairwise fun v w => v.stamp ≤ w.stamp

section

variable {vs : List Volume} {v : Volume}

theorem survivors_sublist (vs : List Volume) : (survivors vs).Sublist vs := by
  induction vs with
  | nil => exact .slnil
  | cons v vs ih =>
    rw [survivors]
    split
    · exact ih.cons v
    · exact ih.cons_cons v

theorem survivors_concat (vs : List Volume) (v : Volume) :
    survivors (vs ++ [v]) = (survivors vs).filter (·.stamp != v.stamp) ++ [v] := by
  induction vs with
  | nil => rfl
  | cons w vs ih =>
    have hmem : w.stamp ∈ (vs ++ [v]).map Volume.stamp ↔ w.stamp ∈ vs.map Volume.stamp ∨ w.stamp = v.stamp := by
      simp
    rw [List.cons_append, survivors, survivors, ih]
    by_cases hlater : w.stamp ∈ vs.map Volume.stamp
    · rw [if_pos (hmem.2 (.inl hlater)), if_pos hlater]
    · by_cases hsame : w.stamp = v.stamp
      · rw [if_pos (hmem.2 (.inr hsame)), if_neg hlater, List.filter_cons_of_neg (by simp [hsame])]
      · rw [if_neg (mt hmem.1 (not_or.2 ⟨hlater, hsame⟩)), if_neg hlater, List.filter_cons_of_pos (by simp [hsame])]
        rfl

theorem survivors_of_nodup (h : (vs.map Volume.stamp).Nodup) : survivors vs = vs := by
  induction vs with
  | nil => rfl
  | cons v vs ih =>
    rw [List.map_cons, List.nodup_cons] at h
    rw [survivors, if_neg h.1, ih h.2]

theorem nodup_survivors (vs : List Volume) : ((survivors vs).map Volume.stamp).Nodup := by
  induction vs with
  | nil => exact List.nodup_nil
  | cons v vs ih =>
    rw [survivors]
    split
    · exact ih
    · rename_i hlater
      rw [List.map_cons, List.nodup_cons]
      exact ⟨fun hmem => hlater ((survivors_sublist vs).map Volume.stamp |>.subset hmem), ih⟩

theorem length_kept_le (vs : List Volume) : (kept vs).length ≤ keptFiles := by
  rw [kept, List.rtake, List.length_drop]
  omega

theorem mem_of_mem_kept (h : v ∈ kept vs) : v ∈ survivors vs :=
  List.mem_of_mem_drop h

theorem rtake_rtake {α : Type} (l : List α) {m n : Nat} (h : m ≤ n) : (l.rtake n).rtake m = l.rtake m := by
  rw [List.rtake_eq_reverse_take_reverse, List.rtake_eq_reverse_take_reverse, List.rtake_eq_reverse_take_reverse,
    List.reverse_reverse, List.take_take, Nat.min_eq_left h]

namespace Ordered

theorem survivors_lt (h : Ordered vs) : (survivors vs).Pairwise fun v w => v.stamp < w.stamp := by
  have hle : (survivors vs).Pairwise fun v w => v.stamp ≤ w.stamp := List.Pairwise.sublist (survivors_sublist vs) h
  have hne : (survivors vs).Pairwise fun v w => v.stamp ≠ w.stamp := List.pairwise_map.1 (nodup_survivors vs)
  exact hle.imp₂ (fun v w hle hne => lt_of_le_of_ne hle hne) hne

theorem kept_lt (h : Ordered vs) : (kept vs).Pairwise fun v w => v.stamp < w.stamp :=
  h.survivors_lt.sublist (List.drop_sublist _ _)

/-- A new volume replaces the last one if that has its stamp, and comes behind those that are left. -/
theorem kept_concat (h : Ordered (vs ++ [v])) :
    kept (vs ++ [v]) = ((kept vs).filter (·.stamp != v.stamp) ++ [v]).rtake keptFiles := by
  obtain ⟨hvs, -, hlast⟩ := List.pairwise_append.1 h
  have hless : ∀ w ∈ survivors vs, w.stamp ≤ v.stamp :=
    fun w hw => hlast w ((survivors_sublist vs).subset hw) v (List.mem_singleton_self v)
  have hsorted := survivors_lt hvs
  obtain ⟨n, hn⟩ : ∃ n, keptFiles = n + 1 := ⟨4, rfl⟩
  rw [kept, kept, survivors_concat, hn, List.rtake_concat_succ, List.rtake_concat_succ]
  congr 1
  rcases List.eq_nil_or_concat' (survivors vs) with hnil | ⟨others, w, hw⟩
  · simp [hnil]
  · rw [hw] at hless hsorted ⊢
    have hothers : ∀ u ∈ others, (u.stamp != v.stamp) = true := by
      intro u hu
      have hlt := (List.pairwise_append.1 hsorted).2.2 u hu w (List.mem_singleton_self w)
      exact bne_iff_ne.2 (lt_of_lt_of_le hlt (hless w (by simp))).ne
    by_cases hsame : w.stamp = v.stamp
    · have hwhole : (others ++ [w]).filter (·.stamp != v.stamp) = others := by
        rw [List.filter_append, List.filter_eq_self.2 hothers, List.filter_cons_of_neg (by simp [hsame])]
        simp
      have hend : ((others ++ [w]).rtake (n + 1)).filter (·.stamp != v.stamp) = others.rtake n := by
        have hfew : ∀ u ∈ others.rtake n, (u.stamp != v.stamp) = true := fun u hu => hothers u (List.mem_of_mem_drop hu)
        rw [List.rtake_concat_succ, List.filter_append, List.filter_eq_self.2 hfew,
          List.filter_cons_of_neg (by simp [hsame])]
        simp
      rw [hwhole, hend, rtake_rtake _ (Nat.le_refl n)]
    · have hall : ∀ u ∈ others ++ [w], (u.stamp != v.stamp) = true :=
        List.forall_mem_append.2 ⟨hothers, List.forall_mem_singleton.2 (bne_iff_ne.2 hsame)⟩
      have hfew : ∀ u ∈ (others ++ [w]).rtake (n + 1), (u.stamp != v.stamp) = true :=
        fun u hu => hall u (List.mem_of_mem_drop hu)
      rw [List.filter_eq_self.2 hall, List.filter_eq_self.2 hfew, rtake_rtake _ (Nat.le_succ n)]

end Ordered

end

/-! ## Pruning -/

/-- Entries sorted from the greatest name to the least. -/
theorem names_mergeSort {entries : List (String × FileEntry)} {names : List String}
    (hnodup : (entries.map Prod.fst).Nodup) (hsorted : names.Pairwise (· < ·))
    (hnames : ∀ n, n ∈ names ↔ n ∈ entries.map Prod.fst) :
    (entries.mergeSort fun a b => decide (b.1 ≤ a.1)).map Prod.fst = names.reverse := by
  have hperm := (List.mergeSort_perm entries fun a b => decide (b.1 ≤ a.1)).map Prod.fst
  have hdown : ((entries.mergeSort fun a b => decide (b.1 ≤ a.1)).map Prod.fst).Pairwise (· ≥ ·) := by
    rw [List.pairwise_map]
    refine (List.pairwise_mergeSort ?_ ?_ _).imp of_decide_eq_true
    · intro a b c hab hbc
      exact decide_eq_true ((of_decide_eq_true hbc).trans (of_decide_eq_true hab))
    · intro a b
      rw [Bool.or_eq_true, decide_eq_true_eq, decide_eq_true_eq]
      exact le_total b.1 a.1
  have hdown' : names.reverse.Pairwise (· ≥ ·) := List.pairwise_reverse.2 (hsorted.imp le_of_lt)
  refine List.Perm.eq_of_pairwise (fun a b _ _ hab hba => le_antisymm hba hab) hdown hdown' (hperm.trans ?_)
  refine (List.perm_ext_iff_of_nodup hnodup (List.nodup_reverse.2 (hsorted.imp ne_of_lt))).2 fun n => ?_
  rw [List.mem_reverse, hnames]

section

variable {files : FileStore} {absolute : Bool} {dir : List String} {contents : String → Option FileEntry}

theorem removeAll_directory {entries : List (String × FileEntry)} (hfiles : ∀ e ∈ entries, e.2.isDirectory = false)
    (h : files.Directory absolute dir contents) :
    (removeAll (spot absolute dir) files entries).Directory absolute dir
      fun n => if n ∈ entries.map Prod.fst then none else contents n := by
  induction entries generalizing files contents with
  | nil => simpa [removeAll] using h
  | cons e entries ih =>
    obtain ⟨name, e⟩ := e
    obtain ⟨hfile, hfiles⟩ := List.forall_mem_cons.1 hfiles
    have hstep : removeAll (spot absolute dir) files ((name, e) :: entries) =
        removeAll (spot absolute dir) (files.removeAt (placeIn (spot absolute dir) name)) entries := by
      rw [removeAll, hfile, if_neg Bool.false_ne_true]
    have hcontents : (fun n => if n ∈ ((name, e) :: entries).map Prod.fst then none else contents n) =
        fun n => if n ∈ entries.map Prod.fst then none else Function.update contents name none n := by
      funext n
      rw [Function.update_apply, List.map_cons]
      by_cases hn : n = name
      · simp [hn]
      · simp only [List.mem_cons, hn, false_or, if_false]
    rw [hstep, hcontents]
    exact ih hfiles (h.removeAt name)

/-- Of the files put aside those with the greatest names are left. -/
theorem prune_directory {path : Path} (h : files.Directory absolute dir contents)
    (hfiles : ∀ n, (contents n).any (·.isDirectory) = false) {names : List String} (hsorted : names.Pairwise (· < ·))
    (hnames : ∀ n, n ∈ names ↔ isPutAside path.stem path.suffix n = true ∧ (contents n).isSome) :
    (prune path (spot absolute dir) files).Directory absolute dir
      fun n => if n ∈ names.rdrop keptFiles then none else contents n := by
  unfold prune
  dsimp only
  generalize hentries :
    (files.list (spot absolute dir)).filter (fun e => isPutAside path.stem path.suffix e.1) = entries
  have hmem : ∀ e, e ∈ entries ↔ contents e.1 = some e.2 ∧ isPutAside path.stem path.suffix e.1 = true := by
    intro e
    rw [← hentries, List.mem_filter, ← h.mem_list]
  have hnodup : (entries.map Prod.fst).Nodup := by
    rw [← hentries]
    exact (FileStore.nodup_list _ _).sublist (List.filter_sublist.map Prod.fst)
  have hlisted : ∀ n, n ∈ names ↔ n ∈ entries.map Prod.fst := by
    intro n
    rw [hnames, List.mem_map]
    constructor
    · rintro ⟨hname, hthere⟩
      obtain ⟨entry, hentry⟩ := Option.isSome_iff_exists.1 hthere
      exact ⟨(n, entry), (hmem _).2 ⟨hentry, hname⟩, rfl⟩
    · rintro ⟨e, he, rfl⟩
      obtain ⟨hcontents, hname⟩ := (hmem e).1 he
      exact ⟨hname, by rw [hcontents, Option.isSome_some]⟩
  have hfst := names_mergeSort hnodup hsorted hlisted
  generalize hold : entries.mergeSort (fun a b => decide (b.1 ≤ a.1)) = old at hfst ⊢
  have hremoved : (old.drop keptFiles).map Prod.fst = (names.rdrop keptFiles).reverse := by
    rw [List.map_drop, hfst, List.rdrop_eq_reverse_drop_reverse, List.reverse_reverse]
  have hplain : ∀ e ∈ old.drop keptFiles, e.2.isDirectory = false := by
    intro e he
    have hin : e ∈ entries := List.mem_mergeSort.1 (hold ▸ List.mem_of_mem_drop he)
    have hfile := hfiles e.1
    rwa [((hmem e).1 hin).1, Option.any_some] at hfile
  have hpruned := removeAll_directory hplain h
  simpa only [hremoved, List.mem_reverse] using hpruned

end

/-! ## The directory of the log -/

/-- The file name of a volume. -/
def Volume.name (path : Path) (v : Volume) : String :=
  asideName path v.stamp

/-- The files of some volumes. -/
def filed (path : Path) (vs : List Volume) (name : String) : Option FileEntry :=
  (vs.find? (·.name path == name)).map fun v => .file (bytesOf v.lines)

section

variable {path : Path} {vs : List Volume} {name : String}

theorem filed_isSome : (filed path vs name).isSome ↔ name ∈ vs.map (·.name path) := by
  rw [filed, Option.isSome_map, List.find?_isSome, List.mem_map]
  simp only [beq_iff_eq]

theorem filed_isDirectory : (filed path vs name).any (·.isDirectory) = false := by
  rw [filed]
  cases vs.find? (·.name path == name) <;> rfl

/-- A volume that is filed replaces one of its stamp. -/
theorem filed_concat (vs : List Volume) (v : Volume) : filed path (vs.filter (·.stamp != v.stamp) ++ [v]) =
    Function.update (filed path vs) (v.name path) (some (.file (bytesOf v.lines))) := by
  funext name
  rw [filed, List.find?_append, List.find?_filter, Function.update_apply]
  split
  · rename_i hname
    have hnone : vs.find? (fun w => decide ((w.stamp != v.stamp) = true ∧ (w.name path == name) = true)) = none := by
      rw [List.find?_eq_none]
      intro w hw
      simp only [bne_iff_ne, beq_iff_eq, decide_eq_true_eq, not_and]
      exact fun hne heq => hne (asideName_inj (heq.trans hname))
    rw [hnone]
    simp [hname]
  · rename_i hname
    have hsame : ∀ w ∈ vs, decide ((w.stamp != v.stamp) = true ∧ (w.name path == name) = true) =
        (w.name path == name) := by
      intro w hw
      rw [Bool.eq_iff_iff, decide_eq_true_eq, and_iff_right_iff_imp, beq_iff_eq, bne_iff_ne]
      rintro heq hstamp
      exact hname (by rw [← heq, Volume.name, Volume.name, hstamp])
    rw [List.find?_congr hsame, filed]
    cases vs.find? (·.name path == name) <;> simp [Ne.symm hname]

/-- Of volumes with different names the last ones are filed as before. -/
theorem filed_rtake (nodup : (vs.map (·.name path)).Nodup) (n : Nat) : filed path (vs.rtake n) =
    fun name => if name ∈ (vs.map (·.name path)).rdrop n then none else filed path vs name := by
  funext name
  have hparts : vs.rdrop n ++ vs.rtake n = vs := List.take_append_drop _ _
  have hfront : (vs.map (·.name path)).rdrop n = (vs.rdrop n).map (·.name path) := by
    rw [List.rdrop, List.rdrop, List.length_map, List.map_take]
  have hwhole : filed path vs name = (filed path (vs.rdrop n) name).or (filed path (vs.rtake n) name) := by
    conv_lhs => rw [← hparts]
    rw [filed, List.find?_append, filed, filed]
    cases (vs.rdrop n).find? (·.name path == name) <;> rfl
  rw [hfront, hwhole]
  split
  · rename_i hmem
    rw [← hparts, List.map_append] at nodup
    have hnot : name ∉ (vs.rtake n).map (·.name path) := fun h => List.disjoint_of_nodup_append nodup hmem h
    rw [← filed_isSome] at hnot
    simpa using hnot
  · rename_i hmem
    rw [← filed_isSome, Option.not_isSome_iff_eq_none] at hmem
    rw [hmem, Option.none_or]

end

namespace Shelf

/-- The bytes of the log, if there is one. -/
def log? (s : Shelf) : Option (List UInt8) :=
  if s.current = [] then none else some (bytesOf s.current)

/-- What the directory of the log holds. -/
def contents (path : Path) (s : Shelf) : String → Option FileEntry :=
  Function.update (filed path (kept s.closed)) path.name (s.log?.map .file)

variable {path : Path} {s : Shelf}

theorem log?_getD : s.log?.getD [] = bytesOf s.current := by
  unfold log?
  split
  · rename_i h
    rw [h]
    rfl
  · rfl

theorem contents_isDirectory (name : String) : (s.contents path name).any (·.isDirectory) = false := by
  rw [contents, Function.update_apply]
  split
  · cases s.log? <;> rfl
  · exact filed_isDirectory

/-- The current lines have their file. -/
theorem contents_name (h : s.current ≠ []) : s.contents path path.name = some (.file (bytesOf s.current)) := by
  rw [contents, Function.update_self, log?, if_neg h]
  rfl

/-- Each volume that is kept has its file. -/
theorem contents_of_mem_kept {v : Volume} (h : v ∈ kept s.closed) :
    s.contents path (v.name path) = some (.file (bytesOf v.lines)) := by
  have hfind : (kept s.closed).find? (·.name path == v.name path) = some v := by
    have hthere : ((kept s.closed).find? (·.name path == v.name path)).isSome :=
      List.find?_isSome.2 ⟨v, h, beq_self_eq_true _⟩
    obtain ⟨w, hw⟩ := Option.isSome_iff_exists.1 hthere
    have hname : w.name path = v.name path := by simpa using List.find?_some hw
    have hmem := mem_of_mem_kept (List.mem_of_find?_eq_some hw)
    rw [hw, List.inj_on_of_nodup_map (nodup_survivors _) hmem (mem_of_mem_kept h) (asideName_inj hname)]
  have hne : v.name path ≠ path.name := asideName_ne_name
  rw [contents, Function.update_of_ne hne, filed, hfind]
  rfl

end Shelf

section

variable {settings : Settings} {path : Path} {files : FileStore} {s : Shelf} (hp : Ordinary path)
include hp

/-- A log that is not put aside stays. -/
theorem rotate_shelved_of_not (h : files.Directory path.isAbsolute path.parent.parts (s.contents path))
    (hnot : ¬ (s.current ≠ [] ∧ settings.sizeLimit < (bytesOf s.current).length ∧
      takesName path (asideName path settings.now.stamp) = true)) : rotate settings path files = files := by
  rw [rotate_eq hp h, Shelf.contents, Function.update_self, Shelf.log?]
  split_ifs with hcurrent
  · rfl
  · dsimp only [Option.map_some]
    split_ifs with hsize
    · refine if_pos ?_
      rw [Bool.not_eq_true', ← Bool.not_eq_true]
      exact fun htakes => hnot ⟨hcurrent, hsize, htakes⟩
    · rfl

/-- The volumes in the directory after the log is put aside, before the oldest are removed. -/
def filled (s : Shelf) (stamp : String) : List Volume :=
  (kept s.closed).filter (·.stamp != stamp) ++ [⟨stamp, s.current⟩]

omit hp in
theorem mem_filled {v : Volume} {stamp : String} (h : v ∈ filled s stamp) : v ∈ s.closed ++ [⟨stamp, s.current⟩] := by
  rcases List.mem_append.1 h with h | h
  · exact List.mem_append_left _ ((survivors_sublist _).subset (mem_of_mem_kept (List.mem_filter.1 h).1))
  · exact List.mem_append_right _ h

omit hp in
/-- Their names are greater and greater. -/
theorem filled_sorted (path : Path) {stamp : String} (hordered : Ordered (s.closed ++ [⟨stamp, s.current⟩]))
    (hlength : ∀ v ∈ s.closed ++ [⟨stamp, s.current⟩], v.stamp.toList.length = 15) :
    ((filled s stamp).map (·.name path)).Pairwise (· < ·) := by
  obtain ⟨hclosed, -, hlast⟩ := List.pairwise_append.1 hordered
  have hstamps : (filled s stamp).Pairwise fun v w => v.stamp < w.stamp := by
    refine List.pairwise_append.2 ⟨(Ordered.kept_lt hclosed).filter _, List.pairwise_singleton _ _, ?_⟩
    intro v hv w hw
    obtain ⟨hkept, hne⟩ := List.mem_filter.1 hv
    rw [List.mem_singleton.1 hw]
    have hle := hlast v ((survivors_sublist _).subset (mem_of_mem_kept hkept)) _ (List.mem_singleton_self _)
    exact lt_of_le_of_ne hle (bne_iff_ne.1 hne)
  rw [List.pairwise_map]
  refine hstamps.imp_of_mem fun {v w} hv hw hlt => asideName_lt ?_ hlt
  rw [hlength v (mem_filled hv), hlength w (mem_filled hw)]

/-- A log that is put aside is moved to its name, and the old ones are pruned. -/
theorem rotate_eq_prune (h : files.Directory path.isAbsolute path.parent.parts (s.contents path))
    (hcurrent : s.current ≠ []) (hsize : settings.sizeLimit < (bytesOf s.current).length)
    (htakes : takesName path (asideName path settings.now.stamp) = true) :
    rotate settings path files = prune path (spot path.isAbsolute path.parent.parts)
      (files.move (placeIn (spot path.isAbsolute path.parent.parts) path.name)
        (placeIn (spot path.isAbsolute path.parent.parts) (asideName path settings.now.stamp))) := by
  have hthere : (FileStore.entry? files (placeIn (spot path.isAbsolute path.parent.parts)
      (asideName path settings.now.stamp))).any (·.isDirectory) = false := by
    rw [placeIn_spot, h.inside]
    exact Shelf.contents_isDirectory _
  rw [rotate_eq hp h, Shelf.contents_name hcurrent]
  dsimp only
  rw [sizeOf, if_pos hsize]
  unfold putAside
  dsimp only
  rw [htakes, Bool.not_true, if_neg Bool.false_ne_true]
  exact if_neg (by rw [Bool.not_eq_true]; exact hthere)

omit hp in
/-- The directory after the move: the log is gone, and a volume of its lines replaces one with the same stamp. -/
theorem move_shelved (h : files.Directory path.isAbsolute path.parent.parts (s.contents path))
    (hcurrent : s.current ≠ []) (stamp : String) :
    (files.move (placeIn (spot path.isAbsolute path.parent.parts) path.name)
      (placeIn (spot path.isAbsolute path.parent.parts) (asideName path stamp))).Directory
        path.isAbsolute path.parent.parts (Function.update (filed path (filled s stamp)) path.name none) := by
  have hne : path.name ≠ asideName path stamp := asideName_ne_name.symm
  have hfilled : Function.update (Function.update (s.contents path) (asideName path stamp)
      (some (.file (bytesOf s.current)))) path.name none =
        Function.update (filed path (filled s stamp)) path.name none := by
    rw [Shelf.contents, Function.update_comm hne, Function.update_idem]
    exact congrArg (Function.update · path.name none) (filed_concat _ ⟨stamp, s.current⟩).symm
  rw [← hfilled]
  exact h.move (Shelf.contents_name hcurrent) hne

omit hp in
/-- The names of the volumes in it are those of files put aside. -/
theorem mem_names_filled (stamp name : String) : name ∈ (filled s stamp).map (·.name path) ↔
    isPutAside path.stem path.suffix name = true ∧
      (Function.update (filed path (filled s stamp)) path.name none name).isSome := by
  rw [Function.update_apply]
  split
  · rename_i hname
    rw [hname, isPutAside_name]
    refine iff_of_false (fun hmem => ?_) (by simp)
    obtain ⟨v, -, hv⟩ := List.mem_map.1 hmem
    exact asideName_ne_name hv
  · rw [filed_isSome]
    refine (and_iff_right_of_imp fun hmem => ?_).symm
    obtain ⟨v, -, rfl⟩ := List.mem_map.1 hmem
    exact isPutAside_asideName

omit hp in
/-- The last five of them are what the shelf keeps. -/
theorem contents_filled {stamp : String} (hordered : Ordered (s.closed ++ [⟨stamp, s.current⟩]))
    (hsorted : ((filled s stamp).map (·.name path)).Pairwise (· < ·)) :
    Shelf.contents path ⟨s.closed ++ [⟨stamp, s.current⟩], []⟩ = fun name =>
      if name ∈ ((filled s stamp).map (·.name path)).rdrop keptFiles then none
      else Function.update (filed path (filled s stamp)) path.name none name := by
  rw [Shelf.contents, hordered.kept_concat, ← filled, filed_rtake (hsorted.imp ne_of_lt)]
  funext name
  rw [Function.update_apply, Function.update_apply]
  by_cases hname : name = path.name
  · rw [if_pos hname, if_pos hname, ite_self]
    rfl
  · rw [if_neg hname, if_neg hname]

/-- A log that is put aside becomes the last volume, and the last five are left. -/
theorem rotate_shelved (h : files.Directory path.isAbsolute path.parent.parts (s.contents path))
    (hcurrent : s.current ≠ []) (hsize : settings.sizeLimit < (bytesOf s.current).length)
    (htakes : takesName path (asideName path settings.now.stamp) = true)
    (hordered : Ordered (s.closed ++ [⟨settings.now.stamp, s.current⟩]))
    (hlength : ∀ v ∈ s.closed ++ [⟨settings.now.stamp, s.current⟩], v.stamp.toList.length = 15) :
    (rotate settings path files).Directory path.isAbsolute path.parent.parts
      (Shelf.contents path ⟨s.closed ++ [⟨settings.now.stamp, s.current⟩], []⟩) := by
  have hsorted := filled_sorted path hordered hlength
  have hplain : ∀ name,
      (Function.update (filed path (filled s settings.now.stamp)) path.name none name).any (·.isDirectory) = false := by
    intro name
    rw [Function.update_apply]
    split
    · rfl
    · exact filed_isDirectory
  rw [rotate_eq_prune hp h hcurrent hsize htakes, contents_filled hordered hsorted]
  exact prune_directory (move_shelved h hcurrent _) hplain hsorted (mem_names_filled _)

/-- Whether there can be a file for a volume with the stamp. -/
def takesStamp (path : Path) (stamp : String) : Bool :=
  takesName path (asideName path stamp)

/-- The directory holds what the shelf does, before a line is written and after. -/
theorem append_shelved (settings : Settings) (h : files.Way path (s.contents path))
    (hordered : Ordered (s.closed ++ [⟨settings.now.stamp, s.current⟩]))
    (hlength : ∀ v ∈ s.closed ++ [⟨settings.now.stamp, s.current⟩], v.stamp.toList.length = 15) (line : Points) :
    (append settings path line files).Directory path.isAbsolute path.parent.parts
      ((s.write settings.sizeLimit (takesStamp path) settings.now.stamp line).contents path) := by
  by_cases hput : s.current ≠ [] ∧ settings.sizeLimit < (bytesOf s.current).length ∧
      takesStamp path settings.now.stamp = true
  · have hold : Shelf.contents path ⟨s.closed ++ [⟨settings.now.stamp, s.current⟩], []⟩ path.name =
        (none : Option (List UInt8)).map .file := Function.update_self ..
    have hdir := append_of_rotate hp h (Shelf.contents_isDirectory _)
      (fun s' hs => rotate_shelved hp hs hput.1 hput.2.1 hput.2.2 hordered hlength) hold line
    rw [Shelf.contents, Function.update_idem] at hdir
    rwa [Shelf.write, if_pos hput]
  · have hrotate : ∀ s', FileStore.Directory s' path.isAbsolute path.parent.parts (s.contents path) →
        (rotate settings path s').Directory path.isAbsolute path.parent.parts (s.contents path) := by
      intro s' hs
      rwa [rotate_shelved_of_not hp hs hput]
    have hold : s.contents path path.name = s.log?.map .file := Function.update_self ..
    have hdir := append_of_rotate hp h (Shelf.contents_isDirectory _) hrotate hold line
    rw [Shelf.log?_getD, ← bytesOf_append, Shelf.contents, Function.update_idem] at hdir
    rw [Shelf.write, if_neg hput, Shelf.contents, Shelf.log?, if_neg (by simp)]
    exact hdir

end

/-! ## Runs -/

/-- The shelf after some lines were written, each at its moment. -/
def shelve (settings : Settings) (path : Path) (lines : List (Moment × Points)) : Shelf :=
  lines.foldl (fun s l => s.write settings.sizeLimit (takesStamp path) l.1.stamp l.2) .empty

section

variable {settings : Settings} {path : Path} {lines : List (Moment × Points)}

theorem shelve_concat (l : Moment × Points) : shelve settings path (lines ++ [l]) =
    (shelve settings path lines).write settings.sizeLimit (takesStamp path) l.1.stamp l.2 := by
  rw [shelve, List.foldl_append]
  rfl

theorem closed_shelve_concat (settings : Settings) (path : Path) (lines : List (Moment × Points))
    (l : Moment × Points) :
    (shelve settings path (lines ++ [l])).closed = (shelve settings path lines).closed ∨
      (shelve settings path (lines ++ [l])).closed =
        (shelve settings path lines).closed ++ [⟨l.1.stamp, (shelve settings path lines).current⟩] := by
  rw [shelve_concat, Shelf.write]
  split
  · exact .inr rfl
  · exact .inl rfl

/-- All lines are on the shelf, in the order in which they were written. -/
theorem lines_shelve : (shelve settings path lines).lines = lines.map Prod.snd := by
  induction lines using List.reverseRecOn with
  | nil => rfl
  | append_singleton lines l ih => rw [shelve_concat, Shelf.lines_write, ih, List.map_append]; rfl

/-- Each volume has the stamp of a moment at which a line was written. -/
theorem exists_of_mem_closed {v : Volume} (h : v ∈ (shelve settings path lines).closed) :
    ∃ l ∈ lines, v.stamp = l.1.stamp := by
  induction lines using List.reverseRecOn with
  | nil => cases h
  | append_singleton lines l ih =>
    have hold : v ∈ (shelve settings path lines).closed → ∃ l' ∈ lines ++ [l], v.stamp = l'.1.stamp := fun h =>
      let ⟨l', hl', hstamp⟩ := ih h
      ⟨l', List.mem_append_left _ hl', hstamp⟩
    rcases closed_shelve_concat settings path lines l with hclosed | hclosed
    · exact hold (hclosed ▸ h)
    · rw [hclosed, List.mem_append, List.mem_singleton] at h
      rcases h with h | rfl
      · exact hold h
      · exact ⟨l, by simp, rfl⟩

/-- The lines are written at moments that a clock shows one after the other. -/
structure Timely (lines : List (Moment × Points)) : Prop where
  clock : ∀ l ∈ lines, l.1.IsClock
  later : (lines.map Prod.fst).Pairwise fun a b => a.instant ≤ b.instant

theorem Timely.before {more : List (Moment × Points)} (h : Timely (lines ++ more)) : Timely lines where
  clock l hl := h.clock l (List.mem_append_left _ hl)
  later := by
    have hlater := h.later
    rw [List.map_append] at hlater
    exact (List.pairwise_append.1 hlater).1

theorem Timely.stamp_le {l l' : Moment × Points} (h : Timely (lines ++ [l])) (hl' : l' ∈ lines) :
    l'.1.stamp ≤ l.1.stamp := by
  have hlater := h.later
  rw [List.map_append] at hlater
  refine Moment.stamp_le_of_instant_le (h.clock l' (List.mem_append_left _ hl')) (h.clock l (by simp)) ?_
  exact (List.pairwise_append.1 hlater).2.2 _ (List.mem_map_of_mem hl') _ (by simp)

/-- The next volume has no smaller stamp than those there are. -/
theorem Timely.ordered_concat (settings : Settings) (path : Path) {l : Moment × Points} (h : Timely (lines ++ [l]))
    (hordered : Ordered (shelve settings path lines).closed) (current : List Points) :
    Ordered ((shelve settings path lines).closed ++ [⟨l.1.stamp, current⟩]) := by
  refine List.pairwise_append.2 ⟨hordered, List.pairwise_singleton _ _, fun v hv w hw => ?_⟩
  obtain ⟨l', hl', hstamp⟩ := exists_of_mem_closed hv
  rw [List.mem_singleton.1 hw, hstamp]
  exact h.stamp_le hl'

theorem Timely.ordered (settings : Settings) (path : Path) (h : Timely lines) :
    Ordered (shelve settings path lines).closed := by
  induction lines using List.reverseRecOn with
  | nil => exact .nil
  | append_singleton lines l ih =>
    rcases closed_shelve_concat settings path lines l with hclosed | hclosed
    · rw [hclosed]
      exact ih h.before
    · rw [hclosed]
      exact h.ordered_concat settings path (ih h.before) _

/-- The directory holds what the shelf does. -/
theorem appendAll_shelved {files : FileStore} (hp : Ordinary path) (hempty : files.Way path fun _ => none)
    (h : Timely lines) :
    (appendAll settings path files lines).Way path ((shelve settings path lines).contents path) := by
  induction lines using List.reverseRecOn with
  | nil =>
    have hnothing : (shelve settings path []).contents path = fun _ => none := by
      funext name
      rw [Shelf.contents, Function.update_apply]
      split <;> rfl
    rw [hnothing]
    exact hempty
  | append_singleton lines l ih =>
    have hordered :=
      h.ordered_concat settings path (h.before.ordered settings path) (shelve settings path lines).current
    have hlength : ∀ v ∈ (shelve settings path lines).closed ++ [⟨l.1.stamp, (shelve settings path lines).current⟩],
        v.stamp.toList.length = 15 := by
      intro v hv
      rcases List.mem_append.1 hv with hv | hv
      · obtain ⟨l', hl', hstamp⟩ := exists_of_mem_closed hv
        rw [hstamp, (h.before.clock l' hl').stamp_length]
      · rw [List.mem_singleton.1 hv, (h.clock l (by simp)).stamp_length]
    rw [appendAll_append, shelve_concat]
    exact (append_shelved hp { settings with now := l.1 } (ih h.before) hordered hlength l.2).way

end

/-! ## What is lost -/

/-- No volume is lost, but for those that as many later ones followed as are kept: each of the others has its file. -/
def Shelf.Keeps (s : Shelf) : Prop :=
  ∃ lost, s.closed = lost ++ kept s.closed ∧ (lost ≠ [] → (kept s.closed).length = keptFiles)

section

variable {s : Shelf} {vs : List Volume} {v w : Volume}

theorem keeps_of_nodup (h : (s.closed.map Volume.stamp).Nodup) : s.Keeps := by
  refine ⟨s.closed.rdrop keptFiles, ?_, fun hlost => ?_⟩
  · rw [kept, survivors_of_nodup h]
    exact (List.take_append_drop _ _).symm
  · rw [kept, survivors_of_nodup h, List.rtake, List.length_drop]
    have hlong : s.closed.length - keptFiles ≠ 0 := by
      intro hzero
      rw [List.rdrop, hzero, List.take_zero] at hlost
      exact hlost rfl
    omega

/-- The newest volume is kept. -/
theorem exists_kept_concat (vs : List Volume) (v : Volume) : ∃ others, kept (vs ++ [v]) = others ++ [v] := by
  obtain ⟨n, hn⟩ : ∃ n, keptFiles = n + 1 := ⟨4, rfl⟩
  exact ⟨_, by rw [kept, survivors_concat, hn, List.rtake_concat_succ]⟩

/-- Of two volumes with one stamp the first is lost. -/
theorem not_keeps_of_same (h : Ordered s.closed) (hclosed : s.closed = vs ++ [w] ++ [v])
    (hsame : w.stamp = v.stamp) : ¬ s.Keeps := by
  rintro ⟨lost, hsplit, hfull⟩
  have hsorted := h.kept_lt
  obtain ⟨others, hothers⟩ := exists_kept_concat (vs ++ [w]) v
  rw [hclosed, hothers] at hsplit hfull
  rw [hclosed, hothers] at hsorted
  rw [← List.append_assoc] at hsplit
  have hfront : vs ++ [w] = lost ++ others := List.append_cancel_right hsplit
  rcases List.eq_nil_or_concat' others with rfl | ⟨before, u, rfl⟩
  · have hlost : lost ≠ [] := by
      rintro rfl
      simp at hfront
    exact absurd (hfull hlost) (by simp [keptFiles])
  · rw [← List.append_assoc] at hfront
    obtain ⟨-, hlast⟩ := List.append_inj' hfront rfl
    obtain rfl : w = u := List.head_eq_of_cons_eq hlast
    have hlt := (List.pairwise_append.1 hsorted).2.2 w (by simp) v (List.mem_singleton_self v)
    exact hlt.ne hsame

/-- A volume that has the stamp of an earlier one has that of the one before it. -/
theorem Ordered.exists_same (h : Ordered (vs ++ [v])) (hmem : v.stamp ∈ vs.map Volume.stamp) :
    ∃ before w, vs = before ++ [w] ∧ w.stamp = v.stamp := by
  obtain ⟨u, hu, hstamp⟩ := List.mem_map.1 hmem
  obtain ⟨hvs, -, hlast⟩ := List.pairwise_append.1 h
  rcases List.eq_nil_or_concat' vs with rfl | ⟨before, w, rfl⟩
  · cases hu
  · refine ⟨before, w, rfl, le_antisymm (hlast w (by simp) v (List.mem_singleton_self v)) ?_⟩
    rw [← hstamp]
    rcases List.mem_append.1 hu with hu | hu
    · exact (List.pairwise_append.1 hvs).2.2 u hu w (List.mem_singleton_self w)
    · rw [List.mem_singleton.1 hu]

end

section

variable {settings : Settings} {path : Path} {lines : List (Moment × Points)}

theorem closed_shelve_grows (more : List (Moment × Points)) :
    (shelve settings path lines).closed <+: (shelve settings path (lines ++ more)).closed := by
  induction more using List.reverseRecOn with
  | nil => rw [List.append_nil]
  | append_singleton more l ih =>
    rw [← List.append_assoc]
    rcases closed_shelve_concat settings path (lines ++ more) l with hclosed | hclosed
    · rw [hclosed]
      exact ih
    · rw [hclosed]
      exact ih.trans (List.prefix_append _ _)

/-- Nothing is lost at any time if, and only if, no two volumes have the same stamp. -/
theorem keeps_iff (h : Timely lines) : (∀ before, before <+: lines → (shelve settings path before).Keeps) ↔
    ((shelve settings path lines).closed.map Volume.stamp).Nodup := by
  constructor
  · intro hkeeps
    induction lines using List.reverseRecOn with
    | nil => exact .nil
    | append_singleton lines l ih =>
      have hbefore := ih h.before fun before hbegin => hkeeps before (hbegin.trans (List.prefix_append _ _))
      have hall := hkeeps _ (List.prefix_refl _)
      have hordered := h.ordered settings path
      rcases closed_shelve_concat settings path lines l with hclosed | hclosed
      · rwa [hclosed]
      · rw [hclosed, List.map_append, List.map_singleton, List.nodup_append']
        refine ⟨hbefore, List.nodup_singleton _, List.disjoint_singleton.2 fun hmem => ?_⟩
        have hordered' := hordered
        rw [hclosed] at hordered'
        obtain ⟨before, w, hw, hsame⟩ := hordered'.exists_same hmem
        rw [hw] at hclosed
        exact not_keeps_of_same hordered hclosed hsame hall
  · rintro hnodup before ⟨more, rfl⟩
    exact keeps_of_nodup (hnodup.sublist ((closed_shelve_grows more).sublist.map _))

end

namespace Journal

/-- The shelf after some calls. -/
def shelf (j : Journal) (objects : Objects) (calls : List Call) : Shelf :=
  shelve j.settings j.path (calls.filterMap (·.written? j.settings objects))

/-- The lines are written at moments of the calls. -/
theorem written_sublist (settings : Settings) (objects : Objects) (calls : List Call) :
    ((calls.filterMap (·.written? settings objects)).map Prod.fst).Sublist (calls.map Call.written) := by
  induction calls with
  | nil => exact .slnil
  | cons c calls ih =>
    rw [List.filterMap_cons, List.map_cons]
    cases hline : c.line? settings objects with
    | none => simpa [Call.written?, hline] using ih.cons c.written
    | some line => simpa [Call.written?, hline] using ih

theorem timely_of_calls (settings : Settings) (objects : Objects) {calls : List Call}
    (hclock : ∀ c ∈ calls, c.written.IsClock)
    (hlater : (calls.map Call.written).Pairwise fun a b => a.instant ≤ b.instant) :
    Timely (calls.filterMap (·.written? settings objects)) := by
  have hsub := written_sublist settings objects calls
  refine ⟨fun l hl => ?_, hlater.sublist hsub⟩
  obtain ⟨c, hc, heq⟩ := List.mem_map.1 (hsub.subset (List.mem_map_of_mem hl))
  rw [← heq]
  exact hclock c hc

/-- **Where each line of the log is.** Begun in an empty directory, the log has, after any number of calls, all lines of
these on its shelf. The directory holds the current lines and the volumes that are kept, at most five, each under its
own name, and nothing else. At no point is a line lost, but with a volume that five later ones followed, if no two
volumes have the same stamp; otherwise one is. -/
theorem log_rotated {j : Journal} {objects : Objects} {calls : List Call} (hpath : Ordinary j.path)
    (hempty : j.files.Way j.path fun _ => none) (hevents : ∀ c ∈ calls, c.event < objects.length)
    (hclock : ∀ c ∈ calls, c.written.IsClock)
    (hlater : (calls.map Call.written).Pairwise fun a b => a.instant ≤ b.instant) :
    (∀ before, before <+: calls →
      (j.shelf objects before).lines = before.filterMap (·.line? j.settings objects) ∧
      (j.noteAll objects before).1.files.Way j.path ((j.shelf objects before).contents j.path) ∧
      (∀ v ∈ kept (j.shelf objects before).closed,
        (j.shelf objects before).contents j.path (v.name j.path) = some (.file (bytesOf v.lines))) ∧
      (kept (j.shelf objects before).closed).length ≤ keptFiles) ∧
    ((∀ before, before <+: calls → (j.shelf objects before).Keeps) ↔
      ((j.shelf objects calls).closed.map Volume.stamp).Nodup) := by
  refine ⟨?_, ?_⟩
  · rintro before ⟨more, rfl⟩
    have hclock' : ∀ c ∈ before, c.written.IsClock := fun c hc => hclock c (List.mem_append_left _ hc)
    rw [List.map_append] at hlater
    have htimely := timely_of_calls j.settings objects hclock' (List.pairwise_append.1 hlater).1
    refine ⟨?_, ?_, fun v hv => Shelf.contents_of_mem_kept hv, length_kept_le _⟩
    · rw [shelf, lines_shelve, List.map_filterMap]
      refine congrArg (List.filterMap · before) (funext fun c => ?_)
      rw [Call.written?]
      cases c.line? j.settings objects <;> rfl
    · obtain ⟨now, draw, tracer, made, hall⟩ := j.noteAll_eq objects before
        fun c hc => hevents c (List.mem_append_left _ hc)
      rw [hall]
      exact appendAll_shelved hpath hempty htimely
  · unfold shelf
    rw [← keeps_iff (timely_of_calls j.settings objects hclock hlater)]
    constructor
    · intro hkeeps lines hbegin
      obtain ⟨before, hbefore, rfl⟩ := List.prefix_filterMap_iff.1 hbegin
      exact hkeeps before hbefore
    · intro hkeeps before hbefore
      exact hkeeps _ (List.prefix_filterMap_iff.2 ⟨before, hbefore, rfl⟩)

/-- A log that is put aside before each line but the first. -/
def hasty : Journal :=
  { fresh with settings := { fresh.settings with mode := .full, sizeLimit := 10 } }

/-- Three events. -/
def hastyEvents : Objects :=
  ["a", "b", "c"].map fun kind => [("kind", .text kind)]

/-- All of them within one second. -/
def hastyCalls : List Call :=
  [0, 1, 2].map fun event =>
    { made := fresh.clock, written := fresh.clock, draw := .ofInt 0, tracer := .initial, event }

theorem log_rotated_hasty :
    (∀ before, before <+: hastyCalls →
      (hasty.shelf hastyEvents before).lines = before.filterMap (·.line? hasty.settings hastyEvents) ∧
      (hasty.noteAll hastyEvents before).1.files.Way hasty.path
        ((hasty.shelf hastyEvents before).contents hasty.path) ∧
      (∀ v ∈ kept (hasty.shelf hastyEvents before).closed,
        (hasty.shelf hastyEvents before).contents hasty.path (v.name hasty.path) = some (.file (bytesOf v.lines))) ∧
      (kept (hasty.shelf hastyEvents before).closed).length ≤ keptFiles) ∧
    ((∀ before, before <+: hastyCalls → (hasty.shelf hastyEvents before).Keeps) ↔
      ((hasty.shelf hastyEvents hastyCalls).closed.map Volume.stamp).Nodup) := by
  have hpath : Ordinary hasty.path := by
    refine ⟨by decide, ?_, by decide +kernel⟩
    simp only [hasty, fresh, List.forall_mem_cons, FileStore.IsName]
    decide +kernel
  have hclock : fresh.clock.IsClock := ⟨by decide, by decide, by decide, by decide, rfl⟩
  refine log_rotated hpath (FileStore.empty_way _) (by decide) ?_ (by decide +kernel)
  simp only [hastyCalls, List.map_cons, List.map_nil, List.forall_mem_cons]
  exact ⟨hclock, hclock, hclock, List.forall_mem_nil _⟩

/-- The line of one of the events. -/
def hastyLine (kind : String) : Points :=
  Json.write (.object [("kind", .text kind), ("timestamp", .text "2024-01-02T03:04:05.678901+00:00"),
    ("trace_id", .text "t-000000000001"), ("level", .text "info")])

/-- The line of the first event is in neither of the two files, although no file was removed for its age. -/
theorem first_line_lost_hasty :
    hastyCalls.filterMap (·.line? hasty.settings hastyEvents) = [hastyLine "a", hastyLine "b", hastyLine "c"] ∧
      (hasty.noteAll hastyEvents hastyCalls).1.files.list (.below ["logs"]) =
        [("showast.20240102_030405.log", .file (bytesOf [hastyLine "b"])),
          ("showast.log", .file (bytesOf [hastyLine "c"]))] ∧
      hastyLine "a" ∉ [hastyLine "b", hastyLine "c"] := by
  have hwritten : hastyCalls.filterMap (·.written? hasty.settings hastyEvents) =
      ["a", "b", "c"].map fun kind => (fresh.clock, hastyLine kind) := rfl
  refine ⟨rfl, ?_, ?_⟩
  · rw [files_noteAll (by decide), hwritten]
    simp only [appendAll, append, ← bytesOf_singleton]
    decide +kernel
  · decide +kernel

end Journal
end ScriptTree.Log
