/-
Calls of `load` on one catalog. A call that finds no list at its path fails before the catalog is touched;
every other call starts from the empty catalog. So what a call leaves depends on the file alone
(`Load.on_eq`), and what a sequence leaves is what its last call that got as far as the list leaves
(`history`). Of entries with one name the last is held (`putAll_holds`). The decoder is arbitrary here: it
may give any value or any failure. Only a number without text, met among the entries, ends a call
between the two: it fails, and holds the entries before that number (`Leaves.cut`).
-/
import ScriptTree.Docs.Catalog
import ScriptTree.Proofs.Docs.Entry
import Mathlib.Data.Finset.Card
import Mathlib.Data.List.Nodup

namespace ScriptTree.Docs

/-! ## Putting entries -/

namespace Catalog

/-- Adds entries, the first one first. -/
def putAll (c : Catalog) (es : List Entry) : Catalog :=
  es.foldl put c

@[simp] theorem putAll_nil (c : Catalog) : c.putAll [] = c := rfl

@[simp] theorem putAll_cons (c : Catalog) (e : Entry) (es : List Entry) :
    c.putAll (e :: es) = (c.put e).putAll es := rfl

theorem putAll_append (c : Catalog) (es fs : List Entry) : c.putAll (es ++ fs) = (c.putAll es).putAll fs :=
  List.foldl_append

/-- An entry takes the place of one with its name or stands behind all names. -/
theorem names_putEntry (e : Entry) (es : List Entry) :
    (putEntry e es).map Entry.name =
      if e.name ∈ es.map Entry.name then es.map Entry.name else es.map Entry.name ++ [e.name] := by
  induction es with
  | nil => simp [putEntry]
  | cons f fs ih =>
    unfold putEntry
    by_cases hname : f.name = e.name
    · rw [if_pos hname, if_pos (by simp [hname])]
      simp [hname]
    · rw [if_neg hname, List.map_cons, ih, List.map_cons]
      by_cases hin : e.name ∈ fs.map Entry.name
      · rw [if_pos hin, if_pos (List.mem_cons_of_mem _ hin)]
      · rw [if_neg hin, if_neg (by simp only [List.mem_cons, not_or]; exact ⟨Ne.symm hname, hin⟩)]
        rfl

theorem find?_cons_name (e : Entry) (es : List Entry) (name : Points) :
    (e :: es).find? (·.name == name) = if e.name = name then some e else es.find? (·.name == name) := by
  by_cases hname : e.name = name
  · subst hname
    simp
  · have hbeq : (e.name == name) = false := beq_false_of_ne hname
    simp [hbeq, hname]

/-- An entry that was put is found under its name, and nothing else changes. -/
theorem get?_put (c : Catalog) (e : Entry) (name : Points) :
    (c.put e).get? name = if e.name = name then some e else c.get? name := by
  show (putEntry e c.entries).find? (·.name == name) = if e.name = name then some e else _
  unfold get?
  induction c.entries with
  | nil => exact find?_cons_name e [] name
  | cons f fs ih =>
    unfold putEntry
    by_cases hsame : f.name = e.name
    · rw [if_pos hsame, find?_cons_name, find?_cons_name, hsame]
      split <;> rfl
    · rw [if_neg hsame, find?_cons_name, find?_cons_name, ih]
      by_cases hf : f.name = name
      · have hname : e.name ≠ name := fun he => hsame (hf.trans he.symm)
        rw [if_neg hname, if_pos hf, if_neg hname]
      · rw [if_neg hf, if_neg hf]

/-- The catalog holds some entries, of those with one name the last. -/
structure Holds (c : Catalog) (es : List Entry) : Prop where
  /-- What is found under a name is the last entry that has it. -/
  found : ∀ name, c.get? name = es.reverse.find? (·.name == name)
  /-- There are as many entries as there are different names. -/
  counted : c.size = (es.map Entry.name).toFinset.card

theorem nodup_putAll (es : List Entry) : ((empty.putAll es).entries.map Entry.name).Nodup ∧
    ((empty.putAll es).entries.map Entry.name).toFinset = (es.map Entry.name).toFinset := by
  induction es using List.reverseRecOn with
  | nil => exact ⟨List.nodup_nil, rfl⟩
  | append_singleton es e ih =>
    obtain ⟨hnodup, hnames⟩ := ih
    have hmem : e.name ∈ (empty.putAll es).entries.map Entry.name ↔ e.name ∈ es.map Entry.name := by
      rw [← List.mem_toFinset, hnames, List.mem_toFinset]
    rw [putAll_append]
    show (((putEntry e (empty.putAll es).entries)).map Entry.name).Nodup ∧
      ((putEntry e (empty.putAll es).entries).map Entry.name).toFinset = _
    rw [names_putEntry, List.map_append, List.toFinset_append, ← hnames]
    by_cases hin : e.name ∈ (empty.putAll es).entries.map Entry.name
    · rw [if_pos hin]
      refine ⟨hnodup, ?_⟩
      rw [eq_comm, Finset.union_eq_left]
      simpa using hin
    · rw [if_neg hin]
      exact ⟨List.nodup_append.2 ⟨hnodup, List.nodup_singleton _, by
        rintro a ha b hb rfl
        exact hin (List.mem_singleton.1 hb ▸ ha)⟩, List.toFinset_append⟩

/-- Entries that are put into an empty catalog are held by it. -/
theorem putAll_holds (es : List Entry) : (empty.putAll es).Holds es where
  found name := by
    induction es using List.reverseRecOn with
    | nil => rfl
    | append_singleton es e ih =>
      rw [putAll_append, putAll_cons, putAll_nil, get?_put, ih, List.reverse_append, List.reverse_singleton,
        List.singleton_append, find?_cons_name]
  counted := by
    obtain ⟨hnodup, hnames⟩ := nodup_putAll es
    rw [← hnames, List.toFinset_card_of_nodup hnodup, List.length_map]
    rfl

/-! ## The entries of a list -/

/-- The entries of the records with a name among some parts; there is none where a number has no text. -/
def entriesOf (g : ValueGraph) (places : List Nat) : List (Option Entry) :=
  (named g places).map (Entry.ofFields? g)

theorem entriesOf_nil (g : ValueGraph) : entriesOf g [] = [] := rfl

/-- A part without a name is passed over. -/
theorem entriesOf_unnamed {g : ValueGraph} {place : Nat} (h : namedFields? g place = none)
    (places : List Nat) : entriesOf g (place :: places) = entriesOf g places := by
  unfold entriesOf named
  rw [List.filterMap_cons, h]

theorem entriesOf_named {g : ValueGraph} {place : Nat} {fields : List (Nat × Nat)}
    (h : namedFields? g place = some fields) (places : List Nat) :
    entriesOf g (place :: places) = Entry.ofFields? g fields :: entriesOf g places := by
  unfold entriesOf named
  rw [List.filterMap_cons, h]
  rfl

/-- An entry is missing only in a document with a number that is too long. -/
theorem exists_isTooLong {g : ValueGraph} {places : List Nat} (h : none ∈ entriesOf g places) :
    ∃ place i, g.part place = .scalar (.int i) ∧ Integer.isTooLong i = true := by
  obtain ⟨fields, -, hfields⟩ := List.mem_map.1 h
  exact Entry.exists_isTooLong hfields

/-- Entries that all have a text are all added. -/
theorem addAll_whole {g : ValueGraph} {places : List Nat} {es : List Entry}
    (h : entriesOf g places = es.map some) (c : Catalog) : c.addAll g places = (.ok (), c.putAll es) := by
  induction places generalizing c es with
  | nil =>
    obtain rfl : es = [] := List.map_eq_nil_iff.1 h.symm
    rfl
  | cons place places ih =>
    unfold addAll
    cases hfields : namedFields? g place with
    | none =>
      rw [entriesOf_unnamed hfields] at h
      exact ih h c
    | some fields =>
      rw [entriesOf_named hfields] at h
      obtain ⟨e, fs, rfl, he, hfs⟩ := List.map_eq_cons_iff.1 h.symm
      dsimp only
      rw [← he]
      exact ih hfs.symm (c.put e)

/-- The entries before the first one without text are added. -/
theorem addAll_cut {g : ValueGraph} {places : List Nat} {es : List Entry} {rest : List (Option Entry)}
    (h : entriesOf g places = es.map some ++ none :: rest) (c : Catalog) :
    c.addAll g places = (.error .unwritable, c.putAll es) := by
  induction places generalizing c es with
  | nil => simp [entriesOf_nil] at h
  | cons place places ih =>
    unfold addAll
    cases hfields : namedFields? g place with
    | none =>
      rw [entriesOf_unnamed hfields] at h
      exact ih h c
    | some fields =>
      rw [entriesOf_named hfields] at h
      cases es with
      | nil =>
        rw [List.map_nil, List.nil_append, List.cons.injEq] at h
        dsimp only
        rw [h.1]
        rfl
      | cons e es =>
        rw [List.map_cons, List.cons_append, List.cons.injEq] at h
        dsimp only
        rw [h.1]
        exact ih h.2 (c.put e)

/-- Either all of some results are there, or a first one is missing. -/
theorem all_some_or_cut {α : Type} (xs : List (Option α)) :
    (∃ ys : List α, xs = ys.map some) ∨ ∃ (ys : List α) (rest : _), xs = ys.map some ++ none :: rest := by
  induction xs with
  | nil => exact .inl ⟨[], rfl⟩
  | cons x xs ih =>
    cases x with
    | none => exact .inr ⟨[], xs, rfl⟩
    | some y =>
      rcases ih with ⟨ys, rfl⟩ | ⟨ys, rest, rfl⟩
      · exact .inl ⟨y :: ys, rfl⟩
      · exact .inr ⟨y :: ys, rest, rfl⟩

end Catalog

/-! ## One call -/

open Catalog (empty entriesOf)

/-- A call of `load`: how texts are decoded, the files as they are then, and the path. -/
structure Load where
  value : Path → String → Except LoadFault ValueGraph
  files : FileStore
  path : Path

namespace Load

/-- The call on a catalog. -/
def on (l : Load) (c : Catalog) : Except LoadFault Unit × Catalog :=
  c.loadBy l.value l.files l.path

/-- There is no file at the path. -/
def Missing (l : Load) : Prop :=
  ∃ there, l.files.lookup l.path = .ok there ∧ there.any (·.isFile) = false

/-- The file at the path is a list of the parts at some places. -/
def Lists (l : Load) (g : ValueGraph) (places : List Nat) : Prop :=
  (∃ e, l.files.lookup l.path = .ok (some e) ∧ e.isFile = true) ∧
    Catalog.readListBy l.value l.files l.path = .ok (g, places)

/-- The call gets as far as replacing the catalog. -/
def Starts (l : Load) : Prop :=
  l.Missing ∨ ∃ g places, l.Lists g places

/-- The call meets a number that has no text. -/
def Cut (l : Load) : Prop :=
  ∃ g places, l.Lists g places ∧ none ∈ entriesOf g places

/-- The call does not fail. -/
def Succeeds (l : Load) : Prop :=
  (l.on empty).1 = .ok ()

variable {l : Load}

theorem on_missing (h : l.Missing) (c : Catalog) : l.on c = (.ok (), empty) := by
  obtain ⟨there, hlookup, hnone⟩ := h
  unfold on Catalog.loadBy
  rw [hlookup]
  exact if_neg (Bool.not_eq_true _ ▸ hnone)

theorem on_lists {g : ValueGraph} {places : List Nat} (h : l.Lists g places) (c : Catalog) :
    l.on c = empty.addAll g places := by
  obtain ⟨⟨e, hlookup, hfile⟩, hread⟩ := h
  unfold on Catalog.loadBy
  rw [hlookup]
  dsimp only
  rw [Option.any_some, if_pos hfile, hread]

/-- A call that does not get as far as replacing the catalog fails and leaves it as it was. -/
theorem on_kept (h : ¬ l.Starts) : ∃ fault, ∀ c, l.on c = (.error fault, c) := by
  unfold Starts at h
  rw [not_or] at h
  unfold on Catalog.loadBy
  split
  · exact ⟨_, fun c => rfl⟩
  · rename_i there hlookup
    split
    · rename_i hfile
      obtain ⟨e, rfl, hfile⟩ := (Option.any_eq_true _ _).1 hfile
      split
      · exact ⟨_, fun c => rfl⟩
      · rename_i g places hread
        exact absurd ⟨g, places, ⟨e, hlookup, hfile⟩, hread⟩ h.2
    · rename_i hfile
      exact absurd ⟨_, hlookup, Bool.not_eq_true _ ▸ hfile⟩ h.1

/-- A call that gets as far as replacing the catalog does the same whatever the catalog held. -/
theorem on_eq (h : l.Starts) (c d : Catalog) : l.on c = l.on d := by
  rcases h with hmissing | ⟨g, places, hlists⟩
  · rw [on_missing hmissing, on_missing hmissing]
  · rw [on_lists hlists, on_lists hlists]

theorem result_eq (l : Load) (c d : Catalog) : (l.on c).1 = (l.on d).1 := by
  by_cases h : l.Starts
  · rw [on_eq h c d]
  · obtain ⟨fault, hkept⟩ := on_kept h
    rw [hkept, hkept]

/-- The call succeeds or is cut off, if it gets as far as replacing the catalog. -/
theorem starts_iff (l : Load) : l.Starts ↔ l.Succeeds ∨ l.Cut := by
  constructor
  · rintro (hmissing | ⟨g, places, hlists⟩)
    · left
      unfold Succeeds
      rw [on_missing hmissing]
    · rcases Catalog.all_some_or_cut (entriesOf g places) with ⟨es, hes⟩ | ⟨es, rest, hes⟩
      · left
        unfold Succeeds
        rw [on_lists hlists, Catalog.addAll_whole hes]
      · right
        exact ⟨g, places, hlists, by simp [hes]⟩
  · rintro (hsucceeds | ⟨g, places, hlists, -⟩)
    · by_contra hstarts
      obtain ⟨fault, hkept⟩ := on_kept hstarts
      unfold Succeeds at hsucceeds
      rw [hkept] at hsucceeds
      cases hsucceeds
    · exact .inr ⟨g, places, hlists⟩

/-- What a call leaves of a catalog. -/
structure Leaves (l : Load) (c : Catalog) : Prop where
  /-- Whether it fails, and how, does not depend on the catalog. -/
  result : (l.on c).1 = (l.on empty).1
  /-- A failure leaves the catalog as it was, if no number without text is met. -/
  kept : ¬ l.Succeeds → ¬ l.Cut → (l.on c).2 = c
  missing : l.Missing → l.on c = (.ok (), empty)
  /-- Without failure the catalog holds the valid entries of the list. -/
  held : l.Succeeds → ¬ l.Missing →
    ∃ g places es, l.Lists g places ∧ entriesOf g places = es.map some ∧ (l.on c).2.Holds es
  /-- Where a number without text is met the call fails, and the valid entries before it are held. The
  document has such a number. -/
  cut : l.Cut → ∃ g places es rest, l.Lists g places ∧ entriesOf g places = es.map some ++ none :: rest ∧
    (l.on c).1 = .error .unwritable ∧ (l.on c).2.Holds es ∧
    ∃ place i, g.part place = .scalar (.int i) ∧ Integer.isTooLong i = true

theorem leaves (l : Load) (c : Catalog) : l.Leaves c where
  result := l.result_eq c empty
  kept hfails hwhole := by
    obtain ⟨fault, hkept⟩ := on_kept (fun hstarts => (l.starts_iff.1 hstarts).elim hfails hwhole)
    rw [hkept]
  missing hmissing := on_missing hmissing c
  held hsucceeds hthere := by
    obtain ⟨g, places, hlists⟩ := (l.starts_iff.2 (.inl hsucceeds)).resolve_left hthere
    rcases Catalog.all_some_or_cut (entriesOf g places) with ⟨es, hes⟩ | ⟨es, rest, hes⟩
    · refine ⟨g, places, es, hlists, hes, ?_⟩
      rw [on_lists hlists, Catalog.addAll_whole hes]
      exact Catalog.putAll_holds es
    · unfold Succeeds at hsucceeds
      rw [on_lists hlists, Catalog.addAll_cut hes] at hsucceeds
      cases hsucceeds
  cut := by
    rintro ⟨g, places, hlists, hnone⟩
    rcases Catalog.all_some_or_cut (entriesOf g places) with ⟨es, hes⟩ | ⟨es, rest, hes⟩
    · simp [hes] at hnone
    · refine ⟨g, places, es, rest, hlists, hes, ?_⟩
      rw [on_lists hlists, Catalog.addAll_cut hes]
      exact ⟨rfl, Catalog.putAll_holds es, Catalog.exists_isTooLong hnone⟩

end Load

/-! ## A sequence of calls -/

/-- The catalog after some calls on a new one. -/
def Catalog.after (loads : List Load) : Catalog :=
  loads.foldl (fun c l => (l.on c).2) empty

theorem Catalog.after_append (loads : List Load) (l : Load) :
    Catalog.after (loads ++ [l]) = (l.on (Catalog.after loads)).2 :=
  List.foldl_append

/-- What calls leave is what the last one leaves on a new catalog, of those that succeed or are cut off. -/
theorem Catalog.history (loads : List Load) :
    (Catalog.after loads = empty ∧ ∀ l ∈ loads, ¬ l.Starts) ∨
      ∃ earlier l later, loads = earlier ++ l :: later ∧ l.Starts ∧ (∀ l ∈ later, ¬ l.Starts) ∧
        Catalog.after loads = Catalog.after [l] := by
  induction loads using List.reverseRecOn with
  | nil => exact .inl ⟨rfl, by simp⟩
  | append_singleton loads last ih =>
    rw [Catalog.after_append]
    by_cases hlast : last.Starts
    · exact .inr ⟨loads, last, [], rfl, hlast, by simp, congrArg Prod.snd (Load.on_eq hlast _ _)⟩
    · obtain ⟨fault, hkept⟩ := Load.on_kept hlast
      rw [hkept]
      rcases ih with ⟨hafter, hnone⟩ | ⟨earlier, l, later, rfl, hl, hlater, hafter⟩
      · left
        refine ⟨hafter, ?_⟩
        simpa [or_imp, forall_and] using ⟨hnone, hlast⟩
      · right
        refine ⟨earlier, l, later ++ [last], by simp, hl, ?_, hafter⟩
        simpa [or_imp, forall_and] using ⟨hlater, hlast⟩

/-- A sequence of calls, whatever the decoders give: each one leaves what `Load.Leaves` says of the
catalog that it meets, and what all leave together is what is left by the last one that succeeded, or
was cut off, on a new catalog. Without calls that are cut off no failure leaves a trace. -/
theorem Catalog.load_sequence (loads : List Load) :
    (∀ l : Load, l.Leaves (Catalog.after loads)) ∧
      ((Catalog.after loads = empty ∧ ∀ l ∈ loads, ¬ l.Succeeds ∧ ¬ l.Cut) ∨
        ∃ earlier l later, loads = earlier ++ l :: later ∧ (l.Succeeds ∨ l.Cut) ∧
          (∀ l ∈ later, ¬ l.Succeeds ∧ ¬ l.Cut) ∧ Catalog.after loads = Catalog.after [l]) := by
  refine ⟨fun l => l.leaves _, ?_⟩
  simpa only [Load.starts_iff, not_or] using Catalog.history loads

/-- A call that fails and does not leave the catalog as it was: one file names the type a, the other one b
and then a type by a number of 4301 digits. -/
theorem Catalog.cut_load_replaces :
    let file (g : ValueGraph) : Load :=
      ⟨fun _ _ => .ok g, ⟨[(["types.yaml"], .file [])], [], 2⟩, ⟨"", ["types.yaml"]⟩⟩
    let first := file ⟨#[.list [1], .record [(2, 3)], .scalar (.text "Name"), .scalar (.text "a")], 0⟩
    let types (i : Int) : ValueGraph := ⟨#[.list [1, 4], .record [(2, 3)], .scalar (.text "Name"),
      .scalar (.text "b"), .record [(2, 5)], .scalar (.int i)], 0⟩
    let second := file (types (Nat.pow 10 Integer.digitLimit))
    ¬ second.Succeeds ∧ Catalog.after [first, second] ≠ Catalog.after [first] := by
  intro file first types second
  have hlists (g : ValueGraph) (places : List Nat) (h : g.part g.root = .list places) :
      (file g).Lists g places := by
    have htext : (file g).files.readText (file g).path = .ok "" := by rfl
    refine ⟨⟨.file [], by rfl, rfl⟩, ?_⟩
    unfold readListBy
    rw [htext]
    dsimp only [file]
    rw [h]
  have hfirst : Catalog.after [first] = ⟨[⟨"a", "", []⟩]⟩ := by
    show (first.on empty).2 = _
    rw [Load.on_lists (hlists _ [1] rfl)]
    rfl
  -- the number stays a variable, as it is too long to be computed with
  have hentries (i : Int) (hi : Integer.isTooLong i = true) :
      entriesOf (types i) [1, 4] = [some ⟨"b", "", []⟩, none] := by
    have hpart : (types i).part 5 = .scalar (.int i) := by rfl
    have hnamed : namedFields? (types i) 4 = some [(2, 5)] := by
      show (if !(types i).isBlank 5 then some [(2, 5)] else none) = _
      rw [isBlank_of_isTooLong hpart hi]
      rfl
    have htext := fieldText?_of_isTooLong hpart hi (show (types i).field? "Name" [(2, 5)] = some 5 by rfl)
    rw [entriesOf_named (by rfl), entriesOf_named hnamed]
    show [_, (fieldText? (types i) "Name" [(2, 5)]).bind _] = _
    rw [htext]
    rfl
  have hsecond (c : Catalog) : second.on c = (.error .unwritable, ⟨[⟨"b", "", []⟩]⟩) := by
    have hlong : Integer.isTooLong (Nat.pow 10 Integer.digitLimit : Nat) = true :=
      decide_eq_true (le_of_eq (Int.natAbs_natCast _).symm)
    rw [Load.on_lists (hlists _ [1, 4] rfl)]
    exact @addAll_cut _ _ [⟨"b", "", []⟩] [] (hentries _ hlong) empty
  constructor
  · unfold Load.Succeeds
    rw [hsecond]
    rintro ⟨⟩
  · show (second.on (Catalog.after [first])).2 ≠ _
    rw [hsecond, hfirst]
    decide

end ScriptTree.Docs
