/-
Which nodes become roots and orphans, told from the objects that they are read from. A node is a root if its object
names no parent, and also if what stands for the parent cannot be read as a hash; it is an orphan if its object
names itself or a hash that is not there (`build_parentage`). So roots are the nodes without parent exactly where
every reference can be read.
-/
import ScriptTree.Proofs.Number.Decimal
import ScriptTree.Proofs.Tree.Layout

namespace ScriptTree.Forest

open Json.Value (fieldOrNull intOfText?)

/-! ## References -/

/-- No parent: null, or a text of nothing but white space. -/
inductive Missing : Json.Value → Prop
  | null : Missing .null
  | blank {s : Points} : Text.stripped s = [] → Missing (.text s)

/-- A hash: a whole number, or a text that holds one. -/
inductive Names : Json.Value → Int → Prop
  | number (p : Int) : Names (.int p) p
  | text {s : Points} {p : Int} : intOfText? s = some p → Names (.text s) p

/-- Something for a parent that is no hash. -/
inductive Illegible : Json.Value → Prop
  | bool (b : Bool) : Illegible (.bool b)
  | real (x : Binary64) : Illegible (.real x)
  | list (xs : List Json.Value) : Illegible (.list xs)
  | object (fields : List (Points × Json.Value)) : Illegible (.object fields)
  | text {s : Points} : Text.stripped s ≠ [] → intOfText? s = none → Illegible (.text s)

theorem toInt?_eq_some_iff {v : Json.Value} {p : Int} : v.toInt? = some p ↔ Names v p := by
  constructor
  · intro h
    cases v with
    | int i =>
      cases h
      exact .number _
    | text s => exact .text h
    | _ => cases h
  · rintro (_ | h)
    · rfl
    · exact h

theorem toInt?_eq_none_iff {v : Json.Value} : v.toInt? = none ↔ Missing v ∨ Illegible v := by
  constructor
  · intro h
    cases v with
    | null => exact .inl .null
    | bool b => exact .inr (.bool b)
    | int i => cases h
    | real x => exact .inr (.real x)
    | text s =>
      by_cases hs : Text.stripped s = []
      · exact .inl (.blank hs)
      · exact .inr (.text hs h)
    | list xs => exact .inr (.list xs)
    | object fields => exact .inr (.object fields)
  · rintro ((_ | h) | h)
    · rfl
    · rw [Json.Value.toInt?]
      exact Json.Value.intOfText?_blank h
    · cases h with
      | text _ h => exact h
      | _ => rfl

theorem missing_text_iff {s : Points} : Missing (.text s) ↔ Text.stripped s = [] :=
  ⟨fun | .blank h => h, .blank⟩

theorem Missing.not_illegible {v : Json.Value} (h : Missing v) : ¬ Illegible v := by
  rintro (_ | _ | _ | _ | ⟨hs, -⟩) <;> cases h
  exact hs ‹_›

theorem Missing.not_names {v : Json.Value} (h : Missing v) (p : Int) : ¬ Names v p := by
  rw [← toInt?_eq_some_iff, toInt?_eq_none_iff.2 (.inl h)]
  nofun

theorem Illegible.not_names {v : Json.Value} (h : Illegible v) (p : Int) : ¬ Names v p := by
  rw [← toInt?_eq_some_iff, toInt?_eq_none_iff.2 (.inr h)]
  nofun

/-! ## Roots and orphans -/

/-- The value that stands for the parent. -/
def parentValue (object : List (Points × Json.Value)) : Json.Value :=
  fieldOrNull "parentHashCode" object

theorem parent_of_ofFields? {object : List (Points × Json.Value)} {n : Node} (h : Node.ofFields? object = some n) :
    n.parent = (parentValue object).toInt? := by
  unfold Node.ofFields? at h
  obtain ⟨hash, -, rfl⟩ := Option.map_eq_some_iff.1 h
  rfl

section

variable {ns : List Node} (nodup : (ns.map Node.hash).Nodup) {n : Node} (hn : n ∈ ns)

include nodup hn

theorem mem_filter_tableOf {p : Node → Bool} (hp : ∀ m, p m.capped = p m) :
    n.hash ∈ ((tableOf ns).filter p).map Node.hash ↔ p n = true := by
  rw [tableOf_of_nodup nodup, List.mem_map]
  constructor
  · rintro ⟨m, hm, hhash⟩
    obtain ⟨hcapped, hpm⟩ := List.mem_filter.1 hm
    obtain ⟨k, hk, rfl⟩ := List.mem_map.1 hcapped
    rw [hp] at hpm
    rwa [← eq_of_hash nodup hk hn hhash]
  · intro hpn
    exact ⟨n.capped, List.mem_filter.2 ⟨List.mem_map_of_mem hn, (hp n).trans hpn⟩, rfl⟩

theorem mem_roots_iff : n.hash ∈ (build ns).roots.map Tree.hash ↔ n.parent = none := by
  have hroots : (build ns).roots.map Tree.hash = ((tableOf ns).filter fun m => m.parent = none).map Node.hash := by
    rw [← (describes_tableOf ns).roots, List.map_map]
    rfl
  rw [hroots, mem_filter_tableOf nodup hn fun _ => rfl, decide_eq_true_eq]

theorem mem_orphans_iff :
    n.hash ∈ (build ns).orphans ↔ ∃ p, n.parent = some p ∧ (p = n.hash ∨ p ∉ ns.map Node.hash) := by
  have hhashes : (tableOf ns).map Node.hash = ns.map Node.hash := by
    rw [tableOf_of_nodup nodup, List.map_map]
    rfl
  have horphans : (build ns).orphans = ((tableOf ns).filter (isOrphan (tableOf ns))).map Node.hash :=
    (describes_tableOf ns).orphans
  rw [horphans, mem_filter_tableOf nodup hn fun _ => rfl, isOrphan, hhashes]
  cases n.parent with
  | none => simp
  | some p => simp

end

/-- Roots are the nodes without parent, and what names no node of the list is an orphan. -/
def ParentLaw (objects : List (List (Points × Json.Value))) (ns : List Node) : Prop :=
  ∀ o n, (o, n) ∈ objects.zip ns →
    (n.hash ∈ (build ns).roots.map Tree.hash ↔ Missing (parentValue o)) ∧
      (¬ Missing (parentValue o) → (∀ p, Names (parentValue o) p → p ∉ ns.map Node.hash) →
        n.hash ∈ (build ns).orphans ∧ n.hash ∉ (build ns).roots.map Tree.hash)

/-- The roots and the orphans by what the objects name, and where this is the law of parents. -/
theorem build_parentage {objects : List (List (Points × Json.Value))} {ns : List Node}
    (hread : List.Forall₂ (fun o n => Node.ofFields? o = some n) objects ns) (nodup : (ns.map Node.hash).Nodup) :
    (∀ o n, (o, n) ∈ objects.zip ns →
      (n.hash ∈ (build ns).roots.map Tree.hash ↔ Missing (parentValue o) ∨ Illegible (parentValue o)) ∧
        (n.hash ∈ (build ns).orphans ↔
          ∃ p, Names (parentValue o) p ∧ (p = n.hash ∨ p ∉ ns.map Node.hash))) ∧
      (ParentLaw objects ns ↔ ∀ o ∈ objects, ¬ Illegible (parentValue o)) := by
  have hzip : ∀ o n, (o, n) ∈ objects.zip ns → n ∈ ns ∧ n.parent = (parentValue o).toInt? := by
    intro o n hon
    exact ⟨(List.of_mem_zip hon).2, parent_of_ofFields? (List.forall₂_zip hread hon)⟩
  have hkinds : ∀ o n, (o, n) ∈ objects.zip ns →
      (n.hash ∈ (build ns).roots.map Tree.hash ↔ Missing (parentValue o) ∨ Illegible (parentValue o)) ∧
        (n.hash ∈ (build ns).orphans ↔
          ∃ p, Names (parentValue o) p ∧ (p = n.hash ∨ p ∉ ns.map Node.hash)) := by
    intro o n hon
    obtain ⟨hn, hparent⟩ := hzip o n hon
    rw [mem_roots_iff nodup hn, mem_orphans_iff nodup hn, hparent, toInt?_eq_none_iff]
    simp only [toInt?_eq_some_iff, and_self]
  refine ⟨hkinds, fun hlaw o ho hill => ?_, fun hlegible o n hon => ?_⟩
  · -- the object's node is a root by what cannot be read, and not by the law
    obtain ⟨n, hon⟩ : ∃ n, (o, n) ∈ objects.zip ns := by
      obtain ⟨i, hi, rfl⟩ := List.getElem_of_mem ho
      have hzipped : i < (objects.zip ns).length := by
        rw [List.length_zip, ← hread.length_eq, Nat.min_self]
        exact hi
      exact ⟨_, List.getElem_zip ▸ List.getElem_mem hzipped⟩
    have hmissing := ((hlaw o n hon).1).1 (((hkinds o n hon).1).2 (.inr hill))
    exact hmissing.not_illegible hill
  · obtain ⟨hroot, horphan⟩ := hkinds o n hon
    have hnot := hlegible o (List.of_mem_zip hon).1
    rw [or_iff_left hnot] at hroot
    refine ⟨hroot, fun hmissing hunknown => ⟨horphan.2 ?_, fun h => hmissing (hroot.1 h)⟩⟩
    cases hv : (parentValue o).toInt? with
    | none => exact ((toInt?_eq_none_iff.1 hv).elim hmissing hnot).elim
    | some p =>
      have hnames := toInt?_eq_some_iff.1 hv
      exact ⟨p, hnames, .inr (hunknown p hnames)⟩

/-- A root, its child by a text between white space, a root with an empty text, and an orphan. -/
theorem build_parentage_legible :
    let node (hash : Int) (parent : Option Int) : Node :=
      { hash, parent, kind := "", text := "", extent := "", startLine := 0, startColumn := 0
        endLine := 0, endColumn := 0, textLength := 0, properties := [], id := "" }
    let objects : List (List (Points × Json.Value)) :=
      [[("hashCode", .int 1)], [("hashCode", .int 2), ("parentHashCode", .text " 1\n")],
       [("hashCode", .int 3), ("parentHashCode", .text "")], [("hashCode", .int 4), ("parentHashCode", .int 9)]]
    let ns := [node 1 none, node 2 (some 1), node 3 none, node 4 (some 9)]
    List.Forall₂ (fun o n => Node.ofFields? o = some n) objects ns ∧ (ns.map Node.hash).Nodup ∧
      ParentLaw objects ns ∧ 4 ∈ (build ns).orphans := by
  intro node objects ns
  have hread : List.Forall₂ (fun o n => Node.ofFields? o = some n) objects ns :=
    .cons (by cbv) (.cons (by cbv) (.cons (by cbv) (.cons (by cbv) .nil)))
  have hnodup : (ns.map Node.hash).Nodup := by decide
  obtain ⟨hkinds, hlaw⟩ := build_parentage hread hnodup
  have hlegible : ∀ o ∈ objects, ¬ Illegible (parentValue o) := by
    have hname : ∀ {o : List (Points × Json.Value)} {p : Int}, (parentValue o).toInt? = some p →
        ¬ Illegible (parentValue o) := fun hp h => h.not_names _ (toInt?_eq_some_iff.1 hp)
    simp only [objects, List.forall_mem_cons]
    refine ⟨Missing.null.not_illegible, hname (p := 1) (by cbv), (Missing.blank rfl).not_illegible,
      hname (p := 9) rfl, List.forall_mem_nil _⟩
  refine ⟨hread, hnodup, hlaw.2 hlegible, ?_⟩
  have hunknown : 9 ∉ ns.map Node.hash := by decide
  exact ((hkinds _ (node 4 (some 9)) (.tail _ (.tail _ (.tail _ (.head _))))).2).2 ⟨9, .number 9, .inr hunknown⟩

/-- A word for the parent: the node is a root. -/
theorem not_parentLaw_word :
    let node (hash : Int) : Node :=
      { hash, parent := none, kind := "", text := "", extent := "", startLine := 0, startColumn := 0
        endLine := 0, endColumn := 0, textLength := 0, properties := [], id := "" }
    let objects : List (List (Points × Json.Value)) :=
      [[("hashCode", .int 1)], [("hashCode", .int 2), ("parentHashCode", .text "abc")]]
    let ns := [node 1, node 2]
    List.Forall₂ (fun o n => Node.ofFields? o = some n) objects ns ∧ (ns.map Node.hash).Nodup ∧
      2 ∈ (build ns).roots.map Tree.hash ∧ ¬ ParentLaw objects ns := by
  intro node objects ns
  have hread : List.Forall₂ (fun o n => Node.ofFields? o = some n) objects ns :=
    .cons (by cbv) (.cons (by cbv) .nil)
  have hnodup : (ns.map Node.hash).Nodup := by decide
  have hroot : 2 ∈ (build ns).roots.map Tree.hash := (mem_roots_iff hnodup (.tail _ (.head _))).2 rfl
  refine ⟨hread, hnodup, hroot, fun hlaw => ?_⟩
  have hmissing := ((hlaw _ (node 2) (.tail _ (.head _))).1).1 hroot
  have hword : Text.stripped "abc" ≠ [] := by decide +kernel
  exact hword (missing_text_iff.1 hmissing)

end ScriptTree.Forest
