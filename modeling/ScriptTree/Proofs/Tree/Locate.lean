/-
The node found at a place. The scan of the index keeps one best node, and in the end it is the least of all
nodes around the place: by length, then by depth, the deeper first, then by the order of the index, which is
that of the trees from the top (`locate_least`). The order of the list that the forest is built from decides
only the last of the three. The scan does not look at the trees, and yet, where no child is longer than its
parent, no node below the one found lies around the place (`locate_innermost`): on every way down the
lengths do not grow and the depths do, so a node further down would have been the better one.
-/
import ScriptTree.Proofs.Tree.Order
import ScriptTree.Proofs.Tree.Traversal
import ScriptTree.Tree.Locate

namespace ScriptTree

/-- Places are in the order of their lines, and those on one line in the order of their columns. -/
theorem Node.contains_iff {n : Node} {line column : Int} :
    n.contains line column = true ↔
      toLex (n.startLine, n.startColumn) ≤ toLex (line, column) ∧
        toLex (line, column) ≤ toLex (n.endLine, n.endColumn) := by
  simp only [contains, Bool.and_eq_true, Bool.or_eq_true, decide_eq_true_eq, beq_iff_eq,
    Prod.Lex.toLex_le_toLex, eq_comm (a := n.endLine)]

/-- The first tree lies somewhere below the second. -/
def Tree.Below (s t : Tree) : Prop :=
  Relation.TransGen (fun c p => c ∈ p.children) s t

namespace Forest

/-! ## The scan -/

/-- What trees are compared by: their lengths, and with one length their depths, the deeper first. -/
def rank (t : Tree) : Int ×ₗ ℕᵒᵈ :=
  toLex (t.value.textLength, OrderDual.toDual t.depth)

theorem isInner_iff {t best : Tree} : isInner t best = true ↔ rank t < rank best := by
  simp only [isInner, rank, Bool.or_eq_true, Bool.and_eq_true, decide_eq_true_eq, beq_iff_eq,
    Prod.Lex.toLex_lt_toLex, OrderDual.toDual_lt_toDual]

/-- The tree is the first of the least ones in a list. -/
def IsFirstLeast (t : Tree) (ts : List Tree) : Prop :=
  ∃ before after, ts = before ++ t :: after ∧ (∀ s ∈ before, rank t < rank s) ∧ ∀ s ∈ after, rank t ≤ rank s

namespace IsFirstLeast

variable {t best : Tree} {ts : List Tree}

theorem mem (h : IsFirstLeast t ts) : t ∈ ts := by
  obtain ⟨before, after, rfl, -, -⟩ := h
  exact List.mem_append_right _ List.mem_cons_self

theorem rank_le (h : IsFirstLeast t ts) {s : Tree} (hs : s ∈ ts) : rank t ≤ rank s := by
  obtain ⟨before, after, rfl, hbefore, hafter⟩ := h
  rcases List.mem_append.1 hs with hs | hs
  · exact (hbefore s hs).le
  · rcases List.mem_cons.1 hs with rfl | hs
    · exact le_rfl
    · exact hafter s hs

/-- A tree that is worse may come before all others. -/
theorem cons_of_lt (h : IsFirstLeast t ts) (hlt : rank t < rank best) : IsFirstLeast t (best :: ts) := by
  obtain ⟨before, after, rfl, hbefore, hafter⟩ := h
  exact ⟨best :: before, after, rfl, List.forall_mem_cons.2 ⟨hlt, hbefore⟩, hafter⟩

/-- A tree that is not better than the first may come right behind it. -/
theorem insert_second {s : Tree} (h : IsFirstLeast t (best :: ts)) (hle : rank best ≤ rank s) :
    IsFirstLeast t (best :: s :: ts) := by
  obtain ⟨before, after, heq, hbefore, hafter⟩ := h
  cases before with
  | nil =>
    obtain ⟨rfl, rfl⟩ := List.cons.inj heq
    exact ⟨[], s :: ts, rfl, List.forall_mem_nil _, List.forall_mem_cons.2 ⟨hle, hafter⟩⟩
  | cons b before =>
    obtain ⟨rfl, rfl⟩ := List.cons.inj heq
    obtain ⟨hlt, hrest⟩ := List.forall_mem_cons.1 hbefore
    exact ⟨best :: s :: before, after, rfl,
      List.forall_mem_cons.2 ⟨hlt, List.forall_mem_cons.2 ⟨hlt.trans_le hle, hrest⟩⟩, hafter⟩

end IsFirstLeast

/-- The scan keeps the first of the least trees that it has seen. -/
theorem scan_isFirstLeast (ts : List Tree) (best : Tree) :
    IsFirstLeast (ts.foldl (fun best t => if isInner t best then t else best) best) (best :: ts) := by
  induction ts generalizing best with
  | nil => exact ⟨[], [], rfl, List.forall_mem_nil _, List.forall_mem_nil _⟩
  | cons t ts ih =>
    rw [List.foldl_cons]
    by_cases hinner : isInner t best = true
    · rw [if_pos hinner]
      have hleast := ih t
      exact hleast.cons_of_lt ((hleast.rank_le List.mem_cons_self).trans_lt (isInner_iff.1 hinner))
    · rw [if_neg hinner]
      exact (ih best).insert_second (not_lt.1 (mt isInner_iff.2 hinner))

section

variable {f : Forest} {line column : Int} {t : Tree}

theorem locate_eq_none_iff : f.locate line column = none ↔ f.containing line column = [] := by
  unfold locate
  cases f.containing line column with
  | nil => exact iff_of_true rfl rfl
  | cons first ts => exact iff_of_false (Option.some_ne_none _) (List.cons_ne_nil first ts)

theorem locate_isFirstLeast (h : f.locate line column = some t) :
    IsFirstLeast t (f.containing line column) := by
  unfold locate at h
  cases hfound : f.containing line column with
  | nil =>
    rw [hfound] at h
    cases h
  | cons first ts =>
    rw [hfound] at h
    cases h
    exact scan_isFirstLeast ts first

theorem mem_containing {s : Tree} :
    s ∈ f.containing line column ↔ s ∈ f.index ∧ s.value.contains line column = true :=
  List.mem_filter

/-- A tree found at a place is one of the index. -/
theorem locate_mem (h : f.locate line column = some t) : t ∈ f.index :=
  (mem_containing.1 (locate_isFirstLeast h).mem).1

/-- The tree found is first by its rank and its place in the index. -/
theorem locate_first (h : f.locate line column = some t) :
    ∃ i : ℕ, f.index[i]? = some t ∧ ∀ (j : ℕ) (s : Tree), j ≠ i → f.index[j]? = some s →
      s ∈ f.containing line column → toLex (rank t, i) < toLex (rank s, j) := by
  obtain ⟨before, after, hfound, hbefore, hafter⟩ := locate_isFirstLeast h
  obtain ⟨init, rest, hindex, rfl, hrest⟩ := List.filter_eq_append_iff.1 hfound
  obtain ⟨skipped, tail, rfl, hskipped, -, rfl⟩ := List.filter_eq_cons_iff.1 hrest
  have hplace : f.index = (init ++ skipped) ++ t :: tail := by rw [hindex, List.append_assoc]
  refine ⟨(init ++ skipped).length, by rw [hplace, List.getElem?_append_right le_rfl]; simp, ?_⟩
  intro j s hne hj hs
  have haround : s.value.contains line column = true := (mem_containing.1 hs).2
  -- a tree in front of the one found was there before it in the scan, or was never around the place
  rw [hplace] at hj
  rw [Prod.Lex.toLex_lt_toLex]
  rcases lt_or_gt_of_ne hne with hlt | hgt
  · rw [List.getElem?_append_left hlt] at hj
    rcases List.mem_append.1 (List.mem_of_getElem? hj) with hs | hs
    · exact .inl (hbefore s (List.mem_filter.2 ⟨hs, haround⟩))
    · exact absurd haround (hskipped s hs)
  · rw [List.getElem?_append_right hgt.le, List.getElem?_cons] at hj
    rw [if_neg (by omega)] at hj
    have hle := hafter s (List.mem_filter.2 ⟨List.mem_of_getElem? hj, haround⟩)
    exact hle.lt_or_eq.imp_right fun heq => ⟨heq, hgt⟩

end

/-! ## Other orders of the list -/

section

variable {ns ns' : List Node} (nodup : (ns.map Node.hash).Nodup) (perm : ns.Perm ns')

include nodup perm

/-- In any order of the list the nodes of the index have the same data and lie at the same depths. -/
theorem exists_same_of_perm {t : Tree} (ht : t ∈ (build ns).index) :
    ∃ t' ∈ (build ns').index, t'.value = t.value ∧ t'.depth = t.depth := by
  have h := describes_tableOf ns
  have h' := describes_tableOf ns'
  have htable : (tableOf ns).Perm (tableOf ns') := by
    rw [tableOf_of_nodup nodup, tableOf_of_nodup ((perm.map Node.hash).nodup_iff.1 nodup)]
    exact perm.map Node.capped
  -- the keys of both indexes are the same up to their order
  have hshape := h.sameShape (tableOf_nodup ns) h' htable
  obtain ⟨⟨k, t⟩, hmem, rfl⟩ := List.mem_map.1 ht
  obtain ⟨⟨k, t'⟩, hmem', rfl⟩ := List.mem_map.1 (hshape.keys.subset (List.mem_map_of_mem hmem))
  have hfind := lookup_of_mem h.keys hmem
  have hfind' := lookup_of_mem h'.keys hmem'
  exact ⟨t', List.mem_map_of_mem hmem', (hshape.value k t t' hfind hfind').symm,
    (hshape.depth k t t' hfind hfind').symm⟩

/-- What is found in another order is at least as good. -/
theorem exists_locate_of_perm {line column : Int} {t : Tree} (h : (build ns).locate line column = some t) :
    ∃ t', (build ns').locate line column = some t' ∧ rank t' ≤ rank t := by
  obtain ⟨ht, haround⟩ := mem_containing.1 (locate_isFirstLeast h).mem
  obtain ⟨s, hs, hvalue, hdepth⟩ := exists_same_of_perm nodup perm ht
  have hmem : s ∈ (build ns').containing line column := mem_containing.2 ⟨hs, by rw [hvalue]; exact haround⟩
  obtain ⟨t', ht'⟩ := Option.ne_none_iff_exists'.1
    (mt locate_eq_none_iff.1 (List.ne_nil_of_mem hmem))
  refine ⟨t', ht', ((locate_isFirstLeast ht').rank_le hmem).trans_eq ?_⟩
  rw [rank, rank, hvalue, hdepth]

end

/-- The rank of the tree found is the same for all orders of the list. -/
theorem locate_rank_of_perm {ns ns' : List Node} (nodup : (ns.map Node.hash).Nodup) (perm : ns.Perm ns')
    (line column : Int) :
    ((build ns').locate line column).map rank = ((build ns).locate line column).map rank := by
  have nodup' : (ns'.map Node.hash).Nodup := (perm.map Node.hash).nodup_iff.1 nodup
  cases hfound : (build ns).locate line column with
  | none =>
    cases hfound' : (build ns').locate line column with
    | none => rfl
    | some t' =>
      obtain ⟨t, ht, -⟩ := exists_locate_of_perm nodup' perm.symm hfound'
      rw [hfound] at ht
      cases ht
  | some t =>
    obtain ⟨t', ht', hle'⟩ := exists_locate_of_perm nodup perm hfound
    obtain ⟨s, hs, hle⟩ := exists_locate_of_perm nodup' perm.symm ht'
    obtain rfl : t = s := Option.some.inj (hfound.symm.trans hs)
    rw [ht', Option.map_some, Option.map_some, le_antisymm hle' hle]

/-! ## What is found -/

/-- What is found at a place of a forest. -/
structure Finds (f : Forest) (line column : Int) : Prop where
  /-- The index has the order of the trees from the top. -/
  order : f.index = Tree.preorderAll f.roots
  /-- The trees around the place start before it and end behind it, or just there. -/
  around : ∀ t, t ∈ f.containing line column ↔ t ∈ f.index ∧
    toLex (t.value.startLine, t.value.startColumn) ≤ toLex (line, column) ∧
      toLex (line, column) ≤ toLex (t.value.endLine, t.value.endColumn)
  none : f.locate line column = none ↔ f.containing line column = []
  /-- Of the trees around the place the one found is less than each other: it is shorter, or as long and
  deeper, or as deep and before it in the index. -/
  least : ∀ t, f.locate line column = some t → t ∈ f.containing line column ∧
    ∃ i : ℕ, f.index[i]? = some t ∧ ∀ (j : ℕ) (s : Tree), j ≠ i → f.index[j]? = some s →
      s ∈ f.containing line column → toLex (rank t, i) < toLex (rank s, j)

/-- The node found is the least one around the place, and for nodes with distinct hashes its length and its
depth do not depend on the order of the list. -/
theorem locate_least (ns : List Node) (line column : Int) :
    Finds (build ns) line column ∧
      ((ns.map Node.hash).Nodup → ∀ ns', ns.Perm ns' →
        ((build ns').locate line column).map (fun t => (t.value.textLength, t.depth)) =
          ((build ns).locate line column).map fun t => (t.value.textLength, t.depth)) := by
  constructor
  · exact
      { order := index_eq_preorderAll ns
        around := fun t => mem_containing.trans (and_congr_right' Node.contains_iff)
        none := locate_eq_none_iff
        least := fun t ht => ⟨(locate_isFirstLeast ht).mem, locate_first ht⟩ }
  · intro nodup ns' perm
    have hrank := congrArg (Option.map fun r : Int ×ₗ ℕᵒᵈ => ((ofLex r).1, OrderDual.ofDual (ofLex r).2))
      (locate_rank_of_perm nodup perm line column)
    rw [Option.map_map, Option.map_map] at hrank
    exact hrank

/-- Two nodes of one length at one depth, in either order: the first one is found, and it is another one, but
as long and as deep. -/
theorem locate_least_swapped :
    let node (hash : Int) (parent : Option Int) (endColumn length : Int) : Node :=
      { hash, parent, kind := "Ast", text := "x", extent := "x", startLine := 1, startColumn := 1
        endLine := 1, endColumn, textLength := length, properties := [], id := "" }
    let ns := [node 7 none 9 8, node 8 (some 7) 5 4, node 9 (some 7) 6 4]
    let ns' := [node 7 none 9 8, node 9 (some 7) 6 4, node 8 (some 7) 5 4]
    (ns.map Node.hash).Nodup ∧ ns.Perm ns' ∧ Finds (build ns) 1 3 ∧
      ((build ns).locate 1 3).map Tree.hash = some 8 ∧ ((build ns').locate 1 3).map Tree.hash = some 9 ∧
      ((build ns').locate 1 3).map (fun t => (t.value.textLength, t.depth)) =
        ((build ns).locate 1 3).map fun t => (t.value.textLength, t.depth) := by
  intro node ns ns'
  have hnodup : (ns.map Node.hash).Nodup := by decide
  have hperm : ns.Perm ns' := (List.Perm.swap _ _ _).cons _
  have hfound : (build ns).locate 1 3 = some (.node (node 8 (some 7) 5 4) 1 []) := by cbv
  have hfound' : (build ns').locate 1 3 = some (.node (node 9 (some 7) 6 4) 1 []) := by cbv
  obtain ⟨hfinds, hreordered⟩ := locate_least ns 1 3
  exact ⟨hnodup, hperm, hfinds, by rw [hfound]; rfl, by rw [hfound']; rfl, hreordered hnodup ns' hperm⟩

/-! ## Ways down -/

section

variable {ns : List Node} (hshorter : ∀ t ∈ (build ns).index, ∀ c ∈ t.children,
  c.value.textLength ≤ t.value.textLength)

include hshorter

/-- A child that is not longer is better than its parent, for it lies deeper. -/
theorem rank_lt_of_child {c t : Tree} (ht : t ∈ (build ns).index) (hc : c ∈ t.children) :
    c ∈ (build ns).index ∧ rank c < rank t := by
  have hle := hshorter t ht c hc
  rw [index_eq_preorderAll] at ht ⊢
  have hdepth : c.depth = t.depth + 1 := (build_graded ns).below t ht c hc
  refine ⟨Tree.mem_preorderAll_child ht hc, ?_⟩
  rw [rank, rank, Prod.Lex.toLex_lt_toLex, OrderDual.toDual_lt_toDual, hdepth]
  exact hle.lt_or_eq.imp_right fun heq => ⟨heq, Nat.lt_succ_self _⟩

theorem rank_lt_of_below {s t : Tree} (hbelow : s.Below t) :
    t ∈ (build ns).index → s ∈ (build ns).index ∧ rank s < rank t := by
  induction hbelow with
  | single hc => exact fun ht => rank_lt_of_child hshorter ht hc
  | tail _ hc ih =>
    intro ht
    obtain ⟨hp, hlt⟩ := rank_lt_of_child hshorter ht hc
    obtain ⟨hs, hlt'⟩ := ih hp
    exact ⟨hs, hlt'.trans hlt⟩

end

/-- Where no child is longer than its parent, the node found is around the place and none below it is. -/
theorem locate_innermost {ns : List Node}
    (hshorter : ∀ t ∈ (build ns).index, ∀ c ∈ t.children, c.value.textLength ≤ t.value.textLength)
    {line column : Int} {t : Tree} (h : (build ns).locate line column = some t) :
    t.value.contains line column = true ∧ ∀ s : Tree, s.Below t → s.value.contains line column = false := by
  have hleast := locate_isFirstLeast h
  obtain ⟨ht, haround⟩ := mem_containing.1 hleast.mem
  refine ⟨haround, fun s hbelow => ?_⟩
  obtain ⟨hs, hlt⟩ := rank_lt_of_below hshorter hbelow ht
  rw [Bool.eq_false_iff]
  exact fun hin => absurd (hleast.rank_le (mem_containing.2 ⟨hs, hin⟩)) hlt.not_ge

/-- A statement and its only expression have the same extent, and what lies below them ends outside of it:
at a place that only the first two have in common the expression is found. -/
theorem locate_innermost_same_extent :
    let node (hash : Int) (parent : Option Int) (startColumn endColumn length : Int) : Node :=
      { hash, parent, kind := "Ast", text := "x", extent := "x", startLine := 1, startColumn
        endLine := 1, endColumn, textLength := length, properties := [], id := "" }
    let ns := [node 7 none 1 9 8, node 8 (some 7) 1 9 8, node 9 (some 8) 5 12 7]
    let t : Tree := .node (node 8 (some 7) 1 9 8) 1 [.node (node 9 (some 8) 5 12 7) 2 []]
    (∀ p ∈ (build ns).index, ∀ c ∈ p.children, c.value.textLength ≤ p.value.textLength) ∧
      (build ns).locate 1 3 = some t ∧ t.value.contains 1 3 = true ∧
      ∀ s : Tree, s.Below t → s.value.contains 1 3 = false := by
  intro node ns t
  have hindex : (build ns).index = [.node (node 7 none 1 9 8) 0 [t], t, .node (node 9 (some 8) 5 12 7) 2 []] := by
    cbv
  have hshorter : ∀ p ∈ (build ns).index, ∀ c ∈ p.children, c.value.textLength ≤ p.value.textLength := by
    rw [hindex]
    simp [t, node, Tree.children, Tree.value]
  have hfound : (build ns).locate 1 3 = some t := by cbv
  obtain ⟨haround, hbelow⟩ := locate_innermost hshorter hfound
  exact ⟨hshorter, hfound, haround, hbelow⟩

end Forest
end ScriptTree
