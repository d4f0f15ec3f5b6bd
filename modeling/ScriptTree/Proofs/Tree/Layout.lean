/-
Trees that a table of nodes lays out. The links of a table determine its forest (`Describes.roots_eq`):
trees whose first nodes are those without parent, and whose children are everywhere those that name the
node as their parent, are the trees of the forest, once their texts are cut and their depths counted. So
the forest of a list that names the nodes of linked trees from the top consists of these trees.
-/
import ScriptTree.Proofs.Tree.Preorder

namespace ScriptTree

/-! ## Cut texts -/

namespace Text

/-- What was cut is not cut again: after the limit comes only the mark. -/
theorem cut_cut (ps : Points) {limit : Int} (h : 0 ≤ limit) : cut (cut ps limit) limit = cut ps limit := by
  by_cases hshort : (ps.length : Int) ≤ limit
  · have hwhole : cut ps limit = ps := if_pos hshort
    rw [hwhole, hwhole]
  · have hcut : cut ps limit = ps.take limit.toNat ++ ellipsis := by
      rw [cut, if_neg hshort, takeTo, if_pos h]
    have hlength : (ps.take limit.toNat).length = limit.toNat := List.length_take_of_le (by omega)
    have hmark : ellipsis.length = 3 := by decide
    have hlong : ¬ ((ps.take limit.toNat ++ ellipsis).length : Int) ≤ limit := by
      rw [List.length_append, hlength, hmark]
      omega
    rw [hcut, cut, if_neg hlong, takeTo, if_pos h, List.take_left' hlength]

end Text

@[simp] theorem NodeProperty.capped_capped (p : NodeProperty) : p.capped.capped = p.capped := by
  unfold capped
  dsimp only
  rw [Text.cut_cut _ (by decide)]

@[simp] theorem Node.capped_hash (n : Node) : n.capped.hash = n.hash := rfl

@[simp] theorem Node.capped_parent (n : Node) : n.capped.parent = n.parent := rfl

@[simp] theorem Node.capped_capped (n : Node) : n.capped.capped = n.capped := by
  have hproperties : n.capped.properties.map NodeProperty.capped = n.capped.properties := by
    rw [capped, List.map_map]
    exact List.map_congr_left fun p _ => p.capped_capped
  unfold capped at hproperties ⊢
  dsimp only at hproperties ⊢
  rw [Text.cut_cut _ (by decide), hproperties]

/-! ## Linked trees -/

namespace Tree

mutual

/-- The tree with its texts cut and its depths counted from the top, which is at the given one. -/
def levelled (d : Nat) : Tree → Tree
  | .node n _ ts => .node n.capped d (levelledAll (d + 1) ts)

/-- Some trees with their texts cut and their depths counted from the tops. -/
def levelledAll (d : Nat) : List Tree → List Tree
  | [] => []
  | t :: ts => levelled d t :: levelledAll d ts

end

/-- Each node names the one above as its parent, and those at the tops name none. -/
structure Linked (ts : List Tree) : Prop where
  tops : ∀ t ∈ ts, t.value.parent = none
  below : ∀ s ∈ preorderAll ts, ∀ c ∈ s.children, c.value.parent = some s.hash

/-- A node of some trees is at a top or the child of one of their nodes. -/
theorem mem_preorderAll_iff {ts : List Tree} {s : Tree} :
    s ∈ preorderAll ts ↔ s ∈ ts ∨ ∃ t ∈ preorderAll ts, s ∈ t.children := by
  have hbelow : ∀ t : Tree, ∀ s ∈ preorder t, s = t ∨ ∃ u ∈ preorder t, s ∈ u.children := by
    intro t
    induction t using Tree.induction with
    | node n d ts ih =>
      intro s hs
      rw [preorder, List.mem_cons] at hs
      refine hs.imp_right fun hs => ?_
      obtain ⟨t, ht, hs⟩ := mem_preorderAll.1 hs
      rcases ih t ht s hs with rfl | ⟨u, hu, hs⟩
      · exact ⟨_, mem_preorder_self _, ht⟩
      · refine ⟨u, ?_, hs⟩
        rw [preorder]
        exact List.mem_cons_of_mem _ (mem_preorderAll.2 ⟨t, ht, hu⟩)
  constructor
  · intro hs
    obtain ⟨t, ht, hs⟩ := mem_preorderAll.1 hs
    rcases hbelow t s hs with rfl | ⟨u, hu, hs⟩
    · exact .inl ht
    · exact .inr ⟨u, mem_preorderAll.2 ⟨t, ht, hu⟩, hs⟩
  · rintro (hs | ⟨t, ht, hs⟩)
    · exact subset_preorderAll ts hs
    · exact mem_preorderAll_child ht hs

theorem sublist_preorderAll (ts : List Tree) : ts.Sublist (preorderAll ts) := by
  induction ts with
  | nil => exact List.Sublist.slnil
  | cons t ts ih =>
    rw [preorderAll, preorder_eq, List.cons_append]
    exact (ih.trans (List.sublist_append_right _ _)).cons_cons t

theorem preorder_sublist {ts : List Tree} {t : Tree} (ht : t ∈ ts) : (preorder t).Sublist (preorderAll ts) := by
  obtain ⟨before, after, rfl⟩ := List.append_of_mem ht
  rw [preorderAll_append, preorderAll]
  exact (List.sublist_append_left _ _).trans (List.sublist_append_right _ _)

theorem children_sublist {ts : List Tree} {s : Tree} (hs : s ∈ preorderAll ts) :
    s.children.Sublist (preorderAll ts) := by
  have hbelow : ∀ t : Tree, ∀ s ∈ preorder t, s.children.Sublist (preorder t) := by
    intro t
    induction t using Tree.induction with
    | node n d ts ih =>
      intro s hs
      rw [preorder, List.mem_cons] at hs
      rw [preorder]
      refine List.Sublist.cons _ ?_
      rcases hs with rfl | hs
      · exact sublist_preorderAll ts
      · obtain ⟨t, ht, hs⟩ := mem_preorderAll.1 hs
        exact (ih t ht s hs).trans (preorder_sublist ht)
  obtain ⟨t, ht, hs⟩ := mem_preorderAll.1 hs
  exact (hbelow t s hs).trans (preorder_sublist ht)

end Tree

namespace Forest

open ScriptTree.Tree (preorder preorderAll levelled levelledAll Linked)

/-! ## The trees of a table -/

theorem latest_of_nodup {ns : List Node} (nodup : (ns.map Node.hash).Nodup) : latest ns = ns := by
  induction ns using List.reverseRecOn with
  | nil => rfl
  | append_singleton ns n ih =>
    rw [List.map_append, List.map_singleton, List.nodup_append'] at nodup
    obtain ⟨hnodup, -, hnew⟩ := nodup
    rw [latest_snoc, ih hnodup, put_of_not_mem fun hmem => hnew hmem (List.mem_singleton_self _)]

/-- With distinct hashes the table is the list, with its texts cut. -/
theorem tableOf_of_nodup {ns : List Node} (nodup : (ns.map Node.hash).Nodup) :
    tableOf ns = ns.map Node.capped := by
  rw [tableOf, ← latest_eq_lastByHash, latest_of_nodup nodup]

theorem capped_of_mem_tableOf {ns : List Node} {n : Node} (hn : n ∈ tableOf ns) : n.capped = n := by
  obtain ⟨m, -, rfl⟩ := List.mem_map.1 hn
  exact m.capped_capped

/-- The table has the nodes of the trees at the tops and below each other, in the same order. -/
structure Lays (table : List Node) (ts : List Tree) : Prop where
  tops : (ts.map Tree.value).map Node.capped = table.filter fun n => n.parent = none
  children : ∀ s ∈ preorderAll ts,
    (s.children.map Tree.value).map Node.capped = table.filter fun n => n.parent = some s.hash

/-- A part of a list without repetition is what the list holds of its elements. -/
theorem filter_eq_of_sublist {l l' : List Node} {p : Node → Bool} (nodup : l.Nodup) (hsub : l'.Sublist l)
    (hmem : ∀ n ∈ l, p n = true ↔ n ∈ l') : l.filter p = l' := by
  have hfilter : l'.filter p = l' := List.filter_eq_self.2 fun n hn => (hmem n (hsub.subset hn)).2 hn
  have hpart : l'.Sublist (l.filter p) := hfilter ▸ hsub.filter p
  refine (hpart.eq_of_length_le ?_).symm
  refine (List.subperm_of_subset (nodup.filter p) fun n hn => ?_).length_le
  obtain ⟨hn, hp⟩ := List.mem_filter.1 hn
  exact (hmem n hn).1 hp

/-- A list that names the nodes of linked trees from the top lays out these trees. -/
theorem lays_of_linked {ts : List Tree} (hlinked : Linked ts)
    (nodup : (((preorderAll ts).map Tree.value).map Node.hash).Nodup) :
    Lays (tableOf ((preorderAll ts).map Tree.value)) ts := by
  have hvalues : ((preorderAll ts).map Tree.value).Nodup := nodup.of_map
  have hfilter : ∀ p : Option Int, (tableOf ((preorderAll ts).map Tree.value)).filter (fun n => n.parent = p) =
      (((preorderAll ts).map Tree.value).filter fun n => n.parent = p).map Node.capped := by
    intro p
    rw [tableOf_of_nodup nodup, List.filter_map]
    rfl
  have hsame : ∀ s ∈ preorderAll ts, ∀ s' ∈ preorderAll ts, s.hash = s'.hash → s = s' := by
    rw [List.map_map] at nodup
    exact fun s hs s' hs' hhash => List.inj_on_of_nodup_map nodup hs hs' hhash
  constructor
  · rw [hfilter none]
    refine congrArg _ (filter_eq_of_sublist hvalues ((Tree.sublist_preorderAll ts).map _) fun n hn => ?_).symm
    obtain ⟨s, hs, rfl⟩ := List.mem_map.1 hn
    rw [decide_eq_true_eq]
    constructor
    · intro hnone
      rcases Tree.mem_preorderAll_iff.1 hs with hs | ⟨t, ht, hs⟩
      · exact List.mem_map_of_mem hs
      · rw [hlinked.below t ht s hs] at hnone
        cases hnone
    · intro hin
      obtain ⟨t, ht, hvalue⟩ := List.mem_map.1 hin
      rw [← hvalue, hlinked.tops t ht]
  · intro u hu
    rw [hfilter (some u.hash)]
    refine congrArg _ (filter_eq_of_sublist hvalues ((Tree.children_sublist hu).map _) fun n hn => ?_).symm
    obtain ⟨s, hs, rfl⟩ := List.mem_map.1 hn
    rw [decide_eq_true_eq]
    constructor
    · intro hparent
      rcases Tree.mem_preorderAll_iff.1 hs with hs | ⟨t, ht, hs⟩
      · rw [hlinked.tops s hs] at hparent
        cases hparent
      · rw [hlinked.below t ht s hs] at hparent
        rw [← hsame t ht u hu (Option.some.inj hparent)]
        exact List.mem_map_of_mem hs
    · intro hin
      obtain ⟨t, ht, hvalue⟩ := List.mem_map.1 hin
      rw [← hvalue, hlinked.below u hu t ht]

theorem eq_levelledAll {f : Forest} {ts us : List Tree} {d : Nat}
    (ih : ∀ t ∈ ts, ∀ u, u.value = t.value.capped → (u.hash, u) ∈ f.nodes → u.depth = d → u = levelled d t)
    (hvalues : us.map Tree.value = (ts.map Tree.value).map Node.capped)
    (hus : ∀ u ∈ us, (u.hash, u) ∈ f.nodes ∧ u.depth = d) : us = levelledAll d ts := by
  induction ts generalizing us with
  | nil => exact List.map_eq_nil_iff.1 hvalues
  | cons t ts iht =>
    obtain ⟨u, us', rfl, hvalue, hrest⟩ := List.map_eq_cons_iff.1 hvalues
    obtain ⟨hindexed, hdepth⟩ := hus u List.mem_cons_self
    rw [levelledAll, ← ih t List.mem_cons_self u hvalue hindexed hdepth]
    exact congrArg _ (iht (fun t ht => ih t (List.mem_cons_of_mem _ ht)) hrest
      fun u hu => hus u (List.mem_cons_of_mem _ hu))

section

variable {table : List Node} (nodup : (table.map Node.hash).Nodup) {f : Forest} (h : Describes table f)

include nodup h

/-- A node of the index has the children that its table lays out below it. -/
theorem Describes.eq_levelled {ts : List Tree} (hlays : Lays table ts) :
    ∀ t ∈ preorderAll ts, ∀ d u, u.value = t.value.capped → (u.hash, u) ∈ f.nodes → u.depth = d →
      u = levelled d t := by
  intro t
  induction t using Tree.induction with
  | node n d₀ cs ih =>
    intro ht d u hvalue hindexed hdepth
    have hhash : u.hash = n.hash := by rw [Tree.hash, hvalue]; rfl
    have hchildren : u.children.map Tree.value = (cs.map Tree.value).map Node.capped := by
      rw [h.children _ u hindexed, hhash]
      exact (hlays.children _ ht).symm
    have hbelow : u.children = levelledAll (d + 1) cs := by
      refine eq_levelledAll (fun c hc => ih c hc (Tree.mem_preorderAll_child ht hc) (d + 1))
        hchildren fun c hc => ?_
      exact ⟨h.children_indexed _ u hindexed c hc, hdepth ▸ h.child_depth nodup hindexed hc⟩
    obtain ⟨m, k, us⟩ := u
    obtain rfl : m = n.capped := hvalue
    obtain rfl : k = d := hdepth
    obtain rfl : us = levelledAll (k + 1) cs := hbelow
    rw [levelled]

/-- The table determines the trees of the forest. -/
theorem Describes.roots_eq {ts : List Tree} (hlays : Lays table ts) : f.roots = levelledAll 0 ts :=
  eq_levelledAll
    (fun t ht => h.eq_levelled nodup hlays t (Tree.subset_preorderAll ts ht) 0)
    (h.roots.trans hlays.tops.symm)
    fun t ht => ⟨h.roots_indexed t ht, h.root_depth nodup ht⟩

end

/-- The table of a list of nodes lays out the trees of the list's forest. -/
theorem build_lays (ns : List Node) : Lays (tableOf ns) (build ns).roots := by
  have h := describes_tableOf ns
  have hcapped : ∀ p : Node → Bool, ((tableOf ns).filter p).map Node.capped = (tableOf ns).filter p := by
    intro p
    refine (List.map_congr_left fun n hn => ?_).trans (List.map_id _)
    exact capped_of_mem_tableOf (List.mem_filter.1 hn).1
  constructor
  · rw [h.roots]
    exact hcapped _
  · intro s hs
    rw [h.children _ s (h.subtree_indexed s hs)]
    exact hcapped _

/-- A list whose table lays out some trees has these trees. -/
theorem build_roots_eq {ns : List Node} {ts : List Tree} (hlays : Lays (tableOf ns) ts) :
    (build ns).roots = levelledAll 0 ts :=
  (describes_tableOf ns).roots_eq (tableOf_nodup ns) hlays

/-- Lists whose tables lay out the same trees have the same trees and the same index. -/
theorem build_eq_of_lays {ns ns' : List Node} (hlays : Lays (tableOf ns') (build ns).roots) :
    (build ns').roots = (build ns).roots ∧ (build ns').nodes = (build ns).nodes := by
  have hroots : (build ns').roots = (build ns).roots :=
    (build_roots_eq hlays).trans (build_roots_eq (build_lays ns)).symm
  exact ⟨hroots, by rw [nodes_eq_preorder, nodes_eq_preorder, hroots]⟩

/-! ## The nodes of a forest as a list -/

section

variable (ns : List Node)

theorem roots_linked : Linked (build ns).roots := by
  have h := describes_tableOf ns
  constructor
  · intro t ht
    have hmem : t.value ∈ (tableOf ns).filter fun n => n.parent = none := by
      rw [← h.roots]
      exact List.mem_map_of_mem ht
    exact of_decide_eq_true (List.mem_filter.1 hmem).2
  · intro s hs c hc
    have hmem : c.value ∈ (tableOf ns).filter fun n => n.parent = some s.hash := by
      rw [← h.children _ s (h.subtree_indexed s hs)]
      exact List.mem_map_of_mem hc
    exact of_decide_eq_true (List.mem_filter.1 hmem).2

theorem preorder_nodup : (((preorderAll (build ns).roots).map Tree.value).map Node.hash).Nodup := by
  have h := (describes_tableOf ns).keys
  rw [nodes_eq_preorder, List.map_map] at h
  rw [List.map_map]
  exact h

/-- A child has a hash other than its parent's, for it lies deeper. -/
theorem hash_ne_of_child {s c : Tree} (hs : s ∈ preorderAll (build ns).roots) (hc : c ∈ s.children) :
    s.hash ≠ c.hash := by
  intro hhash
  have h := describes_tableOf ns
  have hnodup := preorder_nodup ns
  rw [List.map_map] at hnodup
  obtain rfl : s = c := List.inj_on_of_nodup_map hnodup hs (Tree.mem_preorderAll_child hs hc) hhash
  have hdepth := h.child_depth (tableOf_nodup ns) (h.subtree_indexed s hs) hc
  omega

/-- In the list of a forest's nodes from the top, the parent of every node is another node of the list. -/
theorem flatten_orphans : (build ((preorderAll (build ns).roots).map Tree.value)).orphans = [] := by
  have hlinked := roots_linked ns
  have htable : tableOf ((preorderAll (build ns).roots).map Tree.value) = _ :=
    tableOf_of_nodup (preorder_nodup ns)
  rw [(describes_tableOf _).orphans, htable, List.map_eq_nil_iff, List.filter_eq_nil_iff]
  intro n hn
  obtain ⟨m, hm, rfl⟩ := List.mem_map.1 hn
  obtain ⟨s, hs, rfl⟩ := List.mem_map.1 hm
  rw [isOrphan, Node.capped_parent]
  rcases Tree.mem_preorderAll_iff.1 hs with hs | ⟨t, ht, hc⟩
  · rw [hlinked.tops s hs, Option.any_none]
    exact Bool.false_ne_true
  · rw [hlinked.below t ht s hc, Option.any_some, decide_eq_true_eq, not_or, not_not]
    refine ⟨hash_ne_of_child ns ht hc, ?_⟩
    rw [List.map_map, List.map_map]
    exact List.mem_map_of_mem ht

/-- The list of a forest's nodes from the top has the same forest, without orphans. -/
theorem build_flatten :
    build ((Tree.flatten (build ns).roots).map Tree.value) = { build ns with orphans := [] } := by
  rw [Tree.flatten_eq_preorderAll]
  obtain ⟨hroots, hnodes⟩ := build_eq_of_lays (lays_of_linked (roots_linked ns) (preorder_nodup ns))
  have horphans := flatten_orphans ns
  generalize build ((preorderAll (build ns).roots).map Tree.value) = f at hroots hnodes horphans
  calc f = ⟨f.roots, f.nodes, f.orphans⟩ := rfl
    _ = { build ns with orphans := [] } := by rw [hroots, hnodes, horphans]

end

end Forest
end ScriptTree
