/-
The order of the index. The nodes of a forest are indexed in the order in which its trees are read from
the top, each node before those below it (`nodes_eq_preorder`): no node comes to the stack of the walk
twice, so the walk goes through the trees one subtree after the other.
-/
import ScriptTree.Proofs.Tree.Forest
import ScriptTree.Tree.Traversal

namespace ScriptTree

/-! ## Trees from the top -/

namespace Tree

mutual

theorem inductionOne {P : Tree → Prop} {Q : List Tree → Prop} (node : ∀ n d ts, Q ts → P (.node n d ts))
    (nil : Q []) (cons : ∀ t ts, P t → Q ts → Q (t :: ts)) : ∀ t, P t
  | .node n d ts => node n d ts (inductionAll node nil cons ts)

/-- What goes over from the children to a tree, and from trees to the list of them, holds of all lists of
trees. -/
theorem inductionAll {P : Tree → Prop} {Q : List Tree → Prop} (node : ∀ n d ts, Q ts → P (.node n d ts))
    (nil : Q []) (cons : ∀ t ts, P t → Q ts → Q (t :: ts)) : ∀ ts, Q ts
  | [] => nil
  | t :: ts => cons t ts (inductionOne node nil cons t) (inductionAll node nil cons ts)

end

/-- What holds of a tree if it holds of its children holds of all trees. -/
theorem induction {P : Tree → Prop} (node : ∀ n d ts, (∀ t ∈ ts, P t) → P (.node n d ts)) (t : Tree) : P t :=
  inductionOne node (List.forall_mem_nil P) (fun _ _ ht hts => List.forall_mem_cons.2 ⟨ht, hts⟩) t

theorem preorder_eq (t : Tree) : preorder t = t :: preorderAll t.children := by
  cases t
  rw [preorder]
  rfl

theorem preorderAll_append (ts us : List Tree) :
    preorderAll (ts ++ us) = preorderAll ts ++ preorderAll us := by
  induction ts with
  | nil => rw [List.nil_append, preorderAll, List.nil_append]
  | cons t ts ih => rw [List.cons_append, preorderAll, preorderAll, ih, List.append_assoc]

theorem preorderAll_eq_flatMap (ts : List Tree) : preorderAll ts = ts.flatMap preorder := by
  induction ts with
  | nil => rfl
  | cons t ts ih => rw [preorderAll, ih, List.flatMap_cons]

theorem visit_eq_preorderAll (stack : List Tree) : visit stack = preorderAll stack := by
  induction stack using visit.induct with
  | case1 => rw [visit, preorderAll]
  | case2 t stack ih =>
    obtain ⟨n, d, ts⟩ := t
    rw [visit, ih, pop, preorderAll_append, preorderAll, preorder, List.cons_append]

/-- The stack yields the trees in the order of the recursion. -/
theorem flatten_eq_preorderAll (roots : List Tree) : flatten roots = preorderAll roots :=
  visit_eq_preorderAll roots

theorem mem_preorder_self (t : Tree) : t ∈ preorder t := by
  rw [preorder_eq]
  exact List.mem_cons_self

theorem mem_preorderAll {s : Tree} {ts : List Tree} : s ∈ preorderAll ts ↔ ∃ t ∈ ts, s ∈ preorder t := by
  rw [preorderAll_eq_flatMap, List.mem_flatMap]

theorem subset_preorderAll (ts : List Tree) : ts ⊆ preorderAll ts :=
  fun t ht => mem_preorderAll.2 ⟨t, ht, mem_preorder_self t⟩

/-- What is below a node comes after it. -/
theorem preorderAll_children_subset {s t : Tree} (h : s ∈ preorder t) :
    preorderAll s.children ⊆ preorder t := by
  induction t using Tree.induction with
  | node n d ts ih =>
    rw [preorder, List.mem_cons] at h
    rw [preorder]
    rcases h with rfl | h
    · exact List.subset_cons_self _ _
    · obtain ⟨t, ht, hs⟩ := mem_preorderAll.1 h
      exact fun u hu => List.mem_cons_of_mem _ (mem_preorderAll.2 ⟨t, ht, ih t ht hs hu⟩)

theorem mem_preorderAll_child {ts : List Tree} {s c : Tree} (hs : s ∈ preorderAll ts) (hc : c ∈ s.children) :
    c ∈ preorderAll ts := by
  obtain ⟨t, ht, hs⟩ := mem_preorderAll.1 hs
  exact mem_preorderAll.2 ⟨t, ht, preorderAll_children_subset hs (subset_preorderAll _ hc)⟩

/-- A property of the first trees that goes over to children holds of all. -/
theorem forall_mem_preorderAll {P : Tree → Prop} {ts : List Tree} (hts : ∀ t ∈ ts, P t)
    (hchild : ∀ s, P s → ∀ c ∈ s.children, P c) : ∀ s ∈ preorderAll ts, P s := by
  have hbelow : ∀ t, P t → ∀ s ∈ preorder t, P s := by
    intro t
    induction t using Tree.induction with
    | node n d ts ih =>
      intro ht s hs
      rw [preorder, List.mem_cons] at hs
      rcases hs with rfl | hs
      · exact ht
      · obtain ⟨c, hc, hs⟩ := mem_preorderAll.1 hs
        exact ih c hc (hchild _ ht c hc) s hs
  intro s hs
  obtain ⟨t, ht, hs⟩ := mem_preorderAll.1 hs
  exact hbelow t (hts t ht) s hs

end Tree

namespace Forest

open ScriptTree.Tree (preorder preorderAll)

/-! ## The walk through a tree -/

namespace Walk

/-- The hash and the depth of a tree. -/
def key (t : Tree) : Int × Nat :=
  (t.hash, t.depth)

/-- The children on record are those of the tree, one link further down. -/
def Follows (entries : List Entry) (t : Tree) : Prop :=
  (childrenOf entries t.hash).map (·, t.depth + 1) = t.children.map key

/-- The invariant of the walk, and no node is there twice. -/
structure Clean (table : List Node) (w : Walk) : Prop where
  inv : Inv table w
  fresh : (w.all.map Prod.fst).Nodup

section

variable {table : List Node} (nodup : (table.map Node.hash).Nodup)

include nodup

theorem childrenOf_nodup (h : Int) : (childrenOf (link table).entries h).Nodup := by
  by_cases hmem : h ∈ table.map Node.hash
  · rw [childrenOf_link hmem]
    exact nodup.sublist (List.filter_sublist.map _)
  · rw [childrenOf_link_of_not_mem hmem]
    exact List.nodup_nil

theorem start_clean : Clean table (start (link table).roots) := by
  refine ⟨start_inv nodup, ?_⟩
  have hroots : (start (link table).roots).all.map Prod.fst = (table.filter Node.isRoot).map Node.hash := by
    rw [link_eq_linksOf]
    simp only [all, start, linksOf, List.nil_append, List.map_map]
    rfl
  rw [hroots]
  exact nodup.sublist (List.filter_sublist.map _)

/-- The next node was never reached, so it is now, and its children were never on the stack. -/
theorem step_clean {reached stack : List (Int × Nat)} {a : Int × Nat}
    (clean : Clean table ⟨reached, a :: stack⟩) :
    step (link table).entries ⟨reached, a :: stack⟩ =
        ⟨reached ++ [a], (childrenOf (link table).entries a.1).map (·, a.2 + 1) ++ stack⟩ ∧
      Clean table ⟨reached ++ [a], (childrenOf (link table).entries a.1).map (·, a.2 + 1) ++ stack⟩ := by
  obtain ⟨h, d⟩ := a
  have hall : (all ⟨reached, (h, d) :: stack⟩).map Prod.fst =
      reached.map Prod.fst ++ h :: stack.map Prod.fst := by
    rw [all, List.map_append, List.map_cons]
  have fresh := clean.fresh
  rw [hall] at fresh
  have hnew : h ∉ reached.map Prod.fst :=
    fun hmem => (List.nodup_middle.1 fresh).notMem (List.mem_append_left _ hmem)
  have hstep : step (link table).entries ⟨reached, (h, d) :: stack⟩ =
      ⟨reached ++ [(h, d)], (childrenOf (link table).entries h).map (·, d + 1) ++ stack⟩ := by
    unfold step
    dsimp only
    rw [if_neg fun hold => hnew (has_iff.1 hold)]
  refine ⟨hstep, hstep ▸ step_inv nodup clean.inv, ?_⟩
  -- a child that was seen before has its parent among the nodes reached
  have hdisjoint : ∀ c ∈ childrenOf (link table).entries h,
      c ∉ reached.map Prod.fst ++ h :: stack.map Prod.fst := by
    intro c hc hin
    rw [← hall] at hin
    obtain ⟨a, ha, rfl⟩ := List.mem_map.1 hin
    exact hnew (clean.inv.parents a ha h hc)
  have hperm : ((all ⟨reached ++ [(h, d)], (childrenOf (link table).entries h).map (·, d + 1) ++ stack⟩).map
      Prod.fst).Perm
        (childrenOf (link table).entries h ++ (reached.map Prod.fst ++ h :: stack.map Prod.fst)) := by
    simp only [all, List.map_append, List.map_map, List.map_cons, List.append_assoc, List.singleton_append]
    rw [show (childrenOf (link table).entries h).map (Prod.fst ∘ fun c => (c, d + 1)) =
      childrenOf (link table).entries h from List.map_id _]
    refine List.Perm.trans ?_ (List.perm_append_comm_assoc _ _ _)
    exact List.Perm.append_left _ List.perm_middle.symm
  exact hperm.nodup_iff.2 (List.nodup_append'.2 ⟨childrenOf_nodup nodup h, fresh, hdisjoint⟩)

end

/-- The walk goes through some trees before it looks at what lies below them on the stack. -/
def Passes (table : List Node) (ts : List Tree) : Prop :=
  ∀ reached stack, Clean table ⟨reached, ts.map key ++ stack⟩ →
    run (link table).entries ⟨reached, ts.map key ++ stack⟩ =
        run (link table).entries ⟨reached ++ (preorderAll ts).map key, stack⟩ ∧
      Clean table ⟨reached ++ (preorderAll ts).map key, stack⟩

theorem passes_nil (table : List Node) : Passes table [] := by
  intro reached stack clean
  rw [preorderAll, List.map_nil, List.append_nil]
  exact ⟨rfl, clean⟩

theorem Passes.append {table : List Node} {ts us : List Tree} (hts : Passes table ts)
    (hus : Passes table us) : Passes table (ts ++ us) := by
  intro reached stack clean
  have hstack : (ts ++ us).map key ++ stack = ts.map key ++ (us.map key ++ stack) := by
    rw [List.map_append, List.append_assoc]
  have hreached : reached ++ (preorderAll (ts ++ us)).map key =
      reached ++ (preorderAll ts).map key ++ (preorderAll us).map key := by
    rw [Tree.preorderAll_append, List.map_append, List.append_assoc]
  rw [hstack] at clean ⊢
  obtain ⟨hrun, hclean⟩ := hts reached (us.map key ++ stack) clean
  obtain ⟨hrun', hclean'⟩ := hus _ stack hclean
  rw [hreached]
  exact ⟨hrun.trans hrun', hclean'⟩

theorem passes_of_forall {table : List Node} {ts : List Tree} (h : ∀ t ∈ ts, Passes table [t]) :
    Passes table ts := by
  induction ts with
  | nil => exact passes_nil table
  | cons t ts ih =>
    exact (h t List.mem_cons_self).append (ih fun s hs => h s (List.mem_cons_of_mem _ hs))

theorem run_nil (entries : List Entry) (reached : List (Int × Nat)) :
    run entries ⟨reached, []⟩ = ⟨reached, []⟩ := by
  rw [run, dif_pos rfl]

theorem run_cons (entries : List Entry) (reached : List (Int × Nat)) (a : Int × Nat)
    (stack : List (Int × Nat)) :
    run entries ⟨reached, a :: stack⟩ = run entries (step entries ⟨reached, a :: stack⟩) := by
  rw [run, dif_neg (List.cons_ne_nil a stack)]

theorem passes_tree {table : List Node} (nodup : (table.map Node.hash).Nodup) {t : Tree}
    (hfollows : ∀ s ∈ preorder t, Follows (link table).entries s) : Passes table [t] := by
  induction t using Tree.induction with
  | node n d ts ih =>
    have hbelow : Passes table ts := by
      refine passes_of_forall fun t ht => ih t ht fun s hs => hfollows s ?_
      rw [preorder]
      exact List.mem_cons_of_mem _ (Tree.mem_preorderAll.2 ⟨t, ht, hs⟩)
    intro reached stack clean
    have hready : Clean table ⟨reached, key (.node n d ts) :: stack⟩ := clean
    obtain ⟨hstep, hclean⟩ := step_clean nodup hready
    have hchildren : (childrenOf (link table).entries (key (.node n d ts)).1).map
        (·, (key (.node n d ts)).2 + 1) = ts.map key := hfollows _ (Tree.mem_preorder_self _)
    rw [hchildren] at hstep hclean
    obtain ⟨hrun, hclean'⟩ := hbelow _ stack hclean
    have hkeys : reached ++ (preorderAll [.node n d ts]).map key =
        reached ++ [key (.node n d ts)] ++ (preorderAll ts).map key := by
      rw [preorderAll, preorderAll, preorder, List.append_nil, List.map_cons, List.append_assoc]
      rfl
    rw [hkeys]
    exact ⟨((run_cons _ _ _ _).trans (congrArg _ hstep)).trans hrun, hclean'⟩

end Walk

/-! ## The index -/

/-- Lists with the same distinct keys are the same if one holds all that the other does. -/
theorem eq_of_keys {l l' : List (Int × Tree)} (nodup : (l.map Prod.fst).Nodup)
    (hkeys : l'.map Prod.fst = l.map Prod.fst) (hsub : l' ⊆ l) : l' = l := by
  refine List.ext_getElem ?_ fun i hi hi' => ?_
  · rw [← List.length_map (f := Prod.fst), hkeys, List.length_map]
  · refine List.inj_on_of_nodup_map nodup (hsub (List.getElem_mem hi)) (List.getElem_mem hi') ?_
    rw [← List.getElem_map (f := Prod.fst) (h := by rwa [List.length_map]),
      ← List.getElem_map (f := Prod.fst) (h := by rwa [List.length_map])]
    simp only [hkeys]

theorem Describes.subtree_indexed {table : List Node} {f : Forest} (h : Describes table f) :
    ∀ s ∈ preorderAll f.roots, (s.hash, s) ∈ f.nodes :=
  Tree.forall_mem_preorderAll h.roots_indexed fun s hs => h.children_indexed s.hash s hs

theorem Describes.child_depth {table : List Node} (nodup : (table.map Node.hash).Nodup) {f : Forest}
    (h : Describes table f) {s c : Tree} (hs : (s.hash, s) ∈ f.nodes) (hc : c ∈ s.children) :
    c.depth = s.depth + 1 := by
  have hmem : c.value ∈ table.filter fun n => n.parent = some s.hash := by
    rw [← h.children s.hash s hs]
    exact List.mem_map_of_mem hc
  obtain ⟨hvalue, hparent⟩ := List.mem_filter.1 hmem
  have hrooted := h.depth _ c (h.children_indexed s.hash s hs c hc)
  exact hrooted.unique nodup (.child hvalue (of_decide_eq_true hparent) (h.depth s.hash s hs))

theorem Describes.root_depth {table : List Node} (nodup : (table.map Node.hash).Nodup) {f : Forest}
    (h : Describes table f) {t : Tree} (ht : t ∈ f.roots) : t.depth = 0 := by
  have hmem : t.value ∈ table.filter fun n => n.parent = none := by
    rw [← h.roots]
    exact List.mem_map_of_mem ht
  obtain ⟨hvalue, hparent⟩ := List.mem_filter.1 hmem
  exact (h.depth _ t (h.roots_indexed t ht)).unique nodup (.root hvalue (of_decide_eq_true hparent))

/-- The children on record of a node of the index are those of its tree. -/
theorem Describes.follows {table : List Node} (nodup : (table.map Node.hash).Nodup) {f : Forest}
    (h : Describes table f) {s : Tree} (hs : (s.hash, s) ∈ f.nodes) :
    Walk.Follows (link table).entries s := by
  have hmem : s.hash ∈ table.map Node.hash := List.mem_map_of_mem (h.value _ s hs)
  have hbelow : table.filter (isBelow s.hash) = s.children.map Tree.value := by
    rw [h.children s.hash s hs]
    refine List.filter_congr fun m hm => ?_
    simp only [isBelow, decide_eq_decide, and_iff_left_iff_imp]
    exact fun hp => (h.depth _ s hs).parent_ne nodup hm hp
  unfold Walk.Follows
  rw [childrenOf_link hmem, hbelow, List.map_map, List.map_map]
  refine List.map_congr_left fun c hc => ?_
  exact congrArg (Prod.mk c.hash) (h.child_depth nodup hs hc).symm

theorem linked_nodes_eq_preorder {table : List Node} (nodup : (table.map Node.hash).Nodup) :
    treesOf table = (preorderAll ((link table).roots.filterMap fun h => (treesOf table).lookup h)).map
      fun t => (t.hash, t) := by
  have h := linked_describes nodup
  generalize hroots : ((link table).roots.filterMap fun h => (treesOf table).lookup h) = roots at h ⊢
  have hstart : Walk.start (link table).roots = ⟨[], roots.map Walk.key ++ []⟩ := by
    have hhashes : (link table).roots = roots.map Tree.hash := by
      have hvalues : roots.map Tree.value = table.filter Node.isRoot := by
        refine h.roots.trans (List.filter_congr fun n _ => ?_)
        cases hp : n.parent <;> simp [Node.isRoot, hp]
      rw [link_eq_linksOf, linksOf, ← hvalues, List.map_map]
      rfl
    rw [Walk.start, hhashes, List.map_map, List.append_nil]
    congr 1
    exact List.map_congr_left fun t ht => congrArg (Prod.mk t.hash) (h.root_depth nodup ht).symm
  have hclean := Walk.start_clean nodup
  rw [hstart] at hclean
  -- the walk goes through all roots and has nothing left to look at
  have hpasses : Walk.Passes table roots := Walk.passes_of_forall fun t ht =>
    Walk.passes_tree nodup fun s hs =>
      h.follows nodup (h.subtree_indexed s (Tree.mem_preorderAll.2 ⟨t, ht, hs⟩))
  have hreached : (Walk.full table).reached = (preorderAll roots).map Walk.key := by
    rw [Walk.full, hstart, (hpasses [] [] hclean).1, Walk.run_nil]
    rfl
  symm
  refine eq_of_keys (treesOf_keys_nodup nodup) ?_ fun p hp => ?_
  · rw [treesOf_keys nodup, hreached, List.map_map, List.map_map]
    rfl
  · obtain ⟨t, ht, rfl⟩ := List.mem_map.1 hp
    exact h.subtree_indexed t ht

/-- The index holds all trees of the forest from the top, each before those below it. -/
theorem nodes_eq_preorder (ns : List Node) :
    (build ns).nodes = (preorderAll (build ns).roots).map fun t => (t.hash, t) := by
  have h := linked_nodes_eq_preorder (tableOf_nodup ns)
  rw [tableOf, ← latest_eq_lastByHash] at h
  exact h

theorem index_eq_flatten (ns : List Node) : (build ns).index = Tree.flatten (build ns).roots := by
  rw [index, nodes_eq_preorder, List.map_map, Tree.flatten_eq_preorderAll]
  exact List.map_id _

end Forest
end ScriptTree
