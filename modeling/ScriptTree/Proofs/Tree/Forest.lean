/-
The forest of any list of nodes, however inconsistent: duplicates, nodes that are their own parent,
parents that are not there and circles of parents. The roots, the orphans, the nodes of the index
with their depths and their children are exactly those that the links to parents describe
(`Describes`), each node of the index other than a root is the child of one node, and what is not in
the index is an orphan, lies below one or leads into a circle.
-/
import ScriptTree.Proofs.Tree.Walk

namespace ScriptTree.Forest

/-! ## Trees by hash -/

theorem mem_of_lookup {trees : List (Int × Tree)} {h : Int} {t : Tree} (hl : trees.lookup h = some t) :
    (h, t) ∈ trees := by
  obtain ⟨before, after, rfl, -⟩ := List.lookup_eq_some_iff.1 hl
  exact List.mem_append_right _ List.mem_cons_self

theorem lookup_of_mem {trees : List (Int × Tree)} (nodup : (trees.map Prod.fst).Nodup) {h : Int} {t : Tree}
    (hmem : (h, t) ∈ trees) : trees.lookup h = some t := by
  induction trees with
  | nil => cases hmem
  | cons p trees ih =>
    obtain ⟨hnew, hrest⟩ := List.nodup_cons.1 nodup
    rcases List.mem_cons.1 hmem with rfl | hmem
    · exact List.lookup_cons_self
    · have hne : h ≠ p.1 := by
        rintro rfl
        exact hnew (List.mem_map.2 ⟨_, hmem, rfl⟩)
      rw [List.lookup_cons, beq_false_of_ne hne]
      exact ih hrest hmem

/-! ## Assembling -/

section

variable {entries : List Entry} {reached : List (Int × Nat)}

theorem assemble_cons {h : Int} {e : Entry} (he : entryOf? entries h = some e) (depth : Nat)
    (later : List (Int × Nat)) :
    assemble entries ((h, depth) :: later) =
      (h, .node e.node depth (e.children.filterMap fun c => (assemble entries later).lookup c)) ::
        assemble entries later := by
  rw [assemble, he]

theorem assemble_keys (known : ∀ a ∈ reached, (entryOf? entries a.1).isSome) :
    (assemble entries reached).map Prod.fst = reached.map Prod.fst := by
  induction reached with
  | nil => rfl
  | cons a reached ih =>
    obtain ⟨h, d⟩ := a
    obtain ⟨e, he⟩ := Option.isSome_iff_exists.1 (known (h, d) List.mem_cons_self)
    rw [assemble_cons he, List.map_cons, List.map_cons, ih fun a ha => known a (List.mem_cons_of_mem _ ha)]

/-- The tree of each node reached is made of the trees of its children. -/
theorem lookup_assemble (known : ∀ a ∈ reached, (entryOf? entries a.1).isSome)
    (nodup : (reached.map Prod.fst).Nodup) (self : ∀ h, h ∉ childrenOf entries h)
    (order : reached.Pairwise fun a b => a.1 ∉ childrenOf entries b.1) :
    ∀ a ∈ reached, ∃ e, entryOf? entries a.1 = some e ∧
      (assemble entries reached).lookup a.1 =
        some (.node e.node a.2 (e.children.filterMap fun c => (assemble entries reached).lookup c)) := by
  induction reached with
  | nil => intro a ha; cases ha
  | cons top later ih =>
    obtain ⟨h, d⟩ := top
    obtain ⟨hnew, hnodup⟩ := List.nodup_cons.1 nodup
    obtain ⟨hfirst, horder⟩ := List.pairwise_cons.1 order
    obtain ⟨e, he⟩ := Option.isSome_iff_exists.1 (known (h, d) List.mem_cons_self)
    have hother : ∀ c, c ≠ h →
        (assemble entries ((h, d) :: later)).lookup c = (assemble entries later).lookup c := by
      intro c hc
      rw [assemble_cons he, List.lookup_cons, beq_false_of_ne hc]
    -- the tree at the top is no child of its own node or of a node reached later
    have hchildren : ∀ {g : Int} {e : Entry}, entryOf? entries g = some e → h ∉ childrenOf entries g →
        (e.children.filterMap fun c => (assemble entries later).lookup c) =
          e.children.filterMap fun c => (assemble entries ((h, d) :: later)).lookup c := by
      intro g e' hg hnot
      refine List.filterMap_congr fun c hc => (hother c ?_).symm
      rintro rfl
      rw [childrenOf, hg] at hnot
      exact hnot hc
    intro a ha
    rcases List.mem_cons.1 ha with rfl | hlater
    · refine ⟨e, he, ?_⟩
      rw [← hchildren he (self h), assemble_cons he]
      exact List.lookup_cons_self
    · obtain ⟨e', he', hl⟩ := ih (fun a ha => known a (List.mem_cons_of_mem _ ha)) hnodup horder a hlater
      have hne : a.1 ≠ h := by
        rintro rfl
        exact hnew (List.mem_map.2 ⟨a, hlater, rfl⟩)
      exact ⟨e', he', by rw [hother a.1 hne, hl, hchildren he' (hfirst a hlater)]⟩

end

/-! ## The forest of a table -/

/-- The forest that the links to parents describe. -/
structure Describes (table : List Node) (f : Forest) : Prop where
  /-- The roots are the nodes without parent, in the order of the table. -/
  roots : f.roots.map Tree.value = table.filter fun n => n.parent = none
  roots_indexed : ∀ t ∈ f.roots, (t.hash, t) ∈ f.nodes
  /-- The orphans are the nodes whose parent is themselves or is not there. -/
  orphans : f.orphans = (table.filter (isOrphan table)).map Node.hash
  keys : (f.nodes.map Prod.fst).Nodup
  /-- The index holds the nodes from which links to parents lead to a node without parent. -/
  indexed : ∀ h, h ∈ f.nodes.map Prod.fst ↔ ∃ k, Rooted table h k
  hash : ∀ h t, (h, t) ∈ f.nodes → t.hash = h
  value : ∀ h t, (h, t) ∈ f.nodes → t.value ∈ table
  /-- The depth is the number of links up to the root. -/
  depth : ∀ h t, (h, t) ∈ f.nodes → Rooted table h t.depth
  /-- The children are the nodes that name the node as their parent, in the order of the table. -/
  children : ∀ h t, (h, t) ∈ f.nodes → t.children.map Tree.value = table.filter fun n => n.parent = some h
  children_indexed : ∀ h t, (h, t) ∈ f.nodes → ∀ c ∈ t.children, (c.hash, c) ∈ f.nodes
  /-- Every node of the index that is not a root is a child once. -/
  once : ∀ h t, (h, t) ∈ f.nodes → t.value.parent ≠ none →
    (f.nodes.flatMap fun p => p.2.children.map Tree.hash).count h = 1
  /-- What is left out is an orphan, lies below one, or leads into a circle of parents. -/
  left_out : ∀ h ∈ table.map Node.hash, h ∉ f.nodes.map Prod.fst →
    h ∈ f.orphans ∨ (∃ o ∈ f.orphans, Relation.TransGen (ParentStep table) h o) ∨
      ∃ c, Relation.ReflTransGen (ParentStep table) h c ∧ Relation.TransGen (ParentStep table) c c

/-- The trees by hash of a table. -/
def treesOf (table : List Node) : List (Int × Tree) :=
  assemble (link table).entries (Walk.full table).reached

section

variable {table : List Node} (nodup : (table.map Node.hash).Nodup)

include nodup

theorem known_reached : ∀ a ∈ (Walk.full table).reached, (entryOf? (link table).entries a.1).isSome := by
  intro a ha
  rw [link_eq_linksOf, entryOf?_isSome]
  exact ((Walk.mem_reached_iff nodup).1 ha).mem

theorem treesOf_keys : (treesOf table).map Prod.fst = (Walk.full table).reached.map Prod.fst :=
  assemble_keys (known_reached nodup)

theorem treesOf_keys_nodup : ((treesOf table).map Prod.fst).Nodup := by
  rw [treesOf_keys nodup]
  exact (Walk.full_inv nodup).nodup

theorem mem_treesOf_keys {h : Int} : h ∈ (treesOf table).map Prod.fst ↔ ∃ k, Rooted table h k := by
  rw [treesOf_keys nodup, List.mem_map]
  constructor
  · rintro ⟨⟨h', k⟩, ha, rfl⟩
    exact ⟨k, (Walk.mem_reached_iff nodup).1 ha⟩
  · rintro ⟨k, r⟩
    exact ⟨(h, k), (Walk.mem_reached_iff nodup).2 r, rfl⟩

/-- The tree of a node of the table that belongs to a root. -/
theorem lookup_treesOf {n : Node} {k : Nat} (hn : n ∈ table) (r : Rooted table n.hash k) :
    (treesOf table).lookup n.hash = some (.node n k
      (((table.filter fun m => m.parent = some n.hash).map Node.hash).filterMap
        fun c => (treesOf table).lookup c)) := by
  have inv := Walk.full_inv nodup
  have self : ∀ h, h ∉ childrenOf (link table).entries h := by
    intro h hc
    obtain ⟨-, m, -, -, -, hne⟩ := mem_childrenOf.1 hc
    exact hne rfl
  obtain ⟨e, he, hl⟩ := lookup_assemble (known_reached nodup) inv.nodup self inv.order (n.hash, k)
    ((Walk.mem_reached_iff nodup).2 r)
  rw [link_eq_linksOf, entryOf?_linksOf, find?_hash nodup hn, Option.map_some] at he
  have hbelow : table.filter (isBelow n.hash) = table.filter fun m => m.parent = some n.hash := by
    refine List.filter_congr fun m hm => ?_
    simp only [isBelow, decide_eq_decide, and_iff_left_iff_imp]
    exact fun hp => r.parent_ne nodup hm hp
  cases he
  rw [hbelow] at hl
  exact hl

/-- The trees of some nodes that belong to roots. -/
theorem lookup_values {ms : List Node} (h : ∀ m ∈ ms, m ∈ table ∧ ∃ k, Rooted table m.hash k) :
    ((ms.map Node.hash).filterMap fun c => (treesOf table).lookup c).map Tree.value = ms := by
  induction ms with
  | nil => rfl
  | cons m ms ih =>
    obtain ⟨hm, k, r⟩ := h m List.mem_cons_self
    rw [List.map_cons, List.filterMap_cons_some (f := fun c => (treesOf table).lookup c)
      (lookup_treesOf nodup hm r), List.map_cons, ih fun a ha => h a (List.mem_cons_of_mem _ ha)]
    rfl

/-- The trees of the index are those of the nodes that belong to a root. -/
theorem mem_treesOf {h : Int} {t : Tree} (ht : (h, t) ∈ treesOf table) :
    ∃ n ∈ table, n.hash = h ∧ ∃ k, Rooted table h k ∧ t = .node n k
      (((table.filter fun m => m.parent = some h).map Node.hash).filterMap
        fun c => (treesOf table).lookup c) := by
  obtain ⟨k, r⟩ := (mem_treesOf_keys nodup).1 (List.mem_map.2 ⟨_, ht, rfl⟩)
  obtain ⟨n, hn, rfl⟩ := List.mem_map.1 r.mem
  refine ⟨n, hn, rfl, k, r, ?_⟩
  have hl := lookup_of_mem (treesOf_keys_nodup nodup) ht
  rw [lookup_treesOf nodup hn r] at hl
  exact (Option.some.inj hl).symm

theorem lookup_hash {h : Int} {t : Tree} (hl : (treesOf table).lookup h = some t) : t.hash = h := by
  obtain ⟨n, -, rfl, k, -, rfl⟩ := mem_treesOf nodup (mem_of_lookup hl)
  rfl

theorem treesOf_children {h : Int} {t : Tree} (ht : (h, t) ∈ treesOf table) :
    t.children.map Tree.value = table.filter fun n => n.parent = some h := by
  obtain ⟨n, hn, rfl, k, r, rfl⟩ := mem_treesOf nodup ht
  refine lookup_values nodup fun m hm => ?_
  obtain ⟨hm, hp⟩ := List.mem_filter.1 hm
  exact ⟨hm, k + 1, .child hm (of_decide_eq_true hp) r⟩

/-- No node is a child twice. -/
theorem children_nodup : ((treesOf table).flatMap fun p => p.2.children.map Tree.hash).Nodup := by
  have hchildren : ∀ p ∈ treesOf table,
      p.2.children.map Tree.hash = (table.filter fun n => n.parent = some p.1).map Node.hash := by
    rintro ⟨h, t⟩ ht
    rw [← treesOf_children nodup ht, List.map_map]
    rfl
  rw [List.nodup_flatMap]
  constructor
  · intro p hp
    rw [hchildren p hp]
    exact nodup.sublist (List.filter_sublist.map _)
  · -- a node in two lists would have two parents
    have hkeys := List.pairwise_map.1 (treesOf_keys_nodup nodup)
    refine hkeys.imp_of_mem fun {p q} hp hq hne c hc hc' => ?_
    change c ∈ p.2.children.map Tree.hash at hc
    change c ∈ q.2.children.map Tree.hash at hc'
    rw [hchildren p hp] at hc
    rw [hchildren q hq] at hc'
    obtain ⟨m, hm, rfl⟩ := List.mem_map.1 hc
    obtain ⟨m', hm', hash⟩ := List.mem_map.1 hc'
    obtain ⟨hm, hparent⟩ := List.mem_filter.1 hm
    obtain ⟨hm', hparent'⟩ := List.mem_filter.1 hm'
    rw [eq_of_hash nodup hm' hm hash] at hparent'
    exact hne (Option.some.inj ((of_decide_eq_true hparent).symm.trans (of_decide_eq_true hparent')))

/-- A node with a parent is a child once. -/
theorem count_children {h : Int} {t : Tree} (ht : (h, t) ∈ treesOf table) (hp : t.value.parent ≠ none) :
    ((treesOf table).flatMap fun p => p.2.children.map Tree.hash).count h = 1 := by
  obtain ⟨n, hn, rfl, k, r, rfl⟩ := mem_treesOf nodup ht
  obtain ⟨p, hp⟩ := Option.ne_none_iff_exists'.1 hp
  -- the parent belongs to the same root, so it has a tree, and the node is among its children
  obtain ⟨⟨p, t⟩, ht', rfl⟩ := List.mem_map.1 ((mem_treesOf_keys nodup).2 (r.parent nodup hn hp))
  have hvalue : n ∈ t.children.map Tree.value := by
    rw [treesOf_children nodup ht']
    exact List.mem_filter.2 ⟨hn, decide_eq_true hp⟩
  obtain ⟨c, hc, rfl⟩ := List.mem_map.1 hvalue
  exact List.count_eq_one_of_mem (children_nodup nodup)
    (List.mem_flatMap.2 ⟨_, ht', List.mem_map_of_mem hc⟩)

/-- What becomes of the nodes that have no tree. -/
theorem left_out_of_treesOf {h : Int} (hh : h ∈ table.map Node.hash)
    (hout : h ∉ (treesOf table).map Prod.fst) :
    h ∈ (table.filter (isOrphan table)).map Node.hash ∨
      (∃ o ∈ (table.filter (isOrphan table)).map Node.hash, Relation.TransGen (ParentStep table) h o) ∨
      ∃ c, Relation.ReflTransGen (ParentStep table) h c ∧ Relation.TransGen (ParentStep table) c c := by
  obtain ⟨n, hn, rfl⟩ := List.mem_map.1 hh
  have hfree : ∀ k, ¬ Rooted table n.hash k := fun k r => hout ((mem_treesOf_keys nodup).2 ⟨k, r⟩)
  rcases leads_up ∅ hn (Finset.notMem_empty _) (fun s hs => absurd hs (Finset.notMem_empty s)) hfree with
    ⟨o, ho, horphan, hway⟩ | hcircle
  · have hmem := List.mem_map_of_mem (f := Node.hash) (List.mem_filter.2 ⟨ho, horphan⟩)
    rcases Relation.reflTransGen_iff_eq_or_transGen.1 hway with heq | hway
    · exact .inl (heq ▸ hmem)
    · exact .inr (.inl ⟨_, hmem, hway⟩)
  · exact .inr (.inr hcircle)

/-- The forest made from the links of a table with distinct hashes is the one they describe. -/
theorem linked_describes :
    Describes table
      { roots := (link table).roots.filterMap fun h => (treesOf table).lookup h
        nodes := treesOf table
        orphans := (link table).orphans } := by
  have horphans : (link table).orphans = (table.filter (isOrphan table)).map Node.hash := by
    rw [link_eq_linksOf]
    rfl
  have hroots : (link table).roots = (table.filter fun n => n.parent = none).map Node.hash := by
    rw [link_eq_linksOf]
    refine congrArg _ (List.filter_congr fun n _ => ?_)
    cases hp : n.parent <;> simp [Node.isRoot, hp]
  rw [horphans, hroots]
  refine
    { roots := ?_, roots_indexed := ?_, orphans := rfl, keys := treesOf_keys_nodup nodup
      indexed := fun h => mem_treesOf_keys nodup, hash := ?_, value := ?_, depth := ?_
      children := fun h t ht => treesOf_children nodup ht, children_indexed := ?_
      once := fun h t ht => count_children nodup ht, left_out := fun h => left_out_of_treesOf nodup }
  · refine lookup_values nodup fun m hm => ?_
    obtain ⟨hm, hp⟩ := List.mem_filter.1 hm
    exact ⟨hm, 0, .root hm (of_decide_eq_true hp)⟩
  · intro t ht
    obtain ⟨h, -, hl⟩ := List.mem_filterMap.1 ht
    rw [lookup_hash nodup hl]
    exact mem_of_lookup hl
  · exact fun h t ht => lookup_hash nodup (lookup_of_mem (treesOf_keys_nodup nodup) ht)
  · intro h t ht
    obtain ⟨n, hn, -, k, -, rfl⟩ := mem_treesOf nodup ht
    exact hn
  · intro h t ht
    obtain ⟨n, -, -, k, r, rfl⟩ := mem_treesOf nodup ht
    exact r
  · intro h t ht c hc
    obtain ⟨n, -, -, k, -, rfl⟩ := mem_treesOf nodup ht
    obtain ⟨g, -, hl⟩ := List.mem_filterMap.1 hc
    rw [lookup_hash nodup hl]
    exact mem_of_lookup hl

end

/-- The table that a list of nodes comes to. -/
def tableOf (ns : List Node) : List Node :=
  (lastByHash ns).map Node.capped

/-- The nodes of the table are nodes of the list, with their texts cut. -/
theorem exists_of_mem_tableOf {ns : List Node} {m : Node} (hm : m ∈ tableOf ns) : ∃ n ∈ ns, n.capped = m := by
  obtain ⟨n, hn, rfl⟩ := List.mem_map.1 hm
  obtain ⟨h, -, hfind⟩ := List.mem_filterMap.1 hn
  exact ⟨n, List.mem_reverse.1 (List.mem_of_find?_eq_some hfind), rfl⟩

theorem tableOf_nodup (ns : List Node) : ((tableOf ns).map Node.hash).Nodup := by
  rw [tableOf, ← latest_eq_lastByHash, List.map_map]
  exact latest_nodup ns

theorem describes_tableOf (ns : List Node) : Describes (tableOf ns) (build ns) := by
  have nodup := tableOf_nodup ns
  rw [tableOf, ← latest_eq_lastByHash] at nodup ⊢
  exact linked_describes nodup

/-- For any list of nodes, of which the last of each hash counts, at the place of the first. -/
theorem build_describes (ns : List Node) : Describes ((lastByHash ns).map Node.capped) (build ns) :=
  describes_tableOf ns

end ScriptTree.Forest
