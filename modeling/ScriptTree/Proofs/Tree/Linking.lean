/-
The two passes over a list of nodes. The first leaves one node for each hash: the last one, at the
place of the first. The second links every node to its parent, so that in the end the children of a
node are the nodes that name it as their parent, in the order of the table, the roots are the nodes
without parent, and the orphans those whose parent is themselves or not there.
-/
import ScriptTree.Tree.Forest
import Mathlib

namespace ScriptTree.Forest

/-! ## One node for each hash -/

/-- The last node with a hash. -/
def lastWith? (ns : List Node) (h : Int) : Option Node :=
  ns.reverse.find? (·.hash == h)

/-- The last node of each hash, the hashes in the order in which they first occur. -/
def lastByHash (ns : List Node) : List Node :=
  (ns.map Node.hash).eraseDups.filterMap (lastWith? ns)

theorem lastWith?_snoc (ns : List Node) (n : Node) (h : Int) :
    lastWith? (ns ++ [n]) h = if n.hash = h then some n else lastWith? ns h := by
  unfold lastWith?
  rw [List.reverse_append, List.reverse_singleton, List.singleton_append, List.find?_cons]
  by_cases hn : n.hash = h
  · rw [if_pos hn, hn, beq_self_eq_true]
  · rw [if_neg hn, beq_false_of_ne hn]

theorem lastWith?_eq_some {ns : List Node} {h : Int} (hmem : h ∈ ns.map Node.hash) :
    ∃ m, lastWith? ns h = some m ∧ m.hash = h := by
  cases hfind : lastWith? ns h with
  | none =>
    obtain ⟨m, hm, rfl⟩ := List.mem_map.1 hmem
    have hnone := List.find?_eq_none.1 hfind m (List.mem_reverse.2 hm)
    simp at hnone
  | some m => exact ⟨m, rfl, by simpa using List.find?_some hfind⟩

theorem filterMap_lastWith?_hash {ns : List Node} {hs : List Int} (h : ∀ a ∈ hs, a ∈ ns.map Node.hash) :
    (hs.filterMap (lastWith? ns)).map Node.hash = hs := by
  induction hs with
  | nil => rfl
  | cons a hs ih =>
    obtain ⟨m, hm, hash⟩ := lastWith?_eq_some (h a List.mem_cons_self)
    rw [List.filterMap_cons_some hm, List.map_cons, hash, ih fun b hb => h b (List.mem_cons_of_mem _ hb)]

theorem lastByHash_hash (ns : List Node) :
    (lastByHash ns).map Node.hash = (ns.map Node.hash).eraseDups :=
  filterMap_lastWith?_hash fun _ h => List.mem_eraseDups.1 h

/-- A new hash goes to the end. -/
theorem put_of_not_mem {n : Node} {ms : List Node} (h : n.hash ∉ ms.map Node.hash) :
    put n ms = ms ++ [n] := by
  induction ms with
  | nil => rfl
  | cons m ms ih =>
    rw [List.map_cons, List.mem_cons, not_or] at h
    rw [put, if_neg (Ne.symm h.1), ih h.2, List.cons_append]

/-- A node replaces the one with its hash. -/
theorem put_of_mem {n : Node} {ms : List Node} (nodup : (ms.map Node.hash).Nodup)
    (h : n.hash ∈ ms.map Node.hash) :
    put n ms = ms.map fun m => if m.hash = n.hash then n else m := by
  induction ms with
  | nil => cases h
  | cons m ms ih =>
    obtain ⟨hnew, hrest⟩ := List.nodup_cons.1 nodup
    rw [put, List.map_cons]
    by_cases hm : m.hash = n.hash
    · rw [if_pos hm, if_pos hm]
      congr 1
      refine ((List.map_congr_left fun a ha => if_neg fun heq => ?_).trans (List.map_id ms)).symm
      exact hnew (List.mem_map.2 ⟨a, ha, heq.trans hm.symm⟩)
    · rw [if_neg hm, if_neg hm]
      rcases List.mem_cons.1 h with heq | htail
      · exact absurd heq.symm hm
      · rw [ih hrest htail]

theorem put_nodup {n : Node} {ms : List Node} (h : (ms.map Node.hash).Nodup) :
    ((put n ms).map Node.hash).Nodup := by
  by_cases hmem : n.hash ∈ ms.map Node.hash
  · have hsame : (put n ms).map Node.hash = ms.map Node.hash := by
      rw [put_of_mem h hmem, List.map_map]
      refine List.map_congr_left fun m _ => ?_
      by_cases hm : m.hash = n.hash
      · rw [Function.comp_apply, if_pos hm, hm]
      · rw [Function.comp_apply, if_neg hm]
    rw [hsame]
    exact h
  · have hconcat := h.concat hmem
    rw [List.concat_eq_append] at hconcat
    rw [put_of_not_mem hmem, List.map_append]
    exact hconcat

theorem latest_snoc (ns : List Node) (n : Node) : latest (ns ++ [n]) = put n (latest ns) :=
  List.foldl_append

theorem latest_nodup (ns : List Node) : ((latest ns).map Node.hash).Nodup := by
  induction ns using List.reverseRecOn with
  | nil => exact List.nodup_nil
  | append_singleton ns n ih => rw [latest_snoc]; exact put_nodup ih

/-- The first pass keeps the place of the first node with a hash and the data of the last. -/
theorem latest_eq_lastByHash (ns : List Node) : latest ns = lastByHash ns := by
  induction ns using List.reverseRecOn with
  | nil => rfl
  | append_singleton ns n ih =>
    have hhash : n.hash ∈ (latest ns).map Node.hash ↔ n.hash ∈ ns.map Node.hash := by
      rw [ih, lastByHash_hash, List.mem_eraseDups]
    rw [latest_snoc, lastByHash, List.map_append, List.eraseDups_append]
    by_cases hmem : n.hash ∈ ns.map Node.hash
    · have hnone : ([n].map Node.hash).removeAll (ns.map Node.hash) = [] := by
        simpa [List.removeAll] using hmem
      rw [put_of_mem (latest_nodup ns) (hhash.2 hmem), ih, lastByHash, hnone, List.eraseDups_nil,
        List.append_nil, List.map_filterMap]
      refine List.filterMap_congr fun a ha => ?_
      obtain ⟨m, hm, rfl⟩ := lastWith?_eq_some (List.mem_eraseDups.1 ha)
      rw [lastWith?_snoc, hm, Option.map_some]
      by_cases heq : m.hash = n.hash
      · rw [if_pos heq, if_pos heq.symm]
      · rw [if_neg heq, if_neg (Ne.symm heq)]
    · have hone : ([n].map Node.hash).removeAll (ns.map Node.hash) = [n.hash] := by
        simpa [List.removeAll] using hmem
      have hnew : lastWith? (ns ++ [n]) n.hash = some n := by rw [lastWith?_snoc, if_pos rfl]
      have hold : ∀ a ∈ (ns.map Node.hash).eraseDups, lastWith? ns a = lastWith? (ns ++ [n]) a := by
        intro a ha
        rw [lastWith?_snoc, if_neg]
        rintro rfl
        exact hmem (List.mem_eraseDups.1 ha)
      rw [put_of_not_mem fun h => hmem (hhash.1 h), ih, hone, lastByHash, List.filterMap_congr hold,
        List.eraseDups_cons, List.filterMap_append]
      simp [hnew]

/-- A hash names one node. -/
theorem find?_hash {table : List Node} (nodup : (table.map Node.hash).Nodup) {n : Node} (hn : n ∈ table) :
    table.find? (·.hash == n.hash) = some n := by
  cases hfind : table.find? (·.hash == n.hash) with
  | none =>
    have hnone := List.find?_eq_none.1 hfind n hn
    simp at hnone
  | some m =>
    have hash : m.hash = n.hash := by simpa using List.find?_some hfind
    rw [List.inj_on_of_nodup_map nodup (List.mem_of_find?_eq_some hfind) hn hash]

/-! ## One link for each node -/

/-- The node names the hash as its parent's, and it is not its own. -/
def isBelow (h : Int) (n : Node) : Bool :=
  n.parent = some h ∧ h ≠ n.hash

/-- The node's parent is itself or not in the table. -/
def isOrphan (table : List Node) (n : Node) : Bool :=
  n.parent.any fun p => p = n.hash ∨ p ∉ table.map Node.hash

/-- The links after some nodes of a table were linked. -/
def linksOf (table linked : List Node) : Links :=
  { entries := table.map fun n => ⟨n, (linked.filter (isBelow n.hash)).map Node.hash⟩
    roots := (linked.filter Node.isRoot).map Node.hash
    orphans := (linked.filter (isOrphan table)).map Node.hash }

theorem entryOf?_linksOf (table linked : List Node) (h : Int) :
    entryOf? (linksOf table linked).entries h = (table.find? (·.hash == h)).map
      fun n => ⟨n, (linked.filter (isBelow n.hash)).map Node.hash⟩ := by
  unfold entryOf? linksOf
  rw [List.find?_map]
  rfl

theorem entryOf?_isSome (table linked : List Node) (h : Int) :
    (entryOf? (linksOf table linked).entries h).isSome ↔ h ∈ table.map Node.hash := by
  rw [entryOf?_linksOf, Option.isSome_map, List.find?_isSome, List.mem_map]
  simp only [beq_iff_eq]

theorem filter_snoc (p : Node → Bool) (linked : List Node) (n : Node) :
    ((linked ++ [n]).filter p).map Node.hash =
      (linked.filter p).map Node.hash ++ if p n then [n.hash] else [] := by
  rw [List.filter_append, List.map_append, List.filter_singleton]
  cases p n <;> rfl

/-- A node is the last one in the lists that it goes to. -/
theorem linksOf_snoc (table linked : List Node) (n : Node) :
    linksOf table (linked ++ [n]) =
      { entries := table.map fun m => ⟨m, (linked.filter (isBelow m.hash)).map Node.hash ++
          if isBelow m.hash n then [n.hash] else []⟩
        roots := (linked.filter Node.isRoot).map Node.hash ++ if n.isRoot then [n.hash] else []
        orphans := (linked.filter (isOrphan table)).map Node.hash ++
          if isOrphan table n then [n.hash] else [] } := by
  simp only [linksOf, filter_snoc]

section

variable (table linked : List Node) {n : Node}

theorem place_root (hp : n.parent = none) :
    place (linksOf table linked) n = linksOf table (linked ++ [n]) := by
  have hroot : n.isRoot = true := by rw [Node.isRoot, hp]; rfl
  have horphan : isOrphan table n = false := by rw [isOrphan, hp]; rfl
  have hbelow : ∀ h, isBelow h n = false := fun h => by simp [isBelow, hp]
  unfold place
  simp only [linksOf_snoc, hp, hroot, horphan, hbelow, if_true, Bool.false_eq_true, if_false, List.append_nil]
  rfl

theorem place_child {p : Int} (hp : n.parent = some p) (hne : p ≠ n.hash) (hmem : p ∈ table.map Node.hash) :
    place (linksOf table linked) n = linksOf table (linked ++ [n]) := by
  have hroot : n.isRoot = false := by rw [Node.isRoot, hp]; rfl
  have horphan : isOrphan table n = false := by simpa [isOrphan, hp, hne] using hmem
  have hadopt : ∀ m children, adopt p n.hash ⟨m, children⟩ =
      ⟨m, children ++ if isBelow m.hash n then [n.hash] else []⟩ := by
    intro m children
    by_cases hm : m.hash = p
    · have hbelow : isBelow m.hash n = true := by simp [isBelow, hp, hm, hne]
      rw [adopt, if_pos hm, hbelow, if_pos rfl]
    · have hbelow : isBelow m.hash n = false := by simp [isBelow, hp, Ne.symm hm]
      rw [adopt, if_neg hm, hbelow, if_neg Bool.false_ne_true, List.append_nil]
  unfold place
  simp only [hp]
  rw [if_pos ⟨hne, (entryOf?_isSome table linked p).2 hmem⟩, linksOf_snoc, hroot, horphan]
  simp only [linksOf, Bool.false_eq_true, if_false, List.append_nil, List.map_map, Function.comp_def, hadopt]

theorem place_orphan {p : Int} (hp : n.parent = some p) (h : p = n.hash ∨ p ∉ table.map Node.hash) :
    place (linksOf table linked) n = linksOf table (linked ++ [n]) := by
  have hroot : n.isRoot = false := by rw [Node.isRoot, hp]; rfl
  have horphan : isOrphan table n = true := by
    rw [isOrphan, hp]
    exact decide_eq_true h
  have hentries : ∀ m ∈ table, (⟨m, (linked.filter (isBelow m.hash)).map Node.hash ++
      if isBelow m.hash n then [n.hash] else []⟩ : Entry) =
        ⟨m, (linked.filter (isBelow m.hash)).map Node.hash⟩ := by
    intro m hm
    have hbelow : isBelow m.hash n = false := by
      simp only [isBelow, hp, Option.some.injEq, decide_eq_false_iff_not]
      rintro ⟨rfl, hne⟩
      rcases h with heq | hnot
      · exact hne heq
      · exact hnot (List.mem_map_of_mem hm)
    rw [hbelow, if_neg Bool.false_ne_true, List.append_nil]
  unfold place
  simp only [hp]
  rw [if_neg, linksOf_snoc, List.map_congr_left hentries, hroot, horphan, if_neg Bool.false_ne_true,
    List.append_nil, if_pos rfl]
  · rfl
  · rw [entryOf?_isSome, not_and_or, not_not]
    exact h

end

/-- Linking one more node. -/
theorem place_linksOf (table linked : List Node) (n : Node) :
    place (linksOf table linked) n = linksOf table (linked ++ [n]) := by
  cases hp : n.parent with
  | none => exact place_root table linked hp
  | some p =>
    by_cases h : p = n.hash ∨ p ∉ table.map Node.hash
    · exact place_orphan table linked hp h
    · rw [not_or, not_not] at h
      exact place_child table linked hp h.1 h.2

theorem foldl_place (table rest : List Node) : ∀ linked : List Node,
    rest.foldl place (linksOf table linked) = linksOf table (linked ++ rest) := by
  induction rest with
  | nil => intro linked; rw [List.append_nil]; rfl
  | cons n rest ih =>
    intro linked
    rw [List.foldl_cons, place_linksOf, ih, List.append_assoc, List.singleton_append]

/-- The second pass links each node to its parent, in the order of the table. -/
theorem link_eq_linksOf (table : List Node) : link table = linksOf table table :=
  foldl_place table table []

theorem childrenOf_link {table : List Node} {h : Int} (hmem : h ∈ table.map Node.hash) :
    childrenOf (link table).entries h = (table.filter (isBelow h)).map Node.hash := by
  obtain ⟨e, he⟩ := Option.isSome_iff_exists.1 ((entryOf?_isSome table table h).2 hmem)
  rw [link_eq_linksOf, childrenOf, he]
  rw [entryOf?_linksOf] at he
  obtain ⟨n, hn, rfl⟩ := Option.map_eq_some_iff.1 he
  have hash : n.hash = h := by simpa using List.find?_some hn
  rw [hash]

theorem childrenOf_link_of_not_mem {table : List Node} {h : Int} (hmem : h ∉ table.map Node.hash) :
    childrenOf (link table).entries h = [] := by
  have hnone : entryOf? (linksOf table table).entries h = none := by
    rw [← Option.not_isSome_iff_eq_none, entryOf?_isSome]
    exact hmem
  rw [link_eq_linksOf, childrenOf, hnone]

/-- The children of a node are the nodes that name it as their parent. -/
theorem mem_childrenOf {table : List Node} {h c : Int} :
    c ∈ childrenOf (link table).entries h ↔
      h ∈ table.map Node.hash ∧ ∃ m ∈ table, m.hash = c ∧ m.parent = some h ∧ h ≠ c := by
  by_cases hmem : h ∈ table.map Node.hash
  · rw [childrenOf_link hmem, List.mem_map]
    simp only [List.mem_filter, isBelow, decide_eq_true_eq]
    constructor
    · rintro ⟨m, ⟨hm, hp, hne⟩, rfl⟩
      exact ⟨hmem, m, hm, rfl, hp, hne⟩
    · rintro ⟨-, m, hm, rfl, hp, hne⟩
      exact ⟨m, ⟨hm, hp, hne⟩, rfl⟩
  · rw [childrenOf_link_of_not_mem hmem]
    constructor
    · intro hc
      cases hc
    · rintro ⟨hin, -⟩
      exact absurd hin hmem

end ScriptTree.Forest
