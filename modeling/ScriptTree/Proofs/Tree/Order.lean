/-
The order of the list that a forest is built from. For nodes with distinct hashes it decides only how
siblings, roots and orphans are ordered: any other order of the list gives the same nodes at the same
places (`SameShape`), one that keeps the order of siblings gives the same forest, and a list that names
the nodes of linked trees from the top gives these trees back in its own order (`build_order`).
-/
import ScriptTree.Proofs.Tree.Layout

namespace ScriptTree.Forest

open ScriptTree.Tree (preorder preorderAll levelled levelledAll Linked)

/-! ## Forests up to the order of siblings -/

/-- In the forest, the node with the first hash is a child of the one with the second. -/
def IsChild (f : Forest) (h p : Int) : Prop :=
  ∃ t, f.find? p = some t ∧ h ∈ t.children.map Tree.hash

/-- Two forests have the same nodes at the same places, but for the order of siblings. -/
structure SameShape (f f' : Forest) : Prop where
  keys : (f.nodes.map Prod.fst).Perm (f'.nodes.map Prod.fst)
  value : ∀ h t t', f.find? h = some t → f'.find? h = some t' → t.value = t'.value
  depth : ∀ h t t', f.find? h = some t → f'.find? h = some t' → t.depth = t'.depth
  children : ∀ h t t', f.find? h = some t → f'.find? h = some t' →
    (t.children.map Tree.hash).Perm (t'.children.map Tree.hash)
  parent : ∀ h p, f.IsChild h p ↔ f'.IsChild h p
  roots : (f.roots.map Tree.hash).Perm (f'.roots.map Tree.hash)
  orphans : f.orphans.Perm f'.orphans

/-- The order of the nodes that have a parent in common, or none, is the same. -/
def KeepsSiblings (ns ns' : List Node) : Prop :=
  ∀ p : Option Int, (ns.filter fun n => n.parent = p) = ns'.filter fun n => n.parent = p

section

variable {table table' : List Node}

theorem Rooted.of_subset (hsub : table ⊆ table') {h : Int} {k : Nat} (r : Rooted table h k) :
    Rooted table' h k := by
  induction r with
  | root hn hp => exact .root (hsub hn) hp
  | child hn hp _ ih => exact .child (hsub hn) hp ih

theorem isOrphan_of_perm (perm : table.Perm table') : isOrphan table = isOrphan table' := by
  funext n
  unfold isOrphan
  simp only [(perm.map Node.hash).mem_iff]

theorem Describes.children_perm {f f' : Forest} (h : Describes table f) (h' : Describes table' f')
    (perm : table.Perm table') {a : Int} {t t' : Tree} (ht : (a, t) ∈ f.nodes) (ht' : (a, t') ∈ f'.nodes) :
    (t.children.map Tree.hash).Perm (t'.children.map Tree.hash) := by
  have hvalues : (t.children.map Tree.value).Perm (t'.children.map Tree.value) := by
    rw [h.children a t ht, h'.children a t' ht']
    exact perm.filter _
  have hhashes := hvalues.map Node.hash
  rw [List.map_map, List.map_map] at hhashes
  exact hhashes

/-- The order of the table decides only the order of siblings. -/
theorem Describes.sameShape {f f' : Forest} (nodup : (table.map Node.hash).Nodup) (h : Describes table f)
    (h' : Describes table' f') (perm : table.Perm table') : SameShape f f' := by
  have hkeys : ∀ a, a ∈ f.nodes.map Prod.fst ↔ a ∈ f'.nodes.map Prod.fst := by
    intro a
    rw [h.indexed, h'.indexed]
    exact ⟨fun ⟨k, r⟩ => ⟨k, r.of_subset perm.subset⟩, fun ⟨k, r⟩ => ⟨k, r.of_subset perm.symm.subset⟩⟩
  have hparent : ∀ {table table' : List Node} {f f' : Forest}, Describes table f → Describes table' f' →
      table.Perm table' → (∀ a, a ∈ f.nodes.map Prod.fst ↔ a ∈ f'.nodes.map Prod.fst) →
      ∀ a p, f.IsChild a p → f'.IsChild a p := by
    rintro table table' f f' h h' perm hkeys a p ⟨t, hfind, ha⟩
    have ht := mem_of_lookup hfind
    obtain ⟨⟨p, t'⟩, ht', rfl⟩ := List.mem_map.1 ((hkeys p).1 (List.mem_map_of_mem ht))
    exact ⟨t', lookup_of_mem h'.keys ht', (h.children_perm h' perm ht ht').subset ha⟩
  refine
    { keys := (List.perm_ext_iff_of_nodup h.keys h'.keys).2 hkeys, value := ?_, depth := ?_
      children := fun a t t' ht ht' => h.children_perm h' perm (mem_of_lookup ht) (mem_of_lookup ht')
      parent := fun a p => ⟨hparent h h' perm hkeys a p,
        hparent h' h perm.symm (fun b => (hkeys b).symm) a p⟩
      roots := ?_, orphans := ?_ }
  · intro a t t' hfind hfind'
    have ht := mem_of_lookup hfind
    have ht' := mem_of_lookup hfind'
    refine eq_of_hash nodup (h.value a t ht) (perm.symm.subset (h'.value a t' ht')) ?_
    exact (h.hash a t ht).trans (h'.hash a t' ht').symm
  · intro a t t' hfind hfind'
    have hdepth := h'.depth a t' (mem_of_lookup hfind')
    exact (h.depth a t (mem_of_lookup hfind)).unique nodup (hdepth.of_subset perm.symm.subset)
  · have hvalues : (f.roots.map Tree.value).Perm (f'.roots.map Tree.value) := by
      rw [h.roots, h'.roots]
      exact perm.filter _
    have hhashes := hvalues.map Node.hash
    rw [List.map_map, List.map_map] at hhashes
    exact hhashes
  · rw [h.orphans, h'.orphans, isOrphan_of_perm perm]
    exact (perm.filter _).map Node.hash

end

/-! ## Lists from the top -/

theorem preorderAll_levelledAll : ∀ (ts : List Tree) (d : Nat),
    (preorderAll (levelledAll d ts)).map Tree.value = ((preorderAll ts).map Tree.value).map Node.capped := by
  refine Tree.inductionAll (P := fun t => ∀ d,
    (preorder (levelled d t)).map Tree.value = ((preorder t).map Tree.value).map Node.capped) ?_ ?_ ?_
  · intro n d₀ ts ih d
    rw [levelled, preorder, preorder, List.map_cons, List.map_cons, List.map_cons, ih (d + 1)]
    rfl
  · exact fun d => rfl
  · intro t ts ht ih d
    rw [levelledAll, preorderAll, preorderAll, List.map_append, List.map_append, List.map_append, ht d, ih d]

/-- For nodes with distinct hashes, the order of the list decides only the order of siblings, of roots
and of orphans. A list that names the nodes of linked trees from the top comes back in its order. -/
theorem build_order {ns : List Node} (nodup : (ns.map Node.hash).Nodup) :
    (∀ ns', ns.Perm ns' → SameShape (build ns) (build ns') ∧
      (KeepsSiblings ns ns' → (build ns').roots = (build ns).roots ∧ (build ns').nodes = (build ns).nodes)) ∧
    ∀ ts, Linked ts → (Tree.flatten ts).map Tree.value = ns →
      (Tree.flatten (build ns).roots).map Tree.value = ns.map Node.capped := by
  refine ⟨fun ns' perm => ⟨?_, fun hkeeps => build_eq_of_lays ?_⟩, fun ts hlinked hflat => ?_⟩
  · have nodup' : (ns'.map Node.hash).Nodup := (perm.map Node.hash).nodup_iff.1 nodup
    refine (describes_tableOf ns).sameShape (tableOf_nodup ns) (describes_tableOf ns') ?_
    rw [tableOf_of_nodup nodup, tableOf_of_nodup nodup']
    exact perm.map Node.capped
  · have nodup' : (ns'.map Node.hash).Nodup := (perm.map Node.hash).nodup_iff.1 nodup
    have hfilter : ∀ p : Option Int, ((tableOf ns).filter fun n => n.parent = p) =
        (tableOf ns').filter fun n => n.parent = p := by
      intro p
      rw [tableOf_of_nodup nodup, tableOf_of_nodup nodup', List.filter_map, List.filter_map]
      exact congrArg (List.map Node.capped) (hkeeps p)
    have hlays := build_lays ns
    exact ⟨hlays.tops.trans (hfilter none), fun s hs => (hlays.children s hs).trans (hfilter _)⟩
  · subst hflat
    rw [Tree.flatten_eq_preorderAll] at nodup ⊢
    rw [Tree.flatten_eq_preorderAll, build_roots_eq (lays_of_linked hlinked nodup), preorderAll_levelledAll]

/-- A child that comes before its parent, with a second root behind them. -/
theorem build_order_child_first :
    let node (hash : Int) (parent : Option Int) : Node :=
      { hash, parent, kind := "Ast", text := "x", extent := "x", startLine := 1, startColumn := 1
        endLine := 1, endColumn := 2, textLength := 1, properties := [], id := "" }
    let ns := [node 7 none, node 8 (some 7), node 9 none]
    let ns' := [node 8 (some 7), node 7 none, node 9 none]
    let ts : List Tree := [.node (node 7 none) 0 [.node (node 8 (some 7)) 1 []], .node (node 9 none) 0 []]
    (ns.map Node.hash).Nodup ∧ ns.Perm ns' ∧ KeepsSiblings ns ns' ∧ Linked ts ∧
      (Tree.flatten ts).map Tree.value = ns ∧ SameShape (build ns) (build ns') ∧
      (build ns').roots = (build ns).roots ∧
      (Tree.flatten (build ns).roots).map Tree.value = ns.map Node.capped := by
  intro node ns ns' ts
  have hnodup : (ns.map Node.hash).Nodup := by decide
  have hperm : ns.Perm ns' := List.Perm.swap _ _ _
  have hkeeps : KeepsSiblings ns ns' := by
    intro p
    by_cases hp : p = none <;> simp [ns, ns', node, List.filter_cons, hp, eq_comm (a := none)]
  have hlinked : Linked ts := by
    constructor <;> simp [ts, node, preorderAll, preorder, Tree.value, Tree.children, Tree.hash]
  have hflat : (Tree.flatten ts).map Tree.value = ns := by
    rw [Tree.flatten_eq_preorderAll]
    rfl
  obtain ⟨hreordered, hgiven⟩ := build_order hnodup
  obtain ⟨hshape, hsame⟩ := hreordered ns' hperm
  exact ⟨hnodup, hperm, hkeeps, hlinked, hflat, hshape, (hsame hkeeps).1, hgiven ts hlinked hflat⟩

end ScriptTree.Forest
