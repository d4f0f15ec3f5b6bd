/-
The walk from the roots over the links of a table. It reaches exactly the nodes from which the links
to parents lead to a node without parent, each once, after its parent, and at the depth that is the
number of links. A node of the table from which no such node is reached has an orphan above it or is
one, or the way up from it runs into a circle.
-/
import ScriptTree.Proofs.Tree.Linking

namespace ScriptTree.Forest

/-! ## The way up -/

/-- From the node with this hash, `k` links lead up to a node without parent. -/
inductive Rooted (table : List Node) : Int → Nat → Prop
  | root {n : Node} : n ∈ table → n.parent = none → Rooted table n.hash 0
  | child {n : Node} {p : Int} {k : Nat} : n ∈ table → n.parent = some p → Rooted table p k →
      Rooted table n.hash (k + 1)

/-- The node with the first hash names the second as its parent. -/
def ParentStep (table : List Node) (h p : Int) : Prop :=
  ∃ n ∈ table, n.hash = h ∧ n.parent = some p

section

variable {table : List Node} (nodup : (table.map Node.hash).Nodup)

theorem Rooted.mem {h : Int} {k : Nat} (r : Rooted table h k) : h ∈ table.map Node.hash := by
  cases r with
  | root hn _ => exact List.mem_map_of_mem hn
  | child hn _ _ => exact List.mem_map_of_mem hn

include nodup

/-- A hash names one node. -/
theorem eq_of_hash {n m : Node} (hn : n ∈ table) (hm : m ∈ table) (h : n.hash = m.hash) : n = m :=
  List.inj_on_of_nodup_map nodup hn hm h

/-- The number of links is determined. -/
theorem Rooted.unique {h : Int} {k l : Nat} (r : Rooted table h k) (s : Rooted table h l) : k = l := by
  induction r generalizing l with
  | @root n hn hp =>
    generalize hh : n.hash = h at s
    cases s with
    | root _ _ => rfl
    | child hm hq _ =>
      rw [← eq_of_hash nodup hn hm hh, hp] at hq
      cases hq
  | @child n p k hn hp _ ih =>
    generalize hh : n.hash = h at s
    cases s with
    | root hm hq =>
      rw [← eq_of_hash nodup hn hm hh, hp] at hq
      cases hq
    | child hm hq s =>
      rw [← eq_of_hash nodup hn hm hh, hp] at hq
      cases hq
      rw [ih s]

/-- The parent of a node that belongs to a root belongs to it too. -/
theorem Rooted.parent {n : Node} {p : Int} {k : Nat} (r : Rooted table n.hash k) (hn : n ∈ table)
    (hp : n.parent = some p) : ∃ l, Rooted table p l := by
  generalize hh : n.hash = h at r
  cases r with
  | root hm hq =>
    rw [← eq_of_hash nodup hn hm hh, hp] at hq
    cases hq
  | child hm hq r =>
    rw [← eq_of_hash nodup hn hm hh, hp] at hq
    cases hq
    exact ⟨_, r⟩

/-- The way up to a root does not begin with a link to itself. -/
theorem Rooted.parent_ne {n : Node} {p : Int} {k : Nat} (hn : n ∈ table) (hp : n.parent = some p)
    (r : Rooted table p k) : p ≠ n.hash := by
  rintro rfl
  have := r.unique nodup (.child hn hp r)
  omega

/-- A node has one parent. -/
theorem childrenOf_unique {c h h' : Int} (hc : c ∈ childrenOf (link table).entries h)
    (hc' : c ∈ childrenOf (link table).entries h') : h = h' := by
  obtain ⟨-, m, hm, hash, hp, -⟩ := mem_childrenOf.1 hc
  obtain ⟨-, m', hm', hash', hp', -⟩ := mem_childrenOf.1 hc'
  rw [eq_of_hash nodup hm hm' (hash.trans hash'.symm), hp'] at hp
  exact (Option.some.inj hp).symm

end

/-! ## The walk -/

namespace Walk

variable {table : List Node} (nodup : (table.map Node.hash).Nodup)

/-- Nodes reached and nodes on the stack. -/
def all (w : Walk) : List (Int × Nat) :=
  w.reached ++ w.stack

/-- What holds all along the walk. -/
structure Inv (table : List Node) (w : Walk) : Prop where
  nodup : (w.reached.map Prod.fst).Nodup
  rooted : ∀ a ∈ w.all, Rooted table a.1 a.2
  roots : ∀ n ∈ table, n.parent = none → (n.hash, 0) ∈ w.all
  closed : ∀ a ∈ w.reached, ∀ c ∈ childrenOf (link table).entries a.1, (c, a.2 + 1) ∈ w.all
  parents : ∀ a ∈ w.all, ∀ h, a.1 ∈ childrenOf (link table).entries h → h ∈ w.reached.map Prod.fst
  order : w.reached.Pairwise fun a b => a.1 ∉ childrenOf (link table).entries b.1

theorem has_iff {w : Walk} {h : Int} : w.has h = true ↔ h ∈ w.reached.map Prod.fst := by
  unfold has
  rw [List.any_eq_true, List.mem_map]
  simp only [beq_iff_eq]

include nodup in
theorem start_inv : Inv table (start (link table).roots) := by
  have hroots : (link table).roots = (table.filter Node.isRoot).map Node.hash := by
    rw [link_eq_linksOf]; rfl
  have hall : ∀ a, a ∈ (start (link table).roots).all ↔
      ∃ n ∈ table, n.parent = none ∧ a = (n.hash, 0) := by
    intro a
    simp only [all, start, hroots, List.nil_append, List.map_map, List.mem_map, List.mem_filter,
      Node.isRoot, Option.isNone_iff_eq_none, Function.comp_apply, and_assoc, eq_comm (a := a)]
  refine
    { nodup := List.nodup_nil, rooted := ?_, roots := ?_, closed := ?_, parents := ?_
      order := List.Pairwise.nil }
  · intro a ha
    obtain ⟨n, hn, hp, rfl⟩ := (hall a).1 ha
    exact .root hn hp
  · intro n hn hp
    exact (hall _).2 ⟨n, hn, hp, rfl⟩
  · intro a ha
    cases ha
  · intro a ha h hc
    obtain ⟨n, hn, hp, rfl⟩ := (hall a).1 ha
    obtain ⟨-, m, hm, hash, hq, -⟩ := mem_childrenOf.1 hc
    rw [eq_of_hash nodup hm hn hash, hp] at hq
    cases hq

include nodup in
/-- A node that was reached before is passed over: it was reached at the same depth. -/
theorem skip_inv {reached stack : List (Int × Nat)} {h : Int} {d : Nat}
    (inv : Inv table ⟨reached, (h, d) :: stack⟩) (hold : h ∈ reached.map Prod.fst) :
    Inv table ⟨reached, stack⟩ := by
  have hr : Rooted table h d := inv.rooted (h, d) (List.mem_append_right _ List.mem_cons_self)
  have hin : (h, d) ∈ reached := by
    obtain ⟨⟨h', d'⟩, ha, rfl⟩ := List.mem_map.1 hold
    rw [hr.unique nodup (inv.rooted _ (List.mem_append_left _ ha))]
    exact ha
  have hall : ∀ a, a ∈ all ⟨reached, (h, d) :: stack⟩ ↔ a ∈ all ⟨reached, stack⟩ := by
    intro a
    simp only [all, List.mem_append, List.mem_cons]
    constructor
    · rintro (ha | rfl | ha)
      · exact .inl ha
      · exact .inl hin
      · exact .inr ha
    · rintro (ha | ha)
      · exact .inl ha
      · exact .inr (.inr ha)
  exact
    { nodup := inv.nodup
      rooted := fun a ha => inv.rooted a ((hall a).2 ha)
      roots := fun n hn hp => (hall _).1 (inv.roots n hn hp)
      closed := fun a ha c hc => (hall _).1 (inv.closed a ha c hc)
      parents := fun a ha => inv.parents a ((hall a).2 ha)
      order := inv.order }

include nodup in
/-- A node that was not reached before is reached, and its children come to the stack. -/
theorem reach_inv {reached stack : List (Int × Nat)} {h : Int} {d : Nat}
    (inv : Inv table ⟨reached, (h, d) :: stack⟩) (hnew : h ∉ reached.map Prod.fst) :
    Inv table
      ⟨reached ++ [(h, d)], (childrenOf (link table).entries h).map (·, d + 1) ++ stack⟩ := by
  have hr : Rooted table h d := inv.rooted (h, d) (List.mem_append_right _ List.mem_cons_self)
  have hmap : (reached ++ [(h, d)]).map Prod.fst = reached.map Prod.fst ++ [h] := List.map_append
  have hall : ∀ a,
      a ∈ all ⟨reached ++ [(h, d)], (childrenOf (link table).entries h).map (·, d + 1) ++ stack⟩ ↔
        a ∈ all ⟨reached, (h, d) :: stack⟩ ∨
          ∃ c ∈ childrenOf (link table).entries h, (c, d + 1) = a := by
    intro a
    simp only [all, List.mem_append, List.mem_map, List.mem_cons, List.not_mem_nil, or_false,
      or_assoc]
    rw [or_comm (a := a ∈ stack)]
  refine { nodup := ?_, rooted := ?_, roots := ?_, closed := ?_, parents := ?_, order := ?_ }
  · have hconcat := inv.nodup.concat hnew
    rw [List.concat_eq_append] at hconcat
    rw [hmap]
    exact hconcat
  · intro a ha
    rcases (hall a).1 ha with ha | ⟨c, hc, rfl⟩
    · exact inv.rooted a ha
    · obtain ⟨-, m, hm, rfl, hp, -⟩ := mem_childrenOf.1 hc
      exact .child hm hp hr
  · intro n hn hp
    exact (hall _).2 (.inl (inv.roots n hn hp))
  · intro a ha c hc
    rcases List.mem_append.1 ha with ha | ha
    · exact (hall _).2 (.inl (inv.closed a ha c hc))
    · obtain rfl := List.mem_singleton.1 ha
      exact (hall _).2 (.inr ⟨c, hc, rfl⟩)
  · intro a ha h' hc
    rw [hmap, List.mem_append, List.mem_singleton]
    rcases (hall a).1 ha with ha | ⟨c, hc', rfl⟩
    · exact .inl (inv.parents a ha h' hc)
    · exact .inr (childrenOf_unique nodup hc hc')
  · refine List.pairwise_append.2 ⟨inv.order, List.pairwise_singleton _ _, fun a ha b hb hc => ?_⟩
    obtain rfl := List.mem_singleton.1 hb
    -- a child that was reached before has its parent before it
    exact hnew (inv.parents a (List.mem_append_left _ ha) h hc)

include nodup in
theorem step_inv {w : Walk} (inv : Inv table w) : Inv table (w.step (link table).entries) := by
  obtain ⟨reached, stack⟩ := w
  cases stack with
  | nil => exact inv
  | cons top stack =>
    obtain ⟨h, d⟩ := top
    unfold step
    dsimp only
    by_cases hold : has ⟨reached, (h, d) :: stack⟩ h = true
    · rw [if_pos hold]
      exact skip_inv nodup inv (has_iff.1 hold)
    · rw [if_neg hold]
      exact reach_inv nodup inv fun hm => hold (has_iff.2 hm)

include nodup in
theorem run_inv {w : Walk} (inv : Inv table w) : Inv table (w.run (link table).entries) := by
  induction w using run.induct (link table).entries with
  | case1 w h =>
    unfold run
    rw [dif_pos h]
    exact inv
  | case2 w h _ ih =>
    unfold run
    rw [dif_neg h]
    exact ih (step_inv nodup inv)

theorem run_stack (entries : List Entry) (w : Walk) : (w.run entries).stack = [] := by
  induction w using run.induct entries with
  | case1 w h =>
    unfold run
    rw [dif_pos h]
    exact h
  | case2 w h _ ih =>
    unfold run
    rw [dif_neg h]
    exact ih

/-- The walk over all links of a table, when it is over. -/
def full (table : List Node) : Walk :=
  (start (link table).roots).run (link table).entries

include nodup in
theorem full_inv : Inv table (full table) :=
  run_inv nodup (start_inv nodup)

theorem all_full : (full table).all = (full table).reached := by
  unfold all full
  rw [run_stack, List.append_nil]

include nodup in
/-- The walk is complete: it reaches all nodes that belong to a root, and no others. -/
theorem mem_reached_iff {h : Int} {k : Nat} : (h, k) ∈ (full table).reached ↔ Rooted table h k := by
  have inv := full_inv nodup
  rw [← all_full]
  constructor
  · exact inv.rooted (h, k)
  · intro r
    induction r with
    | root hn hp => exact inv.roots _ hn hp
    | @child n p k hn hp r ih =>
      rw [all_full] at ih
      exact inv.closed _ ih _ (mem_childrenOf.2 ⟨r.mem, n, hn, rfl, hp, r.parent_ne nodup hn hp⟩)

end Walk

/-! ## Nodes that are not reached -/

/-- The way up from a node that belongs to no root ends at an orphan or runs into a circle. `seen` is
what lies on the way so far. -/
theorem leads_up {table : List Node} (seen : Finset Int) {n : Node} (hn : n ∈ table)
    (hfree : n.hash ∉ seen) (hseen : ∀ s ∈ seen, Relation.TransGen (ParentStep table) s n.hash)
    (hroot : ∀ k, ¬ Rooted table n.hash k) :
    (∃ o ∈ table, isOrphan table o = true ∧
        Relation.ReflTransGen (ParentStep table) n.hash o.hash) ∨
      ∃ c, Relation.ReflTransGen (ParentStep table) n.hash c ∧
        Relation.TransGen (ParentStep table) c c := by
  -- each node on the way takes one hash of the table that was not used before
  induction hk : ((table.map Node.hash).toFinset \ seen).card using Nat.strong_induction_on
    generalizing seen n with
  | _ k ih =>
    cases hp : n.parent with
    | none => exact absurd (.root hn hp) (hroot 0)
    | some p =>
      have hstep : ParentStep table n.hash p := ⟨n, hn, rfl, hp⟩
      by_cases horphan : isOrphan table n = true
      · exact .inl ⟨n, hn, horphan, .refl⟩
      simp only [isOrphan, hp, Option.any_some, decide_eq_true_eq, not_or, not_not] at horphan
      obtain ⟨hne, hmem⟩ := horphan
      obtain ⟨m, hm, rfl⟩ := List.mem_map.1 hmem
      by_cases hagain : m.hash ∈ seen
      · exact .inr ⟨m.hash, .single hstep, (hseen _ hagain).tail hstep⟩
      have hless : ((table.map Node.hash).toFinset \ insert n.hash seen).card < k := by
        rw [← hk, Finset.sdiff_insert]
        refine Finset.card_erase_lt_of_mem (Finset.mem_sdiff.2 ⟨?_, hfree⟩)
        exact List.mem_toFinset.2 (List.mem_map_of_mem hn)
      have hseen' : ∀ s ∈ insert n.hash seen, Relation.TransGen (ParentStep table) s m.hash := by
        intro s hs
        rcases Finset.mem_insert.1 hs with rfl | hs
        · exact .single hstep
        · exact (hseen s hs).tail hstep
      have hfree' : m.hash ∉ insert n.hash seen := by
        rw [Finset.mem_insert, not_or]
        exact ⟨hne, hagain⟩
      rcases ih _ hless _ hm hfree' hseen' (fun k r => hroot _ (.child hn hp r)) rfl with
        ⟨o, ho, horphan, hway⟩ | ⟨c, hway, hcircle⟩
      · exact .inl ⟨o, ho, horphan, .head hstep hway⟩
      · exact .inr ⟨c, .head hstep hway, hcircle⟩

end ScriptTree.Forest
