/-
Revealing the nodes of a forest level by level. The nodes are those of the levels that have children, whatever
comes of revealing them (`Passed`), and the levels come by depth, each in the order from the top. So every node
with children is revealed once and after its parent, and what a failure takes away is its count and its pause
(`build_expansion`).
-/
import ScriptTree.Proofs.Tree.Traversal

namespace ScriptTree

theorem Tree.hasChildren_of_mem {t c : Tree} (h : c ∈ t.children) : t.hasChildren := by
  rw [hasChildren, List.isEmpty_eq_false_iff_exists_mem.2 ⟨c, h⟩]
  rfl

namespace Tree.Graded

variable {d : Nat} {ts : List Tree}

theorem le_depth_of_level (h : Graded d ts) {s : Tree} (hs : s ∈ (levelsBelow ts).flatten) : d ≤ s.depth :=
  h.le_depth ((levelsBelow_flatten ts).mem_iff.1 hs)

/-- The levels come by depth. -/
theorem levelsBelow_sorted (h : Graded d ts) :
    (levelsBelow ts).flatten.Pairwise fun s t => s.depth ≤ t.depth := by
  induction ts using levelsBelow.induct generalizing d with
  | case1 =>
    rw [levelsBelow]
    exact .nil
  | case2 t ts ih =>
    rw [levelsBelow, List.flatten_cons, List.pairwise_append]
    refine ⟨List.pairwise_of_forall_mem_list fun s hs u hu => ?_, ih h.next, fun s hs u hu => ?_⟩
    · rw [h.tops s hs, h.tops u hu]
    · rw [h.tops s hs]
      exact (Nat.le_succ d).trans (h.next.le_depth_of_level hu)

/-- The nodes of a depth come in the order from the top. -/
theorem levelsBelow_filter (h : Graded d ts) (n : Nat) :
    (levelsBelow ts).flatten.filter (·.depth = n) = (preorderAll ts).filter (·.depth = n) := by
  induction ts using levelsBelow.induct generalizing d with
  | case1 =>
    rw [levelsBelow, preorderAll]
    rfl
  | case2 t ts ih =>
    rw [levelsBelow, List.flatten_cons, List.filter_append]
    by_cases hn : n = d
    · subst hn
      have htops : (t :: ts).filter (·.depth = n) = t :: ts :=
        List.filter_eq_self.2 fun s hs => decide_eq_true (h.tops s hs)
      have hdeeper : (levelsBelow (nextLevel (t :: ts))).flatten.filter (·.depth = n) = [] :=
        List.filter_eq_nil_iff.2 fun s hs hdepth => by
          have := h.next.le_depth_of_level hs
          have := of_decide_eq_true hdepth
          omega
      rw [htops, hdeeper, List.append_nil, h.filter_tops]
    · have htops : (t :: ts).filter (·.depth = n) = [] :=
        List.filter_eq_nil_iff.2 fun s hs hdepth => hn ((of_decide_eq_true hdepth).symm.trans (h.tops s hs))
      rw [htops, List.nil_append, ih h.next, ← h.filter_below hn]

end Tree.Graded

namespace Forest

open ScriptTree.Tree (preorderAll levelsBelow)

/-! ## What is revealed -/

/-- A world in which it is recorded which nodes are revealed, whether that succeeded, and which pauses are
made. -/
structure Watched (ω : Type) where
  rest : ω
  calls : List (Tree × Bool)
  pauses : List Binary64

/-- The nodes revealed, in order, whether or not that succeeded. -/
def Watched.revealed {ω : Type} (w : Watched ω) : List Tree :=
  w.calls.map Prod.fst

/-- Reveals in the same way and records it. -/
def Revealer.watched {ε ω : Type} (r : Revealer ε ω) : Revealer ε (Watched ω) where
  reveal t w :=
    let (outcome, rest) := r.reveal t w.rest
    (outcome, { w with rest, calls := w.calls ++ [(t, outcome.isOk)] })
  pause delay w := { w with rest := r.pause delay w.rest, pauses := w.pauses ++ [delay] }

variable {ε ω : Type} {r : Revealer ε ω} {delay : Binary64} {ts us : List Tree} {made more : List (Tree × Bool)}
  {a b c : Nat × Watched ω}

namespace Revealer

variable {t : Tree} {rest : ω} (ht : t.hasChildren)

include ht

theorem next_failed {why : ε} (hreveal : r.reveal t a.2.rest = (.error why, rest)) :
    r.watched.next delay a t = (a.1, { rest, calls := a.2.calls ++ [(t, false)], pauses := a.2.pauses }) := by
  rw [next, if_pos ht]
  simp only [watched, hreveal]
  rfl

theorem next_revealed {u : Unit} (hreveal : r.reveal t a.2.rest = (.ok u, rest)) :
    r.watched.next delay a t = (a.1 + 1, {
      rest := if delay.isPositive then r.pause delay rest else rest
      calls := a.2.calls ++ [(t, true)]
      pauses := a.2.pauses ++ if delay.isPositive then [delay] else [] }) := by
  rw [next, if_pos ht]
  simp only [watched, hreveal]
  split
  · rfl
  · rw [List.append_nil]
    rfl

end Revealer

/-- The calls made on the way through some trees, with what was done before and after it. -/
structure Passed (r : Revealer ε ω) (delay : Binary64) (ts : List Tree) (made : List (Tree × Bool))
    (a b : Nat × Watched ω) : Prop where
  nodes : made.map Prod.fst = ts.filter Tree.hasChildren
  outcomes : ∀ call ∈ made, ∃ rest, (r.reveal call.1 rest).1.isOk = call.2
  calls : b.2.calls = a.2.calls ++ made
  count : b.1 = a.1 + made.countP Prod.snd
  pauses : b.2.pauses =
    a.2.pauses ++ if delay.isPositive then List.replicate (made.countP Prod.snd) delay else []

namespace Passed

theorem refl : Passed r delay [] [] a a where
  nodes := rfl
  outcomes _ h := absurd h List.not_mem_nil
  calls := (List.append_nil _).symm
  count := rfl
  pauses := by rw [List.countP_nil, List.replicate_zero, ite_self, List.append_nil]

theorem trans (h : Passed r delay ts made a b) (k : Passed r delay us more b c) :
    Passed r delay (ts ++ us) (made ++ more) a c where
  nodes := by rw [List.map_append, h.nodes, k.nodes, List.filter_append]
  outcomes call hcall := (List.mem_append.1 hcall).elim (h.outcomes call) (k.outcomes call)
  calls := by rw [k.calls, h.calls, List.append_assoc]
  count := by rw [k.count, h.count, List.countP_append, Nat.add_assoc]
  pauses := by
    rw [k.pauses, h.pauses, List.append_assoc, List.countP_append]
    split
    · rw [List.replicate_append_replicate]
    · rfl

/-- A tree without children is left alone. -/
theorem leaf {t : Tree} (ht : ¬ t.hasChildren) : Passed r delay [t] [] a (r.watched.next delay a t) where
  nodes := (List.filter_eq_nil_iff.2 fun _ hs => List.mem_singleton.1 hs ▸ ht).symm
  outcomes _ h := absurd h List.not_mem_nil
  calls := by rw [Revealer.next, if_neg ht, List.append_nil]
  count := by
    rw [Revealer.next, if_neg ht]
    rfl
  pauses := by rw [Revealer.next, if_neg ht, List.countP_nil, List.replicate_zero, ite_self, List.append_nil]

/-- Any other tree is revealed, whatever comes of it. A pause follows a success only. -/
theorem inner {t : Tree} (ht : t.hasChildren) :
    ∃ outcome, Passed r delay [t] [(t, outcome)] a (r.watched.next delay a t) := by
  have hnodes : [t] = [t].filter Tree.hasChildren :=
    (List.filter_eq_self.2 fun _ hs => List.mem_singleton.1 hs ▸ ht).symm
  rcases hreveal : r.reveal t a.2.rest with ⟨_ | _, rest⟩
  · rw [Revealer.next_failed ht hreveal]
    exact ⟨false, {
      nodes := hnodes
      outcomes := fun call hcall => List.mem_singleton.1 hcall ▸ ⟨a.2.rest, by rw [hreveal]; rfl⟩
      calls := rfl
      count := rfl
      pauses := (refl (r := r)).pauses }⟩
  · rw [Revealer.next_revealed ht hreveal]
    exact ⟨true, {
      nodes := hnodes
      outcomes := fun call hcall => List.mem_singleton.1 hcall ▸ ⟨a.2.rest, by rw [hreveal]; rfl⟩
      calls := rfl
      count := rfl
      pauses := rfl }⟩

/-- If it depends on the tree alone whether it can be revealed, the successes are those of the trees that
can. -/
theorem successes (h : Passed r delay ts made a b) {p : Tree → Bool}
    (hp : ∀ t rest, (r.reveal t rest).1.isOk = p t) :
    made.countP Prod.snd = ts.countP fun t => t.hasChildren && p t := by
  have hcalled : ∀ call ∈ made, call.2 = p call.1 := fun call hcall => by
    obtain ⟨rest, hrest⟩ := h.outcomes call hcall
    rw [← hrest, hp]
  calc made.countP Prod.snd = made.countP (p ∘ Prod.fst) :=
        List.countP_congr fun call hcall => by rw [hcalled call hcall, Function.comp_apply]
    _ = (ts.filter Tree.hasChildren).countP p := by rw [← List.countP_map, h.nodes]
    _ = ts.countP fun t => t.hasChildren && p t := by
        rw [List.countP_filter]
        exact List.countP_congr fun t _ => by rw [Bool.and_comm]

end Passed

theorem Revealer.passed_foldl (r : Revealer ε ω) (delay : Binary64) (ts : List Tree) :
    ∀ a, ∃ made, Passed r delay ts made a (ts.foldl (r.watched.next delay) a) := by
  induction ts with
  | nil => exact fun a => ⟨[], .refl⟩
  | cons t ts ih =>
    intro a
    obtain ⟨made, hmade⟩ := ih (r.watched.next delay a t)
    by_cases ht : t.hasChildren
    · obtain ⟨outcome, hfirst⟩ := Passed.inner ht
      exact ⟨_, hfirst.trans hmade⟩
    · exact ⟨_, (Passed.leaf ht).trans hmade⟩

/-- Recording leaves the count and the world as they would be without it. -/
theorem Revealer.foldl_watched (r : Revealer ε ω) (delay : Binary64) (ts : List Tree) (a : Nat × Watched ω) :
    Prod.map id Watched.rest (ts.foldl (r.watched.next delay) a) =
      ts.foldl (r.next delay) (Prod.map id Watched.rest a) := by
  refine (List.foldl_hom _ fun a t => ?_).symm
  by_cases ht : t.hasChildren
  · rcases hreveal : r.reveal t a.2.rest with ⟨_ | _, rest⟩
    · rw [next_failed ht hreveal, next, if_pos ht]
      simp only [Prod.map, id, hreveal]
    · rw [next_revealed ht hreveal, next, if_pos ht]
      simp only [Prod.map, id, hreveal]
  · rw [next, next, if_neg ht, if_neg ht]

/-! ## The whole forest -/

/-- A tree nearer to the root than another comes before it, if the trees come by depth. -/
theorem mem_before {before after : List Tree} {s t : Tree}
    (hsorted : (before ++ t :: after).Pairwise fun s t => s.depth ≤ t.depth) (hs : s ∈ before ++ t :: after)
    (hless : s.depth < t.depth) : s ∈ before := by
  rw [List.pairwise_append, List.pairwise_cons] at hsorted
  rw [List.mem_append, List.mem_cons] at hs
  rcases hs with hbefore | rfl | hafter
  · exact hbefore
  · exact absurd hless (Nat.lt_irrefl _)
  · exact absurd (hsorted.2.1.1 s hafter) (Nat.not_le_of_lt hless)

/-- What revealing the forest of some nodes comes to. -/
structure Expansion (ns : List Node) (r : Revealer ε ω) (delay : Binary64) (out : Nat × Watched ω) : Prop where
  /-- The nodes with children are revealed, and no others. -/
  complete : ∀ t, t ∈ out.2.revealed ↔ t ∈ Tree.flatten (build ns).roots ∧ t.hasChildren
  /-- No node is revealed twice. -/
  once : (out.2.revealed.map Tree.hash).Nodup
  /-- Nodes nearer to the root come first. -/
  sorted : out.2.revealed.Pairwise fun s t => s.depth ≤ t.depth
  /-- The nodes of a depth come in the order from the top. -/
  ordered : ∀ d, out.2.revealed.filter (·.depth = d) =
    (Tree.flatten (build ns).roots).filter fun t => t.hasChildren ∧ t.depth = d
  /-- A node comes after its parent. -/
  parents : ∀ before t after, out.2.revealed = before ++ t :: after →
    ∀ s ∈ Tree.flatten (build ns).roots, t ∈ s.children → s ∈ before
  /-- A success is what is counted. -/
  count : out.1 = out.2.calls.countP Prod.snd
  /-- A pause follows a success and nothing else. -/
  pauses : out.2.pauses = if delay.isPositive then List.replicate out.1 delay else []
  /-- If it depends on the node alone whether it can be revealed, the nodes that can be are counted. -/
  settled : ∀ p : Tree → Bool, (∀ t rest, (r.reveal t rest).1.isOk = p t) →
    out.1 = (Tree.flatten (build ns).roots).countP fun t => t.hasChildren && p t

theorem expand_eq_foldl (ns : List Node) (r : Revealer ε ω) (delay : Binary64) (rest : ω) :
    (build ns).expand r delay rest =
      (levelsBelow (build ns).roots).flatten.foldl (r.next delay) (0, rest) := by
  rw [expand, ← List.foldl_flatten, levels_eq_levelsBelow]

/-- Which nodes are revealed, and in which order, does not depend on what comes of it. -/
theorem expand_revealed (ns : List Node) (r : Revealer ε ω) (delay : Binary64) (rest : ω) :
    ((build ns).expand r.watched delay ⟨rest, [], []⟩).2.revealed =
      (levelsBelow (build ns).roots).flatten.filter Tree.hasChildren := by
  obtain ⟨made, hmade⟩ := r.passed_foldl delay (levelsBelow (build ns).roots).flatten (0, ⟨rest, [], []⟩)
  rw [expand_eq_foldl, Watched.revealed, hmade.calls]
  exact hmade.nodes

end Forest
end ScriptTree
