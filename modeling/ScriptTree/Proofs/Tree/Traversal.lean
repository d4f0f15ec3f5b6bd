/-
The three loops that go through a forest: the walk over the links that makes the index, the visits over a
stack, and the sweep over a queue. None of them has to know what it has seen: no hash comes to the walk a
second time, the stack yields the index in its order, the queue parts it into levels by depth, and each of
the two is empty after as many rounds as the forest has nodes (`build_traversals`).
-/
import ScriptTree.Proofs.Tree.Preorder
import ScriptTree.Tree.Level

namespace ScriptTree

/-- What every round of a loop makes less by one is less by the number of rounds. -/
theorem size_iterate {α : Type} {step : α → α} {size : α → Nat} (h : ∀ a, size (step a) = size a - 1)
    (k : Nat) (a : α) : size (step^[k] a) = size a - k := by
  induction k with
  | zero => rfl
  | succ k ih => rw [Function.iterate_succ_apply', h, ih, Nat.sub_sub]

namespace Tree

/-! ## The stack -/

theorem sizeAll_eq_length (ts : List Tree) : sizeAll ts = (preorderAll ts).length := by
  refine inductionAll (P := fun t => size t = (preorder t).length)
    (Q := fun ts => sizeAll ts = (preorderAll ts).length) (fun n d ts ih => ?_) rfl (fun t ts ht hts => ?_) ts
  · rw [size, ih, preorder, List.length_cons]
  · rw [sizeAll, ht, hts, preorderAll, List.length_append]

theorem pop_iterate_eq_nil {stack : List Tree} {k : Nat} : pop^[k] stack = [] ↔ sizeAll stack ≤ k := by
  rw [← sizeAll_eq_zero, size_iterate sizeAll_pop, Nat.sub_eq_zero_iff_le]

/-- The tree visited in a round is the first one on the stack then. -/
theorem visit_getElem? (stack : List Tree) (k : Nat) : (visit stack)[k]? = (pop^[k] stack).head? := by
  induction k generalizing stack with
  | zero => cases stack <;> simp [visit]
  | succ k ih =>
    rw [Function.iterate_succ_apply]
    cases stack with
    | nil => rw [← ih, pop, visit, List.getElem?_nil, List.getElem?_nil]
    | cons t stack => rw [← ih, visit, List.getElem?_cons_succ]

/-! ## Levels -/

/-- The trees one step below the tops of some trees. -/
def nextLevel (ts : List Tree) : List Tree :=
  ts.flatMap children

theorem sizeAll_nextLevel (ts : List Tree) : sizeAll ts = ts.length + sizeAll (nextLevel ts) := by
  induction ts with
  | nil => rfl
  | cons t ts ih =>
    obtain ⟨n, d, us⟩ := t
    rw [sizeAll, size, ih, nextLevel, nextLevel, List.flatMap_cons, children, sizeAll_append,
      List.length_cons]
    omega

/-- The levels of some trees: the trees, those one step below, and so on. -/
def levelsBelow : List Tree → List (List Tree)
  | [] => []
  | t :: ts => (t :: ts) :: levelsBelow (nextLevel (t :: ts))
termination_by ts => sizeAll ts
decreasing_by
  rw [sizeAll_nextLevel (t :: ts), List.length_cons]
  omega

theorem ne_nil_of_mem_levelsBelow {ts level : List Tree} (h : level ∈ levelsBelow ts) : level ≠ [] := by
  induction ts using levelsBelow.induct with
  | case1 =>
    rw [levelsBelow] at h
    cases h
  | case2 t ts ih =>
    rw [levelsBelow, List.mem_cons] at h
    rcases h with rfl | h
    · exact List.cons_ne_nil t ts
    · exact ih h

theorem preorderAll_eq_flatMap_children (ts : List Tree) :
    preorderAll ts = ts.flatMap fun t => t :: preorderAll t.children := by
  rw [preorderAll_eq_flatMap]
  exact List.flatMap_congr fun t _ => preorder_eq t

theorem preorderAll_nextLevel (ts : List Tree) :
    preorderAll (nextLevel ts) = ts.flatMap fun t => preorderAll t.children := by
  rw [preorderAll_eq_flatMap, nextLevel, List.flatMap_assoc]
  exact List.flatMap_congr fun t _ => (preorderAll_eq_flatMap t.children).symm

theorem preorderAll_perm (ts : List Tree) : (preorderAll ts).Perm (ts ++ preorderAll (nextLevel ts)) := by
  rw [preorderAll_eq_flatMap_children, preorderAll_nextLevel]
  induction ts with
  | nil => exact .refl _
  | cons t ts ih =>
    rw [List.flatMap_cons, List.flatMap_cons, List.cons_append, List.cons_append]
    exact ((ih.append_left _).trans (List.perm_append_comm_assoc _ _ _)).cons t

/-- The levels part the nodes. -/
theorem levelsBelow_flatten (ts : List Tree) : (levelsBelow ts).flatten.Perm (preorderAll ts) := by
  induction ts using levelsBelow.induct with
  | case1 =>
    rw [levelsBelow]
    exact .refl _
  | case2 t ts ih =>
    rw [levelsBelow, List.flatten_cons]
    exact (ih.append_left _).trans (preorderAll_perm (t :: ts)).symm

/-- The depths of some trees: that of the tops, and one more with every step down. -/
structure Graded (d : Nat) (ts : List Tree) : Prop where
  tops : ∀ t ∈ ts, t.depth = d
  below : ∀ s ∈ preorderAll ts, ∀ c ∈ s.children, c.depth = s.depth + 1

namespace Graded

variable {d : Nat} {ts : List Tree} (h : Graded d ts)

include h

theorem next : Graded (d + 1) (nextLevel ts) where
  tops c hc := by
    obtain ⟨t, ht, hc⟩ := List.mem_flatMap.1 hc
    rw [h.below t (subset_preorderAll ts ht) c hc, h.tops t ht]
  below s hs := h.below s ((preorderAll_perm ts).mem_iff.2 (List.mem_append_right _ hs))

theorem le_depth {s : Tree} (hs : s ∈ preorderAll ts) : d ≤ s.depth := by
  have hall : ∀ s ∈ preorderAll ts, s ∈ preorderAll ts ∧ d ≤ s.depth := by
    refine forall_mem_preorderAll (fun t ht => ⟨subset_preorderAll ts ht, (h.tops t ht).ge⟩) ?_
    rintro s ⟨hs, hle⟩ c hc
    exact ⟨mem_preorderAll_child hs hc, by rw [h.below s hs c hc]; omega⟩
  exact (hall s hs).2

/-- The tops are the nodes of their depth. -/
theorem filter_tops : (preorderAll ts).filter (·.depth = d) = ts := by
  rw [preorderAll_eq_flatMap_children, List.filter_flatMap]
  have hone : ∀ t ∈ ts, (t :: preorderAll t.children).filter (·.depth = d) = [t] := by
    intro t ht
    have hbelow : ∀ s ∈ preorderAll t.children, ¬ s.depth = d := by
      intro s hs
      have hmem : s ∈ preorderAll (nextLevel ts) := by
        rw [preorderAll_nextLevel]
        exact List.mem_flatMap.2 ⟨t, ht, hs⟩
      have := h.next.le_depth hmem
      omega
    have hnone : (preorderAll t.children).filter (·.depth = d) = [] :=
      List.filter_eq_nil_iff.2 fun s hs hdepth => hbelow s hs (of_decide_eq_true hdepth)
    rw [List.filter_cons, if_pos (decide_eq_true (h.tops t ht)), hnone]
  rw [List.flatMap_congr hone]
  exact List.flatMap_singleton' ts

/-- Nodes of another depth are below the tops. -/
theorem filter_below {n : Nat} (hn : n ≠ d) :
    (preorderAll ts).filter (·.depth = n) = (preorderAll (nextLevel ts)).filter (·.depth = n) := by
  rw [preorderAll_eq_flatMap_children, preorderAll_nextLevel, List.filter_flatMap, List.filter_flatMap]
  refine List.flatMap_congr fun t ht => List.filter_cons_of_neg ?_
  rw [decide_eq_true_eq, h.tops t ht]
  exact hn.symm

/-- A level holds the nodes of its depth, in the order from the top. -/
theorem levelsBelow_getD (k : Nat) : (levelsBelow ts).getD k [] = (preorderAll ts).filter (·.depth = d + k) := by
  induction k generalizing d ts with
  | zero =>
    rw [Nat.add_zero, h.filter_tops]
    cases ts with
    | nil => rw [levelsBelow]; rfl
    | cons t ts => rw [levelsBelow]; rfl
  | succ k ih =>
    cases ts with
    | nil => rw [levelsBelow]; rfl
    | cons t ts =>
      have hn : d + 1 + k ≠ d := by omega
      rw [levelsBelow, List.getD_cons_succ, ih h.next, ← h.filter_below hn, Nat.add_right_comm, Nat.add_assoc]

/-- There are as many levels as the greatest depth asks for. -/
theorem length_levelsBelow (htop : d = 0) :
    (levelsBelow ts).length = ((preorderAll ts).map depth).max?.elim 0 (1 + ·) := by
  subst htop
  have hlevel := fun k => h.levelsBelow_getD k
  simp only [Nat.zero_add] at hlevel
  have hless : ∀ s ∈ preorderAll ts, s.depth < (levelsBelow ts).length := by
    intro s hs
    by_contra hle
    have hmem : s ∈ (preorderAll ts).filter (·.depth = s.depth) := List.mem_filter.2 ⟨hs, decide_eq_true rfl⟩
    rw [← hlevel, List.getD_eq_default _ _ (Nat.le_of_not_lt hle)] at hmem
    cases hmem
  cases hmax : ((preorderAll ts).map depth).max? with
  | none =>
    obtain rfl : ts = [] := by
      rw [List.max?_eq_none_iff, List.map_eq_nil_iff] at hmax
      exact List.eq_nil_of_subset_nil (hmax ▸ subset_preorderAll ts)
    rw [levelsBelow]
    rfl
  | some m =>
    obtain ⟨hmem, hgreatest⟩ := List.max?_eq_some_iff.1 hmax
    obtain ⟨s, hs, rfl⟩ := List.mem_map.1 hmem
    refine le_antisymm ?_ (by have := hless s hs; simp only [Option.elim_some]; omega)
    by_contra hlong
    -- the last level is not empty, and its nodes are too deep
    have hin : (levelsBelow ts).length - 1 < (levelsBelow ts).length := by
      simp only [Option.elim_some] at hlong
      omega
    have hlast := hlevel ((levelsBelow ts).length - 1)
    rw [List.getD_eq_getElem _ _ hin] at hlast
    obtain ⟨u, hu⟩ := List.exists_mem_of_ne_nil _ (ne_nil_of_mem_levelsBelow (List.getElem_mem hin))
    rw [hlast] at hu
    obtain ⟨hu, hdepth⟩ := List.mem_filter.1 hu
    have := hgreatest _ (List.mem_map_of_mem hu)
    rw [decide_eq_true_eq] at hdepth
    simp only [Option.elim_some] at hlong
    omega

end Graded
end Tree

namespace Forest

open ScriptTree.Tree (preorderAll nextLevel levelsBelow sizeAll)

/-! ## The queue -/

namespace Sweep

theorem waiting_iterate {s : Sweep} {k : Nat} : (step^[k] s).queue = [] ↔ s.waiting ≤ k := by
  rw [← waiting_eq_zero, size_iterate waiting_step, Nat.sub_eq_zero_iff_le]

/-- A sweep that is over has made a round for each node. -/
theorem run_eq_iterate (s : Sweep) : s.run = step^[s.waiting] s := by
  induction s using run.induct with
  | case1 s h => rw [run, if_pos h, waiting_eq_zero.2 h, Function.iterate_zero_apply]
  | case2 s h ih =>
    have hleft : s.waiting = s.step.waiting + 1 := by
      rw [waiting_step]
      have := mt waiting_eq_zero.1 h
      omega
    rw [run, if_neg h, ih, hleft, Function.iterate_succ_apply]

theorem waiting_start (roots : List Tree) : (start roots).waiting = sizeAll roots := by
  rw [waiting, start, List.map_map]
  exact congrArg sizeAll (List.map_id roots)

theorem modify_last (levels : List (List Tree)) (us : List Tree) (t : Tree) :
    (levels ++ [us]).modify levels.length (· ++ [t]) = levels ++ [us ++ [t]] :=
  List.modifyTailIdx_add _ 0 levels [us]

/-- The rest of a level that was begun: its trees go to it, and their children wait behind those of the
trees before. -/
theorem step_iterate_rest (levels : List (List Tree)) (ts : List Tree) : ∀ us cs : List Tree,
    step^[ts.length] ⟨levels ++ [us], ts.map (·, levels.length) ++ cs.map (·, levels.length + 1)⟩ =
      ⟨levels ++ [us ++ ts], (cs ++ nextLevel ts).map (·, levels.length + 1)⟩ := by
  induction ts with
  | nil => simp [nextLevel]
  | cons t ts ih =>
    intro us cs
    have hstep : step ⟨levels ++ [us], (t :: ts).map (·, levels.length) ++ cs.map (·, levels.length + 1)⟩ =
        ⟨levels ++ [us ++ [t]],
          ts.map (·, levels.length) ++ (cs ++ t.children).map (·, levels.length + 1)⟩ := by
      simp [step, modify_last]
    rw [List.length_cons, Function.iterate_succ_apply, hstep, ih, List.append_assoc, List.append_assoc]
    rfl

/-- A whole level. -/
theorem step_iterate_level (levels : List (List Tree)) (t : Tree) (ts : List Tree) :
    step^[(t :: ts).length] ⟨levels, (t :: ts).map (·, levels.length)⟩ =
      ⟨levels ++ [t :: ts], (nextLevel (t :: ts)).map (·, levels.length + 1)⟩ := by
  have hstep : step ⟨levels, (t :: ts).map (·, levels.length)⟩ =
      ⟨levels ++ [[t]], ts.map (·, levels.length) ++ t.children.map (·, levels.length + 1)⟩ := by
    simp [step, modify_last]
  rw [List.length_cons, Function.iterate_succ_apply, hstep, step_iterate_rest]
  rfl

/-- The sweep adds the levels one after the other. -/
theorem step_iterate_levels (ts : List Tree) : ∀ levels : List (List Tree),
    step^[sizeAll ts] ⟨levels, ts.map (·, levels.length)⟩ = ⟨levels ++ levelsBelow ts, []⟩ := by
  induction ts using ScriptTree.Tree.levelsBelow.induct with
  | case1 =>
    intro levels
    rw [levelsBelow, List.append_nil]
    rfl
  | case2 t ts ih =>
    intro levels
    have hnext := ih (levels ++ [t :: ts])
    rw [List.length_append, List.length_singleton] at hnext
    rw [Tree.sizeAll_nextLevel, Nat.add_comm, Function.iterate_add_apply, step_iterate_level, hnext,
      levelsBelow, List.append_assoc, List.singleton_append]

end Sweep

theorem levels_eq_levelsBelow (f : Forest) : f.levels = levelsBelow f.roots := by
  rw [levels, Sweep.run_eq_iterate, Sweep.waiting_start]
  exact congrArg Sweep.levels (Sweep.step_iterate_levels f.roots [])

/-! ## The index -/

namespace Walk

/-- What holds at the start of the walk over a table holds in every round. -/
theorem iterate_clean {table : List Node} (nodup : (table.map Node.hash).Nodup) (k : Nat) :
    Clean table ((step (link table).entries)^[k] (start (link table).roots)) := by
  induction k with
  | zero => exact start_clean nodup
  | succ k ih =>
    rw [Function.iterate_succ_apply']
    generalize (step (link table).entries)^[k] (start (link table).roots) = w at ih ⊢
    obtain ⟨reached, stack⟩ := w
    cases stack with
    | nil => exact ih
    | cons a stack =>
      obtain ⟨hstep, hclean⟩ := step_clean nodup ih
      rwa [hstep]

/-- A hash that comes to the top of the stack has not been reached. -/
theorem Clean.not_has {table : List Node} {w : Walk} (clean : Clean table w) {h : Int} {d : Nat}
    {later : List (Int × Nat)} (hstack : w.stack = (h, d) :: later) : w.has h = false := by
  have fresh := clean.fresh
  rw [all, hstack, List.map_append, List.map_cons] at fresh
  rw [Bool.eq_false_iff, ne_eq, has_iff]
  exact fun hmem => (List.nodup_middle.1 fresh).notMem (List.mem_append_left _ hmem)

end Walk

theorem build_graded (ns : List Node) : Tree.Graded 0 (build ns).roots := by
  have h := describes_tableOf ns
  have nodup := tableOf_nodup ns
  exact ⟨fun t ht => h.root_depth nodup ht,
    fun s hs c hc => h.child_depth nodup (h.subtree_indexed s hs) hc⟩

theorem index_eq_preorderAll (ns : List Node) : (build ns).index = preorderAll (build ns).roots := by
  rw [index_eq_flatten, Tree.flatten_eq_preorderAll]

/-- No two trees of the index have one hash. -/
theorem index_distinct (ns : List Node) : ((build ns).index.map Tree.hash).Nodup := by
  have h := describes_tableOf ns
  have hkeys : (build ns).index.map Tree.hash = (build ns).nodes.map Prod.fst := by
    rw [index, List.map_map]
    exact List.map_congr_left fun p hp => h.hash p.1 p.2 hp
  rw [hkeys]
  exact h.keys

theorem size_eq_sizeAll (ns : List Node) : (build ns).size = sizeAll (build ns).roots := by
  rw [size, ← List.length_map (f := Prod.snd), Tree.sizeAll_eq_length, ← index_eq_preorderAll]
  rfl

/-- The links of the table of some nodes. -/
def linksBetween (ns : List Node) : Links :=
  link ((latest ns).map Node.capped)

/-- How the forest of some nodes is gone through. -/
structure Traversals (ns : List Node) : Prop where
  /-- The stack yields the trees of the index, in its order. -/
  flatten_eq : Tree.flatten (build ns).roots = (build ns).index
  distinct : ((build ns).index.map Tree.hash).Nodup
  /-- The levels part the trees of the index. -/
  levels_perm : (build ns).levels.flatten.Perm (build ns).index
  /-- A level holds the trees of its depth, in the order of the index. -/
  level : ∀ d (h : d < (build ns).levels.length),
    (build ns).levels[d] = (Tree.flatten (build ns).roots).filter (·.depth = d)
  /-- There is one level more than the greatest depth, and none without trees. -/
  height : (build ns).levels.length = ((build ns).index.map Tree.depth).max?.elim 0 (1 + ·)
  /-- The walk that makes the index meets no hash that it has reached. -/
  fresh : ∀ k h d later, let w := (Walk.step (linksBetween ns).entries)^[k] (.start (linksBetween ns).roots)
    w.stack = (h, d) :: later → w.has h = false
  /-- The tree yielded in a round is the first one on the stack. -/
  visits : ∀ k, (Tree.flatten (build ns).roots)[k]? = (Tree.pop^[k] (build ns).roots).head?
  /-- The stack is empty after as many rounds as there are nodes, and not before. -/
  pops : ∀ k, Tree.pop^[k] (build ns).roots = [] ↔ (build ns).size ≤ k
  /-- The levels are those of the queue after as many rounds as there are nodes. -/
  sweeps : (build ns).levels = (Sweep.step^[(build ns).size] (.start (build ns).roots)).levels
  /-- The queue is empty after as many rounds as there are nodes, and not before. -/
  takes : ∀ k, (Sweep.step^[k] (.start (build ns).roots)).queue = [] ↔ (build ns).size ≤ k

/-- The traversals of the forest of any list of nodes agree, and each one stops. -/
theorem build_traversals (ns : List Node) : Traversals ns where
  flatten_eq := (index_eq_flatten ns).symm
  distinct := index_distinct ns
  levels_perm := by
    rw [levels_eq_levelsBelow, index_eq_preorderAll]
    exact Tree.levelsBelow_flatten _
  level d hd := by
    have hlevel := (build_graded ns).levelsBelow_getD d
    rw [← levels_eq_levelsBelow, List.getD_eq_getElem _ _ hd, Nat.zero_add] at hlevel
    rw [hlevel, Tree.flatten_eq_preorderAll]
  height := by
    rw [levels_eq_levelsBelow, index_eq_preorderAll]
    exact (build_graded ns).length_levelsBelow rfl
  fresh k h d later := by
    have nodup : (((latest ns).map Node.capped).map Node.hash).Nodup := by
      rw [latest_eq_lastByHash]
      exact tableOf_nodup ns
    exact (Walk.iterate_clean nodup k).not_has
  visits := Tree.visit_getElem? (build ns).roots
  pops k := by rw [size_eq_sizeAll, Tree.pop_iterate_eq_nil]
  sweeps := by rw [levels, Sweep.run_eq_iterate, Sweep.waiting_start, size_eq_sizeAll]
  takes k := by rw [size_eq_sizeAll, Sweep.waiting_iterate, Sweep.waiting_start]

end Forest
end ScriptTree
