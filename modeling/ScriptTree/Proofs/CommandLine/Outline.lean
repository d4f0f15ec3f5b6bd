/-
The outline of an analysis. A tree is printed from the top, and what is below a node that is too deep is left
out. Depths grow by one from a node to its children, so nothing is left out that is not too deep itself, and
the lines printed are those of the nodes within the limit, in the order of the whole forest
(`outline_filtered`).
-/
import ScriptTree.Proofs.CommandLine.Export
import ScriptTree.Proofs.Tree.Traversal

namespace ScriptTree

namespace Tree

/-- The depth of a node is within the limit, if there is one. -/
def IsWithin (limit : Option Nat) (t : Tree) : Prop :=
  ∀ n ∈ limit, t.depth ≤ n

instance (limit : Option Nat) (t : Tree) : Decidable (IsWithin limit t) :=
  inferInstanceAs (Decidable (∀ n ∈ limit, t.depth ≤ n))

theorem isBeyond_iff {limit : Option Nat} {t : Tree} : isBeyond limit t.depth = true ↔ ¬ IsWithin limit t := by
  cases limit <;> simp [isBeyond, IsWithin]

/-- A line is indented by two spaces for each step from the root. -/
theorem line_eq (t : Tree) : t.line = String.join (List.replicate t.depth "  ") ++ t.value.label := by
  have hspaces (d : Nat) : CommandLine.spaces (2 * d) = String.join (List.replicate d "  ") := by
    unfold CommandLine.spaces
    induction d with
    | zero => rfl
    | succ d ih =>
      rw [List.replicate_succ, String.join_cons, ← ih, Nat.mul_succ, Nat.add_comm, List.replicate_add,
        String.ofList_append]
      rfl
  rw [line, hspaces]

namespace Graded

variable {d : Nat} {t : Tree} {ts : List Tree}

theorem cons_iff : Graded d (t :: ts) ↔ Graded d [t] ∧ Graded d ts := by
  constructor
  · rintro ⟨htops, hbelow⟩
    rw [preorderAll] at hbelow
    refine ⟨⟨?_, ?_⟩, fun s hs => htops s (List.mem_cons_of_mem t hs),
      fun s hs => hbelow s (List.mem_append_right _ hs)⟩
    · exact List.forall_mem_singleton.2 (htops t List.mem_cons_self)
    · rw [preorderAll, preorderAll, List.append_nil]
      exact fun s hs => hbelow s (List.mem_append_left _ hs)
  · rintro ⟨ht, hts⟩
    refine ⟨List.forall_mem_cons.2 ⟨ht.tops t List.mem_cons_self, hts.tops⟩, fun s hs => ?_⟩
    rw [preorderAll] at hs
    rcases List.mem_append.1 hs with hs | hs
    · exact ht.below s (mem_preorderAll.2 ⟨t, List.mem_cons_self, hs⟩)
    · exact hts.below s hs

theorem children {n : Node} {depth : Nat} (h : Graded d [.node n depth ts]) : Graded (d + 1) ts := by
  have hnext := h.next
  rwa [nextLevel, List.flatMap_singleton] at hnext

/-- Below a node that is too deep all are. -/
theorem filter_eq_nil (h : Graded d [t]) {limit : Option Nat} (hbeyond : ¬ IsWithin limit t) :
    (preorder t).filter (IsWithin limit) = [] := by
  refine List.filter_eq_nil_iff.2 fun s hs hwithin => hbeyond fun n hn => ?_
  calc t.depth = d := h.tops t List.mem_cons_self
    _ ≤ s.depth := h.le_depth (mem_preorderAll.2 ⟨t, List.mem_cons_self, hs⟩)
    _ ≤ n := of_decide_eq_true hwithin n hn

end Graded

/-- The trees printed down to a limit are those within it. -/
theorem outlineAll_eq (limit : Option Nat) {ts : List Tree} {d : Nat} (h : Graded d ts) :
    outlineAll limit ts = ((preorderAll ts).filter (IsWithin limit)).map line := by
  revert d
  refine inductionAll
    (P := fun t => ∀ {d}, Graded d [t] →
      outline limit t = ((preorder t).filter (IsWithin limit)).map line)
    (Q := fun ts => ∀ {d}, Graded d ts →
      outlineAll limit ts = ((preorderAll ts).filter (IsWithin limit)).map line) ?node ?nil ?cons ts
  case node =>
    intro n depth ts ih d h
    rw [outline]
    by_cases hwithin : IsWithin limit (.node n depth ts)
    · have hhere : ¬ isBeyond limit depth = true := fun hbeyond => isBeyond_iff.1 hbeyond hwithin
      rw [if_neg hhere, preorder, List.filter_cons, if_pos (decide_eq_true hwithin), List.map_cons,
        ih h.children]
    · have hhere : isBeyond limit depth = true := isBeyond_iff.2 hwithin
      rw [if_pos hhere, h.filter_eq_nil hwithin, List.map_nil]
  case nil =>
    intro d _
    rw [outlineAll, preorderAll, List.filter_nil, List.map_nil]
  case cons =>
    intro t ts ht hts d h
    obtain ⟨hfirst, hrest⟩ := Graded.cons_iff.1 h
    rw [outlineAll, preorderAll, List.filter_append, List.map_append, ht hfirst, hts hrest]

end Tree

namespace Forest

/-- The nodes of a forest within a limit, each before those below it. -/
def within (limit : Option Nat) (f : Forest) : List Tree :=
  (Tree.flatten f.roots).filter (Tree.IsWithin limit)

theorem within_distinct (limit : Option Nat) (ns : List Node) :
    (((build ns).within limit).map Tree.hash).Nodup := by
  rw [within, ← index_eq_flatten]
  exact (index_distinct ns).sublist (List.filter_sublist.map _)

end Forest

namespace CommandLine

open Analysis (Payload)

/-- The lines of the nodes of a forest within a limit. -/
def linesWithin (limit : Option Nat) (f : Forest) : List Points :=
  (f.within limit).map fun t => String.join (List.replicate t.depth "  ") ++ t.value.label

theorem outlineAll_build (limit : Option Nat) (ns : List Node) :
    Tree.outlineAll limit (Forest.build ns).roots = linesWithin limit (.build ns) := by
  rw [Tree.outlineAll_eq limit (Forest.build_graded ns), linesWithin, Forest.within,
    Tree.flatten_eq_preorderAll]
  exact List.map_congr_left fun t _ => Tree.line_eq t

end CommandLine
end ScriptTree
