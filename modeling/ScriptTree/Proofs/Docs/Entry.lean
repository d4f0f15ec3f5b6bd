/-
Which entries have no text. A number with too many digits is the only part without one (`text?_isSome`,
by induction on the depth of the text), so a document without such numbers is read to its end
(`Entry.ofFields?_isSome`), and an entry that cannot be read tells that there is one
(`Entry.exists_isTooLong`).
-/
import ScriptTree.Docs.Entry
import Mathlib.Tactic.ByContra

namespace ScriptTree

theorem isSome_mapM {α β : Type} {f : α → Option β} {xs : List α} (h : ∀ x ∈ xs, (f x).isSome) :
    (xs.mapM f).isSome := by
  induction xs with
  | nil => rfl
  | cons x xs ih =>
    obtain ⟨y, hy⟩ := Option.isSome_iff_exists.1 (h x List.mem_cons_self)
    obtain ⟨ys, hys⟩ := Option.isSome_iff_exists.1 (ih fun z hz => h z (List.mem_cons_of_mem _ hz))
    rw [List.mapM_cons, hy, hys]
    rfl

/-! ## The text of a part -/

namespace ValueGraph

/-- All numbers among the parts have a text. -/
def Writable (g : ValueGraph) : Prop :=
  ∀ place i, g.part place = .scalar (.int i) → Integer.isTooLong i = false

variable {g : ValueGraph}

theorem Writable.scalar (h : g.Writable) {place : Nat} {s : Scalar} (hpart : g.part place = .scalar s) :
    s.isWritable = true := by
  cases s with
  | int i =>
    show (!Integer.isTooLong i) = true
    rw [h place i hpart]
    rfl
  | _ => rfl

theorem quotedIn?_isSome (h : g.Writable) (depth : Nat) (outer : List Nat) (place : Nat) :
    (g.quotedIn? depth outer place).isSome := by
  induction depth generalizing outer place with
  | zero => rfl
  | succ depth ih =>
    unfold quotedIn?
    dsimp only
    split
    · rename_i s hpart
      rw [if_pos (h.scalar hpart)]
      rfl
    · split
      · rfl
      · rw [Option.isSome_map]
        exact isSome_mapM fun item _ => ih _ item
    · rw [Option.isSome_map]
      exact isSome_mapM fun item _ => ih _ item
    · split
      · rfl
      · rw [Option.isSome_map]
        exact isSome_mapM fun item _ => ih _ item
    · split
      · rfl
      · rw [Option.isSome_map]
        refine isSome_mapM fun field _ => ?_
        obtain ⟨key, hkey⟩ := Option.isSome_iff_exists.1 (ih (place :: outer) field.1)
        obtain ⟨value, hvalue⟩ := Option.isSome_iff_exists.1 (ih (place :: outer) field.2)
        rw [hkey, hvalue]
        rfl

/-- Every part of a value whose numbers have a text has one. -/
theorem text?_isSome (h : g.Writable) (place : Nat) : (g.text? place).isSome := by
  unfold text?
  split
  · rename_i s hpart
    rw [if_pos (h.scalar hpart)]
    rfl
  · rw [Option.isSome_map]
    exact quotedIn?_isSome h _ _ _

end ValueGraph

/-! ## Entries -/

namespace Docs

section

variable {g : ValueGraph} (h : g.Writable) (fields : List (Nat × Nat))

include h

theorem fieldText?_isSome (name : String) : (fieldText? g name fields).isSome := by
  unfold fieldText?
  split
  · rfl
  · split
    · rfl
    · exact ValueGraph.text?_isSome h _

theorem valuesOf?_isSome : (valuesOf? g fields).isSome := by
  unfold valuesOf?
  split
  · exact isSome_mapM fun place _ => ValueGraph.text?_isSome h place
  · rfl
  · rfl

theorem Property.ofFields?_isSome : (Property.ofFields? g fields).isSome := by
  obtain ⟨name, hname⟩ := Option.isSome_iff_exists.1 (fieldText?_isSome h fields "Name")
  obtain ⟨typeName, htypeName⟩ := Option.isSome_iff_exists.1 (fieldText?_isSome h fields "TypeName")
  obtain ⟨summary, hsummary⟩ := Option.isSome_iff_exists.1 (fieldText?_isSome h fields "Summary")
  obtain ⟨values, hvalues⟩ := Option.isSome_iff_exists.1 (valuesOf?_isSome h fields)
  unfold ofFields?
  rw [hname, htypeName, hsummary, hvalues]
  rfl

/-- Fields whose numbers all have a text make an entry. -/
theorem Entry.ofFields?_isSome : (Entry.ofFields? g fields).isSome := by
  have hproperties : ((named g (Property.items g fields)).mapM (Property.ofFields? g)).isSome :=
    isSome_mapM fun fields _ => Property.ofFields?_isSome h fields
  obtain ⟨properties, hproperties⟩ := Option.isSome_iff_exists.1 hproperties
  obtain ⟨name, hname⟩ := Option.isSome_iff_exists.1 (fieldText?_isSome h fields "Name")
  obtain ⟨summary, hsummary⟩ := Option.isSome_iff_exists.1 (fieldText?_isSome h fields "Summary")
  unfold ofFields?
  rw [hproperties, hname, hsummary]
  rfl

end

/-- Fields that make no entry are those of a document with a number that is too long. -/
theorem Entry.exists_isTooLong {g : ValueGraph} {fields : List (Nat × Nat)} (h : Entry.ofFields? g fields = none) :
    ∃ place i, g.part place = .scalar (.int i) ∧ Integer.isTooLong i = true := by
  by_contra hnone
  have hwritable : g.Writable := by
    intro place i hpart
    by_contra hlong
    exact hnone ⟨place, i, hpart, by simpa using hlong⟩
  have hsome := Entry.ofFields?_isSome hwritable fields
  rw [h] at hsome
  cases hsome

/-! ## A number that is too long -/

section

variable {g : ValueGraph} {place : Nat} {i : Int}

/-- A number that is too long to have a text does not count as absent. -/
theorem isBlank_of_isTooLong (hpart : g.part place = .scalar (.int i)) (h : Integer.isTooLong i = true) :
    g.isBlank place = false := by
  unfold ValueGraph.isBlank
  rw [hpart]
  show (i == 0) = false
  rw [beq_eq_false_iff_ne]
  rintro rfl
  have hle : Nat.pow 10 Integer.digitLimit ≤ 0 := of_decide_eq_true h
  generalize Integer.digitLimit = digits at hle
  exact Nat.not_le.2 (Nat.pow_pos (by decide)) hle

/-- A field with such a number has no text. -/
theorem fieldText?_of_isTooLong (hpart : g.part place = .scalar (.int i)) (h : Integer.isTooLong i = true)
    {name : String} {fields : List (Nat × Nat)} (hfield : g.field? name fields = some place) :
    fieldText? g name fields = none := by
  unfold fieldText? ValueGraph.text?
  simp only [hfield, isBlank_of_isTooLong hpart h, hpart, Scalar.isWritable, h, Bool.not_true,
    Bool.false_eq_true, if_false]

end

end Docs
end ScriptTree
