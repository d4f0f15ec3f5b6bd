/-
The numbers of a value that is read. No text yields a whole number, or a number whose whole part is one,
with more digits than are read (`bounded_of_readChars`), so all numbers of a value can be written and read
again.
-/
import ScriptTree.Json.Reader
import ScriptTree.Proofs.Number.Range
import ScriptTree.Tree.Lenient

namespace ScriptTree.Json

open Integer (IsShort)

/-- The whole numbers and the whole parts of the numbers in the value have no more digits than are
read. -/
inductive Bounded : Value → Prop
  | null : Bounded .null
  | bool (b : Bool) : Bounded (.bool b)
  | int {i : Int} : IsShort i → Bounded (.int i)
  | real {x : Binary64} : (∀ i, x.truncate? = some i → IsShort i) → Bounded (.real x)
  | text (s : Points) : Bounded (.text s)
  | list {xs : List Value} : (∀ x ∈ xs, Bounded x) → Bounded (.list xs)
  | object {fs : List (Points × Value)} : (∀ f ∈ fs, Bounded f.2) → Bounded (.object fs)

/-- What a step yields, if it yields anything. -/
def Yields {α : Type} (P : α → Prop) : Read α → Prop
  | .ok (x, _) => P x
  | .error _ => True

/-! ## Atoms -/

theorem natOf_lt {ds : List Char} (hds : ∀ c ∈ ds, c.isDigit = true) : natOf ds < 10 ^ ds.length := by
  have hvalues : ∀ d ∈ ds.map (fun c => c.toNat - 0x30), d < 10 := by
    intro d hd
    obtain ⟨c, hc, rfl⟩ := List.mem_map.1 hd
    exact Integer.digitValue?_lt (by rw [Text.digitValue?, if_pos (hds c hc)])
  have hlt := Integer.ofDigits_lt hvalues
  rwa [List.length_map, Integer.ofDigits, List.foldl_map] at hlt

theorem readNumber_yields {negative : Bool} {cs : List Char} {r : Read Value}
    (h : readNumber negative cs = some r) : Yields Bounded r := by
  unfold readNumber at h
  split at h
  · cases h
  · rename_i d rest
    split at h
    · cases h
    · have hdigits : ∀ c ∈ (if d = '0' then (['0'], rest) else spanDigits (d :: rest)).1, c.isDigit = true := by
        split
        · rintro c hc
          rw [List.mem_singleton.1 hc]
          rfl
        · exact fun c hc => List.mem_takeWhile_imp hc
      dsimp only at h
      generalize (if d = '0' then (['0'], rest) else spanDigits (d :: rest)) = part at h hdigits
      cases h
      split
      · split
        · trivial
        · rename_i hlimit
          refine .int (Integer.isShort_ofNat ((natOf_lt hdigits).trans_le ?_) negative)
          exact Nat.pow_le_pow_right (by decide) (Nat.not_lt.1 hlimit)
      · exact .real fun i hi => Binary64.ofDecimal_short hi

theorem readNumber_getD_yields (negative : Bool) (cs : List Char) (e : Refusal) :
    Yields Bounded ((readNumber negative cs).getD (.error e)) := by
  cases h : readNumber negative cs with
  | none => trivial
  | some r => exact readNumber_yields h

theorem readAtom_yields (cs : List Char) : Yields Bounded (readAtom cs) := by
  have hinfinite : ∀ negative, Bounded (.real (.infinity negative)) := fun negative => .real nofun
  unfold readAtom
  dsimp only
  split
  · split
    · exact hinfinite true
    · exact readNumber_getD_yields true _ _
  all_goals first
    | exact readNumber_getD_yields false _ _
    | split
      · first
        | exact .null
        | exact .bool _
        | exact .real nofun
      · trivial

/-! ## Values -/

theorem insert_bounded {key : Points} {v : Value} (hv : Bounded v) {fs : List (Points × Value)}
    (h : ∀ f ∈ fs, Bounded f.2) : ∀ f ∈ Value.insert key v fs, Bounded f.2 := by
  induction fs with
  | nil => exact List.forall_mem_cons.2 ⟨hv, List.forall_mem_nil _⟩
  | cons f fs ih =>
    obtain ⟨k, w⟩ := f
    obtain ⟨hw, hfs⟩ := List.forall_mem_cons.1 h
    rw [Value.insert]
    split
    · exact List.forall_mem_cons.2 ⟨hv, hfs⟩
    · exact List.forall_mem_cons.2 ⟨hw, ih hfs⟩

theorem ofFields_bounded {fs : List (Points × Value)} (h : ∀ f ∈ fs, Bounded f.2) :
    ∀ f ∈ Value.ofFields fs, Bounded f.2 := by
  induction fs using List.reverseRecOn with
  | nil => nofun
  | append_singleton fs f ih =>
    rw [List.forall_mem_append] at h
    rw [Value.ofFields, List.foldl_append]
    exact insert_bounded (h.2 f (List.mem_singleton_self f)) (ih h.1)

theorem readValue_yields_of {fuel : Nat} (hitems : ∀ cs, Yields (∀ x ∈ ·, Bounded x) (readItems fuel cs))
    (hfields : ∀ cs, Yields (∀ f ∈ ·, Bounded f.2) (readFields fuel cs)) (cs : List Char) :
    Yields Bounded (readValue (fuel + 1) cs) := by
  rw [readValue.eq_def]
  dsimp only
  split
  · split
    · exact .text _
    · trivial
  · rename_i rest
    split
    · exact .list nofun
    · have hlist := hitems (skipSpace rest)
      split <;> rename_i heq
      · rw [heq] at hlist
        exact .list hlist
      · trivial
  · rename_i rest
    split
    · exact .object nofun
    · have hobject := hfields (skipSpace rest)
      split <;> rename_i heq
      · rw [heq] at hobject
        exact .object (ofFields_bounded hobject)
      · trivial
  · exact readAtom_yields cs

theorem readItems_yields_of {fuel : Nat} (hvalue : ∀ cs, Yields Bounded (readValue fuel cs))
    (hitems : ∀ cs, Yields (∀ x ∈ ·, Bounded x) (readItems fuel cs)) (cs : List Char) :
    Yields (∀ x ∈ ·, Bounded x) (readItems (fuel + 1) cs) := by
  rw [readItems.eq_def]
  dsimp only
  have hfirst := hvalue cs
  split <;> rename_i heq
  · trivial
  · rw [heq] at hfirst
    split
    · exact List.forall_mem_singleton.2 hfirst
    · rename_i after _
      have hmore := hitems (skipSpace after)
      split <;> rename_i hlast
      · rw [hlast] at hmore
        exact List.forall_mem_cons.2 ⟨hfirst, hmore⟩
      · trivial
    · trivial

theorem readFields_yields_of {fuel : Nat} (hvalue : ∀ cs, Yields Bounded (readValue fuel cs))
    (hfields : ∀ cs, Yields (∀ f ∈ ·, Bounded f.2) (readFields fuel cs)) (cs : List Char) :
    Yields (∀ f ∈ ·, Bounded f.2) (readFields (fuel + 1) cs) := by
  rw [readFields.eq_def]
  dsimp only
  split
  · split
    · trivial
    · split
      · rename_i after _
        have hmember := hvalue (skipSpace after)
        split <;> rename_i hv
        · trivial
        · rw [hv] at hmember
          split
          · exact List.forall_mem_singleton.2 hmember
          · rename_i last _
            have hmore := hfields (skipSpace last)
            split <;> rename_i hrest
            · rw [hrest] at hmore
              exact List.forall_mem_cons.2 ⟨hmember, hmore⟩
            · trivial
          · trivial
      · trivial
  · trivial

/-- The three readers call each other with one unit of fuel less, so they are taken together. -/
theorem readers_yield (fuel : Nat) :
    (∀ cs, Yields Bounded (readValue fuel cs)) ∧ (∀ cs, Yields (∀ x ∈ ·, Bounded x) (readItems fuel cs)) ∧
      ∀ cs, Yields (∀ f ∈ ·, Bounded f.2) (readFields fuel cs) := by
  induction fuel with
  | zero =>
    refine ⟨fun cs => ?_, fun cs => ?_, fun cs => ?_⟩
    · rw [readValue]
      trivial
    · rw [readItems]
      trivial
    · rw [readFields]
      trivial
  | succ fuel ih =>
    obtain ⟨hvalue, hitems, hfields⟩ := ih
    exact ⟨readValue_yields_of hitems hfields, readItems_yields_of hvalue hitems,
      readFields_yields_of hvalue hfields⟩

theorem bounded_of_readChars {cs : List Char} {v : Value} (h : readChars cs = .ok v) : Bounded v := by
  have hvalue := (readers_yield (2 * cs.length + 1)).1 (skipSpace cs)
  unfold readChars at h
  dsimp only at h
  split at h
  · cases h
  · split at h <;> rename_i heq
    · cases h
    · rw [heq] at hvalue
      split at h <;> cases h
      exact hvalue

/-! ## Lenient reading -/

theorem Bounded.fieldOrNull {fs : List (Points × Value)} (h : ∀ f ∈ fs, Bounded f.2) (key : Points) :
    Bounded (Value.fieldOrNull key fs) := by
  unfold Value.fieldOrNull
  induction fs with
  | nil => exact .null
  | cons f fs ih =>
    obtain ⟨k, v⟩ := f
    obtain ⟨hv, hfs⟩ := List.forall_mem_cons.1 h
    rw [Value.field?]
    split
    · exact hv
    · exact ih hfs

theorem intOfText?_short {s : Points} {i : Int} (h : Value.intOfText? s = some i) : IsShort i := by
  rw [Value.intOfText?, Option.bind_eq_some_iff] at h
  obtain ⟨s, -, h⟩ := h
  split at h <;> cases h
  exact Integer.read_short ‹_›

theorem Bounded.toInt?_short {v : Value} (h : Bounded v) {i : Int} (hi : v.toInt? = some i) : IsShort i := by
  unfold Value.toInt? at hi
  split at hi
  · cases hi
    cases h
    assumption
  · exact intOfText?_short hi
  · cases hi

theorem Bounded.toInt_short {v : Value} (h : Bounded v) : IsShort v.toInt := by
  have hdefault : ∀ o : Option Int, (∀ i, o = some i → IsShort i) → IsShort (o.getD 0) := by
    intro o ho
    cases o with
    | none => exact Integer.isShort_zero
    | some i => exact ho i rfl
  unfold Value.toInt
  split
  · cases h
    assumption
  · cases h
    exact hdefault _ ‹_›
  · exact hdefault _ fun i hi => intOfText?_short hi
  · exact Integer.isShort_zero

end ScriptTree.Json
