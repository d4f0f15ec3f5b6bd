/-
What the parser's output accounts for, in each of its forms. The bare list of some items and the document that
holds them give one payload: the nodes of the items with a usable hash, in order, and the number of the others
(`Accounts`). An item that is no node adds one to that number wherever it stands, and a single item, error or
property needs no list around it (`items_accounted`).
-/
import ScriptTree.Proofs.Analysis.Payload
import ScriptTree.Proofs.Tree.Encoding
import ScriptTree.Tree.Forest

namespace ScriptTree.Analysis.Payload

open Json (IsField IsText listText objectText)
open Json.Value (fieldOrNull field? intOfText? ofFields)

/-! ## Readings of texts -/

/-- The text has the result, whatever white space stands around it. -/
def Reads (cs : List Char) (r : Except Refusal Payload) : Prop :=
  ∀ before after, (∀ c ∈ before, Text.isBlank c = true) → (∀ c ∈ after, Text.isBlank c = true) →
    read (String.ofList (before ++ cs ++ after)) = r

theorem reads_of_isText {c d : Char} {part : List Char} (hc : Text.isBlank c = false) (hd : Text.isBlank d = false)
    {v : Json.Value} (hv : IsText (c :: (part ++ [d])) v) : Reads (c :: (part ++ [d])) (ofJson v) := by
  intro before after hbefore hafter
  refine read_of_json ?_ hv
  rw [String.toList_ofList]
  refine Text.trim_padded hbefore hafter ⟨c, rfl, hc⟩ ⟨d, ?_, hd⟩
  rw [← List.cons_append, List.getLast?_append]
  rfl

theorem reads_list {ts : List (List Char)} {xs : List Json.Value} (h : List.Forall₂ IsText ts xs) :
    Reads (listText ts) (.ok (ofItems xs [])) :=
  reads_of_isText (by rfl) (by rfl) (Json.isText_list h)

theorem reads_object {parts : List (List Char × List Char)} {fs : List (Points × Json.Value)}
    (h : List.Forall₂ IsField parts fs) : Reads (objectText parts) (ofJson (.object (ofFields fs))) :=
  reads_of_isText (by rfl) (by rfl) (Json.isText_object h)

/-! ## What is accounted for -/

/-- An object whose hash is a whole number or a text that holds one. -/
def hasHash : Json.Value → Bool
  | .object fields =>
    match fieldOrNull "hashCode" fields with
    | .int _ => true
    | .text s => (intOfText? s).isSome
    | _ => false
  | _ => false

/-- The payload of the items `xs` with the texts `ts`, as a bare list and as a document. -/
structure Accounts (ts : List (List Char)) (xs : List Json.Value) (p : Payload) : Prop where
  bare : Reads (listText ts) (.ok p)
  withoutErrors : ∀ {nodes : List Char}, IsText nodes (.text "nodes") →
    Reads (objectText [(nodes, listText ts)]) (.ok p)
  document : ∀ {nodes errors empty : List Char}, IsText nodes (.text "nodes") → IsText errors (.text "errors") →
    IsText empty (.list []) → Reads (objectText [(nodes, listText ts), (errors, empty)]) (.ok p)
  /-- One node for each item with a usable hash, in order. -/
  nodes : List.Forall₂ (fun x n => ∃ fields, x = .object fields ∧ Node.ofFields? fields = some n)
    (xs.filter hasHash) p.nodes
  errors : p.errors = []
  counted : p.nodes.length + p.skipped = xs.length

theorem isSome_nodeOf? (x : Json.Value) : (nodeOf? x).isSome = hasHash x := by
  cases x with
  | object fields =>
    rw [nodeOf?, Node.ofFields?, Option.isSome_map, hasHash]
    dsimp only
    generalize fieldOrNull "hashCode" fields = v
    cases v <;> rfl
  | _ => rfl

theorem forall₂_filterMap (xs : List Json.Value) :
    List.Forall₂ (fun x n => ∃ fields, x = .object fields ∧ Node.ofFields? fields = some n)
      (xs.filter hasHash) (xs.filterMap nodeOf?) := by
  induction xs with
  | nil => exact .nil
  | cons x xs ih =>
    have hsome := isSome_nodeOf? x
    cases hn : nodeOf? x with
    | none =>
      rw [hn] at hsome
      rw [List.filterMap_cons_none hn, List.filter_cons_of_neg (by simp [← hsome])]
      exact ih
    | some n =>
      rw [hn] at hsome
      rw [List.filterMap_cons_some hn, List.filter_cons_of_pos hsome.symm]
      refine .cons ?_ ih
      cases x with
      | object fields => exact ⟨fields, rfl, hn⟩
      | _ => cases hn

theorem accounts_ofItems {ts : List (List Char)} {xs : List Json.Value} (h : List.Forall₂ IsText ts xs) :
    Accounts ts xs (ofItems xs []) where
  bare := reads_list h
  withoutErrors hnodes := by
    have hfields : ofJson (.object (ofFields [("nodes", .list xs)])) = .ok (ofItems xs []) := rfl
    rw [← hfields]
    exact reads_object (.cons ⟨hnodes, Json.isText_list h⟩ .nil)
  document hnodes herrors hempty := by
    have hfields : ofJson (.object (ofFields [("nodes", .list xs), ("errors", .list [])])) =
        .ok (ofItems xs []) := rfl
    rw [← hfields]
    exact reads_object (.cons ⟨hnodes, Json.isText_list h⟩ (.cons ⟨herrors, hempty⟩ .nil))
  nodes := forall₂_filterMap xs
  errors := rfl
  counted := Nat.add_sub_cancel' (List.length_filterMap_le nodeOf? xs)

/-! ## Items put in -/

section

variable {α β : Type}

theorem forall₂_insertIdx {R : α → β → Prop} {a : α} {b : β} (hab : R a b) {as : List α} {bs : List β}
    (h : List.Forall₂ R as bs) (i : Nat) : List.Forall₂ R (as.insertIdx i a) (bs.insertIdx i b) := by
  induction i generalizing as bs with
  | zero => exact .cons hab h
  | succ i ih =>
    cases h with
    | nil => exact .nil
    | cons hfirst hrest => exact .cons hfirst (ih hrest)

theorem filterMap_insertIdx (f : α → Option β) (a : α) {as : List α} {i : Nat} (hi : i ≤ as.length) :
    (as.insertIdx i a).filterMap f = (as.take i).filterMap f ++ (f a).toList ++ (as.drop i).filterMap f := by
  induction i generalizing as with
  | zero =>
    rw [List.insertIdx_zero, List.take_zero, List.drop_zero, List.filterMap_nil, List.nil_append, List.filterMap_cons]
    cases f a <;> rfl
  | succ i ih =>
    cases as with
    | nil => cases hi
    | cons b as =>
      rw [List.insertIdx_succ_cons, List.take_succ_cons, List.drop_succ_cons, List.filterMap_cons,
        List.filterMap_cons, ih (Nat.le_of_succ_le_succ hi)]
      cases f b <;> rfl

end

section

variable {xs : List Json.Value} {i : Nat} (hi : i ≤ xs.length)

include hi

theorem ofItems_insertIdx_none {x : Json.Value} (hx : hasHash x = false) :
    ofItems (xs.insertIdx i x) [] = { ofItems xs [] with skipped := (ofItems xs []).skipped + 1 } := by
  have hnone : nodeOf? x = none := by
    have hsome := (isSome_nodeOf? x).trans hx
    rwa [Option.isSome_eq_false_iff, Option.isNone_iff_eq_none] at hsome
  have hnodes : (xs.insertIdx i x).filterMap nodeOf? = xs.filterMap nodeOf? := by
    rw [filterMap_insertIdx nodeOf? x hi, hnone, Option.toList_none, List.append_nil, ← List.filterMap_append,
      List.take_append_drop]
  have hlength := List.length_filterMap_le nodeOf? xs
  unfold ofItems
  rw [hnodes, List.length_insertIdx_of_le_length hi]
  dsimp only
  rw [Nat.sub_add_comm hlength]

theorem ofItems_insertIdx_congr {x y : Json.Value} (h : nodeOf? x = nodeOf? y) :
    ofItems (xs.insertIdx i x) [] = ofItems (xs.insertIdx i y) [] := by
  unfold ofItems
  rw [filterMap_insertIdx nodeOf? x hi, filterMap_insertIdx nodeOf? y hi, h, List.length_insertIdx_of_le_length hi,
    List.length_insertIdx_of_le_length hi]

end

/-! ## Single items -/

/-- A single object of properties is read like the list that holds it. -/
theorem nodeOf?_collapsed (before after : List (Points × Json.Value)) (o : List (Points × Json.Value)) :
    nodeOf? (.object (ofFields (before ++ (Points.ofString "properties", .object o) :: after))) =
      nodeOf? (.object (ofFields (before ++ (Points.ofString "properties", .list [.object o]) :: after))) := by
  refine Node.Alike.ofFields?_eq fun key => ?_
  have hreplace := Json.Value.fieldOrNull_replace key "properties" (.object o) (.list [.object o]) before after
  rcases hreplace with h | ⟨rfl, hv, hw⟩
  · rw [h]
    exact .refl _ _
  · rw [hv, hw]
    exact .of_properties rfl

/-- A single item or error is read like the list that holds it. -/
theorem ofJson_collapsed {key : Points} (hkey : key ∈ (["nodes", "errors"] : List Points)) {x : Json.Value} (hnull : x ≠ .null)
    (hlist : ∀ ys, x ≠ .list ys) (before after : List (Points × Json.Value)) :
    ofJson (.object (ofFields (before ++ (key, x) :: after))) =
      ofJson (.object (ofFields (before ++ (key, .list [x]) :: after))) := by
  have hitems : items x = [x] := by
    unfold items
    split
    · exact absurd rfl hnull
    · exact absurd rfl (hlist _)
    · rfl
  have hreplace := fun k => Json.Value.fieldOrNull_replace k key x (.list [x]) before after
  generalize ofFields (before ++ (key, x) :: after) = fs at hreplace ⊢
  generalize ofFields (before ++ (key, .list [x]) :: after) = gs at hreplace ⊢
  -- what is no list of items is under another key
  have hother : ∀ k, k ∉ (["nodes", "errors"] : List Points) → fieldOrNull k fs = fieldOrNull k gs := by
    intro k hk
    rcases hreplace k with h | ⟨rfl, -⟩
    · exact h
    · exact absurd hkey hk
  have hsame : ∀ k, items (fieldOrNull k fs) = items (fieldOrNull k gs) := by
    intro k
    rcases hreplace k with h | ⟨-, hv, hw⟩
    · rw [h]
    · rw [hv, hw, hitems]
      rfl
  unfold ofJson
  dsimp only
  rw [hother "error" (by decide), hsame "nodes", hsame "errors", reportMessage, reportMessage,
    hother "message" (by decide), hother "type" (by decide)]

/-- In every document the value under the key is read like the list of it. -/
def Collapses (key : Points) (x : Json.Value) : Prop :=
  ∀ {before after : List (List Char × List Char)} {fs gs : List (Points × Json.Value)} {k t : List Char},
    List.Forall₂ IsField before fs → List.Forall₂ IsField after gs → IsText k (.text key) → IsText t x →
    ∃ r, Reads (objectText (before ++ (k, t) :: after)) r ∧
      Reads (objectText (before ++ (k, listText [t]) :: after)) r

theorem collapses {key : Points} (hkey : key ∈ (["nodes", "errors"] : List Points)) {x : Json.Value} (hnull : x ≠ .null)
    (hlist : ∀ ys, x ≠ .list ys) : Collapses key x := by
  intro before after fs gs k t hbefore hafter hk ht
  have hfield : IsField (k, t) (key, x) := ⟨hk, ht⟩
  have hlistField : IsField (k, listText [t]) (key, .list [x]) := ⟨hk, Json.isText_list (.cons ht .nil)⟩
  have hbare := reads_object (List.rel_append hbefore (.cons hfield hafter))
  have hlisted := reads_object (List.rel_append hbefore (.cons hlistField hafter))
  rw [ofJson_collapsed hkey hnull hlist] at hbare
  exact ⟨_, hbare, hlisted⟩

/-- An item that is no node, and properties without their list, wherever the item stands. -/
structure Stable (ts : List (List Char)) (xs : List Json.Value) (p : Payload) : Prop where
  inserted : ∀ i ≤ xs.length, ∀ {t : List Char} {x : Json.Value}, IsText t x → hasHash x = false →
    ∃ q, Accounts (ts.insertIdx i t) (xs.insertIdx i x) q ∧ q.nodes = p.nodes ∧ q.errors = p.errors ∧
      q.skipped = p.skipped + 1 ∧ Forest.build q.nodes = Forest.build p.nodes
  properties : ∀ i ≤ xs.length, ∀ {before after : List (List Char × List Char)}
    {fs gs o : List (Points × Json.Value)} {k t : List Char},
    List.Forall₂ IsField before fs → List.Forall₂ IsField after gs → IsText k (.text "properties") →
    IsText t (.object o) →
    ∃ q, Accounts (ts.insertIdx i (objectText (before ++ (k, t) :: after)))
        (xs.insertIdx i (.object (ofFields (fs ++ (Points.ofString "properties", .object o) :: gs)))) q ∧
      Accounts (ts.insertIdx i (objectText (before ++ (k, listText [t]) :: after)))
        (xs.insertIdx i (.object (ofFields (fs ++ (Points.ofString "properties", .list [.object o]) :: gs)))) q

theorem stable_ofItems {ts : List (List Char)} {xs : List Json.Value} (h : List.Forall₂ IsText ts xs) :
    Stable ts xs (ofItems xs []) := by
  constructor
  · intro i hi t x ht hx
    have haccounts := accounts_ofItems (forall₂_insertIdx ht h i)
    rw [ofItems_insertIdx_none hi hx] at haccounts
    exact ⟨_, haccounts, rfl, rfl, rfl, rfl⟩
  · intro i hi before after fs gs o k t hbefore hafter hk ht
    have hfield : IsField (k, t) ("properties", .object o) := ⟨hk, ht⟩
    have hlistField : IsField (k, listText [t]) ("properties", .list [.object o]) :=
      ⟨hk, Json.isText_list (.cons ht .nil)⟩
    have hbare := Json.isText_object (List.rel_append hbefore (.cons hfield hafter))
    have hlisted := Json.isText_object (List.rel_append hbefore (.cons hlistField hafter))
    have haccounts := accounts_ofItems (forall₂_insertIdx hbare h i)
    rw [ofItems_insertIdx_congr hi (nodeOf?_collapsed fs gs o)] at haccounts
    exact ⟨_, haccounts, accounts_ofItems (forall₂_insertIdx hlisted h i)⟩

/-- The output accounts for every item in each of its forms. -/
theorem items_accounted {ts : List (List Char)} {xs : List Json.Value} (h : List.Forall₂ IsText ts xs) :
    (∃ p, Accounts ts xs p ∧ Stable ts xs p) ∧
      ∀ x : Json.Value, x ≠ .null → (∀ ys, x ≠ .list ys) → Collapses "nodes" x ∧ Collapses "errors" x :=
  ⟨⟨_, accounts_ofItems h, stable_ofItems h⟩, fun _ hnull hlist =>
    ⟨collapses (by decide) hnull hlist, collapses (by decide) hnull hlist⟩⟩

/-- One item with a hash, as a text and with a single property, among three that are no nodes. -/
theorem items_accounted_mixed :
    let ts := ["\x7b\"hashCode\": \" 7\", \"properties\": \x7b\"Name\": \"n\"\x7d\x7d".toList, " null".toList,
      "\x7b\"type\": []\x7d ".toList, "true".toList]
    let xs : List Json.Value :=
      [.object [("hashCode", .text " 7"), ("properties", .object [("Name", .text "n")])], .null,
        .object [("type", .list [])], .bool true]
    List.Forall₂ IsText ts xs ∧
      (∃ p, Accounts ts xs p ∧ Stable ts xs p ∧ p.nodes.map Node.hash = [7] ∧ p.skipped = 3) ∧
      Collapses "errors" (.bool true) := by
  intro ts xs
  have htexts : List.Forall₂ IsText ts xs := by
    refine .cons ?_ (.cons ?_ (.cons ?_ (.cons ?_ .nil)))
    all_goals
      unfold IsText
      cbv
  have hfilter : xs.filter hasHash = xs.take 1 := by cbv
  obtain ⟨⟨p, haccounts, hstable⟩, hcollapses⟩ := items_accounted htexts
  refine ⟨htexts, ⟨p, haccounts, hstable, ?_⟩,
    (hcollapses (.bool true) (by intro h; cases h) (by intro ys h; cases h)).2⟩
  have hnodes := haccounts.nodes
  have hcounted := haccounts.counted
  rw [hfilter] at hnodes
  generalize p.nodes = nodes at hnodes hcounted ⊢
  cases hnodes with
  | @cons _ n _ _ hnode hrest =>
    cases hrest
    obtain ⟨fields, hfields, hread⟩ := hnode
    cases hfields
    unfold Node.ofFields? at hread
    obtain ⟨hash, hhash, rfl⟩ := Option.map_eq_some_iff.1 hread
    have hseven : intOfText? " 7" = some 7 := by cbv
    cases hhash.symm.trans hseven
    have hlength : 1 + p.skipped = 4 := hcounted
    exact ⟨rfl, by omega⟩

end ScriptTree.Analysis.Payload
