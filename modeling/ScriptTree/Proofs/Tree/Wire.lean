/-
Nodes and trees as JSON. A node that was read is read back from its object, whatever fields come behind its
own (`ofFields?_toFields`), and its object can be written without loss. The objects of a tree, each before
those of its children, are those of its nodes from the top (`preorderAll_toJsonAll`).
-/
import ScriptTree.Analysis.Payload
import ScriptTree.Proofs.Json.Bounds
import ScriptTree.Proofs.Json.RoundTrip
import ScriptTree.Proofs.Tree.Preorder

namespace ScriptTree

open Integer (IsShort)
open Json (Bounded Plain)

/-! ## Nodes -/

namespace NodeProperty

theorem ofJson?_named {v : Json.Value} {p : NodeProperty} (h : ofJson? v = some p) : p.name.isEmpty = false := by
  unfold ofJson? at h
  split at h
  · dsimp only at h
    split at h <;> cases h
    exact Bool.eq_false_iff.2 ‹_›
  · cases h

theorem ofJson?_toJson {p : NodeProperty} (h : p.name.isEmpty = false) : ofJson? p.toJson = some p := by
  have hname : (Json.Value.fieldOrNull "Name"
      [("Name", .text p.name), ("Value", .text p.value), ("TypeName", .text p.typeName)]).toText = p.name := rfl
  unfold toJson ofJson?
  dsimp only
  rw [hname, h]
  rfl

theorem toJson_plain (p : NodeProperty) : Plain p.toJson := by
  refine .object (by simp) ?_
  simp only [List.forall_mem_cons]
  exact ⟨.text _, .text _, .text _, nofun⟩

end NodeProperty

namespace Node

/-- The numbers of the node are short, and its properties have names. -/
structure Sound (n : Node) : Prop where
  hash : IsShort n.hash
  parent : ∀ p, n.parent = some p → IsShort p
  startLine : IsShort n.startLine
  startColumn : IsShort n.startColumn
  endLine : IsShort n.endLine
  endColumn : IsShort n.endColumn
  textLength : IsShort n.textLength
  names : ∀ p ∈ n.properties, p.name.isEmpty = false

/-- A node that is read is sound. -/
theorem ofFields?_sound {fields : List (Points × Json.Value)} (h : ∀ f ∈ fields, Bounded f.2) {n : Node}
    (hn : ofFields? fields = some n) : n.Sound := by
  have hget := Bounded.fieldOrNull h
  unfold ofFields? at hn
  obtain ⟨hash, hhash, rfl⟩ := Option.map_eq_some_iff.1 hn
  exact
    { hash := (hget "hashCode").toInt?_short hhash
      parent := fun p hp => (hget "parentHashCode").toInt?_short hp
      startLine := (hget "StartLineNumber").toInt_short
      startColumn := (hget "StartColumnNumber").toInt_short
      endLine := (hget "EndLineNumber").toInt_short
      endColumn := (hget "EndColumnNumber").toInt_short
      textLength := (hget "textLength").toInt_short
      names := by
        intro p hp
        obtain ⟨v, -, hv⟩ := List.mem_filterMap.1 hp
        exact NodeProperty.ofJson?_named hv }

/-- Cutting the texts leaves a node sound. -/
theorem Sound.capped {n : Node} (h : n.Sound) : n.capped.Sound :=
  { h with
    names := by
      intro p hp
      obtain ⟨q, hq, rfl⟩ := List.mem_map.1 hp
      exact h.names q hq }

/-- A sound node is read back from its fields, whatever comes behind them. -/
theorem ofFields?_toFields {n : Node} (h : n.Sound) (more : List (Points × Json.Value)) :
    ofFields? (n.toFields ++ more) = some n := by
  have hproperties : (n.properties.map NodeProperty.toJson).filterMap NodeProperty.ofJson? = n.properties := by
    rw [List.filterMap_map]
    exact (List.filterMap_congr fun p hp => NodeProperty.ofJson?_toJson (h.names p hp)).trans List.filterMap_some
  obtain ⟨hash, parent, kind, text, extent, startLine, startColumn, endLine, endColumn, textLength, properties,
    id⟩ := n
  cases parent <;>
    simp [ofFields?, toFields, Json.Value.fieldOrNull, Json.Value.field?, Json.Value.toInt?, Json.Value.toInt,
      Json.Value.toText, propertyItems, hproperties]

theorem toFields_plain {n : Node} (h : n.Sound) : ∀ f ∈ n.toFields, Plain f.2 := by
  have hproperties : Plain (.list (n.properties.map NodeProperty.toJson)) := by
    refine .list fun v hv => ?_
    obtain ⟨p, -, rfl⟩ := List.mem_map.1 hv
    exact p.toJson_plain
  unfold toFields
  simp only [List.forall_mem_cons]
  refine ⟨.text _, .int h.hash, ?_, .text _, .text _, .text _, .int h.startLine, .int h.startColumn,
    .int h.endLine, .int h.endColumn, .int h.textLength, hproperties, nofun⟩
  split
  · exact .int (h.parent _ ‹_›)
  · exact .null

end Node

/-! ## Trees -/

namespace Json

mutual

/-- An object and those of its children from the top. -/
def preorder : Value → List Value
  | .object fields => .object fields :: preorderBelow fields
  | v => [v]

/-- The objects of the children that some fields hold, from the top. -/
def preorderBelow : List (Points × Value) → List Value
  | [] => []
  | (k, v) :: fields => if k = "children" then preorderList v else preorderBelow fields

/-- The objects of a list from the top. -/
def preorderList : Value → List Value
  | .list vs => preorderAll vs
  | _ => []

/-- The objects of some values, one after the other. -/
def preorderAll : List Value → List Value
  | [] => []
  | v :: vs => preorder v ++ preorderAll vs

end

end Json

namespace Tree

theorem preorder_node (n : Node) (d : Nat) (ts : List Tree) :
    Json.preorder (toJson (.node n d ts)) = toJson (.node n d ts) :: Json.preorderAll (toJsonAll ts) := by
  rw [toJson, Json.preorder]
  simp [Node.toFields, Json.preorderBelow, Json.preorderList]

/-- The objects of some trees are those of their nodes, in the same order. -/
theorem preorderAll_toJsonAll : ∀ ts : List Tree,
    Json.preorderAll (toJsonAll ts) = (preorderAll ts).map toJson := by
  refine inductionAll (P := fun t => Json.preorder (toJson t) = (preorder t).map toJson) ?_ rfl ?_
  · intro n d ts ih
    rw [preorder_node, ih, preorder, List.map_cons]
  · intro t ts ht ih
    rw [toJsonAll, Json.preorderAll, preorderAll, List.map_append, ht, ih]

theorem nodeOf?_toJson {t : Tree} (h : t.value.Sound) : Analysis.Payload.nodeOf? t.toJson = some t.value := by
  obtain ⟨n, d, ts⟩ := t
  rw [toJson]
  exact Node.ofFields?_toFields h _

theorem toJsonAll_plain : ∀ ts : List Tree,
    (∀ s ∈ preorderAll ts, s.value.Sound) → ∀ v ∈ toJsonAll ts, Plain v := by
  refine inductionAll (P := fun t => (∀ s ∈ preorder t, s.value.Sound) → Plain (toJson t)) ?_ ?_ ?_
  · intro n d ts ih h
    rw [preorder, List.forall_mem_cons] at h
    rw [toJson]
    refine .object (by simp [Node.toFields]) (List.forall_mem_append.2 ⟨Node.toFields_plain h.1, ?_⟩)
    exact List.forall_mem_singleton.2 (.list (ih h.2))
  · exact fun _ => List.forall_mem_nil Plain
  · intro t ts ht ih h
    rw [preorderAll, List.forall_mem_append] at h
    rw [toJsonAll]
    exact List.forall_mem_cons.2 ⟨ht h.1, ih h.2⟩

end Tree

namespace SyntaxError

/-- The places of the error are short. -/
structure Sound (e : SyntaxError) : Prop where
  startLine : IsShort e.startLine
  startColumn : IsShort e.startColumn
  endLine : IsShort e.endLine
  endColumn : IsShort e.endColumn

theorem ofJson?_sound {v : Json.Value} (hv : Bounded v) {e : SyntaxError} (h : ofJson? v = some e) :
    e.Sound := by
  unfold ofJson? at h
  split at h
  · cases h
    cases hv with
    | object hfields =>
      have hget := Bounded.fieldOrNull hfields
      exact ⟨(hget _).toInt_short, (hget _).toInt_short, (hget _).toInt_short, (hget _).toInt_short⟩
  · cases h

theorem toJson_plain {e : SyntaxError} (h : e.Sound) : Plain e.toJson := by
  refine .object (by simp) ?_
  simp only [List.forall_mem_cons]
  exact ⟨.text _, .int h.startLine, .int h.startColumn, .int h.endLine, .int h.endColumn, nofun⟩

end SyntaxError

namespace Analysis.Payload

theorem items_bounded {v : Json.Value} (h : Bounded v) : ∀ x ∈ items v, Bounded x := by
  unfold items
  split
  · nofun
  · cases h
    assumption
  · exact List.forall_mem_singleton.2 h

theorem nodeOf?_sound {v : Json.Value} (hv : Bounded v) {n : Node} (h : nodeOf? v = some n) : n.Sound := by
  unfold nodeOf? at h
  split at h
  · cases hv with
    | object hfields => exact Node.ofFields?_sound hfields h
  · cases h

theorem ofItems_sound {nodes errors : List Json.Value} (hnodes : ∀ v ∈ nodes, Bounded v)
    (herrors : ∀ v ∈ errors, Bounded v) :
    (∀ n ∈ (ofItems nodes errors).nodes, n.Sound) ∧ ∀ e ∈ (ofItems nodes errors).errors, e.Sound := by
  constructor
  · intro n hn
    obtain ⟨v, hv, hn⟩ := List.mem_filterMap.1 hn
    exact nodeOf?_sound (hnodes v hv) hn
  · intro e he
    obtain ⟨v, hv, he⟩ := List.mem_filterMap.1 he
    exact SyntaxError.ofJson?_sound (herrors v hv) he

/-- The nodes and the errors of an output that is read are sound. -/
theorem read_sound {raw : String} {p : Payload} (h : read raw = .ok p) :
    (∀ n ∈ p.nodes, n.Sound) ∧ ∀ e ∈ p.errors, e.Sound := by
  unfold read at h
  dsimp only at h
  split at h
  · cases h
  · split at h
    · cases h
    · cases h
    · rename_i v hread
      have hv := Json.bounded_of_readChars hread
      unfold ofJson at h
      split at h
      · cases h
        cases hv with
        | list hnodes => exact ofItems_sound hnodes (List.forall_mem_nil _)
      · split at h <;> cases h
        cases hv with
        | object hfields =>
          exact ofItems_sound (items_bounded (Bounded.fieldOrNull hfields _))
            (items_bounded (Bounded.fieldOrNull hfields _))
      · cases h

end Analysis.Payload
end ScriptTree
