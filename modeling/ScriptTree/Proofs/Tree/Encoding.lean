/-
The many encodings of a node. What is read from an object depends on the numbers, texts and properties that are
read under its keys and on nothing else (`Alike.ofFields?_eq`). So a sound node is read back from its object after
any number of edits that keep what is meant (`ofFields?_of_recodes`): numbers as texts, nothing in place of what is
empty, a single property without its list, and whatever else under keys that are not the node's.
-/
import ScriptTree.Proofs.Json.Compose
import ScriptTree.Proofs.Number.Decimal
import ScriptTree.Proofs.Tree.Wire

namespace ScriptTree

open Integer (IsShort)

namespace Json.Value

/-- Null, a truth value, a number or a text. -/
def IsScalar : Value → Prop
  | .list _ | .object _ => False
  | _ => True

/-- The fields without those under a key. -/
def erase (key : Points) (fields : List (Points × Value)) : List (Points × Value) :=
  fields.filter fun f => f.1 != key

theorem field?_erase (key k : Points) (fields : List (Points × Value)) :
    field? key (erase k fields) = if k = key then none else field? key fields := by
  induction fields with
  | nil => split <;> rfl
  | cons f fields ih =>
    obtain ⟨k', v⟩ := f
    unfold erase at ih ⊢
    by_cases hk : k' = k
    · rw [List.filter_cons_of_neg (by simp [hk]), ih, field?, hk]
      split <;> rfl
    · rw [List.filter_cons_of_pos (by simp [hk]), field?, ih, field?]
      split
      · rename_i heq
        rw [if_neg fun h => hk (heq.trans h.symm)]
      · rfl

theorem fieldOrNull_erase (key k : Points) (fields : List (Points × Value)) :
    fieldOrNull key (erase k fields) = if k = key then .null else fieldOrNull key fields := by
  rw [fieldOrNull, field?_erase]
  split <;> rfl

theorem fieldOrNull_of_field? {key : Points} {v : Value} {fields : List (Points × Value)}
    (h : field? key fields = some v) : fieldOrNull key fields = v := by
  rw [fieldOrNull, h]
  rfl

end Json.Value

open Json.Value (field? fieldOrNull insert erase fieldOrNull_insert fieldOrNull_erase fieldOrNull_of_field?)

/-! ## Properties -/

namespace NodeProperty

/-- The keys of a property whose text may be empty. -/
def textKeys : List Points := ["Value", "TypeName"]

/-- An edit of a property's fields that keeps what is meant. -/
inductive Recodes (fields : List (Points × Json.Value)) : List (Points × Json.Value) → Prop
  | emptyText {key : Points} : key ∈ textKeys → field? key fields = some (.text "") →
      Recodes fields (insert key .null fields)
  | leftOut {key : Points} : key ∈ textKeys → field? key fields = some .null →
      Recodes fields (erase key fields)
  | unknown {key : Points} (v : Json.Value) : key ≠ "Name" → key ∉ textKeys →
      Recodes fields (insert key v fields)

theorem ofJson?_congr {fs gs : List (Points × Json.Value)}
    (h : ∀ key : Points, key = "Name" ∨ key ∈ textKeys → (fieldOrNull key fs).toText = (fieldOrNull key gs).toText) :
    ofJson? (.object fs) = ofJson? (.object gs) := by
  unfold ofJson?
  dsimp only
  rw [h "Name" (.inl rfl), h "Value" (.inr (by decide)), h "TypeName" (.inr (by decide))]

theorem ofJson?_of_recodes {fs gs : List (Points × Json.Value)} (h : Recodes fs gs) :
    ofJson? (.object fs) = ofJson? (.object gs) := by
  refine ofJson?_congr fun key hkey => ?_
  cases h with
  | @emptyText k hk hempty =>
    rw [fieldOrNull_insert]
    split
    · rename_i heq
      subst heq
      rw [fieldOrNull_of_field? hempty]
      rfl
    · rfl
  | @leftOut k hk hnull =>
    rw [fieldOrNull_erase]
    split
    · rename_i heq
      subst heq
      rw [fieldOrNull_of_field? hnull]
    · rfl
  | @unknown k v hname htext =>
    rw [fieldOrNull_insert, if_neg]
    rintro rfl
    exact hkey.elim hname htext

end NodeProperty

/-- What may stand in a list of properties and is none: null, a scalar, or an object without a name. -/
inductive Nameless : Json.Value → Prop
  | scalar {v : Json.Value} : v.IsScalar → Nameless v
  | object {fields : List (Points × Json.Value)} :
      fieldOrNull "Name" fields = .null ∨ fieldOrNull "Name" fields = .text "" → Nameless (.object fields)

theorem Nameless.ofJson?_eq {v : Json.Value} (h : Nameless v) : NodeProperty.ofJson? v = none := by
  cases h with
  | scalar hv =>
    unfold NodeProperty.ofJson?
    split
    · exact hv.elim
    · rfl
  | @object fields hname =>
    have hempty : ((fieldOrNull "Name" fields).toText).isEmpty = true := by
      rcases hname with hname | hname <;> rw [hname] <;> rfl
    exact if_pos hempty

/-! ## What is read from an object -/

namespace Node

/-- The keys of a node's references to nodes. -/
def referenceKeys : List Points := ["hashCode", "parentHashCode"]

/-- The keys of a node's positions and its length. -/
def placeKeys : List Points :=
  ["StartLineNumber", "StartColumnNumber", "EndLineNumber", "EndColumnNumber", "textLength"]

/-- The keys of a node's texts. -/
def textKeys : List Points := ["id", "type", "text", "extentString"]

/-- The keys of a node. -/
def keys : List Points := "properties" :: (referenceKeys ++ placeKeys ++ textKeys)

/-- The properties that are read from a value. -/
def propertiesOf (v : Json.Value) : List NodeProperty :=
  (propertyItems v).filterMap NodeProperty.ofJson?

/-- Under the key two values are read alike. -/
structure SameUnder (key : Points) (v w : Json.Value) : Prop where
  reference : key ∈ referenceKeys → v.toInt? = w.toInt?
  place : key ∈ placeKeys → v.toInt = w.toInt
  text : key ∈ textKeys → v.toText = w.toText
  properties : key = "properties" → propertiesOf v = propertiesOf w

theorem SameUnder.refl (key : Points) (v : Json.Value) : SameUnder key v v :=
  ⟨fun _ => rfl, fun _ => rfl, fun _ => rfl, fun _ => rfl⟩

theorem SameUnder.of_unknown {key : Points} (h : key ∉ keys) (v w : Json.Value) : SameUnder key v w := by
  unfold keys at h
  simp only [List.mem_cons, List.mem_append, not_or] at h
  exact ⟨fun hin => absurd hin h.2.1.1, fun hin => absurd hin h.2.1.2, fun hin => absurd hin h.2.2,
    fun heq => absurd heq h.1⟩

section

variable {key : Points} {v w : Json.Value}

theorem SameUnder.of_reference (hkey : key ∈ referenceKeys) (h : v.toInt? = w.toInt?) : SameUnder key v w := by
  have hother : ∀ k ∈ referenceKeys, k ∉ placeKeys ∧ k ∉ textKeys ∧ k ≠ "properties" := by decide
  obtain ⟨hplace, htext, hproperties⟩ := hother key hkey
  exact ⟨fun _ => h, fun hin => absurd hin hplace, fun hin => absurd hin htext, fun heq => absurd heq hproperties⟩

theorem SameUnder.of_place (hkey : key ∈ placeKeys) (h : v.toInt = w.toInt) : SameUnder key v w := by
  have hother : ∀ k ∈ placeKeys, k ∉ referenceKeys ∧ k ∉ textKeys ∧ k ≠ "properties" := by decide
  obtain ⟨hreference, htext, hproperties⟩ := hother key hkey
  exact ⟨fun hin => absurd hin hreference, fun _ => h, fun hin => absurd hin htext,
    fun heq => absurd heq hproperties⟩

theorem SameUnder.of_text (hkey : key ∈ textKeys) (h : v.toText = w.toText) : SameUnder key v w := by
  have hother : ∀ k ∈ textKeys, k ∉ referenceKeys ∧ k ∉ placeKeys ∧ k ≠ "properties" := by decide
  obtain ⟨hreference, hplace, hproperties⟩ := hother key hkey
  exact ⟨fun hin => absurd hin hreference, fun hin => absurd hin hplace, fun _ => h,
    fun heq => absurd heq hproperties⟩

theorem SameUnder.of_properties (h : propertiesOf v = propertiesOf w) : SameUnder "properties" v w :=
  ⟨fun hin => absurd hin (by decide), fun hin => absurd hin (by decide), fun hin => absurd hin (by decide),
    fun _ => h⟩

end

/-- Two objects are read alike under every key. -/
def Alike (fs gs : List (Points × Json.Value)) : Prop :=
  ∀ key, SameUnder key (fieldOrNull key fs) (fieldOrNull key gs)

theorem Alike.ofFields?_eq {fs gs : List (Points × Json.Value)} (h : Alike fs gs) : ofFields? fs = ofFields? gs := by
  have hreference : ∀ key ∈ referenceKeys, (fieldOrNull key fs).toInt? = (fieldOrNull key gs).toInt? :=
    fun key => (h key).reference
  have hplace : ∀ key ∈ placeKeys, (fieldOrNull key fs).toInt = (fieldOrNull key gs).toInt :=
    fun key => (h key).place
  have htext : ∀ key ∈ textKeys, (fieldOrNull key fs).toText = (fieldOrNull key gs).toText :=
    fun key => (h key).text
  have hproperties : propertiesOf (fieldOrNull "properties" fs) = propertiesOf (fieldOrNull "properties" gs) :=
    (h "properties").properties rfl
  simp only [referenceKeys, placeKeys, textKeys, List.forall_mem_cons] at hreference hplace htext
  unfold propertiesOf at hproperties
  simp only [ofFields?, hreference, hplace, htext, hproperties]

theorem alike_insert {key : Points} {v : Json.Value} {fields : List (Points × Json.Value)}
    (h : SameUnder key (fieldOrNull key fields) v) : Alike fields (insert key v fields) := by
  intro k
  rw [fieldOrNull_insert]
  split
  · rename_i heq
    subst heq
    exact h
  · exact .refl _ _

theorem alike_erase {key : Points} {fields : List (Points × Json.Value)}
    (h : fieldOrNull key fields = .null) : Alike fields (erase key fields) := by
  intro k
  rw [fieldOrNull_erase]
  split
  · rename_i heq
    subst heq
    rw [h]
    exact .refl _ _
  · exact .refl _ _

/-! ## Edits -/

/-- An edit of a node's fields that keeps what is meant. -/
inductive Recodes (fields : List (Points × Json.Value)) : List (Points × Json.Value) → Prop
  | integer {key : Points} {i : Int} {before after : List Char} : key ∈ referenceKeys ++ placeKeys →
      field? key fields = some (.int i) →
      (∀ c ∈ before, Text.isBlank c = true) → (∀ c ∈ after, Text.isBlank c = true) →
      Recodes fields (insert key (.text (String.ofList (before ++ (Integer.text i).toList ++ after))) fields)
  | emptyText {key : Points} : key ∈ textKeys → field? key fields = some (.text "") →
      Recodes fields (insert key .null fields)
  | zero {key : Points} : key ∈ placeKeys → field? key fields = some (.int 0) →
      Recodes fields (insert key .null fields)
  | emptyParent : field? "parentHashCode" fields = some .null →
      Recodes fields (insert "parentHashCode" (.text "") fields)
  | leftOut {key : Points} : key ∈ keys → field? key fields = some .null → Recodes fields (erase key fields)
  | collapsed {o : List (Points × Json.Value)} : field? "properties" fields = some (.list [.object o]) →
      Recodes fields (insert "properties" (.object o) fields)
  | noProperties {v : Json.Value} : field? "properties" fields = some (.list []) → v.IsScalar →
      Recodes fields (insert "properties" v fields)
  | entry {front back : List Json.Value} {v : Json.Value} :
      field? "properties" fields = some (.list (front ++ back)) → Nameless v →
      Recodes fields (insert "properties" (.list (front ++ v :: back)) fields)
  | property {front back : List Json.Value} {o o' : List (Points × Json.Value)} :
      field? "properties" fields = some (.list (front ++ .object o :: back)) → NodeProperty.Recodes o o' →
      Recodes fields (insert "properties" (.list (front ++ .object o' :: back)) fields)
  | unknown {key : Points} (v : Json.Value) : key ∉ keys → Recodes fields (insert key v fields)

/-- The whole numbers of a node's fields have no more digits than are read. -/
def Short (fields : List (Points × Json.Value)) : Prop :=
  ∀ key ∈ referenceKeys ++ placeKeys, ∀ i, field? key fields = some (.int i) → IsShort i

theorem short_insert {fields : List (Points × Json.Value)} (h : Short fields) {key : Points} {v : Json.Value}
    (hv : key ∈ referenceKeys ++ placeKeys → ∀ i, v ≠ .int i) : Short (insert key v fields) := by
  intro k hk i hi
  rw [Json.Value.field?_insert] at hi
  split at hi
  · rename_i heq
    subst heq
    exact absurd (Option.some.inj hi) (hv hk i)
  · exact h k hk i hi

theorem short_of_recodes {fs gs : List (Points × Json.Value)} (hshort : Short fs) (h : Recodes fs gs) :
    Short gs := by
  have hproperties : Points.ofString "properties" ∉ referenceKeys ++ placeKeys := by decide
  cases h with
  | integer | emptyText | zero | emptyParent => exact short_insert hshort fun _ => nofun
  | collapsed | noProperties | entry | property => exact short_insert hshort fun hin => absurd hin hproperties
  | unknown v hkey =>
    refine short_insert hshort fun hin => absurd ?_ hkey
    exact List.mem_cons_of_mem _ (List.mem_append_left _ hin)
  | leftOut =>
    intro k hk i hi
    rw [Json.Value.field?_erase] at hi
    split at hi
    · cases hi
    · exact hshort k hk i hi

/-- An edit changes nothing that is read. -/
theorem alike_of_recodes {fs gs : List (Points × Json.Value)} (hshort : Short fs) (h : Recodes fs gs) :
    Alike fs gs := by
  cases h with
  | @integer key i before after hkey hi hbefore hafter =>
    have hread := Json.Value.intOfText?_padded (hshort key hkey i hi) hbefore hafter
    refine alike_insert ?_
    rw [fieldOrNull_of_field? hi]
    rcases List.mem_append.1 hkey with hkey | hkey
    · exact .of_reference hkey hread.symm
    · refine .of_place hkey ?_
      rw [Json.Value.toInt, Json.Value.toInt, hread]
      rfl
  | @emptyText key hkey hempty =>
    refine alike_insert ?_
    rw [fieldOrNull_of_field? hempty]
    exact .of_text hkey rfl
  | @zero key hkey hzero =>
    refine alike_insert ?_
    rw [fieldOrNull_of_field? hzero]
    exact .of_place hkey rfl
  | emptyParent hnull =>
    refine alike_insert ?_
    rw [fieldOrNull_of_field? hnull]
    have hblank : Json.Value.intOfText? "" = none := Json.Value.intOfText?_blank rfl
    refine .of_reference (by decide) ?_
    exact hblank.symm
  | leftOut _ hnull => exact alike_erase (fieldOrNull_of_field? hnull)
  | collapsed hone =>
    refine alike_insert ?_
    rw [fieldOrNull_of_field? hone]
    exact .of_properties rfl
  | @noProperties v hnone hv =>
    refine alike_insert ?_
    rw [fieldOrNull_of_field? hnone]
    refine .of_properties ?_
    cases v with
    | list xs => exact hv.elim
    | object o => exact hv.elim
    | _ => rfl
  | entry hlist hv =>
    refine alike_insert ?_
    rw [fieldOrNull_of_field? hlist]
    refine .of_properties ?_
    simp [propertiesOf, propertyItems, hv.ofJson?_eq]
  | property hlist ho =>
    refine alike_insert ?_
    rw [fieldOrNull_of_field? hlist]
    refine .of_properties ?_
    simp [propertiesOf, propertyItems, List.filterMap_cons, NodeProperty.ofJson?_of_recodes ho]
  | unknown v hkey => exact alike_insert (.of_unknown hkey _ _)

theorem Sound.short {n : Node} (h : n.Sound) : Short n.toFields := by
  intro key hkey i hi
  simp only [referenceKeys, placeKeys, List.cons_append, List.nil_append, List.mem_cons, List.not_mem_nil,
    or_false] at hkey
  rcases hkey with rfl | rfl | rfl | rfl | rfl | rfl | rfl
  · cases hi
    exact h.hash
  · have hparent := h.parent
    obtain ⟨hash, _ | p, _⟩ := n
    · cases hi
    · cases hi
      exact hparent _ rfl
  · cases hi
    exact h.startLine
  · cases hi
    exact h.startColumn
  · cases hi
    exact h.endLine
  · cases hi
    exact h.endColumn
  · cases hi
    exact h.textLength

/-- A sound node is read back from its object after any number of edits. -/
theorem ofFields?_of_recodes {n : Node} (hn : n.Sound) {fields : List (Points × Json.Value)}
    (h : Relation.ReflTransGen Recodes n.toFields fields) : ofFields? fields = some n := by
  -- the numbers stay short under the edits, so that each of them is read back from its text
  have hkept : Short fields ∧ ofFields? fields = some n := by
    induction h with
    | refl =>
      have hread := ofFields?_toFields hn []
      rw [List.append_nil] at hread
      exact ⟨hn.short, hread⟩
    | tail _ hedit ih =>
      obtain ⟨hshort, hread⟩ := ih
      exact ⟨short_of_recodes hshort hedit, (alike_of_recodes hshort hedit).ofFields?_eq.symm.trans hread⟩
  exact hkept.2

/-- A node without parent and with a negative hash: the hash as a text between white space, an empty parent, no
kind, no first line, and its one property without list and value, beside a key of another program. -/
theorem ofFields?_of_recodes_sparse :
    let n : Node :=
      { hash := -120, parent := none, kind := "", text := "x", extent := "", startLine := 0, startColumn := 1
        endLine := 2, endColumn := 3, textLength := 1, properties := [⟨"Operator", "", "Kind"⟩], id := "" }
    let fields : List (Points × Json.Value) :=
      [("id", .text ""), ("hashCode", .text " -120\n"), ("parentHashCode", .text ""), ("text", .text "x"),
       ("extentString", .text ""), ("StartLineNumber", .null), ("StartColumnNumber", .int 1),
       ("EndLineNumber", .int 2), ("EndColumnNumber", .int 3), ("textLength", .int 1),
       ("properties", .object [("Name", .text "Operator"), ("TypeName", .text "Kind")]), ("depth", .int 4)]
    n.Sound ∧ Relation.ReflTransGen Recodes n.toFields fields ∧ ofFields? fields = some n := by
  intro n fields
  have hsmall : ∀ i ∈ [-120, 0, 1, 2, 3], IsShort i := by
    intro i hi
    refine lt_of_lt_of_le ?_ (Nat.pow_le_pow_right (by decide) (show 3 ≤ Integer.digitLimit by decide))
    revert i
    decide
  have hsound : n.Sound :=
    { hash := hsmall _ (by decide), parent := nofun, startLine := hsmall _ (by decide)
      startColumn := hsmall _ (by decide), endLine := hsmall _ (by decide), endColumn := hsmall _ (by decide)
      textLength := hsmall _ (by decide), names := by decide }
  have hvalue : NodeProperty.Recodes
      [("Name", .text "Operator"), ("Value", .text ""), ("TypeName", .text "Kind")]
      [("Name", .text "Operator"), ("Value", .null), ("TypeName", .text "Kind")] :=
    .emptyText (show Points.ofString "Value" ∈ NodeProperty.textKeys by decide) rfl
  have hleft : NodeProperty.Recodes
      [("Name", .text "Operator"), ("Value", .null), ("TypeName", .text "Kind")]
      [("Name", .text "Operator"), ("TypeName", .text "Kind")] :=
    .leftOut (show Points.ofString "Value" ∈ NodeProperty.textKeys by decide) rfl
  have htext : String.ofList ([' '] ++ (Integer.text (-120)).toList ++ ['\n']) = " -120\n" := by cbv
  have hnumber : Recodes n.toFields (insert "hashCode" (.text " -120\n") n.toFields) := by
    rw [← htext]
    exact .integer (by decide) rfl (List.forall_mem_singleton.2 rfl) (List.forall_mem_singleton.2 rfl)
  have hedits : Relation.ReflTransGen Recodes n.toFields fields :=
    Relation.ReflTransGen.single hnumber
      |>.tail (.emptyParent rfl)
      |>.tail (.emptyText (show Points.ofString "type" ∈ textKeys by decide) rfl)
      |>.tail (.leftOut (show Points.ofString "type" ∈ keys by decide) rfl)
      |>.tail (.zero (show Points.ofString "StartLineNumber" ∈ placeKeys by decide) rfl)
      |>.tail (@Recodes.property _ [] [] _ _ rfl hvalue)
      |>.tail (@Recodes.property _ [] [] _ _ rfl hleft)
      |>.tail (.collapsed rfl)
      |>.tail (@Recodes.unknown _ "depth" (.int 4) (by decide))
  exact ⟨hsound, hedits, ofFields?_of_recodes hsound hedits⟩

end Node
end ScriptTree
