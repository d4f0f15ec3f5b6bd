/-
What a line of the log says of an event. The fields that an event lacks come behind its own (`complete_eq`), its
sensitive texts are replaced where the log hides them, and the line is read as the object that results (`Tells`,
`lineTold_tells`). There is a line that can be encoded just if the event can (`legible_line_eq`). An event that is
held as an object is not changed: what is completed is an object made for it (`lineOfObject_eq`).
-/
import ScriptTree.Log.Journal
import ScriptTree.Proofs.Json.Line
import ScriptTree.Proofs.Log.Redact

namespace ScriptTree.Log

open Json (Legible Plain Value)
open Json.Value (field? fieldOrNull)

/-! ## Fields -/

section

variable {key k : Points} {v w : Value} {fields : Fields}

theorem field?_eq_none_iff : field? key fields = none ↔ key ∉ fields.map Prod.fst := by
  induction fields with
  | nil => simp [field?]
  | cons f fields ih =>
    rw [field?, List.map_cons, List.mem_cons, not_or]
    split
    · rename_i h
      simp [h]
    · rename_i h
      rw [ih]
      exact (and_iff_right (Ne.symm h)).symm

theorem keys_insert (h : key ∈ fields.map Prod.fst) :
    (Value.insert key v fields).map Prod.fst = fields.map Prod.fst := by
  induction fields with
  | nil => cases h
  | cons f fields ih =>
    rw [Value.insert]
    split
    · rfl
    · rename_i hne
      rw [List.map_cons, List.map_cons, ih ((List.mem_cons.1 h).resolve_left (Ne.symm hne))]

theorem mem_insert_iff (nodup : (fields.map Prod.fst).Nodup) {f : Points × Value} :
    f ∈ Value.insert key v fields ↔ f = (key, v) ∨ f ∈ fields ∧ f.1 ≠ key := by
  induction fields with
  | nil => simp [Value.insert]
  | cons g fields ih =>
    rw [List.map_cons, List.nodup_cons] at nodup
    rw [Value.insert]
    split
    · rename_i hkey
      have hother : ∀ f ∈ fields, f.1 ≠ key := by
        rintro f hf rfl
        exact nodup.1 (hkey ▸ List.mem_map_of_mem hf)
      constructor
      · intro hf
        rcases List.mem_cons.1 hf with rfl | hf
        · exact .inl (by rw [hkey])
        · exact .inr ⟨List.mem_cons_of_mem _ hf, hother f hf⟩
      · rintro (rfl | ⟨hf, hne⟩)
        · rw [hkey]
          exact List.mem_cons_self
        · rcases List.mem_cons.1 hf with rfl | hf
          · exact absurd hkey hne
          · exact List.mem_cons_of_mem _ hf
    · rename_i hkey
      rw [List.mem_cons, List.mem_cons, ih nodup.2]
      constructor
      · rintro (rfl | rfl | ⟨hf, hne⟩)
        · exact .inr ⟨.inl rfl, hkey⟩
        · exact .inl rfl
        · exact .inr ⟨.inr hf, hne⟩
      · rintro (rfl | ⟨rfl | hf, hne⟩)
        · exact .inr (.inl rfl)
        · exact .inl rfl
        · exact .inr (.inr ⟨hf, hne⟩)

/-- A filter of the keys leaves the value of a key that it keeps. -/
theorem field?_filter (keep : Points → Bool) (h : keep key = true) :
    field? key (fields.filter fun f => keep f.1) = field? key fields := by
  induction fields with
  | nil => rfl
  | cons f fields ih =>
    rw [List.filter_cons, field?]
    by_cases hkey : f.1 = key
    · rw [if_pos (by rw [hkey, h]), field?, if_pos hkey, if_pos hkey]
    · rw [if_neg hkey]
      split
      · rw [field?, if_neg hkey, ih]
      · exact ih

theorem field?_map (show' : Points → Value → Value) :
    field? key (fields.map fun f => (f.1, show' f.1 f.2)) = (field? key fields).map (show' key) := by
  induction fields with
  | nil => rfl
  | cons f fields ih =>
    rw [List.map_cons, field?, field?]
    split
    · rename_i hkey
      rw [hkey]
      rfl
    · exact ih

theorem addField_of_none (h : field? key fields = none) : addField key v fields = fields ++ [(key, v)] := by
  rw [addField, h]
  rfl

theorem addField_of_some (h : field? key fields = some w) : addField key v fields = fields := by
  rw [addField, h]
  rfl

theorem field?_addField_of_ne (h : k ≠ key) : field? key (addField k v fields) = field? key fields := by
  cases hk : field? k fields with
  | some w => rw [addField_of_some hk]
  | none =>
    rw [addField_of_none hk, Value.field?_append]
    simp [field?, h]

/-- Adds fields one after the other. -/
def addAll (added fields : Fields) : Fields :=
  added.foldl (fun fields f => addField f.1 f.2 fields) fields

/-- Those of the added fields come behind the others that are not there. -/
theorem addAll_eq {added : Fields} (nodup : (added.map Prod.fst).Nodup) :
    addAll added fields = fields ++ added.filter fun f => (field? f.1 fields).isNone := by
  induction added generalizing fields with
  | nil => simp [addAll]
  | cons f added ih =>
    rw [List.map_cons, List.nodup_cons] at nodup
    have hsame : added.filter (fun g => (field? g.1 (addField f.1 f.2 fields)).isNone) =
        added.filter fun g => (field? g.1 fields).isNone := by
      refine List.filter_congr fun g hg => ?_
      have hne : f.1 ≠ g.1 := fun heq => nodup.1 (heq ▸ List.mem_map_of_mem hg)
      rw [field?_addField_of_ne hne]
    have hstep : addAll (f :: added) fields = addAll added (addField f.1 f.2 fields) := rfl
    rw [hstep, ih nodup.2, hsame, List.filter_cons]
    cases hf : field? f.1 fields with
    | some w => rw [addField_of_some hf]; rfl
    | none => rw [addField_of_none hf, List.append_assoc]; rfl

end

/-! ## Complete events -/

/-- The fields that an event gets where it has none of their keys. -/
def added (now : Moment) (tracer : Tracer) (event : Fields) : Fields :=
  ([("timestamp", .text (now.text "T")), ("trace_id", .text tracer.ensure.trace.id)] : Fields) ++
    (if tracer.trace.operation = "" then [] else [("operation", .text tracer.trace.operation)] : Fields) ++
    ([("level", .text (levelOfKind event))] : Fields)

/-- An event with the fields that it lacks. -/
def extended (now : Moment) (tracer : Tracer) (event : Fields) : Fields :=
  event ++ (added now tracer event).filter fun f => (field? f.1 event).isNone

/-- The level of an event, by its own field or by its kind. -/
def levelFor (event : Fields) : String :=
  levelOf ((field? "level" event).getD (.text (levelOfKind event)))

section

variable (now : Moment) (tracer : Tracer) (event : Fields)

theorem added_keys : (added now tracer event).map Prod.fst =
    (["timestamp", "trace_id"] : List Points) ++
      (if tracer.trace.operation = "" then [] else ["operation"] : List Points) ++ (["level"] : List Points) := by
  unfold added
  split <;> rfl

theorem added_nodup : ((added now tracer event).map Prod.fst).Nodup := by
  rw [added_keys]
  split <;> decide

theorem added_text : ∀ f ∈ added now tracer event, ∃ s : String, f.2 = .text s := by
  unfold added
  rw [List.forall_mem_append, List.forall_mem_append]
  refine ⟨⟨by simp, ?_⟩, by simp⟩
  split <;> simp

theorem added_legible : ∀ f ∈ added now tracer event, Points.isLegible f.1 = true := by
  unfold added
  rw [List.forall_mem_append, List.forall_mem_append]
  refine ⟨⟨by simp, ?_⟩, by simp⟩
  split <;> simp

theorem field?_timestamp : field? "timestamp" (added now tracer event) = some (.text (now.text "T")) := by
  unfold added
  split <;> rfl

theorem field?_trace : field? "trace_id" (added now tracer event) = some (.text tracer.ensure.trace.id) := by
  unfold added
  split <;> rfl

theorem field?_operation (h : tracer.trace.operation ≠ "") :
    field? "operation" (added now tracer event) = some (.text tracer.trace.operation) := by
  rw [added, if_neg h]
  rfl

theorem field?_level : field? "level" (added now tracer event) = some (.text (levelOfKind event)) := by
  unfold added
  split <;> rfl

theorem ensure_operation : tracer.ensure.trace.operation = tracer.trace.operation := by
  unfold Tracer.ensure Tracer.renew
  split <;> rfl

theorem levelOfKind_addField {key : Points} (h : key ≠ "kind") (v : Value) :
    levelOfKind (addField key v event) = levelOfKind event := by
  rw [levelOfKind, field?_addField_of_ne h, levelOfKind]

/-- The fields are added in turn; a trace is only begun for an event that lacks one. -/
theorem complete_eq_addAll : (complete now tracer event).1 =
    Value.insert "level" (.text (levelOf (fieldOrNull "level" (addAll (added now tracer event) event))))
      (addAll (added now tracer event) event) := by
  have hid : ∀ fields : Fields,
      addField "trace_id" (.text (if (field? "trace_id" fields).isSome then tracer else tracer.ensure).trace.id)
        fields = addField "trace_id" (.text tracer.ensure.trace.id) fields := by
    intro fields
    cases h : field? "trace_id" fields with
    | some v => rw [addField_of_some h, addField_of_some h]
    | none => rfl
  have hoperation : ∀ begun : Bool,
      (if begun then tracer else tracer.ensure).trace.operation = tracer.trace.operation := by
    rintro (_ | _)
    · exact ensure_operation tracer
    · rfl
  have hkind : ∀ fields : Fields, levelOfKind fields = levelOfKind event → addField "level"
      (.text (levelOfKind fields)) fields = addField "level" (.text (levelOfKind event)) fields := by
    intro fields h
    rw [h]
  unfold complete addAll added
  dsimp only
  rw [hid, hoperation]
  by_cases h : tracer.trace.operation = ""
  · rw [if_pos (String.isEmpty_iff.2 h), if_pos h, hkind _ (by simp [levelOfKind_addField])]
    rfl
  · rw [if_neg (by simpa using h), if_neg h, hkind _ (by simp [levelOfKind_addField])]
    rfl

theorem complete_eq : (complete now tracer event).1 =
    Value.insert "level" (.text (levelFor event)) (extended now tracer event) := by
  have hlevel : fieldOrNull "level" (addAll (added now tracer event) event) =
      (field? "level" event).getD (.text (levelOfKind event)) := by
    rw [fieldOrNull, addAll_eq (added_nodup now tracer event), Value.field?_append]
    cases h : field? "level" event with
    | some v => rfl
    | none =>
      rw [Option.none_or, field?_filter (fun key => (field? key event).isNone) (by rw [h]; rfl), field?_level]
      rfl
  rw [complete_eq_addAll, hlevel, levelFor, addAll_eq (added_nodup now tracer event), extended]

theorem extended_keys : (extended now tracer event).map Prod.fst =
    event.map Prod.fst ++ ((added now tracer event).map Prod.fst).filter (· ∉ event.map Prod.fst) := by
  have hmissing : ∀ key, (field? key event).isNone = decide (key ∉ event.map Prod.fst) := by
    intro key
    rw [Bool.eq_iff_iff, Option.isNone_iff_eq_none, field?_eq_none_iff, decide_eq_true_eq]
  rw [extended, List.map_append, List.filter_map]
  refine congrArg _ (congrArg _ (List.filter_congr fun f _ => ?_))
  exact hmissing f.1

theorem extended_nodup (h : (event.map Prod.fst).Nodup) : ((extended now tracer event).map Prod.fst).Nodup := by
  rw [extended_keys]
  refine List.Nodup.append h ((added_nodup now tracer event).filter _) fun key hold hnew => ?_
  simp [hold] at hnew

theorem complete_keys : (complete now tracer event).1.map Prod.fst =
    event.map Prod.fst ++ ((added now tracer event).map Prod.fst).filter (· ∉ event.map Prod.fst) := by
  have hlevel : Points.ofString "level" ∈ (extended now tracer event).map Prod.fst := by
    rw [extended_keys, List.mem_append, List.mem_filter, added_keys]
    by_cases h : Points.ofString "level" ∈ event.map Prod.fst
    · exact .inl h
    · exact .inr ⟨by simp, by simpa using h⟩
  rw [complete_eq, keys_insert hlevel, extended_keys]

/-- The level is replaced, and what else the event is extended to stays. -/
theorem mem_complete_iff (h : (event.map Prod.fst).Nodup) {f : Points × Value} :
    f ∈ (complete now tracer event).1 ↔
      f = (Points.ofString "level", .text (levelFor event)) ∨ f ∈ extended now tracer event ∧ f.1 ≠ "level" := by
  rw [complete_eq]
  exact mem_insert_iff (extended_nodup now tracer event h)

theorem field?_complete {key : Points} (h : key ≠ "level") : field? key (complete now tracer event).1 =
    (field? key event).or (field? key (added now tracer event)) := by
  rw [complete_eq, Value.field?_insert, if_neg h.symm, extended, Value.field?_append]
  cases hkey : field? key event with
  | some v => rfl
  | none =>
    rw [Option.none_or, Option.none_or, field?_filter fun key => (field? key event).isNone]
    rw [hkey, Option.isNone_none]

theorem field?_complete_level :
    field? "level" (complete now tracer event).1 = some (.text (levelFor event)) := by
  rw [complete_eq, Value.field?_insert, if_pos rfl]

end

/-! ## Levels -/

theorem levelOf_mem (v : Value) : levelOf v ∈ levels := by
  unfold levelOf
  split
  · decide
  · dsimp only
    generalize Text.lowered (Text.stripped _) = name
    cases hfind : levels.find? (name = Points.ofString ·) with
    | none => rw [Option.getD_none]; split <;> decide
    | some level => exact List.mem_of_find?_eq_some hfind

theorem levelOf_of_mem {level : String} (h : level ∈ levels) : levelOf (.text level) = level := by
  have hall : ∀ level ∈ levels, levelOf (.text level) = level := by decide
  exact hall level h

theorem levelOfKind_mem (event : Fields) : levelOfKind event ∈ levels := by
  have hlevel : ∀ isError : Bool, (if isError then "error" else "info") ∈ levels := by decide
  exact hlevel _

/-! ## What the log shows -/

/-- The value that the log shows under a key for one that can be encoded. -/
def shown (mode : Mode) (key : Points) : Value → Value
  | .text s =>
    if mode.redacts && sensitiveKeys.contains key then .text (placeholder (String.ofList s.chars)) else .text s
  | v => v

/-- The fields that the log shows. -/
def shownFields (mode : Mode) (fields : Fields) : Fields :=
  fields.map fun f => (f.1, shown mode f.1 f.2)

theorem shown_of_not_sensitive {mode : Mode} {key : Points} (h : sensitiveKeys.contains key = false) (v : Value) :
    shown mode key v = v := by
  cases v
  case text s => rw [shown, h, Bool.and_false, if_neg Bool.false_ne_true]
  all_goals rfl

theorem shown_of_not_redacts {mode : Mode} (h : mode.redacts = false) (key : Points) (v : Value) :
    shown mode key v = v := by
  cases v
  case text s => rw [shown, h, Bool.false_and, if_neg Bool.false_ne_true]
  all_goals rfl

/-- What is shown for a value is the value itself or a text of characters. -/
theorem shown_cases (mode : Mode) (key : Points) (v : Value) :
    shown mode key v = v ∨ ∃ s : String, shown mode key v = .text s := by
  cases v
  case text t =>
    rw [shown]
    split
    · exact .inr ⟨_, rfl⟩
    · exact .inl rfl
  all_goals exact .inl rfl

theorem shown_plain {mode : Mode} {key : Points} {v : Value} (h : Plain v) : Plain (shown mode key v) := by
  rcases shown_cases mode key v with hsame | ⟨s, htext⟩
  · rw [hsame]
    exact h
  · rw [htext]
    exact .text _

theorem shown_legible {mode : Mode} {key : Points} {v : Value} (h : Legible v) : Legible (shown mode key v) := by
  rcases shown_cases mode key v with hsame | ⟨s, htext⟩
  · rw [hsame]
    exact h
  · rw [htext]
    exact .text s

section

variable {mode : Mode} {key : Points} {v w : Value} {fields out : Fields}

theorem redact?_of_legible (h : Legible v) (hredacts : mode.redacts = true) :
    redact? key v = some (shown mode key v) := by
  cases h
  case text s =>
    rw [redact?, shown, hredacts, Bool.true_and, Points.legible?_ofString, Points.chars_ofString,
      String.ofList_toList]
    split <;> rfl
  all_goals rfl

/-- A text is replaced only if it is one of characters, and then by one. -/
theorem redact?_cases (h : redact? key v = some w) : w = v ∨ ∃ s t : String, v = .text s ∧ w = .text t := by
  cases v
  case text s =>
    rw [redact?] at h
    split at h
    · obtain ⟨t, ht, rfl⟩ := Option.map_eq_some_iff.1 h
      exact .inr ⟨t, _, congrArg _ (Points.legible?_eq_some_iff.1 ht), rfl⟩
    · exact .inl (Option.some.inj h).symm
  all_goals exact .inl (Option.some.inj h).symm

/-- What is shown for a text that cannot be encoded cannot be encoded, either. -/
theorem legible_of_redact? (h : redact? key v = some w) (hw : Legible w) : Legible v := by
  obtain rfl | ⟨s, t, rfl, -⟩ := redact?_cases h
  · exact hw
  · exact .text s

theorem plain_of_redact? (h : redact? key v = some w) (hv : Plain v) : Plain w := by
  obtain rfl | ⟨s, t, -, rfl⟩ := redact?_cases h
  · exact hv
  · exact .text _

theorem sanitize?_of_legible (h : ∀ f ∈ fields, Legible f.2) :
    sanitize? mode fields = some (shownFields mode fields) := by
  rw [sanitize?, shownFields]
  split
  · rename_i hredacts
    induction fields with
    | nil => rfl
    | cons f fields ih =>
      obtain ⟨hf, hfields⟩ := List.forall_mem_cons.1 h
      simp only [List.mapM_cons, ih hfields, redact?_of_legible hf hredacts]
      rfl
  · rename_i hfull
    simp only [shown_of_not_redacts (Bool.eq_false_iff.2 hfull), Prod.mk.eta, List.map_id']

theorem exists_of_mem_right {R : Points × Value → Points × Value → Prop} (h : List.Forall₂ R fields out)
    {g : Points × Value} (hg : g ∈ out) : ∃ f ∈ fields, R f g := by
  induction h with
  | nil => cases hg
  | cons hfirst _ ih =>
    rcases List.mem_cons.1 hg with rfl | hg
    · exact ⟨_, List.mem_cons_self, hfirst⟩
    · obtain ⟨f, hf, hfg⟩ := ih hg
      exact ⟨f, List.mem_cons_of_mem _ hf, hfg⟩

/-- Under its key each field is shown with its value or with what is shown for that. -/
theorem forall₂_of_sanitize? (h : sanitize? mode fields = some out) :
    List.Forall₂ (fun f g => f.1 = g.1 ∧ (f.2 = g.2 ∨ redact? f.1 f.2 = some g.2)) fields out := by
  rw [sanitize?] at h
  split at h
  · induction fields generalizing out with
    | nil =>
      cases h
      exact .nil
    | cons f fields ih =>
      simp only [List.mapM_cons, Option.bind_eq_bind, Option.bind_eq_some_iff, Option.map_eq_some_iff,
        Option.pure_def, Option.some.injEq] at h
      obtain ⟨-, ⟨w, hw, rfl⟩, out, hout, rfl⟩ := h
      exact .cons ⟨rfl, .inr hw⟩ (ih hout)
  · cases h
    exact List.forall₂_same.2 fun f _ => ⟨rfl, .inl rfl⟩

theorem plain_of_sanitize? (h : sanitize? mode fields = some out) (hplain : Plain (.object fields)) :
    Plain (.object out) := by
  have hall := forall₂_of_sanitize? h
  cases hplain with
  | object nodup hvalues =>
    have hkeys : out.map Prod.fst = fields.map Prod.fst := by
      clear h nodup hvalues
      induction hall with
      | nil => rfl
      | cons hf _ ih => rw [List.map_cons, List.map_cons, ih, hf.1]
    refine .object (hkeys ▸ nodup) fun g hg => ?_
    obtain ⟨f, hf, -, hsame | hshown⟩ := exists_of_mem_right hall hg
    · exact hsame ▸ hvalues f hf
    · exact plain_of_redact? hshown (hvalues f hf)

theorem legible_of_sanitize? (h : sanitize? mode fields = some out) (hlegible : Legible (.object out)) :
    Legible (.object fields) := by
  rw [Json.legible_object_iff] at hlegible ⊢
  intro f hf
  obtain ⟨g, hg, hkey, hsame | hshown⟩ := exists_of_mem_right (forall₂_of_sanitize? h).flip hf
  · exact ⟨hkey ▸ (hlegible g hg).1, hsame ▸ (hlegible g hg).2⟩
  · exact ⟨hkey ▸ (hlegible g hg).1, legible_of_redact? hshown (hlegible g hg).2⟩

end

/-- What an object in the log says of an event: its own fields, and those that it lacks of the time, the trace, the
operation if there is one, and the level. Where the log hides sensitive texts their length and the beginning of
their digest stand for them. -/
structure Tells (mode : Mode) (now : Moment) (tracer : Tracer) (event fields : Fields) : Prop where
  keys : fields.map Prod.fst = event.map Prod.fst ++ ((["timestamp", "trace_id"] : List Points) ++
    (if tracer.trace.operation = "" then [] else ["operation"] : List Points) ++ (["level"] : List Points)).filter
      (· ∉ event.map Prod.fst)
  own : ∀ (key : Points) v, key ≠ "level" → field? key event = some v →
    (mode.redacts = true → key ∈ (["error", "stderr"] : List Points) → ∀ s, v ≠ .text s) →
    field? key fields = some v
  hidden : mode.redacts = true → ∀ key ∈ (["error", "stderr"] : List Points), ∀ s : String,
    field? key event = some (.text s) →
    ∃ digest : String, field? key fields = some (.text s!"[REDACTED len={s.length} sha256={digest}]") ∧
      digest.toList <+: (Digest.Sha256.hex (Text.Utf8.bytes s)).toList ∧ digest.length = 12
  timestamp : field? "timestamp" event = none → field? "timestamp" fields = some (.text (now.text "T"))
  trace : field? "trace_id" event = none → field? "trace_id" fields = some (.text tracer.ensure.trace.id)
  operation : field? "operation" event = none → tracer.trace.operation ≠ "" →
    field? "operation" fields = some (.text tracer.trace.operation)
  /-- The level is one of the four, the event's own if that is one, and given by the kind if it has none. -/
  level : ∃ level ∈ ["debug", "info", "warning", "error"], field? "level" fields = some (.text level) ∧
    (∀ given ∈ ["debug", "info", "warning", "error"], field? "level" event = some (.text given) → level = given) ∧
    (field? "level" event = none → level = levelOfKind event)

section

variable (mode : Mode) (now : Moment) (tracer : Tracer) (event : Fields)

theorem tells_complete :
    Tells mode now tracer event (shownFields mode (complete now tracer event).1) := by
  have hfield : ∀ key, field? key (shownFields mode (complete now tracer event).1) =
      (field? key (complete now tracer event).1).map (shown mode key) :=
    fun key => field?_map (shown mode)
  have hown : ∀ (key : Points) v, key ≠ "level" → field? key event = some v →
      field? key (shownFields mode (complete now tracer event).1) = some (shown mode key v) := by
    intro key v hlevel hv
    rw [hfield, field?_complete now tracer event hlevel, hv]
    rfl
  have hadded : ∀ {key : Points} {v}, key ≠ "level" → sensitiveKeys.contains key = false → field? key event = none →
      field? key (added now tracer event) = some v →
      field? key (shownFields mode (complete now tracer event).1) = some v := by
    intro key v hlevel hplain hnone hadded
    rw [hfield, field?_complete now tracer event hlevel, hnone, Option.none_or, hadded, Option.map_some,
      shown_of_not_sensitive hplain]
  constructor
  case keys =>
    rw [shownFields, List.map_map, ← added_keys now tracer event]
    exact complete_keys now tracer event
  case own =>
    intro key v hlevel hv hopen
    rw [hown key v hlevel hv]
    cases v
    case text s =>
      rw [shown, if_neg]
      rw [Bool.and_eq_true, List.contains_iff_mem]
      exact fun h => hopen h.1 h.2 s rfl
    all_goals rfl
  case hidden =>
    intro hredacts key hkey s hs
    have hlevel : key ≠ "level" := by
      rintro rfl
      exact absurd hkey (by decide)
    have hsensitive : sensitiveKeys.contains key = true := List.contains_iff_mem.2 hkey
    obtain ⟨digest, hplaceholder, hdigest⟩ := exists_placeholder s
    rw [hown key _ hlevel hs, shown, hredacts, hsensitive, Bool.and_self, if_pos rfl, Points.chars_ofString,
      String.ofList_toList, hplaceholder]
    exact ⟨digest, rfl, hdigest⟩
  case timestamp => exact fun hnone => hadded (by decide) rfl hnone (field?_timestamp now tracer event)
  case trace => exact fun hnone => hadded (by decide) rfl hnone (field?_trace now tracer event)
  case operation =>
    exact fun hnone hoperation => hadded (by decide) rfl hnone (field?_operation now tracer event hoperation)
  case level =>
    refine ⟨levelFor event, levelOf_mem _, ?_, fun given hgiven hlevel => ?_, fun hnone => ?_⟩
    · rw [hfield, field?_complete_level, Option.map_some, shown_of_not_sensitive rfl]
    · rw [levelFor, hlevel, Option.getD_some, levelOf_of_mem hgiven]
    · rw [levelFor, hnone, Option.getD_none, levelOf_of_mem (levelOfKind_mem event)]

/-- An event without loss is completed without loss. -/
theorem plain_complete (h : Plain (.object event)) : Plain (.object (complete now tracer event).1) := by
  cases h with
  | object nodup hplain =>
    have hnodup : ((complete now tracer event).1.map Prod.fst).Nodup := by
      rw [complete_keys, ← extended_keys]
      exact extended_nodup now tracer event nodup
    refine .object hnodup fun f hf => ?_
    rcases (mem_complete_iff now tracer event nodup).1 hf with rfl | ⟨hf, -⟩
    · exact .text _
    · rcases List.mem_append.1 hf with hf | hf
      · exact hplain f hf
      · obtain ⟨s, hs⟩ := added_text now tracer event f (List.mem_filter.1 hf).1
        rw [hs]
        exact .text s

end

/-! ## Lines -/

/-- Whether an event can be encoded: its keys, and its values but for the level, which the log gives in words of its
own. -/
def isEncodable (event : Fields) : Bool :=
  event.all fun f => Points.isLegible f.1 && (f.1 == "level" || Points.isLegible (Json.write f.2))

section

variable {settings : Settings} {tracer : Tracer} {event : Fields}

/-- What is added to an event can be encoded, so the whole can be if the event can. -/
theorem legible_complete_iff (now : Moment) (tracer : Tracer) (hplain : Plain (.object event)) :
    Legible (.object (complete now tracer event).1) ↔ isEncodable event = true := by
  cases hplain with
  | object nodup hvalues =>
    have hmem : ∀ {f : Points × Value}, f ∈ (complete now tracer event).1 ↔ _ :=
      mem_complete_iff now tracer event nodup
    have hencodable : isEncodable event = true ↔
        ∀ f ∈ event, Points.isLegible f.1 = true ∧ (f.1 = "level" ∨ Legible f.2) := by
      rw [isEncodable, List.all_eq_true]
      refine forall₂_congr fun f hf => ?_
      rw [Bool.and_eq_true, Bool.or_eq_true, beq_iff_eq, Json.write, Json.lineText_isLegible_iff (hvalues f hf)]
    rw [Json.legible_object_iff, hencodable]
    constructor
    · intro h f hf
      by_cases hlevel : f.1 = "level"
      · rw [hlevel]
        exact ⟨rfl, .inl rfl⟩
      · have hf' := h f (hmem.2 (.inr ⟨List.mem_append_left _ hf, hlevel⟩))
        exact ⟨hf'.1, .inr hf'.2⟩
    · intro h f hf
      rcases hmem.1 hf with rfl | ⟨hf, hlevel⟩
      · exact ⟨rfl, .text _⟩
      · rcases List.mem_append.1 hf with hf | hf
        · exact ⟨(h f hf).1, (h f hf).2.resolve_left hlevel⟩
        · have hadded := (List.mem_filter.1 hf).1
          obtain ⟨s, hs⟩ := added_text now tracer event f hadded
          exact ⟨added_legible now tracer event f hadded, hs ▸ .text s⟩

theorem keepsSample_of_one (h : settings.rate = Binary64.ofInt 1) : settings.keepsSample = true := by
  have hone : (Binary64.lt (Binary64.ofInt 1) (Binary64.ofInt 1) ||
    Binary64.same (Binary64.ofInt 1) (Binary64.ofInt 1)) = true := by decide +kernel
  unfold Settings.keepsSample
  dsimp only
  rw [h, if_pos hone]

/-- The fields that the log shows of an event. -/
def told (settings : Settings) (tracer : Tracer) (event : Fields) : Fields :=
  shownFields settings.mode (complete settings.now tracer event).1

/-- The line of an event that can be encoded. -/
def lineTold (settings : Settings) (tracer : Tracer) (event : Fields) : List Char :=
  Json.lineChars (.object (told settings tracer event))

theorem lineOf_of_keeps (hon : settings.mode ≠ .off) (hkeeps : settings.keepsSample = true) :
    (lineOf settings tracer event).1 =
      (sanitize? settings.mode (complete settings.now tracer event).1).map (Json.write <| .object ·) := by
  unfold lineOf
  split
  · exact absurd ‹_› hon
  · dsimp only
    rw [isKept, hkeeps, Bool.or_true, if_pos rfl]

theorem plain_told (hplain : Plain (.object event)) : Plain (.object (told settings tracer event)) := by
  have h := plain_complete settings.now tracer event hplain
  cases h with
  | object nodup hvalues =>
    refine .object ?_ fun g hg => ?_
    · rw [told, shownFields, List.map_map]
      exact nodup
    · obtain ⟨f, hf, rfl⟩ := List.mem_map.1 hg
      exact shown_plain (hvalues f hf)

theorem legible_told (hplain : Plain (.object event)) (h : isEncodable event = true) :
    Legible (.object (told settings tracer event)) := by
  rw [← legible_complete_iff settings.now tracer hplain, Json.legible_object_iff] at h
  refine Json.legible_object_iff.2 fun g hg => ?_
  obtain ⟨f, hf, rfl⟩ := List.mem_map.1 hg
  exact ⟨(h f hf).1, shown_legible (h f hf).2⟩

/-- An event without loss has a line that can be encoded just if the event can. -/
theorem legible_line_eq (hon : settings.mode ≠ .off) (hkeeps : settings.keepsSample = true)
    (hplain : Plain (.object event)) : (lineOf settings tracer event).1.filter Points.isLegible =
      if isEncodable event then some (Points.ofChars (lineTold settings tracer event)) else none := by
  have hcomplete := plain_complete settings.now tracer event hplain
  rw [lineOf_of_keeps hon hkeeps]
  split
  · rename_i hencodable
    have hlegible := (legible_complete_iff settings.now tracer hplain).2 hencodable
    have hline : Points.isLegible (Json.write (.object (told settings tracer event))) = true :=
      (Json.lineText_isLegible_iff (plain_told hplain)).2 (legible_told hplain hencodable)
    rw [sanitize?_of_legible fun f hf => (Json.legible_object_iff.1 hlegible f hf).2, Option.map_some, ← told,
      Option.filter_some_pos hline, lineTold, Json.lineChars]
    exact congrArg some (Points.ofChars_chars hline).symm
  · rename_i hnot
    rw [Option.filter_eq_none_iff]
    intro line hline hlegible
    obtain ⟨out, hout, rfl⟩ := Option.map_eq_some_iff.1 hline
    have hout' := (Json.lineText_isLegible_iff (plain_of_sanitize? hout hcomplete)).1 hlegible
    exact hnot ((legible_complete_iff settings.now tracer hplain).1 (legible_of_sanitize? hout hout'))

/-- The line of an event without loss that can be encoded is one line, and tells of the event. -/
theorem lineTold_tells (settings : Settings) (tracer : Tracer) (hplain : Plain (.object event))
    (hencodable : isEncodable event = true) :
    '\n' ∉ lineTold settings tracer event ∧
      ∃ fields, Json.readChars (lineTold settings tracer event) = .ok (.object fields) ∧
        Tells settings.mode settings.now tracer event fields := by
  refine ⟨fun hbreak => ?_, _, Json.isText_line (plain_told hplain) (legible_told hplain hencodable),
    tells_complete _ _ _ _⟩
  exact absurd (Json.lineText_visible (plain_told hplain) _ (Points.mem_chars.1 hbreak)) (by decide)

theorem get_make (objects : Objects) (fields : Fields) : (objects ++ [fields]).get objects.length = fields := by
  simp [Objects.get]

theorem assign_make (objects : Objects) (fields fields' : Fields) :
    (objects ++ [fields]).assign objects.length fields' = objects ++ [fields'] := by
  simp [Objects.assign]

/-- An event that is held as an object has the line of its fields, and the objects there are stay as they are. -/
theorem lineOfObject_eq (settings : Settings) (tracer : Tracer) (objects : Objects) (event : Nat) :
    ∃ made, lineOfObject settings tracer objects event =
      ((lineOf settings tracer (objects.get event)).1, (lineOf settings tracer (objects.get event)).2,
        objects ++ made) := by
  unfold lineOfObject lineOf
  cases hmode : settings.mode
  case off => exact ⟨[], by rw [List.append_nil]⟩
  all_goals
    simp only [Objects.make, get_make, assign_make]
    obtain ⟨fields, after⟩ := complete settings.now tracer (objects.get event)
    dsimp only
    cases isKept settings fields
  case redacted.false => exact ⟨[fields], rfl⟩
  case full.false => exact ⟨[fields], rfl⟩
  case redacted.true =>
    cases sanitize? .redacted fields with
    | none => exact ⟨[fields], rfl⟩
    | some sanitized =>
      refine ⟨[fields, sanitized], ?_⟩
      show (some (Json.write (.object (Objects.get (objects ++ [fields] ++ [sanitized])
        (objects ++ [fields]).length))), after, objects ++ [fields] ++ [sanitized]) = _
      rw [get_make, List.append_assoc]
      rfl
  case full.true =>
    refine ⟨[fields], ?_⟩
    show (some (Json.write (.object (Objects.get (objects ++ [fields]) objects.length))), after, _) = _
    rw [get_make]
    rfl

end
end ScriptTree.Log
