/-
What bars the way to a path. Following a path fails at the first part at which a step fails (`follow_error_iff`), and a
step is barred at a directory of another user, whatever the part is, or by a part that is longer than a name
(`step_error_iff`). Only these faults keep a path from being asked for (`lookup_error_iff`); every other one means
that nothing stands there.
-/
import ScriptTree.File.Store

namespace ScriptTree

theorem FileFault.isBar_iff {fault : FileFault} : fault.isBar = true ↔ fault = .nameTooLong ∨ fault = .denied := by
  cases fault <;> simp [isBar]

namespace FileStore

variable {s : FileStore} {p : Path} {place : FilePlace} {part : String} {parts : List String} {fault : FileFault}

theorem lookup_some {e : FileEntry} (h : s.lookup p = .ok (some e)) : s.find p = .ok e := by
  unfold lookup at h
  split at h
  · rename_i found hfind
    cases h
    exact hfind
  · split at h <;> cases h

/-- A path cannot be asked for just when it is not found for a fault that bars the way. -/
theorem lookup_error_iff : s.lookup p = .error fault ↔ s.find p = .error fault ∧ fault.isBar = true := by
  unfold lookup
  cases s.find p with
  | ok e => exact iff_of_false (by rintro ⟨⟩) (by rintro ⟨⟨⟩, -⟩)
  | error found =>
    dsimp only
    by_cases hbar : found.isBar = true
    · rw [if_pos hbar, Except.error.injEq, Except.error.injEq]
      exact ⟨fun h => ⟨h, h ▸ hbar⟩, And.left⟩
    · rw [if_neg hbar]
      refine iff_of_false (by rintro ⟨⟩) ?_
      rintro ⟨hfound, htrue⟩
      exact hbar (Except.error.inj hfound ▸ htrue)

/-- A step is barred at a directory of another user, and at an open one by a part that is too long. -/
theorem step_error_iff (hbar : fault.isBar = true) : s.step place part = .error fault ↔
    s.entry? place = some .closedDirectory ∧ fault = .denied ∨
      s.entry? place = some .directory ∧ part ≠ ".." ∧ longestName < part.utf8ByteSize ∧ fault = .nameTooLong := by
  have hnot {other : FileFault} (hother : other.isBar = false) : ¬ (other = fault) := by
    rintro rfl
    rw [hbar] at hother
    cases hother
  unfold step
  rcases s.entry? place with _ | e
  · simpa using hnot rfl
  · cases e with
    | file content => simpa using hnot rfl
    | device => simpa using hnot rfl
    | closedFile content => simpa using hnot rfl
    | closedDirectory => simp [eq_comm]
    | directory =>
      dsimp only
      by_cases hup : part = ".."
      · simp [hup]
      · by_cases hlong : longestName < part.utf8ByteSize
        · simp [hup, hlong, eq_comm]
        · simp [hup, hlong]

theorem follow_cons_of_step {next : FilePlace} (h : s.step place part = .ok next) (parts : List String) :
    s.follow place (part :: parts) = s.follow next parts := by
  rw [follow, h]

theorem follow_cons_of_fault (h : s.step place part = .error fault) (parts : List String) :
    s.follow place (part :: parts) = .error fault := by
  rw [follow, h]

/-- Parts are followed up to the first one at which a step fails. -/
theorem follow_error_iff : s.follow place parts = .error fault ↔
    ∃ front part rest next, parts = front ++ part :: rest ∧ s.follow place front = .ok next ∧
      s.step next part = .error fault := by
  induction parts generalizing place with
  | nil => simp [follow]
  | cons part parts ih =>
    cases hstep : s.step place part with
    | error found =>
      rw [follow_cons_of_fault hstep]
      constructor
      · intro h
        cases h
        exact ⟨[], part, parts, place, rfl, rfl, hstep⟩
      · rintro ⟨_ | ⟨first, front⟩, part', rest, next, hparts, hfront, hfault⟩
        · cases hparts
          cases hfront
          exact hstep.symm.trans hfault
        · cases hparts
          rw [follow_cons_of_fault hstep] at hfront
          cases hfront
    | ok there =>
      rw [follow_cons_of_step hstep, ih]
      constructor
      · rintro ⟨front, part', rest, next, rfl, hfront, hfault⟩
        exact ⟨part :: front, part', rest, next, rfl, (follow_cons_of_step hstep front).trans hfront, hfault⟩
      · rintro ⟨_ | ⟨first, front⟩, part', rest, next, hparts, hfront, hfault⟩
        · cases hparts
          cases hfront
          cases hstep.symm.trans hfault
        · cases hparts
          rw [follow_cons_of_step hstep] at hfront
          exact ⟨front, part', rest, next, rfl, hfront, hfault⟩

theorem step_denied_iff : s.step place part = .error .denied ↔ s.entry? place = some .closedDirectory := by
  rw [step_error_iff (by rfl)]
  simp

/-- A path is denied just when one of its parts is to be found in a directory of another user. -/
theorem find_denied_iff : s.find p = .error .denied ↔ pathFault? p = none ∧
    ∃ front part rest next, p.parts = front ++ part :: rest ∧ s.follow (top p) front = .ok next ∧
      s.entry? next = some .closedDirectory := by
  have hplace : s.find p = .error .denied ↔ s.placeOf p = .error .denied := by
    unfold find
    cases s.placeOf p with
    | error fault => exact ⟨fun h => by cases h; rfl, fun h => by cases h; rfl⟩
    | ok place =>
      dsimp only
      cases s.entry? place <;> exact iff_of_false (by rintro ⟨⟩) (by rintro ⟨⟩)
  rw [hplace]
  unfold placeOf
  cases hfault : pathFault? p with
  | some fault =>
    refine iff_of_false (fun h => ?_) (by rintro ⟨⟨⟩, -⟩)
    cases h
    unfold pathFault? at hfault
    split at hfault
    · cases hfault
    · split at hfault <;> cases hfault
  | none =>
    dsimp only
    rw [follow_error_iff, and_iff_right rfl]
    simp only [step_denied_iff]

end FileStore
end ScriptTree
