/-
Which program is started. An executable that was set is checked under its own name, and started under the
text of its path. Both names are those of one file as long as the machine reads them as paths; a text
without a slash is a name that the machine looks for on the search path, and what it finds there may be
another file (`command_starts`). Such a text is left of a single name behind a dot and a slash.
-/
import ScriptTree.Interpreter.Lookup
import ScriptTree.Interpreter.Profile
import ScriptTree.Proofs.File.Path

namespace ScriptTree

/-! ## Opening a file by its name -/

/-- The place of the file that is opened by a name. Dots and doubled slashes inside a name lead nowhere, so
that it is followed as its path; at its end they are those of a directory. -/
def FileStore.opened? (s : FileStore) (name : String) : Option FilePlace :=
  if pathLimit ≤ name.utf8ByteSize || Path.isOfDirectory name then none
  else
    match s.placeOf (Path.ofText name) with
    | .error _ => none
    | .ok place =>
      match s.entry? place with
      | some (.file _) => some place
      | _ => none

namespace FileStore

variable {s : FileStore} {name : String} {place : FilePlace}

theorem opened?_eq_some (h : s.opened? name = some place) :
    Path.isOfDirectory name = false ∧ s.placeOf (Path.ofText name) = .ok place ∧
      ∃ content, s.entry? place = some (.file content) := by
  unfold opened? at h
  split at h
  · cases h
  · rename_i hshort
    rw [Bool.not_eq_true, Bool.or_eq_false_iff] at hshort
    split at h
    · cases h
    · rename_i there hplace
      split at h
      · rename_i content hfile
        cases h
        exact ⟨hshort.2, hplace, content, hfile⟩
      · cases h

/-- The file that is opened by a name is opened by the text of its path, too. -/
theorem opened?_text (h : s.opened? name = some place) : s.opened? (Path.ofText name).text = some place := by
  obtain ⟨hname, hplace, content, hfile⟩ := opened?_eq_some h
  have hnormal := Path.ofText_normal name
  have hshort : (Path.ofText name).text.utf8ByteSize < pathLimit := by
    by_contra hlong
    unfold placeOf pathFault? at hplace
    rw [if_pos (not_lt.1 hlong)] at hplace
    split at hplace
    · cases hplace
    · rename_i hnone
      split at hnone <;> cases hnone
  unfold opened?
  rw [hnormal.isOfDirectory_text (Path.parts_ne_nil hname), Bool.or_false, hnormal.ofText_text, hplace,
    if_neg (by simpa using hshort)]
  dsimp only
  rw [hfile]

/-- It stands at its path. -/
theorem lookup_of_opened (h : s.opened? name = some place) :
    ∃ entry, s.lookup (Path.ofText name) = .ok (some entry) := by
  obtain ⟨-, hplace, content, hfile⟩ := opened?_eq_some h
  refine ⟨.file content, ?_⟩
  unfold lookup find
  rw [hplace]
  dsimp only
  rw [hfile]

end FileStore

/-! ## Starting a program -/

namespace Interpreter.Lookup

/-- The place of the program that is started by a name: a name with a slash is opened, every other one is
looked for on the search path. -/
def started? (l : Lookup) (name : String) : Option FilePlace :=
  if name.contains '/' then l.files.opened? name else (l.onPath? name).bind l.files.opened?

/-- What is found on the search path for a name is this name in some directory; in the working directory
it may stand by itself. -/
def FindsNames (l : Lookup) : Prop :=
  ∀ name found, l.onPath? name = some found → found.contains '/' = false → found = name

theorem contains_slash (s : String) : s.contains '/' = true ↔ '/' ∈ s.toList := by
  rw [String.contains_char_eq, decide_eq_true_iff]

/-- The text of a path has a slash if the path starts at the root or has two parts. -/
theorem contains_slash_text (s : String) : (Path.ofText s).text.contains '/' = true ↔
    (Path.ofText s).isAbsolute = true ∨ 2 ≤ (Path.ofText s).parts.length := by
  rw [contains_slash, (Path.ofText_normal s).slash_mem_text_iff]

/-- Whether a name is taken for that of a path. -/
def IsPathName (name : String) : Prop :=
  (name.contains '/' || name.contains '\\') = true

/-- A path is started under its text if something stands there, any other name under what is found for it
on the search path. The arguments stay. -/
theorem command_ok_iff {l : Lookup} {executable hint : String} {arguments command : List String} :
    l.command (executable :: arguments) hint = .ok command ↔ executable ≠ "" ∧
      ((IsPathName executable ∧ (∃ entry, l.files.lookup (Path.ofText executable) = .ok (some entry)) ∧
          command = (Path.ofText executable).text :: arguments) ∨
        (¬ IsPathName executable ∧ ∃ found, l.onPath? executable = some found ∧
          command = found :: arguments)) := by
  unfold Lookup.command
  dsimp only
  by_cases hempty : executable = ""
  · rw [if_pos (String.isEmpty_iff.2 hempty)]
    exact iff_of_false (by rintro ⟨⟩) fun h => h.1 hempty
  · rw [if_neg (by rwa [String.isEmpty_iff]), and_iff_right hempty]
    by_cases hpath : IsPathName executable
    · rw [if_pos (by exact hpath), or_iff_left fun h => h.1 hpath, and_iff_right hpath]
      rcases l.files.lookup (Path.ofText executable) with fault | (_ | entry)
      · exact iff_of_false (by rintro ⟨⟩) (by rintro ⟨⟨_, ⟨⟩⟩, -⟩)
      · exact iff_of_false (by rintro ⟨⟩) (by rintro ⟨⟨_, ⟨⟩⟩, -⟩)
      · exact ⟨fun h => ⟨⟨entry, rfl⟩, (Except.ok.inj h).symm⟩, fun h => by rw [h.2]⟩
    · rw [if_neg (by exact hpath), or_iff_right fun h => hpath h.1, and_iff_right hpath]
      cases l.onPath? executable with
      | none => exact iff_of_false (by rintro ⟨⟩) (by rintro ⟨_, ⟨⟩, -⟩)
      | some found =>
        constructor
        · intro h
          exact ⟨found, rfl, (Except.ok.inj h).symm⟩
        · rintro ⟨_, hfound, rfl⟩
          cases hfound
          rfl

/-- What the search path gives for a name is the program that is started by the name. -/
theorem started?_found {l : Lookup} (hnames : l.FindsNames) {name found : String}
    (hslash : name.contains '/' = false) (hfound : l.onPath? name = some found) :
    l.started? found = l.started? name := by
  cases hpath : found.contains '/' with
  | false => rw [hnames name found hfound hpath]
  | true => rw [started?, started?, hpath, if_pos rfl, hslash, if_neg Bool.false_ne_true, hfound, Option.bind_some]

/-- A name that is taken for no path and can name a file is the text of its path. -/
theorem text_ofText_of_not_isPathName {name : String} (h : ¬ IsPathName name)
    (hfile : Path.isOfDirectory name = false) :
    name.contains '/' = false ∧ (Path.ofText name).text = name := by
  unfold IsPathName at h
  rw [Bool.not_eq_true, Bool.or_eq_false_iff] at h
  have hslash : '/' ∉ name.toList := by
    rw [← contains_slash, h.1]
    exact Bool.false_ne_true
  exact ⟨h.1, Path.text_ofText_name hslash hfile⟩

/-- How PowerShell is started where the executable was set to one that is checked, and `place` is where
the checked file is. -/
structure Starts (l : Lookup) (flavor : Flavor) (platform : String) (windows : Bool) (hint explicit : String)
    (place : FilePlace) : Prop where
  /-- It is the one that was set. -/
  chosen : l.executableFor flavor (some explicit) platform = explicit
  /-- A path is started under its text. -/
  path : IsPathName explicit → l.command (Profile.powershell windows explicit).command hint =
    .ok ((Path.ofText explicit).text :: Profile.powershellArguments windows)
  /-- Any other name is started under what is found for it, if anything is. -/
  name : ¬ IsPathName explicit → ∀ command,
    l.command (Profile.powershell windows explicit).command hint = .ok command ↔
      ∃ found, l.onPath? explicit = some found ∧ command = found :: Profile.powershellArguments windows
  /-- The file that was checked is started just when the text of its path is a name of it. -/
  same : (∃ program, l.command (Profile.powershell windows explicit).command hint =
      .ok (program :: Profile.powershellArguments windows) ∧ l.started? program = some place) ↔
    l.started? (Path.ofText explicit).text = some place
  /-- It is if the text has a slash. -/
  slash : (Path.ofText explicit).isAbsolute = true ∨ 2 ≤ (Path.ofText explicit).parts.length →
    l.started? (Path.ofText explicit).text = some place
  /-- Without one it is whatever file the search path gives. -/
  search : ¬ ((Path.ofText explicit).isAbsolute = true ∨ 2 ≤ (Path.ofText explicit).parts.length) →
    l.started? (Path.ofText explicit).text = (l.onPath? (Path.ofText explicit).text).bind l.files.opened?

/-- For every executable that was set and checked, what is started. And for every command whose executable
is given with a slash, what becomes of this name: it keeps a slash, and so is not looked for on the search
path, if its path starts at the root or has two parts. -/
theorem command_starts (l : Lookup) (hnames : l.FindsNames) (flavor : Flavor) (platform : String) (windows : Bool)
    (hint : String) :
    (∀ executable arguments program rest, executable.contains '/' = true →
      l.command (executable :: arguments) hint = .ok (program :: rest) →
        program = (Path.ofText executable).text ∧ rest = arguments ∧
          (program.contains '/' = true ↔
            (Path.ofText executable).isAbsolute = true ∨ 2 ≤ (Path.ofText executable).parts.length)) ∧
    ∀ explicit place, l.isExecutable explicit = true → l.files.opened? explicit = some place →
      l.Starts flavor platform windows hint explicit place := by
  constructor
  · intro executable arguments program rest hslash hcommand
    have hpath : IsPathName executable := Bool.or_eq_true_iff.2 (.inl hslash)
    obtain ⟨-, ⟨-, -, hprogram⟩ | ⟨hname, -⟩⟩ := command_ok_iff.1 hcommand
    · cases hprogram
      exact ⟨rfl, rfl, contains_slash_text executable⟩
    · exact absurd hpath hname
  · intro explicit place hexecutable hopened
    have hfile := (FileStore.opened?_eq_some hopened).1
    have hsome : explicit ≠ "" := by
      rintro rfl
      cases hfile
    have hpath (h : IsPathName explicit) : l.command (Profile.powershell windows explicit).command hint =
        .ok ((Path.ofText explicit).text :: Profile.powershellArguments windows) :=
      command_ok_iff.2 ⟨hsome, .inl ⟨h, FileStore.lookup_of_opened hopened, rfl⟩⟩
    have hname (h : ¬ IsPathName explicit) (command : List String) :
        l.command (Profile.powershell windows explicit).command hint = .ok command ↔
          ∃ found, l.onPath? explicit = some found ∧ command = found :: Profile.powershellArguments windows := by
      refine command_ok_iff.trans ?_
      rw [and_iff_right hsome, or_iff_right fun hp => h hp.1, and_iff_right h]
    constructor
    case chosen =>
      unfold executableFor
      dsimp only
      rw [hexecutable, Bool.and_true, if_pos (by simpa using hsome)]
    case path => exact hpath
    case name => exact hname
    case same =>
      by_cases h : IsPathName explicit
      · simp [hpath h]
      · simp only [hname h]
        obtain ⟨hslash, htext⟩ := text_ofText_of_not_isPathName h hfile
        rw [htext]
        constructor
        · rintro ⟨program, ⟨found, hfound, hprogram⟩, hplace⟩
          cases hprogram
          rwa [← started?_found hnames hslash hfound]
        · intro hplace
          have hsearch := hplace
          rw [started?, hslash, if_neg Bool.false_ne_true] at hsearch
          obtain ⟨found, hfound, -⟩ := Option.bind_eq_some_iff.1 hsearch
          exact ⟨found, ⟨found, hfound, rfl⟩, (started?_found hnames hslash hfound).trans hplace⟩
    case slash =>
      intro h
      rw [started?, if_pos ((contains_slash_text explicit).2 h)]
      exact FileStore.opened?_text hopened
    case search =>
      intro h
      rw [started?, if_neg (by rwa [contains_slash_text])]

/-- A machine with one PowerShell on the search path and another one in the working directory. -/
def twoShells : Lookup where
  which := [("pwsh", "/usr/bin/pwsh")]
  executables := ["/usr/bin/pwsh", "./pwsh"]
  files := ⟨[(["pwsh"], .file [])], [(["usr", "bin", "pwsh"], .file [])], 2⟩

theorem twoShells_findsNames : twoShells.FindsNames := by
  intro name found hfound hslash
  have hwhich : found = "/usr/bin/pwsh" := by
    unfold onPath? twoShells at hfound
    by_cases hname : name = "pwsh"
    · subst hname
      exact (Option.some.inj hfound).symm
    · have hnone : List.lookup name [("pwsh", "/usr/bin/pwsh")] = none := by simp [hname]
      rw [hnone] at hfound
      cases hfound
  rw [hwhich, String.contains_char_eq] at hslash
  exact absurd hslash (by decide +kernel)

/-- The one on the search path is started if it was set by its full path. -/
theorem command_starts_absolute :
    twoShells.FindsNames ∧ twoShells.isExecutable "/usr/bin/pwsh" = true ∧
      twoShells.files.opened? "/usr/bin/pwsh" = some (.elsewhere ["usr", "bin", "pwsh"]) ∧
      twoShells.Starts .core "linux" false "" "/usr/bin/pwsh" (.elsewhere ["usr", "bin", "pwsh"]) := by
  have hexecutable : twoShells.isExecutable "/usr/bin/pwsh" = true := by decide +kernel
  have hopened : twoShells.files.opened? "/usr/bin/pwsh" = some (.elsewhere ["usr", "bin", "pwsh"]) := by
    decide +kernel
  exact ⟨twoShells_findsNames, hexecutable, hopened,
    (command_starts twoShells twoShells_findsNames .core "linux" false "").2 _ _ hexecutable hopened⟩

/-- The one in the working directory is checked, and the one on the search path is started: its name loses
the dot and the slash. -/
theorem not_starts_checked :
    twoShells.executableFor .core (some "./pwsh") "linux" = "./pwsh" ∧
      twoShells.files.opened? "./pwsh" = some (.below ["pwsh"]) ∧
      twoShells.command (Profile.powershell false "./pwsh").command "" =
        .ok ("pwsh" :: Profile.powershellArguments false) ∧
      twoShells.started? "pwsh" = some (.elsewhere ["usr", "bin", "pwsh"]) := by
  refine ⟨by decide +kernel, by decide +kernel, ?_, ?_⟩
  · have hpath : IsPathName "./pwsh" := by
      rw [IsPathName, String.contains_char_eq]
      rfl
    exact command_ok_iff.2 ⟨by decide, .inl ⟨hpath, ⟨.file [], by decide +kernel⟩, by decide +kernel⟩⟩
  · rw [started?, String.contains_char_eq]
    decide +kernel

end Interpreter.Lookup
end ScriptTree
