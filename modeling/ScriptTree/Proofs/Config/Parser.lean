/-
What settings come out of an environment. Every variable is checked before there are any, and what is
made of its text is what a caller may rely on: an executable that is some text without white space around
it, a documentation file that is there, a time limit above zero. Two texts pass the checks without being
caught by them (`ofEnvironment_checked`): the word for a number that is none is not below zero, so it
becomes the limit, and the path of a file that may not be asked for ends in a fault of the machine.
-/
import ScriptTree.Config.Parser
import ScriptTree.Proofs.File.Bar
import ScriptTree.Proofs.Text.Part

namespace ScriptTree

/-! ## Numbers around zero -/

namespace Binary64

/-- The fraction of a finite number is zero only if the number is. -/
theorem ratio?_finite (negative : Bool) (m : Nat) (e : Int) : ∃ p q : Nat,
    (finite negative m e).ratio? = some (if negative then -(p : Int) else p, q) ∧ 0 < q ∧ (p = 0 ↔ m = 0) := by
  refine ⟨(scaled m 1 (-e)).1, (scaled m 1 (-e)).2, rfl, ?_⟩
  unfold scaled
  split
  · exact ⟨Nat.mul_pos Nat.one_pos (Nat.pow_pos (by decide)), Iff.rfl⟩
  · refine ⟨Nat.one_pos, ?_⟩
    rw [Nat.mul_eq_zero]
    exact or_iff_left (Nat.pow_pos (by decide)).ne'

theorem ratio?_zero : ∃ q : Nat, zero.ratio? = some (0, q) ∧ 0 < q := by
  obtain ⟨p, q, hratio, hpos, hp⟩ := ratio?_finite false 0 leastExponent
  rw [hp.2 rfl] at hratio
  exact ⟨q, hratio, hpos⟩

/-- A number is below zero if it has a minus and is not zero. -/
theorem lt_zero_right (x : Binary64) : lt x zero = x.isNegative := by
  cases x with
  | nan => rfl
  | infinity negative => rfl
  | finite negative m e =>
    obtain ⟨p, q, hx, -, hp⟩ := ratio?_finite negative m e
    obtain ⟨s, hzero, hs⟩ := ratio?_zero
    rw [isNegative, ← Bool.coe_iff_coe]
    unfold zero at hzero ⊢
    simp only [lt, hx, hzero, decide_eq_true_eq, Int.zero_mul, Bool.and_eq_true, bne_iff_ne, ne_eq, ← hp]
    cases negative <;> simp [hs, Nat.pos_iff_ne_zero]

/-- A number is above zero if it has no minus and is not zero. -/
theorem lt_zero_left (x : Binary64) : lt zero x = x.isPositive := by
  cases x with
  | nan => rfl
  | infinity negative => rfl
  | finite negative m e =>
    obtain ⟨p, q, hx, -, hp⟩ := ratio?_finite negative m e
    obtain ⟨s, hzero, hs⟩ := ratio?_zero
    rw [isPositive, ← Bool.coe_iff_coe]
    unfold zero at hzero ⊢
    simp only [lt, hx, hzero, decide_eq_true_eq, Int.zero_mul, Bool.and_eq_true, bne_iff_ne, ne_eq, ← hp]
    cases negative <;> simp [hs, Nat.pos_iff_ne_zero]

/-! ## The word for no number -/

theorem ofRatio_ne_nan (negative : Bool) (num den : Nat) : ofRatio negative num den ≠ .nan := by
  have hrounded (p : Nat × Int) :
      (if p.2 > greatestExponent then .infinity negative else .finite negative p.1 p.2) ≠ nan := by
    split <;> rintro ⟨⟩
  unfold ofRatio
  split
  · rintro ⟨⟩
  · exact hrounded _

theorem ofDecimal_ne_nan (negative : Bool) (digits : Nat) (e : Int) : ofDecimal negative digits e ≠ .nan := by
  unfold ofDecimal
  dsimp only
  split
  · rintro ⟨⟩
  · split
    · rintro ⟨⟩
    · split
      · rintro ⟨⟩
      · split <;> exact ofRatio_ne_nan _ _ _

/-- The text is the word for no number, with white space around it and a sign, if any, and in letters of
either case. -/
def SaysNan (s : String) : Prop :=
  String.ofList ((Integer.splitSign (Text.trimNumber s.toList)).2.map Char.toLower) = "nan"

instance (s : String) : Decidable (SaysNan s) :=
  inferInstanceAs (Decidable (_ = _))

theorem readUnsigned?_eq_nan_iff (negative : Bool) (cs : List Char) :
    readUnsigned? negative cs = some .nan ↔ String.ofList (cs.map Char.toLower) = "nan" := by
  have hdecimal (p : List Nat × List Char) :
      (if (takeDigits cs).1.isEmpty && p.1.isEmpty then none
        else (readExponent? p.2).map fun e =>
          ofDecimal negative (Integer.ofDigits ((takeDigits cs).1 ++ p.1)) (e - p.1.length)) ≠ some .nan := by
    split
    · rintro ⟨⟩
    · intro h
      obtain ⟨e, -, he⟩ := Option.map_eq_some_iff.1 h
      exact ofDecimal_ne_nan _ _ _ he
  unfold readUnsigned?
  dsimp only
  generalize String.ofList (cs.map Char.toLower) = word
  by_cases hinf : word = "inf" ∨ word = "infinity"
  · rw [if_pos (by simpa using hinf)]
    refine iff_of_false (by rintro ⟨⟩) ?_
    rcases hinf with rfl | rfl <;> decide
  · rw [if_neg (by simpa using hinf)]
    by_cases hnan : word = "nan"
    · rw [if_pos hnan]
      exact iff_of_true rfl hnan
    · rw [if_neg hnan]
      exact iff_of_false (hdecimal _) hnan

theorem read?_eq_nan_iff (s : String) : read? s = some .nan ↔ SaysNan s :=
  readUnsigned?_eq_nan_iff _ _

end Binary64

/-! ## The settings -/

/-- The variable that an error is about. The other errors are faults of the machine. -/
def ConfigError.variable? : ConfigError → Option String
  | .unknownFlavor _ => some "SHOWAST_POWERSHELL_FLAVOR"
  | .timeoutNotNumber _ => some "SHOWAST_INVOKE_TIMEOUT"
  | .timeoutNegative _ => some "SHOWAST_INVOKE_TIMEOUT"
  | .docsMissing _ => some "SHOWAST_AST_DOCS"
  | .unknownHome => none
  | .docsBarred _ _ => none

/-- An error about a variable begins with its name. -/
theorem ConfigError.message_names {fault : ConfigError} {name : String} (h : fault.variable? = some name) :
    ∃ rest, fault.message = name ++ rest := by
  have hsplit (sentence rest given : String) (hsentence : sentence = name ++ rest) :
      ∃ rest, sentence ++ given = name ++ rest :=
    ⟨rest ++ given, by rw [hsentence, String.append_assoc]⟩
  cases fault with
  | unknownFlavor given =>
    cases h
    exact hsplit _ " must be one of core, desktop, got: " (Text.quoted given) (by decide +kernel)
  | timeoutNotNumber given =>
    cases h
    exact hsplit _ " must be a number, got: " (Text.quoted given) (by decide +kernel)
  | timeoutNegative given =>
    cases h
    exact hsplit _ " must be >= 0, got: " (Text.quoted given) (by decide +kernel)
  | docsMissing given =>
    cases h
    exact hsplit _ " does not exist or is not a file: " given (by decide +kernel)
  | unknownHome => cases h
  | docsBarred path fault => cases h

namespace ParserConfig

/-- The text that names the flavor. -/
def flavorText (e : Environment) : String :=
  (e.getRenamed "SHOWAST_POWERSHELL_FLAVOR" "POWERSHELL_AST_FLAVOR" Interpreter.Flavor.core.name).1

/-- The text that gives the time limit. -/
def limitText (e : Environment) : String :=
  e.trimmed "SHOWAST_INVOKE_TIMEOUT"

/-- The text that names the documentation file. -/
def docsText (e : Environment) : String :=
  e.trimmed "SHOWAST_AST_DOCS"

/-- Settings that a caller may rely on. -/
structure Valid (files : FileStore) (c : ParserConfig) : Prop where
  flavor : c.flavor.name = "core" ∨ c.flavor.name = "desktop"
  executable : ∀ s ∈ c.executable, s ≠ "" ∧ Text.strip s = s
  docs : ∀ path ∈ c.docs, files.isFile path = true
  timeout : ∀ t ∈ c.timeout, Binary64.lt .zero t = true

/-- The environment makes valid settings, or it is refused for one of its variables or for want of a home
directory. -/
def Settled (files : FileStore) : Except ConfigError ParserConfig → Prop
  | .ok c => c.Valid files
  | .error fault => ∀ path bar, fault ≠ .docsBarred path bar

/-- The time limit is the word for no number, and nothing else is refused. -/
def TakesNan (e : Environment) (files : FileStore) : Prop :=
  (∃ flavor, flavorOf (flavorText e) = .ok flavor) ∧ Binary64.SaysNan (limitText e) ∧
    ∃ docs, docsOf e files (docsText e) = .ok docs

/-- The way to the documentation file is barred: it has a name that is too long, or a directory on the way may not be
searched. Nothing before it is refused. -/
def FindsBar (e : Environment) (files : FileStore) (path : Path) (bar : FileFault) : Prop :=
  (∃ flavor, flavorOf (flavorText e) = .ok flavor) ∧ (∃ limit, timeoutOf (limitText e) = .ok limit) ∧
    docsText e ≠ "" ∧ e.expandHome? (Path.ofText (docsText e)) = some path ∧
    files.find path = .error bar ∧ (bar = .nameTooLong ∨ bar = .denied)

/-! ### One variable -/

theorem timeoutOf_of_read {text : String} {x : Binary64} (h : Binary64.read? text = some x) :
    timeoutOf text = if Binary64.lt x .zero then .error (.timeoutNegative text)
      else .ok (if x.isZero then none else some x) := by
  have hsome : text.isEmpty = false := by
    rw [String.isEmpty_eq_false_iff]
    rintro rfl
    cases h
  unfold timeoutOf
  rw [hsome, if_neg Bool.false_ne_true, h]

theorem timeoutOf_nan {text : String} (h : Binary64.SaysNan text) : timeoutOf text = .ok (some .nan) := by
  rw [timeoutOf_of_read ((Binary64.read?_eq_nan_iff text).2 h)]
  rfl

/-- A limit is the number that the text gives. It is above zero or it is none. -/
theorem timeoutOf_some {text : String} {t : Binary64} (h : timeoutOf text = .ok (some t)) :
    Binary64.read? text = some t ∧ (Binary64.lt .zero t = true ∨ t = .nan) := by
  cases hread : Binary64.read? text with
  | none =>
    unfold timeoutOf at h
    rw [hread] at h
    split at h <;> cases h
  | some x =>
    rw [timeoutOf_of_read hread, Binary64.lt_zero_right] at h
    rw [Binary64.lt_zero_left]
    cases x with
    | nan =>
      cases h
      exact ⟨rfl, .inr rfl⟩
    | infinity negative =>
      cases negative <;> cases h
      exact ⟨rfl, .inl rfl⟩
    | finite negative m e =>
      cases hzero : Binary64.isZero (.finite negative m e) with
      | true =>
        rw [hzero, if_pos rfl] at h
        split at h <;> cases h
      | false =>
        rw [hzero, if_neg Bool.false_ne_true] at h
        cases negative with
        | true =>
          rw [if_pos (by simpa [Binary64.isNegative, Binary64.isZero] using hzero)] at h
          cases h
        | false =>
          cases h
          exact ⟨rfl, .inl (by simpa [Binary64.isPositive, Binary64.isZero] using hzero)⟩

/-- A number that is not at least zero is below it, or it is none. -/
theorem lt_zero_of_not_le {x : Binary64} (h : (Binary64.lt .zero x || Binary64.same .zero x) = false)
    (hnumber : x ≠ .nan) : Binary64.lt x .zero = true := by
  cases hlt : Binary64.lt x .zero with
  | true => rfl
  | false =>
    cases x with
    | nan => exact absurd rfl hnumber
    | infinity negative => simp_all [Binary64.same, Binary64.zero]
    | finite negative m e => simp_all [Binary64.same, Binary64.zero]

theorem timeoutOf_unread {text : String} (hsome : text ≠ "") (h : Binary64.read? text = none) :
    timeoutOf text = .error (.timeoutNotNumber text) := by
  unfold timeoutOf
  rw [if_neg (by rwa [String.isEmpty_iff]), h]

theorem timeoutOf_error {text : String} {fault : ConfigError} (h : timeoutOf text = .error fault) :
    fault = .timeoutNotNumber text ∨ fault = .timeoutNegative text := by
  unfold timeoutOf at h
  split at h
  · cases h
  · split at h
    · cases h
      exact .inl rfl
    · split at h
      · cases h
        exact .inr rfl
      · cases h

theorem flavorOf_ok {text : String} {flavor : Interpreter.Flavor} (h : flavorOf text = .ok flavor) :
    flavor.name = Text.lower (Text.strip text) := by
  unfold flavorOf at h
  dsimp only at h
  split at h
  · rename_i named hnamed
    cases h
    simpa using List.find?_some hnamed
  · cases h

theorem flavorOf_error {text : String} {fault : ConfigError} (h : flavorOf text = .error fault) :
    ∃ name, fault = .unknownFlavor name := by
  unfold flavorOf at h
  dsimp only at h
  split at h
  · cases h
  · cases h
    exact ⟨_, rfl⟩

theorem docsOf_some {e : Environment} {files : FileStore} {text : String} {path : Path}
    (h : docsOf e files text = .ok (some path)) : files.isFile path = true := by
  unfold docsOf at h
  split at h
  · cases h
  · split at h
    · cases h
    · split at h
      · cases h
      · rename_i there hlookup
        split at h
        · rename_i hfile
          cases h
          obtain ⟨entry, rfl, hfile⟩ := (Option.any_eq_true _ _).1 hfile
          rw [FileStore.isFile, FileStore.lookup_some hlookup]
          exact hfile
        · cases h

theorem docsOf_barred_iff {e : Environment} {files : FileStore} {text : String} {path : Path} {bar : FileFault} :
    docsOf e files text = .error (.docsBarred path bar) ↔
      text ≠ "" ∧ e.expandHome? (Path.ofText text) = some path ∧ files.find path = .error bar ∧
        (bar = .nameTooLong ∨ bar = .denied) := by
  unfold docsOf
  by_cases hempty : text = ""
  · rw [if_pos (String.isEmpty_iff.2 hempty)]
    exact iff_of_false (by rintro ⟨⟩) fun h => h.1 hempty
  · rw [if_neg (by rwa [String.isEmpty_iff]), and_iff_right hempty]
    cases e.expandHome? (Path.ofText text) with
    | none => exact iff_of_false (by rintro ⟨⟩) (by rintro ⟨⟨⟩, -⟩)
    | some p =>
      rw [Option.some.injEq, ← FileFault.isBar_iff, ← FileStore.lookup_error_iff]
      dsimp only
      constructor
      · intro h
        split at h
        · rename_i fault hlookup
          cases h
          exact ⟨rfl, hlookup⟩
        · split at h <;> cases h
      · rintro ⟨rfl, hlookup⟩
        rw [hlookup]

/-! ### All variables -/

/-- The checks are made one after the other. -/
theorem ofEnvironment_eq (e : Environment) (files : FileStore) :
    (ofEnvironment e files).1 =
      (flavorOf (flavorText e)).bind fun flavor =>
        (timeoutOf (limitText e)).bind fun timeout =>
          (docsOf e files (docsText e)).bind fun docs =>
            .ok
              { flavor
                executable := if (e.trimmed "SHOWAST_POWERSHELL_PATH").isEmpty then none
                  else some (e.trimmed "SHOWAST_POWERSHELL_PATH")
                timeout
                docs } := by
  unfold ofEnvironment flavorText limitText docsText
  generalize e.getRenamed _ _ _ = named
  generalize e.trimmed "SHOWAST_INVOKE_TIMEOUT" = limit
  generalize e.trimmed "SHOWAST_AST_DOCS" = docs
  obtain ⟨given, warnings⟩ := named
  simp only [bind, pure, Except.pure]

/-- Settings are made of what the variables give, each by itself. -/
theorem ofEnvironment_ok_iff (e : Environment) (files : FileStore) (c : ParserConfig) :
    (ofEnvironment e files).1 = .ok c ↔
      flavorOf (flavorText e) = .ok c.flavor ∧ timeoutOf (limitText e) = .ok c.timeout ∧
        docsOf e files (docsText e) = .ok c.docs ∧
        c.executable = if (e.trimmed "SHOWAST_POWERSHELL_PATH").isEmpty then none
          else some (e.trimmed "SHOWAST_POWERSHELL_PATH") := by
  rw [ofEnvironment_eq]
  generalize flavorOf (flavorText e) = flavor?
  generalize timeoutOf (limitText e) = timeout?
  generalize docsOf e files (docsText e) = docs?
  generalize (if (e.trimmed "SHOWAST_POWERSHELL_PATH").isEmpty then none
    else some (e.trimmed "SHOWAST_POWERSHELL_PATH")) = executable
  obtain ⟨flavor, executable', timeout, docs⟩ := c
  rcases flavor? with fault | flavor?
  · exact iff_of_false (by rintro ⟨⟩) (by rintro ⟨⟨⟩, -⟩)
  rcases timeout? with fault | timeout?
  · exact iff_of_false (by rintro ⟨⟩) (by rintro ⟨-, ⟨⟩, -⟩)
  rcases docs? with fault | docs?
  · exact iff_of_false (by rintro ⟨⟩) (by rintro ⟨-, -, ⟨⟩, -⟩)
  simp only [Except.bind, Except.ok.injEq, ParserConfig.mk.injEq]
  tauto

/-- The environment is refused for the first variable that is refused. -/
theorem ofEnvironment_error_iff (e : Environment) (files : FileStore) (fault : ConfigError) :
    (ofEnvironment e files).1 = .error fault ↔
      flavorOf (flavorText e) = .error fault ∨
        (∃ flavor, flavorOf (flavorText e) = .ok flavor) ∧
          (timeoutOf (limitText e) = .error fault ∨
            (∃ limit, timeoutOf (limitText e) = .ok limit) ∧ docsOf e files (docsText e) = .error fault) := by
  rw [ofEnvironment_eq]
  generalize flavorOf (flavorText e) = flavor?
  generalize timeoutOf (limitText e) = timeout?
  generalize docsOf e files (docsText e) = docs?
  cases flavor? <;> cases timeout? <;> cases docs? <;> simp [Except.bind]

/-- Only the way to the documentation file can be barred. -/
theorem ofEnvironment_barred_iff (e : Environment) (files : FileStore) (path : Path) (bar : FileFault) :
    (ofEnvironment e files).1 = .error (.docsBarred path bar) ↔ FindsBar e files path bar := by
  have hflavor : flavorOf (flavorText e) ≠ .error (.docsBarred path bar) := by
    intro h
    obtain ⟨name, hname⟩ := flavorOf_error h
    cases hname
  have htimeout : timeoutOf (limitText e) ≠ .error (.docsBarred path bar) := by
    intro h
    rcases timeoutOf_error h with h | h <;> cases h
  rw [ofEnvironment_error_iff, or_iff_right hflavor, or_iff_right htimeout, docsOf_barred_iff]
  rfl

/-- Settings with the word for no number as their limit are made of an environment that gives this word. -/
theorem takesNan_iff (e : Environment) (files : FileStore) :
    TakesNan e files ↔ ∃ c, (ofEnvironment e files).1 = .ok c ∧ c.timeout = some .nan := by
  constructor
  · rintro ⟨⟨flavor, hflavor⟩, hnan, docs, hdocs⟩
    obtain ⟨executable, hexecutable⟩ : ∃ executable, executable =
      if (e.trimmed "SHOWAST_POWERSHELL_PATH").isEmpty then none
      else some (e.trimmed "SHOWAST_POWERSHELL_PATH") := ⟨_, rfl⟩
    exact ⟨⟨flavor, executable, some .nan, docs⟩,
      (ofEnvironment_ok_iff e files _).2 ⟨hflavor, timeoutOf_nan hnan, hdocs, hexecutable⟩, rfl⟩
  · rintro ⟨c, hc, hlimit⟩
    obtain ⟨hflavor, htimeout, hdocs, -⟩ := (ofEnvironment_ok_iff e files c).1 hc
    rw [hlimit] at htimeout
    exact ⟨⟨_, hflavor⟩, (Binary64.read?_eq_nan_iff _).1 (timeoutOf_some htimeout).1, _, hdocs⟩

/-- Settings that come out of an environment are valid with every limit above zero. -/
theorem valid_withLimit {e : Environment} {files : FileStore} {c : ParserConfig} {limit : Option Binary64}
    (h : (ofEnvironment e files).1 = .ok c) (hlimit : ∀ t ∈ limit, Binary64.lt .zero t = true) :
    { c with timeout := limit }.Valid files := by
  obtain ⟨-, -, hdocs, hexecutable⟩ := (ofEnvironment_ok_iff e files c).1 h
  constructor
  case flavor =>
    cases c.flavor with
    | core => exact .inl rfl
    | desktop => exact .inr rfl
  case executable =>
    intro s hs
    rw [hexecutable] at hs
    split at hs
    · cases hs
    · rename_i hempty
      cases hs
      exact ⟨fun hs => hempty (String.isEmpty_iff.2 hs), Text.strip_strip _⟩
  case docs =>
    intro path hpath
    rw [Option.mem_def.1 hpath] at hdocs
    exact docsOf_some hdocs
  case timeout => exact hlimit

/-- Their own limit is above zero, unless it is no number. -/
theorem valid_of_ok {e : Environment} {files : FileStore} {c : ParserConfig}
    (h : (ofEnvironment e files).1 = .ok c) (hnan : c.timeout ≠ some .nan) : c.Valid files := by
  refine valid_withLimit h fun t ht => ?_
  have htimeout := ((ofEnvironment_ok_iff e files c).1 h).2.1
  rw [Option.mem_def.1 ht] at htimeout
  rcases (timeoutOf_some htimeout).2 with hpos | rfl
  · exact hpos
  · exact absurd ht hnan

/-- Settings are valid or a variable is refused, except in two cases. -/
theorem settled_iff (e : Environment) (files : FileStore) : Settled files (ofEnvironment e files).1 ↔
    ¬ TakesNan e files ∧ ∀ path bar, ¬ FindsBar e files path bar := by
  cases h : (ofEnvironment e files).1 with
  | ok c =>
    have hopen (path : Path) (bar : FileFault) : ¬ FindsBar e files path bar := by
      rw [← ofEnvironment_barred_iff, h]
      rintro ⟨⟩
    rw [and_iff_left hopen, takesNan_iff, Settled]
    constructor
    · rintro hvalid ⟨c', hc', hnan⟩
      cases h.symm.trans hc'
      exact Bool.false_ne_true (hvalid.timeout _ hnan)
    · exact fun hnan => valid_of_ok h fun hlimit => hnan ⟨c, h, hlimit⟩
  | error fault =>
    have hnan : ¬ TakesNan e files := by
      rw [takesNan_iff, h]
      rintro ⟨c, hc, -⟩
      cases hc
    rw [and_iff_right hnan, Settled]
    refine forall₂_congr fun path bar => not_congr ?_
    rw [← ofEnvironment_barred_iff, h]
    exact ⟨congrArg _, Except.error.inj⟩

/-- What becomes of an environment. -/
structure Checked (e : Environment) (files : FileStore) : Prop where
  /-- It makes valid settings or is refused, except in two cases. -/
  settled : Settled files (ofEnvironment e files).1 ↔
    ¬ TakesNan e files ∧ ∀ path bar, ¬ FindsBar e files path bar
  /-- In the one case the settings are valid but for their limit, which is no number. -/
  nan : TakesNan e files ↔ ∃ c : ParserConfig, (ofEnvironment e files).1 = .ok c ∧
    c.timeout = some .nan ∧ { c with timeout := none }.Valid files
  /-- In the other one the fault is the machine's, told in its own words and without the variable. -/
  barred : ∀ path bar, (ofEnvironment e files).1 = .error (.docsBarred path bar) ↔ FindsBar e files path bar
  /-- Settings have the flavor and the limit that the variables give. -/
  given : ∀ c, (ofEnvironment e files).1 = .ok c →
    c.flavor.name = Text.lower (Text.strip (flavorText e)) ∧
      ∀ t ∈ c.timeout, Binary64.read? (limitText e) = some t
  /-- A limit that is a number but not at least zero is refused, where the flavor is not. -/
  negative : ∀ flavor x, flavorOf (flavorText e) = .ok flavor → Binary64.read? (limitText e) = some x →
    (Binary64.lt .zero x || Binary64.same .zero x) = false → x ≠ .nan →
      (ofEnvironment e files).1 = .error (.timeoutNegative (limitText e))
  /-- So is one that cannot be read. -/
  unread : ∀ flavor, flavorOf (flavorText e) = .ok flavor → limitText e ≠ "" →
    Binary64.read? (limitText e) = none →
      (ofEnvironment e files).1 = .error (.timeoutNotNumber (limitText e))
  /-- A variable that is refused is named. -/
  named : ∀ fault name, (ofEnvironment e files).1 = .error fault → fault.variable? = some name →
    ∃ rest, fault.message = name ++ rest

/-- For every environment and all files, the settings are valid or a variable is refused, unless the limit
is the word for no number or the way to the documentation file is barred. -/
theorem ofEnvironment_checked (e : Environment) (files : FileStore) : Checked e files := by
  constructor
  case settled => exact settled_iff e files
  case nan =>
    rw [takesNan_iff]
    refine exists_congr fun c => and_congr_right fun hc => (and_iff_left_of_imp fun _ => ?_).symm
    exact valid_withLimit hc (by rintro _ ⟨⟩)
  case barred => exact ofEnvironment_barred_iff e files
  case given =>
    intro c hc
    obtain ⟨hflavor, htimeout, -, -⟩ := (ofEnvironment_ok_iff e files c).1 hc
    refine ⟨flavorOf_ok hflavor, fun t ht => ?_⟩
    rw [Option.mem_def.1 ht] at htimeout
    exact (timeoutOf_some htimeout).1
  case negative =>
    intro flavor x hflavor hread hzero hnumber
    rw [ofEnvironment_error_iff, timeoutOf_of_read hread, if_pos (lt_zero_of_not_le hzero hnumber)]
    exact .inr ⟨⟨flavor, hflavor⟩, .inl rfl⟩
  case unread =>
    intro flavor hflavor hsome hread
    rw [ofEnvironment_error_iff, timeoutOf_unread hsome hread]
    exact .inr ⟨⟨flavor, hflavor⟩, .inl rfl⟩
  case named => exact fun fault name _ hname => ConfigError.message_names hname

/-- The word for no number as the time limit: neither are the settings valid nor is it refused. -/
theorem not_settled_nan :
    let e : Environment := ⟨[("SHOWAST_INVOKE_TIMEOUT", "nan")], "/home/user", []⟩
    (ofEnvironment e .empty).1.toOption.bind timeout = some .nan ∧
      ¬ Settled .empty (ofEnvironment e .empty).1 := by
  intro e
  have hmade : (ofEnvironment e .empty).1 = .ok ⟨.core, none, some .nan, none⟩ := by
    rw [ofEnvironment_ok_iff]
    refine ⟨by decide +kernel, timeoutOf_nan (by decide +kernel), by decide +kernel, by decide +kernel⟩
  rw [hmade]
  exact ⟨rfl, fun hvalid => Bool.false_ne_true (hvalid.timeout _ rfl)⟩

end ParserConfig
end ScriptTree
