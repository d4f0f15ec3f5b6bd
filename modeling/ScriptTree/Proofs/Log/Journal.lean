/-
The log file. The file grows by a line for each event that is kept (`append_of_rotate`), and nothing else in its
directory changes as long as the file is not put aside (`appendAll_grows`). After some calls the file is read as the
lines of those events that can be encoded, each of which tells of its event; the events themselves stay as they are.
-/
import ScriptTree.Proofs.File.Way
import ScriptTree.Proofs.Log.Event
import ScriptTree.Proofs.Text.Utf8

namespace ScriptTree.Log

open FileStore (Ordinary spot placeIn placeIn_spot)
open Json (Value Plain)
open Text (Utf8.encode Utf8.decode)

/-! ## Lines of a file -/

/-- Some lines with their ends. -/
def textOf (lines : List (List Char)) : List Char :=
  lines.flatMap (· ++ ['\n'])

/-- The bytes of some lines. A line that cannot be encoded has none. -/
def bytesOf (lines : List Points) : List UInt8 :=
  Utf8.encode (textOf ((lines.filter Points.isLegible).map Points.chars))

theorem bytesOf_append (lines more : List Points) : bytesOf (lines ++ more) = bytesOf lines ++ bytesOf more := by
  rw [bytesOf, List.filter_append, List.map_append, textOf, List.flatMap_append, Utf8.encode, List.flatMap_append]
  rfl

theorem bytesOf_singleton (line : Points) :
    bytesOf [line] = (line.legible?.map fun line => Text.Utf8.bytes (line ++ "\n")).getD [] := by
  rw [bytesOf, List.filter_singleton, Points.legible?]
  cases line.isLegible with
  | false => rfl
  | true =>
    rw [if_pos rfl, cond_true, Option.map_some, Option.getD_some, Text.Utf8.bytes, String.toList_append,
      String.toList_ofList, List.map_singleton, textOf, List.flatMap_singleton]
    rfl

/-- Cut at the line ends the text is its lines, and nothing behind the last. -/
theorem splitOn_textOf {lines : List (List Char)} (h : ∀ line ∈ lines, '\n' ∉ line) :
    (textOf lines).splitOn '\n' = lines ++ [[]] := by
  have htext : textOf lines = ['\n'].intercalate (lines ++ [[]]) := by
    clear h
    induction lines with
    | nil => rfl
    | cons line lines ih =>
      obtain ⟨next, more, hmore⟩ : ∃ next more, lines ++ [[]] = next :: more :=
        List.exists_cons_of_ne_nil (by simp)
      rw [textOf, List.flatMap_cons, ← textOf, ih, List.cons_append, hmore, List.intercalate_cons_cons]
  rw [htext, List.splitOn_intercalate]
  · intro piece hpiece
    rcases List.mem_append.1 hpiece with hpiece | hpiece
    · exact h piece hpiece
    · rw [List.mem_singleton.1 hpiece]
      exact List.not_mem_nil
  · simp

/-! ## Appending -/

section

variable {settings : Settings} {path : Path} {files : FileStore} {contents contents' : String → Option FileEntry}
  (hp : Ordinary path)
include hp

theorem rotate_eq (h : files.Directory path.isAbsolute path.parent.parts contents) :
    rotate settings path files = match contents path.name with
      | none => files
      | some entry =>
        if sizeOf entry > settings.sizeLimit then
          putAside settings (spot path.isAbsolute path.parent.parts) path entry files
        else files := by
  have hentry : FileStore.entry? files (placeIn (spot path.isAbsolute path.parent.parts) path.name) =
      contents path.name := by
    rw [placeIn_spot, h.inside]
  rw [rotate, h.homeOf?_eq hp]
  cases hthere : contents path.name <;> simp only [hentry, hthere]

/-- The line is appended after the file was put aside, if it was. -/
theorem append_of_rotate (h : files.Way path contents) (hfile : (contents path.name).any (·.isDirectory) = false)
    (hrotate : ∀ s, FileStore.Directory s path.isAbsolute path.parent.parts contents →
      (rotate settings path s).Directory path.isAbsolute path.parent.parts contents')
    {old : Option (List UInt8)} (hold : contents' path.name = old.map .file) (line : Points) :
    (append settings path line files).Directory path.isAbsolute path.parent.parts
      (Function.update contents' path.name (some (.file (old.getD [] ++ bytesOf [line])))) := by
  obtain ⟨s, hmake, hdir⟩ := h.makeDirectory_eq hp
  have hrotated := hrotate s hdir
  have hentry : FileStore.entry? (rotate settings path s)
      (placeIn (spot path.isAbsolute path.parent.parts) path.name) = old.map .file := by
    rw [placeIn_spot, hrotated.inside, hold]
  have happend : append settings path line files = (rotate settings path s).putAt
      (placeIn (spot path.isAbsolute path.parent.parts) path.name) (.file (old.getD [] ++ bytesOf [line])) := by
    rw [append, h.lookup_eq hp]
    dsimp only
    rw [hfile, if_neg Bool.false_ne_true, hmake]
    dsimp only
    rw [hrotated.step_name hp]
    dsimp only
    rw [hentry, bytesOf_singleton]
    cases old <;> rfl
  rw [happend]
  exact hrotated.putAt path.name _

/-- A file that is not too large is not put aside. -/
theorem rotate_of_small (h : files.Directory path.isAbsolute path.parent.parts contents)
    {old : Option (List UInt8)} (hold : contents path.name = old.map .file)
    (hsmall : ∀ content, old = some content → (content.length : Int) ≤ settings.sizeLimit) :
    rotate settings path files = files := by
  rw [rotate_eq hp h, hold]
  cases old with
  | none => rfl
  | some content => exact if_neg (Int.not_lt.2 (hsmall content rfl))

end

/-- The bytes of the file at a path, if one is there. -/
def fileAt? (files : FileStore) (path : Path) : Option (List UInt8) :=
  match files.lookup path with
  | .ok (some (.file content)) => some content
  | _ => none

theorem fileAt?_of_way {path : Path} {files : FileStore} {contents : String → Option FileEntry} (hp : Ordinary path)
    (h : files.Way path contents) {old : Option (List UInt8)} (hold : contents path.name = old.map .file) :
    fileAt? files path = old := by
  rw [fileAt?, h.lookup_eq hp, hold]
  cases old <;> rfl

/-! ## Runs -/

/-- The file after some lines were appended, each at its moment. -/
def appendAll (settings : Settings) (path : Path) (files : FileStore) (lines : List (Moment × Points)) : FileStore :=
  lines.foldl (fun files l => append { settings with now := l.1 } path l.2 files) files

theorem appendAll_append (settings : Settings) (path : Path) (files : FileStore)
    (lines more : List (Moment × Points)) : appendAll settings path files (lines ++ more) =
      appendAll settings path (appendAll settings path files lines) more := by
  rw [appendAll, List.foldl_append]
  rfl

/-- Neither the clock of the settings nor the number drawn matters to the file. -/
theorem appendAll_settings (settings : Settings) (now : Moment) (draw : Binary64) :
    appendAll { settings with now, draw } = appendAll settings := rfl

/-- As long as the file is not too large, it grows by the lines. -/
theorem appendAll_grows {settings : Settings} {path : Path} {files : FileStore} {contents : String → Option FileEntry}
    (hp : Ordinary path) (h : files.Way path contents) {old : Option (List UInt8)}
    (hold : contents path.name = old.map .file) (lines : List (Moment × Points))
    (hsmall : ∀ n < lines.length, ∀ content,
      fileAt? (appendAll settings path files (lines.take n)) path = some content →
        (content.length : Int) ≤ settings.sizeLimit) :
    ∃ contents' new, (appendAll settings path files lines).Way path contents' ∧
      contents' path.name = Option.map .file new ∧ new.getD [] = old.getD [] ++ bytesOf (lines.map Prod.snd) := by
  induction lines using List.reverseRecOn with
  | nil => exact ⟨contents, old, h, hold, (List.append_nil _).symm⟩
  | append_singleton lines l ih =>
    obtain ⟨contents', new, hway, hnew, hbytes⟩ := ih fun n hn => by
      have hfront : (lines ++ [l]).take n = lines.take n := List.take_append_of_le_length (Nat.le_of_lt hn)
      rw [← hfront]
      exact hsmall n (by simp; omega)
    have hlast := hsmall lines.length (by simp)
    rw [List.take_left, fileAt?_of_way hp hway hnew] at hlast
    have hfile : (contents' path.name).any (·.isDirectory) = false := by
      rw [hnew]
      cases new <;> rfl
    have hrotate : ∀ s, FileStore.Directory s path.isAbsolute path.parent.parts contents' →
        (rotate { settings with now := l.1 } path s).Directory path.isAbsolute path.parent.parts contents' := by
      intro s hs
      have hstays : rotate { settings with now := l.1 } path s = s := rotate_of_small hp hs hnew hlast
      rwa [hstays]
    have hdir := append_of_rotate hp hway hfile hrotate hnew l.2
    refine ⟨Function.update contents' path.name (some (.file (new.getD [] ++ bytesOf [l.2]))),
      some (new.getD [] ++ bytesOf [l.2]), ?_, Function.update_self .., ?_⟩
    · rw [appendAll_append]
      exact hdir.way
    · rw [Option.getD_some, hbytes, List.map_append, bytesOf_append, List.append_assoc]
      rfl

/-- A file that all lines would leave within the limit is never too large. -/
theorem small_of_total {settings : Settings} {path : Path} {files : FileStore} {contents : String → Option FileEntry}
    (hp : Ordinary path) (h : files.Way path contents) {old : Option (List UInt8)}
    (hold : contents path.name = old.map .file) {lines : List (Moment × Points)}
    (htotal : ((old.getD [] ++ bytesOf (lines.map Prod.snd)).length : Int) ≤ settings.sizeLimit) (n : Nat) :
    ∀ content, fileAt? (appendAll settings path files (lines.take n)) path = some content →
      (content.length : Int) ≤ settings.sizeLimit := by
  induction n using Nat.strong_induction_on with
  | _ n ih =>
    intro content hcontent
    obtain ⟨contents', new, hway, hnew, hbytes⟩ := appendAll_grows hp h hold (lines.take n) fun m hm => by
      rw [List.length_take] at hm
      rw [List.take_take, Nat.min_eq_left (by omega)]
      exact ih m (by omega)
    rw [fileAt?_of_way hp hway hnew] at hcontent
    rw [hcontent, Option.getD_some] at hbytes
    rw [← List.take_append_drop n lines, List.map_append, bytesOf_append, ← List.append_assoc, ← hbytes,
      List.length_append] at htotal
    omega

/-- A call that notes an event: what the clock shows when the event is completed and when its line is written, the
number drawn, the trace of the thread that calls, and the object of the event. -/
structure Call where
  made : Moment
  written : Moment
  draw : Binary64
  tracer : Tracer
  event : Nat

namespace Call

/-- The settings as a call finds them. -/
def settings (c : Call) (settings : Settings) : Settings :=
  { settings with now := c.made, draw := c.draw }

/-- The line of a call, if its event is kept. -/
def line? (c : Call) (settings : Settings) (objects : Objects) : Option Points :=
  (lineOf (c.settings settings) c.tracer (objects.get c.event)).1

/-- The line of a call with the moment at which it is written. -/
def written? (c : Call) (settings : Settings) (objects : Objects) : Option (Moment × Points) :=
  (c.line? settings objects).map (c.written, ·)

end Call

namespace Journal

/-- The journal and the objects after a call. -/
def note (j : Journal) (objects : Objects) (c : Call) : Journal × Objects :=
  { j with settings := c.settings j.settings, tracer := c.tracer }.recordObject c.written objects c.event

/-- The journal and the objects after some calls. -/
def noteAll (j : Journal) (objects : Objects) (calls : List Call) : Journal × Objects :=
  calls.foldl (fun state c => state.1.note state.2 c) (j, objects)

theorem noteAll_concat (j : Journal) (objects : Objects) (calls : List Call) (c : Call) :
    j.noteAll objects (calls ++ [c]) = (j.noteAll objects calls).1.note (j.noteAll objects calls).2 c := by
  rw [noteAll, List.foldl_append]
  rfl

theorem get_append {objects made : Objects} {i : Nat} (h : i < objects.length) :
    (objects ++ made).get i = objects.get i := by
  rw [Objects.get, Objects.get, List.getD_append _ _ _ _ h]

/-- A call appends its line, if it has one, and makes objects of its own. -/
theorem note_eq (j : Journal) (objects : Objects) (c : Call) : ∃ tracer made, j.note objects c =
    ({ j with
        settings := c.settings j.settings
        tracer
        files := appendAll j.settings j.path j.files (c.written? j.settings objects).toList },
      objects ++ made) := by
  obtain ⟨made, hline⟩ := lineOfObject_eq (c.settings j.settings) c.tracer objects c.event
  refine ⟨(lineOf (c.settings j.settings) c.tracer (objects.get c.event)).2, made, ?_⟩
  rw [note, recordObject]
  dsimp only
  rw [hline, Call.written?, Call.line?]
  cases (lineOf (c.settings j.settings) c.tracer (objects.get c.event)).1 <;> rfl

/-- The first of the results are those of the first elements. -/
theorem exists_take_filterMap {α β : Type} {f : α → Option β} {l : List α} {n : Nat} (h : n < (l.filterMap f).length) :
    ∃ m < l.length, (l.take m).filterMap f = (l.filterMap f).take n := by
  induction l generalizing n with
  | nil => cases h
  | cons a l ih =>
    cases hfa : f a with
    | none =>
      rw [List.filterMap_cons_none hfa] at h ⊢
      obtain ⟨m, hm, htake⟩ := ih h
      exact ⟨m + 1, Nat.succ_lt_succ hm, by rw [List.take_succ_cons, List.filterMap_cons_none hfa, htake]⟩
    | some b =>
      rw [List.filterMap_cons_some hfa] at h ⊢
      cases n with
      | zero => exact ⟨0, Nat.succ_pos _, rfl⟩
      | succ n =>
        obtain ⟨m, hm, htake⟩ := ih (Nat.lt_of_succ_lt_succ h)
        exact ⟨m + 1, Nat.succ_lt_succ hm, by
          rw [List.take_succ_cons, List.filterMap_cons_some hfa, htake, List.take_succ_cons]⟩

/-- The calls append their lines, and the objects there were before them stay as they are. -/
theorem noteAll_eq (j : Journal) (objects : Objects) (calls : List Call)
    (hevents : ∀ c ∈ calls, c.event < objects.length) : ∃ now draw tracer made, j.noteAll objects calls =
      ({ j with
          settings := { j.settings with now, draw }
          tracer
          files := appendAll j.settings j.path j.files (calls.filterMap (·.written? j.settings objects)) },
        objects ++ made) := by
  induction calls using List.reverseRecOn with
  | nil => exact ⟨_, _, _, [], by rw [List.append_nil]; rfl⟩
  | append_singleton calls c ih =>
    obtain ⟨now, draw, tracer, made, hbefore⟩ := ih fun c hc => hevents c (List.mem_append_left _ hc)
    obtain ⟨tracer', made', hstep⟩ := note_eq (j.noteAll objects calls).1 (j.noteAll objects calls).2 c
    have hwritten : c.written? { j.settings with now, draw } (objects ++ made) = c.written? j.settings objects := by
      rw [Call.written?, Call.line?, get_append (hevents c (by simp))]
      rfl
    have hlines : (calls ++ [c]).filterMap (·.written? j.settings objects) =
        calls.filterMap (·.written? j.settings objects) ++ (c.written? j.settings objects).toList := by
      rw [List.filterMap_append, List.filterMap_cons]
      cases c.written? j.settings objects <;> rfl
    refine ⟨c.made, c.draw, tracer', made ++ made', ?_⟩
    rw [noteAll_concat, hstep, hbefore, hlines, appendAll_append, ← List.append_assoc]
    dsimp only
    rw [hwritten, appendAll_settings]
    rfl

section

variable {j : Journal} {contents : String → Option FileEntry} {objects : Objects} {calls : List Call}

theorem files_noteAll (hevents : ∀ c ∈ calls, c.event < objects.length) : (j.noteAll objects calls).1.files =
    appendAll j.settings j.path j.files (calls.filterMap (·.written? j.settings objects)) := by
  obtain ⟨now, draw, tracer, made, hall⟩ := j.noteAll_eq objects calls hevents
  rw [hall]

theorem snd_written (settings : Settings) (objects : Objects) (calls : List Call) :
    (calls.filterMap (·.written? settings objects)).map Prod.snd = calls.filterMap (·.line? settings objects) := by
  rw [List.map_filterMap]
  refine congrArg (List.filterMap · calls) (funext fun c => ?_)
  rw [Call.written?, Option.map_map]
  exact Option.map_id'

/-- As long as the file is not too large, the calls let it grow by their lines. -/
theorem fileAt?_noteAll (hpath : Ordinary j.path) (hway : j.files.Way j.path contents) {old : Option (List UInt8)}
    (hold : contents j.path.name = old.map .file) (hevents : ∀ c ∈ calls, c.event < objects.length)
    (hsmall : ∀ n < calls.length, ∀ content,
      fileAt? (j.noteAll objects (calls.take n)).1.files j.path = some content →
        (content.length : Int) ≤ j.settings.sizeLimit) :
    (fileAt? (j.noteAll objects calls).1.files j.path).getD [] =
      old.getD [] ++ bytesOf (calls.filterMap (·.line? j.settings objects)) := by
  obtain ⟨contents', new, hway', hnew, hbytes⟩ := appendAll_grows hpath hway hold
    (calls.filterMap (·.written? j.settings objects)) fun n hn => by
      obtain ⟨m, hm, htake⟩ := exists_take_filterMap hn
      rw [← htake, ← files_noteAll fun c hc => hevents c (List.mem_of_mem_take hc)]
      exact hsmall m hm
  rw [files_noteAll hevents, fileAt?_of_way hpath hway' hnew, hbytes, snd_written]

/-- The calls keep the file within the limit if all their lines together do. -/
theorem noteAll_small (hpath : Ordinary j.path) (hway : j.files.Way j.path contents) {old : Option (List UInt8)}
    (hold : contents j.path.name = old.map .file) (hevents : ∀ c ∈ calls, c.event < objects.length)
    (htotal : ((old.getD [] ++ bytesOf (calls.filterMap (·.line? j.settings objects))).length : Int) ≤
      j.settings.sizeLimit) (n : Nat) :
    ∀ content, fileAt? (j.noteAll objects (calls.take n)).1.files j.path = some content →
      (content.length : Int) ≤ j.settings.sizeLimit := by
  rw [files_noteAll fun c hc => hevents c (List.mem_of_mem_take hc),
    List.prefix_iff_eq_take.1 ((List.take_prefix n calls).filterMap _)]
  rw [← snd_written] at htotal
  exact small_of_total hpath hway hold htotal _

/-- **The log has one document for each call with an event that can be encoded, in the order of the calls.** As long as
the file is not put aside, cut at the line ends it is the documents and nothing behind the last. Each is read as an
object that tells of the event of its call. An event that cannot be encoded leaves nothing. The objects of the events
stay as they are. -/
theorem calls_told (hpath : Ordinary j.path) (hway : j.files.Way j.path contents)
    (hempty : contents j.path.name = none ∨ contents j.path.name = some (.file []))
    (hon : j.settings.mode ≠ .off) (hrate : j.settings.rate = Binary64.ofInt 1)
    (hevents : ∀ c ∈ calls, c.event < objects.length ∧ Plain (.object (objects.get c.event)))
    (hsmall : ∀ n < calls.length, ∀ content,
      fileAt? (j.noteAll objects (calls.take n)).1.files j.path = some content →
        (content.length : Int) ≤ j.settings.sizeLimit) :
    ∃ cs documents,
      Utf8.decode ((fileAt? (j.noteAll objects calls).1.files j.path).getD []) = .ok cs ∧
      cs.splitOn '\n' = documents ++ [[]] ∧
      List.Forall₂ (fun c document => ∃ fields, Json.readChars document = .ok (.object fields) ∧
        Tells j.settings.mode c.made c.tracer (objects.get c.event) fields)
        (calls.filter fun c => isEncodable (objects.get c.event)) documents ∧
      objects <+: (j.noteAll objects calls).2 := by
  let line (c : Call) : List Char := lineTold (c.settings j.settings) c.tracer (objects.get c.event)
  let told := calls.filter fun c => isEncodable (objects.get c.event)
  have hlines : ((calls.filterMap (·.line? j.settings objects)).filter Points.isLegible).map Points.chars =
      told.map line := by
    have hline : ∀ c ∈ calls, (c.line? j.settings objects).filter Points.isLegible =
        if isEncodable (objects.get c.event) then some (Points.ofChars (line c)) else none :=
      fun c hc => legible_line_eq hon (keepsSample_of_one hrate) (hevents c hc).2
    rw [List.filter_filterMap, List.map_filterMap, ← List.filterMap_eq_map, List.filterMap_filter]
    refine List.filterMap_congr fun c hc => ?_
    rw [hline c hc]
    split
    · exact congrArg some (Points.chars_ofChars _)
    · rfl
  obtain ⟨old, hold, hnothing⟩ : ∃ old : Option (List UInt8),
      contents j.path.name = old.map .file ∧ old.getD [] = [] := by
    rcases hempty with hempty | hempty
    · exact ⟨none, hempty, rfl⟩
    · exact ⟨some [], hempty, rfl⟩
  have hread : ∀ c ∈ told, '\n' ∉ line c ∧ ∃ fields, Json.readChars (line c) = .ok (.object fields) ∧
      Tells j.settings.mode c.made c.tracer (objects.get c.event) fields := fun c hc =>
    lineTold_tells (c.settings j.settings) c.tracer (hevents c (List.mem_filter.1 hc).1).2 (List.mem_filter.1 hc).2
  refine ⟨textOf (told.map line), told.map line, ?_, ?_, ?_, ?_⟩
  · rw [fileAt?_noteAll hpath hway hold (fun c hc => (hevents c hc).1) hsmall, hnothing, List.nil_append, bytesOf, hlines]
    exact Text.Utf8.decode_encode _
  · exact splitOn_textOf (List.forall_mem_map.2 fun c hc => (hread c hc).1)
  · rw [List.forall₂_map_right_iff, List.forall₂_same]
    exact fun c hc => (hread c hc).2
  · obtain ⟨now, draw, tracer, made, hall⟩ := j.noteAll_eq objects calls
      fun c hc => (hevents c hc).1
    rw [hall]
    exact List.prefix_append _ _

end

/-- A log whose directory is not there yet. -/
def fresh : Journal where
  settings := { mode := .redacted, rate := .ofInt 1, draw := .ofInt 0, sizeLimit := 1000, now := clock }
  path := ⟨"", ["logs", "showast.log"]⟩
  files := .empty
  tracer := .initial
where
  /-- The clock. -/
  clock : Moment := ⟨2024, 1, 2, 3, 4, 5, 678901, .universal⟩

/-- An event with a level of its own, one with line ends and quotes in its texts, and one that cannot be encoded. -/
def freshEvents : Objects :=
  [[("level", .text "warning"), ("count", .int 7)], [("kind", .text "a\n\"b\"\u2028"), ("error", .text "secret")],
    [("x", .text [.half ⟨0, by decide⟩])]]

/-- The first event twice, then the others. -/
def freshCalls : List Call :=
  [0, 0, 1, 2].map fun event =>
    { made := fresh.clock, written := fresh.clock, draw := .ofInt 0, tracer := .initial, event }

/-- The lines of the events that can be encoded. -/
def freshLines : List (List Char) :=
  [told, told,
    "\x7b\"kind\": \"a\\n\\\"b\\\"\u2028\", ".toList ++ "\"error\": \"[REDACTED len=6 sha256=2bb80d537b1d]\", ".toList ++
      "\"timestamp\": \"2024-01-02T03:04:05.678901+00:00\", ".toList ++ "\"trace_id\": \"t-000000000001\", ".toList ++
      "\"level\": \"info\"\x7d".toList]
where
  /-- The line of the first event. -/
  told : List Char :=
    "\x7b\"level\": \"warning\", \"count\": 7, ".toList ++
      "\"timestamp\": \"2024-01-02T03:04:05.678901+00:00\", ".toList ++ "\"trace_id\": \"t-000000000001\"\x7d".toList

theorem plain_freshEvents : ∀ c ∈ freshCalls, Plain (.object (freshEvents.get c.event)) := by
  have hfirst : Plain (.object (freshEvents.get 0)) := by
    refine .object (by decide) ?_
    simp only [freshEvents, Objects.get, List.getD_cons_zero, List.forall_mem_cons]
    have hshort : 7 < 10 ^ Integer.digitLimit :=
      Nat.lt_of_lt_of_le (by decide : 7 < 10 ^ 1) (Nat.pow_le_pow_right (by decide) (by decide))
    exact ⟨.text _, .int (Integer.isShort_ofNat hshort false), List.forall_mem_nil _⟩
  have hsecond : Plain (.object (freshEvents.get 1)) := by
    refine .object (by decide) ?_
    simp only [freshEvents, Objects.get, List.getD_cons_succ, List.getD_cons_zero, List.forall_mem_cons]
    exact ⟨.text _, .text _, List.forall_mem_nil _⟩
  have hthird : Plain (.object (freshEvents.get 2)) := by
    refine .object (by decide) ?_
    simp only [freshEvents, Objects.get, List.getD_cons_succ, List.getD_cons_zero, List.forall_mem_cons]
    exact ⟨.text _, List.forall_mem_nil _⟩
  simp only [freshCalls, List.map_cons, List.map_nil, List.forall_mem_cons]
  exact ⟨hfirst, hfirst, hsecond, hthird, List.forall_mem_nil _⟩

theorem ordinary_fresh : Ordinary fresh.path := by
  refine ⟨by decide, ?_, by decide +kernel⟩
  simp only [fresh, List.forall_mem_cons, FileStore.IsName]
  decide +kernel

theorem bytesOf_fresh :
    bytesOf (freshCalls.filterMap (·.line? fresh.settings freshEvents)) = Utf8.encode (textOf freshLines) := by
  have hlines : ((freshCalls.filterMap (·.line? fresh.settings freshEvents)).filter Points.isLegible).map Points.chars =
      freshLines := by
    decide +kernel
  rw [bytesOf, hlines]

/-- The documents are the lines, of which the last has the error replaced. -/
theorem calls_told_fresh : ∃ cs documents,
    Utf8.decode ((fileAt? (fresh.noteAll freshEvents freshCalls).1.files fresh.path).getD []) = .ok cs ∧
    cs.splitOn '\n' = documents ++ [[]] ∧ documents = freshLines ∧
    List.Forall₂ (fun c document => ∃ fields, Json.readChars document = .ok (.object fields) ∧
      Tells fresh.settings.mode c.made c.tracer (freshEvents.get c.event) fields)
      (freshCalls.filter fun c => isEncodable (freshEvents.get c.event)) documents ∧
    freshEvents <+: (fresh.noteAll freshEvents freshCalls).2 := by
  have hindex : ∀ c ∈ freshCalls, c.event < freshEvents.length := by decide
  have hold : (none : Option FileEntry) = (none : Option (List UInt8)).map .file := rfl
  have hsmall := noteAll_small ordinary_fresh (FileStore.empty_way _) hold hindex (by
    rw [bytesOf_fresh]
    decide +kernel)
  obtain ⟨cs, documents, hcs, hcut, htold, hsame⟩ := calls_told ordinary_fresh (FileStore.empty_way _) (.inl rfl)
    (by decide) rfl (fun c hc => ⟨hindex c hc, plain_freshEvents c hc⟩) fun n _ => hsmall n
  refine ⟨cs, documents, hcs, hcut, ?_, htold, hsame⟩
  rw [fileAt?_noteAll ordinary_fresh (FileStore.empty_way _) hold hindex fun n _ => hsmall n, bytesOf_fresh] at hcs
  cases hcs.symm.trans (Text.Utf8.decode_encode _)
  rw [splitOn_textOf (by decide +kernel)] at hcut
  exact (List.append_cancel_right hcut).symm

/-- The last event leaves no document, though it is one without loss. -/
theorem not_told_half :
    Plain (.object (freshEvents.get 2)) ∧
    ∀ cs documents, Utf8.decode ((fileAt? (fresh.noteAll freshEvents (freshCalls.drop 3)).1.files fresh.path).getD []) =
      .ok cs → cs.splitOn '\n' = documents ++ [[]] → documents.length ≠ (freshCalls.drop 3).length := by
  refine ⟨plain_freshEvents _ (List.mem_of_getElem? (i := 3) rfl), fun cs documents hcs hcut => ?_⟩
  have hfile : fileAt? (fresh.noteAll freshEvents (freshCalls.drop 3)).1.files fresh.path = some [] := by
    decide +kernel
  rw [hfile] at hcs
  cases hcs
  have hnone : documents ++ [[]] = [] ++ [[]] := hcut.symm
  rw [List.append_cancel_right hnone]
  decide

end Journal
end ScriptTree.Log
