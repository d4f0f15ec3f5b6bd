/-
What is left of a text without terminal escapes and with single line breaks. Only the first character of an
escape is the escape character, so no two escapes overlap, and all of them go at once (`dropEscapes_append`,
`dropEscapes_escape`). But what goes may have stood inside of what stays: what is left has an escape exactly
where the text had one with whole escapes between its characters (`hasEscape_dropEscapes_iff`), and it has a
return before a line feed exactly where there were two (`returnLineFeed_joinLineEnds_iff`).
-/
import ScriptTree.Text.Terminal
import ScriptTree.Proofs.Text.Part

namespace ScriptTree.Text

/-! ## Escapes -/

/-- A terminal escape: the escape character, a bracket, parameters and a letter. -/
def IsEscape (e : List Char) : Prop :=
  ∃ params letter, e = '\x1b' :: '[' :: (params ++ [letter]) ∧
    (∀ c ∈ params, isEscapeParameter c = true) ∧ letter.isAlpha = true

/-- There is a terminal escape in the text. -/
def HasEscape (cs : List Char) : Prop :=
  ∃ e, IsEscape e ∧ e <:+: cs

theorem toNat_of_isAlpha {c : Char} (h : c.isAlpha = true) :
    (65 ≤ c.toNat ∧ c.toNat ≤ 90) ∨ (97 ≤ c.toNat ∧ c.toNat ≤ 122) := by
  simpa [Char.isAlpha, Char.isUpper, Char.isLower, UInt32.le_iff_toNat_le] using h

/-- Letters are no white space. -/
theorem isBlank_of_isAlpha {c : Char} (h : c.isAlpha = true) : isBlank c = false := by
  have hcode := toNat_of_isAlpha h
  simp only [isBlank, Bool.or_eq_false_iff, Bool.and_eq_false_iff, decide_eq_false_iff_not, beq_eq_false_iff_ne]
  omega

theorem isEscapeParameter_of_isAlpha {c : Char} (h : c.isAlpha = true) : isEscapeParameter c = false := by
  have hdigit : c.isDigit = false := by
    have hcode := toNat_of_isAlpha h
    simp only [Char.isDigit, Bool.and_eq_false_iff, decide_eq_false_iff_not, ge_iff_le, UInt32.le_iff_toNat_le]
    simp
    omega
  have hsemicolon : c ≠ ';' := by
    rintro rfl
    exact absurd h (by decide)
  have hmark : c ≠ '?' := by
    rintro rfl
    exact absurd h (by decide)
  simp [isEscapeParameter, hdigit, hsemicolon, hmark]

namespace IsEscape

variable {e : List Char}

/-- There is nothing else in an escape. -/
theorem mem {c : Char} (h : IsEscape e) (hc : c ∈ e) :
    c = '\x1b' ∨ c = '[' ∨ isEscapeParameter c = true ∨ c.isAlpha = true := by
  obtain ⟨params, letter, rfl, hparams, hletter⟩ := h
  rw [List.mem_cons, List.mem_cons, List.mem_append, List.mem_singleton] at hc
  rcases hc with hc | hc | hc | rfl
  · exact .inl hc
  · exact .inr (.inl hc)
  · exact .inr (.inr (.inl (hparams c hc)))
  · exact .inr (.inr (.inr hletter))

theorem lineFeed_not_mem (h : IsEscape e) : '\n' ∉ e :=
  fun hc => absurd (h.mem hc) (by decide)

theorem return_not_mem (h : IsEscape e) : '\r' ∉ e :=
  fun hc => absurd (h.mem hc) (by decide)

/-- The escape character is the first of an escape and no other. -/
theorem cons (h : IsEscape e) : ∃ u, e = '\x1b' :: u ∧ '\x1b' ∉ u := by
  obtain ⟨params, letter, rfl, hparams, hletter⟩ := h
  refine ⟨_, rfl, fun hmem => ?_⟩
  rw [List.mem_cons, List.mem_append, List.mem_singleton] at hmem
  rcases hmem with heq | hmem | rfl
  · exact absurd heq (by decide)
  · exact absurd (hparams _ hmem) (by decide)
  · exact absurd hletter (by decide)

/-- An escape ends with its first letter, so none is the beginning of another one. -/
theorem eq_of_prefix {e' : List Char} (h : IsEscape e) (h' : IsEscape e') (hstart : e <+: e') : e = e' := by
  obtain ⟨params, letter, rfl, -, hletter⟩ := h
  obtain ⟨params', letter', rfl, hparams', -⟩ := h'
  rw [List.cons_prefix_cons, List.cons_prefix_cons, List.prefix_concat_iff] at hstart
  obtain ⟨-, -, heq | hstart⟩ := hstart
  · rw [heq]
  · have hmem : letter ∈ params' := hstart.subset (List.mem_append_right _ List.mem_cons_self)
    have hnone := isEscapeParameter_of_isAlpha hletter
    rw [hparams' letter hmem] at hnone
    cases hnone

/-- An escape that begins before an escape character does not go on behind it. -/
theorem prefix_of_append {before after : List Char} {c : Char} (h : IsEscape e)
    (hstart : e <+: c :: (before ++ '\x1b' :: after)) : e <+: c :: before := by
  obtain ⟨u, rfl, hu⟩ := h.cons
  obtain ⟨rfl, hrest⟩ := List.cons_prefix_cons.1 hstart
  exact List.cons_prefix_cons.2 ⟨rfl, prefix_of_not_mem hu before hrest⟩

end IsEscape

/-- What follows an escape is what is left of the text behind it. -/
theorem afterEscape?_eq_some_iff {cs rest : List Char} :
    afterEscape? cs = some rest ↔ ∃ e, IsEscape ('\x1b' :: e) ∧ cs = e ++ rest := by
  constructor
  · intro h
    unfold afterEscape? at h
    split at h
    · rename_i ds
      split at h
      · rename_i c ds' hdrop
        split at h
        · rename_i halpha
          cases h
          refine ⟨'[' :: (ds.takeWhile isEscapeParameter ++ [c]),
            ⟨_, c, rfl, fun d hd => List.mem_takeWhile_imp hd, halpha⟩, ?_⟩
          have hsplit := List.takeWhile_append_dropWhile (p := isEscapeParameter) (l := ds)
          rw [hdrop] at hsplit
          simp [hsplit]
        · cases h
      · cases h
    · cases h
  · rintro ⟨_, ⟨params, letter, heq, hparams, hletter⟩, rfl⟩
    obtain rfl := (List.cons.inj heq).2
    have hdrop : (params ++ [letter] ++ rest).dropWhile isEscapeParameter = letter :: rest := by
      rw [List.append_assoc, List.dropWhile_append_of_pos hparams, List.singleton_append,
        List.dropWhile_cons_of_neg (by rw [isEscapeParameter_of_isAlpha hletter]; exact Bool.false_ne_true)]
    rw [List.cons_append, afterEscape?, hdrop]
    exact if_pos hletter

/-! ## Dropping escapes -/

theorem dropEscapesFrom_eq (skip : Nat) (cs : List Char) :
    dropEscapesFrom skip cs = dropEscapes (cs.drop skip) := by
  induction cs generalizing skip with
  | nil => cases skip <;> rfl
  | cons c cs ih =>
    cases skip with
    | zero => rfl
    | succ skip => rw [dropEscapesFrom, ih, List.drop_succ_cons]

/-- An escape is dropped. -/
theorem dropEscapes_escape {e : List Char} (h : IsEscape e) (cs : List Char) :
    dropEscapes (e ++ cs) = dropEscapes cs := by
  obtain ⟨u, rfl, -⟩ := h.cons
  have hlength : escapeLength (u ++ cs) = u.length := by
    rw [escapeLength, afterEscape?_eq_some_iff.2 ⟨u, h, rfl⟩]
    simp
  obtain ⟨k, hk⟩ : ∃ k, u.length = k + 1 := by
    obtain ⟨params, letter, heq, -⟩ := h
    obtain rfl := (List.cons.inj heq).2
    exact ⟨_, rfl⟩
  rw [List.cons_append, dropEscapes, dropEscapesFrom, if_pos rfl, hlength, hk]
  show dropEscapesFrom (k + 1) (u ++ cs) = dropEscapes cs
  rw [dropEscapesFrom_eq, ← hk, List.drop_left]

/-- A character that begins no escape stays. -/
theorem dropEscapes_char {c : Char} {cs : List Char} (h : ∀ e, IsEscape e → ¬ e <+: c :: cs) :
    dropEscapes (c :: cs) = c :: dropEscapes cs := by
  rw [dropEscapes, dropEscapesFrom]
  split
  · rename_i hc
    have hnone : afterEscape? cs = none := by
      rw [Option.eq_none_iff_forall_ne_some]
      intro rest hrest
      obtain ⟨e, he, rfl⟩ := afterEscape?_eq_some_iff.1 hrest
      exact h _ he (hc ▸ List.prefix_append _ _)
    rw [escapeLength, hnone]
    rfl
  · rfl

theorem dropEscapes_cons {c : Char} (h : c ≠ '\x1b') (cs : List Char) :
    dropEscapes (c :: cs) = c :: dropEscapes cs := by
  rw [dropEscapes, dropEscapesFrom, if_neg h]
  rfl

/-- A text is made of escapes and of characters that begin none. -/
theorem escapeInduction {P : List Char → Prop} (nil : P [])
    (escape : ∀ e cs, IsEscape e → P cs → P (e ++ cs))
    (char : ∀ c cs, (∀ e, IsEscape e → ¬ e <+: c :: cs) → P cs → P (c :: cs)) (cs : List Char) : P cs := by
  induction hn : cs.length using Nat.strong_induction_on generalizing cs with
  | _ n ih =>
    cases cs with
    | nil => exact nil
    | cons c cs =>
      by_cases h : ∃ e, IsEscape e ∧ e <+: c :: cs
      · obtain ⟨e, he, rest, heq⟩ := h
        obtain ⟨u, rfl, -⟩ := he.cons
        rw [← heq]
        refine escape _ rest he (ih rest.length ?_ rest rfl)
        rw [← hn, ← heq, List.length_append, List.length_cons]
        omega
      · push Not at h
        exact char c cs h (ih cs.length (by rw [← hn]; exact Nat.lt_succ_self _) cs rfl)

theorem dropEscapes_sublist (cs : List Char) : (dropEscapes cs).Sublist cs := by
  induction cs using escapeInduction with
  | nil => exact .slnil
  | escape e cs he ih =>
    rw [dropEscapes_escape he]
    exact ih.trans (List.sublist_append_right e cs)
  | char c cs hchar ih =>
    rw [dropEscapes_char hchar]
    exact ih.cons_cons c

/-- What comes before an escape character is cleaned as if nothing followed. -/
theorem dropEscapes_append (before after : List Char) :
    dropEscapes (before ++ '\x1b' :: after) = dropEscapes before ++ dropEscapes ('\x1b' :: after) := by
  induction before using escapeInduction with
  | nil => rfl
  | escape e cs he ih => rw [List.append_assoc, dropEscapes_escape he, dropEscapes_escape he, ih]
  | char c cs hchar ih =>
    rw [List.cons_append, dropEscapes_char fun e he hstart => hchar e he (he.prefix_of_append hstart),
      dropEscapes_char hchar, ih, List.cons_append]

/-- Only a text without escapes stays as it is. -/
theorem dropEscapes_eq_self_iff {cs : List Char} : dropEscapes cs = cs ↔ ¬ HasEscape cs := by
  constructor
  · rintro h ⟨e, he, before, after, rfl⟩
    obtain ⟨u, rfl, -⟩ := he.cons
    have hlength := congrArg List.length h
    rw [List.append_assoc, List.cons_append, dropEscapes_append, ← List.cons_append, dropEscapes_escape he] at hlength
    have hbefore := (dropEscapes_sublist before).length_le
    have hafter := (dropEscapes_sublist after).length_le
    simp only [List.length_append, List.length_cons] at hlength
    omega
  · intro h
    induction cs using escapeInduction with
    | nil => rfl
    | escape e cs he ih => exact absurd ⟨e, he, (List.prefix_append e cs).isInfix⟩ h
    | char c cs hchar ih =>
      rw [dropEscapes_char hchar, ih]
      exact fun ⟨e, he, hin⟩ => h ⟨e, he, hin.trans (List.suffix_cons c cs).isInfix⟩

/-! ## Interrupted escapes -/

/-- The second text is the first with whole escapes put in before some of its characters. -/
inductive Laced : List Char → List Char → Prop
  | nil : Laced [] []
  | char (c : Char) {cs us : List Char} : Laced cs us → Laced (c :: cs) (c :: us)
  | escape {e cs us : List Char} (c : Char) : IsEscape e → Laced (c :: cs) us → Laced (c :: cs) (e ++ us)

/-- There is a terminal escape in the text that has other, whole ones between its characters. -/
def HasInterruptedEscape (cs : List Char) : Prop :=
  ∃ e u, IsEscape ('\x1b' :: e) ∧ Laced e u ∧ u ≠ e ∧ '\x1b' :: u <:+: cs

/-- What was put in is dropped. -/
theorem Laced.dropEscapes_append {e u : List Char} (h : Laced e u) (he : '\x1b' ∉ e) (rest : List Char) :
    dropEscapes (u ++ rest) = e ++ dropEscapes rest := by
  induction h with
  | nil => rfl
  | char c _ ih =>
    rw [List.mem_cons, not_or] at he
    rw [List.cons_append, dropEscapes_cons (Ne.symm he.1), ih he.2, List.cons_append]
  | escape c hescape _ ih => rw [List.append_assoc, dropEscapes_escape hescape, ih he]

/-- Something was put in behind a part that has at least one character less. -/
theorem Laced.exists_escape {e u : List Char} (h : Laced e u) (hne : u ≠ e) :
    ∃ before c after rest, e = before ++ c :: after ∧ u = before ++ '\x1b' :: rest := by
  induction h with
  | nil => exact absurd rfl hne
  | char c _ ih =>
    obtain ⟨before, d, after, rest, rfl, rfl⟩ := ih fun h => hne (h ▸ rfl)
    exact ⟨c :: before, d, after, rest, rfl, rfl⟩
  | @escape x cs us c hx _ _ =>
    obtain ⟨v, rfl, -⟩ := hx.cons
    exact ⟨[], c, cs, v ++ us, rfl, rfl⟩

/-- The beginning of what is left has had escapes between its characters. -/
theorem exists_laced_of_prefix {cs left : List Char} (h : left <+: dropEscapes cs) :
    ∃ u, Laced left u ∧ u <+: cs := by
  induction cs using escapeInduction generalizing left with
  | nil =>
    obtain rfl := List.prefix_nil.1 h
    exact ⟨[], .nil, List.nil_prefix⟩
  | escape e cs he ih =>
    rw [dropEscapes_escape he] at h
    cases left with
    | nil => exact ⟨[], .nil, List.nil_prefix⟩
    | cons c left =>
      obtain ⟨u, hu, hstart⟩ := ih h
      exact ⟨e ++ u, .escape c he hu, (List.prefix_append_right_inj e).2 hstart⟩
  | char c cs hchar ih =>
    rw [dropEscapes_char hchar] at h
    rcases List.prefix_cons_iff.1 h with rfl | ⟨left, rfl, hleft⟩
    · exact ⟨[], .nil, List.nil_prefix⟩
    · obtain ⟨u, hu, hstart⟩ := ih hleft
      exact ⟨c :: u, .char c hu, List.cons_prefix_cons.2 ⟨rfl, hstart⟩⟩

/-- An escape in what is left was an interrupted one. -/
theorem interrupted_of_dropEscapes {cs : List Char} (h : HasEscape (dropEscapes cs)) :
    HasInterruptedEscape cs := by
  obtain ⟨e, he, hin⟩ := h
  obtain ⟨v, rfl, -⟩ := he.cons
  induction cs using escapeInduction with
  | nil => cases List.infix_nil.1 hin
  | escape x cs hx ih =>
    rw [dropEscapes_escape hx] at hin
    obtain ⟨w, u, hw, hu, hne, hpart⟩ := ih hin
    exact ⟨w, u, hw, hu, hne, hpart.trans (List.suffix_append x cs).isInfix⟩
  | char c cs hchar ih =>
    rw [dropEscapes_char hchar] at hin
    rcases List.infix_cons_iff.1 hin with hbegin | hin
    · obtain ⟨rfl, hrest⟩ := List.cons_prefix_cons.1 hbegin
      obtain ⟨u, hu, hstart⟩ := exists_laced_of_prefix hrest
      refine ⟨v, u, he, hu, ?_, (List.cons_prefix_cons.2 ⟨rfl, hstart⟩).isInfix⟩
      -- with nothing between its characters it would have been dropped
      rintro rfl
      exact hchar _ he (List.cons_prefix_cons.2 ⟨rfl, hstart⟩)
    · obtain ⟨w, u, hw, hu, hne, hpart⟩ := ih hin
      exact ⟨w, u, hw, hu, hne, hpart.trans (List.suffix_cons c cs).isInfix⟩

/-- An escape is left exactly where there was an interrupted one. -/
theorem hasEscape_dropEscapes_iff {cs : List Char} : HasEscape (dropEscapes cs) ↔ HasInterruptedEscape cs := by
  refine ⟨interrupted_of_dropEscapes, ?_⟩
  rintro ⟨e, u, he, hu, hne, before, after, rfl⟩
  have hnot : '\x1b' ∉ e := by
    obtain ⟨v, heq, hv⟩ := he.cons
    rwa [(List.cons.inj heq).2]
  -- what was put in first comes before the escape could end
  have hchar : ∀ x, IsEscape x → ¬ x <+: '\x1b' :: (u ++ after) := by
    intro x hx hbegin
    obtain ⟨start, c, left, rest, rfl, rfl⟩ := hu.exists_escape hne
    rw [List.append_assoc, List.cons_append] at hbegin
    have hstart := hx.prefix_of_append hbegin
    obtain rfl := hx.eq_of_prefix he
      (hstart.trans (List.cons_prefix_cons.2 ⟨rfl, List.prefix_append start (c :: left)⟩))
    have hlength := hstart.length_le
    simp only [List.length_cons, List.length_append] at hlength
    omega
  refine ⟨_, he, ?_⟩
  rw [List.append_assoc, List.cons_append, dropEscapes_append, dropEscapes_char hchar,
    hu.dropEscapes_append hnot, ← List.cons_append, ← List.append_assoc]
  exact ⟨_, _, rfl⟩

/-! ## Joining line ends -/

theorem joinLineEnds_returnLineFeed (cs : List Char) :
    joinLineEnds ('\r' :: '\n' :: cs) = '\n' :: joinLineEnds cs := by
  rw [joinLineEnds]

theorem joinLineEnds_cons {c : Char} {cs : List Char} (h : ¬ ['\r', '\n'] <+: c :: cs) :
    joinLineEnds (c :: cs) = c :: joinLineEnds cs := by
  rw [joinLineEnds]
  rintro ds rfl rfl
  exact h (List.prefix_append ['\r', '\n'] ds)

theorem joinLineEnds_lineFeed (cs : List Char) : joinLineEnds ('\n' :: cs) = '\n' :: joinLineEnds cs :=
  joinLineEnds_cons fun h => absurd (List.cons_prefix_cons.1 h).1 (by decide)

/-- A text is made of line ends with a return and of characters that begin none. -/
theorem lineEndInduction {P : List Char → Prop} (nil : P []) (pair : ∀ cs, P cs → P ('\r' :: '\n' :: cs))
    (char : ∀ c cs, ¬ ['\r', '\n'] <+: c :: cs → P cs → P (c :: cs)) (cs : List Char) : P cs := by
  induction cs using joinLineEnds.induct with
  | case1 cs ih => exact pair cs ih
  | case2 c cs hpair ih =>
    refine char c cs ?_ ih
    rintro ⟨ds, heq⟩
    obtain ⟨rfl, rfl⟩ := List.cons.inj heq
    exact hpair ds rfl rfl
  | case3 => exact nil

theorem joinLineEnds_sublist (cs : List Char) : (joinLineEnds cs).Sublist cs := by
  induction cs using lineEndInduction with
  | nil => exact .slnil
  | pair cs ih =>
    rw [joinLineEnds_returnLineFeed]
    exact (ih.cons_cons '\n').cons '\r'
  | char c cs hchar ih =>
    rw [joinLineEnds_cons hchar]
    exact ih.cons_cons c

theorem joinLineEnds_eq_nil_iff {cs : List Char} : joinLineEnds cs = [] ↔ cs = [] := by
  induction cs using lineEndInduction with
  | nil => exact iff_of_true rfl rfl
  | pair cs _ =>
    rw [joinLineEnds_returnLineFeed]
    exact iff_of_false (List.cons_ne_nil _ _) (List.cons_ne_nil _ _)
  | char c cs hchar _ =>
    rw [joinLineEnds_cons hchar]
    exact iff_of_false (List.cons_ne_nil _ _) (List.cons_ne_nil _ _)

/-- Only a text without a return before a line feed stays as it is. -/
theorem joinLineEnds_eq_self_iff {cs : List Char} : joinLineEnds cs = cs ↔ ¬ ['\r', '\n'] <:+: cs := by
  induction cs using lineEndInduction with
  | nil => exact iff_of_true rfl (by decide)
  | pair cs _ =>
    refine iff_of_false (fun h => ?_) (not_not_intro (List.prefix_append ['\r', '\n'] cs).isInfix)
    rw [joinLineEnds_returnLineFeed] at h
    exact absurd (List.cons.inj h).1 (by decide)
  | char c cs hchar ih =>
    rw [joinLineEnds_cons hchar, List.cons_inj_right, ih, List.infix_cons_iff, not_or]
    exact (and_iff_right hchar).symm

theorem prefix_joinLineEnds_iff {part cs : List Char} (hreturn : '\r' ∉ part) (hfeed : '\n' ∉ part) :
    part <+: joinLineEnds cs ↔ part <+: cs := by
  induction cs using lineEndInduction generalizing part with
  | nil => exact Iff.rfl
  | pair cs _ =>
    cases part with
    | nil => exact iff_of_true List.nil_prefix List.nil_prefix
    | cons d part =>
      rw [List.mem_cons, not_or] at hreturn hfeed
      rw [joinLineEnds_returnLineFeed, List.cons_prefix_cons, List.cons_prefix_cons]
      exact iff_of_false (fun h => hfeed.1 h.1.symm) fun h => hreturn.1 h.1.symm
  | char c cs hchar ih =>
    rw [joinLineEnds_cons hchar]
    cases part with
    | nil => exact iff_of_true List.nil_prefix List.nil_prefix
    | cons d part =>
      rw [List.mem_cons, not_or] at hreturn hfeed
      rw [List.cons_prefix_cons, List.cons_prefix_cons]
      exact and_congr_right' (ih hreturn.2 hfeed.2)

/-- A part without line breaks is neither made nor broken. -/
theorem infix_joinLineEnds_iff {part cs : List Char} (hreturn : '\r' ∉ part) (hfeed : '\n' ∉ part) :
    part <:+: joinLineEnds cs ↔ part <:+: cs := by
  induction cs using lineEndInduction with
  | nil => exact Iff.rfl
  | pair cs ih =>
    rw [joinLineEnds_returnLineFeed, infix_cons_iff_of_not_mem hfeed, infix_cons_iff_of_not_mem hreturn,
      infix_cons_iff_of_not_mem hfeed]
    exact ih
  | char c cs hchar ih =>
    have hstart : part <+: joinLineEnds (c :: cs) ↔ part <+: c :: cs := prefix_joinLineEnds_iff hreturn hfeed
    rw [joinLineEnds_cons hchar] at hstart ⊢
    rw [List.infix_cons_iff, List.infix_cons_iff]
    exact or_congr hstart ih

theorem lineFeed_prefix_joinLineEnds_iff {cs : List Char} :
    ['\n'] <+: joinLineEnds cs ↔ ['\n'] <+: cs ∨ ['\r', '\n'] <+: cs := by
  induction cs using lineEndInduction with
  | nil => decide
  | pair cs _ =>
    rw [joinLineEnds_returnLineFeed]
    exact iff_of_true (List.prefix_append ['\n'] _) (.inr (List.prefix_append ['\r', '\n'] cs))
  | char c cs hchar _ =>
    rw [joinLineEnds_cons hchar, or_iff_left hchar, List.cons_prefix_cons, List.cons_prefix_cons]
    exact and_congr_right' (iff_of_true List.nil_prefix List.nil_prefix)

/-- A return is left before a line feed exactly where there were two. -/
theorem returnLineFeed_joinLineEnds_iff {cs : List Char} :
    ['\r', '\n'] <:+: joinLineEnds cs ↔ ['\r', '\r', '\n'] <:+: cs := by
  induction cs using lineEndInduction with
  | nil => decide
  | pair cs ih =>
    rw [joinLineEnds_returnLineFeed]
    simp [List.infix_cons_iff, List.cons_prefix_cons, ih]
  | char c cs hchar ih =>
    rw [joinLineEnds_cons hchar, List.infix_cons_iff, List.infix_cons_iff, List.cons_prefix_cons,
      List.cons_prefix_cons, lineFeed_prefix_joinLineEnds_iff]
    refine or_congr (and_congr_right fun hc => or_iff_right fun hfeed => ?_) ih
    exact hchar (List.cons_prefix_cons.2 ⟨hc, hfeed⟩)

/-! ## Joining and trimming -/

theorem trimLeft_joinLineEnds (cs : List Char) : trimLeft (joinLineEnds cs) = joinLineEnds (trimLeft cs) := by
  induction cs using lineEndInduction with
  | nil => rfl
  | pair cs ih => rw [joinLineEnds_returnLineFeed]; exact ih
  | char c cs hchar ih =>
    rw [joinLineEnds_cons hchar]
    by_cases hc : isBlank c = true
    · rw [trimLeft, trimLeft, List.dropWhile_cons_of_pos hc, List.dropWhile_cons_of_pos hc]
      exact ih
    · rw [trimLeft, trimLeft, List.dropWhile_cons_of_neg hc, List.dropWhile_cons_of_neg hc,
        joinLineEnds_cons hchar]

/-- At the end a line end goes with all its characters, and a character that stays has the same ones before
and after the line ends were joined. -/
theorem trimRight_joinLineEnds (cs : List Char) :
    trimRight (joinLineEnds cs) = joinLineEnds (trimRight cs) := by
  induction cs using lineEndInduction with
  | nil => rfl
  | pair cs ih =>
    rw [joinLineEnds_returnLineFeed]
    by_cases hcs : trimRight cs = []
    · have hjoined : trimRight (joinLineEnds cs) = [] := by rw [ih, hcs]; rfl
      have hfeed : trimRight ('\n' :: cs) = [] := trimRight_cons_of_nil hcs (by decide)
      rw [trimRight_cons_of_nil hjoined (by decide), trimRight_cons_of_nil hfeed (by decide)]
      rfl
    · have hjoined : trimRight (joinLineEnds cs) ≠ [] := by rwa [ih, ne_eq, joinLineEnds_eq_nil_iff]
      have hfeed : trimRight ('\n' :: cs) = '\n' :: trimRight cs := trimRight_cons_of_ne (.inl hcs)
      rw [trimRight_cons_of_ne (.inl hjoined), trimRight_cons_of_ne (.inl (hfeed ▸ List.cons_ne_nil _ _)),
        hfeed, joinLineEnds_returnLineFeed, ih]
  | char c cs hchar ih =>
    have hempty : trimRight (joinLineEnds cs) = [] ↔ trimRight cs = [] := by
      rw [ih, joinLineEnds_eq_nil_iff]
    rw [joinLineEnds_cons hchar]
    by_cases h : trimRight cs = [] ∧ isBlank c = true
    · rw [trimRight_cons_of_nil h.1 h.2, trimRight_cons_of_nil (hempty.2 h.1) h.2]
      rfl
    · rw [not_and_or, Bool.not_eq_true] at h
      have hstart : ¬ ['\r', '\n'] <+: c :: trimRight cs := fun hpair =>
        hchar (hpair.trans (List.cons_prefix_cons.2 ⟨rfl, List.rdropWhile_prefix isBlank cs⟩))
      rw [trimRight_cons_of_ne h, trimRight_cons_of_ne (h.imp_left (mt hempty.1)), joinLineEnds_cons hstart, ih]

/-- Line ends are white space, so they may be joined before or after the text is trimmed. -/
theorem trim_joinLineEnds (cs : List Char) : trim (joinLineEnds cs) = joinLineEnds (trim cs) := by
  rw [trim, trimLeft_joinLineEnds, trimRight_joinLineEnds, trim]

end ScriptTree.Text
