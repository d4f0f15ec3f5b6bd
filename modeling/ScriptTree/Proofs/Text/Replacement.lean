/-
What bytes stand for when everything that is no UTF-8 is replaced, said without the machine that reads
them: the bytes of a character stand for it, and where no character stands, the longest run of bytes with
which a character begins, or one byte if there is none, stands for one replacement character (`Denotes`).
Bytes stand for exactly one text, the one that the machine reads (`denotes_iff`), and the machine is inside
a character at their end just when they end in the middle of one (`run_ne_start_iff`).

The machine has read a part of a character, and nothing else, just when the part begins a character: what
it still owes can always be supplied, and it reports no fault inside the bytes of a character.
-/
import ScriptTree.Proofs.Text.Utf8

namespace ScriptTree.Text.Utf8

open String (utf8EncodeChar)

/-! ## What bytes stand for -/

/-- The character that stands for what is no UTF-8. -/
def replacement : Char :=
  Char.ofNat 0xfffd

/-- The bytes of some character begin so. -/
def Begins (part : List UInt8) : Prop :=
  ∃ c, part <+: utf8EncodeChar c

/-- The bytes `part`, with `rest` behind them, are what one replacement character stands for: no character
stands there, and no character begins with more of the bytes. -/
structure IsFault (part rest : List UInt8) : Prop where
  nonempty : part ≠ []
  noChar : ∀ c, ¬ utf8EncodeChar c <+: part ++ rest
  begins : Begins part ∨ part.length = 1
  longest : ∀ more, more ≠ [] → more <+: rest → ¬ Begins (part ++ more)

/-- The bytes stand for the text. -/
inductive Denotes : List UInt8 → List Char → Prop
  | nil : Denotes [] []
  | char (c : Char) {bs : List UInt8} {cs : List Char} :
      Denotes bs cs → Denotes (utf8EncodeChar c ++ bs) (c :: cs)
  | fault {part bs : List UInt8} {cs : List Char} :
      IsFault part bs → Denotes bs cs → Denotes (part ++ bs) (replacement :: cs)

/-- The bytes end with some, but not all, bytes of a character. -/
def EndsInside (bs : List UInt8) : Prop :=
  ∃ c before part rest, bs = before ++ part ∧ part ≠ [] ∧ rest ≠ [] ∧ utf8EncodeChar c = part ++ rest

/-! ## Where the machine stands -/

/-- The machine owes a byte of a character that it is inside of, and takes only bytes that continue one. -/
def State.Sound : State → Prop
  | .start => True
  | .inside _ owed _ least greatest => 1 ≤ owed ∧ 0x80 ≤ least ∧ least ≤ greatest ∧ greatest ≤ 0xbf

/-- A first byte `n` tells how many bytes follow it, its share of the code and the bounds of the next byte. -/
def IsLead (n owed code least greatest : Nat) : Prop :=
  0xc2 ≤ n ∧ 0x80 ≤ least ∧ least ≤ greatest ∧ greatest ≤ 0xbf ∧
    (n < 0xe0 ∧ owed = 1 ∧ code = n - 0xc0 ∨
      0xe0 ≤ n ∧ n < 0xf0 ∧ owed = 2 ∧ code = n - 0xe0 ∧ (n = 0xe0 → least = 0xa0) ∧ (n = 0xed → greatest = 0x9f) ∨
      0xf0 ≤ n ∧ n < 0xf5 ∧ owed = 3 ∧ code = n - 0xf0 ∧ (n = 0xf0 → least = 0x90) ∧ (n = 0xf4 → greatest = 0x8f))

/-- A byte between characters is one, is wrong, or is the first of several. -/
theorem first_cases (b : UInt8) :
    (b.toNat < 0x80 ∧ first b = (.start, [.char (Char.ofNat b.toNat)])) ∨
      first b = (.start, [.fault 1 .invalidStart]) ∨
      ∃ owed code least greatest, IsLead b.toNat owed code least greatest ∧
        first b = (.inside 1 owed code least greatest, []) := by
  generalize hfirst : first b = r
  unfold first at hfirst
  unfold IsLead
  dsimp only at hfirst
  generalize b.toNat = n at hfirst
  split at hfirst
  · exact .inl ⟨‹_›, hfirst.symm⟩
  · split at hfirst
    · exact .inr (.inl hfirst.symm)
    · iterate 7
        split at hfirst
        · exact .inr (.inr ⟨_, _, _, _, by omega, hfirst.symm⟩)
      exact .inr (.inl hfirst.symm)

theorem first_sound (b : UInt8) : (first b).1.Sound := by
  obtain ⟨-, h⟩ | h | ⟨owed, code, least, greatest, hlead, h⟩ := first_cases b
  · rw [h]; trivial
  · rw [h]; trivial
  · rw [h]
    show 1 ≤ owed ∧ _
    unfold IsLead at hlead
    omega

section

variable (seen owed code : Nat) {least greatest : Nat} {b : UInt8}

/-- A byte that the machine takes inside a character. -/
theorem step_taken (hleast : least ≤ b.toNat) (hgreatest : b.toNat ≤ greatest) :
    step (.inside seen owed code least greatest) b =
      if owed ≤ 1 then (.start, [.char (Char.ofNat (code * 64 + (b.toNat - 0x80)))])
      else (.inside (seen + 1) (owed - 1) (code * 64 + (b.toNat - 0x80)) 0x80 0xbf, []) := by
  simp [step, hleast, hgreatest]

/-- Any other byte ends the character with a fault, and is read anew. -/
theorem step_refused (h : ¬ (least ≤ b.toNat ∧ b.toNat ≤ greatest)) :
    step (.inside seen owed code least greatest) b =
      ((first b).1, .fault seen .invalidContinuation :: (first b).2) := by
  simp [step, h]

end

theorem step_sound {s : State} (hs : s.Sound) (b : UInt8) : (step s b).1.Sound := by
  cases s with
  | start => exact first_sound b
  | inside seen owed code least greatest =>
    by_cases h : least ≤ b.toNat ∧ b.toNat ≤ greatest
    · rw [step_taken _ _ _ h.1 h.2]
      split
      · trivial
      · exact ⟨by omega, by decide, by decide, by decide⟩
    · rw [step_refused _ _ _ h]
      exact first_sound b

theorem run_sound {s : State} (hs : s.Sound) (bs : List UInt8) : (run s bs).1.Sound := by
  induction bs generalizing s with
  | nil => exact hs
  | cons b bs ih => exact ih (step_sound hs b)

/-- Inside a character the machine does not get back without yielding something. -/
theorem run_inside_ne {seen owed code least greatest : Nat} (bs : List UInt8) :
    run (.inside seen owed code least greatest) bs ≠ (.start, []) := by
  induction bs generalizing seen owed code least greatest with
  | nil => nofun
  | cons b bs ih =>
    rw [run_cons]
    by_cases h : least ≤ b.toNat ∧ b.toNat ≤ greatest
    · rw [step_taken _ _ _ h.1 h.2]
      split
      · exact fun heq => List.cons_ne_nil _ _ (Prod.mk.inj heq).2
      · exact ih
    · rw [step_refused _ _ _ h]
      exact fun heq => List.cons_ne_nil _ _ (Prod.mk.inj heq).2

/-- Between characters it does so only if there is nothing to read. -/
theorem eq_nil_of_run {bs : List UInt8} (h : run .start bs = (.start, [])) : bs = [] := by
  cases bs with
  | nil => rfl
  | cons b bs =>
    rw [run_cons] at h
    obtain ⟨-, hb⟩ | hb | ⟨_, _, _, _, -, hb⟩ := first_cases b
    all_goals
      rw [step, hb] at h
    · exact absurd (Prod.mk.inj h).2 (List.cons_ne_nil _ _)
    · exact absurd (Prod.mk.inj h).2 (List.cons_ne_nil _ _)
    · exact absurd h (run_inside_ne bs)

/-! ## The bytes of the character that is read -/

/-- What is read of a character that ends is its next byte and what is read after that. -/
theorem run_inside_char {seen owed code least greatest : Nat} {xs : List UInt8} {c : Char}
    (h : run (.inside seen owed code least greatest) xs = (.start, [.char c])) :
    ∃ x rest, xs = x :: rest ∧ least ≤ x.toNat ∧ x.toNat ≤ greatest ∧
      (owed ≤ 1 ∧ rest = [] ∧ c = Char.ofNat (code * 64 + (x.toNat - 0x80)) ∨
        1 < owed ∧ run (.inside (seen + 1) (owed - 1) (code * 64 + (x.toNat - 0x80)) 0x80 0xbf) rest =
          (.start, [.char c])) := by
  cases xs with
  | nil => cases h
  | cons x rest =>
    rw [run_cons] at h
    by_cases hx : least ≤ x.toNat ∧ x.toNat ≤ greatest
    · rw [step_taken _ _ _ hx.1 hx.2] at h
      refine ⟨x, rest, rfl, hx.1, hx.2, ?_⟩
      split at h
      · rename_i howed
        simp only [List.cons_append, List.nil_append, Prod.mk.injEq, List.cons.injEq, Piece.char.injEq] at h
        exact .inl ⟨howed, eq_nil_of_run (Prod.ext h.1 h.2.2), h.2.1.symm⟩
      · rename_i howed
        exact .inr ⟨by omega, h⟩
    · rw [step_refused _ _ _ hx] at h
      cases (Prod.mk.inj h).2

theorem toNat_ofNat_val {v : Nat} (h : v.isValidChar) : (Char.ofNat v).val.toNat = v := by
  rw [Char.ofNat, dif_pos h]
  rfl

theorem ofNat_eq {x : UInt8} {n : Nat} (h : n = x.toNat) : UInt8.ofNat n = x := by
  rw [h, UInt8.ofNat_toNat]

/-- Bytes that are read as one character are the bytes of this character. -/
theorem encode_of_run {xs : List UInt8} {c : Char} (h : run .start xs = (.start, [.char c])) :
    utf8EncodeChar c = xs := by
  cases xs with
  | nil => cases h
  | cons b xs =>
    rw [run_cons, step] at h
    obtain ⟨hascii, hb⟩ | hb | ⟨owed, code, least, greatest, hlead, hb⟩ := first_cases b
    · rw [hb] at h
      simp only [List.cons_append, List.nil_append, Prod.mk.injEq, List.cons.injEq, Piece.char.injEq] at h
      obtain ⟨hend, rfl, hnone⟩ := h
      rw [eq_nil_of_run (Prod.ext hend hnone)]
      unfold utf8EncodeChar
      rw [toNat_ofNat_val (.inl (by omega))]
      dsimp only
      rw [if_pos (by omega), ofNat_eq rfl]
    · rw [hb] at h
      cases (Prod.mk.inj h).2
    · rw [hb] at h
      have h : run (.inside 1 owed code least greatest) xs = (.start, [.char c]) := h
      obtain ⟨x, xs, rfl, hx, hx', hchar⟩ := run_inside_char h
      have hbyte := b.toNat_lt
      unfold IsLead at hlead
      rcases hchar with ⟨howed, rfl, hc⟩ | ⟨howed, h⟩
      · -- two bytes
        rw [hc, utf8EncodeChar, toNat_ofNat_val (.inl (by omega))]
        rw [if_neg (by omega), if_pos (by omega), ofNat_eq (x := b) (by omega), ofNat_eq (x := x) (by omega)]
      · obtain ⟨y, xs, rfl, hy, hy', hchar⟩ := run_inside_char h
        rcases hchar with ⟨howed, rfl, hc⟩ | ⟨howed, h⟩
        · -- three bytes; the bounds of the second keep the code apart from the halves of surrogate pairs
          have hvalid : ((code * 64 + (x.toNat - 0x80)) * 64 + (y.toNat - 0x80)).isValidChar := by
            by_cases hhigh : (code * 64 + (x.toNat - 0x80)) * 64 + (y.toNat - 0x80) < 0xd800
            · exact .inl hhigh
            · exact .inr ⟨by omega, by omega⟩
          rw [hc, utf8EncodeChar, toNat_ofNat_val hvalid]
          rw [if_neg (by omega), if_neg (by omega), if_pos (by omega), ofNat_eq (x := b) (by omega),
            ofNat_eq (x := x) (by omega), ofNat_eq (x := y) (by omega)]
        · obtain ⟨z, xs, rfl, hz, hz', hchar⟩ := run_inside_char h
          rcases hchar with ⟨howed, rfl, hc⟩ | ⟨howed, h⟩
          · -- four bytes; the bounds of the second keep the code below the greatest one
            have hvalid :
                (((code * 64 + (x.toNat - 0x80)) * 64 + (y.toNat - 0x80)) * 64 + (z.toNat - 0x80)).isValidChar :=
              .inr ⟨by omega, by omega⟩
            rw [hc, utf8EncodeChar, toNat_ofNat_val hvalid]
            rw [if_neg (by omega), if_neg (by omega), if_neg (by omega), ofNat_eq (x := b) (by omega),
              ofNat_eq (x := x) (by omega), ofNat_eq (x := y) (by omega), ofNat_eq (x := z) (by omega)]
          · exfalso
            omega

/-! ## The bytes with which a character begins -/

/-- What the machine owes can be supplied, beginning with any byte that it takes next. -/
theorem exists_completion (seen owed code : Nat) {least greatest : Nat} {x : UInt8} (hleast : least ≤ x.toNat)
    (hgreatest : x.toNat ≤ greatest) :
    ∃ more c, run (.inside seen owed code least greatest) (x :: more) = (.start, [.char c]) := by
  induction owed using Nat.strong_induction_on generalizing seen code least greatest x with
  | _ owed ih =>
    by_cases howed : owed ≤ 1
    · refine ⟨[], Char.ofNat (code * 64 + (x.toNat - 0x80)), ?_⟩
      rw [run_cons, step_taken _ _ _ hleast hgreatest, if_pos howed]
      rfl
    · have hleast' : 0x80 ≤ (0x80 : UInt8).toNat := by decide
      have hgreatest' : (0x80 : UInt8).toNat ≤ 0xbf := by decide
      obtain ⟨more, c, hrun⟩ :=
        ih (owed - 1) (by omega) (seen + 1) (code * 64 + (x.toNat - 0x80)) hleast' hgreatest'
      refine ⟨0x80 :: more, c, ?_⟩
      rw [run_cons, step_taken _ _ _ hleast hgreatest, if_neg howed, hrun]
      rfl

section

variable {part : List UInt8} {s : State} (hpart : run .start part = (s, []))

include hpart

theorem run_part (bs : List UInt8) : run .start (part ++ bs) = run s bs := by
  rw [run_append, hpart, List.nil_append]

theorem part_eq_nil_iff : part = [] ↔ s = .start := by
  constructor
  · rintro rfl
    exact (Prod.mk.inj hpart).1.symm
  · rintro rfl
    exact eq_nil_of_run hpart

/-- The machine owes nothing of the bytes of a character. -/
theorem not_encode_prefix (c : Char) : ¬ utf8EncodeChar c <+: part := by
  rintro ⟨more, rfl⟩
  rw [run_append, run_char] at hpart
  exact absurd (Prod.mk.inj hpart).2 (List.cons_ne_nil _ _)

end

section

variable {part : List UInt8} {seen owed code least greatest : Nat}
  (hpart : run .start part = (.inside seen owed code least greatest, []))

include hpart

/-- A byte with which the machine does not go on continues no character. -/
theorem not_begins_refused {b : UInt8} (h : ¬ (least ≤ b.toNat ∧ b.toNat ≤ greatest)) :
    ¬ Begins (part ++ [b]) := by
  rintro ⟨c, more, hc⟩
  have hrun := run_char c
  rw [← hc, List.append_assoc, run_part hpart, List.singleton_append, run_cons, step_refused _ _ _ h] at hrun
  cases (Prod.mk.inj hrun).2

/-- Inside a character the machine has read some, but not all, of its bytes. -/
theorem exists_rest : ∃ c rest, rest ≠ [] ∧ utf8EncodeChar c = part ++ rest := by
  have hsound : (run .start part).1.Sound := run_sound (s := .start) trivial part
  rw [hpart] at hsound
  obtain ⟨-, hlow, hle, hhigh⟩ := hsound
  have hbyte : (UInt8.ofNat least).toNat = least := by rw [UInt8.toNat_ofNat']; omega
  have hleast : least ≤ (UInt8.ofNat least).toNat := by rw [hbyte]
  have hgreatest : (UInt8.ofNat least).toNat ≤ greatest := by rwa [hbyte]
  obtain ⟨more, c, hrun⟩ := exists_completion seen owed code hleast hgreatest
  rw [← run_part hpart] at hrun
  exact ⟨c, _, List.cons_ne_nil _ _, encode_of_run hrun⟩

theorem part_ne_nil : part ≠ [] := by
  intro h
  cases (part_eq_nil_iff hpart).1 h

theorem begins_part : Begins part := by
  obtain ⟨c, rest, -, hc⟩ := exists_rest hpart
  exact ⟨c, hc ▸ List.prefix_append part rest⟩

end

theorem Begins.of_prefix {part more : List UInt8} (h : Begins more) (hpart : part <+: more) : Begins part := by
  obtain ⟨c, hc⟩ := h
  exact ⟨c, hpart.trans hc⟩

/-- A character begins with no longer part if it does not begin with the next byte. -/
theorem longest_of_next {part rest : List UInt8} (h : ∀ b tail, rest = b :: tail → ¬ Begins (part ++ [b])) :
    ∀ more, more ≠ [] → more <+: rest → ¬ Begins (part ++ more) := by
  intro more hne hmore hbegins
  obtain ⟨b, tail, rfl⟩ := List.exists_cons_of_ne_nil hne
  obtain ⟨behind, rfl⟩ := hmore
  refine h b (tail ++ behind) rfl (hbegins.of_prefix ?_)
  exact (List.prefix_append_right_inj part).2 ⟨tail, rfl⟩

theorem encode_ne_nil (c : Char) : utf8EncodeChar c ≠ [] := by
  intro h
  have hrun := run_char c
  rw [h] at hrun
  cases (Prod.mk.inj hrun).2

/-- A character that stands at the beginning of some bytes begins with their first byte. -/
theorem not_encode_prefix_cons {b : UInt8} (h : ¬ Begins [b]) (c : Char) (bs : List UInt8) :
    ¬ utf8EncodeChar c <+: b :: bs := by
  intro hc
  obtain ⟨x, xs, hx⟩ := List.exists_cons_of_ne_nil (encode_ne_nil c)
  rw [hx, List.cons_prefix_cons] at hc
  exact h ⟨c, xs, by rw [hx, hc.1]; rfl⟩

/-! ## What the machine reads -/

/-- The text of what the machine yields from a state on, up to the end. -/
def textFrom (s : State) (bs : List UInt8) : List Char :=
  ((run s bs).2 ++ finish (run s bs).1).map Piece.toChar

theorem textFrom_cons (s : State) (b : UInt8) (bs : List UInt8) :
    textFrom s (b :: bs) = (step s b).2.map Piece.toChar ++ textFrom (step s b).1 bs := by
  simp only [textFrom, run_cons, List.map_append, List.append_assoc]

/-- What was read of a character makes a fault where the machine does not go on. -/
theorem isFault_part {part rest : List UInt8} {seen owed code least greatest : Nat}
    (hpart : run .start part = (.inside seen owed code least greatest, []))
    (hnext : ∀ b tail, rest = b :: tail → ¬ (least ≤ b.toNat ∧ b.toNat ≤ greatest)) : IsFault part rest := by
  have hlongest := longest_of_next fun b tail h => not_begins_refused hpart (hnext b tail h)
  refine ⟨part_ne_nil hpart, fun c hc => ?_, .inl (begins_part hpart), hlongest⟩
  -- a whole character would end inside the part or go beyond it
  rcases List.prefix_or_prefix_of_prefix hc (List.prefix_append part rest) with h | ⟨more, hmore⟩
  · exact not_encode_prefix hpart c h
  · rw [← hmore, List.prefix_append_right_inj] at hc
    refine hlongest more (fun h => not_encode_prefix hpart c ?_) hc ⟨c, by rw [hmore]⟩
    rw [← hmore, h, List.append_nil]

/-- Between characters, if what the machine reads from then on is right behind one byte more. -/
theorem denotes_start {b : UInt8} {bs : List UInt8}
    (ih : ∀ part s, run .start part = (s, []) → Denotes (part ++ bs) (textFrom s bs)) :
    Denotes (b :: bs) (textFrom .start (b :: bs)) := by
  have hrest : Denotes bs (textFrom .start bs) := ih [] .start rfl
  rw [textFrom_cons, step]
  obtain ⟨-, hb⟩ | hb | ⟨owed, code, least, greatest, -, hb⟩ := first_cases b
  · have hrun : run .start [b] = (.start, [.char (Char.ofNat b.toNat)]) := by rw [run_cons, step, hb]; rfl
    rw [hb]
    have hchar := Denotes.char (Char.ofNat b.toNat) hrest
    rwa [encode_of_run hrun] at hchar
  · have hbegins : ¬ Begins [b] := by
      rintro ⟨c, more, hc⟩
      have hrun := run_char c
      rw [← hc, List.singleton_append, run_cons, step, hb] at hrun
      cases (Prod.mk.inj hrun).2
    rw [hb]
    have hfault : IsFault [b] bs :=
      ⟨List.cons_ne_nil _ _, fun c => not_encode_prefix_cons hbegins c bs, .inr rfl,
        fun more _ _ h => hbegins (h.of_prefix (List.prefix_append _ _))⟩
    exact Denotes.fault hfault hrest
  · have hrun : run .start [b] = (.inside 1 owed code least greatest, []) := by rw [run_cons, step, hb]; rfl
    rw [hb]
    exact ih [b] _ hrun

/-- What the machine reads with a part of a character behind it is what the part and the bytes stand for. -/
theorem denotes_textFrom (bs : List UInt8) :
    ∀ part s, run .start part = (s, []) → Denotes (part ++ bs) (textFrom s bs) := by
  induction bs with
  | nil =>
    intro part s hpart
    rw [List.append_nil]
    cases s with
    | start =>
      rw [(part_eq_nil_iff hpart).2 rfl]
      exact .nil
    | inside seen owed code least greatest =>
      have hpart' : IsFault part [] := isFault_part hpart nofun
      have hfault := Denotes.fault hpart' .nil
      rwa [List.append_nil] at hfault
  | cons b bs ih =>
    intro part s hpart
    have hstart := denotes_start (b := b) ih
    cases s with
    | start =>
      rw [(part_eq_nil_iff hpart).2 rfl]
      exact hstart
    | inside seen owed code least greatest =>
      by_cases hb : least ≤ b.toNat ∧ b.toNat ≤ greatest
      · have hstep := step_taken seen owed code hb.1 hb.2
        rw [textFrom_cons, hstep]
        split
        · -- the byte is the last one of a character
          rename_i howed
          have hrun : run .start (part ++ [b]) = (.start, [.char (Char.ofNat (code * 64 + (b.toNat - 0x80)))]) := by
            rw [run_part hpart, run_cons, hstep, if_pos howed]
            rfl
          have hchar := Denotes.char (Char.ofNat (code * 64 + (b.toNat - 0x80))) (ih [] .start rfl)
          rw [encode_of_run hrun, List.append_assoc] at hchar
          exact hchar
        · rename_i howed
          have hrun : run .start (part ++ [b]) =
              (.inside (seen + 1) (owed - 1) (code * 64 + (b.toNat - 0x80)) 0x80 0xbf, []) := by
            rw [run_part hpart, run_cons, hstep, if_neg howed]
            rfl
          have hmore := ih (part ++ [b]) _ hrun
          rw [List.append_assoc] at hmore
          exact hmore
      · have hfault : IsFault part (b :: bs) := isFault_part hpart fun b' tail heq => by
          cases heq
          exact hb
        rw [textFrom_cons, step_refused _ _ _ hb]
        have hrest := Denotes.fault hfault hstart
        rw [textFrom_cons, step] at hrest
        exact hrest

/-! ## One text only -/

/-- Bytes that begin with those of two characters begin with those of one. -/
theorem encode_append_inj {c c' : Char} {bs bs' : List UInt8}
    (h : utf8EncodeChar c ++ bs = utf8EncodeChar c' ++ bs') : c = c' ∧ bs = bs' := by
  have hrun := congrArg (fun xs => (run .start xs).2) h
  simp only [run_append, run_char] at hrun
  have hc : c = c' := by
    simp only [List.singleton_append, List.cons.injEq, Piece.char.injEq] at hrun
    exact hrun.1
  subst hc
  exact ⟨rfl, List.append_cancel_left h⟩

/-- Of two runs of bytes that one replacement character stands for, neither is longer. -/
theorem IsFault.length_le {part rest part' rest' : List UInt8} (h : IsFault part rest) (h' : IsFault part' rest')
    (heq : part ++ rest = part' ++ rest') : part'.length ≤ part.length := by
  by_contra hlonger
  have hpos : 0 < part.length := List.length_pos_iff.2 h.nonempty
  have hprefix : part <+: part' :=
    List.prefix_of_prefix_length_le (List.prefix_append part rest) (heq ▸ List.prefix_append part' rest') (by omega)
  obtain ⟨more, rfl⟩ := hprefix
  rw [List.append_assoc] at heq
  refine h.longest more ?_ ⟨rest', (List.append_cancel_left heq).symm⟩ (h'.begins.resolve_right (by omega))
  rintro rfl
  rw [List.append_nil] at hlonger
  exact hlonger (le_refl _)

theorem IsFault.eq {part rest part' rest' : List UInt8} (h : IsFault part rest) (h' : IsFault part' rest')
    (heq : part ++ rest = part' ++ rest') : part = part' ∧ rest = rest' :=
  List.append_inj heq (Nat.le_antisymm (h'.length_le h heq.symm) (h.length_le h' heq))

/-- Bytes stand for one text only. -/
theorem Denotes.unique {bs : List UInt8} {cs cs' : List Char} (h : Denotes bs cs) (h' : Denotes bs cs') :
    cs = cs' := by
  induction h generalizing cs' with
  | nil =>
    generalize hbs : ([] : List UInt8) = bs at h'
    cases h' with
    | nil => rfl
    | char c _ => exact absurd (List.append_eq_nil_iff.1 hbs.symm).1 (encode_ne_nil c)
    | fault hfault _ => exact absurd (List.append_eq_nil_iff.1 hbs.symm).1 hfault.nonempty
  | @char c bs cs _ ih =>
    generalize hbs : utf8EncodeChar c ++ bs = all at h'
    cases h' with
    | nil => exact absurd (List.append_eq_nil_iff.1 hbs).1 (encode_ne_nil c)
    | char c' hrest =>
      obtain ⟨rfl, rfl⟩ := encode_append_inj hbs
      rw [ih hrest]
    | fault hfault _ => exact absurd ⟨bs, hbs⟩ (hfault.noChar c)
  | @fault part bs cs hfault _ ih =>
    generalize hbs : part ++ bs = all at h'
    cases h' with
    | nil => exact absurd (List.append_eq_nil_iff.1 hbs).1 hfault.nonempty
    | char c' _ => exact absurd ⟨_, hbs.symm⟩ (hfault.noChar c')
    | fault hfault' hrest =>
      obtain ⟨rfl, rfl⟩ := hfault.eq hfault' hbs
      rw [ih hrest]

/-- Bytes stand for exactly the text that is read from them leniently. -/
theorem denotes_iff {bs : List UInt8} {cs : List Char} : Denotes bs cs ↔ cs = decodeLenient bs := by
  have hread : Denotes bs (decodeLenient bs) := denotes_textFrom bs [] .start rfl
  constructor
  · exact fun h => h.unique hread
  · rintro rfl
    exact hread

/-! ## Where the bytes end -/

/-- The machine stands where it would stand after the last bytes alone, of which it has yielded nothing. -/
theorem exists_unfinished (bs : List UInt8) :
    ∃ before part, bs = before ++ part ∧ run .start part = ((run .start bs).1, []) := by
  induction bs using List.reverseRecOn with
  | nil => exact ⟨[], [], rfl, rfl⟩
  | append_singleton bs b ih =>
    obtain ⟨before, part, rfl, hpart⟩ := ih
    have hstate : (run .start (before ++ part ++ [b])).1 = (step (run .start (before ++ part)).1 b).1 := by
      rw [run_append]
      rfl
    -- after a byte that is read anew, only this byte can be unfinished
    have hanew : ∀ s, s = (first b).1 → ∃ before' part', before ++ part ++ [b] = before' ++ part' ∧
        run .start part' = (s, []) := by
      rintro s rfl
      obtain ⟨-, hb⟩ | hb | ⟨owed, code, least, greatest, -, hb⟩ := first_cases b
      · exact ⟨before ++ part ++ [b], [], (List.append_nil _).symm, by rw [hb]; rfl⟩
      · exact ⟨before ++ part ++ [b], [], (List.append_nil _).symm, by rw [hb]; rfl⟩
      · exact ⟨before ++ part, [b], rfl, by rw [run_cons, step, hb]; rfl⟩
    rw [hstate]
    cases hs : (run .start (before ++ part)).1 with
    | start => exact hanew _ rfl
    | inside seen owed code least greatest =>
      rw [hs] at hpart
      by_cases hb : least ≤ b.toNat ∧ b.toNat ≤ greatest
      · have hstep := step_taken seen owed code hb.1 hb.2
        by_cases howed : owed ≤ 1
        · rw [hstep, if_pos howed]
          exact ⟨before ++ part ++ [b], [], (List.append_nil _).symm, rfl⟩
        · refine ⟨before, part ++ [b], List.append_assoc _ _ _, ?_⟩
          rw [run_part hpart, run_cons, hstep, if_neg howed]
          rfl
      · rw [step_refused _ _ _ hb]
        exact hanew _ rfl

/-- The first of several bytes of a character. -/
theorem lead_of_encode {c : Char} {b : UInt8} {rest : List UInt8} (hc : utf8EncodeChar c = b :: rest)
    (hrest : rest ≠ []) : 0xc2 ≤ b.toNat := by
  have hrun := run_char c
  rw [hc, run_cons, step] at hrun
  obtain ⟨-, hb⟩ | hb | ⟨_, _, _, _, hlead, -⟩ := first_cases b
  · rw [hb] at hrun
    obtain ⟨hstart, hpieces⟩ := Prod.mk.inj hrun
    rw [List.singleton_append, List.cons.injEq] at hpieces
    exact absurd (eq_nil_of_run (Prod.ext hstart hpieces.2)) hrest
  · rw [hb] at hrun
    cases (Prod.mk.inj hrun).2
  · exact hlead.1

/-- The first byte of a character ends every other character, so that the machine stands where it would
stand if there were nothing before it. -/
theorem run_lead {s : State} (hs : s.Sound) {b : UInt8} (hlead : 0xc2 ≤ b.toNat) (bs : List UInt8) :
    (run s (b :: bs)).1 = (run .start (b :: bs)).1 := by
  cases s with
  | start => rfl
  | inside seen owed code least greatest =>
    obtain ⟨-, -, -, hhigh⟩ := hs
    rw [run_cons, step_refused _ _ _ (by omega), run_cons, step]

/-- The machine is inside a character at the end of the bytes just when they end with some, but not all,
bytes of a character. -/
theorem run_ne_start_iff (bs : List UInt8) : (run .start bs).1 ≠ .start ↔ EndsInside bs := by
  constructor
  · intro hs
    obtain ⟨before, part, hbs, hpart⟩ := exists_unfinished bs
    cases hstate : (run .start bs).1 with
    | start => exact absurd hstate hs
    | inside seen owed code least greatest =>
      rw [hstate] at hpart
      obtain ⟨c, rest, hrest, hc⟩ := exists_rest hpart
      exact ⟨c, before, part, rest, hbs, part_ne_nil hpart, hrest, hc⟩
  · rintro ⟨c, before, part, rest, rfl, hpart, hrest, hc⟩ hend
    have hrun := run_char c
    rw [hc, run_append] at hrun
    obtain ⟨hlast, hpieces⟩ := Prod.mk.inj hrun
    -- nothing can come of the first bytes, since something comes of the others
    have hnone : (run .start part).1 ≠ .start := by
      intro hstart
      rw [hstart] at hlast hpieces
      have h1 : (run .start part).2 ≠ [] := fun h => hpart (eq_nil_of_run (Prod.ext hstart h))
      have h2 : (run .start rest).2 ≠ [] := fun h => hrest (eq_nil_of_run (Prod.ext hlast h))
      have hlength := congrArg List.length hpieces
      have := List.length_pos_iff.2 h1
      have := List.length_pos_iff.2 h2
      simp only [List.length_append, List.length_singleton] at hlength
      omega
    obtain ⟨b, tail, rfl⟩ := List.exists_cons_of_ne_nil hpart
    have hlead : 0xc2 ≤ b.toNat := lead_of_encode hc (by simp [hrest])
    rw [run_append] at hend
    exact hnone ((run_lead (run_sound (s := .start) trivial before) hlead tail).symm.trans hend)

end ScriptTree.Text.Utf8
