/-
Moments and their stamps. What a clock shows later has the greater stamp (`stamp_le_of_instant_le`): both orders are
that of the calendar (`Before`), one because a day, a month and a year end before the next begins
(`instant_lt_of_before`), the other because numbers with the same number of figures are ordered as their figures
(`stamp_lt_of_before`).
-/
import ScriptTree.Time.Moment
import Mathlib

namespace ScriptTree

/-! ## Figures -/

theorem append_lt_append {α : Type} [LT α] {xs ys us vs : List α} (h : xs.length = ys.length)
    (hlt : xs < ys ∨ xs = ys ∧ us < vs) : xs ++ us < ys ++ vs := by
  induction xs generalizing ys with
  | nil =>
    obtain rfl : ys = [] := List.eq_nil_of_length_eq_zero h.symm
    exact hlt.elim (fun hnil => absurd hnil (List.not_lt_nil _)) And.right
  | cons x xs ih =>
    cases ys with
    | nil => cases h
    | cons y ys =>
      rw [List.cons_append, List.cons_append, List.cons_lt_cons_iff]
      rcases hlt with hlt | ⟨heq, hlt⟩
      · exact (List.cons_lt_cons_iff.1 hlt).imp_right fun hxs => ⟨hxs.1, ih (Nat.succ.inj h) (.inl hxs.2)⟩
      · obtain ⟨rfl, rfl⟩ := List.cons.inj heq
        exact .inr ⟨rfl, ih rfl (.inr ⟨rfl, hlt⟩)⟩

namespace Moment

/-- The last figures of a number. -/
def figures : Nat → Nat → List Char
  | 0, _ => []
  | width + 1, n => figures width (n / 10) ++ [Nat.digitChar (n % 10)]

theorem length_figures (width n : Nat) : (figures width n).length = width := by
  induction width generalizing n with
  | zero => rfl
  | succ width ih => rw [figures, List.length_append, ih, List.length_singleton]

theorem figures_zero (width : Nat) : figures width 0 = List.replicate width '0' := by
  induction width with
  | zero => rfl
  | succ width ih => rw [figures, Nat.zero_div, ih, List.replicate_succ']; rfl

theorem padded_toList {width n : Nat} (hpos : 0 < width) (h : n < 10 ^ width) :
    (padded width n).toList = figures width n := by
  rw [padded, String.toList_ofList]
  induction width generalizing n with
  | zero => cases hpos
  | succ width ih =>
    rw [Nat.toDigits_eq_if (by decide)]
    split
    · rename_i hsmall
      rw [figures, Nat.div_eq_of_lt hsmall, figures_zero, Nat.mod_eq_of_lt hsmall]
      rfl
    · rename_i hlarge
      have hwidth : 0 < width := by
        rcases Nat.eq_zero_or_pos width with rfl | hwidth
        · omega
        · exact hwidth
      have hrest : n / 10 < 10 ^ width := by
        rw [Nat.pow_succ] at h
        exact Nat.div_lt_of_lt_mul (by omega)
      rw [figures, ← ih hwidth hrest, List.length_append, List.length_singleton, Nat.add_sub_add_right,
        List.append_assoc]

theorem figures_lt {width a b : Nat} (hlt : a < b) (h : b < 10 ^ width) : figures width a < figures width b := by
  induction width generalizing a b with
  | zero =>
    rw [Nat.pow_zero] at h
    omega
  | succ width ih =>
    rw [Nat.pow_succ] at h
    refine append_lt_append (by rw [length_figures, length_figures]) ?_
    rcases Nat.lt_or_ge (a / 10) (b / 10) with hfront | hfront
    · exact .inl (ih hfront (Nat.div_lt_of_lt_mul (by omega)))
    · have hsame : a / 10 = b / 10 := by omega
      have hdigit : ∀ c < 10, ∀ d < 10, c < d → [Nat.digitChar c] < [Nat.digitChar d] := by decide
      refine .inr ⟨by rw [hsame], hdigit _ (Nat.mod_lt _ (by decide)) _ (Nat.mod_lt _ (by decide)) ?_⟩
      omega

/-! ## Clocks -/

/-- A clock that is set to universal time can show the moment. -/
structure IsClock (m : Moment) : Prop where
  date : dateFault? m.year m.month m.day = none
  time : timeFault? m.hour m.minute m.second = none
  year : m.year ≤ 9999
  micro : m.micro < 1000000
  zone : m.zone = .universal

/-- The second of the one moment comes before that of the other. -/
def Before (a b : Moment) : Prop :=
  a.year < b.year ∨ a.year = b.year ∧ (a.month < b.month ∨ a.month = b.month ∧ (a.day < b.day ∨ a.day = b.day ∧
    (a.hour < b.hour ∨ a.hour = b.hour ∧ (a.minute < b.minute ∨ a.minute = b.minute ∧ a.second < b.second))))

section

variable {a b : Moment}

theorem before_or_before (a b : Moment) : a.Before b ∨ b.Before a ∨ a.stamp = b.stamp := by
  by_cases hab : a.Before b
  · exact .inl hab
  by_cases hba : b.Before a
  · exact .inr (.inl hba)
  obtain ⟨hyear, hmonth, hday, hhour, hminute, hsecond⟩ : a.year = b.year ∧ a.month = b.month ∧ a.day = b.day ∧
      a.hour = b.hour ∧ a.minute = b.minute ∧ a.second = b.second := by
    unfold Before at hab hba
    omega
  exact .inr (.inr (by rw [stamp, stamp, hyear, hmonth, hday, hhour, hminute, hsecond]))

theorem IsClock.date_bounds (h : a.IsClock) :
    a.year ≠ 0 ∧ 1 ≤ a.month ∧ a.month ≤ 12 ∧ 1 ≤ a.day ∧ a.day ≤ daysIn a.year a.month := by
  have hdate := h.date
  unfold dateFault? at hdate
  split at hdate
  · cases hdate
  · split at hdate
    · cases hdate
    · split at hdate
      · cases hdate
      · simp only [Bool.or_eq_true, decide_eq_true_eq, not_or] at *
        omega

theorem IsClock.time_bounds (h : a.IsClock) : a.hour ≤ 23 ∧ a.minute ≤ 59 ∧ a.second ≤ 59 := by
  have htime := h.time
  unfold timeFault? at htime
  split at htime
  · cases htime
  · split at htime
    · cases htime
    · split at htime
      · cases htime
      · omega

theorem daysIn_le (year month : Nat) : daysIn year month ≤ 31 := by
  unfold daysIn
  split_ifs <;> decide

theorem IsClock.figure_bounds (h : a.IsClock) : a.year < 10 ^ 4 ∧ a.month < 10 ^ 2 ∧ a.day < 10 ^ 2 ∧
    a.hour < 10 ^ 2 ∧ a.minute < 10 ^ 2 ∧ a.second < 10 ^ 2 := by
  have hyear := h.year
  have hdate := h.date_bounds
  have htime := h.time_bounds
  have hdays := daysIn_le a.year a.month
  omega

theorem IsClock.stamp_toList (h : a.IsClock) : a.stamp.toList = figures 4 a.year ++ (figures 2 a.month ++
    (figures 2 a.day ++ (['_'] ++ (figures 2 a.hour ++ (figures 2 a.minute ++ figures 2 a.second))))) := by
  obtain ⟨hyear, hmonth, hday, hhour, hminute, hsecond⟩ := h.figure_bounds
  simp only [stamp, String.toList_append, padded_toList (by decide) hyear, padded_toList (by decide) hmonth,
    padded_toList (by decide) hday, padded_toList (by decide) hhour, padded_toList (by decide) hminute,
    padded_toList (by decide) hsecond, List.append_assoc]
  rfl

theorem IsClock.stamp_length (h : a.IsClock) : a.stamp.toList.length = 15 := by
  rw [h.stamp_toList]
  simp [length_figures]

theorem stamp_lt_of_before (ha : a.IsClock) (hb : b.IsClock) (h : a.Before b) : a.stamp < b.stamp := by
  obtain ⟨hyear, hmonth, hday, hhour, hminute, hsecond⟩ := hb.figure_bounds
  have hlength : ∀ width m n, (figures width m).length = (figures width n).length := by
    intro width m n
    rw [length_figures, length_figures]
  rw [String.lt_iff_toList_lt, ha.stamp_toList, hb.stamp_toList]
  refine append_lt_append (hlength ..) (h.imp (figures_lt · hyear) (And.imp (congrArg _) fun h => ?_))
  refine append_lt_append (hlength ..) (h.imp (figures_lt · hmonth) (And.imp (congrArg _) fun h => ?_))
  refine append_lt_append (hlength ..) (h.imp (figures_lt · hday) (And.imp (congrArg _) fun h => ?_))
  refine append_lt_append rfl (.inr ⟨rfl, ?_⟩)
  refine append_lt_append (hlength ..) (h.imp (figures_lt · hhour) (And.imp (congrArg _) fun h => ?_))
  exact append_lt_append (hlength ..) (h.imp (figures_lt · hminute) (And.imp (congrArg _) (figures_lt · hsecond)))

end

/-! ## The calendar -/

/-- The days of a number of years. -/
def daysOfYears (years : Nat) : Nat :=
  365 * years + years / 4 - years / 100 + years / 400

/-- The days of the first months of a year. -/
def daysOfMonths (year months : Nat) : Nat :=
  ((List.range months).map fun m => daysIn year (m + 1)).foldl (· + ·) 0

theorem daysBefore_eq (year month day : Nat) :
    daysBefore year month day = daysOfYears (year - 1) + daysOfMonths year (month - 1) + (day - 1) := rfl

theorem daysOfMonths_succ (year months : Nat) :
    daysOfMonths year (months + 1) = daysOfMonths year months + daysIn year (months + 1) := by
  rw [daysOfMonths, List.range_succ, List.map_append, List.foldl_append]
  rfl

theorem daysOfMonths_mono (year : Nat) {m n : Nat} (h : m ≤ n) : daysOfMonths year m ≤ daysOfMonths year n := by
  induction h with
  | refl => exact Nat.le_refl _
  | step _ ih =>
    rw [Nat.succ_eq_add_one, daysOfMonths_succ]
    exact Nat.le_add_right_of_le ih

theorem daysOfYears_mono : Monotone daysOfYears := by
  refine monotone_nat_of_le_succ fun n => ?_
  unfold daysOfYears
  omega

/-- The months of a year are its days. -/
theorem daysOfYears_succ {year : Nat} (h : year ≠ 0) :
    daysOfYears (year - 1) + daysOfMonths year 12 = daysOfYears year := by
  have hyear : daysOfMonths year 12 = if isLeap year then 366 else 365 := by
    simp only [daysOfMonths, daysIn]
    cases isLeap year <;> rfl
  have hleap : isLeap year = true ↔ year % 4 = 0 ∧ (year % 100 ≠ 0 ∨ year % 400 = 0) := by simp [isLeap]
  have hfour : year / 4 = (year - 1) / 4 + if year % 4 = 0 then 1 else 0 := by split <;> omega
  have hcentury : year / 100 = (year - 1) / 100 + if year % 100 = 0 then 1 else 0 := by split <;> omega
  have hcycle : year / 400 = (year - 1) / 400 + if year % 400 = 0 then 1 else 0 := by split <;> omega
  have hless : (year - 1) / 100 ≤ (year - 1) / 4 := by omega
  -- A year that a greater of the three numbers divides is divided by the smaller ones, too.
  have hkind : (year % 4 ≠ 0 ∧ year % 100 ≠ 0 ∧ year % 400 ≠ 0) ∨ (year % 4 = 0 ∧ year % 100 ≠ 0 ∧ year % 400 ≠ 0) ∨
      (year % 4 = 0 ∧ year % 100 = 0 ∧ year % 400 ≠ 0) ∨ (year % 4 = 0 ∧ year % 100 = 0 ∧ year % 400 = 0) := by
    omega
  rw [hyear, daysOfYears, daysOfYears, hfour, hcentury, hcycle]
  simp only [hleap]
  generalize (year - 1) / 4 = fours at hless
  generalize (year - 1) / 100 = centuries at hless
  generalize (year - 1) / 400 = cycles
  obtain ⟨hfour, hcentury, hcycle⟩ | ⟨hfour, hcentury, hcycle⟩ | ⟨hfour, hcentury, hcycle⟩ |
    ⟨hfour, hcentury, hcycle⟩ := hkind
  all_goals
    simp only [hfour, hcentury, hcycle, if_true, if_false, true_and, false_and, or_true, or_false, not_true_eq_false,
      not_false_eq_true, ne_eq]
    omega

section

variable {a b : Moment}

/-- A date is within its year. -/
theorem IsClock.daysBefore_lt (h : a.IsClock) :
    daysBefore a.year a.month a.day < daysOfYears (a.year - 1) + daysOfMonths a.year a.month := by
  obtain ⟨-, hmonth, -, hday, hlast⟩ := h.date_bounds
  have hmonths := daysOfMonths_succ a.year (a.month - 1)
  rw [Nat.sub_add_cancel hmonth] at hmonths
  rw [daysBefore_eq, hmonths]
  omega

theorem daysBefore_lt (ha : a.IsClock) (h : a.year < b.year ∨ a.year = b.year ∧
    (a.month < b.month ∨ a.month = b.month ∧ a.day < b.day)) :
    daysBefore a.year a.month a.day < daysBefore b.year b.month b.day := by
  obtain ⟨hyear, hmonth, hmonths, hday, -⟩ := ha.date_bounds
  have hlast := ha.daysBefore_lt
  rw [daysBefore_eq b.year]
  rcases h with h | ⟨hsame, h | ⟨hsame', h⟩⟩
  · have hyears : daysOfYears a.year ≤ daysOfYears (b.year - 1) := daysOfYears_mono (by omega)
    have hwhole := daysOfMonths_mono a.year hmonths
    have hend := daysOfYears_succ hyear
    omega
  · have hwhole := daysOfMonths_mono a.year (show a.month ≤ b.month - 1 by omega)
    rw [← hsame]
    omega
  · rw [daysBefore_eq, ← hsame, ← hsame']
    omega

theorem instant_lt_of_before (ha : a.IsClock) (hb : b.IsClock) (h : a.Before b) : a.instant < b.instant := by
  have hmicro := ha.micro
  obtain ⟨hhour, hminute, hsecond⟩ := ha.time_bounds
  have hdays : daysBefore a.year a.month a.day < daysBefore b.year b.month b.day ∨
      daysBefore a.year a.month a.day = daysBefore b.year b.month b.day ∧
        (a.hour < b.hour ∨ a.hour = b.hour ∧ (a.minute < b.minute ∨ a.minute = b.minute ∧ a.second < b.second)) := by
    rcases h with h | ⟨hyear, h | ⟨hmonth, h | ⟨hday, h⟩⟩⟩
    · exact .inl (daysBefore_lt ha (.inl h))
    · exact .inl (daysBefore_lt ha (.inr ⟨hyear, .inl h⟩))
    · exact .inl (daysBefore_lt ha (.inr ⟨hyear, .inr ⟨hmonth, h⟩⟩))
    · exact .inr ⟨by rw [hyear, hmonth, hday], h⟩
  unfold instant
  rw [ha.zone, hb.zone]
  simp only [zoneMinutes]
  generalize daysBefore a.year a.month a.day = days at hdays
  generalize daysBefore b.year b.month b.day = days' at hdays
  omega

/-- What the clock shows later has no smaller stamp. -/
theorem stamp_le_of_instant_le (ha : a.IsClock) (hb : b.IsClock) (h : a.instant ≤ b.instant) : a.stamp ≤ b.stamp := by
  rcases before_or_before a b with hbefore | hbefore | hsame
  · exact (stamp_lt_of_before ha hb hbefore).le
  · exact absurd (instant_lt_of_before hb ha hbefore) (Int.not_lt.2 h)
  · exact hsame.le

end
end Moment
end ScriptTree
