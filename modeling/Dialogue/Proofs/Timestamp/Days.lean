import Dialogue.Timestamp.Calendar
/-!
# Days and dates

Each day has one date: the year in which it lies is found from an estimate, the month and the day of
the month from what is left.  The date exists, and its number is that of the day.
-/

namespace Dialogue.Date

/-! ## Years -/

theorem daysBeforeYear_eq (year : Int) :
    daysBeforeYear year =
      365 * (year - 1) + (year - 1) / 4 - (year - 1) / 100 + (year - 1) / 400 := by
  simp [daysBeforeYear, Int.fdiv_eq_ediv_of_nonneg]

theorem isLeapYear_iff (year : Int) :
    isLeapYear year ↔ year % 4 = 0 ∧ (year % 100 ≠ 0 ∨ year % 400 = 0) := by
  simp [isLeapYear, Int.fmod_eq_emod_of_nonneg]

def yearLength (leap : Bool) : Nat :=
  if leap then 366 else 365

theorem daysBeforeYear_succ (year : Int) :
    daysBeforeYear (year + 1) = daysBeforeYear year + yearLength (isLeapYear year) := by
  rw [daysBeforeYear_eq, daysBeforeYear_eq, Int.add_sub_cancel, yearLength]
  by_cases hleap : isLeapYear year
  · rw [if_pos hleap]
    have hrule := (isLeapYear_iff year).mp hleap
    omega
  · rw [if_neg hleap]
    have hrule := mt (isLeapYear_iff year).mpr hleap
    omega

theorem yearOf_spec (n : Int) :
    daysBeforeYear (yearOf n) ≤ n ∧ n < daysBeforeYear (yearOf n + 1) := by
  have hlow : daysBeforeYear ((400 * n) / 146097) ≤ n := by
    rw [daysBeforeYear_eq]
    omega
  have hhigh : n < daysBeforeYear ((400 * n) / 146097 + 1 + 1 + 1) := by
    rw [daysBeforeYear_eq]
    omega
  simp only [yearOf, Int.fdiv_eq_ediv_of_nonneg (400 * n) (show (0 : Int) ≤ 146097 by decide)]
  split
  · next hlt =>
    rw [Int.add_sub_cancel]
    exact ⟨hlow, hlt⟩
  · next hle =>
    split
    · next hle' => exact ⟨hle', hhigh⟩
    · next hlt => exact ⟨Int.not_lt.mp hle, Int.not_le.mp hlt⟩

/-! ## Months -/

theorem foldl_add (a : Nat) (ns : List Nat) : ns.foldl (· + ·) a = a + ns.foldl (· + ·) 0 := by
  induction ns generalizing a with
  | nil => rfl
  | cons n ns ih => rw [List.foldl_cons, List.foldl_cons, ih, ih (0 + n)]; omega

theorem foldl_monthLengths (leap : Bool) :
    (monthLengths leap).foldl (· + ·) 0 = yearLength leap := by
  cases leap <;> rfl

theorem monthOf_spec (month : Nat) {n : Nat} {lengths : List Nat}
    (hn : n < lengths.foldl (· + ·) 0) :
    ∃ i length, lengths[i]? = some length ∧ (monthOf month n lengths).1 = month + i ∧
      1 ≤ (monthOf month n lengths).2 ∧ (monthOf month n lengths).2 ≤ length ∧
        (lengths.take i).foldl (· + ·) 0 + (monthOf month n lengths).2 = n + 1 := by
  induction lengths generalizing month n with
  | nil => exact absurd hn (Nat.not_lt_zero n)
  | cons length lengths ih =>
    rw [monthOf]
    split
    · next hlt =>
      refine ⟨0, length, rfl, rfl, ?_, hlt, ?_⟩
      · exact Nat.le_add_left 1 n
      · simp
    · next hle =>
      rw [List.foldl_cons, foldl_add] at hn
      obtain ⟨i, length', hlength, hmonth, hpos, hday, hsum⟩ :=
        ih (month + 1) (n := n - length) (by omega)
      refine ⟨i + 1, length', hlength, by rw [hmonth]; omega, hpos, hday, ?_⟩
      rw [List.take_succ_cons, List.foldl_cons, foldl_add]
      omega

/-! ## Dates -/

theorem ofDays_spec (days : Int) :
    ∃ i length, (monthLengths (isLeapYear (ofDays days).year))[i]? = some length ∧
      (ofDays days).month = i + 1 ∧ 1 ≤ (ofDays days).day ∧ (ofDays days).day ≤ length ∧
        (ofDays days).toDays = days := by
  obtain ⟨hyear, hnext⟩ := yearOf_spec (days + daysBeforeYear 1970)
  rw [daysBeforeYear_succ, ← foldl_monthLengths] at hnext
  have hlt : (days + daysBeforeYear 1970 -
        daysBeforeYear (yearOf (days + daysBeforeYear 1970))).toNat <
      (monthLengths (isLeapYear (yearOf (days + daysBeforeYear 1970)))).foldl (· + ·) 0 := by
    omega
  obtain ⟨i, length, hlength, hmonth, hpos, hday, hsum⟩ := monthOf_spec 1 hlt
  refine ⟨i, length, hlength, hmonth.trans (Nat.add_comm 1 i), hpos, hday, ?_⟩
  simp only [ofDays, toDays, daysBeforeMonth, hmonth, Nat.add_sub_cancel_left]
  omega

theorem toDays_ofDays (days : Int) : (ofDays days).toDays = days := by
  obtain ⟨i, length, -, -, -, -, hdays⟩ := ofDays_spec days
  exact hdays

theorem isValid_ofDays (days : Int) : (ofDays days).isValid := by
  obtain ⟨i, length, hlength, hmonth, hpos, hday, -⟩ := ofDays_spec days
  rw [isValid, hmonth]
  simp [hlength, hpos, hday]

theorem length_le_of_getElem? {leap : Bool} {i length : Nat}
    (h : (monthLengths leap)[i]? = some length) : i < 12 ∧ length ≤ 31 := by
  have hlast : (monthLengths leap).length = 12 := by cases leap <;> rfl
  have hmax : ∀ n ∈ monthLengths leap, n ≤ 31 := by cases leap <;> decide
  exact ⟨hlast ▸ (List.getElem?_eq_some_iff.mp h).1, hmax length (List.mem_of_getElem? h)⟩

theorem month_ofDays_le (days : Int) : (ofDays days).month ≤ 12 := by
  obtain ⟨i, length, hlength, hmonth, -⟩ := ofDays_spec days
  have hlt := (length_le_of_getElem? hlength).1
  omega

theorem day_ofDays_le (days : Int) : (ofDays days).day ≤ 31 := by
  obtain ⟨i, length, hlength, -, -, hday, -⟩ := ofDays_spec days
  exact Nat.le_trans hday (length_le_of_getElem? hlength).2

end Dialogue.Date
