import Dialogue.Proofs.Timestamp.Days
import Dialogue.Timestamp.Rfc3339
import Mathlib.Data.List.Infix
/-!
# The written form of a timestamp

What is written for a timestamp is read back as that timestamp.  Numbers are written with as many
digits as are read, or are followed by something else; so each part is read up to where the next one
begins.
-/

namespace Dialogue.Timestamp

/-! ## Numbers -/

theorem not_isBlank_of_isDigit {c : Char} (h : c.isDigit) : Text.isBlank c = false := by
  have hapart : ∀ r ∈ Text.blankRanges, r.2 < 48 ∨ 57 < r.1 := by decide
  have hbounds : 48 ≤ c.toNat ∧ c.toNat ≤ 57 := Char.isDigit_iff_toNat.mp h
  rw [Text.isBlank, Text.inRanges, List.any_eq_false]
  intro r hr
  rw [Bool.and_eq_true, decide_eq_true_eq, decide_eq_true_eq]
  have hr := hapart r hr
  omega

theorem skipBlanks_cons {c : Char} (h : Text.isBlank c = false) (cs : List Char) :
    skipBlanks (c :: cs) = c :: cs := by
  rw [skipBlanks, List.dropWhile_cons_of_neg (by simp [h])]

theorem mark?_cons (c : Char) (cs : List Char) (h : Text.isBlank c = false) :
    mark? c (c :: cs) = some cs := by
  rw [mark?, skipBlanks_cons h, List.isPrefixOf?_eq_some_iff_append_eq, List.singleton_append]

theorem digitsValue_eq (cs : List Char) : digitsValue cs = Nat.ofDigitChars 10 cs 0 := by
  simp [digitsValue, Nat.ofDigitChars_eq_foldl, Nat.mul_comm]

theorem takeWhile_isDigit_append {ds rest : List Char} (hdigits : ∀ c ∈ ds, c.isDigit)
    (hstop : ∀ c ∈ rest.head?, ¬ c.isDigit) : (ds ++ rest).takeWhile Char.isDigit = ds := by
  rw [List.takeWhile_append_of_pos hdigits]
  cases rest with
  | nil => simp
  | cons c rest => rw [List.takeWhile_cons_of_neg (hstop c rfl), List.append_nil]

theorem number?_append {width : Nat} {ds rest : List Char} (hdigits : ∀ c ∈ ds, c.isDigit)
    (hne : ds ≠ []) (hwidth : ds.length ≤ width)
    (hstop : ds.length = width ∨ ∀ c ∈ rest.head?, ¬ c.isDigit) :
    number? width (ds ++ rest) = some (digitsValue ds, rest) := by
  have htake : ((ds ++ rest).take width).takeWhile Char.isDigit = ds := by
    rw [List.take_append, List.take_of_length_le hwidth]
    refine takeWhile_isDigit_append hdigits fun c hc => ?_
    rcases hstop with heq | hstop
    · simp [heq] at hc
    · cases rest with
      | nil => simp at hc
      | cons d rest =>
        cases hk : width - ds.length with
        | zero => simp [hk] at hc
        | succ k =>
          rw [hk, List.take_succ_cons] at hc
          exact hstop c hc
  simp [number?, htake, hne]

/-! ## Padded numbers -/

theorem toList_padded (width n : Nat) :
    (padded width n).toList =
      List.replicate (width - (Nat.toDigits 10 n).length) '0' ++ Nat.toDigits 10 n := by
  simp [padded, ← String.length_toList]

theorem isDigit_of_mem_padded {width n : Nat} {c : Char} (h : c ∈ (padded width n).toList) :
    c.isDigit := by
  rw [toList_padded, List.mem_append] at h
  rcases h with h | h
  · rw [List.eq_of_mem_replicate h]
    decide
  · exact Nat.isDigit_of_mem_toDigits (by decide) (by decide) h

theorem digitsValue_padded (width n : Nat) : digitsValue (padded width n).toList = n := by
  rw [digitsValue_eq, toList_padded, Nat.ofDigitChars_append, Nat.ofDigitChars_replicate_zero,
    Nat.mul_zero, Nat.ofDigitChars_ten_toDigits]

theorem padded_ne_nil (width n : Nat) : (padded width n).toList ≠ [] := by
  rw [toList_padded]
  exact List.append_ne_nil_of_right_ne_nil _ Nat.toDigits_ne_nil

theorem length_padded {width n : Nat} (hwidth : 0 < width) (hn : n < Nat.pow 10 width) :
    (padded width n).toList.length = width := by
  have hle : (Nat.toDigits 10 n).length ≤ width :=
    (Nat.length_toDigits_le_iff (by decide) hwidth).mpr hn
  rw [toList_padded, List.length_append, List.length_replicate]
  omega

theorem exists_padded_eq_cons (width n : Nat) :
    ∃ c cs, (padded width n).toList = c :: cs ∧ c.isDigit := by
  obtain ⟨c, cs, heq⟩ := List.exists_cons_of_ne_nil (padded_ne_nil width n)
  exact ⟨c, cs, heq, isDigit_of_mem_padded (heq ▸ List.mem_cons_self)⟩

theorem skipBlanks_padded (width n : Nat) (rest : List Char) :
    skipBlanks ((padded width n).toList ++ rest) = (padded width n).toList ++ rest := by
  obtain ⟨c, cs, heq, hdigit⟩ := exists_padded_eq_cons width n
  rw [heq, List.cons_append, skipBlanks_cons (not_isBlank_of_isDigit hdigit)]

theorem number?_padded (width n : Nat) (hwidth : 0 < width) (hn : n < Nat.pow 10 width)
    (rest : List Char) : number? width ((padded width n).toList ++ rest) = some (n, rest) := by
  have hlength := length_padded hwidth hn
  rw [number?_append (fun _ => isDigit_of_mem_padded) (padded_ne_nil width n)
    (Nat.le_of_eq hlength) (Or.inl hlength), digitsValue_padded]

theorem twoDigits?_padded {n : Nat} (hn : n < 100) (rest : List Char) :
    twoDigits? ((padded 2 n).toList ++ rest) = some (n, rest) := by
  rw [twoDigits?, skipBlanks_padded, number?_padded 2 n (by decide) hn]

/-! ## Dates -/

theorem number?_length {n : Nat} {rest : List Char} (hstop : ∀ c ∈ rest.head?, ¬ c.isDigit) :
    number? ((padded 4 n).toList ++ rest).length ((padded 4 n).toList ++ rest) =
      some (n, rest) := by
  rw [number?_append (fun _ => isDigit_of_mem_padded) (padded_ne_nil 4 n) (by simp)
    (Or.inr hstop), digitsValue_padded]

theorem year?_writeYear (year : Int) {rest : List Char}
    (hstop : ∀ c ∈ rest.head?, ¬ c.isDigit) :
    year? ((writeYear year).toList ++ rest) = some (year, rest) := by
  have hsigned := number?_length (n := year.natAbs) hstop
  rw [writeYear]
  split
  · next hneg =>
    rw [String.toList_append, show "-".toList = ['-'] from rfl, List.append_assoc,
      List.singleton_append, year?, skipBlanks_cons rfl]
    simp only [hsigned, Option.map_some, Option.some.injEq, Prod.mk.injEq, and_true]
    omega
  · next hpos =>
    have habs : year.toNat = year.natAbs := by omega
    rw [habs]
    split
    · next hle =>
      have hlt : year.natAbs < 10000 := by omega
      -- Without a sign the text begins with a digit, so neither of the signs is read.
      obtain ⟨c, cs, heq, hdigit⟩ := exists_padded_eq_cons 4 year.natAbs
      rw [year?, skipBlanks_padded]
      split
      · next hminus =>
        rw [heq, List.cons_append, List.cons.injEq] at hminus
        exact absurd (hminus.1 ▸ hdigit) (by decide)
      · next hplus =>
        rw [heq, List.cons_append, List.cons.injEq] at hplus
        exact absurd (hplus.1 ▸ hdigit) (by decide)
      · rw [number?_padded 4 year.natAbs (by decide) hlt]
        simp only [Option.map_some, Option.some.injEq, Prod.mk.injEq, and_true]
        omega
    · next hlt =>
      rw [String.toList_append, show "+".toList = ['+'] from rfl, List.append_assoc,
        List.singleton_append, year?, skipBlanks_cons rfl]
      simp only [hsigned, Option.map_some, Option.some.injEq, Prod.mk.injEq, and_true]
      omega

theorem date?_write (date : Date) (hmonth : date.month < 100) (hday : date.day < 100)
    (rest : List Char) :
    date? ((writeYear date.year).toList ++ '-' :: ((padded 2 date.month).toList ++
      '-' :: ((padded 2 date.day).toList ++ rest))) = some (date, rest) := by
  rw [date?, year?_writeYear date.year (by simp)]
  simp [mark?_cons '-' _ (by decide), twoDigits?_padded, hmonth, hday]

/-! ## Times of day -/

theorem fraction?_padded {width n nanos : Nat} (hwidth : 0 < width) (hle : width ≤ 9)
    (hn : n < Nat.pow 10 width) (hnanos : Nat.pow 10 (9 - width) * n = nanos) {rest : List Char}
    (hstop : ∀ c ∈ rest.head?, ¬ c.isDigit) :
    fraction? (("." ++ padded width n).toList ++ rest) = some (nanos, rest) := by
  have hlength := length_padded hwidth hn
  have htake : ((padded width n).toList ++ List.replicate 9 '0').take 9 =
      (padded width n).toList ++ List.replicate (9 - width) '0' := by
    rw [List.take_append, List.take_of_length_le (by omega), hlength, List.take_replicate,
      Nat.min_eq_left (by omega)]
  have hvalue : digitsValue ((padded width n).toList ++ List.replicate (9 - width) '0') =
      nanos := by
    rw [digitsValue_eq, Nat.ofDigitChars_append, Nat.ofDigitChars_replicate_zero,
      ← digitsValue_eq, digitsValue_padded]
    exact hnanos
  rw [String.toList_append, show ".".toList = ['.'] from rfl, List.append_assoc,
    List.singleton_append]
  simp only [fraction?, takeWhile_isDigit_append (fun _ => isDigit_of_mem_padded) hstop, htake,
    hvalue, List.drop_left, List.isEmpty_iff, padded_ne_nil, if_false]

theorem fraction?_writeFraction {nanos : Nat} (hnanos : nanos < 1000000000) {c : Char}
    (hc : c.isDigit = false) (hpoint : c ≠ '.') (rest : List Char) :
    fraction? ((writeFraction nanos).toList ++ c :: rest) = some (nanos, c :: rest) := by
  have hstop : ∀ d ∈ (c :: rest).head?, ¬ d.isDigit := by simp [hc]
  rw [writeFraction]
  split
  · next hzero => simp [fraction?, hpoint, hzero]
  · split
    · next hmilli =>
      have hlt : nanos / 1000000 < 1000 := by omega
      have hvalue : 1000000 * (nanos / 1000000) = nanos := by omega
      exact fraction?_padded (by decide) (by decide) hlt hvalue hstop
    · split
      · next hmicro =>
        have hlt : nanos / 1000 < 1000000 := by omega
        have hvalue : 1000 * (nanos / 1000) = nanos := by omega
        exact fraction?_padded (by decide) (by decide) hlt hvalue hstop
      · exact fraction?_padded (by decide) (by decide) hnanos (Nat.one_mul nanos) hstop

theorem time?_write {hour minute second nanos : Nat} (hhour : hour < 24) (hminute : minute < 60)
    (hsecond : second ≤ 60) (hnanos : nanos < 1000000000) {c : Char} (hc : c.isDigit = false)
    (hpoint : c ≠ '.') (rest : List Char) :
    time? ((padded 2 hour).toList ++ ':' :: ((padded 2 minute).toList ++
        ':' :: ((padded 2 second).toList ++ ((writeFraction nanos).toList ++ c :: rest)))) =
      if second = 60 then some (hour * 3600 + minute * 60 + 59, nanos + 1000000000, c :: rest)
      else some (hour * 3600 + minute * 60 + second, nanos, c :: rest) := by
  have hbounds : hour < 24 ∧ minute < 60 ∧ second ≤ 60 := ⟨hhour, hminute, hsecond⟩
  simp [time?, mark?_cons ':' _ (by decide), twoDigits?_padded (show hour < 100 by omega),
    twoDigits?_padded (show minute < 100 by omega), twoDigits?_padded (show second < 100 by omega),
    fraction?_writeFraction hnanos hc hpoint, hbounds]

/-! ## Timestamps -/

/-- A point in time that has a written form of its own: its year has one, and if it lies in a leap
second, that one ends a minute. -/
structure Proper (t : Timestamp) : Prop where
  year_fits : yearFits (Date.ofDays (t.seconds.fdiv secondsPerDay)).year
  leap_ends : t.nanoseconds < 1000000000 ∨ t.nanoseconds < 2000000000 ∧ t.seconds % 60 = 59

theorem timeOfDay_eq (t : Timestamp) : t.timeOfDay = t.seconds % 86400 := by
  rw [timeOfDay, secondsPerDay, Int.fmod_eq_emod_of_nonneg _ (by decide)]

theorem timeOfDay_spec (t : Timestamp) :
    t.timeOfDay.toNat < 86400 ∧
      t.seconds.fdiv secondsPerDay * secondsPerDay + t.timeOfDay.toNat = t.seconds := by
  rw [timeOfDay_eq, secondsPerDay, Int.fdiv_eq_ediv_of_nonneg _ (by decide)]
  omega

theorem inLeapSecond_iff (t : Timestamp) : t.inLeapSecond ↔ 1000000000 ≤ t.nanoseconds := by
  rw [inLeapSecond, decide_eq_true_eq, nanosPerSecond]
  omega

theorem time?_format {t : Timestamp} (ht : t.Proper) :
    time? ((padded 2 (t.timeOfDay.toNat / 3600)).toList ++
        ':' :: ((padded 2 (t.timeOfDay.toNat / 60 % 60)).toList ++
          ':' :: ((padded 2 (t.timeOfDay.toNat % 60 +
              if t.inLeapSecond then 1 else 0)).toList ++
            ((writeFraction (t.nanoseconds -
              (if t.inLeapSecond then 1 else 0) * 1000000000)).toList ++ ['Z'])))) =
      some (t.timeOfDay.toNat, t.nanoseconds, ['Z']) := by
  have hlt := (timeOfDay_spec t).1
  have hsecond : t.timeOfDay.toNat % 60 = (t.seconds % 60).toNat := by
    rw [timeOfDay_eq]
    omega
  have hnanos := ht.leap_ends
  have hleap := inLeapSecond_iff t
  by_cases hin : t.inLeapSecond
  · have hle := hleap.mp hin
    rw [if_pos hin, time?_write (by omega) (by omega) (by omega) (by omega) (by decide)
      (by decide), if_pos (by omega), Option.some.injEq, Prod.mk.injEq, Prod.mk.injEq]
    exact ⟨by omega, by omega, rfl⟩
  · have hlow := mt hleap.mpr hin
    rw [if_neg hin, time?_write (by omega) (by omega) (by omega) (by omega) (by decide)
      (by decide), if_neg (by omega), Option.some.injEq, Prod.mk.injEq, Prod.mk.injEq]
    exact ⟨by omega, by omega, rfl⟩

theorem date?_format {t : Timestamp} (ht : t.Proper) :
    ∃ cs, date? t.format.toList = some (Date.ofDays (t.seconds.fdiv secondsPerDay), 'T' :: cs) ∧
      time? cs = some (t.timeOfDay.toNat, t.nanoseconds, ['Z']) := by
  have hmonth := Date.month_ofDays_le (t.seconds.fdiv secondsPerDay)
  have hday := Date.day_ofDays_le (t.seconds.fdiv secondsPerDay)
  refine ⟨_, ?_, time?_format ht⟩
  rw [← date?_write (Date.ofDays (t.seconds.fdiv secondsPerDay)) (by omega) (by omega)]
  simp [format]

theorem parse?_format {t : Timestamp} (ht : t.Proper) : parse? t.format = some t := by
  obtain ⟨cs, hdate, htime⟩ := date?_format ht
  have hoffset : offset? (skipBlanks ['Z']) = some (0, []) := rfl
  have hend : skipBlanks [] = [] := rfl
  have hseconds := (timeOfDay_spec t).2
  rw [← Date.toDays_ofDays (t.seconds.fdiv secondsPerDay)] at hseconds
  generalize t.timeOfDay.toNat = time at htime hseconds
  simp [parse?, hdate, htime, hoffset, hend, hseconds, Date.isValid_ofDays, ht.year_fits]

end Dialogue.Timestamp
