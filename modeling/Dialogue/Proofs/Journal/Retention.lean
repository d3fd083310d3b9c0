import Dialogue.Wire.Journal
import Mathlib.Data.List.DropRight
/-!
# Retention

A journal makes room when it is just full.  So one with room for an entry, and with no more entries
than it has room for, always holds the last entries that were written; any other holds all of them
for ever.  Journals begin within their bounds and stay there, but they are read with whatever bound
and entries are written.
-/

namespace Dialogue

theorem rtake_rtake {α : Type} (l : List α) {m n : Nat} (h : n ≤ m) :
    (l.rtake m).rtake n = l.rtake n := by
  rw [List.rtake, List.rtake, List.rtake, List.drop_drop, List.length_drop]
  congr 1
  omega

theorem rtake_of_length_le {α : Type} {l : List α} {n : Nat} (h : l.length ≤ n) :
    l.rtake n = l := by
  rw [List.rtake, Nat.sub_eq_zero_of_le h, List.drop_zero]

theorem length_rtake {α : Type} (l : List α) (n : Nat) : (l.rtake n).length = min l.length n := by
  rw [List.rtake, List.length_drop]
  omega

namespace Journal

variable {α : Type}

def recordAll (j : Journal α) (entries : List α) : Journal α :=
  entries.foldl record j

structure Bounded (j : Journal α) : Prop where
  capacity_pos : 0 < j.capacity
  length_le : j.records.length ≤ j.capacity

section Record

variable (j : Journal α) (entry : α) (entries : List α)

@[simp] theorem capacity_record : (j.record entry).capacity = j.capacity := rfl

@[simp] theorem recordAll_nil : j.recordAll [] = j := rfl

theorem recordAll_append (entries' : List α) :
    j.recordAll (entries ++ entries') = (j.recordAll entries).recordAll entries' :=
  List.foldl_append

theorem recordAll_concat : j.recordAll (entries ++ [entry]) = (j.recordAll entries).record entry :=
  recordAll_append j entries [entry]

@[simp] theorem capacity_recordAll : (j.recordAll entries).capacity = j.capacity := by
  induction entries generalizing j with
  | nil => rfl
  | cons entry entries ih => exact ih (j.record entry)

theorem bounded_withCapacity (capacity : Nat) : (withCapacity capacity : Journal α).Bounded :=
  ⟨Nat.lt_of_lt_of_le Nat.one_pos (Nat.le_max_right capacity 1), Nat.zero_le _⟩

end Record

/-! ## Within bounds -/

namespace Bounded

variable {j : Journal α} (h : j.Bounded)
include h

theorem max_capacity : max j.capacity 1 = j.capacity :=
  Nat.max_eq_left h.capacity_pos

theorem records_record (entry : α) :
    (j.record entry).records = (j.records ++ [entry]).rtake j.capacity := by
  obtain ⟨room, hroom⟩ := Nat.exists_eq_succ_of_ne_zero h.capacity_pos.ne'
  have hle := h.length_le
  have hroomy : (if j.records.length = j.capacity then j.records.tail else j.records) =
      j.records.rtake room := by
    split
    · next hfull =>
      have hone : j.records.length - room = 1 := by omega
      rw [List.rtake, hone, List.drop_one]
    · next hfree => exact (rtake_of_length_le (by omega)).symm
  rw [hroom, List.rtake_concat_succ, ← hroomy]
  rfl

theorem record (entry : α) : (j.record entry).Bounded where
  capacity_pos := h.capacity_pos
  length_le := by
    rw [h.records_record, length_rtake]
    exact Nat.min_le_right _ _

theorem recordAll (entries : List α) : (j.recordAll entries).Bounded := by
  induction entries generalizing j with
  | nil => exact h
  | cons entry entries ih => exact ih (h.record entry)

theorem records_recordAll (entries : List α) :
    (j.recordAll entries).records = (j.records ++ entries).rtake j.capacity := by
  induction entries using List.reverseRecOn with
  | nil => rw [recordAll_nil, List.append_nil, rtake_of_length_le h.length_le]
  | append_singleton entries entry ih =>
    obtain ⟨room, hroom⟩ := Nat.exists_eq_succ_of_ne_zero h.capacity_pos.ne'
    rw [recordAll_concat, (h.recordAll entries).records_record, ih, capacity_recordAll,
      ← List.append_assoc, hroom, List.rtake_concat_succ, List.rtake_concat_succ,
      rtake_rtake _ (Nat.le_succ room)]

end Bounded

/-! ## Out of bounds -/

section Unbounded

variable {j : Journal α} (h : ¬ j.Bounded)
include h

theorem capacity_eq_zero_or_lt_length : j.capacity = 0 ∨ j.capacity < j.records.length := by
  by_contra hnot
  rw [not_or] at hnot
  exact h ⟨Nat.pos_of_ne_zero hnot.1, Nat.not_lt.mp hnot.2⟩

/-- Nothing makes room: a journal is just full only if it is empty. -/
theorem records_record_of_not_bounded (entry : α) :
    (j.record entry).records = j.records ++ [entry] := by
  have hcases := capacity_eq_zero_or_lt_length h
  simp only [record]
  split
  · next hfull =>
    have hnil : j.records = [] := List.eq_nil_of_length_eq_zero (by omega)
    rw [hnil, List.tail_nil]
  · rfl

theorem not_bounded_record (entry : α) : ¬ (j.record entry).Bounded := by
  intro hbounded
  have hle := hbounded.length_le
  have hcases := capacity_eq_zero_or_lt_length h
  rw [records_record_of_not_bounded h, List.length_append, capacity_record] at hle
  rcases hcases with hzero | hlt
  · exact hbounded.capacity_pos.ne' hzero
  · exact absurd hle (by omega)

theorem records_recordAll_of_not_bounded (entries : List α) :
    (j.recordAll entries).records = j.records ++ entries := by
  induction entries generalizing j with
  | nil => exact (List.append_nil _).symm
  | cons entry entries ih =>
    have hrest := ih (not_bounded_record h entry)
    rwa [records_record_of_not_bounded h, List.append_assoc, List.singleton_append] at hrest

end Unbounded

/-! ## Reading -/

/-- A journal is read as it is written: its capacity need not be positive, nor its entries fit. -/
theorem decode?_ofMembers {capacity : Nat} (hcapacity : capacity < UInt64.size) {records : Json}
    {moves : List TimedMove} (hmoves : records.list? TimedMove.decode? = some moves) :
    Journal.decode? (.ofMembers [("capacity", .ofNat capacity), ("records", records)]) =
      some ⟨capacity, moves⟩ := by
  have hword : (Json.ofNat capacity).word? = some capacity := by
    simp [Json.ofNat, Json.word?, Json.natBelow?, hcapacity]
  have hfields : (Json.ofMembers [("capacity", .ofNat capacity), ("records", records)]).fields?
      ["capacity", "records"] = some [.present (.ofNat capacity), .present records] := by
    have hcapacityKey : (Json.Literal.ofString "capacity").text? = some "capacity" := rfl
    have hrecordsKey : (Json.Literal.ofString "records").text? = some "records" := rfl
    simp [Json.ofMembers, Json.fields?, Json.memberField?, Json.valuesOf, hcapacityKey,
      hrecordsKey]
  simp [decode?, hfields, Json.Field.required, hword, hmoves]

/-! ## All journals -/

instance (j : Journal α) : Decidable j.Bounded :=
  decidable_of_iff (0 < j.capacity ∧ j.records.length ≤ j.capacity)
    ⟨fun h => ⟨h.1, h.2⟩, fun h => ⟨h.capacity_pos, h.length_le⟩⟩

structure Retains (j : Journal α) (entries : List α) : Prop where
  length_le : (j.recordAll entries).records.length ≤ max j.capacity 1
  latest : (j.recordAll entries).records <:+ j.records ++ entries

theorem records_recordAll (j : Journal α) (entries : List α) :
    (j.recordAll entries).records =
      if j.Bounded then (j.records ++ entries).rtake (max j.capacity 1)
      else j.records ++ entries := by
  split
  · next h => rw [h.records_recordAll, h.max_capacity]
  · next h => exact records_recordAll_of_not_bounded h entries

theorem retains_iff (j : Journal α) (entries : List α) :
    j.Retains entries ↔ j.Bounded ∨ (j.records ++ entries).length ≤ max j.capacity 1 := by
  have hrecords := records_recordAll j entries
  by_cases h : j.Bounded
  · rw [if_pos h] at hrecords
    refine iff_of_true ⟨?_, ?_⟩ (Or.inl h)
    · rw [hrecords, length_rtake]
      exact Nat.min_le_right _ _
    · rw [hrecords]
      exact List.drop_suffix _ _
  · rw [if_neg h] at hrecords
    rw [or_iff_right h]
    constructor
    · intro hretains
      rw [← hrecords]
      exact hretains.length_le
    · intro hle
      exact ⟨hrecords ▸ hle, hrecords ▸ List.suffix_refl _⟩

/-- A journal `Retains` the latest entries, at most `max capacity 1` of them, just if it is
`Bounded` or all its entries fit.  `withCapacity` makes bounded journals, but `decode?` gives
whatever capacity and records are written. -/
theorem retention_recordAll (entries : List TimedMove) :
    (∀ j : Journal TimedMove,
        ((j.recordAll entries).records =
            if j.Bounded then (j.records ++ entries).rtake (max j.capacity 1)
            else j.records ++ entries) ∧
          (j.Retains entries ↔
            j.Bounded ∨ (j.records ++ entries).length ≤ max j.capacity 1)) ∧
      (∀ capacity, (withCapacity capacity : Journal TimedMove).Retains entries ∧
        ((withCapacity capacity).recordAll entries).Bounded) ∧
      ∀ capacity records moves, capacity < UInt64.size →
        records.list? TimedMove.decode? = some moves →
          Journal.decode? (.ofMembers [("capacity", .ofNat capacity), ("records", records)]) =
            some ⟨capacity, moves⟩ := by
  refine ⟨fun j => ⟨records_recordAll j entries, retains_iff j entries⟩, fun capacity => ?_, ?_⟩
  · have hbounded := bounded_withCapacity (α := TimedMove) capacity
    exact ⟨(retains_iff _ entries).mpr (Or.inl hbounded), hbounded.recordAll entries⟩
  · intro capacity records moves hcapacity hmoves
    exact decode?_ofMembers hcapacity hmoves

def stroll : List TimedMove :=
  [{ source := "gate", target := "hall", event := .click, attempt := 0, time := ⟨0, 0⟩ },
    { source := "hall", target := "garden", event := .endSpeech, attempt := 0, time := ⟨1, 0⟩ },
    { source := "garden", target := "gate", event := .timeout, attempt := 1, time := ⟨2, 0⟩ }]

theorem retention_recordAll_stroll :
    ∃ j, Journal.decode? (.ofMembers [("capacity", .ofNat 2),
        ("records", .array ((stroll.take 1).map TimedMove.encode))]) = some j ∧
      j.Retains (stroll.drop 1) ∧
      (j.recordAll (stroll.drop 1)).records = stroll.drop 1 := by
  obtain ⟨hjournals, -, hread⟩ := retention_recordAll (stroll.drop 1)
  obtain ⟨hrecords, hretains⟩ := hjournals ⟨2, stroll.take 1⟩
  exact ⟨_, hread 2 _ _ (by decide) rfl, hretains.mpr (Or.inl (by decide)),
    hrecords.trans (by decide)⟩

/-- A journal that is read with two records and capacity `1` never drops any. -/
theorem overflows_when_read :
    ∃ j, Journal.decode? (.ofMembers [("capacity", .ofNat 1),
        ("records", .array ((stroll.take 2).map TimedMove.encode))]) = some j ∧
      ¬ j.Retains (stroll.drop 2) :=
  ⟨⟨1, stroll.take 2⟩, rfl, fun h => absurd h.length_le (by decide)⟩

end Journal

end Dialogue
