/-!
# Tables

Finite maps that remember in which order their keys first came.  A later value for a key takes the
place of the earlier one.
-/

namespace Dialogue

structure Table (κ α : Type) where
  entries : List (κ × α)
  keys_nodup : (entries.map Prod.fst).Nodup

namespace Table

variable {κ α : Type} [DecidableEq κ]

/-- The entries with the value `a` for `k`, in the old place of `k` or at the end. -/
def put (k : κ) (a : α) : List (κ × α) → List (κ × α)
  | [] => [(k, a)]
  | e :: es => if e.1 = k then (k, a) :: es else e :: put k a es

def find? (k : κ) : List (κ × α) → Option α
  | [] => none
  | e :: es => if e.1 = k then some e.2 else find? k es

theorem mem_keys_put {k k' : κ} {a : α} {es : List (κ × α)} :
    k' ∈ (put k a es).map Prod.fst ↔ k' = k ∨ k' ∈ es.map Prod.fst := by
  induction es with
  | nil => simp [put]
  | cons e es ih =>
    by_cases h : e.1 = k
    · simp [put, h]
    · simp only [put, h, if_false, List.map_cons, List.mem_cons, ih]
      exact or_left_comm

theorem nodup_keys_put {k : κ} {a : α} {es : List (κ × α)} (h : (es.map Prod.fst).Nodup) :
    ((put k a es).map Prod.fst).Nodup := by
  induction es with
  | nil => simp [put]
  | cons e es ih =>
    rw [List.map_cons, List.nodup_cons] at h
    by_cases he : e.1 = k
    · subst he
      rw [put, if_pos rfl, List.map_cons, List.nodup_cons]
      exact h
    · rw [put, if_neg he, List.map_cons, List.nodup_cons, mem_keys_put]
      exact ⟨fun hm => hm.elim he h.1, ih h.2⟩

def empty : Table κ α := ⟨[], List.nodup_nil⟩

def insert (t : Table κ α) (k : κ) (a : α) : Table κ α :=
  ⟨put k a t.entries, nodup_keys_put t.keys_nodup⟩

def get? (t : Table κ α) (k : κ) : Option α :=
  find? k t.entries

def size (t : Table κ α) : Nat :=
  t.entries.length

def isEmpty (t : Table κ α) : Bool :=
  t.entries.isEmpty

def ofList (pairs : List (κ × α)) : Table κ α :=
  pairs.foldl (fun t p => t.insert p.1 p.2) empty

@[simp] theorem get?_empty (k : κ) : (empty : Table κ α).get? k = none := rfl

theorem find?_put (k k' : κ) (a : α) (es : List (κ × α)) :
    find? k' (put k a es) = if k' = k then some a else find? k' es := by
  induction es with
  | nil => by_cases h : k = k' <;> simp [put, find?, h, eq_comm]
  | cons e es ih =>
    by_cases he : e.1 = k
    · by_cases h : k = k' <;> simp [put, find?, he, h, eq_comm]
    · by_cases h : e.1 = k'
      · have : k' ≠ k := fun hk => he (h.trans hk)
        simp [put, find?, h, this]
      · simp only [put, he, if_false, find?, h, ih]

theorem get?_insert (t : Table κ α) (k k' : κ) (a : α) :
    (t.insert k a).get? k' = if k' = k then some a else t.get? k' :=
  find?_put k k' a t.entries

/-! ## Tables of all pairs -/

theorem get?_foldl_insert (t : Table κ α) (pairs : List (κ × α)) (k : κ) :
    (pairs.foldl (fun t p => t.insert p.1 p.2) t).get? k =
      ((pairs.reverse.find? fun p => p.1 = k).map Prod.snd).or (t.get? k) := by
  induction pairs generalizing t with
  | nil => rfl
  | cons p pairs ih =>
    rw [List.foldl_cons, ih, get?_insert, List.reverse_cons, List.find?_append,
      List.find?_singleton]
    cases pairs.reverse.find? fun p => decide (p.1 = k) with
    | some _ => rfl
    | none => by_cases hk : k = p.1 <;> simp [hk, eq_comm]

theorem get?_ofList (pairs : List (κ × α)) (k : κ) :
    (ofList pairs).get? k = (pairs.reverse.find? fun p => p.1 = k).map Prod.snd := by
  rw [ofList, get?_foldl_insert, get?_empty, Option.or_none]

theorem find?_eq_none {k : κ} {es : List (κ × α)} (h : ∀ e ∈ es, e.1 ≠ k) : find? k es = none := by
  induction es with
  | nil => rfl
  | cons e es ih =>
    rw [List.forall_mem_cons] at h
    rw [find?, if_neg h.1, ih h.2]

theorem mem_keys_foldl_insert {t : Table κ α} {pairs : List (κ × α)} {k : κ} :
    k ∈ (pairs.foldl (fun t p => t.insert p.1 p.2) t).entries.map Prod.fst ↔
      k ∈ pairs.map Prod.fst ∨ k ∈ t.entries.map Prod.fst := by
  induction pairs generalizing t with
  | nil => simp
  | cons p pairs ih =>
    rw [List.foldl_cons, ih, insert, mem_keys_put, List.map_cons, List.mem_cons, ← or_assoc,
      or_comm (a := k ∈ pairs.map Prod.fst)]

theorem mem_keys_ofList {pairs : List (κ × α)} {k : κ} :
    k ∈ (ofList pairs).entries.map Prod.fst ↔ k ∈ pairs.map Prod.fst := by
  rw [ofList, mem_keys_foldl_insert]
  simp [empty]

/-! ## Keys that stand once -/

theorem put_of_notMem {k : κ} (a : α) {es : List (κ × α)} (h : k ∉ es.map Prod.fst) :
    put k a es = es ++ [(k, a)] := by
  induction es with
  | nil => rfl
  | cons e es ih =>
    rw [List.map_cons, List.mem_cons, not_or] at h
    rw [put, if_neg (Ne.symm h.1), ih h.2, List.cons_append]

theorem entries_foldl_insert (t : Table κ α) {pairs : List (κ × α)}
    (h : ((t.entries ++ pairs).map Prod.fst).Nodup) :
    (pairs.foldl (fun t p => t.insert p.1 p.2) t).entries = t.entries ++ pairs := by
  induction pairs generalizing t with
  | nil => rw [List.foldl_nil, List.append_nil]
  | cons p pairs ih =>
    have hp : p.1 ∉ t.entries.map Prod.fst := by
      rw [List.map_append, List.map_cons, List.nodup_append] at h
      intro hmem
      exact h.2.2 _ hmem _ List.mem_cons_self rfl
    have hput : (t.insert p.1 p.2).entries = t.entries ++ [p] := put_of_notMem p.2 hp
    rw [List.foldl_cons, ih (t.insert p.1 p.2) (by simpa [hput] using h), hput,
      List.append_assoc, List.singleton_append]

theorem entries_ofList {pairs : List (κ × α)} (h : (pairs.map Prod.fst).Nodup) :
    (ofList pairs).entries = pairs :=
  entries_foldl_insert empty h

theorem ofList_entries (t : Table κ α) : ofList t.entries = t := by
  have hentries := entries_ofList t.keys_nodup
  generalize ofList t.entries = t' at hentries ⊢
  cases t
  cases t'
  cases hentries
  rfl

theorem find?_eq_some_iff {k : κ} {a : α} {es : List (κ × α)} (h : (es.map Prod.fst).Nodup) :
    find? k es = some a ↔ (k, a) ∈ es := by
  induction es with
  | nil => simp [find?]
  | cons e es ih =>
    rw [List.map_cons, List.nodup_cons] at h
    obtain ⟨key, value⟩ := e
    rw [find?, List.mem_cons, Prod.mk.injEq]
    by_cases hkey : key = k
    · subst hkey
      have hmem : (key, a) ∉ es := fun hmem => h.1 (List.mem_map.mpr ⟨_, hmem, rfl⟩)
      rw [if_pos rfl, Option.some.injEq, or_iff_left hmem, eq_comm]
      simp
    · rw [if_neg hkey, ih h.2, or_iff_right fun heq => hkey heq.1.symm]

end Table

end Dialogue
