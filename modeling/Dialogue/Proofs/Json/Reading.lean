import Dialogue.Proofs.Json.Alike
/-!
# Reading what is written

A reader is right about a tree if it gives one value for all trees alike.  Plain values, lists,
values that may be null and the fields of records are read so, if what they are made of is.
-/

namespace Dialogue.Json

/-- What a reader gives for a tree, in whatever order members stand in it. -/
def Reads {α : Type} (decode : Json → Option α) (j : Json) (a : α) : Prop :=
  ∀ j' : Json, j'.Alike j → decode j' = some a

theorem mapM_eq_some {α β : Type} {f : α → Option β} {as : List α} {bs : List β}
    (h : List.Forall₂ (fun a b => f a = some b) as bs) : as.mapM f = some bs := by
  induction h with
  | nil => rfl
  | cons hab _ ih => simp [hab, ih]

theorem forall₂_of_mem {α β : Type} {r s : α → β → Prop} {as : List α} {bs : List β}
    (h : List.Forall₂ r as bs) (himp : ∀ a, ∀ b ∈ bs, r a b → s a b) : List.Forall₂ s as bs := by
  have hmem := (List.forall₂_and_left bs as).mpr ⟨fun b (hb : b ∈ bs) => hb, h.flip⟩
  exact (hmem.imp fun b a hab => himp a b hab.1 hab.2).flip

namespace Reads

variable {α β : Type} {decode : Json → Option α}

theorem self {j : Json} {a : α} (h : Reads decode j a) : decode j = some a :=
  h j (.refl j)

theorem of_eq {j : Json} {a : α} (heq : ∀ j' : Json, j'.Alike j → j' = j)
    (h : decode j = some a) : Reads decode j a := by
  intro j' halike
  rw [heq j' halike, h]

theorem map {j : Json} {a : α} (h : Reads decode j a) (f : α → β) :
    Reads (fun j => (decode j).map f) j (f a) := by
  intro j' halike
  exact congrArg (Option.map f) (h j' halike)

theorem bind {j : Json} {a : α} (h : Reads decode j a) {f : α → Option β} {b : β}
    (hf : f a = some b) : Reads (fun j => (decode j).bind f) j b := by
  intro j' halike
  exact (congrArg (Option.bind · f) (h j' halike)).trans hf

/-! ## Plain values -/

theorem eq_number {j : Json} {n : Number} (h : j.Alike (.number n)) : j = .number n := by
  cases h
  rfl

theorem eq_null {j : Json} (h : j.Alike .null) : j = .null := by
  cases h
  rfl

theorem ofString (s : String) : Reads string? (.ofString s) s :=
  of_eq (fun _ => Alike.eq_string) (string?_ofString s)

theorem caseName (s : String) : Reads caseName? (.ofString s) s :=
  of_eq (fun _ => Alike.eq_string) (Literal.text?_ofString s)

theorem natBelow {n bound : Nat} (h : n < bound) : Reads (natBelow? bound) (.ofNat n) n :=
  of_eq (fun _ => eq_number) (by simp [ofNat, natBelow?, h])

theorem word {n : Nat} (h : n < UInt64.size) : Reads word? (.ofNat n) n :=
  natBelow h

theorem count (n : UInt32) : Reads count? (.ofNat n.toNat) n := by
  have h := (natBelow n.toNat_lt_size).map UInt32.ofNat
  rwa [UInt32.ofNat_toNat] at h

theorem ofFloat {x : Float} (h : x.isFinite) : Reads float? (.ofFloat x) x := by
  rw [Json.ofFloat, if_pos h]
  exact of_eq (fun _ => eq_number) rfl

/-! ## Lists and values that may be null -/

theorem list {encode : α → Json} {as : List α} (h : ∀ a ∈ as, Reads decode (encode a) a) :
    Reads (list? decode) (.array (as.map encode)) as := by
  intro j' halike
  obtain ⟨items, rfl, hitems⟩ := halike.exists_items
  exact mapM_eq_some (forall₂_of_mem (List.forall₂_map_right_iff.mp hitems) fun item a ha =>
    h a ha item)

theorem null : Reads (Field.nullable decode) .null none :=
  of_eq (fun _ => eq_null) rfl

theorem nullable_of_ne {j : Json} (h : j ≠ .null) :
    Field.nullable decode j = (decode j).map some := by
  cases j with
  | null => exact absurd rfl h
  | _ => rfl

theorem nullable {j : Json} {a : α} (h : Reads decode j a) (hne : j ≠ .null) :
    Reads (Field.nullable decode) j (some a) := by
  intro j' halike
  rw [nullable_of_ne, h j' halike, Option.map_some]
  rintro rfl
  cases halike
  exact hne rfl

theorem ofOption {encode : α → Json} {o : Option α}
    (h : ∀ a, Reads decode (encode a) a ∧ encode a ≠ .null) :
    Reads (Field.nullable decode) (.ofOption encode o) o := by
  cases o with
  | none => exact null
  | some a => exact nullable (h a).1 (h a).2

end Reads

/-! ## Fields -/

namespace Field.Alike

variable {α : Type} {decode : Json → Option α} {f : Field} {j : Json} {a : α}

theorem required (h : f.Alike (.present j)) (hread : Reads decode j a) :
    f.required decode = some a := by
  cases h with
  | present halike => exact hread _ halike

theorem optional (h : f.Alike (.present j)) {o : Option α}
    (hread : Reads (Field.nullable decode) j o) : f.optional decode = some o := by
  cases h with
  | present halike => exact hread _ halike

theorem withDefault (h : f.Alike (.present j)) (hread : Reads decode j a) (otherwise : α) :
    f.withDefault decode otherwise = some a := by
  cases h with
  | present halike => exact hread _ halike

theorem missing (h : f.Alike .absent) (otherwise : α) :
    f.withDefault decode otherwise = some otherwise := by
  cases h
  rfl

theorem withDefault_none {o : Option String} (h : f.Alike (.ofOption (o.map .ofString))) :
    f.withDefault (nullable string?) none = some o := by
  cases o with
  | none => exact h.missing none
  | some s => exact h.withDefault (Reads.nullable (.ofString s) nofun) none

end Field.Alike

end Dialogue.Json
