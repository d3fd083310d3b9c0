import Dialogue.Json.Record
import Mathlib.Data.List.Forall2
/-!
# The order of members

The members of an object have no order: two trees are alike if they differ in it at most.  Of an
object in which no name stands twice, every order of the members has the same fields, up to the
order of members inside them, and the same tag.
-/

namespace Dialogue.Json

inductive AtKey (r : Json → Json → Prop) : Literal × Json → Literal × Json → Prop
  | mk (key : Literal) {value value' : Json} (h : r value value') :
    AtKey r (key, value) (key, value')

/-- Two trees that differ in the order of the members of their objects at most. -/
inductive Alike : Json → Json → Prop
  | refl (j : Json) : Alike j j
  | array {items items' : List Json} (hitems : List.Forall₂ Alike items items') :
    Alike (.array items) (.array items')
  | object {members ordered members' : List (Literal × Json)} (hperm : members.Perm ordered)
      (hmembers : List.Forall₂ (AtKey Alike) ordered members') :
    Alike (.object members) (.object members')

namespace Alike

theorem exists_items {j : Json} {items : List Json} (h : j.Alike (.array items)) :
    ∃ items', j = .array items' ∧ List.Forall₂ Alike items' items := by
  cases h with
  | refl => exact ⟨items, rfl, List.forall₂_same.mpr fun item _ => .refl item⟩
  | array hitems => exact ⟨_, rfl, hitems⟩

theorem exists_members {j : Json} {members : List (Literal × Json)}
    (h : j.Alike (.object members)) :
    ∃ members' ordered, j = .object members' ∧ members'.Perm ordered ∧
      List.Forall₂ (AtKey Alike) ordered members := by
  cases h with
  | refl =>
    exact ⟨members, members, rfl, .refl members,
      List.forall₂_same.mpr fun m _ => .mk m.1 (.refl m.2)⟩
  | object hperm hmembers => exact ⟨_, _, rfl, hperm, hmembers⟩

end Alike

/-! ## Literals -/

namespace Literal

theorem chars?_map_piece (cs : List Char) : chars? (cs.map piece) = some cs := by
  induction cs with
  | nil => rfl
  | cons c cs ih =>
    rw [List.map_cons, piece]
    split
    · simp [chars?, ih]
    · split
      · next hcontrol =>
        have hhigh : isHighSurrogate c.toNat = false := by simp [isHighSurrogate]; omega
        have hlow : isLowSurrogate c.toNat = false := by simp [isLowSurrogate]; omega
        unfold chars?
        simp [hhigh, hlow, ih]
      · simp [chars?, ih]

@[simp] theorem text?_ofString (s : String) : (ofString s).text? = some s := by
  rw [text?, ofString, chars?_map_piece, Option.map_some, String.ofList_toList]

end Literal

/-! ## Usable trees -/

theorem usableItems_eq (depth : Nat) (items : List Json) :
    usableItems depth items = items.all (usable depth) := by
  induction items with
  | nil => simp [usableItems]
  | cons item items ih => simp [usableItems, ih]

theorem usableMembers_eq (depth : Nat) (members : List (Literal × Json)) :
    usableMembers depth members =
      members.all fun m => m.1.text?.isSome && usable depth m.2 := by
  induction members with
  | nil => simp [usableMembers]
  | cons m members ih => simp [usableMembers, ih]

theorem all_eq_of_forall₂ {α β : Type} {r : α → β → Prop} {p : α → Bool} {q : β → Bool}
    {as : List α} {bs : List β} (h : List.Forall₂ r as bs) (hr : ∀ a b, r a b → p a = q b) :
    as.all p = bs.all q := by
  induction h with
  | nil => rfl
  | cons hab _ ih => rw [List.all_cons, List.all_cons, hr _ _ hab, ih]

theorem Alike.usable_eq {depth : Nat} {j j' : Json} (h : j.Alike j') :
    j.usable depth = j'.usable depth := by
  induction depth generalizing j j' with
  | zero => cases h <;> simp [usable]
  | succ depth ih =>
    cases h with
    | refl => rfl
    | array hitems =>
      rw [usable, usable, usableItems_eq, usableItems_eq, Nat.add_sub_cancel,
        all_eq_of_forall₂ hitems fun _ _ => ih]
    | object hperm hmembers =>
      rw [usable, usable, usableMembers_eq, usableMembers_eq, Nat.add_sub_cancel, hperm.all_eq,
        all_eq_of_forall₂ hmembers]
      rintro _ _ ⟨key, hvalue⟩
      rw [ih hvalue]

@[simp] theorem usable_ofString (depth : Nat) (s : String) : (ofString s).usable depth := by
  simp [ofString, usable]

@[simp] theorem usable_ofNat (depth n : Nat) : (ofNat n).usable depth := by
  simp [ofNat, usable, Number.fits]

@[simp] theorem usable_ofFloat (depth : Nat) (x : Float) : (ofFloat x).usable depth := by
  rw [ofFloat]
  split <;> simp [usable, Number.fits]

theorem usable_ofMembers (depth : Nat) (members : List (String × Json)) :
    (ofMembers members).usable (depth + 1) = members.all fun m => m.2.usable depth := by
  simp [ofMembers, usable, usableMembers_eq, Function.comp_def]

theorem usable_array (depth : Nat) (items : List Json) :
    (array items).usable (depth + 1) = items.all (usable depth) := by
  simp [usable, usableItems_eq]

/-! ## Fields -/

inductive Field.Alike : Field → Field → Prop
  | present {j j' : Json} (h : j.Alike j') : Field.Alike (.present j) (.present j')
  | absent : Field.Alike .absent .absent

theorem Field.Alike.exists_present {f : Field} {j : Json} (h : f.Alike (.present j)) :
    ∃ j', f = .present j' ∧ j'.Alike j := by
  cases h with
  | present halike => exact ⟨_, rfl, halike⟩

def Field.ofOption : Option Json → Field
  | some value => .present value
  | none => .absent

def Field.ofMembers (members : List (String × Json)) (name : String) : Field :=
  .ofOption (members.lookup name)

def member (m : String × Json) : Literal × Json :=
  (.ofString m.1, m.2)

theorem valuesOf_cons (name key : String) (value : Json) (members : List (Literal × Json)) :
    valuesOf name ((.ofString key, value) :: members) =
      if key = name then value :: valuesOf name members else valuesOf name members := by
  rw [valuesOf, List.filter_cons]
  by_cases h : key = name <;> simp [h, valuesOf]

theorem forall₂_valuesOf_ordered {members : List (String × Json)}
    (hnodup : (members.map Prod.fst).Nodup) {ordered : List (Literal × Json)}
    (h : List.Forall₂ (AtKey Alike) ordered (members.map member)) (name : String) :
    List.Forall₂ Alike (valuesOf name ordered) (members.lookup name).toList := by
  induction members generalizing ordered with
  | nil =>
    obtain rfl := List.forall₂_nil_right_iff.mp h
    exact .nil
  | cons m members ih =>
    rw [List.map_cons, List.nodup_cons] at hnodup
    obtain ⟨m', rest, hm, hrest, rfl⟩ := List.forall₂_cons_right_iff.mp h
    obtain ⟨key, value⟩ := m
    cases hm with
    | mk _ hvalue =>
      have hvalues := ih hnodup.2 hrest
      rw [valuesOf_cons, List.lookup_cons]
      by_cases hkey : key = name
      · subst hkey
        have hnone : members.lookup key = none := by
          rw [List.lookup_eq_none_iff]
          intro m hm
          rw [bne_iff_ne]
          rintro rfl
          exact hnodup.1 (List.mem_map.mpr ⟨m, hm, rfl⟩)
        rw [hnone] at hvalues
        rw [if_pos rfl, beq_self_eq_true]
        exact .cons hvalue hvalues
      · rw [if_neg hkey, beq_eq_false_iff_ne.mpr (Ne.symm hkey)]
        exact hvalues

section Object

variable {members : List (String × Json)} (hnodup : (members.map Prod.fst).Nodup)
  {members' ordered : List (Literal × Json)} (hperm : members'.Perm ordered)
  (h : List.Forall₂ (AtKey Alike) ordered (members.map member))
include hnodup hperm h

theorem forall₂_valuesOf (name : String) :
    List.Forall₂ Alike (valuesOf name members') (members.lookup name).toList := by
  have hvalues := forall₂_valuesOf_ordered hnodup h name
  have hvaluesPerm : (valuesOf name members').Perm (valuesOf name ordered) :=
    (hperm.filter _).map _
  have hshort : (valuesOf name ordered).length ≤ 1 := by
    rw [hvalues.length_eq]
    cases members.lookup name <;> simp
  -- One value at most stands under a name, and one value has one order.
  match hfound : valuesOf name ordered with
  | [] =>
    rw [hfound, List.perm_nil] at hvaluesPerm
    rwa [hvaluesPerm, ← hfound]
  | [value] =>
    rw [hfound, List.perm_singleton] at hvaluesPerm
    rwa [hvaluesPerm, ← hfound]
  | _ :: _ :: _ => simp [hfound] at hshort

theorem exists_memberField? (name : String) :
    ∃ f, memberField? members' name = some f ∧ f.Alike (Field.ofMembers members name) := by
  have hvalues := forall₂_valuesOf hnodup hperm h name
  rw [Field.ofMembers]
  cases hlookup : members.lookup name with
  | none =>
    rw [hlookup] at hvalues
    exact ⟨.absent, by rw [memberField?, List.forall₂_nil_right_iff.mp hvalues], .absent⟩
  | some value =>
    rw [hlookup] at hvalues
    obtain ⟨value', rest, hvalue, hrest, heq⟩ := List.forall₂_cons_right_iff.mp hvalues
    obtain rfl := List.forall₂_nil_right_iff.mp hrest
    exact ⟨.present value', by rw [memberField?, heq], .present hvalue⟩

end Object

/-- An object in any order of its members has one field under each name. -/
theorem exists_fields {members : List (String × Json)} (hnodup : (members.map Prod.fst).Nodup)
    {j : Json} (h : j.Alike (.ofMembers members)) :
    ∃ field : String → Field, (∀ names, fields? names j = some (names.map field)) ∧
      ∀ name, (field name).Alike (Field.ofMembers members name) := by
  obtain ⟨members', ordered, rfl, hperm, hmembers⟩ := h.exists_members
  have hkeys : members'.all fun m => m.1.text?.isSome := by
    rw [hperm.all_eq, all_eq_of_forall₂ hmembers (q := fun m => m.1.text?.isSome)]
    · simp
    · rintro _ _ ⟨key, -⟩
      rfl
  choose field hfield halike using exists_memberField? hnodup hperm hmembers
  refine ⟨field, fun names => ?_, halike⟩
  rw [fields?, if_pos hkeys, funext hfield]
  exact List.mapM_pure

/-! ## Tags -/

theorem Alike.eq_string {j : Json} {l : Literal} (h : j.Alike (.string l)) : j = .string l := by
  cases h
  rfl

@[simp] theorem string?_ofString (s : String) : (ofString s).string? = some s :=
  Literal.text?_ofString s

theorem filter_eq_of_forall₂ {name : String} {members : List (String × Json)}
    (hname : name ∉ members.map Prod.fst) {ordered : List (Literal × Json)}
    (h : List.Forall₂ (AtKey Alike) ordered (members.map member)) :
    (ordered.filter fun m => m.1.text? != some name) = ordered := by
  induction members generalizing ordered with
  | nil =>
    obtain rfl := List.forall₂_nil_right_iff.mp h
    rfl
  | cons m members ih =>
    rw [List.map_cons, List.mem_cons, not_or] at hname
    obtain ⟨m', rest, hm, hrest, rfl⟩ := List.forall₂_cons_right_iff.mp h
    obtain ⟨key, value⟩ := m
    cases hm with
    | mk _ hvalue =>
      rw [List.filter_cons_of_pos (by simpa using Ne.symm hname.1), ih hname.2 hrest]

/-- An object in any order of its members has one tag, and the other members are what remains. -/
theorem exists_tagged {tag : String} {members : List (String × Json)}
    (hnodup : ((("type", ofString tag) :: members).map Prod.fst).Nodup)
    (husable : (ofMembers (("type", .ofString tag) :: members)).usable tagDepth) {j : Json}
    (h : j.Alike (.ofMembers (("type", .ofString tag) :: members))) :
    ∃ rest, tagged? j = some (tag, rest) ∧ rest.Alike (.ofMembers members) := by
  have hj := h.usable_eq.trans husable
  obtain ⟨members', ordered, rfl, hperm, hmembers⟩ := h.exists_members
  have htag : valuesOf "type" members' = [.ofString tag] := by
    have hvalues := forall₂_valuesOf hnodup hperm hmembers "type"
    obtain ⟨value, rest, hvalue, hrest, heq⟩ := List.forall₂_cons_right_iff.mp hvalues
    rw [heq, hvalue.eq_string, List.forall₂_nil_right_iff.mp hrest]
    rfl
  obtain ⟨m, rest, ⟨_, hvalue⟩, hrest, rfl⟩ := List.forall₂_cons_right_iff.mp hmembers
  refine ⟨.object (members'.filter fun m => m.1.text? != some "type"), ?_, ?_⟩
  · simp [tagged?, hj, htag]
  · refine .object (hperm.filter _) ?_
    rw [List.filter_cons_of_neg (by simp),
      filter_eq_of_forall₂ (List.nodup_cons.mp hnodup).1 hrest]
    exact hrest

end Dialogue.Json
