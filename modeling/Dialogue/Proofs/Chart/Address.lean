import Dialogue.Proofs.Chart.WellFormed
import Mathlib.Data.List.Basic
/-!
# Addresses in a definition

A declared state is found by its address: which child to take at each level, from the root on.  A
traversal comes to a state either before or after the states inside it, and to those child after
child; each order is a strict order of addresses.  A definition is laid out in the first order, and
the shape of its states is checked in the second.
-/

namespace Dialogue

abbrev Address := List Nat

/-- Whether a traversal comes to a state before or after the states inside it. -/
inductive Traversal where
  | preOrder
  | postOrder
  deriving DecidableEq, Repr

namespace Traversal

def arrange (r : Traversal) (inside : List Address) : List Address :=
  match r with
  | preOrder => [] :: inside
  | postOrder => inside ++ [[]]

theorem mem_arrange {r : Traversal} {inside : List Address} {a : Address} :
    a ∈ r.arrange inside ↔ a = [] ∨ a ∈ inside := by
  cases r <;> simp [arrange, or_comm]

end Traversal

namespace Address

/-- The traversal comes to the first address before the second. -/
def Before (r : Traversal) : Address → Address → Prop
  | [], [] => False
  | [], _ :: _ => r = .preOrder
  | _ :: _, [] => r = .postOrder
  | i :: a, j :: b => i < j ∨ i = j ∧ Before r a b

theorem before_irrefl (r : Traversal) (a : Address) : ¬ Before r a a := by
  induction a with
  | nil => simp [Before]
  | cons i a ih => simp [Before, ih]

theorem before_asymm {r : Traversal} {a b : Address} (h : Before r a b) : ¬ Before r b a := by
  induction a generalizing b with
  | nil => cases b <;> cases r <;> simp_all [Before]
  | cons i a ih =>
    cases b with
    | nil => cases r <;> simp_all [Before]
    | cons j b =>
      simp only [Before] at h ⊢
      rcases h with hlt | ⟨rfl, hab⟩
      · omega
      · have hba := ih hab
        simp [hba]

theorem before_or_eq_or_before (r : Traversal) (a b : Address) :
    Before r a b ∨ a = b ∨ Before r b a := by
  induction a generalizing b with
  | nil => cases b <;> cases r <;> simp [Before]
  | cons i a ih =>
    cases b with
    | nil => cases r <;> simp [Before]
    | cons j b =>
      simp only [Before, List.cons.injEq]
      rcases Nat.lt_trichotomy i j with hlt | rfl | hlt
      · exact Or.inl (Or.inl hlt)
      · rcases ih b with hab | rfl | hba
        · exact Or.inl (Or.inr ⟨rfl, hab⟩)
        · exact Or.inr (Or.inl ⟨rfl, rfl⟩)
        · exact Or.inr (Or.inr (Or.inr ⟨rfl, hba⟩))
      · exact Or.inr (Or.inr (Or.inl hlt))

end Address

namespace StateDef

mutual
def addresses (r : Traversal) : StateDef → List Address
  | ⟨_, _, _, _, children, _⟩ => r.arrange (addressesAll r 0 children)

def addressesAll (r : Traversal) (i : Nat) : List StateDef → List Address
  | [] => []
  | d :: ds => (addresses r d).map (i :: ·) ++ addressesAll r (i + 1) ds
end

theorem addresses_eq (r : Traversal) (d : StateDef) :
    d.addresses r = r.arrange (addressesAll r 0 d.children) := by
  cases d
  rfl

theorem mem_addressesAll {r : Traversal} {i : Nat} {ds : List StateDef} {a : Address} :
    a ∈ addressesAll r i ds ↔
      ∃ j b child, a = (i + j) :: b ∧ ds[j]? = some child ∧ b ∈ child.addresses r := by
  induction ds generalizing i with
  | nil => simp [addressesAll]
  | cons d ds ih =>
    rw [addressesAll, List.mem_append, ih, List.mem_map]
    constructor
    · rintro (⟨b, hb, rfl⟩ | ⟨j, b, child, rfl, hchild, hb⟩)
      · exact ⟨0, b, d, rfl, rfl, hb⟩
      · exact ⟨j + 1, b, child, by rw [Nat.add_right_comm, Nat.add_assoc], hchild, hb⟩
    · rintro ⟨j, b, child, rfl, hchild, hb⟩
      cases j with
      | zero =>
        obtain rfl := Option.some.inj hchild
        exact Or.inl ⟨b, hb, rfl⟩
      | succ j =>
        exact Or.inr ⟨j, b, child, by rw [Nat.add_right_comm, Nat.add_assoc], hchild, hb⟩

theorem nil_mem_addresses (r : Traversal) (d : StateDef) : [] ∈ d.addresses r := by
  rw [addresses_eq, Traversal.mem_arrange]
  exact Or.inl rfl

theorem cons_mem_addresses {r : Traversal} {d : StateDef} {i : Nat} {a : Address} :
    i :: a ∈ d.addresses r ↔ ∃ child, d.children[i]? = some child ∧ a ∈ child.addresses r := by
  rw [addresses_eq, Traversal.mem_arrange, mem_addressesAll]
  simp only [reduceCtorEq, List.cons.injEq, Nat.zero_add, false_or]
  constructor
  · rintro ⟨j, b, child, ⟨rfl, rfl⟩, hchild, hb⟩
    exact ⟨child, hchild, hb⟩
  · rintro ⟨child, hchild, ha⟩
    exact ⟨i, a, child, ⟨rfl, rfl⟩, hchild, ha⟩

mutual
theorem pairwise_addresses (r : Traversal) (d : StateDef) :
    (d.addresses r).Pairwise (Address.Before r) := by
  match d with
  | ⟨name, kind, entry, transitions, children, invoke⟩ =>
    have hinside := pairwise_addressesAll r 0 children
    have hne : ∀ a ∈ addressesAll r 0 children, ∃ j b, a = j :: b := by
      intro a ha
      obtain ⟨j, b, -, rfl, -⟩ := mem_addressesAll.mp ha
      exact ⟨_, _, rfl⟩
    rw [addresses_eq]
    cases r with
    | preOrder =>
      refine List.pairwise_cons.mpr ⟨fun a ha => ?_, hinside⟩
      obtain ⟨j, b, rfl⟩ := hne a ha
      rfl
    | postOrder =>
      refine List.pairwise_append.mpr ⟨hinside, List.pairwise_singleton _ _, fun a ha b hb => ?_⟩
      obtain ⟨j, b', rfl⟩ := hne a ha
      obtain rfl := List.mem_singleton.mp hb
      rfl

theorem pairwise_addressesAll (r : Traversal) (i : Nat) (ds : List StateDef) :
    (addressesAll r i ds).Pairwise (Address.Before r) := by
  match ds with
  | [] => exact List.Pairwise.nil
  | d :: ds =>
    rw [addressesAll, List.pairwise_append, List.pairwise_map]
    refine ⟨(pairwise_addresses r d).imp fun h => Or.inr ⟨rfl, h⟩,
      pairwise_addressesAll r (i + 1) ds, fun a ha b hb => ?_⟩
    obtain ⟨a, -, rfl⟩ := List.mem_map.mp ha
    obtain ⟨j, b, -, rfl, -⟩ := mem_addressesAll.mp hb
    exact Or.inl (by omega)
end

/-! ## The state at an address -/

namespace Placed

/-- A child of a declared state at its place, which is behind all of the children before it. -/
def inside (p : Placed) (before : List StateDef) (d : StateDef) : Placed where
  place := ⟨p.place.index + 1 + sizeAll before⟩
  path := Path.join p.path d.name
  parent := some (p.place, p.path)
  definition := d

def child? (p : Placed) (i : Nat) : Option Placed :=
  p.definition.children[i]?.map (p.inside (p.definition.children.take i))

def at? (p : Placed) : Address → Option Placed
  | [] => some p
  | i :: a => (p.child? i).bind fun child => child.at? a

theorem definition_of_child? {p q : Placed} {i : Nat} (h : p.child? i = some q) :
    p.definition.children[i]? = some q.definition := by
  obtain ⟨d, hd, rfl⟩ := Option.map_eq_some_iff.mp h
  exact hd

theorem parent_of_child? {p q : Placed} {i : Nat} (h : p.child? i = some q) :
    q.parent = some (p.place, p.path) ∧ q.path = Path.join p.path q.definition.name := by
  obtain ⟨d, -, rfl⟩ := Option.map_eq_some_iff.mp h
  exact ⟨rfl, rfl⟩

theorem at?_append (p : Placed) (a b : Address) :
    p.at? (a ++ b) = (p.at? a).bind fun q => q.at? b := by
  induction a generalizing p with
  | nil => rfl
  | cons i a ih =>
    rw [List.cons_append, at?, at?, Option.bind_assoc]
    exact Option.bind_congr fun child _ => ih child

theorem at?_singleton (p : Placed) (i : Nat) : p.at? [i] = p.child? i :=
  Option.bind_fun_some _

theorem mem_addresses_iff {r : Traversal} {p : Placed} {a : Address} :
    a ∈ p.definition.addresses r ↔ ∃ q, p.at? a = some q := by
  induction a generalizing p with
  | nil => exact iff_of_true (nil_mem_addresses r _) ⟨p, rfl⟩
  | cons i a ih =>
    rw [cons_mem_addresses, at?]
    constructor
    · rintro ⟨d, hd, ha⟩
      have hchild : p.child? i = some _ := Option.map_eq_some_iff.mpr ⟨d, hd, rfl⟩
      rw [hchild, Option.bind_some]
      exact ih.mp ha
    · rintro ⟨q, hq⟩
      obtain ⟨child, hchild, hq⟩ := Option.bind_eq_some_iff.mp hq
      exact ⟨child.definition, definition_of_child? hchild, ih.mpr ⟨q, hq⟩⟩

/-! ## Traversals -/

def gather {α : Type} (f : Placed → List α) (p : Placed) (as : List Address) : List α :=
  as.flatMap fun a => (p.at? a).elim [] f

/-- What a traversal finds at a declared state and inside it. -/
def traverse {α : Type} (r : Traversal) (f : Placed → List α) (p : Placed) : List α :=
  gather f p (p.definition.addresses r)

variable {α : Type} (r : Traversal) (f : Placed → List α) (p : Placed)

theorem gather_append (as bs : List Address) :
    gather f p (as ++ bs) = gather f p as ++ gather f p bs :=
  List.flatMap_append

theorem gather_singleton_nil : gather f p [[]] = f p :=
  List.append_nil _

theorem traverse_preOrder :
    traverse .preOrder f p =
      f p ++ gather f p (addressesAll .preOrder 0 p.definition.children) := by
  rw [traverse, addresses_eq]
  rfl

theorem traverse_postOrder :
    traverse .postOrder f p =
      gather f p (addressesAll .postOrder 0 p.definition.children) ++ f p := by
  rw [traverse, addresses_eq, Traversal.arrange, gather_append, gather_singleton_nil]

theorem gather_addressesAll_cons {before : List StateDef} {d : StateDef} {ds : List StateDef}
    (h : p.definition.children = before ++ d :: ds) :
    gather f p (addressesAll r before.length (d :: ds)) =
      traverse r f (p.inside before d) ++
        gather f p (addressesAll r (before ++ [d]).length ds) := by
  have hchild : p.child? before.length = some (p.inside before d) := by simp [child?, h]
  rw [addressesAll, gather_append, List.length_append, List.length_singleton]
  congr 1
  simp only [gather, traverse, List.flatMap_map, at?, hchild, Option.bind_some]
  rfl

end Placed

theorem sizeAll_concat (ds : List StateDef) (d : StateDef) :
    sizeAll (ds ++ [d]) = sizeAll ds + d.size := by
  induction ds with
  | nil => simp [sizeAll]
  | cons d' ds ih => rw [List.cons_append, sizeAll, sizeAll, ih, Nat.add_assoc]

mutual
/-- The layout of a definition lists its states in pre-order. -/
theorem layout_eq_traverse (parent : Option (StateId × String)) (path : String) (place : Nat)
    (d : StateDef) :
    d.layout parent path place =
      Placed.traverse .preOrder (fun q => [q]) ⟨⟨place⟩, path, parent, d⟩ := by
  match d with
  | ⟨name, kind, entry, transitions, children, invoke⟩ =>
    rw [layout_eq, Placed.traverse_preOrder]
    exact congrArg (List.cons _)
      (layoutAll_eq_gather ⟨⟨place⟩, path, parent, ⟨name, kind, entry, transitions, children,
        invoke⟩⟩ [] children rfl)

theorem layoutAll_eq_gather (p : Placed) (before ds : List StateDef)
    (h : p.definition.children = before ++ ds) :
    layoutAll p.place p.path (p.place.index + 1 + sizeAll before) ds =
      Placed.gather (fun q => [q]) p (addressesAll .preOrder before.length ds) := by
  match ds with
  | [] => rfl
  | d :: ds =>
    have hds := layoutAll_eq_gather p (before ++ [d]) ds (by rw [h, List.append_assoc]; rfl)
    rw [sizeAll_concat, ← Nat.add_assoc] at hds
    rw [layoutAll, Placed.gather_addressesAll_cons _ _ _ h, hds, layout_eq_traverse]
    rfl
end

theorem map_at?_addresses (p : Placed) :
    (p.definition.addresses .preOrder).map p.at? =
      (p.definition.layout p.parent p.path p.place.index).map some := by
  rw [layout_eq_traverse, Placed.traverse, Placed.gather, List.map_flatMap, List.map_eq_flatMap]
  refine List.flatMap_congr fun a ha => ?_
  obtain ⟨q, hq⟩ := Placed.mem_addresses_iff.mp ha
  rw [hq]
  rfl

theorem mem_layout_iff {p q : Placed} :
    q ∈ p.definition.layout p.parent p.path p.place.index ↔ ∃ a, p.at? a = some q := by
  have hmem : q ∈ p.definition.layout p.parent p.path p.place.index ↔
      some q ∈ (p.definition.layout p.parent p.path p.place.index).map some := by simp
  rw [hmem, ← map_at?_addresses, List.mem_map]
  constructor
  · rintro ⟨a, -, ha⟩
    exact ⟨a, ha⟩
  · rintro ⟨a, ha⟩
    exact ⟨a, Placed.mem_addresses_iff.mpr ⟨q, ha⟩, ha⟩

mutual
/-- The shape of states is checked in post-order. -/
theorem shapeProblems_eq_traverse (p : Placed) (d : StateDef) (h : p.definition = d) :
    d.shapeProblems p.path =
      p.traverse .postOrder fun q =>
        shapeProblem q.path q.definition.kind q.definition.children := by
  match d with
  | ⟨name, kind, entry, transitions, children, invoke⟩ =>
    rw [shapeProblems_eq, Placed.traverse_postOrder, h,
      shapeProblemsAll_eq_gather p [] children (congrArg StateDef.children h)]
    rfl

theorem shapeProblemsAll_eq_gather (p : Placed) (before ds : List StateDef)
    (h : p.definition.children = before ++ ds) :
    shapeProblemsAll p.path ds =
      Placed.gather (fun q => shapeProblem q.path q.definition.kind q.definition.children) p
        (addressesAll .postOrder before.length ds) := by
  match ds with
  | [] => rfl
  | d :: ds =>
    have hds := shapeProblemsAll_eq_gather p (before ++ [d]) ds
      (by rw [h, List.append_assoc]; rfl)
    rw [shapeProblemsAll, Placed.gather_addressesAll_cons _ _ _ h, hds,
      ← shapeProblems_eq_traverse (p.inside before d) d rfl]
    rfl
end

end StateDef

namespace ChartDef

open StateDef (Placed)

def top (d : ChartDef) : Placed :=
  ⟨Chart.root, "", none, d.root⟩

def at? (d : ChartDef) (a : Address) : Option Placed :=
  d.top.at? a

def addresses (r : Traversal) (d : ChartDef) : List Address :=
  d.root.addresses r

theorem mem_addresses_iff {r : Traversal} {d : ChartDef} {a : Address} :
    a ∈ d.addresses r ↔ ∃ p, d.at? a = some p :=
  Placed.mem_addresses_iff (p := d.top)

theorem pairwise_addresses (r : Traversal) (d : ChartDef) :
    (d.addresses r).Pairwise (Address.Before r) :=
  StateDef.pairwise_addresses r d.root

theorem map_at?_addresses (d : ChartDef) :
    (d.addresses .preOrder).map d.at? = d.layout.map some :=
  StateDef.map_at?_addresses d.top

theorem mem_layout_iff {d : ChartDef} {p : Placed} : p ∈ d.layout ↔ ∃ a, d.at? a = some p :=
  StateDef.mem_layout_iff (p := d.top)

theorem at?_append {d : ChartDef} {a : Address} {p : Placed} (h : d.at? a = some p)
    (b : Address) : d.at? (a ++ b) = p.at? b := by
  rw [at?, Placed.at?_append, ← at?, h, Option.bind_some]

theorem at?_concat_eq_some_iff {d : ChartDef} {a : Address} {i : Nat} {q : Placed} :
    d.at? (a ++ [i]) = some q ↔ ∃ p, d.at? a = some p ∧ p.child? i = some q := by
  rw [at?, Placed.at?_append, Option.bind_eq_some_iff]
  simp only [Placed.at?_singleton, at?]

/-- A declared state is the root or a child of a declared state. -/
theorem top_or_child?_of_at? {d : ChartDef} {a : Address} {q : Placed} (h : d.at? a = some q) :
    (a = [] ∧ q = d.top) ∨ ∃ b i p, a = b ++ [i] ∧ d.at? b = some p ∧ p.child? i = some q := by
  rcases List.eq_nil_or_concat' a with rfl | ⟨b, i, rfl⟩
  · exact Or.inl ⟨rfl, (Option.some.inj h).symm⟩
  · obtain ⟨p, hp, hq⟩ := at?_concat_eq_some_iff.mp h
    exact Or.inr ⟨b, i, p, rfl, hp, hq⟩

theorem flatMap_layout {α : Type} (d : ChartDef) (f : Placed → List α) :
    d.layout.flatMap f = d.top.traverse .preOrder f := by
  have hlayout : d.layout = d.top.traverse .preOrder fun p => [p] :=
    StateDef.layout_eq_traverse none "" 0 d.root
  rw [hlayout, Placed.traverse, Placed.traverse, Placed.gather, Placed.gather, List.flatMap_assoc]
  refine List.flatMap_congr fun a _ => ?_
  cases d.top.at? a with
  | none => rfl
  | some p => exact List.append_nil _

end ChartDef

end Dialogue
