import Dialogue.Chart.Build
/-!
# The layout of a definition

A definition is laid out in pre-order: the state at the front takes the first place and the states
inside it take the places that follow, child after child.  Each state but the first is laid out as a
child of another one, which stands before it.
-/

namespace Dialogue.StateDef

theorem size_eq (d : StateDef) : d.size = sizeAll d.children + 1 := by
  cases d
  exact Nat.add_comm _ _

theorem layout_eq (parent : Option (StateId × String)) (path : String) (place : Nat)
    (d : StateDef) :
    d.layout parent path place =
      ⟨⟨place⟩, path, parent, d⟩ :: layoutAll ⟨place⟩ path (place + 1) d.children := by
  cases d
  rfl

theorem shapeProblems_eq (path : String) (d : StateDef) :
    d.shapeProblems path =
      shapeProblemsAll path d.children ++ shapeProblem path d.kind d.children := by
  cases d
  rfl

theorem childPlaces_eq_nil_iff {place : Nat} {ds : List StateDef} :
    childPlaces place ds = [] ↔ ds = [] := by
  cases ds <;> simp [childPlaces]

/-! ## Places -/

mutual
theorem map_place_layout (parent : Option (StateId × String)) (path : String) (place : Nat)
    (d : StateDef) :
    (d.layout parent path place).map Placed.place =
      (List.range' place d.size).map StateId.mk := by
  match d with
  | ⟨name, kind, entry, transitions, children, invoke⟩ =>
    rw [size_eq, layout_eq, List.range'_succ, List.map_cons, List.map_cons,
      map_place_layoutAll ⟨place⟩ path (place + 1) children]

theorem map_place_layoutAll (parent : StateId) (path : String) (place : Nat)
    (ds : List StateDef) :
    (layoutAll parent path place ds).map Placed.place =
      (List.range' place (sizeAll ds)).map StateId.mk := by
  match ds with
  | [] => rfl
  | d :: ds =>
    rw [layoutAll, sizeAll, List.map_append,
      map_place_layout (some (parent, path)) (Path.join path d.name) place d,
      map_place_layoutAll parent path (place + d.size) ds, ← List.map_append,
      List.range'_append_1]
end

theorem le_place_of_mem_layoutAll {parent : StateId} {path : String} {place : Nat}
    {ds : List StateDef} {p : Placed} (hp : p ∈ layoutAll parent path place ds) :
    place ≤ p.place.index := by
  have hmem := List.mem_map_of_mem (f := Placed.place) hp
  rw [map_place_layoutAll, List.mem_map] at hmem
  obtain ⟨i, hi, hplace⟩ := hmem
  rw [← hplace]
  exact (List.mem_range'_1.mp hi).1

/-! ## Parents and children -/

structure Placed.ChildOf (q p : Placed) : Prop where
  parent_eq : q.parent = some (p.place, p.path)
  listed : (q.definition.name, q.place) ∈ childPlaces (p.place.index + 1) p.definition.children
  lt : p.place.index < q.place.index

mutual
theorem eq_or_childOf_of_mem_layout {parent : Option (StateId × String)} {path : String}
    {place : Nat} {d : StateDef} {q : Placed} (hq : q ∈ d.layout parent path place) :
    q = ⟨⟨place⟩, path, parent, d⟩ ∨ ∃ p ∈ d.layout parent path place, q.ChildOf p := by
  match d with
  | ⟨name, kind, entry, transitions, children, invoke⟩ =>
    rw [layout_eq, List.mem_cons] at hq
    rcases hq with rfl | hq
    · exact Or.inl rfl
    · right
      rw [layout_eq]
      rcases listed_or_childOf_of_mem_layoutAll hq with ⟨hparent, hlisted⟩ | ⟨p, hp, hchild⟩
      · exact ⟨_, List.mem_cons_self, hparent, hlisted, le_place_of_mem_layoutAll hq⟩
      · exact ⟨p, List.mem_cons_of_mem _ hp, hchild⟩

theorem listed_or_childOf_of_mem_layoutAll {parent : StateId} {path : String} {place : Nat}
    {ds : List StateDef} {q : Placed} (hq : q ∈ layoutAll parent path place ds) :
    (q.parent = some (parent, path) ∧ (q.definition.name, q.place) ∈ childPlaces place ds) ∨
      ∃ p ∈ layoutAll parent path place ds, q.ChildOf p := by
  match ds with
  | [] => simp [layoutAll] at hq
  | d :: ds =>
    rw [layoutAll, List.mem_append] at hq
    rw [layoutAll]
    rcases hq with hq | hq
    · rcases eq_or_childOf_of_mem_layout hq with rfl | ⟨p, hp, hchild⟩
      · exact Or.inl ⟨rfl, List.mem_cons_self⟩
      · exact Or.inr ⟨p, List.mem_append_left _ hp, hchild⟩
    · rcases listed_or_childOf_of_mem_layoutAll hq with ⟨hparent, hlisted⟩ | ⟨p, hp, hchild⟩
      · exact Or.inl ⟨hparent, List.mem_cons_of_mem _ hlisted⟩
      · exact Or.inr ⟨p, List.mem_append_right _ hp, hchild⟩
end

/-- Every place that is given to a child is taken. -/
theorem exists_mem_layoutAll_of_listed {parent : StateId} {path : String} {place : Nat}
    {ds : List StateDef} {name : String} {id : StateId} (h : (name, id) ∈ childPlaces place ds) :
    ∃ q ∈ layoutAll parent path place ds, q.place = id ∧ q.parent = some (parent, path) := by
  induction ds generalizing place with
  | nil => simp [childPlaces] at h
  | cons d ds ih =>
    rw [childPlaces, List.mem_cons] at h
    rw [layoutAll]
    rcases h with h | h
    · obtain ⟨-, rfl⟩ := Prod.mk.inj h
      rw [layout_eq]
      exact ⟨_, List.mem_append_left _ List.mem_cons_self, rfl, rfl⟩
    · obtain ⟨q, hq, hplace, hparent⟩ := ih h
      exact ⟨q, List.mem_append_right _ hq, hplace, hparent⟩

mutual
theorem exists_child_of_mem_layout {parent : Option (StateId × String)} {path : String}
    {place : Nat} {d : StateDef} {p : Placed} (hp : p ∈ d.layout parent path place)
    {name : String} {id : StateId}
    (h : (name, id) ∈ childPlaces (p.place.index + 1) p.definition.children) :
    ∃ q ∈ d.layout parent path place, q.place = id ∧ q.parent = some (p.place, p.path) := by
  match d with
  | ⟨dname, kind, entry, transitions, children, invoke⟩ =>
    rw [layout_eq, List.mem_cons] at hp
    rw [layout_eq]
    rcases hp with rfl | hp
    · obtain ⟨q, hq, hplace, hparent⟩ := exists_mem_layoutAll_of_listed h
      exact ⟨q, List.mem_cons_of_mem _ hq, hplace, hparent⟩
    · obtain ⟨q, hq, hplace, hparent⟩ := exists_child_of_mem_layoutAll hp h
      exact ⟨q, List.mem_cons_of_mem _ hq, hplace, hparent⟩

theorem exists_child_of_mem_layoutAll {parent : StateId} {path : String} {place : Nat}
    {ds : List StateDef} {p : Placed} (hp : p ∈ layoutAll parent path place ds)
    {name : String} {id : StateId}
    (h : (name, id) ∈ childPlaces (p.place.index + 1) p.definition.children) :
    ∃ q ∈ layoutAll parent path place ds, q.place = id ∧ q.parent = some (p.place, p.path) := by
  match ds with
  | [] => simp [layoutAll] at hp
  | d :: ds =>
    rw [layoutAll, List.mem_append] at hp
    rw [layoutAll]
    rcases hp with hp | hp
    · obtain ⟨q, hq, hplace, hparent⟩ := exists_child_of_mem_layout hp h
      exact ⟨q, List.mem_append_left _ hq, hplace, hparent⟩
    · obtain ⟨q, hq, hplace, hparent⟩ := exists_child_of_mem_layoutAll hp h
      exact ⟨q, List.mem_append_right _ hq, hplace, hparent⟩
end

/-! ## Shape -/

mutual
theorem shapeProblem_of_mem_layout {parent : Option (StateId × String)} {path : String}
    {place : Nat} {d : StateDef} (hd : d.shapeProblems path = []) {p : Placed}
    (hp : p ∈ d.layout parent path place) :
    shapeProblem p.path p.definition.kind p.definition.children = [] := by
  match d with
  | ⟨name, kind, entry, transitions, children, invoke⟩ =>
    rw [shapeProblems_eq, List.append_eq_nil_iff] at hd
    rw [layout_eq, List.mem_cons] at hp
    rcases hp with rfl | hp
    · exact hd.2
    · exact shapeProblem_of_mem_layoutAll hd.1 hp

theorem shapeProblem_of_mem_layoutAll {parent : StateId} {path : String} {place : Nat}
    {ds : List StateDef} (hds : shapeProblemsAll path ds = []) {p : Placed}
    (hp : p ∈ layoutAll parent path place ds) :
    shapeProblem p.path p.definition.kind p.definition.children = [] := by
  match ds with
  | [] => simp [layoutAll] at hp
  | d :: ds =>
    rw [shapeProblemsAll, List.append_eq_nil_iff] at hds
    rw [layoutAll, List.mem_append] at hp
    rcases hp with hp | hp
    · exact shapeProblem_of_mem_layout hds.1 hp
    · exact shapeProblem_of_mem_layoutAll hds.2 hp
end

theorem mem_of_initialPlace? {children : List (String × StateId)} {initial : String}
    {child : StateId} (h : initialPlace? children initial = some child) :
    child ∈ children.map Prod.snd := by
  obtain ⟨entry, hfind, rfl⟩ := Option.map_eq_some_iff.mp h
  exact List.mem_map_of_mem (List.mem_of_find?_eq_some hfind)

theorem isSome_initialPlace? (place : Nat) {ds : List StateDef} {initial : String}
    (h : ds.any fun d => d.name = initial) :
    (initialPlace? (childPlaces place ds) initial).isSome := by
  induction ds generalizing place with
  | nil => simp at h
  | cons d ds ih =>
    rw [List.any_cons, Bool.or_eq_true] at h
    by_cases hd : d.name = initial
    · simp [initialPlace?, childPlaces, hd]
    · have hrest := ih (place + d.size) (h.resolve_left (by simpa using hd))
      simpa [initialPlace?, childPlaces, hd] using hrest

theorem mem_of_nodeKind_eq_compound {kind : StateKind} {children : List (String × StateId)}
    {child : StateId} (h : nodeKind kind children = .compound child) :
    child ∈ children.map Prod.snd := by
  cases kind with
  | atomic => simp [nodeKind] at h
  | history => simp only [nodeKind] at h; split at h <;> cases h
  | compound initial =>
    simp only [nodeKind] at h
    split at h
    · next hinitial =>
      cases h
      exact mem_of_initialPlace? hinitial
    · cases h

/-- In a state of sound shape, being compound and having children is the same. -/
theorem exists_nodeKind_eq_compound_iff {path : String} {kind : StateKind}
    {children : List StateDef} (h : shapeProblem path kind children = []) (place : Nat) :
    (∃ child, nodeKind kind (childPlaces place children) = .compound child) ↔ children ≠ [] := by
  cases kind with
  | atomic =>
    have hnil : children = [] := by simpa [shapeProblem] using h
    simp [nodeKind, hnil]
  | history =>
    have hnil : children = [] := by simpa [shapeProblem] using h
    simp [nodeKind, hnil, childPlaces]
  | compound initial =>
    simp only [shapeProblem] at h
    split at h
    · next hany =>
      obtain ⟨child, hchild⟩ := Option.isSome_iff_exists.mp (isSome_initialPlace? place hany)
      have hne : children ≠ [] := by
        rintro rfl
        simp at hany
      exact ⟨fun _ => hne, fun _ => ⟨child, by simp [nodeKind, hchild]⟩⟩
    · split at h <;> cases h

end Dialogue.StateDef
