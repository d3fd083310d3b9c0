import Dialogue.Proofs.Chart.Address
import Mathlib.Data.List.Pairwise
/-!
# What is reported of a definition

A definition is at fault where the shape of a state is wrong, where a path comes again, where a list
of transitions has a catch-all before its end, and where a target names no state.  Building a chart
reports each fault once and nothing else, in one order, and gives a chart if there is none.
-/

namespace Dialogue

/-- Something that can be wrong: the shape of a state, its path, one of its lists of transitions, or
a transition in such a list.  The lists of a state are numbered by the kinds of events for which it
declares transitions. -/
inductive Fault where
  | shape (address : Address)
  | path (address : Address)
  | list (address : Address) (list : Nat)
  | target (address : Address) (list transition : Nat)

/-- The order of reports: shapes first, states after those inside them; then paths; then the lists
of one state after another, each before the transitions in it. -/
def Fault.Before : Fault → Fault → Prop
  | shape a, shape b => Address.Before .postOrder a b
  | shape _, _ => True
  | path a, path b => Address.Before .preOrder a b
  | path _, list _ _ => True
  | path _, target _ _ _ => True
  | list a l, list b m => Address.Before .preOrder a b ∨ a = b ∧ l < m
  | list a l, target b m _ => Address.Before .preOrder a b ∨ a = b ∧ l ≤ m
  | target a l _, list b m => Address.Before .preOrder a b ∨ a = b ∧ l < m
  | target a l i, target b m j =>
    Address.Before .preOrder a b ∨ a = b ∧ (l < m ∨ l = m ∧ i < j)
  | _, _ => False

theorem Fault.before_irrefl (fault : Fault) : ¬ fault.Before fault := by
  cases fault <;> simp [Before, Address.before_irrefl]

namespace ChartDef

open StateDef (Placed)

/-- A fault of a definition, with the problem by which it is reported. -/
inductive Reports (d : ChartDef) : Fault → ChartProblem → Prop
  | missingInitial {a p} (hp : d.at? a = some p) (hkind : p.definition.kind = .compound "")
      (hnone : ∀ child ∈ p.definition.children, child.name ≠ "") :
      Reports d (.shape a) (.missingInitial (Path.shown p.path))
  | unknownInitial {a p initial} (hp : d.at? a = some p)
      (hkind : p.definition.kind = .compound initial) (hne : initial ≠ "")
      (hnone : ∀ child ∈ p.definition.children, child.name ≠ initial) :
      Reports d (.shape a) (.unknownInitial (Path.shown p.path) initial)
  | childrenOnLeaf {a p} (hp : d.at? a = some p)
      (hkind : ∀ initial, p.definition.kind ≠ .compound initial)
      (hne : p.definition.children ≠ []) :
      Reports d (.shape a) (.childrenOnLeaf (Path.shown p.path))
  | duplicateState {a b p q} (hp : d.at? a = some p) (hq : d.at? b = some q)
      (hbefore : Address.Before .preOrder b a) (hpath : q.path = p.path) :
      Reports d (.path a) (.duplicateState (Path.shown p.path))
  | catchAllNotLast {a p l kind i t} (hp : d.at? a = some p)
      (hkind : p.definition.kinds[l]? = some kind)
      (ht : (p.definition.transitionsOn kind)[i]? = some t) (hguard : t.guard = none)
      (hlast : i + 1 < (p.definition.transitionsOn kind).length) :
      Reports d (.list a l) (.catchAllNotLast (Path.shown p.path) kind)
  | malformedTarget {a p l kind i t} (hp : d.at? a = some p)
      (hkind : p.definition.kinds[l]? = some kind)
      (ht : (p.definition.transitionsOn kind)[i]? = some t)
      (hparse : Path.Target.parse? t.target = none) :
      Reports d (.target a l i) (.malformedTarget (Path.shown p.path) kind t.target)
  | unknownTarget {a p l kind i t target} (hp : d.at? a = some p)
      (hkind : p.definition.kinds[l]? = some kind)
      (ht : (p.definition.transitionsOn kind)[i]? = some t)
      (hparse : Path.Target.parse? t.target = some target)
      (hnone : ∀ b q, d.at? b = some q →
        q.path ≠ target.resolve p.path (p.parent.map Prod.snd)) :
      Reports d (.target a l i) (.unknownTarget (Path.shown p.path) kind t.target)

structure Valid (d : ChartDef) : Prop where
  initial : ∀ {a p initial}, d.at? a = some p → p.definition.kind = .compound initial →
    ∃ child ∈ p.definition.children, child.name = initial
  leaf : ∀ {a p}, d.at? a = some p → (∀ initial, p.definition.kind ≠ .compound initial) →
    p.definition.children = []
  distinct : ∀ {a b p q}, d.at? a = some p → d.at? b = some q → p.path = q.path → a = b
  target : ∀ {a p kind t}, d.at? a = some p → (kind, t) ∈ p.definition.transitions →
    ∃ target, Path.Target.parse? t.target = some target ∧
      ∃ b q, d.at? b = some q ∧ q.path = target.resolve p.path (p.parent.map Prod.snd)
  catchAll : ∀ {a p kind i t}, d.at? a = some p →
    (p.definition.transitionsOn kind)[i]? = some t → t.guard = none →
      i + 1 = (p.definition.transitionsOn kind).length

end ChartDef

namespace StateDef

theorem mem_transitionsOn {d : StateDef} {kind : EventKind} {t : TransitionDef} :
    t ∈ d.transitionsOn kind ↔ (kind, t) ∈ d.transitions :=
  EventKind.mem_filterMap_iff

theorem mem_kinds {d : StateDef} {kind : EventKind} :
    kind ∈ d.kinds ↔ ∃ t, t ∈ d.transitionsOn kind := by
  rw [kinds, List.mem_eraseDups, List.mem_map]
  constructor
  · rintro ⟨⟨kind, t⟩, hmem, rfl⟩
    exact ⟨t, mem_transitionsOn.mpr hmem⟩
  · rintro ⟨t, ht⟩
    exact ⟨(kind, t), mem_transitionsOn.mp ht, rfl⟩

theorem catchAllMisplaced_iff {ts : List TransitionDef} :
    catchAllMisplaced ts ↔ ∃ i t, ts[i]? = some t ∧ t.guard = none ∧ i + 1 < ts.length := by
  rw [catchAllMisplaced, List.any_eq_true]
  constructor
  · rintro ⟨t, ht, hguard⟩
    obtain ⟨i, hi⟩ := List.mem_iff_getElem?.mp ht
    rw [List.getElem?_dropLast] at hi
    split at hi
    · next hlt => exact ⟨i, t, hi, by simpa [TransitionDef.isCatchAll] using hguard, by omega⟩
    · cases hi
  · rintro ⟨i, t, ht, hguard, hlt⟩
    refine ⟨t, List.mem_iff_getElem?.mpr ⟨i, ?_⟩, by simp [TransitionDef.isCatchAll, hguard]⟩
    rw [List.getElem?_dropLast, if_pos (by omega), ht]

end StateDef

namespace ChartDef

open StateDef (Placed)

/-- Entries that report all faults of one sort: each of them once, in order, and nothing else. -/
structure Accounts (d : ChartDef) (sort : Fault → Prop)
    (entries : List (Fault × ChartProblem)) : Prop where
  pairwise : entries.Pairwise fun entry later => entry.1.Before later.1
  mem_iff : ∀ fault problem, (fault, problem) ∈ entries ↔ sort fault ∧ d.Reports fault problem

namespace Accounts

variable {d : ChartDef}

theorem append {sort sort' : Fault → Prop} {entries entries' : List (Fault × ChartProblem)}
    (h : d.Accounts sort entries) (h' : d.Accounts sort' entries')
    (hbefore : ∀ fault later, sort fault → sort' later → fault.Before later) :
    d.Accounts (fun fault => sort fault ∨ sort' fault) (entries ++ entries') where
  pairwise := by
    refine List.pairwise_append.mpr ⟨h.pairwise, h'.pairwise, fun entry hentry later hlater => ?_⟩
    exact hbefore _ _ ((h.mem_iff _ _).mp hentry).1 ((h'.mem_iff _ _).mp hlater).1
  mem_iff fault problem := by
    rw [List.mem_append, h.mem_iff, h'.mem_iff, ← or_and_right]

theorem flatMap {α : Type} {sort : α → Fault → Prop} {entries : α → List (Fault × ChartProblem)}
    {xs : List α} {R : α → α → Prop} (hxs : xs.Pairwise R)
    (h : ∀ x ∈ xs, d.Accounts (sort x) (entries x))
    (hbefore : ∀ x y fault later, R x y → sort x fault → sort y later → fault.Before later) :
    d.Accounts (fun fault => ∃ x ∈ xs, sort x fault) (xs.flatMap entries) where
  pairwise := by
    refine List.pairwise_flatMap.mpr ⟨fun x hx => (h x hx).pairwise, ?_⟩
    refine hxs.imp_of_mem fun {x y} hx hy hxy entry hentry later hlater => ?_
    exact hbefore x y _ _ hxy (((h x hx).mem_iff _ _).mp hentry).1
      (((h y hy).mem_iff _ _).mp hlater).1
  mem_iff fault problem := by
    rw [List.mem_flatMap]
    constructor
    · rintro ⟨x, hx, hentry⟩
      obtain ⟨hsort, hreports⟩ := ((h x hx).mem_iff _ _).mp hentry
      exact ⟨⟨x, hx, hsort⟩, hreports⟩
    · rintro ⟨⟨x, hx, hsort⟩, hreports⟩
      exact ⟨x, hx, ((h x hx).mem_iff _ _).mpr ⟨hsort, hreports⟩⟩

theorem congr {sort sort' : Fault → Prop} {entries : List (Fault × ChartProblem)}
    (h : d.Accounts sort entries)
    (hsort : ∀ fault problem, d.Reports fault problem → (sort fault ↔ sort' fault)) :
    d.Accounts sort' entries where
  pairwise := h.pairwise
  mem_iff fault problem :=
    (h.mem_iff fault problem).trans (and_congr_left (hsort fault problem))

theorem of_option {fault : Fault} {problem? : Option ChartProblem}
    (h : ∀ problem, problem? = some problem ↔ d.Reports fault problem) :
    d.Accounts (· = fault) (problem?.toList.map (Prod.mk fault)) where
  pairwise := by cases problem? <;> simp
  mem_iff fault' problem := by
    rw [List.mem_map]
    constructor
    · rintro ⟨problem', hmem, heq⟩
      obtain ⟨rfl, rfl⟩ := Prod.mk.inj heq
      exact ⟨rfl, (h _).mp (Option.mem_toList.mp hmem)⟩
    · rintro ⟨rfl, hreports⟩
      exact ⟨problem, Option.mem_toList.mpr ((h _).mpr hreports), rfl⟩

end Accounts

/-! ## Shapes -/

def shapeEntries (d : ChartDef) (a : Address) : List (Fault × ChartProblem) :=
  ((d.at? a).elim [] fun p =>
    StateDef.shapeProblem p.path p.definition.kind p.definition.children).map (Prod.mk (.shape a))

theorem mem_shapeProblem {d : ChartDef} {a : Address} {p : Placed} (hp : d.at? a = some p)
    {problem : ChartProblem} :
    problem ∈ StateDef.shapeProblem p.path p.definition.kind p.definition.children ↔
      d.Reports (.shape a) problem := by
  constructor
  · intro h
    cases hkind : p.definition.kind with
    | compound initial =>
      simp only [hkind, StateDef.shapeProblem] at h
      split at h
      · simp at h
      · next hnone =>
        have hne : ∀ child ∈ p.definition.children, child.name ≠ initial := by simpa using hnone
        split at h
        · next hempty =>
          subst hempty
          obtain rfl := List.mem_singleton.mp h
          exact .missingInitial hp hkind hne
        · next hempty =>
          obtain rfl := List.mem_singleton.mp h
          exact .unknownInitial hp hkind hempty hne
    | atomic | history =>
      simp only [hkind, StateDef.shapeProblem] at h
      split at h
      · simp at h
      · next hne =>
        obtain rfl := List.mem_singleton.mp h
        exact .childrenOnLeaf hp (by simp [hkind]) (by simpa using hne)
  · intro h
    cases h with
    | missingInitial hp' hkind hnone =>
      obtain rfl := Option.some.inj (hp.symm.trans hp')
      simpa [StateDef.shapeProblem, hkind] using hnone
    | unknownInitial hp' hkind hne hnone =>
      obtain rfl := Option.some.inj (hp.symm.trans hp')
      simpa [StateDef.shapeProblem, hkind, hne] using hnone
    | childrenOnLeaf hp' hkind hne =>
      obtain rfl := Option.some.inj (hp.symm.trans hp')
      cases hk : p.definition.kind with
      | compound initial => exact absurd hk (hkind initial)
      | atomic | history => simp [StateDef.shapeProblem, hne]

theorem accounts_shapeEntries {d : ChartDef} {a : Address} {p : Placed} (hp : d.at? a = some p) :
    d.Accounts (· = .shape a) (d.shapeEntries a) := by
  obtain ⟨problem?, hproblem⟩ : ∃ problem? : Option ChartProblem,
      StateDef.shapeProblem p.path p.definition.kind p.definition.children =
        problem?.toList := by
    unfold StateDef.shapeProblem
    repeat' split
    all_goals first | exact ⟨none, rfl⟩ | exact ⟨some _, rfl⟩
  rw [shapeEntries, hp, Option.elim_some, hproblem]
  refine .of_option fun problem => ?_
  rw [← mem_shapeProblem hp, hproblem, Option.mem_toList]

theorem map_shapeEntries (d : ChartDef) :
    ((d.addresses .postOrder).flatMap d.shapeEntries).map Prod.snd = d.root.shapeProblems "" := by
  have htraverse := StateDef.shapeProblems_eq_traverse d.top d.root rfl
  refine Eq.trans ?_ htraverse.symm
  rw [Placed.traverse, Placed.gather, List.map_flatMap]
  refine List.flatMap_congr fun a _ => ?_
  rw [shapeEntries, List.map_map]
  exact List.map_id _

/-! ## Paths -/

def pathProblem? (seen : List String) (path : String) : Option ChartProblem :=
  if path ∈ seen then some (.duplicateState (Path.shown path)) else none

def pathEntries (d : ChartDef) (seen : List String) : List Address → List (Fault × ChartProblem)
  | [] => []
  | a :: as =>
    match d.at? a with
    | none => d.pathEntries seen as
    | some p =>
      (pathProblem? seen p.path).toList.map (Prod.mk (.path a))
        ++ d.pathEntries (p.path :: seen) as

theorem map_pathEntries {d : ChartDef} {seen : List String} {as : List Address}
    {ps : List Placed} (h : as.map d.at? = ps.map some) :
    (d.pathEntries seen as).map Prod.snd =
      StateDef.duplicateProblems seen (ps.map Placed.path) := by
  induction as generalizing seen ps with
  | nil =>
    obtain rfl : ps = [] := by simpa using h.symm
    rfl
  | cons a as ih =>
    cases ps with
    | nil => simp at h
    | cons p ps =>
      obtain ⟨hp, hps⟩ := List.cons.inj h
      rw [pathEntries, hp, List.map_cons, StateDef.duplicateProblems, ← ih hps, List.map_append]
      congr 1
      unfold pathProblem?
      split <;> rfl

theorem mem_before_iff {d : ChartDef} {before after : List Address} {a b : Address}
    (h : d.addresses .preOrder = before ++ a :: after) :
    b ∈ before ↔ (∃ q, d.at? b = some q) ∧ Address.Before .preOrder b a := by
  have hpairwise : (before ++ a :: after).Pairwise (Address.Before .preOrder) :=
    h ▸ d.pairwise_addresses .preOrder
  obtain ⟨-, hafter, hbefore⟩ := List.pairwise_append.mp hpairwise
  rw [← mem_addresses_iff, h]
  constructor
  · intro hb
    exact ⟨List.mem_append_left _ hb, hbefore b hb a List.mem_cons_self⟩
  · rintro ⟨hb, hlt⟩
    rcases List.mem_append.mp hb with hb | hb
    · exact hb
    · rcases List.mem_cons.mp hb with rfl | hb
      · exact absurd hlt (Address.before_irrefl _ _)
      · exact absurd hlt (Address.before_asymm ((List.pairwise_cons.mp hafter).1 b hb))

theorem pathProblem?_eq_some_iff {d : ChartDef} {seen : List String} {before as : List Address}
    {a : Address} {p : Placed} (h : d.addresses .preOrder = before ++ a :: as)
    (hseen : ∀ path, path ∈ seen ↔ ∃ b ∈ before, ∃ q, d.at? b = some q ∧ q.path = path)
    (hp : d.at? a = some p) (problem : ChartProblem) :
    pathProblem? seen p.path = some problem ↔ d.Reports (.path a) problem := by
  rw [pathProblem?, Option.ite_none_right_eq_some, hseen]
  constructor
  · rintro ⟨⟨b, hb, q, hq, hpath⟩, heq⟩
    obtain rfl := Option.some.inj heq
    exact .duplicateState hp hq ((mem_before_iff h).mp hb).2 hpath
  · intro hreports
    cases hreports with
    | duplicateState hp' hq hlt hpath =>
      obtain rfl := Option.some.inj (hp.symm.trans hp')
      exact ⟨⟨_, (mem_before_iff h).mpr ⟨⟨_, hq⟩, hlt⟩, _, hq, hpath⟩, rfl⟩

theorem accounts_pathEntries {d : ChartDef} {seen : List String} {before as : List Address}
    (h : d.addresses .preOrder = before ++ as)
    (hseen : ∀ path, path ∈ seen ↔ ∃ b ∈ before, ∃ q, d.at? b = some q ∧ q.path = path) :
    d.Accounts (fun fault => ∃ a ∈ as, fault = .path a) (d.pathEntries seen as) := by
  induction as generalizing seen before with
  | nil => exact ⟨List.Pairwise.nil, by simp [pathEntries]⟩
  | cons a as ih =>
    obtain ⟨p, hp⟩ : ∃ p, d.at? a = some p := by
      rw [← mem_addresses_iff (r := .preOrder), h]
      simp
    have hfirst := Accounts.of_option (pathProblem?_eq_some_iff h hseen hp)
    have hrest : d.Accounts (fun fault => ∃ a ∈ as, fault = .path a)
        (d.pathEntries (p.path :: seen) as) := by
      have hsplit : d.addresses .preOrder = (before ++ [a]) ++ as := by
        rw [h, List.append_assoc]
        rfl
      refine ih hsplit fun path => ?_
      simp only [List.mem_cons, hseen, List.mem_append, List.not_mem_nil, or_false, or_and_right,
        exists_or, exists_eq_left, hp, Option.some.injEq, exists_eq_left', eq_comm (a := p.path)]
      exact or_comm
    have hlt : ∀ b ∈ as, Address.Before .preOrder a b := by
      intro b hb
      have hpairwise : (before ++ a :: as).Pairwise (Address.Before .preOrder) :=
        h ▸ d.pairwise_addresses .preOrder
      exact (List.pairwise_cons.mp (List.pairwise_append.mp hpairwise).2.1).1 b hb
    rw [pathEntries, hp]
    refine (hfirst.append hrest ?_).congr fun fault _ _ => ?_
    · rintro _ _ rfl ⟨b, hb, rfl⟩
      exact hlt b hb
    · simp

/-! ## Transitions -/

theorem place?_eq_none_iff {d : ChartDef} {path : String} :
    place? d.layout path = none ↔ ∀ b q, d.at? b = some q → q.path ≠ path := by
  rw [place?, Option.map_eq_none_iff, List.find?_eq_none]
  simp only [List.mem_reverse, mem_layout_iff, decide_eq_true_eq]
  exact ⟨fun h b q hq => h q ⟨b, hq⟩, fun h q ⟨b, hq⟩ => h b q hq⟩

theorem targetProblem?_eq_some_iff {d : ChartDef} {a : Address} {p : Placed} {l i : Nat}
    {kind : EventKind} {t : TransitionDef} (hp : d.at? a = some p)
    (hkind : p.definition.kinds[l]? = some kind)
    (ht : (p.definition.transitionsOn kind)[i]? = some t) (problem : ChartProblem) :
    targetProblem? d.layout p kind t = some problem ↔ d.Reports (.target a l i) problem := by
  constructor
  · intro h
    unfold targetProblem? resolve at h
    cases hparse : Path.Target.parse? t.target with
    | none =>
      simp only [hparse, Option.some.injEq] at h
      exact h ▸ .malformedTarget hp hkind ht hparse
    | some target =>
      cases hplace : place? d.layout (target.resolve p.path (p.parent.map Prod.snd)) with
      | none =>
        simp only [hparse, hplace, Option.some.injEq] at h
        exact h ▸ .unknownTarget hp hkind ht hparse (place?_eq_none_iff.mp hplace)
      | some id => simp [hparse, hplace] at h
  · intro h
    cases h with
    | malformedTarget hp' hkind' ht' hparse =>
      obtain rfl := Option.some.inj (hp.symm.trans hp')
      obtain rfl := Option.some.inj (hkind.symm.trans hkind')
      obtain rfl := Option.some.inj (ht.symm.trans ht')
      simp [targetProblem?, resolve, hparse]
    | unknownTarget hp' hkind' ht' hparse hunknown =>
      obtain rfl := Option.some.inj (hp.symm.trans hp')
      obtain rfl := Option.some.inj (hkind.symm.trans hkind')
      obtain rfl := Option.some.inj (ht.symm.trans ht')
      simp [targetProblem?, resolve, hparse, place?_eq_none_iff.mpr hunknown]

def catchAllProblem? (p : Placed) (kind : EventKind) : Option ChartProblem :=
  if StateDef.catchAllMisplaced (p.definition.transitionsOn kind) then
    some (.catchAllNotLast (Path.shown p.path) kind)
  else none

theorem catchAllProblem?_eq_some_iff {d : ChartDef} {a : Address} {p : Placed} {l : Nat}
    {kind : EventKind} (hp : d.at? a = some p) (hkind : p.definition.kinds[l]? = some kind)
    (problem : ChartProblem) :
    catchAllProblem? p kind = some problem ↔ d.Reports (.list a l) problem := by
  rw [catchAllProblem?, Option.ite_none_right_eq_some]
  constructor
  · rintro ⟨hmisplaced, heq⟩
    obtain rfl := Option.some.inj heq
    obtain ⟨i, t, ht, hguard, hlt⟩ := StateDef.catchAllMisplaced_iff.mp hmisplaced
    exact .catchAllNotLast hp hkind ht hguard hlt
  · intro h
    cases h with
    | catchAllNotLast hp' hkind' ht hguard hlt =>
      obtain rfl := Option.some.inj (hp.symm.trans hp')
      obtain rfl := Option.some.inj (hkind.symm.trans hkind')
      exact ⟨StateDef.catchAllMisplaced_iff.mpr ⟨_, _, ht, hguard, hlt⟩, rfl⟩

def listEntries (d : ChartDef) (a : Address) (p : Placed) (list : EventKind × Nat) :
    List (Fault × ChartProblem) :=
  (catchAllProblem? p list.1).toList.map (Prod.mk (.list a list.2))
    ++ (p.definition.transitionsOn list.1).zipIdx.flatMap fun t =>
      (targetProblem? d.layout p list.1 t.1).toList.map (Prod.mk (.target a list.2 t.2))

def transitionEntries (d : ChartDef) (a : Address) : List (Fault × ChartProblem) :=
  (d.at? a).elim [] fun p => p.definition.kinds.zipIdx.flatMap (d.listEntries a p)

theorem pairwise_zipIdx {α : Type} (xs : List α) :
    xs.zipIdx.Pairwise fun x y => x.2 < y.2 := by
  rw [← List.pairwise_map, List.zipIdx_map_snd]
  exact List.pairwise_lt_range'

theorem flatMap_zipIdx {α β : Type} (xs : List α) (f : α → List β) :
    xs.zipIdx.flatMap (fun x => f x.1) = xs.flatMap f := by
  rw [← List.flatMap_map, List.zipIdx_map_fst]

theorem accounts_listEntries {d : ChartDef} {a : Address} {p : Placed} (hp : d.at? a = some p)
    {list : EventKind × Nat} (hlist : list ∈ p.definition.kinds.zipIdx) :
    d.Accounts (fun fault => fault = .list a list.2 ∨ ∃ i, fault = .target a list.2 i)
      (d.listEntries a p list) := by
  have hkind := List.mem_zipIdx_iff_getElem?.mp hlist
  have hcatchAll := Accounts.of_option fun problem =>
    catchAllProblem?_eq_some_iff (l := list.2) hp hkind problem
  have htargets : d.Accounts
      (fun fault => ∃ t ∈ (p.definition.transitionsOn list.1).zipIdx,
        fault = .target a list.2 t.2)
      ((p.definition.transitionsOn list.1).zipIdx.flatMap fun t =>
        (targetProblem? d.layout p list.1 t.1).toList.map (Prod.mk (.target a list.2 t.2))) :=
    Accounts.flatMap (pairwise_zipIdx _)
      (fun t ht => Accounts.of_option fun problem =>
        targetProblem?_eq_some_iff hp hkind (List.mem_zipIdx_iff_getElem?.mp ht) problem)
      (by
        rintro t u _ _ hlt rfl rfl
        exact Or.inr ⟨rfl, Or.inr ⟨rfl, hlt⟩⟩)
  refine (hcatchAll.append htargets ?_).congr fun fault problem hreports => ?_
  · rintro _ _ rfl ⟨t, -, rfl⟩
    exact Or.inr ⟨rfl, Nat.le_refl _⟩
  · refine or_congr_right ⟨fun ⟨t, _, heq⟩ => ⟨t.2, heq⟩, ?_⟩
    rintro ⟨i, rfl⟩
    cases hreports with
    | malformedTarget hp' hkind' ht | unknownTarget hp' hkind' ht =>
      obtain rfl := Option.some.inj (hp.symm.trans hp')
      obtain rfl := Option.some.inj (hkind.symm.trans hkind')
      exact ⟨(_, i), List.mem_zipIdx_iff_getElem?.mpr ht, rfl⟩

theorem accounts_transitionEntries {d : ChartDef} {a : Address} {p : Placed}
    (hp : d.at? a = some p) :
    d.Accounts (fun fault => ∃ l, fault = .list a l ∨ ∃ i, fault = .target a l i)
      (d.transitionEntries a) := by
  rw [transitionEntries, hp, Option.elim_some]
  refine (Accounts.flatMap (pairwise_zipIdx p.definition.kinds)
    (fun list hlist => accounts_listEntries hp hlist) ?_).congr fun fault problem hreports => ?_
  · rintro list list' _ _ hlt (rfl | ⟨i, rfl⟩) (rfl | ⟨j, rfl⟩)
    · exact Or.inr ⟨rfl, hlt⟩
    · exact Or.inr ⟨rfl, Nat.le_of_lt hlt⟩
    · exact Or.inr ⟨rfl, hlt⟩
    · exact Or.inr ⟨rfl, Or.inl hlt⟩
  · refine ⟨fun ⟨list, _, h⟩ => ⟨list.2, h⟩, ?_⟩
    rintro ⟨l, h⟩
    suffices hkind : ∃ kind, p.definition.kinds[l]? = some kind by
      obtain ⟨kind, hkind⟩ := hkind
      exact ⟨(kind, l), List.mem_zipIdx_iff_getElem?.mpr hkind, h⟩
    rcases h with rfl | ⟨i, rfl⟩
    · cases hreports with
      | catchAllNotLast hp' hkind =>
        obtain rfl := Option.some.inj (hp.symm.trans hp')
        exact ⟨_, hkind⟩
    · cases hreports with
      | malformedTarget hp' hkind | unknownTarget hp' hkind =>
        obtain rfl := Option.some.inj (hp.symm.trans hp')
        exact ⟨_, hkind⟩

theorem map_listEntries (d : ChartDef) (a : Address) (p : Placed) (list : EventKind × Nat) :
    (d.listEntries a p list).map Prod.snd = listProblems d.layout p list.1 := by
  have htargets : ((p.definition.transitionsOn list.1).zipIdx.flatMap fun t =>
        (targetProblem? d.layout p list.1 t.1).toList) =
      (p.definition.transitionsOn list.1).filterMap (targetProblem? d.layout p list.1) := by
    rw [flatMap_zipIdx _ fun t => (targetProblem? d.layout p list.1 t).toList,
      List.filterMap_eq_flatMap_toList]
  rw [listEntries, listProblems, List.map_append, List.map_flatMap, ← htargets]
  congr 1
  · unfold catchAllProblem?
    split <;> rfl
  · refine List.flatMap_congr fun t _ => ?_
    rw [List.map_map]
    exact List.map_id _

theorem map_transitionEntries (d : ChartDef) :
    ((d.addresses .preOrder).flatMap d.transitionEntries).map Prod.snd =
      d.layout.flatMap (transitionProblems d.layout) := by
  rw [flatMap_layout, Placed.traverse, Placed.gather, List.map_flatMap]
  refine List.flatMap_congr fun a ha => ?_
  obtain ⟨p, hp⟩ := mem_addresses_iff.mp ha
  have htop : d.top.at? a = some p := hp
  rw [transitionEntries, hp, htop, Option.elim_some, Option.elim_some, transitionProblems,
    List.map_flatMap]
  simp only [map_listEntries]
  exact flatMap_zipIdx _ _

/-! ## All reports -/

def entries (d : ChartDef) : List (Fault × ChartProblem) :=
  (d.addresses .postOrder).flatMap d.shapeEntries
    ++ d.pathEntries [] (d.addresses .preOrder)
    ++ (d.addresses .preOrder).flatMap d.transitionEntries

theorem map_entries (d : ChartDef) : d.entries.map Prod.snd = d.problems := by
  rw [entries, List.map_append, List.map_append, map_shapeEntries,
    map_pathEntries (map_at?_addresses d), map_transitionEntries]
  rfl

theorem accounts_entries (d : ChartDef) : d.Accounts (fun _ => True) d.entries := by
  have hshapes := Accounts.flatMap (d.pairwise_addresses .postOrder)
    (fun a ha => accounts_shapeEntries (mem_addresses_iff.mp ha).choose_spec)
    (by
      rintro a b _ _ hlt rfl rfl
      exact hlt)
  have hpaths : d.Accounts (fun fault => ∃ a ∈ d.addresses .preOrder, fault = .path a)
      (d.pathEntries [] (d.addresses .preOrder)) := accounts_pathEntries (List.nil_append _).symm
    (by simp)
  have htransitions := Accounts.flatMap (d.pairwise_addresses .preOrder)
    (fun a ha => accounts_transitionEntries (mem_addresses_iff.mp ha).choose_spec)
    (by
      rintro a b _ _ hlt ⟨l, rfl | ⟨i, rfl⟩⟩ ⟨m, rfl | ⟨j, rfl⟩⟩ <;> exact Or.inl hlt)
  refine ((hshapes.append hpaths ?_).append htransitions ?_).congr fun fault problem hreports => ?_
  · rintro _ _ ⟨a, -, rfl⟩ ⟨b, -, rfl⟩
    trivial
  · rintro _ _ (⟨a, -, rfl⟩ | ⟨a, -, rfl⟩) ⟨b, -, m, rfl | ⟨j, rfl⟩⟩ <;> trivial
  · refine iff_true_intro ?_
    have hmem : ∀ {r a p}, d.at? a = some p → a ∈ d.addresses r := fun hp =>
      mem_addresses_iff.mpr ⟨_, hp⟩
    cases hreports with
    | missingInitial hp | unknownInitial hp | childrenOnLeaf hp =>
      exact Or.inl (Or.inl ⟨_, hmem hp, rfl⟩)
    | duplicateState hp => exact Or.inl (Or.inr ⟨_, hmem hp, rfl⟩)
    | catchAllNotLast hp => exact Or.inr ⟨_, hmem hp, _, Or.inl rfl⟩
    | malformedTarget hp | unknownTarget hp =>
      exact Or.inr ⟨_, hmem hp, _, Or.inr ⟨_, rfl⟩⟩

theorem Valid.not_reports {d : ChartDef} (h : d.Valid) {fault : Fault} {problem : ChartProblem} :
    ¬ d.Reports fault problem := by
  intro hreports
  cases hreports with
  | missingInitial hp hkind hnone | unknownInitial hp hkind _ hnone =>
    obtain ⟨child, hchild, hname⟩ := h.initial hp hkind
    exact hnone child hchild hname
  | childrenOnLeaf hp hkind hne => exact hne (h.leaf hp hkind)
  | duplicateState hp hq hlt hpath =>
    obtain rfl := h.distinct hq hp hpath
    exact Address.before_irrefl _ _ hlt
  | catchAllNotLast hp _ ht hguard hlt =>
    have hlast := h.catchAll hp ht hguard
    omega
  | malformedTarget hp _ ht hparse =>
    obtain ⟨target, htarget, -⟩ :=
      h.target hp (StateDef.mem_transitionsOn.mp (List.mem_of_getElem? ht))
    rw [hparse] at htarget
    cases htarget
  | unknownTarget hp _ ht hparse hnone =>
    obtain ⟨target, htarget, b, q, hq, hpath⟩ :=
      h.target hp (StateDef.mem_transitionsOn.mp (List.mem_of_getElem? ht))
    obtain rfl := Option.some.inj (hparse.symm.trans htarget)
    exact hnone b q hq hpath

/-- Each transition that a state declares stands somewhere in one of its lists. -/
theorem exists_list_of_mem {p : Placed} {kind : EventKind} {t : TransitionDef}
    (ht : t ∈ p.definition.transitionsOn kind) :
    ∃ l i : Nat, p.definition.kinds[l]? = some kind ∧
      (p.definition.transitionsOn kind)[i]? = some t := by
  obtain ⟨l, hl⟩ := List.mem_iff_getElem?.mp (StateDef.mem_kinds.mpr ⟨t, ht⟩)
  obtain ⟨i, hi⟩ := List.mem_iff_getElem?.mp ht
  exact ⟨l, i, hl, hi⟩

theorem valid_of_not_reports {d : ChartDef} (h : ∀ fault problem, ¬ d.Reports fault problem) :
    d.Valid := by
  constructor
  · intro a p initial hp hkind
    by_contra hnone
    simp only [not_exists, not_and] at hnone
    by_cases hempty : initial = ""
    · subst hempty
      exact h _ _ (.missingInitial hp hkind hnone)
    · exact h _ _ (.unknownInitial hp hkind hempty hnone)
  · intro a p hp hkind
    by_contra hne
    exact h _ _ (.childrenOnLeaf hp hkind hne)
  · intro a b p q hp hq hpath
    rcases Address.before_or_eq_or_before .preOrder a b with hlt | heq | hlt
    · exact absurd (.duplicateState hq hp hlt hpath) (h _ _)
    · exact heq
    · exact absurd (.duplicateState hp hq hlt hpath.symm) (h _ _)
  · intro a p kind t hp ht
    obtain ⟨l, i, hl, hi⟩ := exists_list_of_mem (StateDef.mem_transitionsOn.mpr ht)
    cases hparse : Path.Target.parse? t.target with
    | none => exact absurd (.malformedTarget hp hl hi hparse) (h _ _)
    | some target =>
      refine ⟨target, rfl, ?_⟩
      by_contra hnone
      exact h _ _ (.unknownTarget hp hl hi hparse fun b q hq hpath => hnone ⟨b, q, hq, hpath⟩)
  · intro a p kind i t hp ht hguard
    by_contra hne
    have hlt : i < (p.definition.transitionsOn kind).length :=
      (List.getElem?_eq_some_iff.mp ht).1
    obtain ⟨l, -, hl, -⟩ := exists_list_of_mem (List.mem_of_getElem? ht)
    exact h _ _ (.catchAllNotLast hp hl ht hguard (by omega))

theorem valid_iff_entries_eq_nil {d : ChartDef} : d.Valid ↔ d.entries = [] := by
  rw [List.eq_nil_iff_forall_not_mem]
  constructor
  · intro h entry hentry
    exact h.not_reports ((d.accounts_entries.mem_iff _ _).mp hentry).2
  · intro h
    refine valid_of_not_reports fun fault problem hreports => ?_
    exact h _ ((d.accounts_entries.mem_iff fault problem).mpr ⟨trivial, hreports⟩)

theorem valid_iff_problems_eq_nil {d : ChartDef} : d.Valid ↔ d.problems = [] := by
  rw [valid_iff_entries_eq_nil, ← map_entries, List.map_eq_nil_iff]

theorem valid_of_build {d : ChartDef} {c : Chart} (h : d.build = .ok c) : d.Valid :=
  valid_iff_problems_eq_nil.mpr (problems_of_build h)

/-- A chart is built exactly from a `Valid` definition.  For any other the problems are one for each
fault, in the order of the faults, and nothing else. -/
theorem build_reports_faults (d : ChartDef) :
    ((∃ c, d.build = .ok c) ↔ d.Valid) ∧
      ∃ reports : List (Fault × ChartProblem),
        (reports.map Prod.fst).Pairwise Fault.Before ∧ (reports.map Prod.fst).Nodup ∧
          (∀ fault problem, (fault, problem) ∈ reports ↔ d.Reports fault problem) ∧
            (¬ d.Valid → d.build = .error ⟨reports.map Prod.snd⟩) := by
  have hordered : (d.entries.map Prod.fst).Pairwise Fault.Before :=
    List.pairwise_map.mpr d.accounts_entries.pairwise
  refine ⟨⟨fun ⟨c, hc⟩ => valid_of_build hc, fun hvalid => ?_⟩, d.entries, hordered, ?_, ?_, ?_⟩
  · rw [build, valid_iff_problems_eq_nil.mp hvalid]
    exact ⟨_, rfl⟩
  · refine hordered.imp fun {fault later} hlt heq => ?_
    subst heq
    exact fault.before_irrefl hlt
  · intro fault problem
    rw [d.accounts_entries.mem_iff, true_and]
  · intro hinvalid
    rw [valid_iff_problems_eq_nil] at hinvalid
    rw [map_entries, build]
    split
    · next hnil => exact absurd hnil hinvalid
    · rfl

def faultyDefinition : ChartDef where
  initial := "idle"
  states :=
    [((StateDef.atomic "idle").on .click [{ target := "nowhere" }, { target := "idle" }]).on
        .timeout [{ target := "a..b" }],
      (StateDef.compound "branch" "missing").containing [StateDef.atomic "only"],
      (StateDef.atomic "leaf").containing [StateDef.compound "inner" ""],
      StateDef.atomic "idle"]

theorem faulty_reported :
    ¬ faultyDefinition.Valid ∧
      ∃ reports : List (Fault × ChartProblem),
        (reports.map Prod.fst).Pairwise Fault.Before ∧
          (∀ fault problem, (fault, problem) ∈ reports ↔
            faultyDefinition.Reports fault problem) ∧
            reports.map Prod.snd =
              [.unknownInitial "branch" "missing", .missingInitial "leaf.inner",
                .childrenOnLeaf "leaf", .duplicateState "idle", .catchAllNotLast "idle" .click,
                .unknownTarget "idle" .click "nowhere",
                .malformedTarget "idle" .timeout "a..b"] := by
  have hbuild : faultyDefinition.build = .error
      ⟨[.unknownInitial "branch" "missing", .missingInitial "leaf.inner",
        .childrenOnLeaf "leaf", .duplicateState "idle", .catchAllNotLast "idle" .click,
        .unknownTarget "idle" .click "nowhere", .malformedTarget "idle" .timeout "a..b"]⟩ := rfl
  obtain ⟨hok, reports, hordered, -, hreports, herror⟩ := build_reports_faults faultyDefinition
  have hinvalid : ¬ faultyDefinition.Valid := by
    rw [← hok, hbuild]
    rintro ⟨c, hc⟩
    cases hc
  refine ⟨hinvalid, reports, hordered, hreports, ?_⟩
  have heq := (herror hinvalid).symm.trans hbuild
  exact InvalidChart.mk.inj (Except.error.inj heq)

end ChartDef

end Dialogue
