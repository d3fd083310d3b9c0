import Dialogue.Proofs.Chart.Walks
/-!
# Renamed charts

Nothing that a chart says about its dialogue depends on the numbers of its states.  If they are
exchanged throughout, in the tree, in the targets of transitions and in the tickets that guards and
actions are shown, every walk through the chart is the same walk with its states renamed.
-/

namespace Dialogue

variable {ρ : StateId → StateId}

/-! ## Events -/

def Ticket.rename (ρ : StateId → StateId) (t : Ticket) : Ticket :=
  { t with state := ρ t.state }

theorem Ticket.rename_injective (hρ : Function.Injective ρ) :
    Function.Injective (Ticket.rename ρ) := by
  rintro ⟨state, generation⟩ ⟨state', generation'⟩ heq
  obtain ⟨hstate, hgeneration⟩ := Ticket.mk.inj heq
  exact congrArg₂ Ticket.mk (hρ hstate) hgeneration

def Event.rename (ρ : StateId → StateId) : Event → Event
  | lookupDone ticket answer => lookupDone (ticket.rename ρ) answer
  | event => event

@[simp] theorem Event.kind_rename (event : Event) : (event.rename ρ).kind = event.kind := by
  cases event <;> rfl

@[simp] theorem Event.answer?_rename (event : Event) :
    (event.rename ρ).answer? = event.answer? := by
  cases event <;> rfl

theorem Event.rename_rename {σ : StateId → StateId} (h : Function.LeftInverse σ ρ)
    (event : Event) : (event.rename ρ).rename σ = event := by
  cases event with
  | lookupDone ticket answer => simp only [rename, Ticket.rename, h ticket.state]
  | click | ttsReady | recognised | endSpeech | timeout => rfl

/-! ## States -/

def NodeKind.rename (ρ : StateId → StateId) : NodeKind → NodeKind
  | compound initial => compound (ρ initial)
  | kind => kind

def Action.Renamed (ρ : StateId → StateId) (actions actions' : List Action) : Prop :=
  ∀ event ctx, runAll (event.map (Event.rename ρ)) ctx actions' = runAll event ctx actions

/-- The transition leads to the renamed target.  Its guard and its actions do at a renamed event
what those of the first do at the event itself. -/
structure Transition.Renamed (ρ : StateId → StateId) (t t' : Transition) : Prop where
  target_eq : t'.target = ρ t.target
  enabled_eq : ∀ ctx event, t'.enabled ctx (event.rename ρ) = t.enabled ctx event
  actions : Action.Renamed ρ t.actions t'.actions

structure Node.Renamed (ρ : StateId → StateId) (n n' : Node) : Prop where
  path_eq : n'.path = n.path
  parent_eq : n'.parent = n.parent.map ρ
  kind_eq : n'.kind = n.kind.rename ρ
  invoke_eq : n'.invoke = n.invoke
  entry : Action.Renamed ρ n.entry n'.entry
  transitionsOn : ∀ kind,
    List.Forall₂ (Transition.Renamed ρ) (n.transitionsOn kind) (n'.transitionsOn kind)

namespace Chart

/-- The second chart has the states of the first under other numbers.  What is no state of the one
has a number that is no state of the other. -/
structure Renamed (ρ : StateId → StateId) (c c' : Chart) : Prop where
  wellFormed : c.WellFormed
  wellFormed' : c'.WellFormed
  injective : Function.Injective ρ
  root_eq : ρ root = root
  size_eq : c'.nodes.size = c.nodes.size
  node?_cases : ∀ id, (c.node? id = none ∧ c'.node? (ρ id) = none) ∨
    ∃ n n', c.node? id = some n ∧ c'.node? (ρ id) = some n' ∧ n.Renamed ρ n'

namespace Renamed

variable {c c' : Chart} (h : c.Renamed ρ c')
include h

theorem path_eq (id : StateId) : c'.path (ρ id) = c.path id := by
  rw [path, path]
  rcases h.node?_cases id with ⟨hn, hn'⟩ | ⟨n, n', hn, hn', hnode⟩
  · rw [hn, hn']
  · rw [hn, hn', Option.map_some, Option.map_some, hnode.path_eq]

theorem parent?_eq (id : StateId) : c'.parent? (ρ id) = (c.parent? id).map ρ := by
  rw [parent?, parent?]
  rcases h.node?_cases id with ⟨hn, hn'⟩ | ⟨n, n', hn, hn', hnode⟩
  · rw [hn, hn']
    rfl
  · rw [hn, hn', Option.bind_some, Option.bind_some, hnode.parent_eq]

theorem initial?_eq (id : StateId) : c'.initial? (ρ id) = (c.initial? id).map ρ := by
  rw [initial?, initial?]
  rcases h.node?_cases id with ⟨hn, hn'⟩ | ⟨n, n', hn, hn', hnode⟩
  · rw [hn, hn']
    rfl
  · rw [hn, hn', Option.bind_some, Option.bind_some, hnode.kind_eq]
    cases n.kind <;> rfl

theorem isCompound_eq (id : StateId) : c'.isCompound (ρ id) = c.isCompound id := by
  rw [isCompound, isCompound]
  rcases h.node?_cases id with ⟨hn, hn'⟩ | ⟨n, n', hn, hn', hnode⟩
  · rw [hn, hn']
  · rw [hn, hn', Option.any_some, Option.any_some, Node.isCompound, Node.isCompound, hnode.kind_eq]
    cases n.kind <;> rfl

theorem isHistory_eq (id : StateId) : c'.isHistory (ρ id) = c.isHistory id := by
  rw [isHistory, isHistory]
  rcases h.node?_cases id with ⟨hn, hn'⟩ | ⟨n, n', hn, hn', hnode⟩
  · rw [hn, hn']
  · rw [hn, hn', Option.any_some, Option.any_some, Node.isHistory, Node.isHistory, hnode.kind_eq]
    cases n.kind <;> rfl

/-! ### Walks -/

theorem bne_eq (a b : StateId) : (ρ a != ρ b) = (a != b) := by
  rw [Bool.eq_iff_iff, bne_iff_ne, bne_iff_ne, h.injective.ne_iff]

/-- The numbers bound how many states are walked through, and they are others in the second chart;
so this goes up from parent to parent. -/
theorem lineage_eq (id : StateId) : c'.lineage (ρ id) = (c.lineage id).map ρ := by
  induction hn : id.index using Nat.strongRecOn generalizing id with
  | ind n ih =>
    cases hparent : c.parent? id with
    | none =>
      have hparent' : c'.parent? (ρ id) = none := by rw [h.parent?_eq, hparent, Option.map_none]
      rw [lineage_of_parent?_eq_none hparent, lineage_of_parent?_eq_none hparent']
      rfl
    | some p =>
      have hparent' : c'.parent? (ρ id) = some (ρ p) := by
        rw [h.parent?_eq, hparent, Option.map_some]
      have hlt := h.wellFormed.parent_lt hparent
      rw [h.wellFormed.lineage_of_parent? hparent, h.wellFormed'.lineage_of_parent? hparent',
        ih p.index (hn ▸ hlt) p rfl]
      rfl

theorem contains_eq (outer inner : StateId) :
    c'.contains (ρ outer) (ρ inner) = c.contains outer inner := by
  rw [Bool.eq_iff_iff, contains_iff, contains_iff, h.lineage_eq,
    List.mem_map_of_injective h.injective]

theorem pathBetween_eq (outer inner : StateId) :
    c'.pathBetween (ρ outer) (ρ inner) = (c.pathBetween outer inner).map ρ := by
  have hbne : ((fun id => id != ρ outer) ∘ ρ) = fun id => id != outer :=
    funext fun id => h.bne_eq id outer
  rw [pathBetween, pathBetween, h.lineage_eq, List.takeWhile_map, hbne, List.map_reverse]

theorem descend_eq (bound : Nat) (id : StateId) :
    c'.descend bound (ρ id) = (c.descend bound id).map ρ := by
  induction bound generalizing id with
  | zero => rfl
  | succ bound ih =>
    rw [descend, descend, h.initial?_eq]
    cases c.initial? id with
    | none => rfl
    | some child => exact congrArg (ρ child :: ·) (ih child)

theorem initialDescent_eq (id : StateId) :
    c'.initialDescent (ρ id) = (c.initialDescent id).map ρ := by
  rw [initialDescent, initialDescent, h.size_eq, h.descend_eq]

theorem transitionDomain_eq (source target : StateId) :
    c'.transitionDomain (ρ source) (ρ target) = ρ (c.transitionDomain source target) := by
  have hfind : ((fun id => id != ρ target && c'.contains id (ρ target)) ∘ ρ) =
      fun id => id != target && c.contains id target := by
    funext id
    rw [Function.comp_apply, h.bne_eq, h.contains_eq]
  have hinto : (ρ target ≠ ρ source ∧ c'.contains (ρ source) (ρ target)) ↔
      target ≠ source ∧ c.contains source target := by
    rw [h.contains_eq, h.injective.ne_iff]
  unfold transitionDomain
  by_cases hin : target ≠ source ∧ c.contains source target
  · rw [if_pos (hinto.mpr hin), if_pos hin]
  · rw [if_neg (mt hinto.mp hin), if_neg hin, h.lineage_eq, ← List.map_tail, List.find?_map, hfind]
    cases (c.lineage source).tail.find? fun id => id != target && c.contains id target with
    | none => exact h.root_eq.symm
    | some id => rfl

end Renamed

end Chart

/-! ## What guards and actions are shown -/

/-- The guard sees no difference between an event and what `f` makes of it. -/
def Guard.Ignores (f : Event → Event) (g : Guard) : Prop :=
  ∀ ctx event, g.holds ctx (f event) = g.holds ctx event

def Guard.showing (f : Event → Event) (g : Guard) : Guard :=
  ⟨fun ctx event => g.holds ctx (f event)⟩

namespace Action

def Ignores (f : Event → Event) (action : Action) : Prop :=
  ∀ event ctx, action.run (event.map f) ctx = action.run event ctx

def showing (f : Event → Event) : Action → Action
  | assign field update => assign field fun ctx event => update ctx (event.map f)
  | action => action

variable (f : Event → Event) (event : Option Event)

theorem run_showing (ctx : Context) (action : Action) :
    (action.showing f).run event ctx = action.run (event.map f) ctx := by
  cases action <;> rfl

theorem runAll_showing (ctx : Context) (actions : List Action) :
    runAll event ctx (actions.map (showing f)) = runAll (event.map f) ctx actions := by
  induction actions generalizing ctx with
  | nil => rfl
  | cons action actions ih => simp only [List.map_cons, runAll, run_showing, ih]

theorem runAll_of_ignores {actions : List Action} (h : ∀ action ∈ actions, action.Ignores f)
    (ctx : Context) : runAll (event.map f) ctx actions = runAll event ctx actions := by
  induction actions generalizing ctx with
  | nil => rfl
  | cons action actions ih =>
    simp only [runAll, h action List.mem_cons_self event ctx,
      ih fun action haction => h action (List.mem_cons_of_mem _ haction)]

end Action

namespace Transition

def showing (f : Event → Event) (t : Transition) : Transition :=
  { t with guard := t.guard.map (Guard.showing f), actions := t.actions.map (Action.showing f) }

theorem enabled_showing (f : Event → Event) (t : Transition) (ctx : Context) (event : Event) :
    (t.showing f).enabled ctx event = t.enabled ctx (f event) := by
  unfold enabled showing
  cases t.guard <;> rfl

theorem enabled_of_ignores {f : Event → Event} {t : Transition}
    (h : ∀ g ∈ t.guard, g.Ignores f) (ctx : Context) (event : Event) :
    t.enabled ctx (f event) = t.enabled ctx event := by
  unfold enabled
  cases hg : t.guard with
  | none => rfl
  | some g => exact h g hg ctx event

end Transition

namespace Node

def showing (f : Event → Event) (n : Node) : Node :=
  { n with
    entry := n.entry.map (Action.showing f)
    transitions := n.transitions.map fun t => (t.1, t.2.showing f) }

theorem transitionsOn_showing (f : Event → Event) (n : Node) (kind : EventKind) :
    (n.showing f).transitionsOn kind = (n.transitionsOn kind).map (Transition.showing f) := by
  rw [transitionsOn, showing, List.filterMap_map, transitionsOn, List.map_filterMap]
  refine List.filterMap_congr fun t _ => ?_
  rw [Function.comp_apply]
  split <;> rfl

end Node

/-! ## Impartial guards and actions -/

namespace Guard

/-- `g` sees no difference between events that differ in the state of a ticket alone. -/
def Impartial (g : Guard) : Prop :=
  ∀ ρ, g.Ignores (Event.rename ρ)

@[simp] theorem impartial_onContext (p : Context → Bool) : (onContext p).Impartial :=
  fun _ _ _ => rfl

@[simp] theorem impartial_eventIs (kind : EventKind) : (eventIs kind).Impartial := by
  intro ρ ctx event
  simp only [eventIs, onEvent, Event.kind_rename]

@[simp] theorem impartial_answerFound : answerFound.Impartial := by
  intro ρ ctx event
  simp only [answerFound, onEvent, Event.answer?_rename]

variable {g h : Guard}

@[simp] theorem Impartial.and (hg : g.Impartial) (hh : h.Impartial) : (g.and h).Impartial := by
  intro ρ ctx event
  simp only [Guard.and, hg ρ ctx event, hh ρ ctx event]

@[simp] theorem Impartial.negate (hg : g.Impartial) : g.negate.Impartial := by
  intro ρ ctx event
  simp only [Guard.negate, hg ρ ctx event]

end Guard

namespace Action

def Impartial (action : Action) : Prop :=
  ∀ ρ, action.Ignores (Event.rename ρ)

@[simp] theorem impartial_speak (prompt : Template) : (speak prompt).Impartial :=
  fun _ _ _ => rfl

@[simp] theorem impartial_listen : listen.Impartial :=
  fun _ _ _ => rfl

@[simp] theorem impartial_assign (field : String) (update : Context → Context) :
    (assign field fun ctx _ => update ctx).Impartial :=
  fun _ _ _ => rfl

@[simp] theorem impartial_fill (s : Slot) (value : Context → Option String) :
    (fill s value).Impartial :=
  impartial_assign _ _

@[simp] theorem impartial_storeAnswer : storeAnswer.Impartial := by
  intro ρ event ctx
  cases event <;> simp [storeAnswer, run]

end Action

namespace Chart

/-- A chart whose guards and actions are shown something else in place of each event. -/
def showing (f : Event → Event) (c : Chart) : Chart :=
  ⟨c.nodes.map (Node.showing f)⟩

variable (f : Event → Event) (c : Chart)

theorem node?_showing (id : StateId) :
    (c.showing f).node? id = (c.node? id).map (Node.showing f) :=
  Array.getElem?_map

@[simp] theorem size_showing : (c.showing f).nodes.size = c.nodes.size :=
  Array.size_map

@[simp] theorem mem_showing {id : StateId} : id ∈ c.showing f ↔ id ∈ c := by
  rw [mem_def, mem_def, size_showing]

@[simp] theorem parent?_showing (id : StateId) : (c.showing f).parent? id = c.parent? id := by
  rw [parent?, parent?, node?_showing]
  cases c.node? id <;> rfl

@[simp] theorem children_showing (id : StateId) : (c.showing f).children id = c.children id := by
  rw [children, children, node?_showing]
  cases c.node? id <;> rfl

@[simp] theorem isCompound_showing (id : StateId) :
    (c.showing f).isCompound id = c.isCompound id := by
  rw [isCompound, isCompound, node?_showing]
  cases c.node? id <;> rfl

@[simp] theorem initial?_showing (id : StateId) : (c.showing f).initial? id = c.initial? id := by
  rw [initial?, initial?, node?_showing]
  cases c.node? id <;> rfl

theorem WellFormed.showing {c : Chart} (hc : c.WellFormed) : (c.showing f).WellFormed where
  root_mem := (mem_showing f c).mpr hc.root_mem
  parent?_root := (parent?_showing f c root).trans hc.parent?_root
  exists_parent hid hne := by
    rw [parent?_showing]
    exact hc.exists_parent ((mem_showing f c).mp hid) hne
  parent_lt hparent := hc.parent_lt ((parent?_showing f c _).symm.trans hparent)
  mem_children_iff := by
    intro id p
    rw [children_showing, parent?_showing, hc.mem_children_iff]
  isCompound_iff := by
    intro id
    rw [isCompound_showing, children_showing, hc.isCompound_iff]
  initial?_mem hinitial := by
    rw [initial?_showing] at hinitial
    rw [children_showing]
    exact hc.initial?_mem hinitial
  target_mem := by
    intro id n t hn ht
    rw [node?_showing] at hn
    obtain ⟨m, hm, rfl⟩ := Option.map_eq_some_iff.mp hn
    obtain ⟨u, hu, rfl⟩ := List.mem_map.mp ht
    have htarget : u.2.target ∈ c := hc.target_mem hm hu
    exact (mem_showing f c).mpr htarget

theorem showing_id : c.showing id = c := by
  have hguard : Guard.showing id = id := rfl
  have haction : Action.showing id = id := by
    funext action
    cases action with
    | assign field update => simp only [Action.showing, Option.map_id, id]
    | speak | listen => rfl
  have htransition : Transition.showing id = id := by
    funext t
    simp only [Transition.showing, hguard, haction, Option.map_id, List.map_id, id]
  have hnode : Node.showing id = id := by
    funext n
    simp only [Node.showing, htransition, haction, List.map_id, id, List.map_id']
  rw [showing, hnode, Array.map_id]

end Chart

end Dialogue
