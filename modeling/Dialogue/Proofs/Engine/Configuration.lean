import Dialogue.Proofs.Chart.Walks
import Dialogue.Proofs.Engine.Taking
/-!
# Configurations

The active states of an engine are the lineage of its leaf, and history remembers leaves inside the
states that it remembers them for.  Entering the initial states establishes this, and every step
keeps it: the domain of a transition is active, and from there the walk down to the new leaf is a
piece of the leaf's lineage.
-/

namespace Dialogue

/-- `leaf` lies inside the compound state `compound`, which is not the root, and has no states
inside. -/
structure Chart.LeafInside (c : Chart) (compound leaf : StateId) : Prop where
  isCompound : c.isCompound compound
  ne_root : compound ≠ root
  mem : leaf ∈ c
  atomic : ¬ c.isCompound leaf
  mem_lineage : compound ∈ c.lineage leaf

namespace Chart.WellFormed

variable {c : Chart} (hc : c.WellFormed)
include hc

theorem effectiveTarget_mem {target : StateId} (h : target ∈ c) :
    Engine.effectiveTarget c target ∈ c := by
  unfold Engine.effectiveTarget
  split
  · cases hp : c.parent? target with
    | none => exact h
    | some p => exact hc.mem_of_parent?_eq_some hp
  · exact h

end Chart.WellFormed

namespace Engine

def remembered? (e : Engine) (source target : StateId) : Option StateId :=
  if e.chart.isHistory target then
    (e.history.recordAll e.chart e.leaf (e.left source target)).resume?
      (effectiveTarget e.chart target)
  else none

def arrival (e : Engine) (source target : StateId) : StateId :=
  (e.remembered? source target).getD (e.chart.initialLeaf (effectiveTarget e.chart target))

theorem entered_eq {e : Engine} {source target : StateId} (h : e.domain source target ∈ e.active) :
    e.entered source target =
      e.chart.pathBetween (e.domain source target) (effectiveTarget e.chart target) ++
        match e.remembered? source target with
        | some leaf => e.chart.pathBetween (effectiveTarget e.chart target) leaf
        | none => e.chart.initialDescent (effectiveTarget e.chart target) := by
  rw [entered, exitBelow_eq h]
  rfl

structure Sound (e : Engine) : Prop where
  wellFormed : e.chart.WellFormed
  leaf_mem : e.leaf ∈ e.chart
  leaf_atomic : ¬ e.chart.isCompound e.leaf
  active_eq : e.active = e.chart.lineage e.leaf
  recorded : ∀ {compound leaf}, e.history.resume? compound = some leaf →
    e.chart.LeafInside compound leaf

theorem Sound.of_lineage {e : Engine} {c : Chart} {leaf : StateId} (hchart : e.chart = c)
    (hc : c.WellFormed) (hleaf : leaf ∈ c) (hatomic : ¬ c.isCompound leaf)
    (hactive : e.active = c.lineage leaf)
    (hrecorded : ∀ {compound leaf}, e.history.resume? compound = some leaf →
      c.LeafInside compound leaf) : e.Sound := by
  have heq : e.leaf = leaf := by
    rw [Engine.leaf, hactive, Chart.head?_lineage, Option.getD_some]
  subst hchart
  refine ⟨hc, ?_, ?_, ?_, hrecorded⟩ <;> rwa [heq]

namespace Sound

variable {e : Engine} (h : e.Sound)
include h

theorem frame {e' : Engine} (hchart : e'.chart = e.chart) (hactive : e'.active = e.active)
    (hhistory : e'.history = e.history) : e'.Sound := by
  refine of_lineage hchart h.wellFormed h.leaf_mem h.leaf_atomic (hactive.trans h.active_eq) ?_
  intro compound leaf hrecord
  rw [hhistory] at hrecord
  exact h.recorded hrecord

theorem mem_of_active {id : StateId} (hid : id ∈ e.active) : id ∈ e.chart := by
  rw [h.active_eq] at hid
  exact h.wellFormed.mem_of_mem_lineage h.leaf_mem hid

theorem target_mem {event : Event} {source : StateId} {t : Transition}
    (ht : e.taken? event = some (source, t)) : source ∈ e.active ∧ t.target ∈ e.chart := by
  obtain ⟨hsource, n, hnode, hmem⟩ := taken?_eq_some ht
  exact ⟨hsource, h.wellFormed.target_mem hnode hmem⟩

/-! ## One transition -/

section Transition

variable {source : StateId} (hsource : source ∈ e.active)
include hsource

theorem domain_active (target : StateId) : e.domain source target ∈ e.active := by
  have hdomain := h.wellFormed.transitionDomain_mem_source (h.mem_of_active hsource)
    (effectiveTarget e.chart target)
  rw [h.active_eq] at hsource ⊢
  exact h.wellFormed.mem_lineage_trans h.leaf_mem hsource hdomain

theorem kept_eq (target : StateId) :
    e.kept source target = e.chart.lineage (e.domain source target) := by
  have hdomain := h.domain_active hsource target
  rw [h.active_eq] at hdomain
  rw [kept, h.active_eq, h.wellFormed.dropWhile_lineage h.leaf_mem hdomain]

theorem leafInside_of_left {target id : StateId} (hid : id ∈ e.left source target)
    (hcompound : e.chart.isCompound id) : e.chart.LeafInside id e.leaf := by
  have hactive := e.left_append_kept source target
  refine ⟨hcompound, ?_, h.leaf_mem, h.leaf_atomic, ?_⟩
  · rintro rfl
    have hroot : Chart.root ∈ e.kept source target := by
      rw [h.kept_eq hsource target]
      exact h.wellFormed.root_mem_lineage (h.mem_of_active (h.domain_active hsource target))
    have hnodup := h.wellFormed.nodup_lineage h.leaf_mem
    rw [← h.active_eq, ← hactive, List.nodup_append] at hnodup
    exact hnodup.2.2 _ hid _ hroot rfl
  · rw [← h.active_eq, ← hactive]
    exact List.mem_append_left _ hid

theorem leafInside_of_recordAll {target compound leaf : StateId}
    (hrecord : (e.history.recordAll e.chart e.leaf (e.left source target)).resume? compound =
      some leaf) : e.chart.LeafInside compound leaf := by
  rw [History.resume?_recordAll] at hrecord
  split at hrecord
  · next hleft =>
    obtain rfl := Option.some.inj hrecord
    exact h.leafInside_of_left hsource hleft.1 hleft.2
  · exact h.recorded hrecord

theorem leafInside_of_remembered? {target leaf : StateId}
    (hremembered : e.remembered? source target = some leaf) :
    e.chart.LeafInside (effectiveTarget e.chart target) leaf := by
  unfold remembered? at hremembered
  split at hremembered
  · exact h.leafInside_of_recordAll hsource hremembered
  · cases hremembered

/-- The states entered and those kept are the lineage of the leaf that a transition leads to. -/
theorem arrival_spec {target : StateId} (htarget : target ∈ e.chart) :
    e.arrival source target ∈ e.chart ∧ ¬ e.chart.isCompound (e.arrival source target) ∧
      (e.entered source target).reverse ++ e.kept source target =
        e.chart.lineage (e.arrival source target) := by
  have heffective := h.wellFormed.effectiveTarget_mem htarget
  have hdown : (e.chart.pathBetween (e.domain source target)
      (effectiveTarget e.chart target)).reverse ++ e.chart.lineage (e.domain source target) =
        e.chart.lineage (effectiveTarget e.chart target) :=
    h.wellFormed.pathBetween_append_lineage heffective
      (h.wellFormed.transitionDomain_mem_target source heffective)
  rw [entered_eq (h.domain_active hsource target), h.kept_eq hsource target, List.reverse_append,
    List.append_assoc, hdown]
  unfold arrival
  cases hremembered : e.remembered? source target with
  | some leaf =>
    have hleaf := h.leafInside_of_remembered? hsource hremembered
    exact ⟨hleaf.mem, hleaf.atomic,
      h.wellFormed.pathBetween_append_lineage hleaf.mem hleaf.mem_lineage⟩
  | none =>
    obtain ⟨hmem, hatomic, hlineage⟩ := h.wellFormed.initialLeaf_spec heffective
    exact ⟨hmem, hatomic, hlineage.symm⟩

theorem nodup_arrival {target : StateId} (htarget : target ∈ e.chart) :
    ((e.entered source target).reverse ++ e.kept source target).Nodup := by
  obtain ⟨hmem, -, hlineage⟩ := h.arrival_spec hsource htarget
  rw [hlineage]
  exact h.wellFormed.nodup_lineage hmem

end Transition

/-! ## Steps and runs -/

theorem fire (event : Event) {source : StateId} {t : Transition} (hsource : source ∈ e.active)
    (htarget : t.target ∈ e.chart) : (e.fire event source t).1.Sound := by
  have hdomain := h.domain_active hsource t.target
  obtain ⟨hmem, hatomic, hlineage⟩ := h.arrival_spec hsource htarget
  refine of_lineage (chart_fire event) h.wellFormed hmem hatomic ?_ ?_
  · rw [active_fire event hdomain, hlineage]
  · intro compound leaf hrecord
    rw [history_fire event hdomain] at hrecord
    exact h.leafInside_of_recordAll hsource hrecord

theorem of_receive? {event : Event} {e' : Engine} (hreceive : e.receive? event = some e') :
    e'.Sound := by
  obtain ⟨_, _, rfl, -⟩ := receive?_eq_some hreceive
  exact h.frame rfl rfl rfl

theorem step (event : Event) : (e.step event).1.Sound := by
  rcases step_cases e event with
    ⟨-, -, hstep⟩ | ⟨e', hreceive, ⟨-, _, -, hstep⟩ | ⟨source, t, ht, hstep⟩⟩
  · rw [hstep]
    exact h
  · rw [hstep]
    exact h.of_receive? hreceive
  · obtain ⟨hsource, htarget⟩ := h.target_mem ht
    have he' := h.of_receive? hreceive
    obtain ⟨_, _, rfl, -⟩ := receive?_eq_some hreceive
    rw [hstep]
    exact he'.fire event hsource htarget

theorem run (events : List Event) : (e.run events).1.Sound :=
  run_invariant (P := Sound) (fun _ event h => h.step event) h events

end Sound

theorem sound_start {c : Chart} (hc : c.WellFormed) (journal : Journal Move) :
    (start c journal).Sound := by
  obtain ⟨hmem, hatomic, hlineage⟩ := hc.initialLeaf_spec hc.root_mem
  refine .of_lineage (chart_enterAll none _ _) hc hmem hatomic ?_ ?_
  · rw [hlineage]
    exact active_enterAll none _ _
  · intro compound leaf hrecord
    have hempty : (start c journal).history = .empty := history_enterAll none _ _
    rw [hempty] at hrecord
    cases hrecord

theorem chart_step (e : Engine) (event : Event) : (e.step event).1.chart = e.chart := by
  rcases step_cases e event with
    ⟨-, -, hstep⟩ | ⟨e', hreceive, ⟨-, _, -, hstep⟩ | ⟨source, t, -, hstep⟩⟩
  · rw [hstep]
  · obtain ⟨_, _, rfl, -⟩ := receive?_eq_some hreceive
    rw [hstep]
  · obtain ⟨_, _, rfl, -⟩ := receive?_eq_some hreceive
    rw [hstep, chart_fire]

theorem chart_run (e : Engine) (events : List Event) : (e.run events).1.chart = e.chart :=
  run_invariant (P := fun e' => e'.chart = e.chart)
    (fun e' event h => (chart_step e' event).trans h) rfl events

theorem chart_run_start (c : Chart) (journal : Journal Move) (events : List Event) :
    ((start c journal).run events).1.chart = c :=
  (chart_run _ events).trans (chart_enterAll none _ _)

/-! ## The configuration of a run -/

/-- The states that are looked up in the chart to take a transition: its ends, its domain, those
around both ends, those where it resumes or begins anew, and those left and entered. -/
def consulted (e : Engine) (source target : StateId) : List StateId :=
  let effective := effectiveTarget e.chart target
  target :: effective :: e.domain source target ::
    (e.chart.lineage source ++ e.chart.lineage effective ++ e.chart.initialDescent effective
      ++ ((e.remembered? source target).map e.chart.lineage).getD []
      ++ e.left source target ++ e.entered source target)

theorem Sound.consulted_mem {e : Engine} (h : e.Sound) {source target : StateId}
    (hsource : source ∈ e.active) (htarget : target ∈ e.chart) {id : StateId}
    (hid : id ∈ e.consulted source target) : id ∈ e.chart := by
  have hc := h.wellFormed
  have heffective := hc.effectiveTarget_mem htarget
  obtain ⟨hinitial, -, hdescent⟩ := hc.initialLeaf_spec heffective
  obtain ⟨harrival, -, hlineage⟩ := h.arrival_spec hsource htarget
  simp only [consulted, List.mem_cons, List.mem_append] at hid
  rcases hid with rfl | rfl | rfl | ((((hid | hid) | hid) | hid) | hid) | hid
  · exact htarget
  · exact heffective
  · exact h.mem_of_active (h.domain_active hsource target)
  · exact hc.mem_of_mem_lineage (h.mem_of_active hsource) hid
  · exact hc.mem_of_mem_lineage heffective hid
  · apply hc.mem_of_mem_lineage hinitial
    rw [hdescent]
    exact List.mem_append_left _ (List.mem_reverse.mpr hid)
  · cases hremembered : e.remembered? source target with
    | none => simp [hremembered] at hid
    | some leaf =>
      rw [hremembered, Option.map_some, Option.getD_some] at hid
      exact hc.mem_of_mem_lineage (h.leafInside_of_remembered? hsource hremembered).mem hid
  · apply h.mem_of_active
    rw [← e.left_append_kept source target]
    exact List.mem_append_left _ hid
  · apply hc.mem_of_mem_lineage harrival
    rw [← hlineage]
    exact List.mem_append_left _ (List.mem_reverse.mpr hid)

/-- The active states, outermost first, lead from the root down to a state without children, each a
child of the one before.  Whatever the engine looks up is in the chart, and a transition finds its
domain among the active states. -/
structure Configured (e : Engine) : Prop where
  head_eq_root : e.active.reverse.head? = some Chart.root
  isChain : e.active.reverse.IsChain fun outer inner => inner ∈ e.chart.children outer
  getLast_eq_leaf : e.active.reverse.getLast? = some e.leaf
  leaf_childless : e.chart.children e.leaf = [] ∧ ¬ e.chart.isCompound e.leaf
  active_mem : ∀ id ∈ e.active, id ∈ e.chart
  history_mem : ∀ compound leaf, e.history.resume? compound = some leaf →
    compound ∈ e.chart ∧ leaf ∈ e.chart
  initial_mem : ∀ compound child, e.chart.initial? compound = some child → child ∈ e.chart
  domain_active : ∀ event source t, e.taken? event = some (source, t) →
    e.domain source t.target ∈ e.active
  consulted_mem : ∀ event source t, e.taken? event = some (source, t) →
    ∀ id ∈ e.consulted source t.target, id ∈ e.chart

theorem Sound.configured {e : Engine} (h : e.Sound) : e.Configured where
  head_eq_root := by
    rw [List.head?_reverse, h.active_eq, h.wellFormed.getLast?_lineage h.leaf_mem]
  isChain := by
    rw [List.isChain_reverse, h.active_eq]
    exact (h.wellFormed.isChain_lineage h.leaf_mem).imp
      fun _ _ hparent => h.wellFormed.mem_children_iff.mpr hparent
  getLast_eq_leaf := by
    rw [List.getLast?_reverse, h.active_eq, Chart.head?_lineage]
  leaf_childless := ⟨h.wellFormed.children_eq_nil h.leaf_atomic, h.leaf_atomic⟩
  active_mem _ hid := h.mem_of_active hid
  history_mem _ _ hrecord := by
    have hleaf := h.recorded hrecord
    exact ⟨h.wellFormed.mem_of_mem_lineage hleaf.mem hleaf.mem_lineage, hleaf.mem⟩
  initial_mem _ _ hinitial := Chart.mem_of_parent? (h.wellFormed.parent?_eq_of_initial? hinitial)
  domain_active _ _ t ht := h.domain_active (h.target_mem ht).1 t.target
  consulted_mem _ _ _ ht _ hid := h.consulted_mem (h.target_mem ht).1 (h.target_mem ht).2 hid

/-- After any events, the engine of a chart that is built is `Configured` and its chart is `c`. -/
theorem configured_run {d : ChartDef} {c : Chart} (hd : d.build = .ok c) (journal : Journal Move)
    (events : List Event) :
    ((start c journal).run events).1.chart = c ∧ ((start c journal).run events).1.Configured :=
  ⟨chart_run_start c journal events,
    ((sound_start (ChartDef.wellFormed_of_build hd) journal).run events).configured⟩

def formDefinition : ChartDef where
  initial := "idle"
  states :=
    [(StateDef.atomic "idle").on .click [{ target := "form" }],
      ((StateDef.compound "form" "ask").on .timeout [{ target := "detour" }]).containing
        [(StateDef.atomic "ask").on .endSpeech [{ target := "search" }],
          (StateDef.compound "search" "pending").containing
            [((StateDef.atomic "pending").invoking fun _ => "ada").on .lookupDone
              [{ target := "#form.ask" }]],
          .history "hist"],
      (StateDef.atomic "detour").on .endSpeech [{ target := "form.hist" }]]

theorem configured_run_form :
    formDefinition.build = .ok formDefinition.chart ∧
      ((start formDefinition.chart (.withCapacity 4)).run
        [.click, .endSpeech, .timeout, .endSpeech]).1.active = [⟨5⟩, ⟨4⟩, ⟨2⟩, ⟨0⟩] ∧
      ((start formDefinition.chart (.withCapacity 4)).run
        [.click, .endSpeech, .timeout, .endSpeech]).1.Configured := by
  have hbuild := ChartDef.build_eq_ok (d := formDefinition) rfl
  exact ⟨hbuild, by decide, (configured_run hbuild _ _).2⟩

end Engine

end Dialogue
