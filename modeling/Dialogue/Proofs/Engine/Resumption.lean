import Dialogue.Proofs.Engine.Chronicle
/-!
# Resumption

History remembers of each compound state the leaf at which it was left last, and a transition into
a history state leads back to that leaf.
-/

namespace Dialogue.Engine

theorem tracks_history :
    Tracks fun e past => ∀ {compound}, e.chart.isCompound compound →
      e.history.resume? compound = Mark.lastLeft compound past where
  frame h hchart _ hhistory _ := by
    rw [hchart, hhistory]
    exact h
  accept _ h compound hcompound := by
    rw [Mark.lastLeft_append]
    exact h hcompound
  leave {e past domain} _ hdomain h compound hcompound := by
    rw [chart_exitBelow] at hcompound
    rw [Mark.lastLeft_append, leaveMarks, Mark.lastLeft_map_left, exitBelow_eq hdomain,
      History.resume?_recordAll, h hcompound]
    by_cases hleft : compound ∈ e.active.takeWhile fun id => id != domain
    · rw [if_pos ⟨hleft, hcompound⟩, if_pos hleft, Option.some_or]
    · rw [if_neg (fun hboth => hleft hboth.1), if_neg hleft, Option.none_or]
  enter {e past id} event _ h compound hcompound := by
    rw [chart_enter] at hcompound
    have hnone : Mark.lastLeft compound (e.enterMarks id) = none := by
      unfold enterMarks
      split <;> rfl
    rw [history_enter, Mark.lastLeft_append, hnone, Option.none_or]
    exact h hcompound

theorem leaf_fire {e : Engine} (h : e.Sound) (event : Event) {source : StateId} {t : Transition}
    (hsource : source ∈ e.active) (htarget : t.target ∈ e.chart) :
    (e.fire event source t).1.leaf = e.arrival source t.target := by
  have hactive := active_fire event (h.domain_active hsource t.target)
  rw [(h.arrival_spec hsource htarget).2.2] at hactive
  rw [leaf, hactive, Chart.head?_lineage, Option.getD_some]

theorem Sound.leaf_history_step {e : Engine} (h : e.Sound) {event : Event} {source : StateId}
    {t : Transition} (ht : e.taken? event = some (source, t)) :
    (e.step event).1.leaf = e.arrival source t.target ∧
      (e.step event).1.history =
        e.history.recordAll e.chart e.leaf (e.left source t.target) := by
  obtain ⟨hsource, htarget⟩ := h.target_mem ht
  obtain ⟨e', hreceive, hstep⟩ := step_of_taken? ht
  have h' := h.of_receive? hreceive
  obtain ⟨_, _, rfl, -⟩ := receive?_eq_some hreceive
  rw [hstep]
  exact ⟨leaf_fire h' event hsource htarget,
    history_fire event (h'.domain_active hsource t.target)⟩

theorem effectiveTarget_of_isHistory {c : Chart} {target compound : StateId}
    (hhistory : c.isHistory target) (hparent : c.parent? target = some compound) :
    effectiveTarget c target = compound := by
  rw [effectiveTarget, if_pos hhistory, hparent, Option.getD_some]

/-- Where a transition into a history state leads, by what history holds after the step. -/
theorem leaf_step_of_isHistory {e : Engine} (h : e.Sound) {event : Event}
    {source compound : StateId} {t : Transition} (ht : e.taken? event = some (source, t))
    (hhistory : e.chart.isHistory t.target) (hparent : e.chart.parent? t.target = some compound) :
    (e.step event).1.leaf =
      ((e.step event).1.history.resume? compound).getD (e.chart.initialLeaf compound) := by
  obtain ⟨hleaf, hhistories⟩ := h.leaf_history_step ht
  rw [hleaf, hhistories, arrival, remembered?, if_pos hhistory,
    effectiveTarget_of_isHistory hhistory hparent]

theorem Sound.resume?_root {e : Engine} (h : e.Sound) : e.history.resume? Chart.root = none :=
  Option.eq_none_iff_forall_ne_some.mpr fun _ hrecord => (h.recorded hrecord).ne_root rfl

theorem Sound.leaf_of_resume? {e : Engine} (h : e.Sound) {compound leaf : StateId}
    (hrecord : e.history.resume? compound = some leaf) :
    e.chart.isCompound compound ∧ leaf ∈ e.chart ∧ e.chart.children leaf = [] ∧
      leaf ≠ compound ∧ e.chart.contains compound leaf := by
  have hleaf := h.recorded hrecord
  refine ⟨hleaf.isCompound, hleaf.mem, h.wellFormed.children_eq_nil hleaf.atomic, ?_,
    Chart.contains_iff.mpr hleaf.mem_lineage⟩
  rintro rfl
  exact hleaf.atomic hleaf.isCompound

theorem active_reverse_of_leaf_eq {e : Engine} (h : e.Sound)
    (hleaf : e.leaf = e.chart.initialLeaf Chart.root) :
    e.active.reverse = Chart.root :: e.chart.initialDescent Chart.root := by
  rw [h.active_eq, hleaf, (h.wellFormed.initialLeaf_spec h.wellFormed.root_mem).2.2,
    Chart.lineage_root, List.reverse_append, List.reverse_reverse, List.reverse_singleton,
    List.singleton_append]

theorem resume?_run {d : ChartDef} {c : Chart} (hd : d.build = .ok c) (journal : Journal Move)
    (events : List Event) {compound : StateId} (hcompound : c.isCompound compound) :
    ((start c journal).run events).1.history.resume? compound =
      Mark.lastLeft compound (chronicle c journal events) := by
  refine tracks_history.chronicle (ChartDef.wellFormed_of_build hd) (fun {_} _ => rfl) events ?_
  rwa [chart_run_start]

/-- History holds for a compound state the leaf at which it was left last, as the chronicle tells.
A transition to a history state ends at that leaf, exits by the transition itself included, and at
`initialLeaf` if there is none; in the root it ends where a dialogue begins. -/
theorem resumption_run {d : ChartDef} {c : Chart} (hd : d.build = .ok c) (journal : Journal Move)
    (events : List Event) :
    (∀ compound, c.isCompound compound →
        ((start c journal).run events).1.history.resume? compound =
          Mark.lastLeft compound (chronicle c journal events)) ∧
      (∀ compound leaf,
        ((start c journal).run events).1.history.resume? compound = some leaf →
          c.isCompound compound ∧ leaf ∈ c ∧ c.children leaf = [] ∧ leaf ≠ compound ∧
            c.contains compound leaf) ∧
      ∀ event source t compound,
        ((start c journal).run events).1.taken? event = some (source, t) →
          c.isHistory t.target → c.parent? t.target = some compound →
            (compound ≠ Chart.root →
              ((start c journal).run (events ++ [event])).1.leaf =
                (Mark.lastLeft compound (chronicle c journal (events ++ [event]))).getD
                  (c.initialLeaf compound)) ∧
            (compound = Chart.root →
              ((start c journal).run (events ++ [event])).1.active.reverse =
                Chart.root :: c.initialDescent Chart.root) := by
  have hc := ChartDef.wellFormed_of_build hd
  have hsound : ∀ events, ((start c journal).run events).1.Sound := (sound_start hc journal).run
  refine ⟨fun compound => resume?_run hd journal events, ?_, ?_⟩
  · intro compound leaf hrecord
    have hleaf := (hsound events).leaf_of_resume? hrecord
    rwa [chart_run_start] at hleaf
  · intro event source t compound ht hhistory hparent
    have hrun : ((start c journal).run (events ++ [event])).1 =
        (((start c journal).run events).1.step event).1 := run_append _ events [event]
    have hleaf := leaf_step_of_isHistory (hsound events) ht
      (by rwa [chart_run_start]) (by rwa [chart_run_start])
    rw [← hrun, chart_run_start] at hleaf
    constructor
    · intro _
      rw [hleaf, resume?_run hd journal _ (hc.isCompound_of_parent? hparent)]
    · rintro rfl
      rw [(hsound _).resume?_root, Option.getD_none] at hleaf
      have hactive := active_reverse_of_leaf_eq (hsound (events ++ [event]))
      rw [chart_run_start] at hactive
      exact hactive hleaf

theorem resumption_run_form :
    formDefinition.build = .ok formDefinition.chart ∧
      ∃ source t, ((start formDefinition.chart (.withCapacity 4)).run
          [.click, .endSpeech, .timeout]).1.taken? .endSpeech = some (source, t) ∧
        formDefinition.chart.isHistory t.target ∧ formDefinition.chart.parent? t.target = some ⟨2⟩ ∧
        Mark.lastLeft ⟨2⟩ (chronicle formDefinition.chart (.withCapacity 4)
          [.click, .endSpeech, .timeout, .endSpeech]) = some ⟨5⟩ ∧
        ((start formDefinition.chart (.withCapacity 4)).run
          [.click, .endSpeech, .timeout, .endSpeech]).1.leaf = ⟨5⟩ := by
  have hbuild := ChartDef.build_eq_ok (d := formDefinition) rfl
  have hlast : Mark.lastLeft ⟨2⟩ (chronicle formDefinition.chart (.withCapacity 4)
      [.click, .endSpeech, .timeout, .endSpeech]) = some ⟨5⟩ := by decide
  refine ⟨hbuild, ⟨7⟩, _, rfl, by decide, by decide, hlast, ?_⟩
  have hleaf := ((resumption_run hbuild (.withCapacity 4)
    [.click, .endSpeech, .timeout]).2.2 .endSpeech ⟨7⟩ _ ⟨2⟩ rfl (by decide) (by decide)).1
    (by decide)
  exact hleaf.trans (congrArg (Option.getD · _) hlast)

end Dialogue.Engine
