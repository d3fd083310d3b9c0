import Dialogue.Proofs.Engine.Passage
/-!
# Transitions into their own source

A transition into a state inside its source moves below the source, which stays as it is: it is
neither left nor entered, and nothing is done on its behalf.  The exception is a transition into the
history state of the source itself.  It leads into the source, so the source is left and entered
anew at the leaf of before, unless it is the root.
-/

namespace Dialogue

namespace Chart

theorem LeadsTo.eq_or_encloses {c : Chart} {source target effective : StateId}
    (hleads : c.LeadsTo target effective) (hinto : c.Encloses source target) :
    effective = source ∨ c.Encloses source effective := by
  cases hleads with
  | plain => exact Or.inr hinto
  | history _ hparent =>
    obtain ⟨outer, houter, hlast⟩ := Relation.TransGen.tail'_iff.mp hinto
    obtain rfl := Option.some.inj (hlast.symm.trans hparent)
    exact Relation.reflTransGen_iff_eq_or_transGen.mp houter

namespace WellFormed

variable {c : Chart} (hc : c.WellFormed)
include hc

theorem isScope_root_self : c.IsScope root root root :=
  .root (hc.not_encloses_self root) fun _ houter =>
    absurd (hc.index_lt_of_encloses houter) (Nat.not_lt_zero _)

theorem encloses_of_isScope_self {source scope : StateId} (hsource : source ∈ c)
    (hne : source ≠ root) (hscope : c.IsScope source source scope) : c.Encloses scope source := by
  cases hscope with
  | source hself => exact hself
  | around _ houter => exact houter
  | root _ hnone =>
    obtain ⟨p, hparent⟩ := hc.exists_parent hsource hne
    exact absurd (.single hparent) (hnone p (.single hparent))

theorem history_of_leadsTo_self {source target : StateId} (hself : c.LeadsTo target source)
    (hinto : c.Encloses source target) : c.isHistory target ∧ c.parent? target = some source := by
  cases hself with
  | plain => exact absurd hinto (hc.not_encloses_self _)
  | history hhistory hparent => exact ⟨hhistory, hparent⟩

end WellFormed

end Chart

namespace Engine

/-- A state that a transition does not touch: it stays active without being left or entered, nothing
is done on its behalf, and what history holds of it stays.  Its lookup stays the one awaited, unless
a state that is entered begins its own. -/
structure Spared (e : Engine) (event : Event) (t : Transition) (p : Passage) (id : StateId) :
    Prop where
  mem_kept : id ∈ p.kept
  not_mem_exited : id ∉ p.exited
  not_mem_entered : id ∉ p.entered
  active_step : id ∈ (e.step event).1.active
  untouched : ∀ deed ∈ e.deeds t p, deed.state? ≠ some id
  history_step : (e.step event).1.history.resume? id = e.history.resume? id
  live_step : ∀ ticket, (e.noted event).lookups.live = some ticket → ticket.state = id →
    (e.step event).1.lookups.live = some ticket ∨ ∃ id' ∈ p.entered, e.chart.invokes id' ∧
      (e.step event).1.lookups.live.map Ticket.state = some id'

/-- A state that a transition leaves and enters again: its lookup is given up, it is written down in
the history, and its entry actions and its lookup run anew.  The leaf is the one of before. -/
structure Reentered (e : Engine) (event : Event) (t : Transition) (p : Passage) (id : StateId) :
    Prop where
  mem_exited : id ∈ p.exited
  mem_entered : id ∈ p.entered
  cancelled : .cancel id ∈ e.deeds t p
  repeated : ∀ deed ∈ e.chart.entryDeeds id, deed ∈ e.deeds t p
  history_step : (e.step event).1.history.resume? id = some e.leaf
  leaf_step : (e.step event).1.leaf = e.leaf

structure Inward (e : Engine) (event : Event) (source : StateId) (t : Transition) (p : Passage) :
    Prop where
  confined : e.Confined event source t p
  spared : (e.chart.LeadsTo t.target source → source = Chart.root) → e.Spared event t p source
  reentered : e.chart.LeadsTo t.target source → source ≠ Chart.root →
    e.Reentered event t p source

section Deeds

variable {e : Engine} {t : Transition} {p : Passage} {id : StateId}

theorem mem_deeds_of_mem_exited (hid : id ∈ p.exited) {deed : Deed}
    (hdeed : deed ∈ e.chart.exitDeeds e.leaf id) : deed ∈ e.deeds t p := by
  simp only [deeds, List.mem_append, List.mem_flatMap]
  exact Or.inl (Or.inr ⟨id, hid, hdeed⟩)

theorem mem_deeds_of_mem_entered (hid : id ∈ p.entered) {deed : Deed}
    (hdeed : deed ∈ e.chart.entryDeeds id) : deed ∈ e.deeds t p := by
  simp only [deeds, List.mem_append, List.mem_flatMap]
  exact Or.inr ⟨id, hid, hdeed⟩

end Deeds

namespace Confined

variable {e : Engine} {event : Event} {source : StateId} {t : Transition} {p : Passage}
  (h : e.Confined event source t p)
include h

theorem spared {id : StateId} (hid : id ∈ p.kept) : e.Spared event t p id where
  mem_kept := hid
  not_mem_exited := (h.kept_disjoint id hid).1
  not_mem_entered := (h.kept_disjoint id hid).2
  active_step := by
    rw [h.active_step]
    exact List.mem_append_right _ hid
  untouched := h.kept_untouched id hid
  history_step := by
    rw [h.history_step, if_neg fun hleft => (h.kept_disjoint id hid).1 hleft.1]
  live_step := by
    rintro ticket hlive rfl
    exact h.live_step ticket hlive hid

theorem effective_eq (hself : e.chart.LeadsTo t.target source) : p.effective = source :=
  ((h.leadsTo_iff source).mp hself).symm

/-- A transition into its source that does not lead back to it, or that leads to the root, moves
inside its source. -/
theorem scope_eq_source (hc : e.chart.WellFormed) (hinto : e.chart.Encloses source t.target)
    (hself : e.chart.LeadsTo t.target source → source = Chart.root) : p.scope = source := by
  have hleads : e.chart.LeadsTo t.target p.effective := (h.leadsTo_iff p.effective).mpr rfl
  refine ((h.isScope_iff source).mp ?_).symm
  rcases hleads.eq_or_encloses hinto with heffective | hbelow
  · rw [heffective] at hleads ⊢
    rw [hself hleads]
    exact hc.isScope_root_self
  · exact .source hbelow

theorem mem_exited_and_entered (hc : e.chart.WellFormed) (hsource : source ∈ e.active)
    (hmem : source ∈ e.chart) (hself : e.chart.LeadsTo t.target source)
    (hne : source ≠ Chart.root) : source ∈ p.exited ∧ source ∈ p.entered := by
  have heffective := h.effective_eq hself
  have hscope := (h.isScope_iff p.scope).mpr rfl
  rw [heffective] at hscope
  have houter := hc.encloses_of_isScope_self hmem hne hscope
  refine ⟨(h.mem_exited_iff source).mpr ⟨hsource, houter⟩,
    (h.mem_entered_iff source).mpr ⟨houter, ?_⟩⟩
  rw [← heffective]
  exact h.leaf_step.imp_left Eq.symm

end Confined

theorem Sound.reentered {e : Engine} (h : e.Sound) {event : Event} {source : StateId}
    {t : Transition} (ht : e.taken? event = some (source, t)) {p : Passage}
    (hconfined : e.Confined event source t p) (hinto : e.chart.Encloses source t.target)
    (hself : e.chart.LeadsTo t.target source) (hne : source ≠ Chart.root) :
    e.Reentered event t p source := by
  have hsource := (h.target_mem ht).1
  obtain ⟨hhistory, hparent⟩ := h.wellFormed.history_of_leadsTo_self hself hinto
  obtain ⟨hexited, hentered⟩ :=
    hconfined.mem_exited_and_entered h.wellFormed hsource (h.mem_of_active hsource) hself hne
  have hrecord : (e.step event).1.history.resume? source = some e.leaf := by
    rw [hconfined.history_step, if_pos ⟨hexited, h.wellFormed.isCompound_of_parent? hparent⟩]
  exact
    { mem_exited := hexited
      mem_entered := hentered
      cancelled := mem_deeds_of_mem_exited hexited List.mem_cons_self
      repeated := fun _ => mem_deeds_of_mem_entered hentered
      history_step := hrecord
      leaf_step := by
        rw [leaf_step_of_isHistory h ht hhistory hparent, hrecord, Option.getD_some] }

theorem Sound.inward {e : Engine} (h : e.Sound) (hroot : ¬ e.chart.isHistory Chart.root)
    {event : Event} {source : StateId} {t : Transition} (ht : e.taken? event = some (source, t))
    (hinto : e.chart.Encloses source t.target) :
    e.Inward event source t (e.passage source t.target) := by
  have hconfined := h.confined hroot ht
  refine ⟨hconfined, fun hself => hconfined.spared ?_, h.reentered ht hconfined hinto⟩
  exact (hconfined.mem_kept_iff source).mpr
    (Or.inl (hconfined.scope_eq_source h.wellFormed hinto hself).symm)

/-- A transition to a target inside its source is `Inward`: the source is `Spared`, unless the
target is its own history state, which makes it `Reentered`.  The root is always spared. -/
theorem inward_run {d : ChartDef} {c : Chart} (hd : d.build = .ok c) (journal : Journal Move)
    (events : List Event) {event : Event} {source : StateId} {t : Transition}
    (ht : ((start c journal).run events).1.taken? event = some (source, t))
    (hinto : c.Encloses source t.target) :
    ((start c journal).run events).1.Inward event source t
      (((start c journal).run events).1.passage source t.target) := by
  refine ((sound_start (ChartDef.wellFormed_of_build hd) journal).run events).inward ?_ ht ?_
  · rw [chart_run_start]
    exact ChartDef.not_isHistory_root_of_build hd
  · rwa [chart_run_start]

def inwardDefinition : ChartDef where
  initial := "form"
  states :=
    [(((StateDef.compound "form" "ask").onEntry [.speak "Form"]).invoking fun _ => "ada")
      |>.on .click [{ target := ".hist" }]
      |>.on .endSpeech [{ target := ".review" }]
      |>.containing
        [(StateDef.atomic "ask").onEntry [.speak "Ask"], .history "hist", .atomic "review"]]

theorem inward_run_form :
    inwardDefinition.build = .ok inwardDefinition.chart ∧
      (start inwardDefinition.chart (.withCapacity 4)).lookups.live = some ⟨⟨1⟩, 1⟩ ∧
      ((start inwardDefinition.chart (.withCapacity 4)).run []).1.Spared .endSpeech
        { target := ⟨4⟩ }
        { effective := ⟨4⟩, scope := ⟨1⟩, exited := [⟨2⟩], kept := [⟨1⟩, ⟨0⟩], entered := [⟨4⟩] }
        ⟨1⟩ ∧
      ((start inwardDefinition.chart (.withCapacity 4)).run [.endSpeech]).1.Reentered .click
        { target := ⟨3⟩ }
        { effective := ⟨1⟩, scope := ⟨0⟩, exited := [⟨4⟩, ⟨1⟩], kept := [⟨0⟩],
          entered := [⟨1⟩, ⟨4⟩] } ⟨1⟩ := by
  have hbuild := ChartDef.build_eq_ok (d := inwardDefinition) rfl
  have hreview : ((start inwardDefinition.chart (.withCapacity 4)).run []).1.taken? .endSpeech =
      some (⟨1⟩, { target := ⟨4⟩ }) := rfl
  have hhist : ((start inwardDefinition.chart (.withCapacity 4)).run [.endSpeech]).1.taken? .click =
      some (⟨1⟩, { target := ⟨3⟩ }) := rfl
  have hplain : inwardDefinition.chart.LeadsTo ⟨4⟩ ⟨4⟩ := .plain (by decide)
  refine ⟨hbuild, by decide, ?_, ?_⟩
  · refine (inward_run hbuild (.withCapacity 4) [] hreview (.single rfl)).spared ?_
    intro hself
    exact absurd (hself.unique hplain) (by decide)
  · exact (inward_run hbuild (.withCapacity 4) [.endSpeech] hhist
      (.single rfl)).reentered (.history rfl rfl) (by decide)

/-- `3` is the history state of the form `1`.  On `click` the form is left at `2` and entered again:
its prompt is spoken twice, and its lookup is begun anew with number `3`. -/
theorem reenters_itself :
    inwardDefinition.build = .ok inwardDefinition.chart ∧
      inwardDefinition.chart.Encloses ⟨1⟩ ⟨3⟩ ∧
      (start inwardDefinition.chart (.withCapacity 4)).taken? .click =
        some (⟨1⟩, { target := ⟨3⟩ }) ∧
      (start inwardDefinition.chart (.withCapacity 4)).lookups.live = some ⟨⟨1⟩, 1⟩ ∧
      .left ⟨1⟩ ⟨2⟩ ∈ (start inwardDefinition.chart (.withCapacity 4)).stepMarks .click ∧
      .entered ⟨1⟩ ∈ (start inwardDefinition.chart (.withCapacity 4)).stepMarks .click ∧
      ((start inwardDefinition.chart (.withCapacity 4)).step .click).2.directives =
        [.speak "Form", .lookup ⟨⟨1⟩, 1⟩ "ada", .speak "Ask",
          .speak "Form", .lookup ⟨⟨1⟩, 3⟩ "ada", .speak "Ask"] ∧
      ((start inwardDefinition.chart (.withCapacity 4)).step .click).1.lookups.live =
        some ⟨⟨1⟩, 3⟩ ∧
      ((start inwardDefinition.chart (.withCapacity 4)).step .click).1.history.resume? ⟨1⟩ =
        some ⟨2⟩ := by
  have hbuild := ChartDef.build_eq_ok (d := inwardDefinition) rfl
  refine ⟨hbuild, .single rfl, rfl, ?_, ?_, ?_, ?_, ?_, ?_⟩ <;> decide

end Engine

end Dialogue
