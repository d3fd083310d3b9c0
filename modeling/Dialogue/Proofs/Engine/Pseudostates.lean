import Dialogue.Proofs.Engine.Passage
/-!
# Where an engine rests

A history state only stands for other states: a transition into one leads into the state around it.
So an engine rests in an atomic state, unless it walks down into a compound state that names a
history state as the one to enter first.  That is the one way in which a history state gets active,
is entered, or is written down as a leaf to resume.
-/

namespace Dialogue

/-! ## Leaves of a chart -/

namespace Chart

def IsInitial (c : Chart) (id : StateId) : Prop :=
  ∃ compound, c.initial? compound = some id

def EntersPlain (c : Chart) : Prop :=
  ∀ id, c.IsInitial id → ¬ c.isHistory id

instance (c : Chart) : Decidable c.EntersPlain :=
  decidable_of_iff (∀ i < c.nodes.size, ∀ child ∈ c.initial? ⟨i⟩, ¬ c.isHistory child) <| by
    constructor
    · rintro h child ⟨compound, hinitial⟩
      obtain ⟨n, hn, -⟩ := Option.bind_eq_some_iff.mp hinitial
      exact h compound.index (mem_iff_exists_node?.mpr ⟨n, hn⟩) child hinitial
    · exact fun h i _ child hinitial => h child ⟨⟨i⟩, hinitial⟩

section Kinds

variable {c : Chart} {id : StateId}

theorem not_isHistory_of_isCompound (h : c.isCompound id) : ¬ c.isHistory id := by
  unfold isCompound at h
  unfold isHistory
  cases hn : c.node? id with
  | none => simp
  | some n =>
    rw [hn, Option.any_some, Node.isCompound] at h
    rw [Option.any_some, Node.isHistory, decide_eq_true_iff]
    intro hkind
    simp [hkind] at h

theorem kind_eq_atomic (hid : id ∈ c) (hcompound : ¬ c.isCompound id)
    (hhistory : ¬ c.isHistory id) : (c.node? id).map Node.kind = some .atomic := by
  obtain ⟨n, hn⟩ := mem_iff_exists_node?.mp hid
  rw [isCompound_iff_kind hn] at hcompound
  rw [isHistory, hn, Option.any_some, Node.isHistory, decide_eq_true_iff] at hhistory
  rw [hn, Option.map_some]
  cases hkind : n.kind with
  | atomic => rfl
  | compound child => exact absurd ⟨child, hkind⟩ hcompound
  | history => exact absurd hkind hhistory

theorem isInitial_of_mem_descend {bound : Nat} {outer : StateId} (h : id ∈ c.descend bound outer) :
    c.IsInitial id := by
  induction bound generalizing outer with
  | zero => cases h
  | succ bound ih =>
    rw [descend] at h
    split at h
    · cases h
    · next child hchild =>
      rcases List.mem_cons.mp h with rfl | h
      · exact ⟨outer, hchild⟩
      · exact ih h

/-- From a state that is not a history state, the walk down ends in one only if it is entered
first. -/
theorem isInitial_initialLeaf (hplain : ¬ c.isHistory id)
    (hhistory : c.isHistory (c.initialLeaf id)) : c.IsInitial (c.initialLeaf id) := by
  unfold initialLeaf at hhistory ⊢
  cases hlast : (c.initialDescent id).getLast? with
  | none =>
    rw [hlast, Option.getD_none] at hhistory
    exact absurd hhistory hplain
  | some leaf => exact isInitial_of_mem_descend (List.mem_of_getLast? hlast)

end Kinds

namespace WellFormed

variable {c : Chart} (hc : c.WellFormed) {id : StateId}
include hc

theorem isCompound_of_encloses {outer inner : StateId} (h : c.Encloses outer inner) :
    c.isCompound outer := by
  obtain ⟨child, hparent, -⟩ := Relation.TransGen.head'_iff.mp h
  exact hc.isCompound_of_parent? hparent

theorem initialLeaf_of_isHistory {child : StateId} (hinitial : c.initial? id = some child)
    (hhistory : c.isHistory child) : c.initialLeaf id = child := by
  have hnone : c.initial? child = none := by
    rw [Option.eq_none_iff_forall_ne_some]
    intro next hnext
    exact not_isHistory_of_isCompound (isCompound_iff_initial?.mpr ⟨next, hnext⟩) hhistory
  obtain ⟨bound, hbound⟩ := Nat.exists_eq_succ_of_ne_zero (Nat.ne_of_gt
    (Nat.zero_lt_of_lt (mem_def.mp hc.root_mem)))
  have hdescent : c.initialDescent id = [child] := by
    rw [initialDescent, hbound, descend, hinitial]
    cases bound <;> simp [descend, hnone]
  rw [initialLeaf, hdescent, List.getLast?_singleton, Option.getD_some]

theorem not_isHistory_effectiveTarget (hroot : ¬ c.isHistory root) {target : StateId}
    (htarget : target ∈ c) : ¬ c.isHistory (Engine.effectiveTarget c target) := by
  have hleads := Engine.leadsTo_effectiveTarget hc hroot htarget
  generalize Engine.effectiveTarget c target = effective at hleads
  cases hleads with
  | plain hplain => exact hplain
  | history _ hparent => exact not_isHistory_of_isCompound (hc.isCompound_of_parent? hparent)

end WellFormed

end Chart

namespace Engine

/-! ## Leaves of an engine -/

def RestsAt (e : Engine) (leaf : StateId) : Prop :=
  e.leaf = leaf ∨ ∃ compound, e.history.resume? compound = some leaf

theorem restsAt_of_recordAll {e : Engine} {ids : List StateId} {compound leaf : StateId}
    (h : (e.history.recordAll e.chart e.leaf ids).resume? compound = some leaf) :
    e.RestsAt leaf := by
  rw [History.resume?_recordAll] at h
  split at h
  · exact Or.inl (Option.some.inj h)
  · exact Or.inr ⟨compound, h⟩

namespace Sound

variable {e : Engine} (h : e.Sound)
include h

theorem restsAt_fire (event : Event) {source : StateId} {t : Transition}
    (hsource : source ∈ e.active) (htarget : t.target ∈ e.chart) {leaf : StateId}
    (hleaf : (e.fire event source t).1.RestsAt leaf) :
    e.RestsAt leaf ∨ leaf = e.chart.initialLeaf (effectiveTarget e.chart t.target) := by
  rcases hleaf with hleaf | ⟨compound, hrecord⟩
  · rw [leaf_fire h event hsource htarget, arrival] at hleaf
    cases hremembered : e.remembered? source t.target with
    | none => exact Or.inr (by rw [← hleaf, hremembered, Option.getD_none])
    | some resumed =>
      rw [hremembered, Option.getD_some] at hleaf
      subst hleaf
      unfold remembered? at hremembered
      split at hremembered
      · exact Or.inl (restsAt_of_recordAll hremembered)
      · cases hremembered
  · rw [history_fire event (h.domain_active hsource t.target)] at hrecord
    exact Or.inl (restsAt_of_recordAll hrecord)

theorem isCompound_of_active {id : StateId} (hid : id ∈ e.active) (hne : id ≠ e.leaf) :
    e.chart.isCompound id := by
  rw [h.active_eq, h.wellFormed.mem_lineage_iff h.leaf_mem] at hid
  exact h.wellFormed.isCompound_of_encloses (hid.resolve_left hne)

theorem eq_leaf_of_isHistory {id : StateId} (hid : id ∈ e.active)
    (hhistory : e.chart.isHistory id) : id = e.leaf := by
  by_contra hne
  exact Chart.not_isHistory_of_isCompound (h.isCompound_of_active hid hne) hhistory

end Sound

/-- A history state at which an engine rests is one that a compound state enters first. -/
structure Settled (e : Engine) : Prop where
  sound : e.Sound
  root_plain : ¬ e.chart.isHistory Chart.root
  isInitial : ∀ {leaf}, e.RestsAt leaf → e.chart.isHistory leaf → e.chart.IsInitial leaf

namespace Settled

variable {e : Engine} (h : e.Settled)
include h

theorem of_receive? {event : Event} {e' : Engine} (hreceive : e.receive? event = some e') :
    e'.Settled := by
  have hsound := h.sound.of_receive? hreceive
  obtain ⟨_, _, rfl, -⟩ := receive?_eq_some hreceive
  exact ⟨hsound, h.root_plain, h.isInitial⟩

theorem fire (event : Event) {source : StateId} {t : Transition} (hsource : source ∈ e.active)
    (htarget : t.target ∈ e.chart) : (e.fire event source t).1.Settled where
  sound := h.sound.fire event hsource htarget
  root_plain := by
    rw [chart_fire]
    exact h.root_plain
  isInitial := by
    intro leaf hleaf hhistory
    rw [chart_fire] at hhistory ⊢
    rcases h.sound.restsAt_fire event hsource htarget hleaf with hbefore | rfl
    · exact h.isInitial hbefore hhistory
    · have hplain := h.sound.wellFormed.not_isHistory_effectiveTarget h.root_plain htarget
      exact Chart.isInitial_initialLeaf hplain hhistory

theorem step (event : Event) : (e.step event).1.Settled := by
  rcases step_cases e event with
    ⟨-, -, hstep⟩ | ⟨e', hreceive, ⟨-, _, -, hstep⟩ | ⟨source, t, ht, hstep⟩⟩
  · rw [hstep]
    exact h
  · rw [hstep]
    exact h.of_receive? hreceive
  · obtain ⟨hsource, htarget⟩ := h.sound.target_mem ht
    have h' := h.of_receive? hreceive
    obtain ⟨_, _, rfl, -⟩ := receive?_eq_some hreceive
    rw [hstep]
    exact h'.fire event hsource htarget

theorem run (events : List Event) : (e.run events).1.Settled :=
  run_invariant (P := Settled) (fun _ event h => h.step event) h events

end Settled

theorem leaf_start {c : Chart} (hc : c.WellFormed) (journal : Journal Move) :
    (start c journal).leaf = c.initialLeaf Chart.root := by
  have hactive : (start c journal).active = c.lineage (c.initialLeaf Chart.root) := by
    rw [(hc.initialLeaf_spec hc.root_mem).2.2]
    exact active_enterAll none _ _
  rw [leaf, hactive, Chart.head?_lineage, Option.getD_some]

theorem settled_start {c : Chart} (hc : c.WellFormed) (hroot : ¬ c.isHistory Chart.root)
    (journal : Journal Move) : (start c journal).Settled := by
  have hchart : (start c journal).chart = c := chart_enterAll none _ _
  have hempty : (start c journal).history = .empty := history_enterAll none _ _
  refine ⟨sound_start hc journal, by rwa [hchart], ?_⟩
  rw [hchart]
  rintro leaf (heq | ⟨compound, hrecord⟩) hhistory
  · rw [← heq, leaf_start hc] at hhistory ⊢
    exact Chart.isInitial_initialLeaf hroot hhistory
  · rw [hempty] at hrecord
    cases hrecord

/-! ## Entered states -/

theorem mem_of_entered_mem_enterAllMarks {event : Option Event} {e : Engine}
    {ids : List StateId} {id : StateId} (h : .entered id ∈ enterAllMarks event e ids) :
    id ∈ ids := by
  induction ids generalizing e with
  | nil => cases h
  | cons first ids ih =>
    rw [enterAllMarks, List.mem_append, enterMarks, List.mem_cons] at h
    rcases h with (heq | hissued) | hrest
    · rw [Mark.entered.inj heq]
      exact List.mem_cons_self
    · split at hissued <;> simp at hissued
    · exact List.mem_cons_of_mem _ (ih hrest)

theorem Sound.active_of_entered_fire {e : Engine} (h : e.Sound) {event : Event}
    {source : StateId} {t : Transition} (hsource : source ∈ e.active) {id : StateId}
    (hentered : .entered id ∈ e.fireMarks event source t) :
    id ∈ (e.fire event source t).1.active := by
  rw [active_fire event (h.domain_active hsource t.target), List.mem_append, List.mem_reverse]
  simp only [fireMarks, List.mem_append, leaveMarks, List.mem_map] at hentered
  rcases hentered with ⟨_, -, heq⟩ | hentered
  · cases heq
  · have hcongr : (e.perform (some event) t.actions).entered source t.target =
        e.entered source t.target := by apply entered_congr <;> rfl
    rw [hcongr] at hentered
    exact Or.inl (mem_of_entered_mem_enterAllMarks hentered)

theorem Sound.active_of_entered {e : Engine} (h : e.Sound) {event : Event} {id : StateId}
    (hentered : .entered id ∈ e.stepMarks event) : id ∈ (e.step event).1.active := by
  have hreceived : Mark.entered id ∉ receiveMarks event := by cases event <;> simp [receiveMarks]
  rcases step_cases e event with
    ⟨hstale, -, -⟩ | ⟨e', hreceive, ⟨ht, -⟩ | ⟨source, t, ht, hstep⟩⟩
  · simp [stepMarks, hstale] at hentered
  · simp [stepMarks, hreceive, ht, hreceived] at hentered
  · simp only [stepMarks, hreceive, ht, List.mem_append, hreceived, false_or] at hentered
    have hsource := (h.target_mem ht).1
    have h' := h.of_receive? hreceive
    obtain ⟨_, _, rfl, -⟩ := receive?_eq_some hreceive
    rw [hstep]
    exact h'.active_of_entered_fire hsource hentered

theorem mem_runMarks {e : Engine} {events : List Event} {mark : Mark}
    (h : mark ∈ e.runMarks events) :
    ∃ past event, past ++ [event] <+: events ∧ mark ∈ (e.run past).1.stepMarks event := by
  induction events generalizing e with
  | nil => cases h
  | cons first events ih =>
    rw [runMarks, List.mem_append] at h
    rcases h with h | h
    · exact ⟨[], first, List.prefix_append [first] events, h⟩
    · obtain ⟨past, event, hprefix, hmark⟩ := ih h
      exact ⟨first :: past, event, List.cons_prefix_cons.mpr ⟨rfl, hprefix⟩, hmark⟩

theorem exists_active_of_entered {c : Chart} (hc : c.WellFormed) {journal : Journal Move}
    {events : List Event} {id : StateId} (h : .entered id ∈ chronicle c journal events) :
    ∃ past, past <+: events ∧ id ∈ ((start c journal).run past).1.active := by
  rw [chronicle, List.mem_append] at h
  rcases h with h | h
  · refine ⟨[], List.nil_prefix, ?_⟩
    have hactive : ((start c journal).run []).1.active =
        (c.initialDescent Chart.root).reverse ++ [Chart.root] := active_enterAll none _ _
    rw [hactive, List.mem_append, List.mem_reverse]
    exact Or.inl (mem_of_entered_mem_enterAllMarks h)
  · obtain ⟨past, event, hprefix, hmark⟩ := mem_runMarks h
    refine ⟨past ++ [event], hprefix, ?_⟩
    rw [run_append]
    exact ((sound_start hc journal).run past).active_of_entered hmark

/-! ## Runs -/

theorem Sound.leaf_step_of_initial?_isHistory {e : Engine} (h : e.Sound) {event : Event}
    {source child : StateId} {t : Transition} (ht : e.taken? event = some (source, t))
    (hinitial : e.chart.initial? t.target = some child) (hchild : e.chart.isHistory child) :
    (e.step event).1.leaf = child := by
  have hplain : ¬ e.chart.isHistory t.target :=
    Chart.not_isHistory_of_isCompound (Chart.isCompound_iff_initial?.mpr ⟨child, hinitial⟩)
  rw [(h.leaf_history_step ht).1, arrival, remembered?, if_neg hplain, Option.getD_none,
    effectiveTarget, if_neg hplain]
  exact h.wellFormed.initialLeaf_of_isHistory hinitial hchild

/-- Whether a state has a part in a dialogue: it is active, has been entered, or is written down as
a leaf to resume. -/
def Involves (c : Chart) (journal : Journal Move) (events : List Event) (id : StateId) : Prop :=
  id ∈ ((start c journal).run events).1.active ∨ .entered id ∈ chronicle c journal events ∨
    ∃ compound, ((start c journal).run events).1.history.resume? compound = some id

theorem settled_run {d : ChartDef} {c : Chart} (hd : d.build = .ok c) (journal : Journal Move)
    (events : List Event) : ((start c journal).run events).1.Settled :=
  (settled_start (ChartDef.wellFormed_of_build hd) (ChartDef.not_isHistory_root_of_build hd)
    journal).run events

theorem isInitial_of_involves {d : ChartDef} {c : Chart} (hd : d.build = .ok c)
    {journal : Journal Move} {events : List Event} {id : StateId} (hhistory : c.isHistory id)
    (h : Involves c journal events id) : c.IsInitial id := by
  have hsettled : ∀ past, ((start c journal).run past).1.RestsAt id → c.IsInitial id := by
    intro past hrests
    have hinitial := (settled_run hd journal past).isInitial hrests (by rwa [chart_run_start])
    rwa [chart_run_start] at hinitial
  have hactive : ∀ past, id ∈ ((start c journal).run past).1.active → c.IsInitial id := by
    intro past hid
    have hleaf := (settled_run hd journal past).sound.eq_leaf_of_isHistory hid
      (by rwa [chart_run_start])
    exact hsettled past (Or.inl hleaf.symm)
  rcases h with hid | hentered | hrecord
  · exact hactive events hid
  · obtain ⟨past, -, hid⟩ := exists_active_of_entered (ChartDef.wellFormed_of_build hd) hentered
    exact hactive past hid
  · exact hsettled events (Or.inr hrecord)

/-- The states around the leaf are compound, and the leaf is atomic or a history state.  A history
state that is active, entered or remembered is `IsInitial`, and a transition into a state with such
an initial child ends in it.  In a chart that `EntersPlain` the leaf is atomic and no history state
is involved. -/
theorem pseudostates_run {d : ChartDef} {c : Chart} (hd : d.build = .ok c) (journal : Journal Move)
    (events : List Event) :
    (∀ id ∈ ((start c journal).run events).1.active,
        id ≠ ((start c journal).run events).1.leaf → c.isCompound id) ∧
      ((c.node? ((start c journal).run events).1.leaf).map Node.kind = some .atomic ∨
        c.isHistory ((start c journal).run events).1.leaf) ∧
      (∀ id, c.isHistory id → Involves c journal events id → c.IsInitial id) ∧
      (∀ event source t child,
        ((start c journal).run events).1.taken? event = some (source, t) →
          c.initial? t.target = some child → c.isHistory child →
            ((start c journal).run (events ++ [event])).1.leaf = child) ∧
      (c.EntersPlain →
        (c.node? ((start c journal).run events).1.leaf).map Node.kind = some .atomic ∧
          ∀ id, c.isHistory id → ¬ Involves c journal events id) := by
  have hsound := (settled_run hd journal events).sound
  have hchart := chart_run_start c journal events
  have hkind : (c.node? ((start c journal).run events).1.leaf).map Node.kind = some .atomic ∨
      c.isHistory ((start c journal).run events).1.leaf := by
    refine or_iff_not_imp_right.mpr fun hplain => ?_
    have hmem := hsound.leaf_mem
    have hatomic := hsound.leaf_atomic
    rw [hchart] at hmem hatomic
    exact Chart.kind_eq_atomic hmem hatomic hplain
  refine ⟨?_, hkind, fun id => isInitial_of_involves hd, ?_, ?_⟩
  · intro id hid hne
    have hcompound := hsound.isCompound_of_active hid hne
    rwa [hchart] at hcompound
  · intro event source t child ht hinitial hchild
    rw [run_append]
    exact hsound.leaf_step_of_initial?_isHistory ht (by rwa [hchart]) (by rwa [hchart])
  · intro hplain
    have hout : ∀ id, c.isHistory id → ¬ Involves c journal events id :=
      fun id hhistory hinvolves => hplain id (isInitial_of_involves hd hhistory hinvolves) hhistory
    refine ⟨hkind.resolve_right fun hhistory => hout _ hhistory (Or.inl ?_), hout⟩
    rw [hsound.active_eq]
    exact Chart.self_mem_lineage _ _

def circularDefinition : ChartDef where
  initial := "idle"
  states :=
    [(StateDef.atomic "idle").on .click [{ target := "form" }],
      ((StateDef.compound "form" "hist").on .timeout [{ target := "detour" }]).containing
        [.history "hist", .atomic "ask"],
      (StateDef.atomic "detour").on .endSpeech [{ target := "form.hist" }]]

theorem pseudostates_run_form :
    formDefinition.build = .ok formDefinition.chart ∧ formDefinition.chart.isHistory ⟨6⟩ ∧
      ¬ Involves formDefinition.chart (.withCapacity 4)
        [.click, .endSpeech, .timeout, .endSpeech] ⟨6⟩ ∧
      circularDefinition.build = .ok circularDefinition.chart ∧
      ((start circularDefinition.chart (.withCapacity 4)).run [.click]).1.leaf = ⟨3⟩ := by
  have hbuild := ChartDef.build_eq_ok (d := formDefinition) rfl
  have hbuild' := ChartDef.build_eq_ok (d := circularDefinition) rfl
  have hhistory : formDefinition.chart.isHistory ⟨6⟩ := by decide
  refine ⟨hbuild, hhistory, ?_, hbuild', ?_⟩
  · exact ((pseudostates_run hbuild (.withCapacity 4)
      [.click, .endSpeech, .timeout, .endSpeech]).2.2.2.2 (by decide)).2 _ hhistory
  · exact (pseudostates_run hbuild' (.withCapacity 4) []).2.2.2.1 .click ⟨1⟩
      { target := ⟨2⟩ } ⟨3⟩ rfl (by decide) (by decide)

/-- The history state `3` is the initial child of `2`: it is active after `click`, remembered after
`timeout`, and resumed after `endSpeech`. -/
theorem settles_in_history :
    circularDefinition.build = .ok circularDefinition.chart ∧
      circularDefinition.chart.isHistory ⟨3⟩ ∧
      ((start circularDefinition.chart (.withCapacity 4)).run [.click]).1.active = [⟨3⟩, ⟨2⟩, ⟨0⟩] ∧
      .entered ⟨3⟩ ∈ chronicle circularDefinition.chart (.withCapacity 4) [.click] ∧
      ((start circularDefinition.chart (.withCapacity 4)).run
        [.click, .timeout]).1.history.resume? ⟨2⟩ = some ⟨3⟩ ∧
      ((start circularDefinition.chart (.withCapacity 4)).run
        [.click, .timeout, .endSpeech]).1.leaf = ⟨3⟩ := by
  have hbuild := ChartDef.build_eq_ok (d := circularDefinition) rfl
  refine ⟨hbuild, ?_, ?_, ?_, ?_, ?_⟩ <;> decide

end Engine

end Dialogue
