import Dialogue.Proofs.Chart.Scope
import Dialogue.Proofs.Engine.Resumption
import Dialogue.Proofs.Engine.Tickets
/-!
# What a transition does

A transition leaves the active states inside its scope, keeps the scope and the states around it,
and enters the states inside the scope down to the new leaf.  Told deed by deed, its own actions run
first, what is left gives up its lookups and is written down in the history, and each state that is
entered runs its entry actions and then begins its lookup.  Nothing else happens, and no deed
concerns a state that is kept.
-/

namespace Dialogue

/-- One thing that an engine does while it takes a transition, besides moving between states.  An
action is one of the transition's own, or an entry action of a state. -/
inductive Deed where
  | act (owner : Option StateId) (action : Action)
  | cancel (id : StateId)
  | record (id leaf : StateId)
  | ask (id : StateId) (subject : Context → String)

def Deed.state? : Deed → Option StateId
  | act owner _ => owner
  | cancel id => some id
  | record id _ => some id
  | ask id _ => some id

namespace Chart

def exitDeeds (c : Chart) (leaf id : StateId) : List Deed :=
  .cancel id :: if c.isCompound id then [.record id leaf] else []

def entryDeeds (c : Chart) (id : StateId) : List Deed :=
  match c.node? id with
  | none => []
  | some n => n.entry.map (.act id) ++ (n.invoke.map (.ask id)).toList

theorem state?_of_mem_exitDeeds {c : Chart} {leaf id : StateId} {deed : Deed}
    (h : deed ∈ c.exitDeeds leaf id) : deed.state? = some id := by
  rcases List.mem_cons.mp h with rfl | h
  · rfl
  · split at h
    · rw [List.mem_singleton.mp h]
      rfl
    · cases h

theorem state?_of_mem_entryDeeds {c : Chart} {id : StateId} {deed : Deed}
    (h : deed ∈ c.entryDeeds id) : deed.state? = some id := by
  unfold entryDeeds at h
  split at h
  · cases h
  · rcases List.mem_append.mp h with h | h
    · obtain ⟨action, -, rfl⟩ := List.mem_map.mp h
      rfl
    · obtain ⟨subject, -, rfl⟩ := Option.map_eq_some_iff.mp (Option.mem_toList.mp h)
      rfl

end Chart

/-- Where a transition leads, the state inside which it moves, the active states that it leaves and
keeps, innermost first, and the states that it enters, outermost first. -/
structure Passage where
  effective : StateId
  scope : StateId
  exited : List StateId
  kept : List StateId
  entered : List StateId
  deriving DecidableEq, Repr

namespace Lookups

def startAll (l : Lookups) (invokes : StateId → Bool) (ids : List StateId) : Lookups :=
  ids.foldl (fun l id => if invokes id then l.start id else l) l

theorem startAll_cons (l : Lookups) (invokes : StateId → Bool) (id : StateId)
    (ids : List StateId) :
    l.startAll invokes (id :: ids) =
      (if invokes id then l.start id else l).startAll invokes ids := rfl

theorem live_startAll (l : Lookups) (invokes : StateId → Bool) (ids : List StateId) :
    (l.startAll invokes ids).live = l.live ∨
      ∃ id ∈ ids, invokes id ∧ (l.startAll invokes ids).live.map Ticket.state = some id := by
  induction ids generalizing l with
  | nil => exact Or.inl rfl
  | cons id ids ih =>
    rw [startAll_cons]
    rcases ih (if invokes id then l.start id else l) with hlive | ⟨id', hid', hinvokes, hlive⟩
    · by_cases hid : invokes id
      · rw [if_pos hid] at hlive ⊢
        exact Or.inr ⟨id, List.mem_cons_self, hid, by rw [hlive]; rfl⟩
      · rw [if_neg hid] at hlive ⊢
        exact Or.inl hlive
    · exact Or.inr ⟨id', List.mem_cons_of_mem _ hid', hinvokes, hlive⟩

end Lookups

namespace Engine

/-! ## Deeds -/

def carryOut (event : Option Event) (e : Engine) : Deed → Engine
  | .act _ action =>
    { e with
      context := (action.run event e.context).1
      pending := e.pending ++ (action.run event e.context).2 }
  | .cancel id => { e with lookups := e.lookups.cancel id }
  | .record id leaf => { e with history := e.history.record id leaf }
  | .ask id subject =>
    { e with
      lookups := e.lookups.start id
      pending := e.pending ++ [.lookup (e.lookups.nextTicket id) (subject e.context)] }

def carryOutAll (event : Option Event) (e : Engine) (deeds : List Deed) : Engine :=
  deeds.foldl (carryOut event) e

def deeds (e : Engine) (t : Transition) (p : Passage) : List Deed :=
  t.actions.map (.act none) ++ p.exited.flatMap (e.chart.exitDeeds e.leaf)
    ++ p.entered.flatMap e.chart.entryDeeds

theorem state?_of_mem_deeds {e : Engine} {t : Transition} {p : Passage} {deed : Deed}
    {id : StateId} (h : deed ∈ e.deeds t p) (hid : deed.state? = some id) :
    id ∈ p.exited ∨ id ∈ p.entered := by
  simp only [deeds, List.mem_append, List.mem_map, List.mem_flatMap] at h
  rcases h with (⟨action, -, rfl⟩ | ⟨exited, hexited, h⟩) | ⟨entered, hentered, h⟩
  · cases hid
  · obtain rfl := Option.some.inj (hid.symm.trans (Chart.state?_of_mem_exitDeeds h))
    exact Or.inl hexited
  · obtain rfl := Option.some.inj (hid.symm.trans (Chart.state?_of_mem_entryDeeds h))
    exact Or.inr hentered

section Deeds

variable (event : Option Event) (e : Engine)

theorem carryOutAll_append (deeds deeds' : List Deed) :
    e.carryOutAll event (deeds ++ deeds') =
      (e.carryOutAll event deeds).carryOutAll event deeds' :=
  List.foldl_append

@[simp] theorem chart_carryOutAll (deeds : List Deed) :
    (e.carryOutAll event deeds).chart = e.chart := by
  induction deeds generalizing e with
  | nil => rfl
  | cons deed deeds ih =>
    rw [carryOutAll, List.foldl_cons, ← carryOutAll, ih]
    cases deed <;> rfl

/-- No deed looks at the active states. -/
theorem carryOutAll_active (deeds : List Deed) (active : List StateId) :
    ({ e with active } : Engine).carryOutAll event deeds =
      { e.carryOutAll event deeds with active } := by
  induction deeds generalizing e with
  | nil => rfl
  | cons deed deeds ih =>
    have hdeed : ({ e with active } : Engine).carryOut event deed =
        { e.carryOut event deed with active } := by cases deed <;> rfl
    simp only [carryOutAll, List.foldl_cons] at ih ⊢
    rw [hdeed, ih]

theorem perform_eq (owner : Option StateId) (actions : List Action) :
    e.perform event actions = e.carryOutAll event (actions.map (.act owner)) := by
  induction actions generalizing e with
  | nil => simp [perform, Action.runAll, carryOutAll]
  | cons action actions ih =>
    rw [List.map_cons, carryOutAll, List.foldl_cons, ← carryOutAll, ← ih]
    simp [perform, Action.runAll, carryOut]

theorem foldl_leave_eq (leaf : StateId) (ids : List StateId) :
    ids.foldl (leave leaf) e = e.carryOutAll event (ids.flatMap (e.chart.exitDeeds leaf)) := by
  induction ids generalizing e with
  | nil => rfl
  | cons id ids ih =>
    have hleave : leave leaf e id = e.carryOutAll event (e.chart.exitDeeds leaf id) := by
      unfold leave Chart.exitDeeds
      split <;> rfl
    rw [List.foldl_cons, ih, List.flatMap_cons, carryOutAll_append, ← hleave]
    rfl

theorem enter_eq (id : StateId) :
    e.enter event id =
      { e.carryOutAll event (e.chart.entryDeeds id) with active := id :: e.active } := by
  unfold enter Chart.entryDeeds
  cases hnode : e.chart.node? id with
  | none => simp [hnode, carryOutAll]
  | some n =>
    cases hinvoke : n.invoke with
    | none =>
      simp only [hnode, hinvoke, perform_eq event _ (some id), carryOutAll_active, Option.map_none,
        Option.toList_none, List.append_nil]
    | some subject =>
      simp only [hnode, hinvoke, perform_eq event _ (some id), carryOutAll_active, Option.map_some,
        Option.toList_some, carryOutAll_append]
      rfl

theorem enterAll_eq (ids : List StateId) :
    e.enterAll event ids =
      { e.carryOutAll event (ids.flatMap e.chart.entryDeeds) with
        active := ids.reverse ++ e.active } := by
  induction ids generalizing e with
  | nil => rfl
  | cons id ids ih =>
    rw [enterAll_cons, ih, enter_eq, List.flatMap_cons, carryOutAll_append, carryOutAll_active]
    simp

theorem lookups_enterAll (ids : List StateId) :
    (e.enterAll event ids).lookups = e.lookups.startAll e.chart.invokes ids := by
  induction ids generalizing e with
  | nil => rfl
  | cons id ids ih => rw [enterAll_cons, ih, lookups_enter, chart_enter, Lookups.startAll_cons]

end Deeds

/-! ## One transition -/

def passage (e : Engine) (source target : StateId) : Passage where
  effective := effectiveTarget e.chart target
  scope := e.domain source target
  exited := e.left source target
  kept := e.kept source target
  entered := e.entered source target

theorem passage_congr {e e' : Engine} (hchart : e'.chart = e.chart)
    (hactive : e'.active = e.active) (hhistory : e'.history = e.history)
    (source target : StateId) : e'.passage source target = e.passage source target := by
  rw [passage, entered_congr hchart hactive hhistory]
  simp only [passage, domain, left, kept, hchart, hactive]

section Fire

variable {e : Engine} (event : Event) {source : StateId} {t : Transition}
  (hscope : e.domain source t.target ∈ e.active)
include hscope

/-- The deeds of a transition come in three parts: it acts, leaves and enters. -/
theorem take_perform_eq_deeds :
    (e.perform (some event) t.actions).take event source t.target =
      { e.carryOutAll (some event) (e.deeds t (e.passage source t.target)) with
        active := (e.passage source t.target).entered.reverse ++
          (e.passage source t.target).kept } := by
  have hleave : ({ e.perform (some event) t.actions with
        lookups := (e.left source t.target).foldl Lookups.cancel e.lookups
        history := e.history.recordAll e.chart e.leaf (e.left source t.target)
        active := e.kept source t.target } : Engine) =
      { (e.perform (some event) t.actions).carryOutAll (some event)
          ((e.left source t.target).flatMap (e.chart.exitDeeds e.leaf)) with
        active := e.kept source t.target } := by
    rw [← chart_perform (some event) t.actions e, ← foldl_leave_eq, foldl_leave]
    rfl
  rw [take_perform_eq event hscope, hleave, enterAll_eq, carryOutAll_active,
    perform_eq (some event) e none]
  simp only [chart_carryOutAll, deeds, passage, carryOutAll_append]

theorem fire_eq_deeds :
    e.fire event source t =
      ({ e.carryOutAll (some event) (e.deeds t (e.passage source t.target)) with
          active := (e.passage source t.target).entered.reverse ++
            (e.passage source t.target).kept
          journal := (e.fire event source t).1.journal
          pending := [] },
        .transitioned e.leafPath (e.fire event source t).1.leafPath
          (e.fire event source t).1.configuration
          (e.carryOutAll (some event) (e.deeds t (e.passage source t.target))).pending) := by
  simp only [fire, log, take_perform_eq_deeds event hscope]
  rfl

theorem lookups_fire :
    (e.fire event source t).1.lookups =
      ((e.left source t.target).foldl Lookups.cancel e.lookups).startAll e.chart.invokes
        (e.entered source t.target) := by
  simp only [fire, log, take_perform_eq event hscope, lookups_enterAll, chart_perform]

end Fire

def noted (e : Engine) (event : Event) : Engine :=
  (e.receive? event).getD e

/-- A transition moves inside its scope alone, and does what its passage makes it do.  What it
writes into the journal is left open. -/
structure Confined (e : Engine) (event : Event) (source : StateId) (t : Transition) (p : Passage) :
    Prop where
  leadsTo_iff : ∀ id, e.chart.LeadsTo t.target id ↔ id = p.effective
  isScope_iff : ∀ id, e.chart.IsScope source p.effective id ↔ id = p.scope
  -- before: what is left stands inside the scope, what is kept is the rest
  scope_active : p.scope ∈ e.active
  active_eq : e.active = p.exited ++ p.kept
  mem_kept_iff : ∀ id, id ∈ p.kept ↔ id = p.scope ∨ e.chart.Encloses id p.scope
  mem_exited_iff : ∀ id, id ∈ p.exited ↔ id ∈ e.active ∧ e.chart.Encloses p.scope id
  -- after: what is entered leads from the scope down to the new leaf
  active_step : (e.step event).1.active = p.entered.reverse ++ p.kept
  leaf_step : (e.step event).1.leaf = p.effective ∨
    e.chart.Encloses p.effective (e.step event).1.leaf
  mem_entered_iff : ∀ id, id ∈ p.entered ↔ e.chart.Encloses p.scope id ∧
    (id = (e.step event).1.leaf ∨ e.chart.Encloses id (e.step event).1.leaf)
  entered_pairwise : p.entered.Pairwise e.chart.Encloses
  -- meanwhile: the deeds, in their order, and nothing else
  kept_disjoint : ∀ id ∈ p.kept, id ∉ p.exited ∧ id ∉ p.entered
  kept_untouched : ∀ id ∈ p.kept, ∀ deed ∈ e.deeds t p, deed.state? ≠ some id
  step_eq : e.step event =
    ({ (e.noted event).carryOutAll (some event) (e.deeds t p) with
        active := p.entered.reverse ++ p.kept
        journal := (e.step event).1.journal
        pending := [] },
      .transitioned e.leafPath (e.step event).1.leafPath (e.step event).1.configuration
        ((e.noted event).carryOutAll (some event) (e.deeds t p)).pending)
  history_step : ∀ id, (e.step event).1.history.resume? id =
    if id ∈ p.exited ∧ e.chart.isCompound id then some e.leaf else e.history.resume? id
  live_step : ∀ ticket, (e.noted event).lookups.live = some ticket → ticket.state ∈ p.kept →
    (e.step event).1.lookups.live = some ticket ∨ ∃ id ∈ p.entered, e.chart.invokes id ∧
      (e.step event).1.lookups.live.map Ticket.state = some id

theorem leadsTo_effectiveTarget {c : Chart} (hc : c.WellFormed) (hroot : ¬ c.isHistory Chart.root)
    {target : StateId} (htarget : target ∈ c) : c.LeadsTo target (effectiveTarget c target) := by
  unfold effectiveTarget
  split
  · next hhistory =>
    have hne : target ≠ Chart.root := by
      rintro rfl
      exact hroot hhistory
    obtain ⟨compound, hparent⟩ := hc.exists_parent htarget hne
    rw [hparent, Option.getD_some]
    exact .history hhistory hparent
  · next hplain => exact .plain hplain

namespace Sound

variable {e : Engine} (h : e.Sound) {source target : StateId} (hsource : source ∈ e.active)
include h hsource

/-! ## The states of a passage -/

theorem mem_kept_iff (id : StateId) :
    id ∈ e.kept source target ↔
      id = e.domain source target ∨ e.chart.Encloses id (e.domain source target) := by
  rw [h.kept_eq hsource target,
    h.wellFormed.mem_lineage_iff (h.mem_of_active (h.domain_active hsource target))]

theorem mem_left_iff (id : StateId) :
    id ∈ e.left source target ↔ id ∈ e.active ∧ e.chart.Encloses (e.domain source target) id := by
  have hactive := e.left_append_kept source target
  rw [h.kept_eq hsource target, h.active_eq] at hactive
  rw [h.wellFormed.mem_inner_iff h.leaf_mem (h.mem_of_active (h.domain_active hsource target))
    hactive, h.active_eq, h.wellFormed.mem_lineage_iff h.leaf_mem, and_comm]

theorem not_encloses_of_mem_kept {id : StateId} (hid : id ∈ e.kept source target) :
    ¬ e.chart.Encloses (e.domain source target) id := by
  intro hinside
  rcases (h.mem_kept_iff hsource id).mp hid with rfl | houtside
  · exact h.wellFormed.not_encloses_self _ hinside
  · exact h.wellFormed.encloses_asymm hinside houtside

variable (htarget : target ∈ e.chart)
include htarget

theorem mem_entered_iff (id : StateId) :
    id ∈ e.entered source target ↔ e.chart.Encloses (e.domain source target) id ∧
      (id = e.arrival source target ∨ e.chart.Encloses id (e.arrival source target)) := by
  obtain ⟨harrival, -, hlineage⟩ := h.arrival_spec hsource htarget
  rw [h.kept_eq hsource target] at hlineage
  rw [← h.wellFormed.mem_inner_iff harrival (h.mem_of_active (h.domain_active hsource target))
    hlineage, List.mem_reverse]

theorem pairwise_entered : (e.entered source target).Pairwise e.chart.Encloses := by
  obtain ⟨harrival, -, hlineage⟩ := h.arrival_spec hsource htarget
  have hpairwise := h.wellFormed.pairwise_lineage harrival
  rw [← hlineage, List.pairwise_append] at hpairwise
  exact List.pairwise_reverse.mp hpairwise.1

theorem kept_disjoint {id : StateId} (hid : id ∈ e.kept source target) :
    id ∉ e.left source target ∧ id ∉ e.entered source target := by
  have hout := h.not_encloses_of_mem_kept hsource hid
  exact ⟨fun hleft => hout ((h.mem_left_iff hsource id).mp hleft).2,
    fun hentered => hout ((h.mem_entered_iff hsource htarget id).mp hentered).1⟩

theorem arrival_eq_or_encloses :
    e.arrival source target = effectiveTarget e.chart target ∨
      e.chart.Encloses (effectiveTarget e.chart target) (e.arrival source target) := by
  rw [eq_comm, ← h.wellFormed.mem_lineage_iff (h.arrival_spec hsource htarget).1]
  unfold arrival
  cases hremembered : e.remembered? source target with
  | some leaf => exact (h.leafInside_of_remembered? hsource hremembered).mem_lineage
  | none =>
    rw [Option.getD_none,
      (h.wellFormed.initialLeaf_spec (h.wellFormed.effectiveTarget_mem htarget)).2.2]
    exact List.mem_append_right _ (Chart.self_mem_lineage _ _)

end Sound

theorem live_fire {e : Engine} (event : Event) {source : StateId} {t : Transition}
    (hdomain : e.domain source t.target ∈ e.active) {ticket : Ticket}
    (hlive : e.lookups.live = some ticket)
    (hkept : ticket.state ∉ (e.passage source t.target).exited) :
    (e.fire event source t).1.lookups.live = some ticket ∨
      ∃ id ∈ (e.passage source t.target).entered, e.chart.invokes id ∧
        (e.fire event source t).1.lookups.live.map Ticket.state = some id := by
  rw [lookups_fire event hdomain, ← Lookups.live_cancelAll_eq_some.mpr ⟨hlive, hkept⟩]
  exact Lookups.live_startAll _ _ _

theorem Sound.confined {e : Engine} (h : e.Sound) (hroot : ¬ e.chart.isHistory Chart.root)
    {event : Event} {source : StateId} {t : Transition}
    (ht : e.taken? event = some (source, t)) :
    e.Confined event source t (e.passage source t.target) := by
  obtain ⟨hsource, htarget⟩ := h.target_mem ht
  obtain ⟨e', hreceive, hstep⟩ := step_of_taken? ht
  have hnoted : e.noted event = e' := by rw [noted, hreceive, Option.getD_some]
  have heffective := leadsTo_effectiveTarget h.wellFormed hroot htarget
  have hscope := h.wellFormed.isScope_transitionDomain (h.mem_of_active hsource)
    (h.wellFormed.effectiveTarget_mem htarget)
  -- writing the event down changes nothing that the passage depends on
  have h' := h.of_receive? hreceive
  obtain ⟨context, lookups, rfl, -⟩ := receive?_eq_some hreceive
  have hpassage : ({ e with context, lookups } : Engine).passage source t.target =
      e.passage source t.target := by apply passage_congr <;> rfl
  have hdomain := h'.domain_active hsource t.target
  obtain ⟨hleaf, hhistory⟩ := h.leaf_history_step ht
  refine
    { leadsTo_iff := fun id => ⟨fun hid => hid.unique heffective, fun hid => hid ▸ heffective⟩
      isScope_iff := fun id =>
        ⟨fun hid => h.wellFormed.isScope_unique hid hscope, fun hid => hid ▸ hscope⟩
      scope_active := h.domain_active hsource t.target
      active_eq := (e.left_append_kept source t.target).symm
      mem_kept_iff := h.mem_kept_iff hsource
      mem_exited_iff := h.mem_left_iff hsource
      active_step := ?_
      leaf_step := ?_
      mem_entered_iff := ?_
      entered_pairwise := h.pairwise_entered hsource htarget
      kept_disjoint := fun _ hid => h.kept_disjoint hsource htarget hid
      kept_untouched := ?_
      step_eq := ?_
      history_step := ?_
      live_step := ?_ }
  · rw [hstep, ← hpassage]
    exact active_fire event hdomain
  · rw [hleaf]
    exact h.arrival_eq_or_encloses hsource htarget
  · rw [hleaf]
    exact h.mem_entered_iff hsource htarget
  · intro id hid deed hdeed heq
    rcases state?_of_mem_deeds hdeed heq with hexited | hentered
    · exact (h.kept_disjoint hsource htarget hid).1 hexited
    · exact (h.kept_disjoint hsource htarget hid).2 hentered
  · rw [hstep, hnoted, ← hpassage]
    exact fire_eq_deeds event hdomain
  · intro id
    rw [hhistory]
    exact History.resume?_recordAll _ _ _ _ _
  · intro ticket hlive hmem
    rw [hnoted] at hlive
    have hkept := (h.kept_disjoint hsource htarget hmem).1
    rw [hstep, ← hpassage]
    exact live_fire event hdomain hlive hkept

end Engine

theorem ChartDef.not_isHistory_root_of_build {d : ChartDef} {c : Chart} (h : d.build = .ok c) :
    ¬ c.isHistory Chart.root := by
  rw [Chart.isHistory, node?_place_of_build h (root_placed d), Option.any_some, Node.isHistory,
    decide_eq_true_iff]
  have hkind : ∀ children, StateDef.nodeKind (.compound d.initial) children ≠ .history := by
    intro children
    simp only [StateDef.nodeKind]
    split <;> simp
  exact hkind _

namespace Engine

/-- After any events, a transition that is taken is `Confined` to its passage: it keeps the scope
and the states around it, leaves the active states inside, and enters those from the scope down to
the new leaf. -/
theorem confined_run {d : ChartDef} {c : Chart} (hd : d.build = .ok c) (journal : Journal Move)
    (events : List Event) {event : Event} {source : StateId} {t : Transition}
    (ht : ((start c journal).run events).1.taken? event = some (source, t)) :
    ((start c journal).run events).1.Confined event source t
      (((start c journal).run events).1.passage source t.target) := by
  refine ((sound_start (ChartDef.wellFormed_of_build hd) journal).run events).confined ?_ ht
  rw [chart_run_start]
  exact ChartDef.not_isHistory_root_of_build hd

theorem confined_run_form :
    formDefinition.build = .ok formDefinition.chart ∧
      ((start formDefinition.chart (.withCapacity 4)).run [.click]).1.Confined .endSpeech ⟨3⟩
        { target := ⟨4⟩ }
        { effective := ⟨4⟩, scope := ⟨2⟩, exited := [⟨3⟩], kept := [⟨2⟩, ⟨0⟩],
          entered := [⟨4⟩, ⟨5⟩] } ∧
      ((start formDefinition.chart (.withCapacity 4)).run [.click, .endSpeech, .timeout]).1.Confined
        .endSpeech ⟨7⟩ { target := ⟨6⟩ }
        { effective := ⟨2⟩, scope := ⟨0⟩, exited := [⟨7⟩], kept := [⟨0⟩],
          entered := [⟨2⟩, ⟨4⟩, ⟨5⟩] } := by
  have hbuild := ChartDef.build_eq_ok (d := formDefinition) rfl
  refine ⟨hbuild, ?_, ?_⟩
  · exact confined_run hbuild (.withCapacity 4) [.click] rfl
  · exact confined_run hbuild (.withCapacity 4) [.click, .endSpeech, .timeout] rfl

end Engine

end Dialogue
