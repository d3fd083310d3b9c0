import Dialogue.Proofs.Chart.Rearrangement
import Dialogue.Proofs.Engine.Taking
/-!
# Engines of renamed charts

Two engines whose charts, active states, histories and lookups agree up to the numbers of states
keep agreeing, step by step, and answer alike.  So the chart of a rearranged definition gives the
same results with other numbers in tickets, provided that no guard and no action looks at these.
-/

namespace Dialogue

variable {ρ : StateId → StateId}

/-! ## Results -/

def Directive.rename (ρ : StateId → StateId) : Directive → Directive
  | lookup ticket subject => lookup (ticket.rename ρ) subject
  | directive => directive

/-- A result is renamed in its tickets alone: it shows states by their paths. -/
def StepResult.rename (ρ : StateId → StateId) : StepResult → StepResult
  | transitioned source target configuration directives =>
    transitioned source target configuration (directives.map (Directive.rename ρ))
  | ignored reason => ignored reason

theorem Action.map_rename_runAll (event : Option Event) (ctx : Context) (actions : List Action) :
    (runAll event ctx actions).2.map (Directive.rename ρ) = (runAll event ctx actions).2 := by
  induction actions generalizing ctx with
  | nil => rfl
  | cons action actions ih =>
    simp only [runAll, List.map_append, ih]
    cases action <;> rfl

/-! ## Lookups -/

namespace Lookups

def rename (ρ : StateId → StateId) (l : Lookups) : Lookups :=
  { l with live := l.live.map (Ticket.rename ρ) }

theorem start_rename (l : Lookups) (id : StateId) :
    (l.rename ρ).start (ρ id) = (l.start id).rename ρ :=
  rfl

variable (hρ : Function.Injective ρ)
include hρ

theorem cancel_rename (l : Lookups) (id : StateId) :
    (l.rename ρ).cancel (ρ id) = (l.cancel id).rename ρ := by
  have hbound : (l.rename ρ).bound? (ρ id) = (l.bound? id).map (Ticket.rename ρ) := by
    have hstate : ((fun t : Ticket => decide (t.state = ρ id)) ∘ Ticket.rename ρ) =
        fun t => decide (t.state = id) :=
      funext fun t => decide_eq_decide.mpr hρ.eq_iff
    rw [bound?, rename, Option.filter_map, hstate, bound?]
  unfold cancel
  rw [hbound, Option.isSome_map]
  split <;> rfl

theorem complete?_rename (l : Lookups) (ticket : Ticket) :
    (l.rename ρ).complete? (ticket.rename ρ) = (l.complete? ticket).map (rename ρ) := by
  have hlive : (l.rename ρ).live = some (ticket.rename ρ) ↔ l.live = some ticket :=
    (Option.map_injective (Ticket.rename_injective hρ)).eq_iff (b := some ticket)
  simp only [complete?, hlive]
  split <;> rfl

end Lookups

/-! ## Choices -/

theorem Transition.choose?_cases {ts ts' : List Transition}
    (h : List.Forall₂ (Transition.Renamed ρ) ts ts') (ctx : Context) (event : Event) :
    (choose? ts ctx event = none ∧ choose? ts' ctx (event.rename ρ) = none) ∨
      ∃ t t', choose? ts ctx event = some t ∧ choose? ts' ctx (event.rename ρ) = some t' ∧
        t.Renamed ρ t' := by
  unfold choose?
  induction h with
  | nil => exact Or.inl ⟨rfl, rfl⟩
  | @cons t t' ts ts' ht _ ih =>
    rw [List.find?_cons, List.find?_cons, ht.enabled_eq]
    cases t.enabled ctx event with
    | true => exact Or.inr ⟨t, t', rfl, rfl, ht⟩
    | false => exact ih

namespace Chart.Renamed

variable {c c' : Chart} (h : c.Renamed ρ c')
include h

theorem effectiveTarget_eq (target : StateId) :
    Engine.effectiveTarget c' (ρ target) = ρ (Engine.effectiveTarget c target) := by
  unfold Engine.effectiveTarget
  rw [h.isHistory_eq, h.parent?_eq]
  split
  · cases c.parent? target <;> rfl
  · rfl

theorem transitionsOf?_cases (kind : EventKind) (id : StateId) :
    (Engine.transitionsOf? c kind id = none ∧ Engine.transitionsOf? c' kind (ρ id) = none) ∨
      ∃ ts ts', Engine.transitionsOf? c kind id = some (id, ts) ∧
        Engine.transitionsOf? c' kind (ρ id) = some (ρ id, ts') ∧
          List.Forall₂ (Transition.Renamed ρ) ts ts' := by
  unfold Engine.transitionsOf?
  rcases h.node?_cases id with ⟨hn, hn'⟩ | ⟨n, n', hn, hn', hnode⟩
  · rw [hn, hn']
    exact Or.inl ⟨rfl, rfl⟩
  · rw [hn, hn', Option.map_some, Option.map_some, Option.getD_some, Option.getD_some]
    have hlists := hnode.transitionsOn kind
    generalize n.transitionsOn kind = ts, n'.transitionsOn kind = ts' at hlists
    cases hlists with
    | nil => exact Or.inl ⟨rfl, rfl⟩
    | cons ht hts => exact Or.inr ⟨_, _, rfl, rfl, .cons ht hts⟩

end Chart.Renamed

namespace Engine

structure Renamed (ρ : StateId → StateId) (e e' : Engine) : Prop where
  chart : e.chart.Renamed ρ e'.chart
  context_eq : e'.context = e.context
  active_eq : e'.active = e.active.map ρ
  resume?_eq : ∀ id, e'.history.resume? (ρ id) = (e.history.resume? id).map ρ
  lookups_eq : e'.lookups = e.lookups.rename ρ
  journal_eq : e'.journal = e.journal
  pending_eq : e'.pending = e.pending.map (Directive.rename ρ)

namespace Renamed

variable {e e' : Engine} (h : e.Renamed ρ e')
include h

theorem leaf_eq : e'.leaf = ρ e.leaf := by
  rw [leaf, leaf, h.active_eq, List.head?_map]
  cases e.active.head? with
  | none => exact h.chart.root_eq.symm
  | some id => rfl

theorem leafPath_eq : e'.leafPath = e.leafPath := by
  rw [leafPath, leafPath, h.leaf_eq, h.chart.path_eq]

theorem configuration_eq : e'.configuration = e.configuration := by
  rw [configuration, configuration, h.active_eq, ← List.map_reverse, ← List.map_tail, List.map_map]
  exact List.map_congr_left fun id _ => h.chart.path_eq id

theorem contains_active_eq (id : StateId) :
    e'.active.contains (ρ id) = e.active.contains id := by
  rw [Bool.eq_iff_iff, List.contains_iff_mem, List.contains_iff_mem, h.active_eq,
    List.mem_map_of_injective h.chart.injective]

/-! ### Entering -/

variable (event : Option Event)

theorem perform {actions actions' : List Action} (hactions : Action.Renamed ρ actions actions') :
    (e.perform event actions).Renamed ρ (e'.perform (event.map (Event.rename ρ)) actions') := by
  have hrun : Action.runAll (event.map (Event.rename ρ)) e'.context actions' =
      Action.runAll event e.context actions := by
    rw [h.context_eq, hactions]
  refine ⟨h.chart, congrArg Prod.fst hrun, h.active_eq, h.resume?_eq, h.lookups_eq, h.journal_eq,
    ?_⟩
  have hpending : (e'.perform (event.map (Event.rename ρ)) actions').pending =
      e'.pending ++ (Action.runAll event e.context actions).2 :=
    congrArg (fun run : Context × List Directive => e'.pending ++ run.2) hrun
  rw [hpending, h.pending_eq, ← Action.map_rename_runAll, ← List.map_append]
  rfl

theorem invoke (id : StateId) (subject : Context → String) :
    (e.invoke id subject).Renamed ρ (e'.invoke (ρ id) subject) := by
  refine ⟨h.chart, h.context_eq, h.active_eq, h.resume?_eq, ?_, h.journal_eq, ?_⟩
  · exact (congrArg (·.start (ρ id)) h.lookups_eq).trans (Lookups.start_rename _ _)
  · unfold Engine.invoke
    rw [h.pending_eq, h.lookups_eq, h.context_eq, List.map_append]
    rfl

theorem enter (id : StateId) :
    (e.enter event id).Renamed ρ (e'.enter (event.map (Event.rename ρ)) (ρ id)) := by
  have hactive : ({ e with active := id :: e.active } : Engine).Renamed ρ
      { e' with active := ρ id :: e'.active } :=
    { h with active_eq := congrArg (ρ id :: ·) h.active_eq }
  unfold Engine.enter
  rcases h.chart.node?_cases id with ⟨hn, hn'⟩ | ⟨n, n', hn, hn', hnode⟩
  · simp only [hn, hn']
    exact hactive
  · have hentered := hactive.perform event hnode.entry
    simp only [hn, hn', hnode.invoke_eq]
    cases n.invoke with
    | none => exact hentered
    | some subject => exact hentered.invoke id subject

theorem enterAll (ids : List StateId) :
    (e.enterAll event ids).Renamed ρ
      (e'.enterAll (event.map (Event.rename ρ)) (ids.map ρ)) := by
  induction ids generalizing e e' with
  | nil => exact h
  | cons id ids ih => exact ih (h.enter event id)

/-! ### Leaving -/

omit event

theorem leave (leaf id : StateId) :
    (Engine.leave leaf e id).Renamed ρ (Engine.leave (ρ leaf) e' (ρ id)) where
  chart := h.chart
  context_eq := h.context_eq
  active_eq := h.active_eq
  resume?_eq := by
    intro other
    unfold Engine.leave
    simp only [h.chart.isCompound_eq]
    split
    · rw [History.resume?_record, History.resume?_record]
      by_cases heq : other = id
      · rw [if_pos heq, if_pos (congrArg ρ heq), Option.map_some]
      · rw [if_neg heq, if_neg (h.chart.injective.ne heq), h.resume?_eq]
    · exact h.resume?_eq other
  lookups_eq := by
    rw [Engine.leave, h.lookups_eq, Lookups.cancel_rename h.chart.injective]
    rfl
  journal_eq := h.journal_eq
  pending_eq := h.pending_eq

theorem foldl_leave (leaf : StateId) (ids : List StateId) :
    (ids.foldl (Engine.leave leaf) e).Renamed ρ
      ((ids.map ρ).foldl (Engine.leave (ρ leaf)) e') := by
  induction ids generalizing e e' with
  | nil => exact h
  | cons id ids ih => exact ih (h.leave leaf id)

theorem exitBelow (domain : StateId) :
    (e.exitBelow domain).Renamed ρ (e'.exitBelow (ρ domain)) := by
  have hbne : ((fun id => id != ρ domain) ∘ ρ) = fun id => id != domain :=
    funext fun id => h.chart.bne_eq id domain
  unfold Engine.exitBelow
  rw [h.contains_active_eq]
  split
  · have hleft := h.foldl_leave e.leaf (e.active.takeWhile fun id => id != domain)
    simp only [h.active_eq, h.leaf_eq, List.takeWhile_map, List.dropWhile_map, hbne]
    exact { hleft with active_eq := rfl }
  · exact h

/-! ### Transitions -/

theorem resumed_eq (target : StateId) : e'.resumed (ρ target) = (e.resumed target).map ρ := by
  unfold Engine.resumed
  simp only [h.chart.isHistory_eq, h.chart.effectiveTarget_eq, h.resume?_eq]
  cases e.chart.isHistory target with
  | false => exact h.chart.initialDescent_eq _
  | true =>
    cases e.history.resume? (effectiveTarget e.chart target) with
    | none => exact h.chart.initialDescent_eq _
    | some leaf => exact h.chart.pathBetween_eq _ leaf

theorem take (event : Event) (source target : StateId) :
    (e.take event source target).Renamed ρ
      (e'.take (event.rename ρ) (ρ source) (ρ target)) := by
  have hexited := h.exitBelow (e.domain source target)
  have hdomain : e'.domain (ρ source) (ρ target) = ρ (e.domain source target) := by
    rw [domain, domain, h.chart.effectiveTarget_eq, h.chart.transitionDomain_eq]
  have hentered : e'.entered (ρ source) (ρ target) = (e.entered source target).map ρ := by
    rw [entered, entered, hdomain, h.chart.effectiveTarget_eq, h.chart.pathBetween_eq,
      hexited.resumed_eq, List.map_append]
  rw [take_eq, take_eq, hdomain, hentered]
  exact hexited.enterAll (some event) _

theorem log (source : String) (kind : EventKind) :
    (e.log source kind).Renamed ρ (e'.log source kind) := by
  refine ⟨h.chart, h.context_eq, h.active_eq, h.resume?_eq, h.lookups_eq, ?_, h.pending_eq⟩
  simp only [Engine.log, h.leafPath_eq, h.context_eq, h.journal_eq]

theorem delivered (source : String) :
    ({ e with pending := [] } : Engine).Renamed ρ { e' with pending := [] } ∧
      StepResult.transitioned source e'.leafPath e'.configuration e'.pending =
        (StepResult.transitioned source e.leafPath e.configuration e.pending).rename ρ := by
  refine ⟨{ h with pending_eq := rfl }, ?_⟩
  rw [h.leafPath_eq, h.configuration_eq, h.pending_eq, StepResult.rename]

theorem fire (event : Event) (source : StateId) {t t' : Transition} (ht : t.Renamed ρ t') :
    (e.fire event source t).1.Renamed ρ (e'.fire (event.rename ρ) (ρ source) t').1 ∧
      (e'.fire (event.rename ρ) (ρ source) t').2 = (e.fire event source t).2.rename ρ := by
  have hlogged := ((h.perform (some event) ht.actions).take event source t.target).log e.leafPath
    event.kind
  rw [← ht.target_eq] at hlogged
  simp only [Engine.fire, h.leafPath_eq, Event.kind_rename]
  exact hlogged.delivered e.leafPath

/-! ### Steps -/

theorem receive?_cases (event : Event) :
    (e.receive? event = none ∧ e'.receive? (event.rename ρ) = none) ∨
      ∃ f f', e.receive? event = some f ∧ e'.receive? (event.rename ρ) = some f' ∧
        f.Renamed ρ f' := by
  cases event with
  | recognised turn =>
    exact Or.inr ⟨_, _, rfl, rfl,
      { h with context_eq := congrArg (·.observe turn) h.context_eq }⟩
  | lookupDone ticket answer =>
    simp only [receive?, Event.rename, h.lookups_eq,
      Lookups.complete?_rename h.chart.injective]
    cases e.lookups.complete? ticket with
    | none => exact Or.inl ⟨rfl, rfl⟩
    | some lookups => exact Or.inr ⟨_, _, rfl, rfl, { h with lookups_eq := rfl }⟩
  | click | ttsReady | endSpeech | timeout => exact Or.inr ⟨e, e', rfl, rfl, h⟩

theorem handler?_cases (kind : EventKind) :
    (e.handler? kind = none ∧ e'.handler? kind = none) ∨
      ∃ source ts ts', e.handler? kind = some (source, ts) ∧
        e'.handler? kind = some (ρ source, ts') ∧ List.Forall₂ (Transition.Renamed ρ) ts ts' := by
  unfold handler?
  rw [h.active_eq]
  induction e.active with
  | nil => exact Or.inl ⟨rfl, rfl⟩
  | cons id active ih =>
    rw [List.map_cons, List.findSome?_cons, List.findSome?_cons]
    rcases h.chart.transitionsOf?_cases kind id with ⟨hn, hn'⟩ | ⟨ts, ts', hts, hts', hlists⟩
    · rw [hn, hn']
      exact ih
    · rw [hts, hts']
      exact Or.inr ⟨id, ts, ts', rfl, rfl, hlists⟩

theorem step (event : Event) :
    (e.step event).1.Renamed ρ (e'.step (event.rename ρ)).1 ∧
      (e'.step (event.rename ρ)).2 = (e.step event).2.rename ρ := by
  unfold Engine.step
  rcases h.receive?_cases event with ⟨hf, hf'⟩ | ⟨f, f', hf, hf', hreceived⟩
  · rw [hf, hf']
    exact ⟨h, rfl⟩
  · rw [hf, hf', Event.kind_rename]
    rcases hreceived.handler?_cases event.kind with
      ⟨hn, hn'⟩ | ⟨source, ts, ts', hts, hts', hlists⟩
    · simp only [hn, hn']
      exact ⟨hreceived, rfl⟩
    · simp only [hts, hts', hreceived.context_eq]
      rcases Transition.choose?_cases hlists f.context event with
        ⟨ht, ht'⟩ | ⟨t, t', ht, ht', hrenamed⟩
      · rw [ht, ht']
        exact ⟨hreceived, rfl⟩
      · rw [ht, ht']
        exact hreceived.fire event source hrenamed

theorem run (events : List Event) :
    (e.run events).1.Renamed ρ (e'.run (events.map (Event.rename ρ))).1 ∧
      (e'.run (events.map (Event.rename ρ))).2 = (e.run events).2.map (StepResult.rename ρ) := by
  induction events generalizing e e' with
  | nil => exact ⟨h, rfl⟩
  | cons event events ih =>
    obtain ⟨hnext, hresult⟩ := h.step event
    obtain ⟨hlast, hresults⟩ := ih hnext
    refine ⟨hlast, ?_⟩
    rw [List.map_cons, run_cons, run_cons, hresult, hresults]
    rfl

end Renamed

theorem renamed_start {c c' : Chart} (h : c.Renamed ρ c') (journal : Journal Move) :
    (start c journal).Renamed ρ (start c' journal) := by
  have hroot : ({ chart := c, active := [Chart.root], journal } : Engine).Renamed ρ
      { chart := c', active := [Chart.root], journal } :=
    ⟨h, rfl, congrArg ([·]) h.root_eq.symm, fun _ => rfl, rfl, rfl, rfl⟩
  have hdescent := h.initialDescent_eq Chart.root
  rw [h.root_eq] at hdescent
  unfold start
  simp only [hdescent]
  exact hroot.enterAll none (c.initialDescent Chart.root)

end Engine

/-! ## Rearranged definitions -/

/-- Every dialogue over the second chart is one over the first with the states in tickets renamed:
its results show the same paths, and its engines have the same contexts and journals. -/
def Chart.Mirrors (ρ : StateId → StateId) (c c' : Chart) : Prop :=
  ∀ journal events,
    let (e, results) := (Engine.start c journal).run events
    let (e', results') := (Engine.start c' journal).run (events.map (Event.rename ρ))
    results' = results.map (StepResult.rename ρ) ∧
      e'.configuration = e.configuration ∧ e.Renamed ρ e'

theorem Chart.Renamed.mirrors {c c' : Chart} (h : c.Renamed ρ c') : c.Mirrors ρ c' := by
  intro journal events
  obtain ⟨hlast, hresults⟩ := (Engine.renamed_start h journal).run events
  exact ⟨hresults, hlast.configuration_eq, hlast⟩

namespace ChartDef

variable {d d' : ChartDef} {c c' : Chart}

theorem SameStates.mirrors (h : d.SameStates d') (hc : d.build = .ok c) (hc' : d'.build = .ok c')
    (himpartial : d.Impartial) : c.Mirrors (c.counterpart c') c' := by
  have hrenamed := h.renamed hc hc' (f := id) (himpartial (c.counterpart c'))
  rw [Chart.showing_id] at hrenamed
  exact hrenamed.mirrors

theorem SameStates.mirrors_showing (h : d.SameStates d') (hc : d.build = .ok c)
    (hc' : d'.build = .ok c') :
    c.Mirrors (c.counterpart c') (c'.showing (Event.rename (c'.counterpart c))) := by
  have hback : Event.rename (c'.counterpart c) ∘ Event.rename (c.counterpart c') = id :=
    funext (Event.rename_rename (h.leftInverse_counterpart hc hc'))
  refine (h.renamed hc hc' fun p _ => ?_).mirrors
  -- The number that a guard is shown is the one that it would have seen in the first chart.
  rw [hback]
  exact StateDef.ignores_id p.definition

/-- Both definitions are accepted or neither is.  If they are, `c'` mirrors `c` whatever its guards
and actions are, as long as those are shown the states of `c` in tickets.  `c'` as it is built
mirrors `c` if no guard and no action of `d` looks at the state of a ticket. -/
theorem rearranged_run (h : d.Rearranged d') :
    ((∃ c, d.build = .ok c) ↔ ∃ c', d'.build = .ok c') ∧
      ∀ c c', d.build = .ok c → d'.build = .ok c' →
        Function.Bijective (c.counterpart c') ∧
          (∀ id ∈ c, c.counterpart c' id ∈ c' ∧ c'.path (c.counterpart c' id) = c.path id) ∧
          c.Mirrors (c.counterpart c') (c'.showing (Event.rename (c'.counterpart c))) ∧
          (d.Impartial → c.Mirrors (c.counterpart c') c') := by
  have hsame := h.sameStates
  refine ⟨hsame.exists_build_iff, fun c c' hc hc' => ?_⟩
  exact ⟨hsame.bijective_counterpart hc hc', fun id hid => hsame.counterpart_spec hc hc' hid,
    hsame.mirrors_showing hc hc', hsame.mirrors hc hc'⟩

def desk (guard : Guard) : StateDef :=
  ((StateDef.atomic "desk").invoking fun ctx => ctx.turn.utterance).on .lookupDone
    [{ target := "door", guard, actions := [.storeAnswer] }]

/-- The desk stands at `3`. -/
def hallDefinition (guard : Guard) : ChartDef where
  initial := "hall"
  states :=
    [(((StateDef.compound "hall" "desk").on .timeout [{ target := "yard" }]).on .click
        [{ target := ".door" }]).containing [StateDef.atomic "door", desk guard],
      StateDef.atomic "yard", StateDef.atomic "gate"]

/-- The same hall, declared from back to front.  The desk stands at `4`. -/
def reversedDefinition (guard : Guard) : ChartDef where
  initial := "hall"
  states :=
    [StateDef.atomic "gate", StateDef.atomic "yard",
      (((StateDef.compound "hall" "desk").on .click [{ target := ".door" }]).on .timeout
        [{ target := "yard" }]).containing [desk guard, StateDef.atomic "door"]]

variable (guard : Guard)

theorem hall_rearranged : (hallDefinition guard).Rearranged (reversedDefinition guard) := by
  refine .intro rfl rfl rfl rfl (fun _ => rfl)
    (.cons ?_ (.cons (.refl _) (.cons (.refl _) .nil))) (List.reverse_perm _).symm
  refine .intro rfl rfl rfl rfl (fun kind => by cases kind <;> rfl) ?_ (.swap _ _ [])
  exact .cons (.refl _) (.cons (.refl _) .nil)

theorem hall_impartial (h : guard.Impartial) : (hallDefinition guard).Impartial := by
  apply impartial_of_states
  simp [hallDefinition, desk, h]

theorem rearranged_run_hall :
    (hallDefinition .answerFound).Rearranged (reversedDefinition .answerFound) ∧
      (hallDefinition .answerFound).Impartial ∧
      ∃ c c', (hallDefinition .answerFound).build = .ok c ∧
        (reversedDefinition .answerFound).build = .ok c' ∧ c.counterpart c' ⟨3⟩ = ⟨4⟩ ∧
          (Engine.start c (.withCapacity 4)).lookups.live = some ⟨⟨3⟩, 1⟩ ∧
          (Engine.start c' (.withCapacity 4)).lookups.live = some ⟨⟨4⟩, 1⟩ ∧
          c.Mirrors (c.counterpart c') c' := by
  have himpartial := hall_impartial _ Guard.impartial_answerFound
  obtain ⟨-, hmirrors⟩ := rearranged_run (hall_rearranged .answerFound)
  refine ⟨hall_rearranged _, himpartial, _, _, rfl, rfl, by decide, by decide, by decide, ?_⟩
  exact (hmirrors _ _ rfl rfl).2.2.2 himpartial

def lookedUpBy (id : StateId) : Guard :=
  .onEvent fun
    | .lookupDone ticket _ => ticket.state = id
    | _ => false

/-- The lookup of the desk is over, for a guard that asks for a ticket of `3`.  The hall goes on to
the door.  The reversed hall does not, whether the ticket is still of `3` or renamed to `4`: it
awaits no ticket of `3`, and the guard refuses one of `4`. -/
theorem hall_not_mirrors :
    (hallDefinition (lookedUpBy ⟨3⟩)).Rearranged (reversedDefinition (lookedUpBy ⟨3⟩)) ∧
      ∃ c c', (hallDefinition (lookedUpBy ⟨3⟩)).build = .ok c ∧
        (reversedDefinition (lookedUpBy ⟨3⟩)).build = .ok c' ∧
        ((Engine.start c (.withCapacity 4)).run [.lookupDone ⟨⟨3⟩, 1⟩ .blank]).2 =
          [.transitioned "hall.desk" "hall.door" ["hall", "hall.door"]
            [.lookup ⟨⟨3⟩, 1⟩ ""]] ∧
        ((Engine.start c' (.withCapacity 4)).run [.lookupDone ⟨⟨3⟩, 1⟩ .blank]).2 =
          [.ignored .staleCompletion] ∧
        ((Engine.start c' (.withCapacity 4)).run
            [(Event.lookupDone ⟨⟨3⟩, 1⟩ .blank).rename (c.counterpart c')]).2 =
          [.ignored .noMatch] ∧
        ¬ c.Mirrors (c.counterpart c') c' := by
  refine ⟨hall_rearranged _, _, _, rfl, rfl, by decide, by decide, by decide, fun hmirrors => ?_⟩
  obtain ⟨hresults, -⟩ := hmirrors (.withCapacity 4) [.lookupDone ⟨⟨3⟩, 1⟩ .blank]
  revert hresults
  decide

end ChartDef

end Dialogue
