import Dialogue.Proofs.Chart.Arena
import Dialogue.Proofs.Engine.Configuration
/-!
# Which transition is taken

The innermost active state that was given transitions for an event decides alone.  It tries them in
the order in which they were given, in the context in which the event is written down, and the first
enabled one is taken, to the state that its target names.  If none is enabled nothing is taken,
whatever the states around it were given.
-/

namespace Dialogue

namespace StateDef

/-! ## What a state is given -/

def onAll (s : StateDef) (calls : List (EventKind × List TransitionDef)) : StateDef :=
  calls.foldl (fun s call => s.on call.1 call.2) s

def DeclaredBy (s : StateDef) (calls : List (EventKind × List TransitionDef)) : Prop :=
  ({ s with transitions := [] } : StateDef).onAll calls = s

def Gives (s : StateDef) (kind : EventKind) (ts : List TransitionDef) : Prop :=
  ∃ calls, s.DeclaredBy calls ∧
    ts = calls.flatMap fun call => if call.1 = kind then call.2 else []

theorem transitionsOn_on (s : StateDef) (kind kind' : EventKind) (ts : List TransitionDef) :
    (s.on kind ts).transitionsOn kind' =
      s.transitionsOn kind' ++ if kind = kind' then ts else [] := by
  rw [transitionsOn, on, List.filterMap_append, ← transitionsOn, List.filterMap_map]
  congr 1
  by_cases hkind : kind = kind' <;> simp [hkind]

theorem transitionsOn_onAll (s : StateDef) (kind : EventKind)
    (calls : List (EventKind × List TransitionDef)) :
    (s.onAll calls).transitionsOn kind =
      s.transitionsOn kind ++ calls.flatMap fun call => if call.1 = kind then call.2 else [] := by
  induction calls generalizing s with
  | nil => exact (List.append_nil _).symm
  | cons call calls ih =>
    rw [onAll, List.foldl_cons, ← onAll, ih, transitionsOn_on, List.flatMap_cons,
      List.append_assoc]

theorem onAll_singletons (s : StateDef) (ts : List (EventKind × TransitionDef)) :
    s.onAll (ts.map fun t => (t.1, [t.2])) = { s with transitions := s.transitions ++ ts } := by
  induction ts generalizing s with
  | nil =>
    cases s
    simp [onAll]
  | cons t ts ih =>
    rw [List.map_cons, onAll, List.foldl_cons, ← onAll, ih]
    simp [on]

theorem exists_declaredBy (s : StateDef) : ∃ calls, s.DeclaredBy calls := by
  refine ⟨s.transitions.map fun t => (t.1, [t.2]), ?_⟩
  rw [DeclaredBy, onAll_singletons]
  cases s
  rfl

theorem gives_iff {s : StateDef} {kind : EventKind} {ts : List TransitionDef} :
    s.Gives kind ts ↔ ts = s.transitionsOn kind := by
  have hcalls : ∀ {calls}, s.DeclaredBy calls →
      (calls.flatMap fun call => if call.1 = kind then call.2 else []) = s.transitionsOn kind := by
    intro calls hcalls
    have hon := transitionsOn_onAll { s with transitions := [] } kind calls
    rw [hcalls] at hon
    exact hon.symm
  constructor
  · rintro ⟨calls, hdeclared, rfl⟩
    exact hcalls hdeclared
  · rintro rfl
    obtain ⟨calls, hdeclared⟩ := s.exists_declaredBy
    exact ⟨calls, hdeclared, (hcalls hdeclared).symm⟩

end StateDef

/-- A declared transition may be taken: it has no guard, or its guard holds. -/
def TransitionDef.Enabled (t : TransitionDef) (ctx : Context) (event : Event) : Prop :=
  ∀ g, t.guard = some g → g.holds ctx event

def Context.hearing (ctx : Context) : Event → Context
  | .recognised turn => ctx.observe turn
  | _ => ctx

inductive Decision where
  | noHandler
  | noMatch
  | take (source : StateId) (t : Transition)

namespace ChartDef

open StateDef (Placed)

/-! ## The declared decision -/

def Stands (d : ChartDef) (p : Placed) (id : StateId) : Prop :=
  (∃ a, d.at? a = some p) ∧ p.place = id

def Silent (d : ChartDef) (kind : EventKind) (id : StateId) : Prop :=
  ∃ p, d.Stands p id ∧ p.definition.Gives kind []

/-- What `d` decides on `event` while the states in `active` are active, innermost first. -/
inductive Decides (d : ChartDef) (active : List StateId) (ctx : Context) (event : Event) :
    Decision → Prop
  | noHandler (hsilent : ∀ id ∈ active, d.Silent event.kind id) :
      Decides d active ctx event .noHandler
  | noMatch {inner source outer p ts} (hactive : active = inner ++ source :: outer)
      (hsilent : ∀ id ∈ inner, d.Silent event.kind id) (hp : d.Stands p source)
      (hts : p.definition.Gives event.kind ts) (hne : ts ≠ [])
      (hdisabled : ∀ t ∈ ts, ¬ t.Enabled ctx event) :
      Decides d active ctx event .noMatch
  | take {inner source outer p before t after target} (hactive : active = inner ++ source :: outer)
      (hsilent : ∀ id ∈ inner, d.Silent event.kind id) (hp : d.Stands p source)
      (hts : p.definition.Gives event.kind (before ++ t :: after))
      (hdisabled : ∀ t ∈ before, ¬ t.Enabled ctx event) (henabled : t.Enabled ctx event)
      (htarget : d.Names p t.target target) :
      Decides d active ctx event
        (.take source { guard := t.guard, target, actions := t.actions })

theorem Names.unique {d : ChartDef} (hvalid : d.Valid) {p : Placed} {text : String}
    {id id' : StateId} (h : d.Names p text id) (h' : d.Names p text id') : id = id' := by
  obtain ⟨target, hparse, b, q, hq, hpath, rfl⟩ := h
  obtain ⟨target', hparse', b', q', hq', hpath', rfl⟩ := h'
  obtain rfl := Option.some.inj (hparse.symm.trans hparse')
  obtain rfl := hvalid.distinct hq hq' (hpath.trans hpath'.symm)
  rw [Option.some.inj (hq.symm.trans hq')]

theorem enabled_resolved {d : ChartDef} {p : Placed} {t : TransitionDef} {ctx : Context}
    {event : Event} : (d.resolved p t).enabled ctx event ↔ t.Enabled ctx event := by
  rw [Transition.enabled, resolved, TransitionDef.Enabled]
  cases t.guard <;> simp

theorem choose?_resolved_eq_none_iff {d : ChartDef} {p : Placed} {declared : List TransitionDef}
    {ctx : Context} {event : Event} :
    Transition.choose? (declared.map (d.resolved p)) ctx event = none ↔
      ∀ t ∈ declared, ¬ t.Enabled ctx event := by
  simp only [Transition.choose?, List.find?_eq_none, List.forall_mem_map, enabled_resolved]

theorem choose?_resolved_eq_some_iff {d : ChartDef} {p : Placed} {declared : List TransitionDef}
    {ctx : Context} {event : Event} {t : Transition} :
    Transition.choose? (declared.map (d.resolved p)) ctx event = some t ↔
      ∃ before t' after, declared = before ++ t' :: after ∧
        (∀ t ∈ before, ¬ t.Enabled ctx event) ∧ t'.Enabled ctx event ∧ t = d.resolved p t' := by
  rw [Transition.choose?, List.find?_map, Option.map_eq_some_iff]
  constructor
  · rintro ⟨t', hfind, rfl⟩
    obtain ⟨henabled, before, after, hdeclared, hdisabled⟩ :=
      List.find?_eq_some_iff_append.mp hfind
    refine ⟨before, t', after, hdeclared, fun t ht => ?_, enabled_resolved.mp henabled, rfl⟩
    rw [← enabled_resolved (d := d) (p := p)]
    simpa using hdisabled t ht
  · rintro ⟨before, t', after, hdeclared, hdisabled, henabled, rfl⟩
    refine ⟨t', List.find?_eq_some_iff_append.mpr
      ⟨enabled_resolved.mpr henabled, before, after, hdeclared, fun t ht => ?_⟩, rfl⟩
    have hnot := hdisabled t ht
    rw [← enabled_resolved (d := d) (p := p)] at hnot
    simpa using hnot

theorem eq_of_stands {d : ChartDef} {p q : Placed} {id : StateId} (hp : d.Stands p id)
    (hq : d.Stands q id) : p = q :=
  eq_of_place_eq (mem_layout_iff.mpr hp.1) (mem_layout_iff.mpr hq.1) (hp.2.trans hq.2.symm)

section Build

variable {d : ChartDef} {c : Chart} (h : d.build = .ok c)
include h

theorem stands_of_mem {id : StateId} (hid : id ∈ c) : ∃ p, d.Stands p id := by
  obtain ⟨p, hp, hplace⟩ := exists_placed_of_mem h hid
  exact ⟨p, mem_layout_iff.mp hp, hplace⟩

theorem transitionsOf?_stands {p : Placed} {id : StateId} (hp : d.Stands p id)
    (kind : EventKind) :
    Engine.transitionsOf? c kind id =
      if (p.definition.transitionsOn kind).isEmpty then none
      else some (id, (p.definition.transitionsOn kind).map (d.resolved p)) := by
  obtain ⟨⟨a, ha⟩, rfl⟩ := hp
  rw [Engine.transitionsOf?, node?_place_of_build h (mem_layout_iff.mpr ⟨a, ha⟩), Option.map_some,
    Option.getD_some, transitionsOn_node (valid_of_build h) ha]
  cases p.definition.transitionsOn kind <;> rfl

theorem transitionsOf?_eq_none_iff {id : StateId} (hid : id ∈ c) {kind : EventKind} :
    Engine.transitionsOf? c kind id = none ↔ d.Silent kind id := by
  obtain ⟨p, hp⟩ := stands_of_mem h hid
  have hnone : Engine.transitionsOf? c kind id = none ↔ p.definition.transitionsOn kind = [] := by
    rw [transitionsOf?_stands h hp]
    simp
  rw [hnone]
  constructor
  · intro hnil
    exact ⟨p, hp, StateDef.gives_iff.mpr hnil.symm⟩
  · rintro ⟨q, hq, hgives⟩
    obtain rfl := eq_of_stands hp hq
    exact (StateDef.gives_iff.mp hgives).symm

theorem transitionsOf?_eq_some_iff {id source : StateId} (hid : id ∈ c) {kind : EventKind}
    {ts : List Transition} :
    Engine.transitionsOf? c kind id = some (source, ts) ↔
      id = source ∧ ∃ p declared, d.Stands p source ∧
        p.definition.Gives kind declared ∧ declared ≠ [] ∧ ts = declared.map (d.resolved p) := by
  obtain ⟨p, hp⟩ := stands_of_mem h hid
  rw [transitionsOf?_stands h hp, Option.ite_none_left_eq_some, List.isEmpty_iff,
    Option.some.injEq, Prod.mk.injEq]
  constructor
  · rintro ⟨hne, rfl, rfl⟩
    exact ⟨rfl, p, _, hp, StateDef.gives_iff.mpr rfl, hne, rfl⟩
  · rintro ⟨rfl, q, declared, hq, hgives, hne, rfl⟩
    obtain rfl := eq_of_stands hp hq
    rw [← StateDef.gives_iff.mp hgives]
    exact ⟨hne, rfl, rfl⟩

end Build

end ChartDef

namespace Engine

theorem receive?_frame {e e' : Engine} {event : Event} (h : e.receive? event = some e') :
    e'.chart = e.chart ∧ e'.active = e.active ∧ e'.context = e.context.hearing event := by
  cases event with
  | lookupDone ticket answer =>
    obtain ⟨lookups, -, rfl⟩ := Option.map_eq_some_iff.mp h
    exact ⟨rfl, rfl, rfl⟩
  | click | ttsReady | recognised | endSpeech | timeout =>
    obtain rfl := Option.some.inj h
    exact ⟨rfl, rfl, rfl⟩

theorem step_eq_noHandler_iff {e e' : Engine} {event : Event} (h : e.receive? event = some e') :
    (e.step event).2 = .ignored .noHandler ↔ e'.handler? event.kind = none := by
  rw [step, h]
  cases hhandler : e'.handler? event.kind with
  | none => simp only [hhandler]
  | some handler =>
    cases hchoose : Transition.choose? handler.2 e'.context event <;>
      simp [hhandler, hchoose, fire]

theorem step_eq_noMatch_iff {e e' : Engine} {event : Event} (h : e.receive? event = some e') :
    (e.step event).2 = .ignored .noMatch ↔
      ∃ source ts, e'.handler? event.kind = some (source, ts) ∧
        Transition.choose? ts e'.context event = none := by
  rw [step, h]
  cases hhandler : e'.handler? event.kind with
  | none => simp [hhandler]
  | some handler =>
    cases hchoose : Transition.choose? handler.2 e'.context event with
    | none => simpa [hhandler, hchoose] using ⟨_, _, rfl, hchoose⟩
    | some t =>
      refine iff_of_false (by simp [hhandler, hchoose, fire]) ?_
      rintro ⟨source, ts, hsome, hnone⟩
      obtain rfl := Option.some.inj hsome
      exact Option.some_ne_none t (hchoose.symm.trans hnone)

/-! ## The decision of a run -/

section Sound

variable {d : ChartDef} {e : Engine} (hd : d.build = .ok e.chart) (h : e.Sound) {kind : EventKind}
include hd h

theorem handler?_eq_none_iff :
    e.handler? kind = none ↔ ∀ id ∈ e.active, d.Silent kind id := by
  rw [handler?, List.findSome?_eq_none_iff]
  exact forall₂_congr fun id hid => ChartDef.transitionsOf?_eq_none_iff hd (h.mem_of_active hid)

theorem handler?_eq_some_iff {source : StateId} {ts : List Transition} :
    e.handler? kind = some (source, ts) ↔
      ∃ inner outer, e.active = inner ++ source :: outer ∧
        (∀ id ∈ inner, d.Silent kind id) ∧ ∃ p declared, d.Stands p source ∧
          p.definition.Gives kind declared ∧ declared ≠ [] ∧ ts = declared.map (d.resolved p) := by
  rw [handler?, List.findSome?_eq_some_iff]
  have hnone : ∀ {inner outer}, e.active = inner ++ outer →
      ((∀ id ∈ inner, transitionsOf? e.chart kind id = none) ↔
        ∀ id ∈ inner, d.Silent kind id) := by
    intro inner outer hactive
    refine forall₂_congr fun id hid => ChartDef.transitionsOf?_eq_none_iff hd (h.mem_of_active ?_)
    rw [hactive]
    exact List.mem_append_left _ hid
  have hsome : ∀ {inner id outer}, e.active = inner ++ id :: outer → id ∈ e.chart := by
    intro inner id outer hactive
    refine h.mem_of_active ?_
    rw [hactive]
    exact List.mem_append_right _ List.mem_cons_self
  constructor
  · rintro ⟨inner, id, outer, hactive, hhandler, hsilent⟩
    obtain ⟨rfl, hlist⟩ := (ChartDef.transitionsOf?_eq_some_iff hd (hsome hactive)).mp hhandler
    exact ⟨inner, outer, hactive, (hnone hactive).mp hsilent, hlist⟩
  · rintro ⟨inner, outer, hactive, hsilent, hlist⟩
    refine ⟨inner, source, outer, hactive, ?_, (hnone hactive).mpr hsilent⟩
    exact (ChartDef.transitionsOf?_eq_some_iff hd (hsome hactive)).mpr ⟨rfl, hlist⟩

end Sound

/-- A step answers `event` as `d` decides on it, in the context in which `event` is written down. -/
structure DecidedBy (d : ChartDef) (e : Engine) (event : Event) : Prop where
  noHandler_iff : (e.step event).2 = .ignored .noHandler ↔
    d.Decides e.active (e.context.hearing event) event .noHandler
  noMatch_iff : (e.step event).2 = .ignored .noMatch ↔
    d.Decides e.active (e.context.hearing event) event .noMatch
  taken?_iff : ∀ source t, e.taken? event = some (source, t) ↔
    d.Decides e.active (e.context.hearing event) event (.take source t)
  fire : ∀ source t, e.taken? event = some (source, t) → ∃ e', e.receive? event = some e' ∧
    e'.context = e.context.hearing event ∧ e.step event = e'.fire event source t

theorem taken?_eq_some_iff {e e' : Engine} {event : Event} (h : e.receive? event = some e')
    {source : StateId} {t : Transition} :
    e.taken? event = some (source, t) ↔
      ∃ ts, e'.handler? event.kind = some (source, ts) ∧
        Transition.choose? ts e'.context event = some t := by
  rw [taken?, h, Option.bind_some, Option.bind_eq_some_iff]
  constructor
  · rintro ⟨⟨_, ts⟩, hhandler, hsome⟩
    obtain ⟨_, hchoose, heq⟩ := Option.map_eq_some_iff.mp hsome
    obtain ⟨rfl, rfl⟩ := Prod.mk.inj heq
    exact ⟨ts, hhandler, hchoose⟩
  · rintro ⟨ts, hhandler, hchoose⟩
    exact ⟨(source, ts), hhandler, Option.map_eq_some_iff.mpr ⟨t, hchoose, rfl⟩⟩

section Decides

variable {d : ChartDef} {e e' : Engine} {event : Event} (hreceive : e.receive? event = some e')
  (hd : d.build = .ok e.chart) (h : e.Sound)
include hreceive hd h

theorem receive?_spec : d.build = .ok e'.chart ∧ e'.Sound ∧ e'.active = e.active ∧
    e'.context = e.context.hearing event := by
  obtain ⟨hchart, hactive, hcontext⟩ := receive?_frame hreceive
  exact ⟨hchart ▸ hd, h.of_receive? hreceive, hactive, hcontext⟩

theorem step_eq_noHandler_iff_decides : (e.step event).2 = .ignored .noHandler ↔
    d.Decides e.active (e.context.hearing event) event .noHandler := by
  obtain ⟨hd', h', hactive, -⟩ := receive?_spec hreceive hd h
  rw [step_eq_noHandler_iff hreceive, handler?_eq_none_iff hd' h', hactive]
  constructor
  · exact .noHandler
  · rintro ⟨hsilent⟩
    exact hsilent

theorem step_eq_noMatch_iff_decides : (e.step event).2 = .ignored .noMatch ↔
    d.Decides e.active (e.context.hearing event) event .noMatch := by
  obtain ⟨hd', h', hactive, hcontext⟩ := receive?_spec hreceive hd h
  rw [step_eq_noMatch_iff hreceive, hcontext]
  simp only [handler?_eq_some_iff hd' h', hactive]
  constructor
  · rintro ⟨source, ts, ⟨inner, outer, hactive, hsilent, p, declared, hp, hgives, hne, rfl⟩, hnone⟩
    exact .noMatch hactive hsilent hp hgives hne
      (ChartDef.choose?_resolved_eq_none_iff.mp hnone)
  · intro hdecides
    cases hdecides with
    | noMatch hactive hsilent hp hgives hne hdisabled =>
      exact ⟨_, _, ⟨_, _, hactive, hsilent, _, _, hp, hgives, hne, rfl⟩,
        ChartDef.choose?_resolved_eq_none_iff.mpr hdisabled⟩

theorem taken?_eq_some_iff_decides (source : StateId) (t : Transition) :
    e.taken? event = some (source, t) ↔
      d.Decides e.active (e.context.hearing event) event (.take source t) := by
  obtain ⟨hd', h', hactive, hcontext⟩ := receive?_spec hreceive hd h
  -- a target names the state to which it is resolved, and no other
  have hnames : ∀ {p : StateDef.Placed} {declared t}, d.Stands p source →
      p.definition.Gives event.kind declared → t ∈ declared →
        d.Names p t.target (d.aim p t) := by
    rintro p declared t ⟨⟨a, ha⟩, -⟩ hgives ht
    rw [StateDef.gives_iff.mp hgives] at ht
    exact ChartDef.names_aim (ChartDef.valid_of_build hd) ha (StateDef.mem_transitionsOn.mp ht)
  rw [taken?_eq_some_iff hreceive, hcontext]
  simp only [handler?_eq_some_iff hd' h', hactive]
  constructor
  · rintro ⟨_, ⟨inner, outer, hactive, hsilent, p, declared, hp, hgives, -, rfl⟩, hchoose⟩
    obtain ⟨before, t', after, rfl, hdisabled, henabled, rfl⟩ :=
      ChartDef.choose?_resolved_eq_some_iff.mp hchoose
    exact .take hactive hsilent hp hgives hdisabled henabled
      (hnames hp hgives (List.mem_append_right _ List.mem_cons_self))
  · intro hdecides
    cases hdecides with
    | @take inner _ outer p before t' after target hactive hsilent hp hgives hdisabled henabled
        htarget =>
      have ht' := hnames hp hgives (List.mem_append_right _ List.mem_cons_self)
      obtain rfl := htarget.unique (ChartDef.valid_of_build hd) ht'
      exact ⟨_, ⟨inner, outer, hactive, hsilent, p, _, hp, hgives, by simp, rfl⟩,
        ChartDef.choose?_resolved_eq_some_iff.mpr
          ⟨before, t', after, rfl, hdisabled, henabled, rfl⟩⟩

end Decides

theorem Sound.decidedBy {d : ChartDef} {e : Engine} (hd : d.build = .ok e.chart) (h : e.Sound)
    {event : Event} (hlive : (e.step event).2 ≠ .ignored .staleCompletion) :
    e.DecidedBy d event := by
  obtain ⟨e', hreceive⟩ : ∃ e', e.receive? event = some e' :=
    Option.ne_none_iff_exists'.mp fun hnone => hlive (step_eq_stale_iff.mpr hnone)
  refine ⟨step_eq_noHandler_iff_decides hreceive hd h, step_eq_noMatch_iff_decides hreceive hd h,
    taken?_eq_some_iff_decides hreceive hd h, fun source t ht => ?_⟩
  obtain ⟨e', hreceive, hstep⟩ := step_of_taken? ht
  exact ⟨e', hreceive, (receive?_frame hreceive).2.2, hstep⟩

/-- After any events, an event that is no stale completion is answered as `d` decides on it. -/
theorem decidedBy_run {d : ChartDef} {c : Chart} (hd : d.build = .ok c) (journal : Journal Move)
    (events : List Event) {event : Event}
    (hlive : (((start c journal).run events).1.step event).2 ≠ .ignored .staleCompletion) :
    ((start c journal).run events).1.DecidedBy d event := by
  refine Sound.decidedBy ?_ ((sound_start (ChartDef.wellFormed_of_build hd) journal).run events)
    hlive
  rwa [chart_run_start]

def bellHeard : Guard :=
  .onContext fun ctx => ctx.turn.utterance = "bell"

def ring : Action :=
  .fill .help fun ctx => some ctx.turn.utterance

def receptionDefinition : ChartDef where
  initial := "hall"
  states :=
    [((StateDef.compound "hall" "desk").on .recognised [{ target := "yard" }]).containing
        [((StateDef.atomic "desk").on .recognised [{ target := "#yard", guard := some .never }]).on
            .recognised [{ target := "door", guard := some bellHeard, actions := [ring] }],
          StateDef.atomic "door"],
      StateDef.atomic "yard"]

def reception : Engine :=
  start receptionDefinition.chart (.withCapacity 4)

/-- On `bell` the desk takes its second transition.  On `ada` it takes none, and the transition of
`hall` is not looked at. -/
theorem decidedBy_run_reception :
    receptionDefinition.build = .ok receptionDefinition.chart ∧
      receptionDefinition.Decides [⟨2⟩, ⟨1⟩, ⟨0⟩]
        (Context.hearing {} (.recognised { utterance := "bell" }))
        (.recognised { utterance := "bell" })
        (.take ⟨2⟩ { guard := some bellHeard, target := ⟨3⟩, actions := [ring] }) ∧
      receptionDefinition.Decides [⟨2⟩, ⟨1⟩, ⟨0⟩]
        (Context.hearing {} (.recognised { utterance := "ada" }))
        (.recognised { utterance := "ada" }) .noMatch ∧
      (let e := (reception.step (.recognised { utterance := "bell" })).1
       e.leafPath = "hall.door" ∧ e.context.slots = { help := some "bell" }) ∧
      let e := (reception.step (.recognised { utterance := "ada" })).1
      e.leafPath = "hall.desk" ∧ e.context.slots = {} := by
  have hbuild := ChartDef.build_eq_ok (d := receptionDefinition) rfl
  have hdecided := fun event =>
    @decidedBy_run _ _ hbuild (.withCapacity 4) [] event
  refine ⟨hbuild, ?_, ?_, ⟨by decide, by decide⟩, by decide, by decide⟩
  · exact ((hdecided (.recognised { utterance := "bell" }) (by decide)).taken?_iff _ _).mp rfl
  · exact (hdecided (.recognised { utterance := "ada" }) (by decide)).noMatch_iff.mp rfl

end Engine

end Dialogue
