import Dialogue.Proofs.Engine.Passage
/-!
# Delivery

Directives come from three places: the actions of transitions, the entry actions of states and the
lookups that states begin.  Told deed by deed, without any list that they wait in, they are just
those that the steps return, in the same order.  Only what the initial states ask for ever waits.
-/

namespace Dialogue

/-! ## What deeds ask for -/

namespace Deed

def asks (event : Option Event) (ctx : Context) (l : Lookups) : Deed → List Directive
  | act _ action => (action.run event ctx).2
  | ask id subject => [.lookup (l.nextTicket id) (subject ctx)]
  | cancel _ | record _ _ => []

def context (event : Option Event) (ctx : Context) : Deed → Context
  | act _ action => (action.run event ctx).1
  | cancel _ | record _ _ | ask _ _ => ctx

def lookups (l : Lookups) : Deed → Lookups
  | cancel id => l.cancel id
  | ask id _ => l.start id
  | act _ _ | record _ _ => l

def asksAll (event : Option Event) : Context → Lookups → List Deed → List Directive
  | _, _, [] => []
  | ctx, l, deed :: deeds =>
    deed.asks event ctx l ++ asksAll event (deed.context event ctx) (deed.lookups l) deeds

end Deed

def StepResult.isTransitioned : StepResult → Bool
  | transitioned _ _ _ _ => true
  | ignored _ => false

namespace Engine

def opening (c : Chart) : List Directive :=
  Deed.asksAll none {} {} ((c.initialDescent Chart.root).flatMap c.entryDeeds)

/-- What the transition that an event takes asks for: first its own actions, then the states that it
enters. -/
def produced (e : Engine) (event : Event) : List Directive :=
  match e.taken? event with
  | none => []
  | some (source, t) =>
    Deed.asksAll (some event) (e.noted event).context (e.noted event).lookups
      (e.deeds t (e.passage source t.target))

def producedAll (e : Engine) : List Event → List Directive
  | [] => []
  | event :: events => e.produced event ++ (e.step event).1.producedAll events

/-- What deeds ask for joins the end of what is pending. -/
theorem pending_carryOutAll (event : Option Event) (e : Engine) (deeds : List Deed) :
    (e.carryOutAll event deeds).pending =
      e.pending ++ Deed.asksAll event e.context e.lookups deeds := by
  induction deeds generalizing e with
  | nil => exact (List.append_nil _).symm
  | cons deed deeds ih =>
    have hdeed : (e.carryOut event deed).pending =
          e.pending ++ deed.asks event e.context e.lookups ∧
        (e.carryOut event deed).context = deed.context event e.context ∧
        (e.carryOut event deed).lookups = deed.lookups e.lookups := by
      cases deed <;> simp [carryOut, Deed.asks, Deed.context, Deed.lookups]
    obtain ⟨hpending, hcontext, hlookups⟩ := hdeed
    rw [carryOutAll, List.foldl_cons, ← carryOutAll, ih, hpending, hcontext, hlookups,
      List.append_assoc, Deed.asksAll]

theorem pending_start (c : Chart) (journal : Journal Move) :
    (start c journal).pending = opening c := by
  rw [start_eq, enterAll_eq]
  exact pending_carryOutAll none (unborn c journal) _

theorem pending_noted (e : Engine) (event : Event) : (e.noted event).pending = e.pending := by
  unfold noted
  cases hreceive : e.receive? event with
  | none => rfl
  | some e' =>
    obtain ⟨_, _, rfl, -⟩ := receive?_eq_some hreceive
    rfl

/-! ## Steps -/

/-- A transition returns what was pending and then what it asks for; an event that is ignored asks
for nothing and leaves what is pending alone. -/
theorem Sound.delivered_step {e : Engine} (h : e.Sound) (hroot : ¬ e.chart.isHistory Chart.root)
    (event : Event) :
    (e.step event).2.directives ++ (e.step event).1.pending = e.pending ++ e.produced event ∧
      (e.step event).1.pending =
        if (e.step event).2.isTransitioned then [] else e.pending := by
  unfold produced
  rcases step_cases e event with
    ⟨-, ht, hstep⟩ | ⟨e', hreceive, ⟨ht, _, -, hstep⟩ | ⟨source, t, ht, -⟩⟩
  · rw [ht, hstep]
    exact ⟨(List.append_nil _).symm, rfl⟩
  · obtain ⟨_, _, rfl, -⟩ := receive?_eq_some hreceive
    rw [ht, hstep]
    exact ⟨(List.append_nil _).symm, rfl⟩
  · have hpending := pending_carryOutAll (some event) (e.noted event)
      (e.deeds t (e.passage source t.target))
    rw [pending_noted] at hpending
    rw [ht, (h.confined hroot ht).step_eq]
    exact ⟨(List.append_nil _).trans hpending, rfl⟩

/-! ## Runs -/

theorem Sound.delivered_run {e : Engine} (h : e.Sound) (hroot : ¬ e.chart.isHistory Chart.root)
    (events : List Event) :
    (e.run events).2.flatMap StepResult.directives ++ (e.run events).1.pending =
        e.pending ++ e.producedAll events ∧
      (e.run events).1.pending =
        if (e.run events).2.any StepResult.isTransitioned then [] else e.pending := by
  induction events generalizing e with
  | nil => exact ⟨(List.append_nil _).symm, rfl⟩
  | cons event events ih =>
    obtain ⟨hdelivered, hpending⟩ := h.delivered_step hroot event
    obtain ⟨hrest, hheld⟩ := ih (h.step event) (by rwa [chart_step])
    constructor
    · calc (e.run (event :: events)).2.flatMap StepResult.directives ++
            (e.run (event :: events)).1.pending
          = (e.step event).2.directives ++
              (((e.step event).1.run events).2.flatMap StepResult.directives ++
                ((e.step event).1.run events).1.pending) := by
            rw [run_cons, List.flatMap_cons, List.append_assoc]
        _ = ((e.step event).2.directives ++ (e.step event).1.pending) ++
              (e.step event).1.producedAll events := by
            rw [hrest, List.append_assoc]
        _ = e.pending ++ e.producedAll (event :: events) := by
            rw [hdelivered, producedAll, List.append_assoc]
    · rw [run_cons, hheld, hpending, List.any_cons]
      cases (e.step event).2.isTransitioned <;> simp

/-- The directives that were returned, followed by those in `pending`, are those of the initial
states followed by those of every transition, in order.  Until the first transition `pending` is
`opening c`, after it `[]`. -/
theorem delivery_run {d : ChartDef} {c : Chart} (hd : d.build = .ok c) (journal : Journal Move)
    (events : List Event) :
    let s := (start c journal).run events
    s.2.flatMap StepResult.directives ++ s.1.pending =
        opening c ++ (start c journal).producedAll events ∧
      s.1.pending = (if s.2.any StepResult.isTransitioned then [] else opening c) ∧
      ∀ event,
        (s.1.step event).2.directives ++ (s.1.step event).1.pending =
            s.1.pending ++ s.1.produced event ∧
          (s.1.step event).1.pending =
            if (s.1.step event).2.isTransitioned then [] else s.1.pending := by
  intro s
  have hsound : (start c journal).Sound := sound_start (ChartDef.wellFormed_of_build hd) journal
  have hchart : (start c journal).chart = c := chart_enterAll none _ _
  have hroot : ¬ c.isHistory Chart.root := ChartDef.not_isHistory_root_of_build hd
  obtain ⟨hdelivered, hpending⟩ := hsound.delivered_run (by rwa [hchart]) events
  rw [pending_start] at hdelivered hpending
  refine ⟨hdelivered, hpending, (hsound.run events).delivered_step ?_⟩
  rwa [chart_run_start]

def porterDefinition : ChartDef where
  initial := "gate"
  states :=
    [(StateDef.compound "gate" "shut").onEntry [.speak "Good evening."] |>.containing
        [((StateDef.atomic "shut").onEntry [.listen]).on .click
          [{ target := "open", actions := [.speak "Come in."] }],
        ((StateDef.atomic "open").onEntry [.speak "Wait here."]).invoking fun _ => "guest"]]

theorem delivery_run_porter :
    porterDefinition.build = .ok porterDefinition.chart ∧
      opening porterDefinition.chart = [.speak "Good evening.", .listen] ∧
      ((start porterDefinition.chart (.withCapacity 4)).run [.timeout]).1.pending =
        opening porterDefinition.chart ∧
      ((start porterDefinition.chart (.withCapacity 4)).run [.timeout, .click]).2.flatMap
          StepResult.directives ++
        ((start porterDefinition.chart (.withCapacity 4)).run [.timeout, .click]).1.pending =
        [.speak "Good evening.", .listen, .speak "Come in.", .speak "Wait here.",
          .lookup ⟨⟨3⟩, 1⟩ "guest"] := by
  have hbuild := ChartDef.build_eq_ok (d := porterDefinition) rfl
  have hheld := (delivery_run hbuild (.withCapacity 4) [.timeout]).2.1
  have hdelivered := (delivery_run hbuild (.withCapacity 4) [.timeout, .click]).1
  refine ⟨hbuild, by decide, hheld, hdelivered.trans ?_⟩
  decide

end Engine

end Dialogue
