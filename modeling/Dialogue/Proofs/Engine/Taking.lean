import Dialogue.Engine.Step
/-!
# What a step does

A step is taken apart once and for all: the transition that an event takes, the states that it
leaves and enters, and what running actions, leaving and entering do to each part of an engine.
Later modules use these equations and never open the step itself.
-/

namespace Dialogue

theorem Node.mem_transitionsOn {n : Node} {kind : EventKind} {t : Transition} :
    t ∈ n.transitionsOn kind ↔ (kind, t) ∈ n.transitions :=
  EventKind.mem_filterMap_iff

namespace Chart

def invokes (c : Chart) (id : StateId) : Bool :=
  ((c.node? id).bind Node.invoke).isSome

end Chart

/-! ## History and lookups over several states -/

def History.recordAll (c : Chart) (leaf : StateId) (h : History) (ids : List StateId) : History :=
  ids.foldl (fun h id => if c.isCompound id then h.record id leaf else h) h

theorem History.resume?_record (h : History) (compound leaf id : StateId) :
    (h.record compound leaf).resume? id = if id = compound then some leaf else h.resume? id :=
  Table.get?_insert h.leaves compound id leaf

theorem History.resume?_recordAll (c : Chart) (leaf : StateId) (h : History)
    (ids : List StateId) (id : StateId) :
    (h.recordAll c leaf ids).resume? id =
      if id ∈ ids ∧ c.isCompound id then some leaf else h.resume? id := by
  induction ids generalizing h with
  | nil => simp [recordAll]
  | cons a ids ih =>
    rw [recordAll, List.foldl_cons, ← recordAll, ih]
    by_cases hid : id ∈ ids ∧ c.isCompound id
    · rw [if_pos hid, if_pos ⟨List.mem_cons_of_mem _ hid.1, hid.2⟩]
    · rw [if_neg hid]
      by_cases ha : c.isCompound a
      · rw [if_pos ha, resume?_record]
        by_cases heq : id = a
        · rw [if_pos heq, if_pos ⟨heq ▸ List.mem_cons_self, heq ▸ ha⟩]
        · rw [if_neg heq, if_neg (by simpa [heq] using hid)]
      · rw [if_neg ha, if_neg]
        rintro ⟨hmem, hcompound⟩
        rcases List.mem_cons.mp hmem with rfl | hmem
        · exact ha hcompound
        · exact hid ⟨hmem, hcompound⟩

namespace Engine

/-! ## Actions -/

section Perform

variable (event : Option Event) (actions : List Action) (e : Engine)

@[simp] theorem chart_perform : (e.perform event actions).chart = e.chart := rfl

@[simp] theorem active_perform : (e.perform event actions).active = e.active := rfl

@[simp] theorem history_perform : (e.perform event actions).history = e.history := rfl

@[simp] theorem lookups_perform : (e.perform event actions).lookups = e.lookups := rfl

@[simp] theorem journal_perform : (e.perform event actions).journal = e.journal := rfl

@[simp] theorem leaf_perform : (e.perform event actions).leaf = e.leaf := rfl

end Perform

/-! ## Entering -/

section Enter

variable (event : Option Event) (e : Engine) (id : StateId) (ids : List StateId)

/-- What entering a state leaves alone, and what it does to the active states and the lookups. -/
theorem enter_spec :
    (e.enter event id).chart = e.chart ∧ (e.enter event id).history = e.history ∧
      (e.enter event id).journal = e.journal ∧ (e.enter event id).active = id :: e.active ∧
      (e.enter event id).lookups =
        if e.chart.invokes id then e.lookups.start id else e.lookups := by
  unfold enter Chart.invokes
  cases hnode : e.chart.node? id with
  | none => simp [hnode]
  | some node => cases hinvoke : node.invoke <;> simp [hnode, hinvoke, invoke]

@[simp] theorem chart_enter : (e.enter event id).chart = e.chart :=
  (enter_spec event e id).1

@[simp] theorem history_enter : (e.enter event id).history = e.history :=
  (enter_spec event e id).2.1

@[simp] theorem journal_enter : (e.enter event id).journal = e.journal :=
  (enter_spec event e id).2.2.1

@[simp] theorem active_enter : (e.enter event id).active = id :: e.active :=
  (enter_spec event e id).2.2.2.1

theorem lookups_enter :
    (e.enter event id).lookups =
      if e.chart.invokes id then e.lookups.start id else e.lookups :=
  (enter_spec event e id).2.2.2.2

@[simp] theorem enterAll_nil : e.enterAll event [] = e := rfl

@[simp] theorem enterAll_cons :
    e.enterAll event (id :: ids) = (e.enter event id).enterAll event ids := rfl

@[simp] theorem chart_enterAll : (e.enterAll event ids).chart = e.chart := by
  induction ids generalizing e with
  | nil => rfl
  | cons id ids ih => rw [enterAll_cons, ih, chart_enter]

@[simp] theorem history_enterAll : (e.enterAll event ids).history = e.history := by
  induction ids generalizing e with
  | nil => rfl
  | cons id ids ih => rw [enterAll_cons, ih, history_enter]

@[simp] theorem journal_enterAll : (e.enterAll event ids).journal = e.journal := by
  induction ids generalizing e with
  | nil => rfl
  | cons id ids ih => rw [enterAll_cons, ih, journal_enter]

@[simp] theorem active_enterAll :
    (e.enterAll event ids).active = ids.reverse ++ e.active := by
  induction ids generalizing e with
  | nil => rfl
  | cons id ids ih =>
    rw [enterAll_cons, ih, active_enter, List.reverse_cons, List.append_assoc]
    rfl

end Enter

/-! ## Leaving -/

theorem foldl_leave (leaf : StateId) (e : Engine) (ids : List StateId) :
    ids.foldl (leave leaf) e =
      { e with
        lookups := ids.foldl Lookups.cancel e.lookups
        history := e.history.recordAll e.chart leaf ids } := by
  induction ids generalizing e with
  | nil => rfl
  | cons id ids ih =>
    rw [List.foldl_cons, ih]
    rfl

theorem exitBelow_eq {e : Engine} {domain : StateId} (h : domain ∈ e.active) :
    e.exitBelow domain =
      { e with
        lookups := (e.active.takeWhile fun id => id != domain).foldl Lookups.cancel e.lookups
        history :=
          e.history.recordAll e.chart e.leaf (e.active.takeWhile fun id => id != domain)
        active := e.active.dropWhile fun id => id != domain } := by
  rw [exitBelow, if_pos (List.contains_iff_mem.mpr h)]
  simp only [foldl_leave]

theorem active_exitBelow {e : Engine} {domain : StateId} (h : domain ∈ e.active) :
    (e.exitBelow domain).active = e.active.dropWhile fun id => id != domain := by
  rw [exitBelow_eq h]

@[simp] theorem chart_exitBelow (e : Engine) (domain : StateId) :
    (e.exitBelow domain).chart = e.chart := by
  unfold exitBelow
  split
  · simp only [foldl_leave]
  · rfl

theorem history_exitBelow (e : Engine) (domain : StateId) :
    (e.exitBelow domain).history =
      if e.active.contains domain then
        e.history.recordAll e.chart e.leaf (e.active.takeWhile fun id => id != domain)
      else e.history := by
  unfold exitBelow
  split
  · simp only [foldl_leave]
  · rfl

/-! ## Transitions -/

def domain (e : Engine) (source target : StateId) : StateId :=
  e.chart.transitionDomain source (effectiveTarget e.chart target)

def left (e : Engine) (source target : StateId) : List StateId :=
  e.active.takeWhile fun id => id != e.domain source target

def kept (e : Engine) (source target : StateId) : List StateId :=
  e.active.dropWhile fun id => id != e.domain source target

theorem left_append_kept (e : Engine) (source target : StateId) :
    e.left source target ++ e.kept source target = e.active :=
  List.takeWhile_append_dropWhile

def entered (e : Engine) (source target : StateId) : List StateId :=
  e.chart.pathBetween (e.domain source target) (effectiveTarget e.chart target)
    ++ (e.exitBelow (e.domain source target)).resumed target

/-- The states entered are those of the chart, the active states and the history alone. -/
theorem entered_congr {e e' : Engine} (hchart : e'.chart = e.chart)
    (hactive : e'.active = e.active) (hhistory : e'.history = e.history)
    (source target : StateId) : e'.entered source target = e.entered source target := by
  unfold entered resumed domain
  rw [history_exitBelow, history_exitBelow, chart_exitBelow, chart_exitBelow, leaf, leaf, hchart,
    hactive, hhistory]

theorem take_eq (event : Event) (source target : StateId) (e : Engine) :
    e.take event source target =
      (e.exitBelow (e.domain source target)).enterAll (some event) (e.entered source target) := by
  simp only [take, entered, chart_exitBelow]
  rfl

section Fire

variable {e : Engine} (event : Event) {source : StateId} {t : Transition}

theorem take_perform_eq (h : e.domain source t.target ∈ e.active) :
    (e.perform (some event) t.actions).take event source t.target =
      { e.perform (some event) t.actions with
        lookups := (e.left source t.target).foldl Lookups.cancel e.lookups
        history := e.history.recordAll e.chart e.leaf (e.left source t.target)
        active := e.kept source t.target : Engine }.enterAll (some event)
          (e.entered source t.target) := by
  have hentered : (e.perform (some event) t.actions).entered source t.target =
      e.entered source t.target := by
    apply entered_congr <;> rfl
  have hdomain : (e.perform (some event) t.actions).domain source t.target =
      e.domain source t.target := rfl
  have hactive : e.domain source t.target ∈ (e.perform (some event) t.actions).active := h
  rw [take_eq, hentered, hdomain, exitBelow_eq hactive]
  rfl

@[simp] theorem chart_fire : (e.fire event source t).1.chart = e.chart := by
  simp [fire, log, take_eq]

theorem active_fire (h : e.domain source t.target ∈ e.active) :
    (e.fire event source t).1.active =
      (e.entered source t.target).reverse ++ e.kept source t.target := by
  simp only [fire, log, take_perform_eq event h, active_enterAll]

theorem history_fire (h : e.domain source t.target ∈ e.active) :
    (e.fire event source t).1.history =
      e.history.recordAll e.chart e.leaf (e.left source t.target) := by
  simp only [fire, log, take_perform_eq event h, history_enterAll]

end Fire

/-! ## Steps -/

/-- What is written down of an event by itself changes the context and the lookups alone, and the
lookups only by a completion. -/
theorem receive?_eq_some {e e' : Engine} {event : Event} (h : e.receive? event = some e') :
    ∃ context lookups, e' = { e with context, lookups } ∧
      (lookups = e.lookups ∨
        ∃ ticket answer, event = .lookupDone ticket answer ∧
          e.lookups.complete? ticket = some lookups) := by
  cases event with
  | lookupDone ticket answer =>
    obtain ⟨lookups, hlookups, rfl⟩ := Option.map_eq_some_iff.mp h
    exact ⟨_, lookups, rfl, Or.inr ⟨ticket, answer, rfl, hlookups⟩⟩
  | recognised turn =>
    obtain rfl := Option.some.inj h
    exact ⟨_, _, rfl, Or.inl rfl⟩
  | click | ttsReady | endSpeech | timeout =>
    obtain rfl := Option.some.inj h
    exact ⟨_, _, rfl, Or.inl rfl⟩

theorem leaf_receive? {e e' : Engine} {event : Event} (h : e.receive? event = some e') :
    e'.leaf = e.leaf := by
  obtain ⟨_, _, rfl, -⟩ := receive?_eq_some h
  rfl

def taken? (e : Engine) (event : Event) : Option (StateId × Transition) :=
  (e.receive? event).bind fun e =>
    (e.handler? event.kind).bind fun h =>
      (Transition.choose? h.2 e.context event).map fun t => (h.1, t)

/-- An event is stale and changes nothing, or it is ignored once it is written down, or it takes a
transition. -/
theorem step_cases (e : Engine) (event : Event) :
    (e.receive? event = none ∧ e.taken? event = none ∧
        e.step event = (e, .ignored .staleCompletion)) ∨
      ∃ e', e.receive? event = some e' ∧
        ((e.taken? event = none ∧
            ∃ reason, reason ≠ .staleCompletion ∧ e.step event = (e', .ignored reason)) ∨
          ∃ source t, e.taken? event = some (source, t) ∧
            e.step event = e'.fire event source t) := by
  unfold taken? step
  cases hreceive : e.receive? event with
  | none => exact Or.inl ⟨rfl, rfl, rfl⟩
  | some e' =>
    refine Or.inr ⟨e', rfl, ?_⟩
    simp only [Option.bind_some]
    cases e'.handler? event.kind with
    | none => exact Or.inl ⟨rfl, .noHandler, by decide, rfl⟩
    | some handler =>
      simp only [Option.bind_some]
      cases Transition.choose? handler.2 e'.context event with
      | none => exact Or.inl ⟨rfl, .noMatch, by decide, rfl⟩
      | some t => exact Or.inr ⟨handler.1, t, rfl, rfl⟩

theorem step_of_taken? {e : Engine} {event : Event} {source : StateId} {t : Transition}
    (ht : e.taken? event = some (source, t)) :
    ∃ e', e.receive? event = some e' ∧ e.step event = e'.fire event source t := by
  rcases step_cases e event with
    ⟨-, hnone, -⟩ | ⟨e', hreceive, ⟨hnone, -⟩ | ⟨_, _, hsome, hstep⟩⟩
  · rw [hnone] at ht
    cases ht
  · rw [hnone] at ht
    cases ht
  · obtain ⟨rfl, rfl⟩ := Prod.mk.inj (Option.some.inj (ht.symm.trans hsome))
    exact ⟨e', hreceive, hstep⟩

theorem step_of_receive?_eq_none {e : Engine} {event : Event} (h : e.receive? event = none) :
    e.step event = (e, .ignored .staleCompletion) := by
  rw [step, h]

theorem step_eq_stale_iff {e : Engine} {event : Event} :
    (e.step event).2 = .ignored .staleCompletion ↔ e.receive? event = none := by
  rcases step_cases e event with
    ⟨hstale, -, hstep⟩ | ⟨e', hreceive, ⟨-, reason, hreason, hstep⟩ | ⟨source, t, -, hstep⟩⟩
  · rw [hstep, hstale]
    exact iff_of_true rfl rfl
  · rw [hstep, hreceive]
    exact iff_of_false (fun heq => hreason (StepResult.ignored.inj heq)) (by simp)
  · rw [hstep, hreceive]
    exact iff_of_false (fun heq => StepResult.noConfusion heq) (by simp)

theorem receive?_lookupDone_eq_none {e : Engine} {ticket : Ticket} {answer : Answer} :
    e.receive? (.lookupDone ticket answer) = none ↔ e.lookups.live ≠ some ticket := by
  simp [receive?, Lookups.complete?]

theorem transitionsOf?_eq_some {c : Chart} {kind : EventKind} {id source : StateId}
    {ts : List Transition} (h : transitionsOf? c kind id = some (source, ts)) :
    id = source ∧ ∃ n, c.node? source = some n ∧ ts = n.transitionsOn kind := by
  unfold transitionsOf? at h
  split at h
  · cases h
  · next hne =>
    obtain ⟨rfl, rfl⟩ := Prod.mk.inj (Option.some.inj h)
    cases hnode : c.node? id with
    | none => exact absurd (by simp [hnode]) hne
    | some n => exact ⟨rfl, n, rfl, rfl⟩

theorem taken?_eq_some {e : Engine} {event : Event} {source : StateId} {t : Transition}
    (h : e.taken? event = some (source, t)) :
    source ∈ e.active ∧
      ∃ n, e.chart.node? source = some n ∧ (event.kind, t) ∈ n.transitions := by
  obtain ⟨e', hreceive, h⟩ := Option.bind_eq_some_iff.mp h
  obtain ⟨⟨_, ts⟩, hhandler, h⟩ := Option.bind_eq_some_iff.mp h
  obtain ⟨_, hchoose, h⟩ := Option.map_eq_some_iff.mp h
  obtain ⟨rfl, rfl⟩ := Prod.mk.inj h
  obtain ⟨_, _, rfl, -⟩ := receive?_eq_some hreceive
  obtain ⟨id, hid, hts⟩ := List.exists_of_findSome?_eq_some hhandler
  obtain ⟨rfl, n, hnode, rfl⟩ := transitionsOf?_eq_some hts
  exact ⟨hid, n, hnode, Node.mem_transitionsOn.mp (List.mem_of_find?_eq_some hchoose)⟩

/-! ## Runs -/

theorem run_cons (e : Engine) (event : Event) (events : List Event) :
    e.run (event :: events) =
      (((e.step event).1.run events).1, (e.step event).2 :: ((e.step event).1.run events).2) :=
  rfl

theorem run_append_eq (e : Engine) (events events' : List Event) :
    e.run (events ++ events') =
      (((e.run events).1.run events').1, (e.run events).2 ++ ((e.run events).1.run events').2) := by
  induction events generalizing e with
  | nil => rfl
  | cons event events ih => rw [List.cons_append, run_cons, ih, run_cons, List.cons_append]

theorem run_concat (e : Engine) (events : List Event) (event : Event) :
    e.run (events ++ [event]) =
      (((e.run events).1.step event).1, (e.run events).2 ++ [((e.run events).1.step event).2]) :=
  run_append_eq e events [event]

theorem length_run (e : Engine) (events : List Event) :
    (e.run events).2.length = events.length := by
  induction events generalizing e with
  | nil => rfl
  | cons event events ih => exact congrArg (· + 1) (ih (e.step event).1)

theorem run_invariant {P : Engine → Prop} (hstep : ∀ e event, P e → P (e.step event).1)
    {e : Engine} (h : P e) (events : List Event) : P (e.run events).1 := by
  induction events generalizing e with
  | nil => exact h
  | cons event events ih => exact ih (hstep e event h)

end Engine

end Dialogue
