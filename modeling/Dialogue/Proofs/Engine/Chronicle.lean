import Dialogue.Proofs.Engine.Configuration
/-!
# The chronicle of a run

A run is told as the list of what happens in it: completions that are accepted, states that are left
and entered, tickets that are issued.  A property that ties an engine to its past is kept by every
run once it is kept by each of these.  Played back, the chronicle gives the active states, and the
tickets issued in it are those of the lookups that the engine asks for.
-/

namespace Dialogue

/-- One thing that happens in an engine.  A state is left at the leaf that is active then. -/
inductive Mark where
  | accepted (ticket : Ticket)
  | left (id leaf : StateId)
  | entered (id : StateId)
  | issued (ticket : Ticket)
  deriving DecidableEq, Repr

namespace Mark

def tickets (past : List Mark) : List Ticket :=
  past.filterMap fun
    | issued ticket => some ticket
    | _ => none

def completed (past : List Mark) : List Ticket :=
  past.filterMap fun
    | accepted ticket => some ticket
    | _ => none

def lastLeft (id : StateId) (past : List Mark) : Option StateId :=
  past.reverse.findSome? fun
    | left id' leaf => if id' = id then some leaf else none
    | _ => none

/-- The active states after a mark, innermost first.  Only the innermost state can be left or get a
ticket, and no state is entered twice. -/
def play? (active : List StateId) : Mark → Option (List StateId)
  | left id _ => if active.head? = some id then some active.tail else none
  | entered id => if id ∈ active then none else some (id :: active)
  | issued ticket => if active.head? = some ticket.state then some active else none
  | accepted _ => some active

def replay? : List StateId → List Mark → Option (List StateId)
  | active, [] => some active
  | active, mark :: marks => (play? active mark).bind fun active => replay? active marks

theorem replay?_append (active : List StateId) (past past' : List Mark) :
    replay? active (past ++ past') =
      (replay? active past).bind fun active => replay? active past' := by
  induction past generalizing active with
  | nil => rfl
  | cons mark past ih =>
    rw [List.cons_append, replay?, replay?, Option.bind_assoc]
    simp only [ih]

theorem replay?_map_left (leaf : StateId) (ids rest : List StateId) :
    replay? (ids ++ rest) (ids.map fun id => left id leaf) = some rest := by
  induction ids with
  | nil => rfl
  | cons id ids ih => simpa [replay?, play?] using ih

theorem tickets_append (past past' : List Mark) :
    tickets (past ++ past') = tickets past ++ tickets past' :=
  List.filterMap_append

theorem completed_append (past past' : List Mark) :
    completed (past ++ past') = completed past ++ completed past' :=
  List.filterMap_append

theorem mem_tickets {past : List Mark} {ticket : Ticket} :
    ticket ∈ tickets past ↔ issued ticket ∈ past := by
  rw [tickets, List.mem_filterMap]
  constructor
  · rintro ⟨mark, hmem, heq⟩
    cases mark <;> cases heq
    exact hmem
  · intro hmem
    exact ⟨issued ticket, hmem, rfl⟩

theorem tickets_map_left (leaf : StateId) (ids : List StateId) :
    tickets (ids.map fun id => left id leaf) = [] := by
  simp [tickets]

theorem completed_map_left (leaf : StateId) (ids : List StateId) :
    completed (ids.map fun id => left id leaf) = [] := by
  simp [completed]

theorem lastLeft_append (id : StateId) (past past' : List Mark) :
    lastLeft id (past ++ past') = (lastLeft id past').or (lastLeft id past) := by
  rw [lastLeft, List.reverse_append, List.findSome?_append]
  rfl

theorem lastLeft_map_left (id leaf : StateId) (ids : List StateId) :
    lastLeft id (ids.map fun id => left id leaf) = if id ∈ ids then some leaf else none := by
  induction ids with
  | nil => rfl
  | cons a ids ih =>
    rw [List.map_cons, ← List.singleton_append, lastLeft_append, ih]
    by_cases hmem : id ∈ ids
    · simp [hmem]
    · by_cases ha : a = id
      · subst ha
        simp [lastLeft, hmem]
      · simp [lastLeft, ha, hmem, Ne.symm ha]

end Mark

namespace Engine

def receiveMarks : Event → List Mark
  | .lookupDone ticket _ => [.accepted ticket]
  | _ => []

def leaveMarks (e : Engine) (domain : StateId) : List Mark :=
  (e.active.takeWhile fun id => id != domain).map fun id => .left id e.leaf

def enterMarks (e : Engine) (id : StateId) : List Mark :=
  .entered id :: if e.chart.invokes id then [.issued (e.lookups.nextTicket id)] else []

def enterAllMarks (event : Option Event) : Engine → List StateId → List Mark
  | _, [] => []
  | e, id :: ids => e.enterMarks id ++ enterAllMarks event (e.enter event id) ids

def fireMarks (event : Event) (source : StateId) (t : Transition) (e : Engine) : List Mark :=
  let e := e.perform (some event) t.actions
  e.leaveMarks (e.domain source t.target)
    ++ enterAllMarks (some event) (e.exitBelow (e.domain source t.target))
      (e.entered source t.target)

def stepMarks (e : Engine) (event : Event) : List Mark :=
  match e.receive? event with
  | none => []
  | some e' =>
    receiveMarks event ++
      match e.taken? event with
      | none => []
      | some (source, t) => e'.fireMarks event source t

def runMarks (e : Engine) : List Event → List Mark
  | [] => []
  | event :: events => e.stepMarks event ++ (e.step event).1.runMarks events

def unborn (c : Chart) (journal : Journal Move) : Engine :=
  { chart := c, active := [Chart.root], journal }

theorem start_eq (c : Chart) (journal : Journal Move) :
    start c journal = (unborn c journal).enterAll none (c.initialDescent Chart.root) := rfl

def chronicle (c : Chart) (journal : Journal Move) (events : List Event) : List Mark :=
  enterAllMarks none (unborn c journal) (c.initialDescent Chart.root)
    ++ (start c journal).runMarks events

theorem run_append (e : Engine) (events events' : List Event) :
    (e.run (events ++ events')).1 = ((e.run events).1.run events').1 := by
  rw [run_append_eq]

theorem runMarks_append (e : Engine) (events events' : List Event) :
    e.runMarks (events ++ events') = e.runMarks events ++ (e.run events).1.runMarks events' := by
  induction events generalizing e with
  | nil => rfl
  | cons event events ih =>
    rw [List.cons_append, runMarks, ih, runMarks, List.append_assoc]
    rfl

/-! ## Properties of an engine and its past -/

/-- A property of an engine and its past that looks at the chart, the active states, the history and
the lookups, and that is kept by whatever happens. -/
structure Tracks (P : Engine → List Mark → Prop) : Prop where
  frame : ∀ {e e' past}, P e past → e'.chart = e.chart → e'.active = e.active →
    e'.history = e.history → e'.lookups = e.lookups → P e' past
  accept : ∀ {e past ticket lookups}, e.lookups.complete? ticket = some lookups → P e past →
    P { e with lookups } (past ++ [.accepted ticket])
  leave : ∀ {e past domain}, e.Sound → domain ∈ e.active → P e past →
    P (e.exitBelow domain) (past ++ e.leaveMarks domain)
  enter : ∀ {e past id} event, id ∉ e.active → P e past →
    P (e.enter event id) (past ++ e.enterMarks id)

namespace Tracks

variable {P : Engine → List Mark → Prop} (hP : Tracks P)
include hP

theorem enterAll {e : Engine} {past : List Mark} {ids : List StateId}
    (hids : (ids.reverse ++ e.active).Nodup) (h : P e past) (event : Option Event) :
    P (e.enterAll event ids) (past ++ enterAllMarks event e ids) := by
  induction ids generalizing e past with
  | nil => simpa [enterAllMarks] using h
  | cons id ids ih =>
    rw [List.reverse_cons, List.append_assoc, List.singleton_append] at hids
    have hid : id ∉ e.active := (List.nodup_cons.mp (List.nodup_append.mp hids).2.1).1
    rw [enterAll_cons, enterAllMarks, ← List.append_assoc]
    exact ih (by rwa [active_enter]) (hP.enter event hid h)

theorem receive {e e' : Engine} {past : List Mark} (h : P e past) {event : Event}
    (hreceive : e.receive? event = some e') : P e' (past ++ receiveMarks event) := by
  cases event with
  | lookupDone ticket answer =>
    obtain ⟨lookups, hlookups, rfl⟩ := Option.map_eq_some_iff.mp hreceive
    exact hP.accept hlookups h
  | click | ttsReady | recognised | endSpeech | timeout =>
    obtain rfl := Option.some.inj hreceive
    simp only [receiveMarks, List.append_nil]
    exact hP.frame h rfl rfl rfl rfl

theorem fire {e : Engine} {past : List Mark} (hsound : e.Sound) (h : P e past) (event : Event)
    {source : StateId} {t : Transition} (hsource : source ∈ e.active)
    (htarget : t.target ∈ e.chart) :
    P (e.fire event source t).1 (past ++ e.fireMarks event source t) := by
  have hperform : P (e.perform (some event) t.actions) past := hP.frame h rfl rfl rfl rfl
  have hsound' : (e.perform (some event) t.actions).Sound := hsound.frame rfl rfl rfl
  have hdomain := hsound'.domain_active hsource t.target
  have hleave := hP.leave hsound' hdomain hperform
  have hnodup := hsound'.nodup_arrival hsource htarget
  rw [kept, ← active_exitBelow hdomain] at hnodup
  have henter := hP.enterAll hnodup hleave (some event)
  rw [List.append_assoc] at henter
  simp only [fireMarks]
  refine hP.frame henter ?_ ?_ ?_ ?_ <;> simp only [Engine.fire, log, take_eq]

theorem step {e : Engine} {past : List Mark} (hsound : e.Sound) (h : P e past) (event : Event) :
    P (e.step event).1 (past ++ e.stepMarks event) := by
  unfold stepMarks
  rcases step_cases e event with
    ⟨hstale, -, hstep⟩ | ⟨e', hreceive, ⟨ht, _, -, hstep⟩ | ⟨source, t, ht, hstep⟩⟩
  · rw [hstep, hstale, List.append_nil]
    exact h
  · rw [hstep, hreceive, ht]
    simpa using hP.receive h hreceive
  · obtain ⟨hsource, htarget⟩ := hsound.target_mem ht
    have hreceived := hP.receive h hreceive
    have hsound' := hsound.of_receive? hreceive
    rw [hstep, hreceive, ht, ← List.append_assoc]
    obtain ⟨_, _, rfl, -⟩ := receive?_eq_some hreceive
    exact hP.fire hsound' hreceived event hsource htarget

theorem run {e : Engine} {past : List Mark} (hsound : e.Sound) (h : P e past)
    (events : List Event) : P (e.run events).1 (past ++ e.runMarks events) := by
  induction events generalizing e past with
  | nil => simpa [runMarks, Engine.run] using h
  | cons event events ih =>
    rw [runMarks, ← List.append_assoc]
    exact ih (hsound.step event) (hP.step hsound h event)

theorem chronicle {c : Chart} (hc : c.WellFormed) {journal : Journal Move}
    (h : P (unborn c journal) []) (events : List Event) :
    P ((start c journal).run events).1 (Engine.chronicle c journal events) := by
  have hnodup : ((c.initialDescent Chart.root).reverse ++ [Chart.root]).Nodup := by
    obtain ⟨hmem, -, hlineage⟩ := hc.initialLeaf_spec hc.root_mem
    exact Chart.lineage_root c ▸ hlineage ▸ hc.nodup_lineage hmem
  exact hP.run (sound_start hc journal) (hP.enterAll hnodup h none) events

end Tracks

theorem tracks_replay : Tracks fun e past => Mark.replay? [Chart.root] past = some e.active where
  frame h _ hactive _ _ := hactive ▸ h
  accept _ h := by
    rw [Mark.replay?_append, h]
    rfl
  leave {e past domain} _ hdomain h := by
    have hplay := Mark.replay?_map_left e.leaf (e.active.takeWhile fun id => id != domain)
      (e.active.dropWhile fun id => id != domain)
    rw [List.takeWhile_append_dropWhile] at hplay
    rw [Mark.replay?_append, h, exitBelow_eq hdomain]
    exact hplay
  enter {e past id} event hid h := by
    rw [Mark.replay?_append, h, active_enter]
    unfold enterMarks
    split <;> simp [Mark.replay?, Mark.play?, hid, Lookups.nextTicket]

/-- Played back, the chronicle gives the active states. -/
theorem replay?_chronicle {d : ChartDef} {c : Chart} (hd : d.build = .ok c)
    (journal : Journal Move) (events : List Event) :
    Mark.replay? [Chart.root] (chronicle c journal events) =
      some ((start c journal).run events).1.active :=
  tracks_replay.chronicle (ChartDef.wellFormed_of_build hd) rfl events

/-! ## Directives -/

def asked (directives : List Directive) : List Ticket :=
  directives.filterMap fun directive => directive.lookup?.map Prod.fst

theorem asked_append (directives directives' : List Directive) :
    asked (directives ++ directives') = asked directives ++ asked directives' :=
  List.filterMap_append

theorem asked_runAll (event : Option Event) (ctx : Context) (actions : List Action) :
    asked (Action.runAll event ctx actions).2 = [] := by
  induction actions generalizing ctx with
  | nil => rfl
  | cons action actions ih =>
    rw [Action.runAll, asked_append, ih, List.append_nil]
    cases action <;> rfl

@[simp] theorem asked_perform (event : Option Event) (actions : List Action) (e : Engine) :
    asked (e.perform event actions).pending = asked e.pending := by
  rw [perform, asked_append, asked_runAll, List.append_nil]

theorem asked_enter (event : Option Event) (e : Engine) (id : StateId) :
    asked (e.enter event id).pending = asked e.pending ++ Mark.tickets (e.enterMarks id) := by
  unfold enter enterMarks Chart.invokes
  cases hnode : e.chart.node? id with
  | none => simp [hnode, Mark.tickets]
  | some node =>
    cases hinvoke : node.invoke with
    | none => simp [hnode, hinvoke, Mark.tickets, asked_perform]
    | some subject =>
      have hlookup : ∀ ticket text, asked [.lookup ticket text] = [ticket] := fun _ _ => rfl
      simp [hnode, hinvoke, Mark.tickets, invoke, asked_append, asked_perform, hlookup]

theorem asked_enterAll (event : Option Event) (e : Engine) (ids : List StateId) :
    asked (e.enterAll event ids).pending =
      asked e.pending ++ Mark.tickets (enterAllMarks event e ids) := by
  induction ids generalizing e with
  | nil => simp [enterAllMarks, Mark.tickets]
  | cons id ids ih =>
    rw [enterAll_cons, ih, asked_enter, enterAllMarks, Mark.tickets_append, List.append_assoc]

theorem pending_exitBelow (e : Engine) (domain : StateId) :
    (e.exitBelow domain).pending = e.pending := by
  unfold exitBelow
  split
  · simp only [foldl_leave]
  · rfl

theorem asked_fire (event : Event) (source : StateId) (t : Transition) (e : Engine) :
    asked (e.fire event source t).2.directives =
      asked e.pending ++ Mark.tickets (e.fireMarks event source t) := by
  have hpending : (e.fire event source t).2.directives =
      ((e.perform (some event) t.actions).take event source t.target).pending := by
    simp only [Engine.fire, log, StepResult.directives]
  rw [hpending, take_eq, asked_enterAll, pending_exitBelow, asked_perform, fireMarks,
    Mark.tickets_append, leaveMarks, Mark.tickets_map_left, List.nil_append]

theorem asked_step (e : Engine) (event : Event) :
    asked (e.step event).2.directives ++ asked (e.step event).1.pending =
      asked e.pending ++ Mark.tickets (e.stepMarks event) := by
  have hreceiveMarks : Mark.tickets (receiveMarks event) = [] := by cases event <;> rfl
  unfold stepMarks
  rcases step_cases e event with
    ⟨hstale, -, hstep⟩ | ⟨e', hreceive, ⟨ht, _, -, hstep⟩ | ⟨source, t, ht, hstep⟩⟩
  · rw [hstep, hstale, Mark.tickets, List.filterMap_nil, List.append_nil]
    rfl
  · obtain ⟨_, _, rfl, -⟩ := receive?_eq_some hreceive
    rw [hstep, hreceive, ht, Mark.tickets_append, hreceiveMarks, List.nil_append]
    exact (List.append_nil _).symm
  · have hpending : (e'.fire event source t).1.pending = [] := rfl
    rw [hstep, hreceive, ht, Mark.tickets_append, hreceiveMarks, List.nil_append, hpending,
      asked_fire]
    obtain ⟨_, _, rfl, -⟩ := receive?_eq_some hreceive
    exact List.append_nil _

theorem asked_run (e : Engine) (events : List Event) :
    asked ((e.run events).2.flatMap StepResult.directives ++ (e.run events).1.pending) =
      asked e.pending ++ Mark.tickets (e.runMarks events) := by
  induction events generalizing e with
  | nil => simp [run, runMarks, Mark.tickets]
  | cons event events ih =>
    rw [run_cons, List.flatMap_cons, List.append_assoc, asked_append, ih]
    calc asked (e.step event).2.directives ++
          (asked (e.step event).1.pending ++ Mark.tickets ((e.step event).1.runMarks events))
        = asked e.pending ++ Mark.tickets (e.stepMarks event) ++
            Mark.tickets ((e.step event).1.runMarks events) := by
          rw [← List.append_assoc, asked_step]
      _ = asked e.pending ++ Mark.tickets (e.runMarks (event :: events)) := by
          rw [runMarks, Mark.tickets_append, List.append_assoc]

/-- The tickets issued are those of the lookups asked for. -/
theorem asked_chronicle (c : Chart) (journal : Journal Move) (events : List Event) :
    asked (((start c journal).run events).2.flatMap StepResult.directives ++
        ((start c journal).run events).1.pending) =
      Mark.tickets (chronicle c journal events) := by
  have hunborn : asked (unborn c journal).pending = [] := rfl
  rw [asked_run, chronicle, Mark.tickets_append, start_eq, asked_enterAll, hunborn,
    List.nil_append]

/-! ## Completions -/

def accepted? : Event → StepResult → Option Ticket
  | .lookupDone ticket _, result =>
    if result = .ignored .staleCompletion then none else some ticket
  | _, _ => none

def accepted (events : List Event) (results : List StepResult) : List Ticket :=
  (List.zipWith accepted? events results).filterMap id

theorem accepted_cons (event : Event) (result : StepResult) (events : List Event)
    (results : List StepResult) :
    accepted (event :: events) (result :: results) =
      (accepted? event result).toList ++ accepted events results := by
  rw [accepted, List.zipWith_cons_cons, List.filterMap_cons]
  cases accepted? event result <;> rfl

theorem completed_enterAllMarks (event : Option Event) (e : Engine) (ids : List StateId) :
    Mark.completed (enterAllMarks event e ids) = [] := by
  induction ids generalizing e with
  | nil => rfl
  | cons id ids ih =>
    rw [enterAllMarks, Mark.completed_append, ih, List.append_nil, enterMarks]
    split <;> rfl

theorem completed_stepMarks (e : Engine) (event : Event) :
    Mark.completed (e.stepMarks event) = (accepted? event (e.step event).2).toList := by
  cases hreceive : e.receive? event with
  | none =>
    have hstale := step_eq_stale_iff.mpr hreceive
    rw [stepMarks, hreceive, hstale]
    cases event <;> rfl
  | some e' =>
    have hne : (e.step event).2 ≠ .ignored .staleCompletion := by
      rw [Ne, step_eq_stale_iff, hreceive]
      simp
    have hreceived : Mark.completed (receiveMarks event) =
        (accepted? event (e.step event).2).toList := by
      cases event with
      | lookupDone ticket answer =>
        rw [accepted?, if_neg hne]
        rfl
      | _ => rfl
    rw [stepMarks, hreceive, Mark.completed_append, hreceived]
    cases e.taken? event with
    | none => exact List.append_nil _
    | some taken =>
      simp only [fireMarks, Mark.completed_append, leaveMarks, Mark.completed_map_left,
        completed_enterAllMarks, List.append_nil]

theorem completed_runMarks (e : Engine) (events : List Event) :
    Mark.completed (e.runMarks events) = accepted events (e.run events).2 := by
  induction events generalizing e with
  | nil => rfl
  | cons event events ih =>
    rw [runMarks, Mark.completed_append, ih, completed_stepMarks, run_cons, accepted_cons]

theorem accepted_chronicle (c : Chart) (journal : Journal Move) (events : List Event) :
    accepted events ((start c journal).run events).2 =
      Mark.completed (chronicle c journal events) := by
  rw [chronicle, Mark.completed_append, completed_enterAllMarks, List.nil_append,
    completed_runMarks]

end Engine

end Dialogue
