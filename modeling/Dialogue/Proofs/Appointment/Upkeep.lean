import Dialogue.Proofs.Appointment.Arrival
import Dialogue.Proofs.Appointment.Assent
/-!
# Slots and the answer

A slot is filled with what a turn carries, by a turn that was found to carry it; it is emptied when
the user denies a value that was heard with too little confidence, or when the dialogue starts over.
The answer changes with the completion of a lookup, or when the dialogue starts over.
-/

namespace Dialogue

def Slot.cues : Slot → List Cue
  | title => [.subject, .entity "title"]
  | day => [.entity "day"]
  | time => [.entity "time"]
  | accept => [.entity "accept"]
  | decline => [.entity "decline"]
  | category => [.entity "query", .entity "meeting"]
  | help => [.entity "help"]

theorem Event.eq_recognised_of_kind {event : Event} (h : event.kind = .recognised) :
    ∃ turn, event = .recognised turn := by
  cases event with
  | recognised turn => exact ⟨turn, rfl⟩
  | _ => cases h

theorem Event.eq_timeout_of_kind {event : Event} (h : event.kind = .timeout) :
    event = .timeout := by
  cases event with
  | timeout => rfl
  | _ => cases h

theorem Event.eq_lookupDone_of_kind {event : Event} (h : event.kind = .lookupDone) :
    ∃ ticket answer, event = .lookupDone ticket answer := by
  cases event with
  | lookupDone ticket answer => exact ⟨ticket, answer, rfl⟩
  | _ => cases h

namespace Appointment

def HardReset (event : Event) (result : StepResult) : Prop :=
  event = .timeout ∧ ∃ source configuration directives,
    result = .transitioned source "idle" configuration directives

inductive Declines (resolver : Resolver) (e : Engine) (g : Gate) : Event → Prop where
  | intro {turn : Turn} (asked : g.flowPath ∈ e.configuration)
    (no_help : resolver.entity (e.context.observe turn) "help" = none)
    (no_yes : resolver.entity (e.context.observe turn) "accept" = none)
    (no : (resolver.entity (e.context.observe turn) "decline").isSome) :
    Declines resolver e g (.recognised turn)

/-! ## What arrows write -/

/-- Whether an arrow of `source` does no more to slots and answer than events of a kind allow.  A
turn is written down only where it was asked for, and only a flow empties its slot. -/
def Arrow.allowed (kind : EventKind) (source : StateId) (a : Arrow) : Bool :=
  match a.effect with
  | .nothing => true
  | .fill slot cue =>
    kind = .recognised && a.condition.cue? = some cue && slot.cues.contains cue
  | .decline none => kind = .recognised && a.condition.cue? = some (.entity "decline")
  | .decline (some _) =>
    kind = .recognised && decide (∃ g : Gate, source = g.flow ∧ a = g.decline)
  | .restart | .retry => kind = .timeout
  | .keepAnswer => kind = .lookupDone

structure Ledger : Prop where
  allowed : ∀ id ∈ places, ∀ kind ∈ EventKind.all, ∀ h ∈ deciding? kind id, ∀ a ∈ h.2,
    a.allowed kind h.1
  arrowsAt_flow : ∀ g : Gate, arrowsAt .recognised g.flow =
    [.helpOf g.branch, g.accept, g.decline, { target := g.apology }]
  flow_ne_root : ∀ g : Gate, g.flow ≠ Chart.root
  path_eq_flowPath_iff : ∀ id ∈ places, ∀ g : Gate, (shape.path id = g.flowPath ↔ id = g.flow)
  mem_rooms : ∀ id ∈ places, ¬ shape.isCompound id → ∀ g : Gate, g.flow ∈ shape.lineage id →
    id ∈ g.rooms
  slot_ne_decline : ∀ g : Gate, g.slot ≠ .decline

theorem ledger : Ledger := by
  constructor <;> decide +kernel

/-! ## What a step writes -/

inductive Outcome (resolver : Resolver) (config : Config) (e : Engine) (event : Event)
    (s : Engine × StepResult) : Prop where
  | kept (slots : s.1.context.slots = e.context.slots)
    (answer : s.1.context.answer = e.context.answer)
  | filled {turn : Turn} {slot : Slot} {cue : Cue} {value : String}
    (heard : event = .recognised turn) (cue_mem : cue ∈ slot.cues)
    (read : (cues resolver config).read? cue (e.context.observe turn) = some value)
    (slots : s.1.context.slots = e.context.slots.set slot (some value))
    (answer : s.1.context.answer = e.context.answer)
  | denied {turn : Turn} {g : Gate} {value : String} (heard : event = .recognised turn)
    (declines : Declines resolver e g event)
    (read : resolver.entity (e.context.observe turn) "decline" = some value)
    (slots : s.1.context.slots = (e.context.slots.set .decline (some value)).set g.slot none)
    (answer : s.1.context.answer = e.context.answer)
  | answered {ticket : Ticket} {answer : Answer} (completed : event = .lookupDone ticket answer)
    (live : e.lookups.live = some ticket) (accepted : ∀ reason, s.2 ≠ .ignored reason)
    (slots : s.1.context.slots = e.context.slots)
    (answer : s.1.context.answer = some answer)
  | reset (hard : HardReset event s.2) (slots : s.1.context.slots = {})
    (answer : s.1.context.answer = none)

section Setting

variable {resolver : Resolver} {config : Config} {e : Engine}

namespace Outcome

variable {event : Event} {s : Engine × StepResult} (h : Outcome resolver config e event s)
include h

theorem reset_or_declines {slot : Slot} (hset : (e.context.slot slot).isSome)
    (hlost : s.1.context.slot slot = none) :
    HardReset event s.2 ∨ ∃ g, Declines resolver e g event ∧ slot = g.slot := by
  have hne : s.1.context.slot slot ≠ e.context.slot slot := by
    intro heq
    rw [← heq, hlost] at hset
    cases hset
  cases h with
  | kept hslots | answered _ _ _ hslots =>
    exact absurd (congrArg (Slots.get · slot) hslots) hne
  | @filled _ filled _ _ _ _ _ hslots =>
    rw [Context.slot, hslots, Slots.get_set] at hlost hne
    split at hlost
    · cases hlost
    · next hother => exact absurd (if_neg hother) hne
  | @denied _ g _ _ hdeclines _ hslots =>
    refine Or.inr ⟨g, hdeclines, ?_⟩
    by_contra hother
    rw [Context.slot, hslots, Slots.get_set, if_neg hother, Slots.get_set] at hlost hne
    split at hlost
    · cases hlost
    · next hother => exact hne (if_neg hother)
  | reset hard => exact Or.inl hard

theorem filled_of_ne {slot : Slot} {value : String} (hvalue : s.1.context.slot slot = some value)
    (hne : e.context.slot slot ≠ some value) :
    ∃ turn cue, event = .recognised turn ∧ cue ∈ slot.cues ∧
      (cues resolver config).read? cue (e.context.observe turn) = some value ∧
      ∀ slot', slot' ≠ slot → s.1.context.slot slot' = e.context.slot slot' ∨
        ∃ g, Declines resolver e g event ∧ slot' = g.slot := by
  cases h with
  | kept hslots | answered _ _ _ hslots =>
    rw [Context.slot, hslots] at hvalue
    exact absurd hvalue hne
  | @filled turn filled cue value' heard hcue hread hslots =>
    rw [Context.slot, hslots, Slots.get_set] at hvalue
    split at hvalue
    · next hslot =>
      subst hslot
      obtain rfl := Option.some.inj hvalue
      refine ⟨turn, cue, heard, hcue, hread, fun slot' hother => Or.inl ?_⟩
      rw [Context.slot, hslots, Slots.get_set, if_neg hother, Context.slot]
    · exact absurd hvalue hne
  | @denied turn g value' heard hdeclines hno hslots =>
    rw [Context.slot, hslots, Slots.get_set] at hvalue
    split at hvalue
    · cases hvalue
    · rw [Slots.get_set] at hvalue
      split at hvalue
      · next hslot =>
        subst hslot
        obtain rfl := Option.some.inj hvalue
        refine ⟨turn, .entity "decline", heard, List.mem_singleton_self _, hno,
          fun slot' hother => ?_⟩
        by_cases hcandidate : slot' = g.slot
        · exact Or.inr ⟨g, hdeclines, hcandidate⟩
        · rw [Context.slot, hslots, Slots.get_set, if_neg hcandidate, Slots.get_set,
            if_neg hother, Context.slot]
          exact Or.inl rfl
      · exact absurd hvalue hne
  | reset _ hslots =>
    rw [Context.slot, hslots] at hvalue
    cases slot <;> cases hvalue

theorem reset_or_completed (hne : s.1.context.answer ≠ e.context.answer) :
    HardReset event s.2 ∨
      ∃ ticket answer, event = .lookupDone ticket answer ∧ e.lookups.live = some ticket ∧
        (∀ reason, s.2 ≠ .ignored reason) ∧ s.1.context.answer = some answer := by
  cases h with
  | kept _ hanswer => exact absurd hanswer hne
  | filled _ _ _ _ hanswer => exact absurd hanswer hne
  | denied _ _ _ _ hanswer => exact absurd hanswer hne
  | answered completed live accepted _ hanswer =>
    exact Or.inr ⟨_, _, completed, live, accepted, hanswer⟩
  | reset hard => exact Or.inl hard

end Outcome

theorem holds_of_reaction? {id source : StateId} {ctx : Context} {event : Event} {a : Arrow}
    (h : reaction? resolver config id ctx event = some (source, a)) :
    a.condition.holds resolver config ctx event := by
  obtain ⟨arrows, -, hfind⟩ := reaction?_eq_some_iff.mp h
  exact List.find?_some (p := fun a : Arrow => a.condition.holds resolver config ctx event) hfind

theorem Taken.hardReset {source : StateId} {a : Arrow} {s : Engine × StepResult}
    (ht : Taken resolver config e .timeout source a s) (h : Attends resolver config e)
    (htarget : a.target = idle) : HardReset .timeout s.2 := by
  have hmem : a.target ∈ [idle, Branch.welcome.help, Branch.welcome.timeout] :=
    htarget ▸ List.mem_cons_self
  have hleaf : s.1.leaf = idle := (ht.leaf_top h hmem).trans htarget
  have hresult := ht.result_eq
  rw [ht.attends.leafPath_eq_iff.1.mpr hleaf] at hresult
  exact ⟨rfl, _, _, _, hresult⟩

/-! ## Denials -/

namespace Attends

variable (h : Attends resolver config e)
include h

theorem flowPath_mem_iff (g : Gate) :
    g.flowPath ∈ e.configuration ↔ g.flow ∈ shape.lineage e.leaf :=
  h.mem_configuration_iff (fun id hid => ledger.path_eq_flowPath_iff id hid g)
    (ledger.flow_ne_root g)

/-- A flow is denied exactly by the turns that lead back from it. -/
theorem declines_iff (g : Gate) (event : Event) :
    Declines resolver e g event ↔ ∃ turn, event = .recognised turn ∧
      reaction? resolver config e.leaf (e.context.observe turn) event =
        some (g.flow, g.decline) := by
  constructor
  · rintro @⟨turn, hasked, hhelp, hyes, hno⟩
    have hrooms := ledger.mem_rooms _ h.leaf_mem_places h.not_isCompound_leaf g
      ((h.flowPath_mem_iff g).mp hasked)
    refine ⟨turn, rfl, reaction?_eq_some_iff.mpr
      ⟨_, gateways.deciding?_recognised g _ hrooms, ?_⟩⟩
    simp [Arrow.helpOf, Gate.accept, Gate.decline, Condition.holds, Cues.read?, cues, hhelp, hyes,
      hno]
  · rintro ⟨turn, rfl, hreaction⟩
    obtain ⟨arrows, hdeciding, hfind⟩ := reaction?_eq_some_iff.mp hreaction
    have harrows : arrowsAt .recognised g.flow = arrows := arrowsAt_of_deciding? hdeciding
    rw [ledger.arrowsAt_flow] at harrows
    subst harrows
    have hno := holds_of_reaction? hreaction
    have hasked := (h.flowPath_mem_iff g).mpr (h.source_mem hreaction).1
    -- a call for help and a yes come before a no, and neither is the arrow that is taken
    have hhelp : resolver.entity (e.context.observe turn) "help" = none := by
      by_contra hsome
      simp [Arrow.helpOf, Condition.holds, Cues.read?, cues,
        Option.isSome_iff_ne_none.mpr hsome, Gate.decline] at hfind
    have hyes : resolver.entity (e.context.observe turn) "accept" = none := by
      by_contra hsome
      simp [Arrow.helpOf, Gate.accept, Condition.holds, Cues.read?, cues, hhelp,
        Option.isSome_iff_ne_none.mpr hsome, Gate.decline] at hfind
    exact ⟨hasked, hhelp, hyes, hno⟩

/-! ## Steps -/

theorem outcome_taken {event : Event} {e' : Engine} (hreceive : e.receive? event = some e')
    {source : StateId} {a : Arrow}
    (hreaction : reaction? resolver config e.leaf e'.context event = some (source, a))
    (ht : Taken resolver config e' event source a (e.step event)) :
    Outcome resolver config e event (e.step event) := by
  obtain ⟨hslots, hanswer⟩ := Engine.slots_receive? hreceive
  obtain ⟨arrows, hdeciding, ha⟩ := deciding?_of_reaction? hreaction
  have hallowed := ledger.allowed _ h.leaf_mem_places _ event.kind.mem_all _ hdeciding _ ha
  have hholds := holds_of_reaction? hreaction
  have hcontext := ht.context_eq
  obtain ⟨condition, effect, target⟩ := a
  cases effect with
  | nothing | retry =>
    exact .kept ((congrArg Context.slots hcontext).trans hslots)
      ((congrArg Context.answer hcontext).trans hanswer)
  | fill slot cue =>
    simp only [Arrow.allowed, Bool.and_eq_true, decide_eq_true_iff, List.contains_iff_mem]
      at hallowed
    obtain ⟨⟨hkind, hcue⟩, hmem⟩ := hallowed
    obtain ⟨turn, rfl⟩ := Event.eq_recognised_of_kind hkind
    obtain rfl := Option.some.inj hreceive
    obtain ⟨value, hread⟩ := Condition.read?_of_holds hcue hholds
    rw [Effect.apply, hread] at hcontext
    have hkept := congrArg Context.answer hcontext
    exact .filled rfl hmem hread (congrArg Context.slots hcontext) hkept
  | decline candidate =>
    cases candidate with
    | none =>
      -- a no that denies no value fills its own slot alone
      simp only [Arrow.allowed, Bool.and_eq_true, decide_eq_true_iff] at hallowed
      obtain ⟨hkind, hcue⟩ := hallowed
      obtain ⟨turn, rfl⟩ := Event.eq_recognised_of_kind hkind
      obtain rfl := Option.some.inj hreceive
      obtain ⟨value, hread⟩ := Condition.read?_of_holds hcue hholds
      have hno : resolver.entity (e.context.observe turn) "decline" = some value := hread
      simp only [Effect.apply, Cues.read?, cues, hno] at hcontext
      have hkept := congrArg Context.answer hcontext
      have hmem : Cue.entity "decline" ∈ Slot.decline.cues := List.mem_singleton_self _
      exact .filled rfl hmem hread (congrArg Context.slots hcontext) hkept
    | some slot =>
      simp only [Arrow.allowed, Bool.and_eq_true, decide_eq_true_iff] at hallowed
      obtain ⟨hkind, g, rfl, hg⟩ := hallowed
      obtain ⟨turn, rfl⟩ := Event.eq_recognised_of_kind hkind
      obtain rfl := Option.some.inj hreceive
      rw [hg] at hreaction hholds hcontext
      have hdeclines := (h.declines_iff g (.recognised turn)).mpr ⟨turn, rfl, hreaction⟩
      obtain ⟨value, hno⟩ := Option.isSome_iff_exists.mp hholds
      simp only [Gate.decline, Effect.apply, hno] at hcontext
      have hkept := congrArg Context.answer hcontext
      exact .denied rfl hdeclines hno (congrArg Context.slots hcontext) hkept
  | restart =>
    have hkind : event.kind = .timeout := by simpa [Arrow.allowed] using hallowed
    obtain rfl := Event.eq_timeout_of_kind hkind
    have htarget := approaches.target_of_restart _ h.leaf_mem_places _
      EventKind.timeout.mem_all _ hdeciding _ ha rfl
    exact .reset (ht.hardReset (h.receive hreceive) htarget) (congrArg Context.slots hcontext)
      (congrArg Context.answer hcontext)
  | keepAnswer =>
    have hkind : event.kind = .lookupDone := by simpa [Arrow.allowed] using hallowed
    obtain ⟨ticket, answer, rfl⟩ := Event.eq_lookupDone_of_kind hkind
    obtain ⟨lookups, hcomplete, -⟩ := Option.map_eq_some_iff.mp hreceive
    obtain ⟨hlive, -⟩ := Lookups.complete?_eq_some.mp hcomplete
    refine .answered rfl hlive (fun reason => ?_)
      ((congrArg Context.slots hcontext).trans hslots) (congrArg Context.answer hcontext)
    rw [ht.result_eq]
    exact StepResult.noConfusion

theorem outcome_step (event : Event) : Outcome resolver config e event (e.step event) := by
  rcases h.step_cases event with hstep | ⟨e', hreceive, ⟨-, hstep⟩ | ⟨source, a, hreaction, ht⟩⟩
  · rw [hstep]
    exact .kept rfl rfl
  · obtain ⟨hslots, hanswer⟩ := Engine.slots_receive? hreceive
    rw [hstep]
    exact .kept hslots hanswer
  · exact h.outcome_taken hreceive hreaction ht

theorem slots_declines {g : Gate} {turn : Turn}
    (hdeclines : Declines resolver e g (.recognised turn)) :
    (e.step (.recognised turn)).1.context.slots =
      (e.context.slots.set .decline (resolver.entity (e.context.observe turn) "decline")).set
        g.slot none := by
  obtain ⟨_, heq, hreaction⟩ := (h.declines_iff g _).mp hdeclines
  obtain rfl := Event.recognised.inj heq
  rw [((h.step_spec (Engine.receive?_recognised e turn)).2 _ _ hreaction).context_eq]
  rfl

theorem step_of_hardReset {event : Event} (hreset : HardReset event (e.step event).2) :
    (e.step event).1.context = e.context.cleared := by
  obtain ⟨rfl, _, _, _, hresult⟩ := hreset
  exact (h.restarted_of_idle hresult).2

end Attends

end Setting

/-- A slot is emptied only by a `HardReset`, which empties all of them and the answer, or by a turn
that `Declines` its value, which empties no other.  A slot gets a value only from a turn that
carries one of its cues.  The answer changes only by a completion that is accepted or a hard reset,
and an event that is ignored changes neither. -/
theorem upkeep_run {resolver : Resolver} {config : Config} {c : Chart}
    (hc : Appointment.chart resolver config = .ok c) (journal : Journal Move)
    (past : List Event) (event : Event) :
    let e := ((Engine.start c journal).run past).1
    let s := e.step event
    (∀ slot, (e.context.slot slot).isSome → s.1.context.slot slot = none →
        HardReset event s.2 ∨ ∃ g, Declines resolver e g event ∧ slot = g.slot) ∧
      (HardReset event s.2 →
        (∀ slot, s.1.context.slot slot = none) ∧ s.1.context.answer = none) ∧
      (∀ g, Declines resolver e g event →
        s.1.context.slot g.slot = none ∧
          ∀ slot, slot ≠ g.slot → (e.context.slot slot).isSome →
            (s.1.context.slot slot).isSome) ∧
      (∀ slot value, s.1.context.slot slot = some value → e.context.slot slot ≠ some value →
        ∃ turn cue, event = .recognised turn ∧ cue ∈ slot.cues ∧
          (cues resolver config).read? cue (e.context.observe turn) = some value ∧
          ∀ slot', slot' ≠ slot → s.1.context.slot slot' = e.context.slot slot' ∨
            ∃ g, Declines resolver e g event ∧ slot' = g.slot) ∧
      (s.1.context.answer ≠ e.context.answer →
        HardReset event s.2 ∨
          ∃ ticket answer, event = .lookupDone ticket answer ∧ e.lookups.live = some ticket ∧
            (∀ reason, s.2 ≠ .ignored reason) ∧ s.1.context.answer = some answer) ∧
      ∀ reason, s.2 = .ignored reason →
        s.1.context.slots = e.context.slots ∧ s.1.context.answer = e.context.answer := by
  intro e s
  have h : Attends resolver config e := attends_run hc journal past
  have houtcome : Outcome resolver config e event s := h.outcome_step event
  refine ⟨fun _ => houtcome.reset_or_declines, ?_, ?_, fun _ _ => houtcome.filled_of_ne,
    houtcome.reset_or_completed, ?_⟩
  · intro hreset
    have hcleared : s.1.context = e.context.cleared := h.step_of_hardReset hreset
    rw [hcleared]
    exact ⟨fun slot => by cases slot <;> rfl, rfl⟩
  · rintro g @⟨turn, asked, no_help, no_yes, no⟩
    have hslots := h.slots_declines (.intro asked no_help no_yes no)
    refine ⟨?_, fun slot hother hset => ?_⟩
    · rw [Context.slot, hslots, Slots.get_set, if_pos rfl]
    · rw [Context.slot, hslots, Slots.get_set, if_neg hother, Slots.get_set]
      split
      · exact no
      · exact hset
  · intro reason hignored
    rcases h.step_cases event with
      hstep | ⟨e', hreceive, ⟨-, hstep⟩ | ⟨source, a, -, ht⟩⟩
    · rw [show s = _ from hstep]
      exact ⟨rfl, rfl⟩
    · rw [show s = _ from hstep]
      exact Engine.slots_receive? hreceive
    · exact StepResult.noConfusion (ht.result_eq.symm.trans hignored)

theorem upkeep_run_denied :
    Appointment.chart Grammar.appointment.resolver {} = .ok standard ∧
      ((Engine.start standard (.withCapacity 4)).run
        [.click, .click, .recognised { utterance := "meeting" }]).1.context.slot .category =
          some "meeting" ∧
      Declines Grammar.appointment.resolver ((Engine.start standard (.withCapacity 4)).run
        [.click, .click, .recognised { utterance := "meeting" }]).1 .meeting
        (.recognised { utterance := "no" }) ∧
      (((Engine.start standard (.withCapacity 4)).run
        [.click, .click, .recognised { utterance := "meeting" }]).1.step
          (.recognised { utterance := "no" })).1.context.slot .category = none := by
  have hdeclines : Declines Grammar.appointment.resolver
      ((Engine.start standard (.withCapacity 4)).run
        [.click, .click, .recognised { utterance := "meeting" }]).1 .meeting
      (.recognised { utterance := "no" }) :=
    .intro (by decide) (by decide) (by decide) (by decide)
  obtain ⟨-, -, hdenied, -⟩ := upkeep_run chart_standard (.withCapacity 4)
    [.click, .click, .recognised { utterance := "meeting" }] (.recognised { utterance := "no" })
  exact ⟨chart_standard, by decide, hdeclines, (hdenied .meeting hdeclines).1⟩

end Appointment

end Dialogue
