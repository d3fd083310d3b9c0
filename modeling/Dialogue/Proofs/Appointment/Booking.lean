import Dialogue.Proofs.Appointment.Topics
/-!
# Bookings

What a meeting consists of when it is created.  Values may be given in any order, and a meeting is
proposed as soon as there is a day or a time for it.  So whoever agrees to a proposal has given the
day or the time that it is about, but need not have given the rest: each value is there exactly if
it was given and has not been lost since.
-/

namespace Dialogue

/-! ## Since -/

namespace Engine

/-- Among the events of a run there is one with `P`, and all events after it have `Q`, each in the
engine that answers it. -/
def Since (P Q : Engine → Event → Prop) (e : Engine) (events : List Event) : Prop :=
  ∃ before event after, events = before ++ event :: after ∧ P (e.run before).1 event ∧
    ∀ between next rest, after = between ++ next :: rest →
      Q (e.run (before ++ event :: between)).1 next

variable {P Q : Engine → Event → Prop} {e : Engine}

theorem not_since_nil : ¬ Since P Q e [] := by
  rintro ⟨before, event, after, hsplit, -⟩
  simp at hsplit

theorem since_concat {events : List Event} {last : Event} :
    Since P Q e (events ++ [last]) ↔
      P (e.run events).1 last ∨ Since P Q e events ∧ Q (e.run events).1 last := by
  constructor
  · rintro ⟨before, event, after, hsplit, hP, hQ⟩
    rcases List.eq_nil_or_concat after with rfl | ⟨after, next, rfl⟩
    · obtain ⟨rfl, rfl⟩ := List.append_singleton_inj.mp hsplit
      exact Or.inl hP
    · rw [List.concat_eq_append, ← List.cons_append, ← List.append_assoc] at hsplit
      obtain ⟨rfl, rfl⟩ := List.append_singleton_inj.mp hsplit
      refine Or.inr ⟨⟨before, event, after, rfl, hP, fun between next rest hafter => ?_⟩, ?_⟩
      · exact hQ between next (rest ++ [last]) (by rw [hafter, List.concat_eq_append]; simp)
      · exact hQ after last [] (List.concat_eq_append)
  · rintro (hP | ⟨⟨before, event, after, rfl, hP, hQ⟩, hlast⟩)
    · exact ⟨events, last, [], rfl, hP, fun _ _ _ h => by simp at h⟩
    · refine ⟨before, event, after ++ [last], by simp, hP, fun between next rest hafter => ?_⟩
      rcases List.eq_nil_or_concat rest with rfl | ⟨rest, next', rfl⟩
      · obtain ⟨rfl, rfl⟩ := List.append_singleton_inj.mp hafter
        exact hlast
      · rw [List.concat_eq_append, ← List.cons_append, ← List.append_assoc] at hafter
        obtain ⟨rfl, -⟩ := List.append_singleton_inj.mp hafter
        exact hQ between next rest rfl

end Engine

namespace Appointment

/-! ## Values that are given and lost -/

inductive Fills (resolver : Resolver) (config : Config) (slot : Slot) (e : Engine) :
    Event → Prop where
  | intro {turn : Turn} {cue : Cue} {value : String} (cue_mem : cue ∈ slot.cues)
    (read : (cues resolver config).read? cue (e.context.observe turn) = some value)
    (kept : (e.step (.recognised turn)).1.context.slot slot = some value) :
    Fills resolver config slot e (.recognised turn)

def Loses (resolver : Resolver) (slot : Slot) (e : Engine) (event : Event) : Prop :=
  HardReset event (e.step event).2 ∨ ∃ g : Gate, Declines resolver e g event ∧ slot = g.slot

section Setting

variable {resolver : Resolver} {config : Config} {e : Engine} (h : Attends resolver config e)
include h

theorem Attends.slot_eq_none_of_loses {slot : Slot} {event : Event}
    (hloses : Loses resolver slot e event) : (e.step event).1.context.slot slot = none := by
  rcases hloses with hreset | ⟨g, hdeclines, rfl⟩
  · rw [h.step_of_hardReset hreset]
    cases slot <;> rfl
  · obtain ⟨turn, rfl, -⟩ := (h.declines_iff g event).mp hdeclines
    rw [Context.slot, h.slots_declines hdeclines, Slots.get_set, if_pos rfl]

/-- A slot is set after a step if the step fills it, or if it was set and the step does not lose
it. -/
theorem Attends.isSome_slot_step (slot : Slot) (event : Event) :
    ((e.step event).1.context.slot slot).isSome ↔
      Fills resolver config slot e event ∨
        (e.context.slot slot).isSome ∧ ¬ Loses resolver slot e event := by
  have houtcome := h.outcome_step event
  constructor
  · intro hset
    have hstays : ¬ Loses resolver slot e event := fun hloses => by
      rw [h.slot_eq_none_of_loses hloses] at hset
      cases hset
    by_cases hbefore : (e.context.slot slot).isSome
    · exact Or.inr ⟨hbefore, hstays⟩
    · obtain ⟨value, hvalue⟩ := Option.isSome_iff_exists.mp hset
      have hnew : e.context.slot slot ≠ some value := fun heq => hbefore (by rw [heq]; rfl)
      obtain ⟨turn, cue, rfl, hcue, hread, -⟩ := houtcome.filled_of_ne hvalue hnew
      exact Or.inl (.intro hcue hread hvalue)
  · rintro (⟨-, -, hkept⟩ | ⟨hbefore, hstays⟩)
    · rw [hkept]
      rfl
    · by_contra hlost
      exact hstays (houtcome.reset_or_declines hbefore (Option.not_isSome_iff_eq_none.mp hlost))

end Setting

theorem isSome_slot_run {resolver : Resolver} {config : Config} {c : Chart}
    (hc : Appointment.chart resolver config = .ok c) (journal : Journal Move)
    (slot : Slot) (events : List Event) :
    (((Engine.start c journal).run events).1.context.slot slot).isSome ↔
      (Engine.start c journal).Since (Fills resolver config slot)
        (fun e event => ¬ Loses resolver slot e event) events := by
  induction events using List.reverseRecOn with
  | nil =>
    have hunset : ((Engine.start c journal).run []).1.context.slot slot = none := by
      rw [eq_assistant_of_chart resolver config hc, start_assistant]
      cases slot <;> rfl
    rw [hunset]
    exact iff_of_false Bool.false_ne_true Engine.not_since_nil
  | append_singleton events event ih =>
    rw [Engine.run_concat, Engine.since_concat, ← ih]
    exact (attends_run hc journal events).isSome_slot_step slot event

/-! ## Meetings -/

def agreement : Arrow where
  condition := .present (.entity "accept")
  effect := .fill .accept (.entity "accept")
  target := created

structure Proposals : Prop where
  into_created : ∀ id ∈ places, ¬ shape.isCompound id → ∀ h ∈ deciding? .recognised id,
    ∀ a ∈ h.2, shape.initialLeaf a.target = created →
      a = agreement ∧ (h.1 = wholeDayProposal ∨ h.1 = proposal)
  mem_about : ∀ id ∈ places, ¬ shape.isCompound id →
    (wholeDayProposal ∈ shape.lineage id → id ∈ about .day) ∧
      (proposal ∈ shape.lineage id → id ∈ about .time)
  path_eq_created_iff : ∀ id ∈ places, (shape.path id = "meeting.finalized" ↔ id = created)
  path_eq_wholeDayProposal_iff : ∀ id ∈ places,
    (shape.path id = "meeting.whole_day_confirmation" ↔ id = wholeDayProposal)
  path_eq_proposal_iff : ∀ id ∈ places, (shape.path id = "meeting.confirmation" ↔ id = proposal)

theorem proposals : Proposals := by
  constructor <;> decide +kernel

section Setting

variable {resolver : Resolver} {config : Config} {e : Engine} (h : Attends resolver config e)
include h

theorem Attends.wholeDayProposal_mem_iff :
    "meeting.whole_day_confirmation" ∈ e.configuration ↔
      wholeDayProposal ∈ shape.lineage e.leaf :=
  h.mem_configuration_iff proposals.path_eq_wholeDayProposal_iff (by decide)

theorem Attends.proposal_mem_iff :
    "meeting.confirmation" ∈ e.configuration ↔ proposal ∈ shape.lineage e.leaf :=
  h.mem_configuration_iff proposals.path_eq_proposal_iff (by decide)

theorem Attends.agreed {turn : Turn} {source : String} {configuration : List String}
    {directives : List Directive}
    (hresult : (e.step (.recognised turn)).2 =
      .transitioned source "meeting.finalized" configuration directives) :
    ("meeting.whole_day_confirmation" ∈ e.configuration ∨
        "meeting.confirmation" ∈ e.configuration) ∧
      (resolver.entity (e.context.observe turn) "accept").isSome ∧
      ∀ slot, slot ≠ .accept →
        (e.step (.recognised turn)).1.context.slot slot = e.context.slot slot := by
  obtain ⟨_, source, a, hreceive, h', hreaction, hdeciding, ht, hpath⟩ :=
    h.taken_of_transitioned hresult
  obtain rfl := Option.some.inj hreceive
  have hcreated := (proposals.path_eq_created_iff _ ht.attends.leaf_mem_places).mp hpath
  have hinitial : shape.initialLeaf a.target = created := by
    rcases ht.leaf_cases h' hdeciding with ⟨b, hbeside, -⟩ | ⟨-, hleaf⟩
    · -- beside a branch, no turn is reacted to
      obtain ⟨arrows, hdeciding, -⟩ := hdeciding
      rw [landmarks.deciding?_aside b _ hbeside _ (EventKind.mem_all _) (by simp [Event.kind])]
        at hdeciding
      simp [Event.kind] at hdeciding
    · exact hleaf.symm.trans hcreated
  obtain ⟨arrows, hdeciding, ha⟩ := deciding?_of_reaction? hreaction
  obtain ⟨rfl, hsource⟩ := proposals.into_created _ h.leaf_mem_places h.not_isCompound_leaf _
    hdeciding _ ha hinitial
  have hactive := (h.source_mem hreaction).1
  refine ⟨?_, holds_of_reaction? hreaction, fun slot hslot => ?_⟩
  · rw [h.wholeDayProposal_mem_iff, h.proposal_mem_iff]
    rcases hsource with rfl | rfl
    · exact Or.inl hactive
    · exact Or.inr hactive
  · rw [ht.context_eq]
    exact (Slots.get_set _ _ _ _).trans (if_neg hslot)

end Setting

/-- A turn that creates a meeting carries `accept` while a proposal is active.  `day` is set if the
proposal is for a whole day, `time` if not.  Each of `title`, `day` and `time` is set just if some
turn `Fills` it and no event since `Loses` it. -/
theorem booking_run {resolver : Resolver} {config : Config} {c : Chart}
    (hc : Appointment.chart resolver config = .ok c) (journal : Journal Move)
    (past : List Event) (turn : Turn) {source : String} {configuration : List String}
    {directives : List Directive} :
    let e := ((Engine.start c journal).run past).1
    let s := e.step (.recognised turn)
    s.2 = .transitioned source "meeting.finalized" configuration directives →
      ("meeting.whole_day_confirmation" ∈ e.configuration ∨
          "meeting.confirmation" ∈ e.configuration) ∧
        (resolver.entity (e.context.observe turn) "accept").isSome ∧
        ("meeting.whole_day_confirmation" ∈ e.configuration →
          (s.1.context.slot .day).isSome) ∧
        ("meeting.confirmation" ∈ e.configuration → (s.1.context.slot .time).isSome) ∧
        ∀ slot ∈ [Slot.title, .day, .time], (s.1.context.slot slot).isSome ↔
          (Engine.start c journal).Since (Fills resolver config slot)
            (fun e event => ¬ Loses resolver slot e event) past := by
  intro e s hresult
  have h : Attends resolver config e := attends_run hc journal past
  have hsupplied : Supplied e.leaf e.context := (supplied_run hc journal past).here
  obtain ⟨hasked, hyes, hkept⟩ := h.agreed hresult
  obtain ⟨hday, htime⟩ := proposals.mem_about _ h.leaf_mem_places h.not_isCompound_leaf
  refine ⟨hasked, hyes, fun hproposed => ?_, fun hproposed => ?_, fun slot hslot => ?_⟩
  · rw [hkept .day (by decide)]
    exact hsupplied .day (hday (h.wholeDayProposal_mem_iff.mp hproposed))
  · rw [hkept .time (by decide)]
    exact hsupplied .time (htime (h.proposal_mem_iff.mp hproposed))
  · have hne : slot ≠ .accept := by
      rintro rfl
      simp at hslot
    rw [hkept slot hne]
    exact isSome_slot_run hc journal slot past

def booking : List Event :=
  [.click, .click, .recognised { utterance := "meeting", confidence := 0.9 },
    .recognised { utterance := "lecture", confidence := 0.9 },
    .recognised { utterance := "friday", confidence := 0.9 },
    .recognised { utterance := "no", confidence := 0.9 },
    .recognised { utterance := "at 10", confidence := 0.9 }]

theorem booking_run_lecture :
    Appointment.chart Grammar.appointment.resolver {} = .ok standard ∧
      (((Engine.start standard (.withCapacity 4)).run booking).1.step
          (.recognised { utterance := "yes", confidence := 0.9 })).2 =
        .transitioned "meeting.confirmation.prompt" "meeting.finalized"
          ["meeting", "meeting.finalized"] [.speak "Your meeting has been created!"] ∧
      (Engine.start standard (.withCapacity 4)).Since
        (Fills Grammar.appointment.resolver {} .title)
        (fun e event => ¬ Loses Grammar.appointment.resolver .title e event) booking := by
  have hresult : (((Engine.start standard (.withCapacity 4)).run booking).1.step
      (.recognised { utterance := "yes", confidence := 0.9 })).2 =
        .transitioned "meeting.confirmation.prompt" "meeting.finalized"
          ["meeting", "meeting.finalized"] [.speak "Your meeting has been created!"] := by
    decide +kernel
  obtain ⟨-, -, -, -, hknown⟩ := booking_run chart_standard (.withCapacity 4) booking
    { utterance := "yes", confidence := 0.9 } hresult
  exact ⟨chart_standard, hresult, (hknown .title (by simp)).mp (by decide +kernel)⟩

/-- The events give a `time` alone, and a meeting is created with neither `title` nor `day`. -/
theorem created_untitled :
    Appointment.chart Grammar.appointment.resolver {} = .ok standard ∧
      ∃ s, ((Engine.start standard (.withCapacity 4)).run
            [.click, .click, .recognised { utterance := "meeting", confidence := 0.9 },
              .recognised { utterance := "at 10", confidence := 0.9 }]).1.step
          (.recognised { utterance := "yes", confidence := 0.9 }) = s ∧
        s.2 = .transitioned "meeting.confirmation.prompt" "meeting.finalized"
          ["meeting", "meeting.finalized"] [.speak "Your meeting has been created!"] ∧
        s.1.context.slot .title = none ∧ s.1.context.slot .day = none ∧
        s.1.context.slot .time = some "10" :=
  ⟨chart_standard, _, rfl, by decide +kernel⟩

end Appointment

end Dialogue
