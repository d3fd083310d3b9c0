import Dialogue.Proofs.Appointment.Silence
/-!
# Detours

Help and an apology interrupt a branch.  Whatever comes meanwhile, the end of speech leads back to
where the branch was left, with all that was said before.
-/

namespace Dialogue

theorem Engine.slots_receive? {e e' : Engine} {event : Event}
    (h : e.receive? event = some e') :
    e'.context.slots = e.context.slots ∧ e'.context.answer = e.context.answer := by
  cases event with
  | lookupDone ticket answer =>
    obtain ⟨_, -, rfl⟩ := Option.map_eq_some_iff.mp h
    exact ⟨rfl, rfl⟩
  | recognised turn | click | ttsReady | endSpeech | timeout =>
    obtain rfl := Option.some.inj h
    exact ⟨rfl, rfl⟩

namespace Appointment

/-- What interrupts the branch of an engine: a call for help, or a silence below the limit. -/
inductive Interrupts (resolver : Resolver) (config : Config) (e : Engine) : Event → Prop where
  | help {turn : Turn} (cue : (resolver.entity (e.context.observe turn) "help").isSome) :
    Interrupts resolver config e (.recognised turn)
  | silence (below : e.context.silences + 1 < config.maxTimeouts.toNat) :
    Interrupts resolver config e .timeout

def Branch.aside (b : Branch) : Event → String
  | .timeout => Support.timeoutName b.name
  | _ => Support.helpName b.name

def slotsAside (resolver : Resolver) (ctx : Context) : Event → Slots
  | .recognised turn => ctx.slots.set .help (resolver.entity (ctx.observe turn) "help")
  | _ => ctx.slots

def Patient (config : Config) (e : Engine) (events : List Event) : Prop :=
  ∀ i, events[i]? = some .timeout →
    (e.run (events.take i)).1.context.silences + 1 < config.maxTimeouts.toNat

theorem Patient.tail {config : Config} {e : Engine} {event : Event} {events : List Event}
    (h : Patient config e (event :: events)) : Patient config (e.step event).1 events :=
  fun i => h (i + 1)

theorem Patient.head {config : Config} {e : Engine} {events : List Event}
    (h : Patient config e (.timeout :: events)) :
    e.context.silences + 1 < config.maxTimeouts.toNat :=
  h 0 rfl

/-- An engine beside a branch, which was left at `leaf` with these slots and this answer. -/
structure Aside (resolver : Resolver) (config : Config) (b : Branch) (leaf : StateId)
    (slots : Slots) (answer : Option Answer) (e : Engine) : Prop where
  attends : Attends resolver config e
  leaf_mem : e.leaf ∈ [b.help, b.timeout]
  resume?_eq : e.history.resume? b.place = some leaf
  slots_eq : e.context.slots = slots
  answer_eq : e.context.answer = answer

section Setting

variable {resolver : Resolver} {config : Config} {e : Engine} {b : Branch}

theorem taken_help (h : Attends resolver config e) (hb : b.place ∈ shape.lineage e.leaf)
    {turn : Turn} (hcue : (resolver.entity (e.context.observe turn) "help").isSome) :
    ∃ source, (source ∈ shape.lineage e.leaf ∧ source ≠ Chart.root) ∧
      Taken resolver config { e with context := e.context.observe turn } (.recognised turn) source
        (Arrow.helpOf b) (e.step (.recognised turn)) := by
  obtain ⟨⟨source, arrows⟩, hdeciding, hhead⟩ :=
    Option.bind_eq_some_iff.mp (landmarks.deciding?_recognised _ h.leaf_mem_places b hb)
  obtain ⟨rest, rfl⟩ := List.head?_eq_some_iff.mp hhead
  have hholds : (Arrow.helpOf b).condition.holds resolver config (e.context.observe turn)
      (.recognised turn) := hcue
  have hreaction : reaction? resolver config e.leaf (e.context.observe turn) (.recognised turn) =
      some (source, Arrow.helpOf b) := by
    refine reaction?_eq_some_iff.mpr ⟨_, hdeciding, ?_⟩
    rw [List.find?_cons, hholds]
  exact ⟨source, h.source_mem hreaction, (h.step_spec rfl).2 source _ hreaction⟩

theorem aside_of_interrupts (h : Attends resolver config e)
    (hb : b.place ∈ shape.lineage e.leaf) {event : Event}
    (hinterrupts : Interrupts resolver config e event) :
    (∃ directives, (e.step event).2 =
        .transitioned e.leafPath (b.aside event) [b.aside event] directives) ∧
      Aside resolver config b e.leaf (slotsAside resolver e.context event) e.context.answer
        (e.step event).1 := by
  cases hinterrupts with
  | @help turn hcue =>
    obtain ⟨source, hsource, ht⟩ := taken_help h hb hcue
    have h' := h.receive (Engine.receive?_recognised e turn)
    have hbeside : (Arrow.helpOf b).target ∈ [idle, b.help, b.timeout] := by simp [Arrow.helpOf]
    have hresult := ht.result_top h' hbeside hsource
    simp only [Arrow.helpOf, (landmarks.path_aside b).1] at hresult
    refine ⟨⟨_, hresult⟩, ht.attends, ?_, ?_, ?_, ?_⟩
    · rw [ht.leaf_top h' hbeside]
      exact List.mem_cons_self
    · rw [ht.resume?_top h' hbeside hsource]
      exact if_pos hb
    · rw [ht.context_eq]
      rfl
    · rw [ht.context_eq]
      rfl
  | silence hbelow =>
    obtain ⟨hresult, hleaf, hcontext, hresume⟩ := h.retried (Or.inl hb) hbelow
    refine ⟨hresult, h.step .timeout, ?_, ?_, ?_, ?_⟩
    · rw [hleaf]
      exact List.mem_cons_of_mem _ List.mem_cons_self
    · rw [hresume b, if_pos hb]
    · rw [hcontext]
      rfl
    · rw [hcontext]
      rfl

namespace Aside

variable {leaf : StateId} {slots : Slots} {answer : Option Answer}
  (ha : Aside resolver config b leaf slots answer e)
include ha

theorem configuration_eq :
    e.configuration = [Support.helpName b.name] ∨
      e.configuration = [Support.timeoutName b.name] := by
  have hlineage := landmarks.lineage_top b _ (List.mem_cons_of_mem _ ha.leaf_mem)
  have hpath : e.configuration = [shape.path e.leaf] := by
    rw [ha.attends.configuration_eq, hlineage]
    rfl
  have hleaf : e.leaf = b.help ∨ e.leaf = b.timeout := by simpa using ha.leaf_mem
  rw [hpath]
  rcases hleaf with hleaf | hleaf
  · rw [hleaf, (landmarks.path_aside b).1]
    exact Or.inl rfl
  · rw [hleaf, (landmarks.path_aside b).2]
    exact Or.inr rfl

theorem step_timeout (hbelow : e.context.silences + 1 < config.maxTimeouts.toNat) :
    Aside resolver config b leaf slots answer (e.step .timeout).1 := by
  have hnear : b.Near e.leaf := Or.inr (by simpa using ha.leaf_mem)
  obtain ⟨-, hleaf, hcontext, hresume⟩ := ha.attends.retried hnear hbelow
  refine ⟨ha.attends.step .timeout, ?_, ?_, ?_, ?_⟩
  · rw [hleaf]
    exact List.mem_cons_of_mem _ List.mem_cons_self
  · rw [hresume b, if_neg (landmarks.place_notMem_lineage b _ ha.leaf_mem b)]
    exact ha.resume?_eq
  · rw [hcontext]
    exact ha.slots_eq
  · rw [hcontext]
    exact ha.answer_eq

theorem step_other {event : Event} (hspeech : event.kind ≠ .endSpeech)
    (htimeout : event.kind ≠ .timeout) :
    Aside resolver config b leaf slots answer (e.step event).1 := by
  have hdeciding := landmarks.deciding?_aside b _ ha.leaf_mem _ event.kind.mem_all htimeout
  rw [if_neg hspeech] at hdeciding
  have hnone := fun ctx => @reaction?_eq_none resolver config e.leaf ctx event hdeciding
  rcases ha.attends.step_cases event with hstep | ⟨e', hreceive, ⟨-, hstep⟩ | ⟨_, _, hsome, -⟩⟩
  · rw [hstep]
    exact ha
  · obtain ⟨hslots, hanswer⟩ := Engine.slots_receive? hreceive
    have hattends := ha.attends.receive hreceive
    obtain ⟨_, _, rfl, -⟩ := Engine.receive?_eq_some hreceive
    rw [hstep]
    exact ⟨hattends, ha.leaf_mem, ha.resume?_eq, hslots.trans ha.slots_eq,
      hanswer.trans ha.answer_eq⟩
  · rw [hnone] at hsome
    cases hsome

/-- Whatever comes but the end of speech and one silence too many, nothing is lost. -/
theorem step {event : Event} (hspeech : event ≠ .endSpeech)
    (hbelow : event = .timeout → e.context.silences + 1 < config.maxTimeouts.toNat) :
    Aside resolver config b leaf slots answer (e.step event).1 := by
  cases event with
  | timeout => exact ha.step_timeout (hbelow rfl)
  | endSpeech => exact absurd rfl hspeech
  | click | ttsReady | recognised _ | lookupDone _ _ =>
    exact ha.step_other (by simp [Event.kind]) (by simp [Event.kind])

theorem run {events : List Event} (hspeech : .endSpeech ∉ events)
    (hpatient : Patient config e events) :
    Aside resolver config b leaf slots answer (e.run events).1 := by
  -- silences count up on the way, so patience is asked of each engine in turn
  induction events generalizing e with
  | nil => exact ha
  | cons event events ih =>
    rw [List.mem_cons, not_or] at hspeech
    have hstep := ha.step (Ne.symm hspeech.1) fun htimeout => by
      subst htimeout
      exact hpatient.head
    exact ih hstep hspeech.2 hpatient.tail

theorem taken_endSpeech :
    Taken resolver config e .endSpeech e.leaf { target := b.history } (e.step .endSpeech) := by
  have hdeciding := landmarks.deciding?_aside b _ ha.leaf_mem _ EventKind.endSpeech.mem_all
    (by decide)
  rw [if_pos rfl] at hdeciding
  have hreaction : reaction? resolver config e.leaf e.context .endSpeech =
      some (e.leaf, { target := b.history }) := by
    exact reaction?_eq_some_iff.mpr ⟨_, hdeciding, rfl⟩
  exact (ha.attends.step_spec rfl).2 _ _ hreaction

theorem leaf_endSpeech : (e.step .endSpeech).1.leaf = leaf := by
  rw [ha.taken_endSpeech.leaf_eq, ha.attends.arrival_history ha.leaf_mem, ha.resume?_eq,
    Option.getD_some]

theorem context_endSpeech : (e.step .endSpeech).1.context = e.context :=
  ha.taken_endSpeech.context_eq

theorem resumed {e₀ : Engine} (h : Attends resolver config e₀) (hleaf : e₀.leaf = leaf) :
    (e.step .endSpeech).1.active = e₀.active ∧
      (e.step .endSpeech).1.configuration = e₀.configuration ∧
      ∃ directives, (e.step .endSpeech).2 =
        .transitioned e.leafPath e₀.leafPath e₀.configuration directives := by
  have ht := ha.taken_endSpeech
  have hsame : (e.step .endSpeech).1.leaf = e₀.leaf := ha.leaf_endSpeech.trans hleaf.symm
  have hconfiguration : (e.step .endSpeech).1.configuration = e₀.configuration := by
    rw [ht.attends.configuration_eq, h.configuration_eq, hsame]
  have hactive : (e.step .endSpeech).1.active = e₀.active := by
    rw [ht.attends.active_eq, h.active_eq, hsame]
  have hresult := ht.result_eq
  rw [hconfiguration, ht.attends.leafPath_eq, hsame, ← h.leafPath_eq] at hresult
  exact ⟨hactive, hconfiguration, _, hresult⟩

end Aside

end Setting

/-- An event that `Interrupts` a branch leads beside it.  Events other than `endSpeech`, with fewer
silences than the limit, stay beside it, and `endSpeech` then restores the active states.  Slots and
answer are those at the interruption, but for the call for help. -/
theorem detour_run {resolver : Resolver} {config : Config} {c : Chart}
    (hc : Appointment.chart resolver config = .ok c) (journal : Journal Move)
    (past : List Event) (b : Branch) (event : Event) :
    let e := ((Engine.start c journal).run past).1
    b.name ∈ e.configuration → Interrupts resolver config e event →
      (∃ directives, (e.step event).2 =
          .transitioned e.leafPath (b.aside event) [b.aside event] directives) ∧
        ∀ meanwhile, .endSpeech ∉ meanwhile → Patient config (e.step event).1 meanwhile →
          let e' := ((e.step event).1.run meanwhile).1
          let s := e'.step .endSpeech
          (e'.configuration = [Support.helpName b.name] ∨
              e'.configuration = [Support.timeoutName b.name]) ∧
            (∃ directives, s.2 =
                .transitioned e'.leafPath e.leafPath e.configuration directives) ∧
            s.1.active = e.active ∧ s.1.configuration = e.configuration ∧
            s.1.context.slots = slotsAside resolver e.context event ∧
            s.1.context.answer = e.context.answer := by
  intro e hname hinterrupts
  have h : Attends resolver config e := attends_run hc journal past
  obtain ⟨hresult, haside⟩ := aside_of_interrupts h (h.place_mem_of_name hname) hinterrupts
  refine ⟨hresult, ?_⟩
  intro meanwhile hspeech hpatient e' s
  have ha := haside.run hspeech hpatient
  obtain ⟨hactive, hconfiguration, hback⟩ := ha.resumed h rfl
  refine ⟨ha.configuration_eq, hback, hactive, hconfiguration, ?_, ?_⟩
  · rw [ha.context_endSpeech]
    exact ha.slots_eq
  · rw [ha.context_endSpeech]
    exact ha.answer_eq

theorem detour_run_welcome :
    Appointment.chart Grammar.appointment.resolver {} = .ok standard ∧
      ((Engine.start standard (.withCapacity 4)).run [.click, .click, .endSpeech]).1.configuration =
        ["welcome", "welcome.ask"] ∧
      (((((Engine.start standard (.withCapacity 4)).run [.click, .click, .endSpeech]).1.step
        (.recognised { utterance := "help" })).1.run [.timeout]).1.step
          .endSpeech).1.configuration = ["welcome", "welcome.ask"] := by
  have hconfiguration : ((Engine.start standard (.withCapacity 4)).run
      [.click, .click, .endSpeech]).1.configuration = ["welcome", "welcome.ask"] := by
    decide
  obtain ⟨-, hdetour⟩ := detour_run chart_standard (.withCapacity 4) [.click, .click, .endSpeech]
    .welcome (.recognised { utterance := "help" }) (hconfiguration ▸ by decide) (.help (by decide))
  have hpatient : Patient {} (((Engine.start standard (.withCapacity 4)).run
      [.click, .click, .endSpeech]).1.step (.recognised { utterance := "help" })).1 [.timeout] := by
    intro i hi
    cases i with
    | zero => decide
    | succ i => cases hi
  obtain ⟨-, -, -, hback, -⟩ := hdetour [.timeout] (by simp) hpatient
  exact ⟨chart_standard, hconfiguration, hback.trans hconfiguration⟩

end Appointment

end Dialogue
