import Dialogue.Proofs.Appointment.Plan
import Dialogue.Proofs.Engine.Renaming
/-!
# The assistant does not look at tickets

Its guards and actions read turns, slots and answers.  So its states, and the kinds of events in
each of them, may be declared in any order: no dialogue changes but for the numbers in tickets.
-/

namespace Dialogue

namespace Cues

variable (c : Cues)

@[simp] theorem impartial_present (cue : Cue) : (c.present cue).Impartial :=
  Guard.impartial_onContext _

@[simp] theorem impartial_confident : c.confident.Impartial :=
  Guard.impartial_onContext _

@[simp] theorem impartial_fill (s : Slot) (cue : Cue) : (c.fill s cue).Impartial :=
  Action.impartial_fill s _

@[simp] theorem impartial_take (cue : Cue) (s : Slot) (target : String) :
    (c.take cue s target).Impartial := by
  simp [take]

end Cues

namespace RetryPolicy

@[simp] theorem impartial_recordAction : recordAction.Impartial :=
  Action.impartial_assign _ _

@[simp] theorem impartial_resetAction : resetAction.Impartial :=
  Action.impartial_assign _ _

end RetryPolicy

namespace Support

@[simp] theorem impartial_helpTransition (branch : String) (cues : Cues) :
    (helpTransition branch cues).Impartial :=
  cues.impartial_take _ _ _

theorem impartial_states (branch : String) (help : Template) (policy : RetryPolicy)
    (prompts : Prompts) : ∀ s ∈ states branch help policy prompts, s.Impartial := by
  simp [states, interlude, timeoutTransitions, RetryPolicy.transitions]

end Support

namespace Confirmation

@[simp] theorem impartial_say (name : String) (text : Template) (next : String) :
    (say name text next).Impartial := by
  simp [say]

@[simp] theorem impartial_ask : ask.Impartial := by
  simp [ask]

@[simp] theorem impartial_build (c : Confirmation) (cues : Cues) (prompts : Prompts) :
    (c.build cues prompts).Impartial := by
  simp [build, decline, Cues.take, Action.clear]

end Confirmation

namespace Appointment

section

variable (cues : Cues) (prompts : Prompts) (policy : RetryPolicy)

theorem impartial_welcome : (welcome cues prompts policy).Impartial := by
  simp [welcome, Cues.gated, Support.timeoutTransitions, RetryPolicy.transitions]

theorem impartial_query : (query cues prompts policy).Impartial := by
  simp [query, understood, Cues.gated, Support.timeoutTransitions, RetryPolicy.transitions]

theorem impartial_meeting : (meeting cues prompts policy).Impartial := by
  simp [meeting, Cues.gated, Support.timeoutTransitions, RetryPolicy.transitions]

end

variable (resolver : Resolver) (config : Config)

theorem impartial_definition : (definition resolver config).Impartial := by
  apply ChartDef.impartial_of_states
  simp only [definition, List.forall_mem_append, List.forall_mem_cons]
  have hbeside (branch : String) (help : Template) :=
    Support.impartial_states branch help config.retryPolicy config.prompts
  refine ⟨⟨⟨⟨?_, ?_, impartial_welcome .., impartial_query .., impartial_meeting ..,
    List.forall_mem_nil _⟩, hbeside _ _⟩, hbeside _ _⟩, hbeside _ _⟩
  · simp
  · simp

/-- A rearranged definition of the assistant is accepted, and its chart mirrors the assistant. -/
theorem mirrors_of_rearranged {d' : ChartDef} (h : (definition resolver config).Rearranged d') :
    ∃ c', d'.build = .ok c' ∧
      (assistant resolver config).Mirrors ((assistant resolver config).counterpart c') c' := by
  have hbuild := build_definition resolver config
  obtain ⟨c', hc'⟩ := h.sameStates.exists_build_iff.mp ⟨_, hbuild⟩
  exact ⟨c', hc', h.sameStates.mirrors hbuild hc' (impartial_definition resolver config)⟩

end Appointment

end Dialogue
