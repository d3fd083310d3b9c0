import Dialogue.Proofs.Appointment.Inquiry
/-!
# Topics

Many states of the assistant are about one value: they ask whether it was heard right, look it up or
go on from it.  Such a state is reached with the value in its slot, by a turn that brings it or from
another state that is about the same slot, and a detour does not lose it.
-/

namespace Dialogue

theorem Slot.mem_all (slot : Slot) : slot ∈ all := by
  cases slot <;> decide

namespace Appointment

def wholeDay : StateId := ⟨37⟩

def wholeDayProposal : StateId := ⟨41⟩

def proposal : StateId := ⟨45⟩

def created : StateId := ⟨49⟩

def roomsOf (flow : StateId) : List StateId :=
  [⟨flow.index + 1⟩, ⟨flow.index + 2⟩, ⟨flow.index + 3⟩]

def about : Slot → List StateId
  | .title => searching :: Gate.subject.rooms ++ Gate.title.rooms
  | .day => Gate.day.rooms ++ roomsOf wholeDay ++ roomsOf wholeDayProposal
  | .time => Gate.time.rooms ++ roomsOf proposal
  | .category => Gate.query.rooms ++ Gate.meeting.rooms
  | .accept | .decline | .help => []

/-- Whatever the dialogue is about is known. -/
def Supplied (leaf : StateId) (ctx : Context) : Prop :=
  ∀ slot, leaf ∈ about slot → (ctx.slot slot).isSome

theorem lasting_supplied : Lasting Supplied := by
  intro leaf ctx ctx' hmatches h slot hslot
  have hne : slot ≠ .help := by
    rintro rfl
    cases hslot
  rw [hmatches.slot_eq slot hne]
  exact h slot hslot

theorem into_about : ∀ id ∈ places, ¬ shape.isCompound id → ∀ kind ∈ EventKind.all,
    ∀ h ∈ deciding? kind id, ∀ a ∈ h.2, ∀ slot ∈ Slot.all,
      shape.initialLeaf a.target ∈ about slot →
        (∃ cue ∈ slot.cues, a.condition.cue? = some cue ∧ a.effect = .fill slot cue) ∨
          id ∈ about slot ∧ a.effect ∈ [.nothing, .fill .accept (.entity "accept")] := by
  decide +kernel

theorem follows_supplied (resolver : Resolver) (config : Config) :
    Follows resolver config Supplied := by
  intro e event source ctx a h hreaction _ hsupplied slot hslot
  obtain ⟨arrows, hdeciding, ha⟩ := deciding?_of_reaction? hreaction
  rcases into_about _ h.leaf_mem_places h.not_isCompound_leaf _ event.kind.mem_all _ hdeciding _ ha
    slot slot.mem_all hslot with ⟨cue, -, hcue, heffect⟩ | ⟨hbefore, heffect⟩
  · obtain ⟨value, hread⟩ := Condition.read?_of_holds hcue (holds_of_reaction? hreaction)
    rw [heffect, Effect.apply, hread, Context.slot, Context.setSlot, Slots.get_set, if_pos rfl]
    rfl
  · have hset := hsupplied slot hbefore
    simp only [List.mem_cons, List.not_mem_nil, or_false] at heffect
    rcases heffect with heffect | heffect <;> rw [heffect]
    · exact hset
    · -- nothing is about the slot of the yes
      have hne : slot ≠ .accept := by
        rintro rfl
        cases hbefore
      rwa [Effect.apply, Context.slot, Context.setSlot, Slots.get_set, if_neg hne]

theorem supplied_idle : Supplied idle {} := by
  intro slot hslot
  cases slot <;> exact absurd hslot (by decide)

/-- All through a dialogue, the values that it is about are known. -/
theorem supplied_run {resolver : Resolver} {config : Config} {c : Chart}
    (hc : Appointment.chart resolver config = .ok c) (journal : Journal Move)
    (events : List Event) : Recalls Supplied ((Engine.start c journal).run events).1 :=
  (follows_supplied resolver config).recalls_start_run lasting_supplied supplied_idle hc journal
    events

end Appointment

end Dialogue
