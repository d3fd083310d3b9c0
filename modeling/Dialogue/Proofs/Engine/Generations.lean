import Dialogue.Proofs.Engine.Tickets
/-!
# Generations

Tickets are told apart by numbers, and nothing depends on where the numbers begin: what lookups do
commutes with adding to all of them.
-/

namespace Dialogue

/-! ## Numbers that begin later -/

def Ticket.later (g : Nat) (t : Ticket) : Ticket :=
  { t with generation := t.generation + g }

/-- A ticket as it is in a run whose numbers begin `g` sooner.  What has no such number has none
that is used. -/
def Ticket.sooner (g : Nat) (t : Ticket) : Ticket :=
  { t with generation := t.generation - g }

def Directive.later (g : Nat) : Directive → Directive
  | lookup ticket subject => lookup (ticket.later g) subject
  | directive => directive

def StepResult.later (g : Nat) : StepResult → StepResult
  | transitioned source target configuration directives =>
    transitioned source target configuration (directives.map (Directive.later g))
  | ignored reason => ignored reason

def Event.sooner (g : Nat) : Event → Event
  | lookupDone ticket answer => lookupDone (ticket.sooner g) answer
  | event => event

@[simp] theorem Event.kind_sooner (g : Nat) (event : Event) :
    (event.sooner g).kind = event.kind := by
  cases event <;> rfl

@[simp] theorem Event.answer?_sooner (g : Nat) (event : Event) :
    (event.sooner g).answer? = event.answer? := by
  cases event <;> rfl

theorem Ticket.later_eq_iff {g : Nat} {t t' : Ticket} (hpos : 0 < t.generation) :
    t.later g = t' ↔ t = t'.sooner g := by
  obtain ⟨state, generation⟩ := t
  obtain ⟨state', generation'⟩ := t'
  simp only [later, sooner, Ticket.mk.injEq] at hpos ⊢
  exact and_congr_right fun _ => by omega

/-! ## Lookups -/

namespace Lookups

def later (g : Nat) (l : Lookups) : Lookups where
  generation := l.generation + g
  live := l.live.map (Ticket.later g)

theorem nextTicket_later (g : Nat) (l : Lookups) (id : StateId) :
    (l.later g).nextTicket id = (l.nextTicket id).later g := by
  simp only [nextTicket, later, Ticket.later, Nat.add_right_comm]

theorem start_later (g : Nat) (l : Lookups) (id : StateId) :
    (l.later g).start id = (l.start id).later g := by
  rw [start, nextTicket_later]
  simp only [start, later, Option.map_some, Nat.add_right_comm]

theorem cancel_later (g : Nat) (l : Lookups) (id : StateId) :
    (l.later g).cancel id = (l.cancel id).later g := by
  have hbound : (l.later g).bound? id = (l.bound? id).map (Ticket.later g) :=
    Option.filter_map
  simp only [cancel, hbound, Option.isSome_map]
  split
  · simp only [later, Option.map_none, Nat.add_right_comm]
  · rfl

theorem foldl_cancel_later (g : Nat) (l : Lookups) (ids : List StateId) :
    ids.foldl cancel (l.later g) = (ids.foldl cancel l).later g := by
  induction ids generalizing l with
  | nil => rfl
  | cons id ids ih => rw [List.foldl_cons, cancel_later, ih, List.foldl_cons]

theorem complete?_later {g : Nat} {l : Lookups}
    (hpos : ∀ live, l.live = some live → 0 < live.generation) (ticket : Ticket) :
    (l.later g).complete? ticket = (l.complete? (ticket.sooner g)).map (later g) := by
  have hlive : (l.later g).live = some ticket ↔ l.live = some (ticket.sooner g) := by
    cases h : l.live with
    | none => simp [later, h]
    | some live => simp [later, h, Ticket.later_eq_iff (hpos live h)]
  simp only [complete?, hlive]
  split <;> rfl

end Lookups

/-! ## Pending lookups -/

/-- The state of a lookup that is awaited is active. -/
theorem Engine.state_mem_of_live {d : ChartDef} {c : Chart} (hd : d.build = .ok c)
    (journal : Journal Move) (events : List Event) {ticket : Ticket}
    (hlive : ((start c journal).run events).1.lookups.live = some ticket) :
    ticket.state ∈ ((start c journal).run events).1.active := by
  have hreplay := replay?_chronicle hd journal events
  have hfollows : ((start c journal).run events).1.lookups.Follows (chronicle c journal events) :=
    tracks_lookups.chronicle (ChartDef.wellFormed_of_build hd) follows_empty events
  have hawaited := (Mark.awaited_iff_outstanding hreplay).mpr ((hfollows.live_iff ticket).mp hlive)
  obtain ⟨before, after, hpast, -, -, hactive⟩ := hawaited
  obtain ⟨active, hafter, hmem⟩ := hactive after (List.prefix_refl after)
  rw [← hpast, hreplay] at hafter
  exact Option.some.inj hafter ▸ hmem

end Dialogue
