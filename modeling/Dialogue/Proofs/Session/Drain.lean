import Dialogue.Session
/-!
# Work lists

What a session does with a queue of events, without a bound: the first event is answered, and the
completions of the lookups that it leads to join the end of the queue.  A bound is enough exactly if
it is not smaller than the number of events that are answered, and then nothing else depends on it.
-/

namespace Dialogue

theorem Directive.lookup?_eq_none_iff {d : Directive} :
    d.lookup? = none ↔ d = .listen ∨ ∃ text, d = .speak text := by
  cases d <;> simp [lookup?]

namespace Session

/-- To answer a queue until it is empty gives these results and ends in this engine. -/
inductive Drains (k : KnowledgeBase) :
    Engine → List Event → List StepResult → Engine → Prop where
  | done (e : Engine) : Drains k e [] [] e
  | next {e last : Engine} {event : Event} {queue : List Event} {results : List StepResult}
    (rest : Drains k (e.step event).1
      (queue ++ completions k (e.step event).2.directives) results last) :
    Drains k e (event :: queue) ((e.step event).2 :: results) last

theorem Drains.unique {k : KnowledgeBase} {e last last' : Engine} {queue : List Event}
    {results results' : List StepResult} (h : Drains k e queue results last)
    (h' : Drains k e queue results' last') : results = results' ∧ last = last' := by
  induction h generalizing results' with
  | done e =>
    cases h'
    exact ⟨rfl, rfl⟩
  | next rest ih =>
    cases h' with
    | next rest' =>
      obtain ⟨rfl, hlast⟩ := ih rest'
      exact ⟨rfl, hlast⟩

def speechOf (results : List StepResult) : List Directive :=
  speech (results.flatMap StepResult.directives)

def lookupsOf (results : List StepResult) : List (Ticket × String) :=
  (results.flatMap StepResult.directives).filterMap Directive.lookup?

theorem speechOf_cons (result : StepResult) (results : List StepResult) :
    speechOf (result :: results) = speech result.directives ++ speechOf results := by
  simp [speechOf, speech]

theorem lookupsOf_cons (result : StepResult) (results : List StepResult) :
    lookupsOf (result :: results) =
      result.directives.filterMap Directive.lookup? ++ lookupsOf results := by
  simp [lookupsOf]

theorem eq_listen_or_speak_of_mem_speechOf {results : List StepResult} {d : Directive}
    (h : d ∈ speechOf results) : d = .listen ∨ ∃ text, d = .speak text := by
  have hlookup := (List.mem_filter.mp h).2
  rw [Option.isNone_iff_eq_none] at hlookup
  exact Directive.lookup?_eq_none_iff.mp hlookup

theorem completions_eq_map (k : KnowledgeBase) (directives : List Directive) :
    completions k directives = (directives.filterMap Directive.lookup?).map
      fun lookup => .lookupDone lookup.1 (answer k lookup.2) := by
  rw [completions, List.map_filterMap]
  congr 1
  funext d
  cases d <;> rfl

theorem drains_of_no_lookup {k : KnowledgeBase} {e : Engine} {event : Event}
    (hnone : (e.step event).2.directives.filterMap Directive.lookup? = []) :
    Drains k e [event] [(e.step event).2] (e.step event).1 := by
  refine .next ?_
  rw [completions_eq_map, hnone]
  exact .done _

theorem drains_of_lookup {k : KnowledgeBase} {e last : Engine} {event : Event} {ticket : Ticket}
    {subject : String} {results : List StepResult}
    (hasks : (e.step event).2.directives = [.lookup ticket subject])
    (hrest : Drains k (e.step event).1 [.lookupDone ticket (answer k subject)] results last) :
    Drains k e [event] ((e.step event).2 :: results) last := by
  refine .next ?_
  rw [hasks]
  exact hrest

theorem drain_nil (bound : Nat) (k : KnowledgeBase) (e : Engine) :
    drain bound k e [] = some (e, []) := by
  cases bound <;> rfl

theorem drain_cons_eq_some_iff {bound : Nat} {k : KnowledgeBase} {e last : Engine} {event : Event}
    {queue : List Event} {said : List Directive} :
    drain (bound + 1) k e (event :: queue) = some (last, said) ↔
      ∃ later, drain bound k (e.step event).1
          (queue ++ completions k (e.step event).2.directives) = some (last, later) ∧
        said = speech (e.step event).2.directives ++ later := by
  rw [drain, Option.map_eq_some_iff]
  constructor
  · rintro ⟨⟨last', later⟩, hrest, heq⟩
    obtain ⟨rfl, rfl⟩ := Prod.mk.inj heq
    exact ⟨later, hrest, rfl⟩
  · rintro ⟨later, hrest, rfl⟩
    exact ⟨(last, later), hrest, rfl⟩

/-- A bound has to cover the events that are answered, and changes nothing else. -/
theorem drain_eq_some_iff {bound : Nat} {k : KnowledgeBase} {e last : Engine}
    {queue : List Event} {said : List Directive} :
    drain bound k e queue = some (last, said) ↔
      ∃ results, Drains k e queue results last ∧ results.length ≤ bound ∧
        said = speechOf results := by
  constructor
  · intro h
    induction bound generalizing e queue said with
    | zero =>
      cases queue with
      | nil =>
        obtain ⟨rfl, rfl⟩ := Prod.mk.inj (Option.some.inj h)
        exact ⟨[], .done e, Nat.le_refl _, rfl⟩
      | cons event queue => cases h
    | succ bound ih =>
      cases queue with
      | nil =>
        obtain ⟨rfl, rfl⟩ := Prod.mk.inj (Option.some.inj h)
        exact ⟨[], .done e, Nat.zero_le _, rfl⟩
      | cons event queue =>
        obtain ⟨later, hrest, rfl⟩ := drain_cons_eq_some_iff.mp h
        obtain ⟨results, hdrains, hlength, rfl⟩ := ih hrest
        exact ⟨_, .next hdrains, Nat.succ_le_succ hlength, (speechOf_cons _ _).symm⟩
  · rintro ⟨results, hdrains, hlength, rfl⟩
    -- the bound shrinks with the results, one for each event that is answered
    induction hdrains generalizing bound with
    | done e => exact drain_nil bound k e
    | next rest ih =>
      cases bound with
      | zero => cases hlength
      | succ bound =>
        rw [speechOf_cons]
        exact drain_cons_eq_some_iff.mpr ⟨_, ih (Nat.le_of_succ_le_succ hlength), rfl⟩

theorem dispatchWithin_of_drains {bound : Nat} {s : Session} {event : Event}
    {results : List StepResult} {last : Engine}
    (hdrains : Drains s.knowledge s.engine [event] results last)
    (hbound : results.length ≤ bound) :
    s.dispatchWithin bound event = some ({ s with engine := last }, speechOf results) := by
  rw [dispatchWithin, drain_eq_some_iff.mpr ⟨results, hdrains, hbound, rfl⟩]
  rfl

def dispatchAll (bound : Nat) (s : Session) : List (KnowledgeBase × Event) → Option Session
  | [] => some s
  | (k, event) :: turns =>
    (dispatchWithin bound { s with knowledge := k } event).bind fun r => dispatchAll bound r.1 turns

theorem knowledge_dispatchAll {bound : Nat} {k : KnowledgeBase} {s s' : Session}
    (hs : s.knowledge = k) {events : List Event}
    (h : s.dispatchAll bound (events.map fun event => (k, event)) = some s') :
    s'.knowledge = k := by
  induction events generalizing s with
  | nil =>
    obtain rfl := Option.some.inj h
    exact hs
  | cons event events ih =>
    obtain ⟨⟨next, said⟩, hnext, hrest⟩ := Option.bind_eq_some_iff.mp h
    obtain ⟨last, -, heq⟩ := Option.map_eq_some_iff.mp hnext
    obtain ⟨rfl, -⟩ := Prod.mk.inj heq
    exact @ih ⟨last.1, k⟩ rfl hrest

end Session

end Dialogue
