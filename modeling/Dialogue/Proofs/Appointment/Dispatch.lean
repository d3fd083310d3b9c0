import Dialogue.Proofs.Appointment.Inquiry
import Dialogue.Proofs.Session.Drain
/-!
# Dispatches of the assistant

A dispatch is over after two events at most.  Between dispatches no lookup is live.  An event that
begins a lookup leaves the assistant waiting for the answer, and the completion that comes next is
the one that is awaited: it leads to where the answer is read out, or to the regret that there is
none.
-/

namespace Dialogue

/-- The lookup of a subject fails, or its answer says nothing. -/
def KnowledgeBase.FindsNothing (k : KnowledgeBase) (subject : String) : Prop :=
  ∀ answer, k.lookup subject = .ok answer → ¬ answer.hasAbstract

theorem KnowledgeBase.FindsNothing.not_hasAbstract {k : KnowledgeBase} {subject : String}
    (h : k.FindsNothing subject) : ¬ (Session.answer k subject).hasAbstract := by
  unfold Session.answer
  split
  · next answer hok => exact h answer hok
  · decide

namespace Appointment

def regretting : StateId := ⟨21⟩

def followUps : List Arrow :=
  [{ condition := .answered, effect := .keepAnswer, target := telling }, { target := regretting }]

structure Searches : Prop where
  deciding?_lookupDone : deciding? .lookupDone searching = some (searching, followUps)
  initialLeaf_eq : ∀ a ∈ followUps,
    ¬ shape.isHistory a.target ∧ shape.initialLeaf a.target = a.target
  announces : linesAt searching = [] ∧ looksUpAt searching
  path_eq_regretting : shape.path regretting = "query.no_results"
  searching_mem_lineage : ∀ id ∈ places, ¬ shape.isCompound id →
    searching ∈ shape.lineage id → id = searching

theorem searches : Searches := by
  constructor <;> decide +kernel

section Setting

variable {resolver : Resolver} {config : Config}

/-- An engine of the assistant between two dispatches. -/
structure Settled (resolver : Resolver) (config : Config) (e : Engine) : Prop where
  attends : Attends resolver config e
  leaf_ne : e.leaf ≠ searching
  live_eq : e.lookups.live = none

/-- An engine of the assistant that waits for the answer to a question. -/
structure Waiting (resolver : Resolver) (config : Config) (ticket : Ticket) (e : Engine) :
    Prop where
  attends : Attends resolver config e
  leaf_eq : e.leaf = searching
  live_eq : e.lookups.live = some ticket

theorem Settled.receive {e e' : Engine} {event : Event} (h : Settled resolver config e)
    (hreceive : e.receive? event = some e') : Settled resolver config e' := by
  refine ⟨h.attends.receive hreceive, (Engine.leaf_receive? hreceive) ▸ h.leaf_ne, ?_⟩
  obtain ⟨_, _, rfl, rfl | ⟨ticket, _, -, hcomplete⟩⟩ := Engine.receive?_eq_some hreceive
  · exact h.live_eq
  · obtain ⟨-, rfl⟩ := Lookups.complete?_eq_some.mp hcomplete
    rfl

namespace Taken

variable {e : Engine} {event : Event} {source : StateId} {a : Arrow} {s : Engine × StepResult}
  (ht : Taken resolver config e event source a s) (h : Attends resolver config e)
  (hdeciding : ∃ arrows, deciding? event.kind e.leaf = some (source, arrows) ∧ a ∈ arrows)
include ht h hdeciding

theorem settled (hlive : e.lookups.live = none) (hne : s.1.leaf ≠ searching) :
    Settled resolver config s.1 ∧ s.2.directives.filterMap Directive.lookup? = [] := by
  have hcancelled : (cancelled e source a.target).live = none := by
    rw [Option.eq_none_iff_forall_ne_some]
    intro ticket hticket
    have hlive' := (Lookups.live_cancelAll_eq_some.mp hticket).1
    rw [hlive] at hlive'
    cases hlive'
  have hquiet : ¬ looksUpAt s.1.leaf := fun hlooksUp =>
    hne (inquiries.eq_searching_of_looksUpAt _ ht.attends.leaf_mem_places hlooksUp)
  refine ⟨⟨ht.attends, hne, ?_⟩, ?_⟩
  · rw [ht.lookups_arrival h hdeciding, begun, if_neg hquiet, hcancelled]
  · rw [List.filterMap_eq_nil_iff]
    intro d hd
    cases d with
    | speak _ | listen => rfl
    | lookup ticket subject => exact absurd (ht.of_lookup_mem h hdeciding hd).1 hne

theorem waiting (hleaf : s.1.leaf = searching) :
    ∃ ticket subject, Waiting resolver config ticket s.1 ∧
      s.2.directives = [.lookup ticket subject] := by
  obtain ⟨hlines, hlooksUp⟩ := searches.announces
  refine ⟨(cancelled e source a.target).nextTicket searching, (s.1.context.slot .title).getD "",
    ⟨ht.attends, hleaf, ?_⟩, ?_⟩
  · rw [ht.lookups_arrival h hdeciding, hleaf, begun, if_pos hlooksUp]
    rfl
  · rw [ht.result_away h hdeciding (by rw [hleaf]; decide), StepResult.directives, hleaf,
      announced, hlines, if_pos hlooksUp]
    rfl

end Taken

theorem Settled.answer_step {e : Engine} (h : Settled resolver config e) {event : Event}
    (hleaf : (e.step event).1.leaf ≠ idle) :
    (e.step event).1.context.answer = e.context.answer := by
  by_contra hne
  rcases (h.attends.outcome_step event).reset_or_completed hne with
    ⟨rfl, _, _, _, hresult⟩ | ⟨ticket, _, -, hlive, -⟩
  · exact hleaf (h.attends.restarted_of_idle hresult).1
  · rw [h.live_eq] at hlive
    cases hlive

theorem Settled.step {e : Engine} (h : Settled resolver config e) (event : Event) :
    (Settled resolver config (e.step event).1 ∧
        (e.step event).2.directives.filterMap Directive.lookup? = []) ∨
      ∃ ticket subject, Waiting resolver config ticket (e.step event).1 ∧
        (e.step event).2.directives = [.lookup ticket subject] := by
  rcases h.attends.step_cases event with
    hstep | ⟨e', hreceive, ⟨-, hstep⟩ | ⟨source, a, hreaction, ht⟩⟩
  · rw [hstep]
    exact Or.inl ⟨h, rfl⟩
  · rw [hstep]
    exact Or.inl ⟨h.receive hreceive, rfl⟩
  · have h' := h.receive hreceive
    have hdeciding := deciding?_of_reaction? hreaction
    rw [← Engine.leaf_receive? hreceive] at hdeciding
    by_cases hleaf : (e.step event).1.leaf = searching
    · exact Or.inr (ht.waiting h'.attends hdeciding hleaf)
    · exact Or.inl (ht.settled h'.attends hdeciding h'.live_eq hleaf)

def followUp (answer : Answer) : Arrow :=
  if answer.hasAbstract then { condition := .answered, effect := .keepAnswer, target := telling }
  else { target := regretting }

theorem followUp_mem (answer : Answer) : followUp answer ∈ followUps := by
  unfold followUp
  split <;> simp [followUps]

namespace Waiting

variable {ticket : Ticket} {e : Engine} (h : Waiting resolver config ticket e)
include h

theorem receive?_eq (answer : Answer) : e.receive? (.lookupDone ticket answer) =
    some { e with lookups := { e.lookups with live := none } } := by
  rw [Engine.receive?, Lookups.complete?, if_pos h.live_eq]
  rfl

theorem taken (answer : Answer) :
    Taken resolver config { e with lookups := { e.lookups with live := none } }
      (.lookupDone ticket answer) searching (followUp answer)
      (e.step (.lookupDone ticket answer)) := by
  refine (h.attends.step_spec (h.receive?_eq answer)).2 _ _ ?_
  rw [h.leaf_eq, reaction?_eq_some_iff]
  refine ⟨_, searches.deciding?_lookupDone, ?_⟩
  cases hanswer : answer.hasAbstract <;>
    simp [Condition.holds, Event.answer?, followUps, followUp, hanswer]

theorem leaf_step (answer : Answer) :
    (e.step (.lookupDone ticket answer)).1.leaf = (followUp answer).target := by
  obtain ⟨hhistory, hinitial⟩ := searches.initialLeaf_eq _ (followUp_mem answer)
  rw [(h.taken answer).leaf_initial (h.attends.receive (h.receive?_eq answer)) hhistory, hinitial]

theorem step (answer : Answer) :
    Settled resolver config (e.step (.lookupDone ticket answer)).1 ∧
      (e.step (.lookupDone ticket answer)).2.directives.filterMap Directive.lookup? = [] := by
  refine (h.taken answer).settled (h.attends.receive (h.receive?_eq answer)) ?_ rfl ?_
  · rw [Engine.leaf_receive? (h.receive?_eq answer), h.leaf_eq]
    exact ⟨_, searches.deciding?_lookupDone, followUp_mem answer⟩
  · rw [h.leaf_step]
    unfold followUp
    split <;> decide

theorem step_of_not_hasAbstract {answer : Answer} (hanswer : ¬ answer.hasAbstract) :
    (e.step (.lookupDone ticket answer)).1.leaf = regretting ∧
      (e.step (.lookupDone ticket answer)).1.context.answer = e.context.answer ∧
      ∀ {answer' : Answer}, ¬ answer'.hasAbstract →
        e.step (.lookupDone ticket answer') = e.step (.lookupDone ticket answer) := by
  have hforget : ∀ {answer : Answer}, ¬ answer.hasAbstract →
      followUp answer = { target := regretting } := fun hanswer => if_neg hanswer
  have ht := h.taken answer
  rw [hforget hanswer] at ht
  refine ⟨?_, ?_, fun {answer'} hanswer' => ?_⟩
  · rw [h.leaf_step, hforget hanswer]
  · rw [ht.context_eq]
    rfl
  · have ht' := h.taken answer'
    rw [hforget hanswer'] at ht'
    exact ht'.congr ht rfl rfl

end Waiting

/-! ## Dispatches -/

open Session in
theorem Settled.drains {e : Engine} (h : Settled resolver config e) (k : KnowledgeBase)
    (event : Event) :
    ∃ results last, Drains k e [event] results last ∧ results.length ≤ 2 ∧
      (lookupsOf results).length ≤ 1 ∧ Settled resolver config last ∧
      ∀ ticket subject, (ticket, subject) ∈ lookupsOf results → k.FindsNothing subject →
        last.leaf = regretting ∧ last.context.answer = e.context.answer ∧
          ∀ k' : KnowledgeBase, k'.FindsNothing subject → Drains k' e [event] results last := by
  rcases h.step event with ⟨hsettled, hnone⟩ | ⟨ticket, subject, hwaiting, hasks⟩
  · have hlookups : lookupsOf [(e.step event).2] = [] := by
      rw [lookupsOf_cons, hnone]
      rfl
    refine ⟨_, _, drains_of_no_lookup hnone, Nat.le_succ 1, ?_, hsettled, ?_⟩
    · rw [hlookups]
      exact Nat.zero_le 1
    · intro ticket subject hmem
      rw [hlookups] at hmem
      cases hmem
  · have hdrains : ∀ k', Drains k' e [event] [(e.step event).2,
        ((e.step event).1.step (.lookupDone ticket (answer k' subject))).2]
        ((e.step event).1.step (.lookupDone ticket (answer k' subject))).1 :=
      fun k' => drains_of_lookup hasks (drains_of_no_lookup (hwaiting.step _).2)
    obtain ⟨hsettled, hnone⟩ := hwaiting.step (answer k subject)
    have hlookups : lookupsOf [(e.step event).2,
        ((e.step event).1.step (.lookupDone ticket (answer k subject))).2] =
          [(ticket, subject)] := by
      rw [lookupsOf_cons, lookupsOf_cons, hnone, hasks]
      rfl
    refine ⟨_, _, hdrains k, Nat.le_refl _, by rw [hlookups]; exact Nat.le_refl _, hsettled, ?_⟩
    intro ticket' subject' hmem hnothing
    rw [hlookups] at hmem
    obtain ⟨rfl, rfl⟩ := Prod.mk.inj (List.mem_singleton.mp hmem)
    obtain ⟨hleaf, hanswer, hsame⟩ :=
      hwaiting.step_of_not_hasAbstract hnothing.not_hasAbstract
    refine ⟨hleaf, hanswer.trans (h.answer_step ?_), fun k' hnothing' => ?_⟩
    · rw [hwaiting.leaf_eq]
      decide
    · rw [← hsame hnothing'.not_hasAbstract]
      exact hdrains k'

theorem settled_start (resolver : Resolver) (config : Config) (journal : Journal Move) :
    Settled resolver config (.start (assistant resolver config) journal) := by
  refine ⟨attends_start resolver config journal, ?_, ?_⟩ <;> rw [start_assistant]
  have hleaf : idle ≠ searching := by decide
  exact hleaf

theorem Settled.dispatchAll {s : Session} (h : Settled resolver config s.engine)
    (past : List (KnowledgeBase × Event)) :
    ∃ s', s.dispatchAll 2 past = some s' ∧ Settled resolver config s'.engine := by
  induction past generalizing s with
  | nil => exact ⟨s, rfl, h⟩
  | cons turn past ih =>
    obtain ⟨k, event⟩ := turn
    obtain ⟨results, last, hdrains, hlength, -, hsettled, -⟩ := h.drains k event
    have hdispatch :
        ({ s with knowledge := k } : Session).dispatchWithin 2 event = some (⟨last, k⟩, _) :=
      Session.dispatchWithin_of_drains hdrains hlength
    obtain ⟨s', hs', hsettled'⟩ := @ih ⟨last, k⟩ hsettled
    refine ⟨s', ?_, hsettled'⟩
    rw [Session.dispatchAll, hdispatch, Option.bind_some]
    exact hs'

theorem Settled.not_isIn {e : Engine} (h : Settled resolver config e) :
    e.isIn "query.understood" = false := by
  have hlookup : e.chart.lookup? "query.understood" = some searching := by
    rw [h.attends.chart_eq, lookup?_assistant]
    decide +kernel
  rw [Engine.isIn, hlookup, Option.any_some, h.attends.active_eq, ← Bool.not_eq_true,
    List.contains_iff_mem]
  exact fun hmem => h.leaf_ne (searches.searching_mem_lineage _ h.attends.leaf_mem_places
    h.attends.not_isCompound_leaf hmem)

end Setting

theorem appointment_eq_ok {resolver : Resolver} {config : Config} {k : KnowledgeBase}
    {s : Session} (hs : Session.appointment resolver config k = .ok s) :
    ∃ c, Appointment.chart resolver config = .ok c ∧
      s = ⟨.start c (.withCapacity config.journalCapacity), k⟩ := by
  unfold Session.appointment at hs
  cases hc : Appointment.chart resolver config with
  | error error =>
    rw [hc] at hs
    cases hs
  | ok c =>
    rw [hc] at hs
    exact ⟨c, rfl, (Except.ok.inj hs).symm⟩

theorem settled_appointment {resolver : Resolver} {config : Config} {k : KnowledgeBase}
    {s : Session} (hs : Session.appointment resolver config k = .ok s) :
    Settled resolver config s.engine := by
  obtain ⟨c, hc, rfl⟩ := appointment_eq_ok hs
  obtain rfl := eq_assistant_of_chart resolver config hc
  exact settled_start resolver config _

open Session in
/-- A dispatch answers at most two events and begins at most one lookup, so that any `bound` from
`2` on is enough.  It returns prompts and `listen` only, and leaves nothing live.  If the lookup
finds nothing, it ends in `query.no_results` with the answer of before, like one that fails. -/
theorem dispatch_run {resolver : Resolver} {config : Config} {k₀ : KnowledgeBase} {s₀ : Session}
    (hs : Session.appointment resolver config k₀ = .ok s₀)
    (past : List (KnowledgeBase × Event)) (k : KnowledgeBase) (event : Event) :
    ∃ s, s₀.dispatchAll 2 past = some s ∧
      ∃ results last, Drains k s.engine [event] results last ∧
        results.length ≤ 2 ∧ (lookupsOf results).length ≤ 1 ∧
        (∀ bound, 2 ≤ bound → ({ s with knowledge := k } : Session).dispatchWithin bound event =
          some (⟨last, k⟩, speechOf results)) ∧
        (∀ d ∈ speechOf results, d = .listen ∨ ∃ text, d = .speak text) ∧
        last.lookups.live = none ∧ last.isIn "query.understood" = false ∧
        ∀ ticket subject, (ticket, subject) ∈ lookupsOf results → k.FindsNothing subject →
          last.leafPath = "query.no_results" ∧ last.context.answer = s.engine.context.answer ∧
            ∀ k' : KnowledgeBase, k'.FindsNothing subject →
              ({ s with knowledge := k' } : Session).dispatchWithin 2 event =
                some (⟨last, k'⟩, speechOf results) := by
  obtain ⟨s, hpast, hsettled⟩ := (settled_appointment hs).dispatchAll past
  obtain ⟨results, last, hdrains, hlength, hlookups, hlast, hfails⟩ := hsettled.drains k event
  refine ⟨s, hpast, results, last, hdrains, hlength, hlookups, fun bound hbound => ?_,
    fun d hd => eq_listen_or_speak_of_mem_speechOf hd, hlast.live_eq, hlast.not_isIn,
    fun ticket subject hmem hnothing => ?_⟩
  · exact dispatchWithin_of_drains hdrains (hlength.trans hbound)
  · obtain ⟨hleaf, hanswer, hsame⟩ := hfails ticket subject hmem hnothing
    refine ⟨?_, hanswer, fun k' hnothing' => ?_⟩
    · rw [hlast.attends.leafPath_eq, hleaf, searches.path_eq_regretting]
    · exact dispatchWithin_of_drains (hsame k' hnothing') hlength

def offline : KnowledgeBase := .unavailable "offline"

open Session in
theorem dispatch_run_offline :
    Session.appointment Grammar.appointment.resolver {} offline =
        .ok ⟨.start standard (.withCapacity 64), offline⟩ ∧
      ∃ s, Session.dispatchAll 2 ⟨.start standard (.withCapacity 64), offline⟩
          (asking.dropLast.map fun event => (offline, event)) = some s ∧
        ∃ last, last.leafPath = "query.no_results" ∧
          ∀ k : KnowledgeBase, k.FindsNothing "turing" →
            ({ s with knowledge := k } : Session).dispatchWithin 2
                (.recognised { utterance := "who is Turing", confidence := 0.9 }) =
              some (⟨last, k⟩, [.speak "There seem to be no results for that."]) := by
  have hs : Session.appointment Grammar.appointment.resolver {} offline =
      .ok ⟨.start standard (.withCapacity 64), offline⟩ := by
    rw [Session.appointment, chart_standard]
    rfl
  obtain ⟨s, hpast, results, last, hdrains, -, -, -, -, -, -, hfails⟩ := dispatch_run hs
    (asking.dropLast.map fun event => (offline, event)) offline
    (.recognised { utterance := "who is Turing", confidence := 0.9 })
  have hpast' : Session.dispatchAll 2 ⟨.start standard (.withCapacity 64), offline⟩
      (asking.dropLast.map fun event => (offline, event)) =
        some ⟨((Engine.start standard (.withCapacity 64)).run asking.dropLast).1, offline⟩ := rfl
  obtain rfl := Option.some.inj (hpast'.symm.trans hpast)
  obtain ⟨rfl, rfl⟩ := hdrains.unique (.next (.next (.done _)))
  have hnothing : offline.FindsNothing "turing" := by
    intro answer hok
    cases hok
  obtain ⟨hleaf, -, hsame⟩ := hfails ⟨⟨18⟩, 1⟩ "turing" (by decide) hnothing
  exact ⟨hs, _, hpast, _, hleaf, hsame⟩

end Appointment

end Dialogue
