import Dialogue.Proofs.Engine.Chronicle
/-!
# Tickets

A completion counts only if its ticket is the one issued last, the state that it was issued for has
been active ever since, and it has not been accepted before.  Lookups follow the chronicle: what
they hold is determined by the tickets issued and accepted and the states left in it.
-/

namespace Dialogue

namespace Mark

/-- The ticket was issued last, has not been accepted, and its state has been active ever since. -/
def Awaited (ticket : Ticket) (past : List Mark) : Prop :=
  ∃ before after, past = before ++ .issued ticket :: after ∧
    tickets after = [] ∧ ticket ∉ completed past ∧
    ∀ since, since <+: after →
      ∃ active, replay? [Chart.root] (before ++ .issued ticket :: since) = some active ∧
        ticket.state ∈ active

/-- The ticket was issued last, has not been accepted, and its state has not been left since. -/
def Outstanding (ticket : Ticket) (past : List Mark) : Prop :=
  ∃ before after, past = before ++ .issued ticket :: after ∧
    tickets after = [] ∧ ticket ∉ completed past ∧
    ∀ leaf, .left ticket.state leaf ∉ after

/-! ## Active ever since -/

theorem play?_cases {active active' : List StateId} {mark : Mark}
    (h : play? active mark = some active') :
    (∃ id leaf, mark = left id leaf ∧ active = id :: active') ∨
      (∃ id, mark = entered id ∧ id ∉ active ∧ active' = id :: active) ∨
      ((∀ id leaf, mark ≠ left id leaf) ∧ active' = active) := by
  cases mark with
  | left id leaf =>
    obtain ⟨hhead, htail⟩ := Option.ite_none_right_eq_some.mp h
    obtain ⟨rest, rfl⟩ := List.head?_eq_some_iff.mp hhead
    exact Or.inl ⟨id, leaf, rfl, congrArg (id :: ·) (Option.some.inj htail)⟩
  | entered id =>
    obtain ⟨hid, hcons⟩ := Option.ite_none_left_eq_some.mp h
    exact Or.inr (Or.inl ⟨id, rfl, hid, (Option.some.inj hcons).symm⟩)
  | issued ticket =>
    obtain ⟨-, hsame⟩ := Option.ite_none_right_eq_some.mp h
    exact Or.inr (Or.inr ⟨fun _ _ => Mark.noConfusion, (Option.some.inj hsame).symm⟩)
  | accepted ticket =>
    exact Or.inr (Or.inr ⟨fun _ _ => Mark.noConfusion, (Option.some.inj h).symm⟩)

theorem nodup_of_play? {active active' : List StateId} {mark : Mark} (h : active.Nodup)
    (hplay : play? active mark = some active') : active'.Nodup := by
  rcases play?_cases hplay with ⟨id, leaf, -, rfl⟩ | ⟨id, -, hid, rfl⟩ | ⟨-, rfl⟩
  · exact h.tail
  · exact List.nodup_cons.mpr ⟨hid, h⟩
  · exact h

theorem nodup_of_replay? {active active' : List StateId} {past : List Mark} (h : active.Nodup)
    (hreplay : replay? active past = some active') : active'.Nodup := by
  induction past generalizing active with
  | nil => exact Option.some.inj hreplay ▸ h
  | cons mark past ih =>
    obtain ⟨_, hplay, hrest⟩ := Option.bind_eq_some_iff.mp hreplay
    exact ih (nodup_of_play? h hplay) hrest

theorem mem_of_play?_iff {active active' : List StateId} {mark : Mark} {id : StateId}
    (h : active.Nodup) (hid : id ∈ active) (hplay : play? active mark = some active') :
    id ∈ active' ↔ ∀ leaf, mark ≠ left id leaf := by
  rcases play?_cases hplay with ⟨id', leaf, rfl, rfl⟩ | ⟨id', rfl, -, rfl⟩ | ⟨hleft, rfl⟩
  · rw [List.nodup_cons] at h
    rcases List.mem_cons.mp hid with rfl | hrest
    · exact iff_of_false h.1 fun hne => hne leaf rfl
    · refine iff_of_true hrest ?_
      rintro _ heq
      obtain ⟨rfl, -⟩ := left.inj heq
      exact h.1 hrest
  · exact iff_of_true (List.mem_cons_of_mem _ hid) fun _ => Mark.noConfusion
  · exact iff_of_true hid (hleft id)

theorem forall_prefix_mem_iff {active active' : List StateId} {past : List Mark} {id : StateId}
    (h : active.Nodup) (hid : id ∈ active) (hreplay : replay? active past = some active') :
    (∀ since, since <+: past → ∃ active', replay? active since = some active' ∧ id ∈ active') ↔
      ∀ leaf, left id leaf ∉ past := by
  induction past generalizing active with
  | nil =>
    refine iff_of_true ?_ (by simp)
    intro since hsince
    obtain rfl := List.prefix_nil.mp hsince
    exact ⟨active, rfl, hid⟩
  | cons mark past ih =>
    obtain ⟨next, hplay, hrest⟩ := Option.bind_eq_some_iff.mp hreplay
    have hnext := mem_of_play?_iff h hid hplay
    constructor
    · intro hall
      obtain ⟨active₁, hfirst, hid₁⟩ := hall [mark] ⟨past, rfl⟩
      have hid' : id ∈ next := by
        rw [replay?, hplay] at hfirst
        exact Option.some.inj hfirst ▸ hid₁
      have hpast := (ih (nodup_of_play? h hplay) hid' hrest).mp ?_
      · intro leaf hmem
        rcases List.mem_cons.mp hmem with heq | hmem
        · exact hnext.mp hid' leaf heq.symm
        · exact hpast leaf hmem
      · intro since hsince
        obtain ⟨active₂, hsome, hid₂⟩ :=
          hall (mark :: since) (List.cons_prefix_cons.mpr ⟨rfl, hsince⟩)
        rw [replay?, hplay] at hsome
        exact ⟨active₂, hsome, hid₂⟩
    · intro hleft since hsince
      have hid' : id ∈ next := hnext.mpr fun leaf heq => hleft leaf (heq ▸ List.mem_cons_self)
      rcases List.prefix_cons_iff.mp hsince with rfl | ⟨later, rfl, hlater⟩
      · exact ⟨active, rfl, hid⟩
      · have hall := (ih (nodup_of_play? h hplay) hid' hrest).mpr
          fun leaf hmem => hleft leaf (List.mem_cons_of_mem _ hmem)
        obtain ⟨active₂, hsome, hid₂⟩ := hall later hlater
        refine ⟨active₂, ?_, hid₂⟩
        rw [replay?, hplay]
        exact hsome

/-- In a past that can be played back, a ticket is awaited if its state has not been left since. -/
theorem awaited_iff_outstanding {active : List StateId} {past : List Mark} {ticket : Ticket}
    (hreplay : replay? [Chart.root] past = some active) :
    Awaited ticket past ↔ Outstanding ticket past := by
  refine exists_congr fun before => exists_congr fun after => and_congr_right fun hpast =>
    and_congr_right fun _ => and_congr_right fun _ => ?_
  rw [hpast, replay?_append] at hreplay
  obtain ⟨active₀, hbefore, hafter⟩ := Option.bind_eq_some_iff.mp hreplay
  obtain ⟨active₁, hissued, hafter⟩ := Option.bind_eq_some_iff.mp hafter
  have hnodup := nodup_of_replay? (by simp) hbefore
  obtain ⟨hhead, hsame⟩ := Option.ite_none_right_eq_some.mp hissued
  obtain rfl := Option.some.inj hsame
  rw [← forall_prefix_mem_iff hnodup (List.mem_of_mem_head? hhead) hafter]
  refine forall_congr' fun since => imp_congr_right fun _ => exists_congr fun active' => ?_
  rw [replay?_append, hbefore, Option.bind_some, replay?, hissued, Option.bind_some]

/-! ## Outstanding tickets -/

section Outstanding

variable {ticket : Ticket} {past marks : List Mark}

theorem outstanding_append (h : tickets marks = []) :
    Outstanding ticket (past ++ marks) ↔
      Outstanding ticket past ∧ ticket ∉ completed marks ∧
        ∀ leaf, left ticket.state leaf ∉ marks := by
  constructor
  · rintro ⟨before, after, hpast, hissued, haccepted, hleft⟩
    rw [completed_append, List.mem_append, not_or] at haccepted
    rcases List.append_eq_append_iff.mp hpast with ⟨_, -, rfl⟩ | ⟨rest, rfl, hrest⟩
    · rw [tickets_append, List.append_eq_nil_iff] at h
      cases h.2
    · cases rest with
      | nil =>
        rw [List.nil_append] at hrest
        rw [← hrest] at h
        cases h
      | cons mark rest =>
        rw [List.cons_append] at hrest
        obtain ⟨rfl, rfl⟩ := List.cons.inj hrest
        rw [tickets_append, List.append_eq_nil_iff] at hissued
        simp only [List.mem_append, not_or] at hleft
        exact ⟨⟨before, rest, rfl, hissued.1, haccepted.1, fun leaf => (hleft leaf).1⟩,
          haccepted.2, fun leaf => (hleft leaf).2⟩
  · rintro ⟨⟨before, after, rfl, hissued, haccepted, hleft⟩, haccepted', hleft'⟩
    refine ⟨before, after ++ marks, by simp, ?_, ?_, ?_⟩
    · rw [tickets_append, hissued, h, List.nil_append]
    · rw [completed_append, List.mem_append, not_or]
      exact ⟨haccepted, haccepted'⟩
    · exact fun leaf hmem => (List.mem_append.mp hmem).elim (hleft leaf) (hleft' leaf)

theorem outstanding_append_issued {fresh : Ticket} :
    Outstanding ticket (past ++ [issued fresh]) ↔ ticket = fresh ∧ ticket ∉ completed past := by
  have hcompleted : completed (past ++ [issued fresh]) = completed past := by
    rw [completed_append]
    exact List.append_nil _
  constructor
  · rintro ⟨before, after, hpast, hissued, haccepted, -⟩
    rw [hcompleted] at haccepted
    refine ⟨?_, haccepted⟩
    rcases List.eq_nil_or_concat after with rfl | ⟨after, mark, rfl⟩
    · exact (issued.inj (List.append_singleton_inj.mp hpast).2).symm
    · rw [List.concat_eq_append] at hpast hissued
      rw [← List.cons_append, ← List.append_assoc] at hpast
      obtain rfl := (List.append_singleton_inj.mp hpast).2
      rw [tickets_append, List.append_eq_nil_iff] at hissued
      cases hissued.2
  · rintro ⟨rfl, haccepted⟩
    exact ⟨past, [], rfl, rfl, hcompleted ▸ haccepted, by simp⟩

end Outstanding

end Mark

/-! ## Lookups -/

namespace Lookups

theorem generation_le_cancel (l : Lookups) (id : StateId) :
    l.generation ≤ (l.cancel id).generation := by
  unfold cancel
  split
  · exact Nat.le_succ _
  · exact Nat.le_refl _

theorem live_cancel_eq_some {l : Lookups} {id : StateId} {ticket : Ticket} :
    (l.cancel id).live = some ticket ↔ l.live = some ticket ∧ ticket.state ≠ id := by
  unfold cancel bound?
  cases hlive : l.live with
  | none => simp [hlive]
  | some live =>
    by_cases hid : live.state = id
    · have hfilter : ((some live).filter fun t => t.state = id) = some live := by simp [hid]
      rw [hfilter, Option.isSome_some, if_pos rfl]
      refine iff_of_false (by simp) ?_
      rintro ⟨heq, hne⟩
      exact hne (Option.some.inj heq ▸ hid)
    · have hfilter : ((some live).filter fun t => t.state = id) = none := by simp [hid]
      rw [hfilter, Option.isSome_none, if_neg (by simp), hlive]
      refine ⟨fun heq => ⟨heq, ?_⟩, And.left⟩
      exact Option.some.inj heq ▸ hid

theorem complete?_eq_some {l l' : Lookups} {ticket : Ticket} :
    l.complete? ticket = some l' ↔ l.live = some ticket ∧ l' = { l with live := none } := by
  rw [complete?, Option.ite_none_right_eq_some, Option.some.injEq, eq_comm (a := l')]

theorem live_cancelAll_eq_some {l : Lookups} {ids : List StateId} {ticket : Ticket} :
    (ids.foldl cancel l).live = some ticket ↔ l.live = some ticket ∧ ticket.state ∉ ids := by
  induction ids generalizing l with
  | nil => simp
  | cons id ids ih =>
    rw [List.foldl_cons, ih, live_cancel_eq_some, and_assoc, List.mem_cons, not_or]

theorem generation_le_cancelAll (l : Lookups) (ids : List StateId) :
    l.generation ≤ (ids.foldl cancel l).generation := by
  induction ids generalizing l with
  | nil => exact Nat.le_refl _
  | cons id ids ih => exact (l.generation_le_cancel id).trans (ih (l.cancel id))

/-- The numbers of the tickets issued increase, none is accepted that was not issued or twice, and
the lookup awaited is the one whose ticket is outstanding. -/
structure Follows (l : Lookups) (past : List Mark) : Prop where
  le_generation : ∀ ticket ∈ Mark.tickets past, ticket.generation ≤ l.generation
  increasing : (Mark.tickets past).Pairwise fun t t' => t.generation < t'.generation
  completed_subset : Mark.completed past ⊆ Mark.tickets past
  nodup_completed : (Mark.completed past).Nodup
  live_iff : ∀ ticket, l.live = some ticket ↔ Mark.Outstanding ticket past

namespace Follows

variable {l : Lookups} {past : List Mark} (h : l.Follows past)
include h

theorem append {l' : Lookups} {marks : List Mark} (htickets : Mark.tickets marks = [])
    (hcompleted : Mark.completed marks = []) (hle : l.generation ≤ l'.generation)
    (hlive : ∀ ticket, l'.live = some ticket ↔
      l.live = some ticket ∧ ∀ leaf, .left ticket.state leaf ∉ marks) :
    l'.Follows (past ++ marks) := by
  have htickets' : Mark.tickets (past ++ marks) = Mark.tickets past := by
    rw [Mark.tickets_append, htickets, List.append_nil]
  have hcompleted' : Mark.completed (past ++ marks) = Mark.completed past := by
    rw [Mark.completed_append, hcompleted, List.append_nil]
  constructor
  · rw [htickets']
    exact fun ticket hmem => (h.le_generation ticket hmem).trans hle
  · rw [htickets']
    exact h.increasing
  · rw [htickets', hcompleted']
    exact h.completed_subset
  · rw [hcompleted']
    exact h.nodup_completed
  · intro ticket
    rw [hlive, h.live_iff, Mark.outstanding_append htickets, hcompleted]
    simp

theorem enter (id : StateId) : l.Follows (past ++ [.entered id]) :=
  h.append rfl rfl (Nat.le_refl _) (by simp)

theorem start (id : StateId) :
    (l.start id).Follows (past ++ [.issued (l.nextTicket id)]) := by
  have htickets : Mark.tickets (past ++ [.issued (l.nextTicket id)]) =
      Mark.tickets past ++ [l.nextTicket id] := Mark.tickets_append _ _
  have hcompleted : Mark.completed (past ++ [.issued (l.nextTicket id)]) =
      Mark.completed past := by
    rw [Mark.completed_append]
    exact List.append_nil _
  have hlt : ∀ ticket ∈ Mark.tickets past, ticket.generation < (l.nextTicket id).generation :=
    fun ticket hmem => Nat.lt_succ_of_le (h.le_generation ticket hmem)
  constructor
  · rw [htickets]
    intro ticket hmem
    rcases List.mem_append.mp hmem with hmem | hmem
    · exact Nat.le_of_lt (hlt ticket hmem)
    · obtain rfl := List.mem_singleton.mp hmem
      exact Nat.le_refl _
  · rw [htickets, List.pairwise_append]
    refine ⟨h.increasing, List.pairwise_singleton _ _, fun ticket hmem fresh hfresh => ?_⟩
    obtain rfl := List.mem_singleton.mp hfresh
    exact hlt ticket hmem
  · rw [htickets, hcompleted]
    exact fun ticket hmem => List.mem_append_left _ (h.completed_subset hmem)
  · rw [hcompleted]
    exact h.nodup_completed
  · intro ticket
    rw [Mark.outstanding_append_issued]
    constructor
    · intro heq
      obtain rfl := Option.some.inj heq
      refine ⟨rfl, fun hmem => ?_⟩
      exact Nat.lt_irrefl _ (hlt _ (h.completed_subset hmem))
    · rintro ⟨rfl, -⟩
      rfl

theorem cancelAll (ids : List StateId) (leaf : StateId) :
    (ids.foldl cancel l).Follows (past ++ ids.map fun id => .left id leaf) := by
  refine h.append (Mark.tickets_map_left leaf ids) (Mark.completed_map_left leaf ids)
    (l.generation_le_cancelAll ids) fun ticket => ?_
  rw [live_cancelAll_eq_some]
  simp

theorem complete {l' : Lookups} {ticket : Ticket} (hcomplete : l.complete? ticket = some l') :
    l'.Follows (past ++ [.accepted ticket]) := by
  obtain ⟨hlive, rfl⟩ := complete?_eq_some.mp hcomplete
  obtain ⟨before, after, hpast, -, hfresh, -⟩ := (h.live_iff ticket).mp hlive
  have htickets : Mark.tickets (past ++ [.accepted ticket]) = Mark.tickets past := by
    rw [Mark.tickets_append]
    exact List.append_nil _
  have hcompleted : Mark.completed (past ++ [.accepted ticket]) =
      Mark.completed past ++ [ticket] := Mark.completed_append _ _
  have hissued : ticket ∈ Mark.tickets past := by
    rw [Mark.mem_tickets, hpast]
    exact List.mem_append_right _ List.mem_cons_self
  constructor
  · rw [htickets]
    exact h.le_generation
  · rw [htickets]
    exact h.increasing
  · rw [htickets, hcompleted]
    exact List.append_subset.mpr ⟨h.completed_subset, by simpa using hissued⟩
  · rw [hcompleted, List.nodup_append]
    refine ⟨h.nodup_completed, by simp, fun ticket' hmem fresh hmem' => ?_⟩
    obtain rfl := List.mem_singleton.mp hmem'
    exact fun heq => hfresh (heq ▸ hmem)
  · intro ticket'
    rw [Mark.outstanding_append rfl, ← h.live_iff, hlive]
    refine iff_of_false (by simp) ?_
    rintro ⟨heq, hne, -⟩
    exact hne (Option.some.inj heq ▸ List.mem_singleton_self _)

end Follows

end Lookups

namespace Engine

theorem tracks_lookups : Tracks fun e past => e.lookups.Follows past where
  frame h _ _ _ hlookups := hlookups ▸ h
  accept hcomplete h := h.complete hcomplete
  leave {e past domain} _ hdomain h := by
    rw [exitBelow_eq hdomain]
    exact h.cancelAll _ e.leaf
  enter {e past id} event _ h := by
    rw [lookups_enter, enterMarks, ← List.singleton_append, ← List.append_assoc]
    split
    · exact (h.enter id).start id
    · rw [List.append_nil]
      exact h.enter id

theorem follows_empty : ({} : Lookups).Follows [] where
  le_generation _ hmem := nomatch hmem
  increasing := List.Pairwise.nil
  completed_subset := List.nil_subset _
  nodup_completed := List.nodup_nil
  live_iff ticket := by
    refine iff_of_false (by simp) ?_
    rintro ⟨before, after, hpast, -⟩
    simp at hpast

/-- A completion is accepted just if its ticket is `Awaited` in the chronicle, which agrees with the
active states, the lookups asked for and the completions accepted.  Generations increase, no ticket
is accepted twice, and the state of a live ticket is active. -/
theorem lookupDone_ne_stale_iff_awaited {d : ChartDef} {c : Chart} (hd : d.build = .ok c)
    (journal : Journal Move) (events : List Event) :
    (Mark.replay? [Chart.root] (chronicle c journal events) =
          some ((start c journal).run events).1.active ∧
        Mark.tickets (chronicle c journal events) =
          asked (((start c journal).run events).2.flatMap StepResult.directives ++
            ((start c journal).run events).1.pending) ∧
        Mark.completed (chronicle c journal events) =
          accepted events ((start c journal).run events).2) ∧
      (∀ ticket answer,
        (((start c journal).run events).1.step (.lookupDone ticket answer)).2 ≠
            .ignored .staleCompletion ↔
          Mark.Awaited ticket (chronicle c journal events)) ∧
      (Mark.tickets (chronicle c journal events)).Pairwise
        (fun earlier later => earlier.generation < later.generation) ∧
      (Mark.completed (chronicle c journal events)).Nodup ∧
      ∀ ticket, ((start c journal).run events).1.lookups.live = some ticket →
        ticket.state ∈ ((start c journal).run events).1.active := by
  have hreplay := replay?_chronicle hd journal events
  have hfollows : ((start c journal).run events).1.lookups.Follows (chronicle c journal events) :=
    tracks_lookups.chronicle (ChartDef.wellFormed_of_build hd) follows_empty events
  have hlive : ∀ ticket, ((start c journal).run events).1.lookups.live = some ticket ↔
      Mark.Awaited ticket (chronicle c journal events) := fun ticket =>
    (hfollows.live_iff ticket).trans (Mark.awaited_iff_outstanding hreplay).symm
  refine ⟨⟨hreplay, (asked_chronicle c journal events).symm,
    (accepted_chronicle c journal events).symm⟩, ?_, hfollows.increasing,
    hfollows.nodup_completed, ?_⟩
  · intro ticket answer
    rw [Ne, step_eq_stale_iff, receive?_lookupDone_eq_none, not_not, hlive]
  · intro ticket hticket
    obtain ⟨before, after, hpast, -, -, hactive⟩ := (hlive ticket).mp hticket
    obtain ⟨active, hafter, hmem⟩ := hactive after (List.prefix_refl after)
    rw [← hpast, hreplay] at hafter
    exact Option.some.inj hafter ▸ hmem

theorem awaited_form :
    formDefinition.build = .ok formDefinition.chart ∧
      Mark.tickets (chronicle formDefinition.chart (.withCapacity 4)
        [.click, .endSpeech, .timeout, .endSpeech]) = [⟨⟨5⟩, 1⟩, ⟨⟨5⟩, 3⟩] ∧
      Mark.Awaited ⟨⟨5⟩, 3⟩ (chronicle formDefinition.chart (.withCapacity 4)
        [.click, .endSpeech, .timeout, .endSpeech]) ∧
      ¬ Mark.Awaited ⟨⟨5⟩, 1⟩ (chronicle formDefinition.chart (.withCapacity 4)
        [.click, .endSpeech, .timeout, .endSpeech]) := by
  have hbuild := ChartDef.build_eq_ok (d := formDefinition) rfl
  have hawaited := (lookupDone_ne_stale_iff_awaited hbuild (.withCapacity 4)
    [.click, .endSpeech, .timeout, .endSpeech]).2.1
  refine ⟨hbuild, by decide, (hawaited ⟨⟨5⟩, 3⟩ .blank).mp ?_,
    fun hold => (hawaited ⟨⟨5⟩, 1⟩ .blank).mpr hold ?_⟩
  · rw [Ne, step_eq_stale_iff, receive?_lookupDone_eq_none]
    decide
  · rw [step_eq_stale_iff, receive?_lookupDone_eq_none]
    decide

end Engine

end Dialogue
