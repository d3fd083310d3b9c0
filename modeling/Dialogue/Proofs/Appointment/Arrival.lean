import Dialogue.Proofs.Appointment.Detour
import Dialogue.Proofs.Appointment.Renewal
/-!
# Arrivals

What an arrow brings at its end.  Of the states entered only the innermost one says something or
begins a lookup.  And what holds of each state whenever an arrow leads there still holds after a
detour: the state beside a branch keeps it for the leaf that the branch is resumed at.
-/

namespace Dialogue

/-- Two contexts with the same answer and, but for the call for help, the same slots. -/
structure Context.Matches (ctx ctx' : Context) : Prop where
  slot_eq : ∀ slot, slot ≠ .help → ctx'.slot slot = ctx.slot slot
  answer_eq : ctx'.answer = ctx.answer

theorem Context.matches_receive? {e e' : Engine} {event : Event}
    (h : e.receive? event = some e') : e.context.Matches e'.context := by
  obtain ⟨hslots, hanswer⟩ := Engine.slots_receive? h
  exact ⟨fun slot _ => congrArg (Slots.get · slot) hslots, hanswer⟩

namespace Appointment

def Arrow.Detours (a : Arrow) : Prop :=
  shape.isHistory a.target ∨ ∃ b : Branch, shape.initialLeaf a.target ∈ [b.help, b.timeout]

instance (a : Arrow) : Decidable a.Detours :=
  inferInstanceAs (Decidable (_ ∨ _))

structure Approaches : Prop where
  isCompound_domain : ∀ id ∈ places, ∀ kind ∈ EventKind.all, ∀ h ∈ deciding? kind id, ∀ a ∈ h.2,
    shape.isCompound (shape.transitionDomain h.1 (Engine.effectiveTarget shape a.target))
  quiet_around : ∀ id ∈ places, ∀ outer ∈ (shape.lineage id).tail,
    linesAt outer = [] ∧ ¬ looksUpAt outer
  effect_of_detours : ∀ id ∈ places, ∀ kind ∈ EventKind.all, ∀ h ∈ deciding? kind id, ∀ a ∈ h.2,
    a.Detours → a.effect ∈ [.nothing, .retry, .fill .help (.entity "help")]
  target_of_restart : ∀ id ∈ places, ∀ kind ∈ EventKind.all, ∀ h ∈ deciding? kind id, ∀ a ∈ h.2,
    a.effect = .restart → a.target = idle

theorem approaches : Approaches := by
  constructor <;> decide +kernel

section Setting

variable {resolver : Resolver} {config : Config}

theorem announcedAll_concat {ctx : Context} {outer : List StateId} {id : StateId}
    (hquiet : ∀ x ∈ outer, linesAt x = [] ∧ ¬ looksUpAt x) (l : Lookups) :
    announcedAll config ctx l (outer ++ [id]) = announced config ctx l id ∧
      (outer ++ [id]).foldl begun l = begun l id := by
  induction outer with
  | nil => exact ⟨List.append_nil _, rfl⟩
  | cons x outer ih =>
    rw [List.forall_mem_cons] at hquiet
    obtain ⟨⟨hlines, hlooksUp⟩, hquiet⟩ := hquiet
    have hbegun : begun l x = l := if_neg hlooksUp
    have hannounced : announced config ctx l x = [] := by
      rw [announced, hlines, if_neg hlooksUp]
      rfl
    rw [List.cons_append, announcedAll, List.foldl_cons, hbegun, hannounced, List.nil_append]
    exact ih hquiet

def cancelled (e : Engine) (source target : StateId) : Lookups :=
  (departed e.leaf source target).foldl Lookups.cancel e.lookups

namespace Taken

variable {e : Engine} {event : Event} {source : StateId} {a : Arrow} {s : Engine × StepResult}
  (ht : Taken resolver config e event source a s) (h : Attends resolver config e)
  (hdeciding : ∃ arrows, deciding? event.kind e.leaf = some (source, arrows) ∧ a ∈ arrows)
include ht h hdeciding

theorem entered_eq_concat : ∃ outer, e.entered source a.target = outer ++ [s.1.leaf] ∧
    ∀ x ∈ outer, x ∈ (shape.lineage s.1.leaf).tail := by
  obtain ⟨arrows, hdeciding, ha⟩ := hdeciding
  have hsource := (landmarks.source_of_deciding? _ h.leaf_mem_places _ event.kind.mem_all _
    hdeciding).1
  have hcompound := approaches.isCompound_domain _ h.leaf_mem_places _ event.kind.mem_all _
    hdeciding _ ha
  have hactive := ht.active_eq
  rw [ht.attends.active_eq] at hactive
  rcases List.eq_nil_or_concat (e.entered source a.target) with hnil | ⟨outer, leaf, hconcat⟩
  · -- if no state were entered, the new leaf would be the domain, which has states inside
    rw [hnil, List.reverse_nil, List.nil_append, h.sound.kept_eq (h.active_eq ▸ hsource),
      h.domain_eq, h.alike.lineage_eq] at hactive
    have hleaf := congrArg List.head? hactive
    rw [Chart.head?_lineage, Chart.head?_lineage] at hleaf
    rw [← Option.some.inj hleaf] at hcompound
    exact absurd hcompound ht.attends.not_isCompound_leaf
  · rw [List.concat_eq_append] at hconcat
    rw [hconcat, List.reverse_concat, List.cons_append] at hactive
    have hleaf := congrArg List.head? hactive
    rw [Chart.head?_lineage, List.head?_cons] at hleaf
    refine ⟨outer, by rw [hconcat, Option.some.inj hleaf], fun x hx => ?_⟩
    rw [hactive, List.tail_cons]
    exact List.mem_append_left _ (List.mem_reverse.mpr hx)

theorem result_arrival : s.2 = .transitioned e.leafPath s.1.leafPath s.1.configuration
    (a.effect.said config e.context ++
      announced config s.1.context (cancelled e source a.target) s.1.leaf) := by
  obtain ⟨outer, hentered, houter⟩ := ht.entered_eq_concat h hdeciding
  have hquiet := fun x hx =>
    approaches.quiet_around _ ht.attends.leaf_mem_places x (houter x hx)
  rw [ht.result_eq, hentered, (announcedAll_concat hquiet _).1]
  rfl

theorem lookups_arrival : s.1.lookups = begun (cancelled e source a.target) s.1.leaf := by
  obtain ⟨outer, hentered, houter⟩ := ht.entered_eq_concat h hdeciding
  have hquiet := fun x hx =>
    approaches.quiet_around _ ht.attends.leaf_mem_places x (houter x hx)
  rw [ht.lookups_eq, hentered, (@announcedAll_concat config s.1.context _ _ hquiet _).2]
  rfl

theorem result_away (hleaf : s.1.leaf ≠ idle) :
    s.2 = .transitioned e.leafPath s.1.leafPath s.1.configuration
      (announced config s.1.context (cancelled e source a.target) s.1.leaf) := by
  have hsaid : a.effect.said config e.context = [] := by
    obtain ⟨arrows, hdeciding, ha⟩ := hdeciding
    have hne : a.effect ≠ .restart := by
      intro hrestart
      have htarget := approaches.target_of_restart _ h.leaf_mem_places _ event.kind.mem_all _
        hdeciding _ ha hrestart
      have htop := ht.leaf_top h (b := .welcome) (htarget ▸ List.mem_cons_self)
      exact hleaf (htop.trans htarget)
    unfold Effect.said
    split
    · next heffect => exact absurd heffect hne
    · rfl
  rw [ht.result_arrival h hdeciding, hsaid, List.nil_append]

/-- What a dialogue has collected is the same after a detour, but for the call for help. -/
theorem matches_of_detours (hdetours : a.Detours) : e.context.Matches s.1.context := by
  obtain ⟨arrows, hdeciding, ha⟩ := hdeciding
  have heffect := approaches.effect_of_detours _ h.leaf_mem_places _ event.kind.mem_all _
    hdeciding _ ha hdetours
  rw [ht.context_eq]
  simp only [List.mem_cons, List.not_mem_nil, or_false] at heffect
  rcases heffect with heffect | heffect | heffect <;> rw [heffect]
  · exact ⟨fun _ _ => rfl, rfl⟩
  · exact ⟨fun _ _ => rfl, rfl⟩
  · refine ⟨fun slot hslot => ?_, rfl⟩
    rw [Effect.apply, Context.slot, Context.setSlot, Slots.get_set, if_neg hslot, Context.slot]

end Taken

theorem Attends.taken_of_accepted {e : Engine} (h : Attends resolver config e) {event : Event}
    (hne : ∀ reason, (e.step event).2 ≠ .ignored reason) :
    ∃ e' source a, e.receive? event = some e' ∧ Attends resolver config e' ∧
      reaction? resolver config e.leaf e'.context event = some (source, a) ∧
      (∃ arrows, deciding? event.kind e'.leaf = some (source, arrows) ∧ a ∈ arrows) ∧
      Taken resolver config e' event source a (e.step event) := by
  rcases h.step_cases event with
    hstep | ⟨e', hreceive, ⟨-, hstep⟩ | ⟨source, a, hreaction, ht⟩⟩
  · exact absurd (congrArg Prod.snd hstep) (hne _)
  · exact absurd (congrArg Prod.snd hstep) (hne _)
  · have hdeciding := deciding?_of_reaction? hreaction
    rw [← Engine.leaf_receive? hreceive] at hdeciding
    exact ⟨e', source, a, hreceive, h.receive hreceive, hreaction, hdeciding, ht⟩

theorem Attends.taken_of_transitioned {e : Engine} (h : Attends resolver config e) {event : Event}
    {before target : String} {configuration : List String} {directives : List Directive}
    (hresult : (e.step event).2 = .transitioned before target configuration directives) :
    ∃ e' source a, e.receive? event = some e' ∧ Attends resolver config e' ∧
      reaction? resolver config e.leaf e'.context event = some (source, a) ∧
      (∃ arrows, deciding? event.kind e'.leaf = some (source, arrows) ∧ a ∈ arrows) ∧
      Taken resolver config e' event source a (e.step event) ∧
      shape.path (e.step event).1.leaf = target := by
  have haccepted : ∀ reason, (e.step event).2 ≠ .ignored reason := by
    rw [hresult]
    exact fun _ => StepResult.noConfusion
  obtain ⟨e', source, a, hreceive, h', hreaction, hdeciding, ht⟩ := h.taken_of_accepted haccepted
  refine ⟨e', source, a, hreceive, h', hreaction, hdeciding, ht, ?_⟩
  rw [← ht.attends.leafPath_eq]
  exact (StepResult.transitioned.inj (ht.result_eq.symm.trans hresult)).2.1

/-! ## What is recalled -/

def Lasting (P : StateId → Context → Prop) : Prop :=
  ∀ leaf ctx ctx', ctx.Matches ctx' → P leaf ctx → P leaf ctx'

/-- Something holds of the leaf and, beside a branch, of the leaf that the branch is resumed at. -/
structure Recalls (P : StateId → Context → Prop) (e : Engine) : Prop where
  here : P e.leaf e.context
  back : ∀ b : Branch, e.leaf ∈ [b.help, b.timeout] →
    ∃ leaf, e.history.resume? b.place = some leaf ∧ P leaf e.context

variable {P : StateId → Context → Prop} {e : Engine} {event : Event}

theorem Recalls.mono {P' : StateId → Context → Prop} (h : Recalls P e)
    (hmono : ∀ leaf ctx, P leaf ctx → P' leaf ctx) : Recalls P' e :=
  ⟨hmono _ _ h.here, fun b hb => (h.back b hb).imp fun leaf hleaf => hleaf.imp_right (hmono leaf _)⟩

variable (hP : Lasting P)
include hP

theorem Recalls.receive {e' : Engine} (h : Recalls P e) (hreceive : e.receive? event = some e') :
    Recalls P e' := by
  have hmatches := Context.matches_receive? hreceive
  obtain ⟨context, lookups, rfl, -⟩ := Engine.receive?_eq_some hreceive
  refine ⟨hP _ _ _ hmatches h.here, fun b hb => ?_⟩
  obtain ⟨leaf, hleaf, hback⟩ := h.back b hb
  exact ⟨leaf, hleaf, hP _ _ _ hmatches hback⟩

/-- It is enough to look at the arrows that history has no part in. -/
theorem Taken.recalls {source : StateId} {a : Arrow} {s : Engine × StepResult}
    (ht : Taken resolver config e event source a s) (h : Attends resolver config e)
    (hdeciding : ∃ arrows, deciding? event.kind e.leaf = some (source, arrows) ∧ a ∈ arrows)
    (hrecalls : Recalls P e)
    (harrive : ¬ shape.isHistory a.target → P (shape.initialLeaf a.target) s.1.context) :
    Recalls P s.1 := by
  have hkeep : a.Detours → ∀ {leaf}, P leaf e.context → P leaf s.1.context :=
    fun hdetours _ => hP _ _ _ (ht.matches_of_detours h hdeciding hdetours)
  by_cases hhistory : shape.isHistory a.target
  · -- back into the branch, where the state beside it recalled
    rcases ht.leaf_cases h hdeciding with ⟨b, hleaf, hplace, hresume⟩ | ⟨hnot, -⟩
    · obtain ⟨leaf, hrecorded, hback⟩ := hrecalls.back b hleaf
      refine ⟨?_, fun b' hb' => absurd hplace (landmarks.place_notMem_lineage b' _ hb' b)⟩
      rw [hresume leaf hrecorded]
      exact hkeep (Or.inl hhistory) hback
    · exact absurd hhistory hnot
  · have hleaf := ht.leaf_initial h hhistory
    refine ⟨hleaf ▸ harrive hhistory, fun b hb => ?_⟩
    rw [hleaf] at hb
    obtain ⟨arrows, hdeciding, ha⟩ := hdeciding
    obtain ⟨htarget, hnear⟩ := readings.near_of_beside _ h.leaf_mem_places _ event.kind.mem_all _
      hdeciding _ ha hhistory b hb
    rw [ht.resume?_top h (List.mem_cons_of_mem _ htarget)
      (landmarks.source_of_deciding? _ h.leaf_mem_places _ event.kind.mem_all _ hdeciding)]
    split
    · -- the branch is left at a leaf of which it holds
      exact ⟨_, rfl, hkeep (Or.inr ⟨b, hb⟩) hrecalls.here⟩
    · -- from one state beside the branch to the other, what is recalled stays
      next hout =>
      have hbeside : e.leaf ∈ [b.help, b.timeout] := by simpa using hnear.resolve_left hout
      obtain ⟨leaf, hrecorded, hback⟩ := hrecalls.back b hbeside
      exact ⟨leaf, hrecorded, hkeep (Or.inr ⟨b, hb⟩) hback⟩

theorem Attends.recalls_step (h : Attends resolver config e) (hrecalls : Recalls P e)
    (harrive : ∀ e' source a, e.receive? event = some e' →
      reaction? resolver config e.leaf e'.context event = some (source, a) →
      P e.leaf e'.context → ¬ shape.isHistory a.target →
      P (shape.initialLeaf a.target) (a.effect.apply resolver config e'.context event)) :
    Recalls P (e.step event).1 := by
  rcases h.step_cases event with
    hstep | ⟨e', hreceive, ⟨-, hstep⟩ | ⟨source, a, hreaction, ht⟩⟩
  · rw [hstep]
    exact hrecalls
  · rw [hstep]
    exact hrecalls.receive hP hreceive
  · have hrecalls' := hrecalls.receive hP hreceive
    have hleaf := Engine.leaf_receive? hreceive
    refine ht.recalls hP (h.receive hreceive) (hleaf ▸ deciding?_of_reaction? hreaction)
      hrecalls' fun hhistory => ?_
    rw [ht.context_eq]
    exact harrive e' source a hreceive hreaction (hleaf ▸ hrecalls'.here) hhistory

def Follows (resolver : Resolver) (config : Config) (P : StateId → Context → Prop) : Prop :=
  ∀ e event source ctx a, Attends resolver config e →
    reaction? resolver config e.leaf ctx event = some (source, a) → ¬ shape.isHistory a.target →
    P e.leaf ctx → P (shape.initialLeaf a.target) (a.effect.apply resolver config ctx event)

theorem Follows.recalls_step (hfollows : Follows resolver config P)
    (h : Attends resolver config e) (hrecalls : Recalls P e) (event : Event) :
    Recalls P (e.step event).1 :=
  h.recalls_step hP hrecalls fun _ _ _ _ hreaction hhere hhistory =>
    hfollows e event _ _ _ h hreaction hhistory hhere

theorem Follows.recalls_run (hfollows : Follows resolver config P)
    (h : Attends resolver config e) (hrecalls : Recalls P e) (events : List Event) :
    Recalls P (e.run events).1 :=
  (Engine.run_invariant (P := fun e => Attends resolver config e ∧ Recalls P e)
    (fun _ event h => ⟨h.1.step event, hfollows.recalls_step hP h.1 h.2 event⟩)
    ⟨h, hrecalls⟩ events).2

end Setting

theorem recalls_start {P : StateId → Context → Prop} (h : P idle {}) (resolver : Resolver)
    (config : Config) (journal : Journal Move) :
    Recalls P (.start (assistant resolver config) journal) := by
  rw [start_assistant]
  refine ⟨h, fun b hb => ?_⟩
  have hidle : idle ∈ [b.help, b.timeout] := hb
  cases b <;> exact absurd hidle (by decide)

theorem Follows.recalls_start_run {P : StateId → Context → Prop} {resolver : Resolver}
    {config : Config} (hfollows : Follows resolver config P) (hP : Lasting P) (hidle : P idle {})
    {c : Chart} (hc : Appointment.chart resolver config = .ok c) (journal : Journal Move)
    (events : List Event) : Recalls P ((Engine.start c journal).run events).1 := by
  obtain rfl := eq_assistant_of_chart resolver config hc
  exact hfollows.recalls_run hP (attends_start resolver config journal)
    (recalls_start hidle resolver config journal) events

end Appointment

end Dialogue
