import Dialogue.Proofs.Appointment.Silence
/-!
# Attention

Every list of arrows ends with one that asks for nothing, so an event that has a handler is never
ignored.  Turns have one wherever a branch is active, and there the last arrow is an apology: it is
taken if no cue is read, and keeps all that was collected.
-/

namespace Dialogue.Appointment

theorem validate_eq_ok_iff {config : Config} :
    config.validate = .ok () ↔ config.problems = [] := by
  unfold Config.validate
  split
  · next hnil => exact iff_of_true rfl hnil
  · next hne => exact iff_of_false (fun herror => by cases herror) hne

def flows : List String :=
  ["welcome.confirm_query", "welcome.confirm_meeting", "query.confirm_request",
    "meeting.whole_day", "meeting.whole_day_confirmation", "meeting.confirmation",
    "meeting.confirm_what", "meeting.confirm_when", "meeting.confirm_time"]

def apologies : List (String × String) :=
  [("welcome", "welcome.nomatch"), ("query", "query.no_matches"), ("meeting", "meeting.nomatch")]
    ++ flows.map fun flow => (flow, flow ++ ".nomatch")

/-- The path of the innermost apology that belongs to one of the active states. -/
def apology? (configuration : List String) : Option String :=
  configuration.reverse.findSome? fun path => apologies.lookup path

def Deaf (path : String) : Prop :=
  path = "idle" ∨ path = "init" ∨
    ∃ b : Branch, path = Support.helpName b.name ∨ path = Support.timeoutName b.name

instance : DecidablePred Deaf := fun _ =>
  inferInstanceAs (Decidable (_ ∨ _ ∨ _))

structure Attention : Prop where
  catches : ∀ id ∈ places, ∀ kind ∈ EventKind.all, ∀ h ∈ deciding? kind id,
    ∃ a ∈ h.2, a.condition = .always
  deaf : ∀ id ∈ places, ¬ shape.isCompound id → deciding? .recognised id = none →
    Deaf (shape.path id)
  handles : ∀ id ∈ places, ∀ b : Branch, b.place ∈ shape.lineage id →
    (deciding? .recognised id).isSome
  apologises : ∀ id ∈ places, ∀ h ∈ deciding? .recognised id,
    (∀ a ∈ h.2.dropLast, a.condition.cue?.isSome) ∧
      ∃ a ∈ h.2, h.2 = h.2.dropLast ++ [a] ∧ a.condition = .always ∧ a.effect = .nothing ∧
        apologies.lookup (shape.path h.1) = some (shape.path a.target) ∧
        apology? ((shape.lineage id).reverse.tail.map shape.path) = some (shape.path a.target) ∧
        ¬ shape.isHistory a.target ∧ shape.initialLeaf a.target = a.target

theorem attention : Attention := by
  constructor <;> decide +kernel

/-! ## Arrows -/

section Setting

variable {resolver : Resolver} {config : Config} {e : Engine}

theorem find?_eq_last {arrows : List Arrow} {last : Arrow} {ctx : Context} {event : Event}
    (hcued : ∀ a ∈ arrows, a.condition.cue?.isSome) (hlast : last.condition = .always)
    (hnone : ∀ a ∈ arrows ++ [last], ∀ cue ∈ a.condition.cue?,
      (cues resolver config).read? cue ctx = none) :
    (arrows ++ [last]).find? (fun a => a.condition.holds resolver config ctx event) =
      some last := by
  have hothers : arrows.find? (fun a => a.condition.holds resolver config ctx event) = none := by
    refine List.find?_eq_none.mpr fun a ha hholds => ?_
    obtain ⟨cue, hcue⟩ := Option.isSome_iff_exists.mp (hcued a ha)
    obtain ⟨value, hread⟩ := Condition.read?_of_holds hcue hholds
    rw [hnone a (List.mem_append_left _ ha) cue hcue] at hread
    cases hread
  rw [List.find?_append, hothers, Option.none_or, List.find?_singleton, hlast, Condition.holds,
    if_pos rfl]

namespace Attends

variable (h : Attends resolver config e)
include h

theorem reaction?_isSome (ctx : Context) {event : Event} {handler : StateId × List Arrow}
    (hdeciding : deciding? event.kind e.leaf = some handler) :
    (reaction? resolver config e.leaf ctx event).isSome := by
  obtain ⟨a, ha, halways⟩ :=
    attention.catches _ h.leaf_mem_places _ event.kind.mem_all _ hdeciding
  have hfound : (handler.2.find? fun a => a.condition.holds resolver config ctx event).isSome :=
    List.find?_isSome.mpr ⟨a, ha, by rw [halways]; rfl⟩
  rw [reaction?, hdeciding, Option.bind_some, Option.isSome_map, hfound]

theorem deciding?_of_ignored {event : Event} {e' : Engine} {reason : IgnoreReason}
    (hreceive : e.receive? event = some e') (hignored : (e.step event).2 = .ignored reason) :
    reason = .noHandler ∧ deciding? event.kind e.leaf = none := by
  obtain ⟨hnone, htaken⟩ := h.step_spec hreceive
  cases hdeciding : deciding? event.kind e.leaf with
  | none =>
    rw [hnone (reaction?_eq_none hdeciding), neglect, hdeciding] at hignored
    exact ⟨(StepResult.ignored.inj hignored).symm, rfl⟩
  | some handler =>
    obtain ⟨⟨source, a⟩, hreaction⟩ :=
      Option.isSome_iff_exists.mp (h.reaction?_isSome e'.context hdeciding)
    rw [(htaken source a hreaction).result_eq] at hignored
    cases hignored

/-- A turn in which no cue is read leads to the apology of the state that handles it. -/
theorem apologised {source : StateId} {arrows : List Arrow}
    (hdeciding : deciding? .recognised e.leaf = some (source, arrows)) {turn : Turn}
    (hnone : ∀ a ∈ arrows, ∀ cue ∈ a.condition.cue?,
      (cues resolver config).read? cue (e.context.observe turn) = none) :
    ∃ apology directives, apologies.lookup (e.chart.path source) = some apology ∧
      (e.step (.recognised turn)).2 = .transitioned e.leafPath apology
        (e.step (.recognised turn)).1.configuration directives ∧
      (e.step (.recognised turn)).1.leafPath = apology ∧
      (e.step (.recognised turn)).1.context = e.context.observe turn := by
  obtain ⟨hcued, last, -, hsplit, halways, heffect, hlookup, -, hhistory, hleaf⟩ :=
    attention.apologises _ h.leaf_mem_places _ hdeciding
  have hreaction : reaction? resolver config e.leaf (e.context.observe turn) (.recognised turn) =
      some (source, last) := by
    refine reaction?_eq_some_iff.mpr ⟨arrows, hdeciding, ?_⟩
    dsimp only at hsplit
    rw [hsplit] at hnone ⊢
    exact find?_eq_last hcued halways hnone
  have hreceive := Engine.receive?_recognised e turn
  have ht := (h.step_spec hreceive).2 _ _ hreaction
  have hpath : (e.step (.recognised turn)).1.leafPath = shape.path last.target := by
    rw [ht.attends.leafPath_eq, ht.leaf_initial (h.receive hreceive) hhistory, hleaf]
  obtain ⟨directives, hresult⟩ : ∃ directives, (e.step (.recognised turn)).2 = .transitioned
      e.leafPath (shape.path last.target) (e.step (.recognised turn)).1.configuration
      directives := by
    rw [← hpath]
    exact ⟨_, ht.result_eq⟩
  refine ⟨shape.path last.target, directives, ?_, hresult, hpath, ?_⟩
  · rw [h.path_eq, hlookup]
  · rw [ht.context_eq, heffect]
    rfl

end Attends

end Setting

/-- A valid configuration has a chart, in which no event ends in `noMatch` and turns are ignored
only where the leaf is `Deaf`.  In a branch, the innermost state that handles turns has an apology.
A turn that carries none of the cues of its arrows leads to that apology and changes neither slots
nor answer. -/
theorem attention_run (resolver : Resolver) {config : Config}
    (hvalid : config.validate = .ok ()) :
    ∃ c, Appointment.chart resolver config = .ok c ∧
      ∀ (journal : Journal Move) (past : List Event),
        let e := ((Engine.start c journal).run past).1
        (∀ event, (e.step event).2 ≠ .ignored .noMatch) ∧
        ∀ turn : Turn,
          let s := e.step (.recognised turn)
          (∀ reason, s.2 = .ignored reason → reason = .noHandler ∧ Deaf e.leafPath) ∧
          ∀ b : Branch, b.name ∈ e.configuration →
            ∃ (source : StateId) (arrows : List Arrow) (apology : String),
              e.handler? .recognised =
                some (source, arrows.map (Arrow.transition resolver config)) ∧
              apologies.lookup (e.chart.path source) = some apology ∧
              apology? e.configuration = some apology ∧
              ((∀ a ∈ arrows, ∀ cue ∈ a.condition.cue?,
                  (cues resolver config).read? cue (e.context.observe turn) = none) →
                (∃ directives,
                  s.2 = .transitioned e.leafPath apology s.1.configuration directives) ∧
                s.1.leafPath = apology ∧ s.1.context.slots = e.context.slots ∧
                s.1.context.answer = e.context.answer ∧ s.1.context.retryCount = none) := by
  have hc := chart_eq_assistant resolver config (validate_eq_ok_iff.mp hvalid)
  refine ⟨_, hc, fun journal past => ?_⟩
  intro e
  have h : Attends resolver config e := attends_run hc journal past
  refine ⟨fun event hignored => ?_, fun turn => ?_⟩
  · cases hreceive : e.receive? event with
    | none =>
      rw [Engine.step_of_receive?_eq_none hreceive] at hignored
      cases hignored
    | some e' =>
      obtain ⟨hreason, -⟩ := h.deciding?_of_ignored hreceive hignored
      cases hreason
  intro s
  refine ⟨fun reason hignored => ?_, fun b hname => ?_⟩
  · obtain ⟨hreason, hdeciding⟩ :=
      h.deciding?_of_ignored (Engine.receive?_recognised e turn) hignored
    rw [h.leafPath_eq]
    exact ⟨hreason, attention.deaf _ h.leaf_mem_places h.not_isCompound_leaf hdeciding⟩
  · obtain ⟨⟨source, arrows⟩, hdeciding⟩ := Option.isSome_iff_exists.mp
      (attention.handles _ h.leaf_mem_places b (h.place_mem_of_name hname))
    obtain ⟨-, last, -, -, -, -, hlookup, hinnermost, -⟩ :=
      attention.apologises _ h.leaf_mem_places _ hdeciding
    have hhandler := h.handler?_eq .recognised
    rw [hdeciding] at hhandler
    refine ⟨source, arrows, shape.path last.target, hhandler, ?_, ?_, fun hnone => ?_⟩
    · rw [h.path_eq, hlookup]
    · rw [h.configuration_eq, hinnermost]
    · obtain ⟨apology, directives, hlookup', hresult, hpath, hcontext⟩ :=
        h.apologised hdeciding hnone
      rw [h.path_eq, hlookup] at hlookup'
      obtain rfl := Option.some.inj hlookup'
      have hslots := congrArg Context.slots hcontext
      have hanswer := congrArg Context.answer hcontext
      have hcount := congrArg Context.retryCount hcontext
      exact ⟨⟨directives, hresult⟩, hpath, hslots, hanswer, hcount⟩

theorem attention_run_dinner :
    let e := ((Engine.start standard (.withCapacity 4)).run [.click, .click]).1
    let turn : Turn := { utterance := "Dinner?", confidence := 1 }
    ({} : Config).validate = .ok () ∧ "welcome" ∈ e.configuration ∧
      (∀ cue, (cues Grammar.appointment.resolver {}).read? cue (e.context.observe turn) = none) ∧
      ∃ configuration directives, (e.step (.recognised turn)).2 =
        .transitioned "welcome.prompt" "welcome.nomatch" configuration directives := by
  intro e turn
  have hvalid : ({} : Config).validate = .ok () :=
    validate_eq_ok_iff.mpr (problems_of_chart chart_standard)
  have hwelcome : "welcome" ∈ e.configuration := by decide
  have hnone (cue : Cue) :
      (cues Grammar.appointment.resolver {}).read? cue (e.context.observe turn) = none := by
    cases cue with
    | entity category =>
      have hget : Grammar.appointment.get? "Dinner?" = none := by decide
      change Grammar.appointment.entity? "Dinner?" category = none
      rw [Grammar.entity?, hget]
      rfl
    | subject => decide
  obtain ⟨c, hc, hlistens⟩ := attention_run Grammar.appointment.resolver hvalid
  obtain rfl := eq_assistant_of_chart _ _ hc
  obtain ⟨-, hturns⟩ := hlistens (.withCapacity 4) [.click, .click]
  obtain ⟨-, hbranch⟩ := hturns turn
  obtain ⟨source, arrows, apology, -, -, -, hunheard⟩ := hbranch .welcome hwelcome
  obtain ⟨⟨directives, hresult⟩, hpath, -⟩ := hunheard fun _ _ cue _ => hnone cue
  have hleaf : (e.step (.recognised turn)).1.leafPath = "welcome.nomatch" := by decide
  have hbefore : e.leafPath = "welcome.prompt" := by decide
  obtain rfl : "welcome.nomatch" = apology := hleaf.symm.trans hpath
  rw [← hbefore]
  exact ⟨hvalid, hwelcome, hnone, _, directives, hresult⟩

end Dialogue.Appointment
