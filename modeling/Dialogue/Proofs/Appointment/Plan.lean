import Dialogue.Appointment.Chart
import Dialogue.Proofs.Chart.Walks
import Dialogue.Resolver.Grammar
import Mathlib
/-!
# The plan of the assistant

The chart of the assistant written out: each state at its place, each transition with the place it
leads to.  Transitions and entries are described by a few words in place of functions, so whatever
depends on the states alone can be computed.
-/

namespace Dialogue.Appointment

def idle : StateId := ⟨1⟩

def ready : StateId := ⟨2⟩

inductive Branch where
  | welcome
  | query
  | meeting
  deriving DecidableEq, Repr

namespace Branch

instance : Fintype Branch where
  elems := {.welcome, .query, .meeting}
  complete b := by cases b <;> decide

def name : Branch → String
  | welcome => "welcome"
  | query => "query"
  | meeting => "meeting"

def place : Branch → StateId
  | welcome => ⟨3⟩
  | query => ⟨16⟩
  | meeting => ⟨29⟩

def history : Branch → StateId
  | welcome => ⟨7⟩
  | query => ⟨24⟩
  | meeting => ⟨36⟩

def help : Branch → StateId
  | welcome => ⟨62⟩
  | query => ⟨64⟩
  | meeting => ⟨66⟩

def timeout : Branch → StateId
  | welcome => ⟨63⟩
  | query => ⟨65⟩
  | meeting => ⟨67⟩

end Branch

/-! ## What is said on entry -/

inductive Line where
  | speak (text : Prompts → Template)
  | listen

def Line.action (config : Config) : Line → Action
  | speak text => .speak (text config.prompts)
  | listen => .listen

/-! ## Transitions -/

inductive Condition where
  | always
  | present (cue : Cue)
  | certain (cue : Cue)
  | tentative (cue : Cue)
  | escalating
  | answered
  deriving DecidableEq, Repr

inductive Effect where
  | nothing
  | fill (slot : Slot) (cue : Cue)
  | decline (candidate : Option Slot)
  | restart
  | retry
  | keepAnswer
  deriving DecidableEq, Repr

structure Arrow where
  condition : Condition := .always
  effect : Effect := .nothing
  target : StateId
  deriving DecidableEq, Repr

section Setting

variable (resolver : Resolver) (config : Config)

def cues : Cues where
  resolver := resolver
  threshold := config.confidenceThreshold

def Condition.guard : Condition → Option Guard
  | always => none
  | present cue => some ((cues resolver config).present cue)
  | certain cue => some (((cues resolver config).present cue).and (cues resolver config).confident)
  | tentative cue =>
    some (((cues resolver config).present cue).and (cues resolver config).confident.negate)
  | escalating => some (.onContext config.retryPolicy.escalates)
  | answered => some .answerFound

def Effect.actions : Effect → List Action
  | nothing => []
  | fill slot cue => [(cues resolver config).fill slot cue]
  | decline candidate =>
    (cues resolver config).fill .decline (.entity "decline") :: candidate.toList.map .clear
  | restart => [RetryPolicy.resetAction, .speak config.prompts.reset]
  | retry => [RetryPolicy.recordAction]
  | keepAnswer => [.storeAnswer]

def Arrow.transition (a : Arrow) : Transition where
  guard := a.condition.guard resolver config
  target := a.target
  actions := a.effect.actions resolver config

end Setting

namespace Arrow

def helpOf (b : Branch) : Arrow where
  condition := .present (.entity "help")
  effect := .fill .help (.entity "help")
  target := b.help

def gates (cue : Cue) (slot : Slot) (certain tentative : StateId) : List Arrow :=
  [{ condition := .certain cue, effect := .fill slot cue, target := certain },
   { condition := .tentative cue, effect := .fill slot cue, target := tentative }]

def restart : Arrow where
  condition := .escalating
  effect := .restart
  target := idle

def retry (b : Branch) : Arrow where
  effect := .retry
  target := b.timeout

def silence (b : Branch) : List Arrow :=
  [restart, retry b]

end Arrow

/-! ## States -/

structure Room where
  name : String
  path : String
  parent : Option StateId
  kind : NodeKind := .atomic
  children : List StateId := []
  lines : List Line := []
  arrows : List (EventKind × Arrow) := []
  looksUp : Bool := false

def Room.node (resolver : Resolver) (config : Config) (r : Room) (id : StateId) : Node where
  id := id
  name := r.name
  path := r.path
  parent := r.parent
  kind := r.kind
  children := r.children
  entry := r.lines.map (Line.action config)
  transitions := r.arrows.map fun a => (a.1, a.2.transition resolver config)
  invoke := if r.looksUp then some fun ctx => (ctx.slot .title).getD "" else none

namespace Room

def say (base name : String) (parent : StateId) (text : Prompts → Template) (next : StateId) :
    Room where
  name := name
  path := base ++ "." ++ name
  parent := parent
  lines := [.speak text]
  arrows := [(.endSpeech, { target := next })]

def ask (base : String) (parent : StateId) : Room where
  name := "ask"
  path := base ++ ".ask"
  parent := parent
  lines := [.listen]

def history (b : Branch) : Room where
  name := "hist"
  path := b.name ++ ".hist"
  parent := b.place
  kind := .history

def confirmation (b : Branch) (place : Nat) (name : String) (question : Prompts → Template)
    (onAccept onDecline : StateId) (candidate : Option Slot) : List Room :=
  let path := b.name ++ "." ++ name
  [{ name
     path
     parent := b.place
     kind := .compound ⟨place + 1⟩
     children := [⟨place + 1⟩, ⟨place + 2⟩, ⟨place + 3⟩]
     arrows :=
      [(.recognised, .helpOf b),
       (.recognised,
        { condition := .present (.entity "accept")
          effect := .fill .accept (.entity "accept")
          target := onAccept }),
       (.recognised,
        { condition := .present (.entity "decline")
          effect := .decline candidate
          target := onDecline }),
       (.recognised, { target := ⟨place + 3⟩ })] },
   say path "prompt" ⟨place⟩ question ⟨place + 2⟩,
   ask path ⟨place⟩,
   say path "nomatch" ⟨place⟩ Prompts.notRecognised ⟨place + 2⟩]

/-- What a branch does with turns and silence; `cues` are the turns between help and the apology. -/
def branch (b : Branch) (initial fallback : StateId) (cues : List Arrow)
    (children : List Nat) : Room where
  name := b.name
  path := b.name
  parent := Chart.root
  kind := .compound initial
  children := children.map StateId.mk
  arrows :=
    (.recognised, .helpOf b) :: cues.map (.recognised, ·)
      ++ (.recognised, { target := fallback }) :: (Arrow.silence b).map (.timeout, ·)

def interlude (b : Branch) (name : String) (text : Prompts → Template) : Room where
  name := name
  path := name
  parent := Chart.root
  lines := [.speak text]
  arrows := (.endSpeech, { target := b.history }) :: (Arrow.silence b).map (.timeout, ·)

def welcome : List Room :=
  [branch .welcome ⟨4⟩ ⟨6⟩
     (Arrow.gates (.entity "query") .category ⟨16⟩ ⟨8⟩
       ++ Arrow.gates (.entity "meeting") .category ⟨29⟩ ⟨12⟩)
     [4, 5, 6, 7, 8, 12],
   say "welcome" "prompt" ⟨3⟩ Prompts.welcome ⟨5⟩,
   ask "welcome" ⟨3⟩,
   say "welcome" "nomatch" ⟨3⟩ Prompts.notRecognised ⟨5⟩,
   history .welcome]
  ++ confirmation .welcome 8 "confirm_query" Prompts.confirmHeard ⟨16⟩ ⟨4⟩ (some .category)
  ++ confirmation .welcome 12 "confirm_meeting" Prompts.confirmHeard ⟨29⟩ ⟨4⟩ (some .category)

def query : List Room :=
  [branch .query ⟨17⟩ ⟨23⟩
     (Arrow.gates .subject .title ⟨18⟩ ⟨25⟩
       ++ [{ condition := .present (.entity "accept")
             effect := .fill .accept (.entity "accept")
             target := ⟨32⟩ },
           { condition := .present (.entity "decline")
             effect := .fill .decline (.entity "decline")
             target := ready }])
     [17, 18, 19, 20, 21, 22, 23, 24, 25],
   say "query" "question" ⟨16⟩ Prompts.question ⟨22⟩,
   { name := "understood"
     path := "query.understood"
     parent := some ⟨16⟩
     arrows :=
      [(.lookupDone, { condition := .answered, effect := .keepAnswer, target := ⟨19⟩ }),
       (.lookupDone, { target := ⟨21⟩ })]
     looksUp := true },
   say "query" "speak_result" ⟨16⟩ Prompts.answer ⟨20⟩,
   say "query" "meet_person" ⟨16⟩ Prompts.meetPerson ⟨22⟩,
   say "query" "no_results" ⟨16⟩ Prompts.noResults ⟨17⟩,
   ask "query" ⟨16⟩,
   say "query" "no_matches" ⟨16⟩ Prompts.notRecognised ⟨22⟩,
   history .query]
  ++ confirmation .query 25 "confirm_request" Prompts.confirmHeard ⟨18⟩ ⟨17⟩ (some .title)

def meeting : List Room :=
  [branch .meeting ⟨30⟩ ⟨35⟩
     (Arrow.gates (.entity "title") .title ⟨32⟩ ⟨50⟩
       ++ Arrow.gates (.entity "day") .day ⟨37⟩ ⟨54⟩
       ++ Arrow.gates (.entity "time") .time ⟨45⟩ ⟨58⟩)
     [30, 31, 32, 33, 34, 35, 36, 37, 41, 45, 49, 50, 54, 58],
   say "meeting" "start_meeting" ⟨29⟩ Prompts.startMeeting ⟨31⟩,
   say "meeting" "what" ⟨29⟩ Prompts.what ⟨34⟩,
   say "meeting" "when" ⟨29⟩ Prompts.when ⟨34⟩,
   say "meeting" "time" ⟨29⟩ Prompts.time ⟨34⟩,
   ask "meeting" ⟨29⟩,
   say "meeting" "nomatch" ⟨29⟩ Prompts.notRecognised ⟨34⟩,
   history .meeting]
  ++ confirmation .meeting 37 "whole_day" Prompts.wholeDay ⟨41⟩ ⟨33⟩ none
  ++ confirmation .meeting 41 "whole_day_confirmation" Prompts.confirmWholeDay ⟨49⟩ ⟨31⟩ none
  ++ confirmation .meeting 45 "confirmation" Prompts.confirmMeeting ⟨49⟩ ⟨31⟩ none
  ++ [say "meeting" "finalized" ⟨29⟩ Prompts.finalized ready]
  ++ confirmation .meeting 50 "confirm_what" Prompts.confirmHeard ⟨32⟩ ⟨31⟩ (some .title)
  ++ confirmation .meeting 54 "confirm_when" Prompts.confirmHeard ⟨37⟩ ⟨32⟩ (some .day)
  ++ confirmation .meeting 58 "confirm_time" Prompts.confirmHeard ⟨45⟩ ⟨33⟩ (some .time)

def all : List Room :=
  [{ name := "root"
     path := ""
     parent := none
     kind := .compound idle
     children := [1, 2, 3, 16, 29, 62, 63, 64, 65, 66, 67].map StateId.mk },
   { name := "idle"
     path := "idle"
     parent := Chart.root
     arrows := [(.click, { target := ready })] },
   { name := "init"
     path := "init"
     parent := Chart.root
     arrows := [(.ttsReady, { target := ⟨3⟩ }), (.click, { target := ⟨3⟩ })] }]
  ++ welcome ++ query ++ meeting
  ++ [interlude .welcome "welcome_help" Prompts.welcomeHelp,
      interlude .welcome "welcome_timeout" Prompts.timeout,
      interlude .query "query_help" Prompts.queryHelp,
      interlude .query "query_timeout" Prompts.timeout,
      interlude .meeting "meeting_help" Prompts.meetingHelp,
      interlude .meeting "meeting_timeout" Prompts.timeout]

end Room

def assistant (resolver : Resolver) (config : Config) : Chart where
  nodes := (Room.all.zipIdx.map fun r => r.1.node resolver config ⟨r.2⟩).toArray

section Chart

variable (resolver : Resolver) (config : Config)

set_option maxRecDepth 10000 in
/-- The definition of the assistant has no problems, and its states are laid out as planned. -/
theorem build_definition :
    (definition resolver config).build = .ok (assistant resolver config) := by
  -- The checks read neither guards nor prompts, so they compute with both left open.  The equations
  -- of strings that `cbv` computes with are Mathlib's, hence the import of the whole of it.
  cbv

theorem eq_assistant_of_chart {c : Chart} (h : Appointment.chart resolver config = .ok c) :
    c = assistant resolver config := by
  unfold Appointment.chart at h
  split at h
  · cases h
  · rw [build_definition] at h
    exact (Except.ok.inj h).symm

theorem problems_eq_nil {config : Config}
    (hthreshold : 0 ≤ config.confidenceThreshold ∧ config.confidenceThreshold ≤ 1)
    (hlimit : 0 < config.maxTimeouts) (hcapacity : 0 < config.journalCapacity) :
    config.problems = [] := by
  rw [Config.problems, if_pos hthreshold, if_pos hlimit, if_pos hcapacity]
  rfl

theorem chart_eq_assistant (h : config.problems = []) :
    Appointment.chart resolver config = .ok (assistant resolver config) := by
  unfold Appointment.chart Config.validate
  rw [h, build_definition]
  rfl

theorem wellFormed_assistant : (assistant resolver config).WellFormed :=
  ChartDef.wellFormed_of_build (build_definition resolver config)

theorem size_assistant : (assistant resolver config).nodes.size = Room.all.length := by
  simp [assistant]

theorem node?_assistant (id : StateId) :
    (assistant resolver config).node? id =
      (Room.all[id.index]?).map fun room => room.node resolver config id := by
  simp [Chart.node?, assistant, Function.comp_def]

/-! ## The shape of the chart -/

/-- The chart of an assistant that understands nothing. -/
def shape : Chart :=
  assistant ⟨fun _ _ => none, fun _ => none⟩ {}

theorem alike_shape : (assistant resolver config).Alike shape where
  size_eq := by rw [shape, size_assistant, size_assistant]
  parent?_eq id := by
    simp only [shape, Chart.parent?, node?_assistant]
    cases Room.all[id.index]? <;> rfl
  kind_eq id := by
    simp only [shape, node?_assistant]
    cases Room.all[id.index]? <;> rfl

theorem path_assistant (id : StateId) :
    (assistant resolver config).path id = ((Room.all[id.index]?).map Room.path).getD "" := by
  simp only [Chart.path, node?_assistant]
  cases Room.all[id.index]? <;> rfl

theorem lookup?_assistant (raw : String) : (assistant resolver config).lookup? raw =
    (Room.all.zipIdx.find? fun r => r.1.path = Path.canonical raw).map fun r => ⟨r.2⟩ := by
  simp [Chart.lookup?, Chart.find?, assistant, List.find?_map, Room.node, Function.comp_def]

end Chart

def places : List StateId :=
  (List.range Room.all.length).map StateId.mk

theorem mem_places {resolver : Resolver} {config : Config} {id : StateId}
    (h : id ∈ assistant resolver config) : id ∈ places := by
  rw [Chart.mem_def, size_assistant] at h
  exact List.mem_map.mpr ⟨id.index, List.mem_range.mpr h, rfl⟩

def standard : Chart :=
  assistant Grammar.appointment.resolver {}

theorem chart_standard : Appointment.chart Grammar.appointment.resolver {} = .ok standard :=
  chart_eq_assistant _ _ (problems_eq_nil (by decide) (by decide) (by decide))

end Dialogue.Appointment
