import Dialogue.Proofs.Appointment.Topics
/-!
# What the assistant says

Every step that is taken gives at most one directive, and where it ends tells which: each state has
a part in one script.  The states around it are silent, and so are transitions, but for the farewell
of a hard reset, which is the part of the state where a dialogue begins.
-/

namespace Dialogue.Appointment

inductive Voice where
  | silence
  | listening
  | lookup
  | words (text : Prompts → Template)

namespace Voice

/-- The directives are those of a voice, in the context and with the lookup of an engine. -/
def Utters (config : Config) (e : Engine) (directives : List Directive) : Voice → Prop
  | silence => directives = []
  | listening => directives = [.listen]
  | lookup => ∃ ticket title, e.lookups.live = some ticket ∧
      e.context.slot .title = some title ∧ directives = [.lookup ticket title]
  | words text => directives = [.speak ((text config.prompts).render e.context)]

theorem length_le_of_utters {config : Config} {e : Engine} {directives : List Directive}
    {voice : Voice} (h : voice.Utters config e directives) : directives.length ≤ 1 := by
  cases voice with
  | silence | listening | words text => simp [show directives = _ from h]
  | lookup =>
    obtain ⟨ticket, title, -, -, rfl⟩ := h
    exact le_refl 1

def confirmation (path : String) (question : Prompts → Template) : List (String × Voice) :=
  [(path ++ ".prompt", words question), (path ++ ".ask", listening),
    (path ++ ".nomatch", words Prompts.notRecognised)]

/-- The part of each state that a step can end in. -/
def script : List (String × Voice) :=
  List.flatten
    [[("idle", words Prompts.reset), ("init", silence),
      ("welcome.prompt", words Prompts.welcome), ("welcome.ask", listening),
      ("welcome.nomatch", words Prompts.notRecognised)],
     confirmation "welcome.confirm_query" Prompts.confirmHeard,
     confirmation "welcome.confirm_meeting" Prompts.confirmHeard,
     [("query.question", words Prompts.question), ("query.understood", lookup),
      ("query.speak_result", words Prompts.answer), ("query.meet_person", words Prompts.meetPerson),
      ("query.no_results", words Prompts.noResults), ("query.ask", listening),
      ("query.no_matches", words Prompts.notRecognised)],
     confirmation "query.confirm_request" Prompts.confirmHeard,
     [("meeting.start_meeting", words Prompts.startMeeting), ("meeting.what", words Prompts.what),
      ("meeting.when", words Prompts.when), ("meeting.time", words Prompts.time),
      ("meeting.ask", listening), ("meeting.nomatch", words Prompts.notRecognised)],
     confirmation "meeting.whole_day" Prompts.wholeDay,
     confirmation "meeting.whole_day_confirmation" Prompts.confirmWholeDay,
     confirmation "meeting.confirmation" Prompts.confirmMeeting,
     [("meeting.finalized", words Prompts.finalized)],
     confirmation "meeting.confirm_what" Prompts.confirmHeard,
     confirmation "meeting.confirm_when" Prompts.confirmHeard,
     confirmation "meeting.confirm_time" Prompts.confirmHeard,
     [("welcome_help", words Prompts.welcomeHelp), ("welcome_timeout", words Prompts.timeout),
      ("query_help", words Prompts.queryHelp), ("query_timeout", words Prompts.timeout),
      ("meeting_help", words Prompts.meetingHelp), ("meeting_timeout", words Prompts.timeout)]]

end Voice

/-! ## The script and the plan -/

def Line.voice : Line → Voice
  | speak text => .words text
  | listen => .listening

def entryVoice (id : StateId) : Voice :=
  match linesAt id with
  | line :: _ => line.voice
  | [] => if looksUpAt id then .lookup else .silence

def voiceAt (id : StateId) : Voice :=
  if id = idle then .words Prompts.reset else entryVoice id

def leaves : List StateId :=
  places.filter fun id => !shape.isCompound id && !shape.isHistory id

structure Stage : Prop where
  single : ∀ id ∈ leaves, (linesAt id).length + (looksUpAt id).toNat ≤ 1
  silent_idle : linesAt idle = [] ∧ ¬ looksUpAt idle
  searching_mem : searching ∈ about .title
  not_isHistory_initialLeaf : ∀ id ∈ places, ∀ kind ∈ EventKind.all, ∀ h ∈ deciding? kind id,
    ∀ a ∈ h.2, ¬ shape.isHistory a.target → ¬ shape.isHistory (shape.initialLeaf a.target)
  effect_of_idle : ∀ id ∈ places, ∀ kind ∈ EventKind.all, ∀ h ∈ deciding? kind id, ∀ a ∈ h.2,
    shape.initialLeaf a.target = idle → a.effect = .restart
  place_notMem_idle : ∀ b : Branch, b.place ∉ shape.lineage idle
  map_fst_script : Voice.script.map Prod.fst = leaves.map shape.path
  nodup_script : (Voice.script.map Prod.fst).Nodup

theorem stage : Stage := by
  constructor <;> decide +kernel

theorem lookup_script {id : StateId} (hid : id ∈ leaves) :
    Voice.script.lookup (shape.path id) = some (voiceAt id) := by
  have hvoices : Voice.script.map Prod.snd = leaves.map voiceAt := rfl
  have hscript : Voice.script = leaves.map fun id => (shape.path id, voiceAt id) :=
    (List.zip_of_prod stage.map_fst_script hvoices).trans List.zip_map'
  have hmem : (shape.path id, voiceAt id) ∈ Voice.script :=
    hscript ▸ List.mem_map_of_mem (f := fun id => (shape.path id, voiceAt id)) hid
  obtain ⟨before, after, hsplit⟩ := List.append_of_mem hmem
  refine List.lookup_eq_some_iff.mpr ⟨before, after, hsplit, fun part hpart => ?_⟩
  -- no part before it is that of the same state
  have hnodup := stage.nodup_script
  rw [hsplit, List.map_append, List.nodup_append] at hnodup
  exact bne_iff_ne.mpr (hnodup.2.2 _ (List.mem_map_of_mem hpart) _ List.mem_cons_self).symm

theorem lines_cases {id : StateId} (hid : id ∈ leaves) :
    linesAt id = [] ∨ ∃ line, linesAt id = [line] ∧ ¬ looksUpAt id := by
  have hsingle := stage.single id hid
  rcases hlines : linesAt id with _ | ⟨line, _ | ⟨next, rest⟩⟩
  · exact Or.inl rfl
  · refine Or.inr ⟨line, rfl, fun hlooksUp => ?_⟩
    simp [hlines, hlooksUp] at hsingle
  · simp only [hlines, List.length_cons] at hsingle
    omega

theorem utters_announced {config : Config} {e : Engine} {l : Lookups} {id : StateId}
    (hid : id ∈ leaves) (hlookups : e.lookups = begun l id)
    (htitle : looksUpAt id → (e.context.slot .title).isSome) :
    (entryVoice id).Utters config e (announced config e.context l id) := by
  unfold entryVoice announced
  rcases lines_cases hid with hlines | ⟨line, hlines, hquiet⟩
  · rw [hlines]
    by_cases hlooksUp : looksUpAt id
    · obtain ⟨title, htitle⟩ := Option.isSome_iff_exists.mp (htitle hlooksUp)
      have hlive : e.lookups.live = some (l.nextTicket id) := by
        rw [hlookups, begun, if_pos hlooksUp]
        rfl
      simp only [hlooksUp, if_true, htitle]
      exact ⟨_, title, hlive, htitle, rfl⟩
    · simp only [hlooksUp]
      rfl
  · simp only [hlines, hquiet]
    cases line <;> rfl

/-! ## Where steps end -/

section Setting

variable {resolver : Resolver} {config : Config} {e : Engine} {event : Event} {source : StateId}
  {a : Arrow} {s : Engine × StepResult} (ht : Taken resolver config e event source a s)
  (h : Attends resolver config e)
  (hdeciding : ∃ arrows, deciding? event.kind e.leaf = some (source, arrows) ∧ a ∈ arrows)
include ht h hdeciding

theorem Taken.effect_of_idle (hidle : s.1.leaf = idle) : a.effect = .restart := by
  rcases ht.leaf_cases h hdeciding with ⟨b, -, hplace, -⟩ | ⟨-, hleaf⟩
  · rw [hidle] at hplace
    exact absurd hplace (stage.place_notMem_idle b)
  · obtain ⟨arrows, hdeciding, ha⟩ := hdeciding
    exact stage.effect_of_idle _ h.leaf_mem_places _ event.kind.mem_all _ hdeciding _ ha
      (hleaf.symm.trans hidle)

theorem Taken.utters (hleaf : s.1.leaf ∈ leaves) (hsupplied : Supplied s.1.leaf s.1.context) :
    (voiceAt s.1.leaf).Utters config s.1 s.2.directives := by
  unfold voiceAt
  split
  · next hidle =>
    have heffect := ht.effect_of_idle h hdeciding hidle
    have hcontext := ht.context_eq
    obtain ⟨hlines, hquiet⟩ := stage.silent_idle
    rw [ht.result_arrival h hdeciding, hidle, announced, hlines, if_neg hquiet, heffect]
    rw [heffect] at hcontext
    simp only [Voice.Utters, hcontext]
    rfl
  · next haway =>
    rw [ht.result_away h hdeciding haway]
    refine utters_announced hleaf (ht.lookups_arrival h hdeciding) fun hlooksUp => ?_
    have hsearching := inquiries.eq_searching_of_looksUpAt _ ht.attends.leaf_mem_places hlooksUp
    exact hsupplied .title (hsearching ▸ stage.searching_mem)

end Setting

theorem follows_not_isHistory (resolver : Resolver) (config : Config) :
    Follows resolver config fun leaf _ => ¬ shape.isHistory leaf := by
  intro e event source ctx a h hreaction hhistory _
  obtain ⟨arrows, hdeciding, ha⟩ := deciding?_of_reaction? hreaction
  exact stage.not_isHistory_initialLeaf _ h.leaf_mem_places _ event.kind.mem_all _ hdeciding _ ha
    hhistory

theorem leaf_mem_leaves {resolver : Resolver} {config : Config} {c : Chart}
    (hc : Appointment.chart resolver config = .ok c) (journal : Journal Move)
    (events : List Event) : ((Engine.start c journal).run events).1.leaf ∈ leaves := by
  have h := attends_run hc journal events
  have hrecalls := (follows_not_isHistory resolver config).recalls_start_run
    (fun _ _ _ _ h => h) (by decide +kernel) hc journal events
  refine List.mem_filter.mpr ⟨h.leaf_mem_places, ?_⟩
  rw [Bool.eq_false_of_not_eq_true h.not_isCompound_leaf,
    Bool.eq_false_of_not_eq_true hrecalls.here]
  rfl

/-- A transition gives at most one directive, the one that `script` has for the leaf where it ends:
`listen`, the lookup of the title under the live ticket, the prompt of the state rendered in the new
context, or none. -/
theorem voice_run {resolver : Resolver} {config : Config} {c : Chart}
    (hc : Appointment.chart resolver config = .ok c) (journal : Journal Move)
    (past : List Event) (event : Event) {source target : String} {configuration : List String}
    {directives : List Directive} :
    let s := ((Engine.start c journal).run past).1.step event
    s.2 = .transitioned source target configuration directives →
      s.1.leafPath = target ∧ directives.length ≤ 1 ∧
        ∃ voice, Voice.script.lookup target = some voice ∧
          voice.Utters config s.1 directives := by
  intro s hresult
  have h := attends_run hc journal past
  have hs : s.1 = ((Engine.start c journal).run (past ++ [event])).1 :=
    (congrArg Prod.fst (Engine.run_concat _ past event)).symm
  have hleaf : s.1.leaf ∈ leaves := hs ▸ leaf_mem_leaves hc journal (past ++ [event])
  have hsupplied : Supplied s.1.leaf s.1.context :=
    hs ▸ (supplied_run hc journal (past ++ [event])).here
  obtain ⟨_, _, _, -, h', -, hdeciding, ht, htarget⟩ := h.taken_of_transitioned hresult
  have hutters := ht.utters h' hdeciding hleaf hsupplied
  rw [hresult] at hutters
  refine ⟨ht.attends.leafPath_eq.trans htarget, Voice.length_le_of_utters hutters, _, ?_, hutters⟩
  rw [← htarget]
  exact lookup_script hleaf

theorem voice_run_asking :
    Appointment.chart Grammar.appointment.resolver {} = .ok standard ∧
      (((Engine.start standard (.withCapacity 4)).run asking.dropLast).1.step
          (.recognised { utterance := "who is Turing", confidence := 0.9 })).2 =
        .transitioned "query.question" "query.understood" ["query", "query.understood"]
          [.lookup ⟨⟨18⟩, 1⟩ "turing"] ∧
      (((Engine.start standard (.withCapacity 4)).run asking.dropLast).1.step
          (.recognised { utterance := "who is Turing", confidence := 0.9 })).1.lookups.live =
        some ⟨⟨18⟩, 1⟩ := by
  have hresult : (((Engine.start standard (.withCapacity 4)).run asking.dropLast).1.step
      (.recognised { utterance := "who is Turing", confidence := 0.9 })).2 =
        .transitioned "query.question" "query.understood" ["query", "query.understood"]
          [.lookup ⟨⟨18⟩, 1⟩ "turing"] := by
    decide
  obtain ⟨-, -, voice, hvoice, hutters⟩ := voice_run chart_standard (.withCapacity 4)
    asking.dropLast (.recognised { utterance := "who is Turing", confidence := 0.9 }) hresult
  obtain rfl : Voice.lookup = voice := Option.some.inj hvoice
  obtain ⟨ticket, title, hlive, -, hdirectives⟩ := hutters
  obtain ⟨rfl, -⟩ := Directive.lookup.inj (List.singleton_inj.mp hdirectives)
  exact ⟨chart_standard, hresult, hlive⟩

end Dialogue.Appointment
