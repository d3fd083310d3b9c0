import Dialogue.Appointment.Confirmation
import Dialogue.Proofs.Chart.Scope
import Dialogue.Proofs.Engine.Choice
import Dialogue.Resolver.Prediction
/-!
# The verdict of a confirmation

Wherever a confirmation stands, it decides on every turn by itself while it is active: the states
inside it do not react to turns, and the last of its own ways is always open.  Help comes before a
yes and a yes before a no.  What the turn carries is kept in the slot of that name, and a no empties
the candidate after that.
-/

namespace Dialogue

open StateDef (Placed)

inductive Verdict where
  | help (branch : String)
  | accept
  | decline
  | unclear
  deriving DecidableEq, Repr

def Cues.carries (c : Cues) (category : String) (ctx : Context) : Bool :=
  (c.read? (.entity category) ctx).isSome

namespace Confirmation

/-- Help is heard only if there is a branch whose help is given. -/
def verdict (c : Confirmation) (cues : Cues) (ctx : Context) : Verdict :=
  match c.help.filter fun _ => cues.carries "help" ctx with
  | some branch => .help branch
  | none =>
    if cues.carries "accept" ctx then .accept
    else if cues.carries "decline" ctx then .decline
    else .unclear

def outcome (c : Confirmation) : Verdict → String
  | .help branch => "#" ++ Support.helpName branch
  | .accept => c.onAccept
  | .decline => c.onDecline
  | .unclear => ".nomatch"

/-- What a slot holds once a verdict on the last turn is acted upon. -/
def kept (c : Confirmation) (cues : Cues) (ctx : Context) (s : Slot) : Verdict → Option String
  | .help _ => if s = .help then cues.read? (.entity "help") ctx else ctx.slot s
  | .accept => if s = .accept then cues.read? (.entity "accept") ctx else ctx.slot s
  | .decline =>
    if c.candidate = some s then none
    else if s = .decline then cues.read? (.entity "decline") ctx
    else ctx.slot s
  | .unclear => ctx.slot s

/-! ## The ways out of a confirmation -/

def way (c : Confirmation) (cues : Cues) : Verdict → TransitionDef
  | .help branch => Support.helpTransition branch cues
  | .accept => cues.take (.entity "accept") .accept c.onAccept
  | .decline => c.decline cues
  | .unclear => { target := ".nomatch" }

section Ways

variable (c : Confirmation) (cues : Cues)

theorem transitionsOn_build (prompts : Prompts) :
    (c.build cues prompts).transitionsOn .recognised =
      (c.help.map fun branch => c.way cues (.help branch)).toList ++
        [c.way cues .accept, c.way cues .decline, c.way cues .unclear] := by
  cases c with
  | mk name question onAccept onDecline candidate help => cases help <;> rfl

theorem target_way (v : Verdict) : (c.way cues v).target = c.outcome v := by
  cases v <;> rfl

theorem enabled_of_present {t : TransitionDef} {category : String} {ctx : Context} {event : Event}
    (h : t.guard = some (cues.present (.entity category))) :
    t.Enabled ctx event ↔ cues.carries category ctx := by
  rw [TransitionDef.Enabled, h]
  simp [Cues.present, Guard.onContext, Cues.carries]

theorem exists_ways_eq (prompts : Prompts) (ctx : Context) (event : Event) :
    ∃ before after, (c.build cues prompts).transitionsOn .recognised =
        before ++ c.way cues (c.verdict cues ctx) :: after ∧
      (∀ t ∈ before, ¬ t.Enabled ctx event) ∧
      (c.way cues (c.verdict cues ctx)).Enabled ctx event := by
  have hhelp : ∀ branch, (c.way cues (.help branch)).Enabled ctx event ↔
      cues.carries "help" ctx := fun branch => enabled_of_present cues rfl
  have haccept : (c.way cues .accept).Enabled ctx event ↔ cues.carries "accept" ctx :=
    enabled_of_present cues rfl
  have hdecline : (c.way cues .decline).Enabled ctx event ↔ cues.carries "decline" ctx :=
    enabled_of_present cues rfl
  have hunclear : (c.way cues .unclear).Enabled ctx event := fun _ hguard => nomatch hguard
  rw [transitionsOn_build]
  unfold verdict
  split
  · next branch hbranch =>
    obtain ⟨hsome, hcarries⟩ := Option.filter_eq_some_iff.mp hbranch
    exact ⟨[], _, by rw [hsome]; rfl, by simp, (hhelp branch).mpr hcarries⟩
  · next hnone =>
    have hclosed : ∀ t ∈ (c.help.map fun branch => c.way cues (.help branch)).toList,
        ¬ t.Enabled ctx event := by
      intro t ht
      obtain ⟨branch, hbranch, rfl⟩ := Option.map_eq_some_iff.mp (Option.mem_toList.mp ht)
      rw [hhelp]
      exact Option.filter_eq_none_iff.mp hnone branch hbranch
    split
    · next hyes => exact ⟨_, _, rfl, hclosed, haccept.mpr hyes⟩
    · next hyes =>
      split
      · next hno =>
        refine ⟨_ ++ [c.way cues .accept], _, by rw [List.append_assoc]; rfl, ?_, hdecline.mpr hno⟩
        exact List.forall_mem_append.mpr ⟨hclosed, by simp [haccept, hyes]⟩
      · next hno =>
        refine ⟨_ ++ [c.way cues .accept, c.way cues .decline], _, by rw [List.append_assoc]; rfl,
          ?_, hunclear⟩
        exact List.forall_mem_append.mpr ⟨hclosed, by simp [haccept, hdecline, hyes, hno]⟩

theorem runAll_way (v : Verdict) (event : Option Event) (ctx : Context) :
    ∃ slots : Slots, Action.runAll event ctx (c.way cues v).actions = ({ ctx with slots }, []) ∧
      ∀ s, slots.get s = c.kept cues ctx s v := by
  cases v with
  | help branch => exact ⟨_, rfl, fun s => Slots.get_set ..⟩
  | accept => exact ⟨_, rfl, fun s => Slots.get_set ..⟩
  | unclear => exact ⟨ctx.slots, rfl, fun s => rfl⟩
  | decline =>
    have hfill : ∀ s, (ctx.slots.set .decline (cues.read? (.entity "decline") ctx)).get s =
        if s = .decline then cues.read? (.entity "decline") ctx else ctx.slot s :=
      fun s => Slots.get_set ..
    rw [way, decline]
    simp only [kept]
    cases c.candidate with
    | none => exact ⟨_, rfl, hfill⟩
    | some candidate =>
      refine ⟨(ctx.slots.set .decline (cues.read? (.entity "decline") ctx)).set candidate none, rfl,
        fun s => ?_⟩
      rw [Slots.get_set, hfill]
      simp only [Option.some.injEq, eq_comm]

end Ways

/-! ## Inside a confirmation -/

theorem transitionsOn_inside {c : Confirmation} {cues : Cues} {prompts : Prompts} {p q : Placed}
    (hp : p.definition = c.build cues prompts) {a : Address} (hq : p.at? a = some q)
    (hne : q ≠ p) : q.definition.transitionsOn .recognised = [] := by
  have hchildren : ∀ s ∈ p.definition.children,
      s.children = [] ∧ s.transitionsOn .recognised = [] := by
    have hlist : p.definition.children =
        [say "prompt" c.question "ask", ask, say "nomatch" prompts.notRecognised "ask"] := by
      rw [hp]
      rfl
    simp only [hlist, List.forall_mem_cons, List.not_mem_nil, false_imp_iff, implies_true, and_true]
    exact ⟨⟨rfl, rfl⟩, ⟨rfl, rfl⟩, rfl, rfl⟩
  cases a with
  | nil => exact absurd (Option.some.inj hq).symm hne
  | cons i b =>
    obtain ⟨child, hchild, hq⟩ := Option.bind_eq_some_iff.mp hq
    obtain ⟨hleaf, hsilent⟩ :=
      hchildren _ (List.mem_of_getElem? (Placed.definition_of_child? hchild))
    cases b with
    | nil =>
      obtain rfl := Option.some.inj hq
      exact hsilent
    | cons j b =>
      obtain ⟨inner, hinner, -⟩ := Option.bind_eq_some_iff.mp hq
      have hsome := Placed.definition_of_child? hinner
      rw [hleaf] at hsome
      cases hsome

end Confirmation

namespace Engine

theorem Sound.exists_inside {d : ChartDef} {e : Engine} (h : e.Sound)
    (hd : d.build = .ok e.chart) {p : Placed} (hp : p ∈ d.layout) {inner outer : List StateId}
    (hactive : e.active = inner ++ p.place :: outer) {id : StateId} (hid : id ∈ inner) :
    ∃ a q, p.at? a = some q ∧ q.place = id ∧ q ≠ p := by
  have hpairwise := h.wellFormed.pairwise_lineage h.leaf_mem
  rw [← h.active_eq, hactive, List.pairwise_append] at hpairwise
  have hencloses := hpairwise.2.2 id hid p.place List.mem_cons_self
  have hmem : id ∈ e.chart := h.mem_of_active (hactive ▸ List.mem_append_left _ hid)
  obtain ⟨q, hq, rfl⟩ := ChartDef.mem_block_of_mem_lineage hp hd hmem
    ((h.wellFormed.mem_lineage_iff hmem).mpr (Or.inr hencloses))
  obtain ⟨a, ha⟩ := StateDef.mem_layout_iff.mp hq
  refine ⟨a, q, ha, rfl, ?_⟩
  rintro rfl
  exact h.wellFormed.not_encloses_self _ hencloses

end Engine

namespace Confirmation

/-- A step in which the confirmation at `p` decides on a turn: it takes the way that its verdict
leads to.  Of the context that holds once the turn is written down, the actions of that way change
the slots alone. -/
structure Settles (c : Confirmation) (cues : Cues) (prompts : Prompts) (d : ChartDef) (p : Placed)
    (e : Engine) (turn : Turn) (t : Transition) : Prop where
  taken : e.taken? (.recognised turn) = some (p.place, t)
  step_eq : e.step (.recognised turn) =
    ({ e with context := e.context.observe turn } : Engine).fire (.recognised turn) p.place t
  names : d.Names p (c.outcome (c.verdict cues (e.context.observe turn))) t.target
  apologizes : c.verdict cues (e.context.observe turn) = .unclear →
    ∃ i q, p.child? i = some q ∧ q.definition = say "nomatch" prompts.notRecognised "ask" ∧
      t.target = q.place
  acts : ∃ slots : Slots,
    Action.runAll (some (.recognised turn)) (e.context.observe turn) t.actions =
        ({ e.context.observe turn with slots }, []) ∧
      ∀ s, slots.get s =
        c.kept cues (e.context.observe turn) s (c.verdict cues (e.context.observe turn))

section Settles

variable {d : ChartDef} {a : Address} {p : Placed} (hp : d.at? a = some p) {c : Confirmation}
  {cues : Cues} {prompts : Prompts} (hflow : p.definition = c.build cues prompts)
include hp hflow

theorem names_nomatch : ∃ i q, p.child? i = some q ∧
    q.definition = say "nomatch" prompts.notRecognised "ask" ∧ d.Names p ".nomatch" q.place := by
  have hchild : p.child? 2 = some (p.inside (p.definition.children.take 2)
      (say "nomatch" prompts.notRecognised "ask")) := by
    rw [Placed.child?, hflow]
    rfl
  exact ⟨2, _, hchild, rfl, .descendant "nomatch", rfl, a ++ [2], _,
    ChartDef.at?_concat_eq_some_iff.mpr ⟨p, hp, hchild⟩, rfl, rfl⟩

theorem exists_settles {e : Engine} (h : e.Sound) (hd : d.build = .ok e.chart)
    (hactive : p.place ∈ e.active) (turn : Turn) : ∃ t, c.Settles cues prompts d p e turn t := by
  set v := c.verdict cues (e.context.observe turn)
  have hvalid := ChartDef.valid_of_build hd
  obtain ⟨inner, outer, hsplit⟩ := List.append_of_mem hactive
  have hsilent : ∀ id ∈ inner, d.Silent .recognised id := by
    intro id hid
    obtain ⟨b, q, hq, rfl, hne⟩ :=
      h.exists_inside hd (ChartDef.mem_layout_iff.mpr ⟨a, hp⟩) hsplit hid
    refine ⟨q, ⟨⟨a ++ b, (ChartDef.at?_append hp b).trans hq⟩, rfl⟩, ?_⟩
    rw [StateDef.gives_iff, transitionsOn_inside hflow hq hne]
  obtain ⟨before, after, hways, hclosed, hopen⟩ :=
    c.exists_ways_eq cues prompts (e.context.observe turn) (.recognised turn)
  rw [← hflow] at hways
  have hmem : c.way cues v ∈ p.definition.transitionsOn .recognised := by
    rw [hways]
    exact List.mem_append_right _ List.mem_cons_self
  have hnames := ChartDef.names_aim hvalid hp (StateDef.mem_transitionsOn.mp hmem)
  have hreceive : e.receive? (.recognised turn) =
      some { e with context := e.context.observe turn } := rfl
  have hdecides : d.Decides e.active (e.context.observe turn) (.recognised turn)
      (.take p.place (d.resolved p (c.way cues v))) :=
    .take hsplit hsilent ⟨⟨a, hp⟩, rfl⟩ (StateDef.gives_iff.mpr hways.symm) hclosed hopen hnames
  have htaken := (Engine.taken?_eq_some_iff_decides hreceive hd h _ _).mpr hdecides
  obtain ⟨e', hreceived, hstep⟩ := Engine.step_of_taken? htaken
  obtain rfl := Option.some.inj (hreceive.symm.trans hreceived)
  rw [target_way] at hnames
  refine ⟨_, htaken, hstep, hnames, fun hunclear => ?_, c.runAll_way cues v _ _⟩
  obtain ⟨i, q, hq, hdefinition, hnomatch⟩ := names_nomatch hp hflow
  have houtcome : c.outcome v = ".nomatch" := congrArg c.outcome hunclear
  rw [houtcome] at hnames
  exact ⟨i, q, hq, hdefinition, hnames.unique hvalid hnomatch⟩

end Settles

/-- While the states of `c` are active, `c` alone decides on a turn, wherever its definition stands
in the chart. -/
theorem settles_run {d : ChartDef} {chart : Chart} (hd : d.build = .ok chart) {a : Address}
    {p : Placed} (hp : d.at? a = some p) {c : Confirmation} {cues : Cues} {prompts : Prompts}
    (hflow : p.definition = c.build cues prompts) (journal : Journal Move) (events : List Event)
    (hactive : p.place ∈ ((Engine.start chart journal).run events).1.active) (turn : Turn) :
    ∃ t, c.Settles cues prompts d p ((Engine.start chart journal).run events).1 turn t := by
  have hsound := (Engine.sound_start (ChartDef.wellFormed_of_build hd) journal).run events
  refine exists_settles hp hflow hsound ?_ hactive turn
  rwa [Engine.chart_run_start]

def porchConfirmation : Confirmation :=
  heard "porch" "confirm" .title "#yard" "#porch" {}

def porchCues : Cues where
  resolver := Prediction.empty.resolver
  threshold := 0.6

def porchDefinition : ChartDef where
  initial := "porch"
  states :=
    [((StateDef.compound "porch" "ask").on .recognised
        [porchCues.take (.entity "title") .title ".confirm", { target := "yard" }]).containing
        [ask, porchConfirmation.build porchCues {}],
      StateDef.atomic "porch_help",
      StateDef.atomic "yard"]

def porchFlow : Placed where
  place := ⟨3⟩
  path := "porch.confirm"
  parent := some (⟨1⟩, "porch")
  definition := porchConfirmation.build porchCues {}

def announcement : Turn where
  utterance := "lecture"
  entities := [⟨"title", "lecture"⟩]

def refusal : Turn where
  utterance := "no"
  entities := [⟨"decline", "no"⟩]

def porch : Engine :=
  ((Engine.start porchDefinition.chart (.withCapacity 4)).run
    [.recognised announcement, .endSpeech]).1

theorem settles_run_porch :
    porchDefinition.build = .ok porchDefinition.chart ∧
      porchDefinition.at? [0, 1] = some porchFlow ∧
      porchFlow.definition = porchConfirmation.build porchCues {} ∧
      porchFlow.place ∈ porch.active ∧
      porchConfirmation.verdict porchCues (porch.context.observe refusal) = .decline ∧
      (∃ t, porchConfirmation.Settles porchCues {} porchDefinition porchFlow porch refusal t) ∧
      porch.context.slot .title = some "lecture" ∧
      let e := (porch.step (.recognised refusal)).1
      e.leafPath = "porch.ask" ∧ e.context.slots = { decline := some "no" } := by
  have hbuild := ChartDef.build_eq_ok (d := porchDefinition) rfl
  have hactive : porchFlow.place ∈ porch.active := by decide
  have hsettles := settles_run hbuild (a := [0, 1]) rfl rfl _ _ hactive refusal
  exact ⟨hbuild, rfl, rfl, hactive, by decide, hsettles, by decide, by decide, by decide⟩

end Confirmation

end Dialogue
