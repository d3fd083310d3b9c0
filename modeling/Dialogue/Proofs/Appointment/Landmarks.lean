import Dialogue.Proofs.Appointment.Course
/-!
# Landmarks of the assistant

What the plan says about branches and the states beside them, computed place by place, and what
that means for engines of the assistant: where silence, help and the end of speech lead.
-/

namespace Dialogue

theorem EventKind.mem_all (kind : EventKind) : kind ∈ all := by
  cases kind <;> decide

namespace Appointment

/-- The place is in a branch, or it is one of the two states beside it. -/
def Branch.Near (b : Branch) (id : StateId) : Prop :=
  b.place ∈ shape.lineage id ∨ id = b.help ∨ id = b.timeout

instance (b : Branch) (id : StateId) : Decidable (b.Near id) :=
  inferInstanceAs (Decidable (_ ∨ _ ∨ _))

structure Landmarks : Prop where
  idle_or_ready_or_near : ∀ id ∈ places, ¬ shape.isCompound id →
    id = idle ∨ id = ready ∨ ∃ b : Branch, b.Near id
  isCompound_place : ∀ b : Branch, shape.isCompound b.place ∧ b.place ≠ Chart.root
  path_eq_idle_iff : ∀ id ∈ places, (shape.path id = "idle" ↔ id = idle)
  path_eq_init_iff : ∀ id ∈ places, (shape.path id = "init" ↔ id = ready)
  path_eq_name_iff : ∀ id ∈ places, ∀ b : Branch, (shape.path id = b.name ↔ id = b.place)
  path_aside : ∀ b : Branch,
    shape.path b.help = Support.helpName b.name ∧ shape.path b.timeout = Support.timeoutName b.name
  lineage_top : ∀ b : Branch, ∀ id ∈ [idle, b.help, b.timeout],
    shape.lineage id = [id, Chart.root]
  place_notMem_lineage : ∀ b : Branch, ∀ id ∈ [b.help, b.timeout], ∀ b' : Branch,
    b'.place ∉ shape.lineage id
  initialLeaf_top : ∀ b : Branch, ∀ id ∈ [idle, b.help, b.timeout],
    ¬ shape.isHistory id ∧ shape.initialLeaf id = id
  effectiveTarget_history : ∀ b : Branch,
    shape.isHistory b.history ∧ Engine.effectiveTarget shape b.history = b.place
  source_of_deciding? : ∀ id ∈ places, ∀ kind ∈ EventKind.all, ∀ h ∈ deciding? kind id,
    h.1 ∈ shape.lineage id ∧ h.1 ≠ Chart.root
  deciding?_recognised : ∀ id ∈ places, ∀ b : Branch, b.place ∈ shape.lineage id →
    ((deciding? .recognised id).bind fun h => h.2.head?) = some (Arrow.helpOf b)
  deciding?_timeout : ∀ id ∈ places, ∀ b : Branch, b.Near id →
    (deciding? .timeout id).map Prod.snd = some (Arrow.silence b)
  deciding?_timeout_eq_none : ∀ id ∈ [idle, ready], deciding? .timeout id = none
  deciding?_aside : ∀ b : Branch, ∀ id ∈ [b.help, b.timeout], ∀ kind ∈ EventKind.all,
    kind ≠ .timeout →
      deciding? kind id =
        if kind = .endSpeech then some (id, [{ target := b.history }]) else none
  effect_of_deciding? : ∀ id ∈ places, ∀ kind ∈ EventKind.all, kind ≠ .timeout →
    ∀ h ∈ deciding? kind id, ∀ a ∈ h.2, a.effect ≠ .restart ∧ a.effect ≠ .retry
  departed_top : ∀ id ∈ places, ∀ source ∈ shape.lineage id, source ≠ Chart.root →
    ∀ b : Branch, ∀ target ∈ [idle, b.help, b.timeout],
      departed id source target ++ [Chart.root] = shape.lineage id
  arrived_top : ∀ source ∈ places, source ≠ Chart.root → ∀ b : Branch,
    ∀ target ∈ [idle, b.help, b.timeout], arrived source target = [target]
  departed_history : ∀ b : Branch, ∀ id ∈ [b.help, b.timeout], departed id id b.history = [id]

theorem landmarks : Landmarks := by
  -- the plan has finitely many places, and `shape` fixes all that the fields depend on
  constructor <;> decide +kernel

/-! ## Engines of the assistant -/

section Setting

variable {resolver : Resolver} {config : Config} {e : Engine}

theorem deciding?_of_reaction? {id source : StateId} {ctx : Context} {event : Event} {a : Arrow}
    (h : reaction? resolver config id ctx event = some (source, a)) :
    ∃ arrows, deciding? event.kind id = some (source, arrows) ∧ a ∈ arrows := by
  obtain ⟨arrows, hdeciding, hfind⟩ := reaction?_eq_some_iff.mp h
  exact ⟨arrows, hdeciding, List.mem_of_find?_eq_some hfind⟩

theorem reaction?_eq_none {id : StateId} {ctx : Context} {event : Event}
    (h : deciding? event.kind id = none) : reaction? resolver config id ctx event = none := by
  rw [reaction?, h, Option.bind_none]

namespace Attends

variable (h : Attends resolver config e)
include h

theorem not_isCompound_leaf : ¬ shape.isCompound e.leaf := by
  rw [← h.alike.isCompound_eq]
  exact h.sound.leaf_atomic

theorem path_eq (id : StateId) : e.chart.path id = shape.path id := by
  rw [h.chart_eq, shape, path_assistant, path_assistant]

theorem leafPath_eq : e.leafPath = shape.path e.leaf :=
  h.path_eq e.leaf

theorem configuration_eq :
    e.configuration = (shape.lineage e.leaf).reverse.tail.map shape.path := by
  rw [Engine.configuration, h.active_eq]
  exact List.map_congr_left fun id _ => h.path_eq id

theorem mem_configuration_iff {place : StateId} {path : String}
    (hpath : ∀ id ∈ places, (shape.path id = path ↔ id = place)) (hroot : place ≠ Chart.root) :
    path ∈ e.configuration ↔ place ∈ shape.lineage e.leaf := by
  have hplace : ∀ id ∈ shape.lineage e.leaf, id ∈ places := by
    intro id hid
    have hmem := h.sound.mem_of_active (h.active_eq ▸ hid)
    rw [h.chart_eq] at hmem
    exact mem_places hmem
  rw [h.configuration_eq, List.mem_map]
  constructor
  · rintro ⟨id, hid, heq⟩
    have hmem := List.mem_reverse.mp (List.mem_of_mem_tail hid)
    rwa [← (hpath _ (hplace id hmem)).mp heq]
  · intro hmem
    refine ⟨place, ?_, (hpath _ (hplace _ hmem)).mpr rfl⟩
    -- the root stands at the head of the reversed lineage, and the state is not the root
    obtain ⟨rest, hrest⟩ := List.head?_eq_some_iff.mp h.sound.configured.head_eq_root
    rw [← List.mem_reverse, ← h.active_eq, hrest] at hmem
    rw [← h.active_eq, hrest]
    exact (List.mem_cons.mp hmem).resolve_left hroot

theorem place_mem_of_name {b : Branch} (hname : b.name ∈ e.configuration) :
    b.place ∈ shape.lineage e.leaf :=
  (h.mem_configuration_iff (fun id hid => landmarks.path_eq_name_iff id hid b)
    (landmarks.isCompound_place b).2).mp hname

theorem source_mem {source : StateId} {ctx : Context} {event : Event} {a : Arrow}
    (hreaction : reaction? resolver config e.leaf ctx event = some (source, a)) :
    source ∈ shape.lineage e.leaf ∧ source ≠ Chart.root := by
  obtain ⟨_, hdeciding, -⟩ := deciding?_of_reaction? hreaction
  exact landmarks.source_of_deciding? _ h.leaf_mem_places _ event.kind.mem_all _ hdeciding

/-- An arrow leads to the innermost initial state of its target, unless history decides. -/
theorem arrival_eq (source : StateId) {target : StateId} (htarget : ¬ shape.isHistory target) :
    e.arrival source target = shape.initialLeaf target := by
  have hhistory : ¬ e.chart.isHistory target := by rwa [h.alike.isHistory_eq]
  rw [Engine.arrival, Engine.remembered?, if_neg hhistory, Option.getD_none,
    Engine.effectiveTarget, if_neg hhistory, h.alike.initialLeaf_eq]

theorem entered_eq (source : StateId) {target : StateId} (htarget : ¬ shape.isHistory target) :
    e.entered source target = arrived source target := by
  have hhistory : ¬ e.chart.isHistory target := by rwa [h.alike.isHistory_eq]
  rw [Engine.entered, Engine.resumed, Engine.chart_exitBelow, if_neg hhistory, Engine.domain,
    Engine.effectiveTarget, if_neg hhistory]
  simp only [h.alike.pathBetween_eq, h.alike.transitionDomain_eq, h.alike.initialDescent_eq,
    arrived]

theorem arrival_history {b : Branch} (hleaf : e.leaf ∈ [b.help, b.timeout]) :
    e.arrival e.leaf b.history =
      (e.history.resume? b.place).getD (shape.initialLeaf b.place) := by
  obtain ⟨hhistory, htarget⟩ := landmarks.effectiveTarget_history b
  rw [Engine.arrival, Engine.remembered?, h.alike.isHistory_eq, if_pos hhistory,
    h.effectiveTarget_eq, htarget, h.alike.initialLeaf_eq, h.left_eq,
    landmarks.departed_history b _ hleaf, History.resume?_recordAll, if_neg]
  rintro ⟨hmem, hcompound⟩
  rw [List.mem_singleton] at hmem
  rw [hmem] at hcompound
  exact h.sound.leaf_atomic hcompound

end Attends

namespace Taken

theorem leaf_initial {event : Event} {source : StateId} {a : Arrow} {s : Engine × StepResult}
    (ht : Taken resolver config e event source a s) (h : Attends resolver config e)
    (hhistory : ¬ shape.isHistory a.target) : s.1.leaf = shape.initialLeaf a.target :=
  ht.leaf_eq.trans (h.arrival_eq source hhistory)

variable {event : Event} {source : StateId} {a : Arrow} {s : Engine × StepResult} {b : Branch}
  (ht : Taken resolver config e event source a s) (h : Attends resolver config e)
  (htarget : a.target ∈ [idle, b.help, b.timeout])
  (hsource : source ∈ shape.lineage e.leaf ∧ source ≠ Chart.root)
include ht h htarget

theorem leaf_top : s.1.leaf = a.target := by
  obtain ⟨hhistory, hinitial⟩ := landmarks.initialLeaf_top b _ htarget
  rw [ht.leaf_initial h hhistory, hinitial]

include hsource

theorem resume?_top (b' : Branch) :
    s.1.history.resume? b'.place =
      if b'.place ∈ shape.lineage e.leaf then some e.leaf else e.history.resume? b'.place := by
  have hdeparted := landmarks.departed_top _ h.leaf_mem_places _ hsource.1 hsource.2 b _ htarget
  obtain ⟨hcompound, hroot⟩ := landmarks.isCompound_place b'
  have hmem : b'.place ∈ departed e.leaf source a.target ↔ b'.place ∈ shape.lineage e.leaf := by
    rw [← hdeparted, List.mem_append, List.mem_singleton, or_iff_left hroot]
  rw [ht.history_eq, History.resume?_recordAll]
  simp only [hmem, hcompound, and_true]

theorem result_top :
    s.2 = .transitioned e.leafPath (shape.path a.target) [shape.path a.target]
      (a.effect.said config e.context ++ announced config s.1.context
        ((departed e.leaf source a.target).foldl Lookups.cancel e.lookups) a.target) := by
  have hplace : source ∈ places := by
    rw [← h.active_eq] at hsource
    have hmem := h.sound.mem_of_active hsource.1
    rw [h.chart_eq] at hmem
    exact mem_places hmem
  have hentered := h.entered_eq source (landmarks.initialLeaf_top b _ htarget).1
  rw [landmarks.arrived_top _ hplace hsource.2 b _ htarget] at hentered
  rw [ht.result_eq, ht.attends.leafPath_eq, ht.attends.configuration_eq, ht.leaf_top h htarget,
    landmarks.lineage_top b _ htarget, hentered, announcedAll, announcedAll, List.append_nil]
  rfl

end Taken

end Setting

end Appointment

end Dialogue
