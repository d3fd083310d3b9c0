import Dialogue.Engine.Basic
import Dialogue.Proofs.Chart.Arena
import Dialogue.Proofs.Chart.PathForms
/-!
# Looking up states

A state is looked up by a text, which is read back as a path.  So a state is found under a form of
its path just if that form is read back: behind the root's name nearly always, and in every form if
the names that lead to it are plain.  Targets, once they are in absolute form, are looked up where
building the chart has resolved them to.
-/

namespace Dialogue

open Dialogue.Path (SoundEnd Unmarked Unrooted Plain)

namespace Chart

structure Finds (c : Chart) (raw : String) (id : StateId) : Prop where
  lookup?_eq : c.lookup? raw = some id
  isIn_iff : ∀ {e : Engine}, e.chart = c → (e.isIn raw ↔ id ∈ e.active)

structure FoundInAllForms (c : Chart) (id : StateId) : Prop where
  bare : c.Finds (c.path id) id
  marked : c.Finds ("#" ++ c.path id) id
  rooted : c.Finds ("#root." ++ c.path id) id

structure FoundByPath (c : Chart) (id : StateId) : Prop where
  bare : c.Finds (c.path id) id ↔ Plain (c.path id).toList
  marked : c.Finds ("#" ++ c.path id) id ↔
    Unrooted (c.path id).toList ∧ SoundEnd (c.path id).toList
  rooted : c.Finds ("#root." ++ c.path id) id ↔ SoundEnd (c.path id).toList

theorem finds_iff {c : Chart} {raw : String} {id : StateId} :
    c.Finds raw id ↔ c.lookup? raw = some id := by
  refine ⟨Finds.lookup?_eq, fun h => ⟨h, ?_⟩⟩
  rintro e rfl
  rw [Engine.isIn, h, Option.any_some, List.contains_iff_mem]

namespace Arena

variable {c : Chart} (h : c.Arena)
include h

theorem finds_iff_canonical {raw : String} {id : StateId} (hid : id ∈ c) :
    c.Finds raw id ↔ Path.canonical raw = c.path id := by
  obtain ⟨n, hn⟩ := mem_iff_exists_node?.mp hid
  rw [finds_iff, lookup?, h.find?_eq_some_iff, path, hn]
  simp [eq_comm]

theorem foundByPath {id : StateId} (hid : id ∈ c) : c.FoundByPath id where
  bare := (h.finds_iff_canonical hid).trans Path.canonical_self_iff
  marked := (h.finds_iff_canonical hid).trans Path.canonical_marked_iff
  rooted := (h.finds_iff_canonical hid).trans Path.canonical_rooted_iff

theorem foundInAllForms_iff {id : StateId} (hid : id ∈ c) :
    c.FoundInAllForms id ↔ Plain (c.path id).toList := by
  have hforms := h.foundByPath hid
  refine ⟨fun hall => hforms.bare.mp hall.bare, fun hplain => ?_⟩
  exact ⟨hforms.bare.mpr hplain, hforms.marked.mpr ⟨hplain.unrooted, hplain.soundEnd⟩,
    hforms.rooted.mpr hplain.soundEnd⟩

theorem finds_root : c.Finds "#root" root := by
  rw [h.finds_iff_canonical h.root_mem, h.path_root, Path.canonical_root]

end Arena

end Chart

namespace ChartDef

open StateDef (Placed)

/-! ## Plain names -/

/-- No name ends with white space, and none outside all others is taken for a mark or the root. -/
structure PlainNames (d : ChartDef) : Prop where
  soundEnd : ∀ {a p}, a ≠ [] → d.at? a = some p → SoundEnd p.definition.name.toList
  unmarked : ∀ {i p}, d.at? [i] = some p → Unmarked p.definition.name.toList
  unrooted : ∀ {i p}, d.at? [i] = some p → Unrooted p.definition.name.toList

theorem path_of_at?_singleton {d : ChartDef} {i : Nat} {p : Placed} (h : d.at? [i] = some p) :
    p.path = p.definition.name := by
  rw [at?, Placed.at?_singleton] at h
  rw [(Placed.parent_of_child? h).2]
  exact if_pos rfl

theorem plainNames_of_plain_path {d : ChartDef}
    (h : ∀ {a p}, d.at? a = some p → Plain p.path.toList) : d.PlainNames where
  soundEnd {a p} hne hp := by
    rcases top_or_child?_of_at? hp with ⟨hnil, -⟩ | ⟨b, i, q, -, -, hchild⟩
    · exact absurd hnil hne
    · have hend := (h hp).soundEnd
      rw [(Placed.parent_of_child? hchild).2] at hend
      exact Path.soundEnd_of_join hend
  unmarked hp := by
    rw [← path_of_at?_singleton hp]
    exact (h hp).unmarked
  unrooted hp := by
    rw [← path_of_at?_singleton hp]
    exact (h hp).unrooted

theorem PlainNames.plain_path {d : ChartDef} (h : d.PlainNames) (hvalid : d.Valid) {a : Address}
    {p : Placed} (hp : d.at? a = some p) : Plain p.path.toList := by
  induction a using List.reverseRecOn generalizing p with
  | nil =>
    obtain rfl := Option.some.inj hp
    exact Path.plain_empty
  | append_singleton b i ih =>
    have hname := h.soundEnd (List.append_ne_nil_of_right_ne_nil b (List.cons_ne_nil i [])) hp
    obtain ⟨q, hq, hchild⟩ := at?_concat_eq_some_iff.mp hp
    have hpath := (Placed.parent_of_child? hchild).2
    by_cases hempty : q.path = ""
    -- only the root has an empty path
    · obtain rfl : b = [] := hvalid.distinct hq (p := q) (q := d.top) rfl hempty
      rw [path_of_at?_singleton hp]
      exact ⟨h.unmarked hp, h.unrooted hp, hname⟩
    · rw [hpath]
      exact Path.plain_join hempty (ih hq) hname

/-- Each state is `FoundByPath`: a form of its path finds it just if `canonical` reads the form back
as the path.  All states are found in all forms just if `d` has `PlainNames`. -/
theorem found_of_build {d : ChartDef} {c : Chart} (h : d.build = .ok c) :
    (∀ id ∈ c, c.FoundByPath id) ∧ c.Finds "#root" Chart.root ∧
      ((∀ id ∈ c, c.FoundInAllForms id) ↔ d.PlainNames) := by
  have harena := arena h
  refine ⟨fun id hid => harena.foundByPath hid, harena.finds_root, ?_⟩
  constructor
  · intro hall
    refine plainNames_of_plain_path fun {a p} hp => ?_
    have hp' := mem_layout_iff.mpr ⟨a, hp⟩
    have hplain := (harena.foundInAllForms_iff (place_mem_of_build h hp')).mp
      (hall _ (place_mem_of_build h hp'))
    rwa [path_place_of_build h hp'] at hplain
  · intro hnames id hid
    obtain ⟨p, hp, rfl⟩ := exists_placed_of_mem h hid
    obtain ⟨a, ha⟩ := mem_layout_iff.mp hp
    rw [harena.foundInAllForms_iff hid, path_place_of_build h hp]
    exact hnames.plain_path (valid_of_build h) ha

def plantDefinition : ChartDef where
  initial := "leaf"
  states :=
    [(StateDef.atomic "leaf").on .click [{ target := "root" }],
      (StateDef.compound "root" "hair").containing [StateDef.atomic "hair"]]

theorem path_hair : plantDefinition.chart.path ⟨3⟩ = "root.hair" := rfl

/-- A state outside all others is called `root`, so its child is found under `#root.root.hair`
alone. -/
theorem found_of_build_plant :
    plantDefinition.build = .ok plantDefinition.chart ∧
      plantDefinition.chart.Finds "#root.root.hair" ⟨3⟩ ∧
      ¬ plantDefinition.chart.Finds "root.hair" ⟨3⟩ ∧
      ¬ plantDefinition.chart.Finds "#root.hair" ⟨3⟩ ∧ ¬ plantDefinition.PlainNames := by
  have hbuild := build_eq_ok (d := plantDefinition) rfl
  obtain ⟨hfound, -, hall⟩ := found_of_build hbuild
  have hmem : (⟨3⟩ : StateId) ∈ plantDefinition.chart := Chart.mem_def.mpr (by decide)
  have hhair := hfound ⟨3⟩ hmem
  have hend : SoundEnd "root.hair".toList := by
    have hlast : "root.hair".toList.getLast? = some 'r' := by decide +kernel
    rw [SoundEnd, hlast]
    rintro c ⟨⟩
    decide
  have hrooted : ¬ Unrooted "root.hair".toList := fun hroot => hroot.2 (by decide +kernel)
  have hbare : ¬ plantDefinition.chart.Finds "root.hair" ⟨3⟩ := fun hfinds =>
    hrooted (hhair.bare.mp hfinds).unrooted
  refine ⟨hbuild, hhair.rooted.mpr hend, hbare, ?_, ?_⟩
  · exact fun hfinds => hrooted (hhair.marked.mp hfinds).1
  · exact fun hnames => hbare (hall.mpr hnames ⟨3⟩ hmem).bare

/-- `root.hair` is the path of `3`, and `3` is found behind `#root.` but neither bare nor behind
`#`. -/
theorem misses_hair :
    plantDefinition.build = .ok plantDefinition.chart ∧
      plantDefinition.chart.path ⟨3⟩ = "root.hair" ∧
      plantDefinition.chart.lookup? ("#root." ++ "root.hair") = some ⟨3⟩ ∧
      plantDefinition.chart.lookup? "root.hair" = none ∧
      plantDefinition.chart.lookup? ("#" ++ "root.hair") = none := by
  have hbuild := build_eq_ok (d := plantDefinition) rfl
  refine ⟨hbuild, path_hair, ?_, ?_, ?_⟩ <;> decide +kernel

/-! ## Targets -/

theorem map_path_parent {d : ChartDef} {c : Chart} (h : d.build = .ok c) {a : Address}
    {p : Placed} (hp : d.at? a = some p) :
    (p.parent.map Prod.fst).map c.path = p.parent.map Prod.snd := by
  rcases top_or_child?_of_at? hp with ⟨-, rfl⟩ | ⟨b, i, q, -, hq, hchild⟩
  · rfl
  · rw [(Placed.parent_of_child? hchild).1, Option.map_some, Option.map_some, Option.map_some,
      path_place_of_build h (mem_layout_iff.mpr ⟨b, hq⟩)]

theorem Names.lookup?_absoluteForm {d : ChartDef} {c : Chart} (h : d.build = .ok c) {p : Placed}
    {raw : String} {id : StateId} (hnames : d.Names p raw id) :
    c.lookup? (Path.absoluteForm p.path (p.parent.map Prod.snd) raw) = some id := by
  obtain ⟨target, hparse, b, q, hq, hpath, rfl⟩ := hnames
  rw [Chart.lookup?, Path.Target.canonical_absoluteForm hparse, find?_eq_some_iff h]
  exact ⟨_, node?_place_of_build h (mem_layout_iff.mpr ⟨b, hq⟩), hpath⟩

/-- Every transition leads to the state that `lookup?` finds for its target in absolute form, and
`parse?` reads a target as absolute with the path that `canonical` gives. -/
theorem targets_of_build {d : ChartDef} {c : Chart} (h : d.build = .ok c) :
    (∀ {a p}, d.at? a = some p → ∃ n, c.node? p.place = some n ∧
      List.Forall₂ (fun declared t => t.1 = declared.1 ∧
          c.lookup? (Path.absoluteForm n.path (n.parent.map c.path) declared.2.target) =
            some t.2.target)
        p.definition.transitions n.transitions) ∧
      ∀ raw path, Path.Target.parse? raw = some (.absolute path) ↔
        Path.canonical raw = path ∧ (Text.trim raw.toList = "#root".toList ∨
          (∃ rest, Text.trim raw.toList = '#' :: rest) ∧ Path.wellFormed path.toList) := by
  refine ⟨fun {a p} hp => ?_, fun raw path => Path.Target.parse?_eq_absolute_iff⟩
  refine ⟨_, node?_place_of_build h (mem_layout_iff.mpr ⟨a, hp⟩), ?_⟩
  rw [transitions_node (valid_of_build h) hp, List.forall₂_map_right_iff, List.forall₂_same]
  rintro ⟨kind, t⟩ ht
  have hnames := names_aim (valid_of_build h) hp ht
  refine ⟨rfl, ?_⟩
  rw [node, map_path_parent h hp]
  exact hnames.lookup?_absoluteForm h

def stem : StateDef :=
  (StateDef.atomic "stem").on .click
    [{ target := " #root.root.hair ", guard := some .never },
      { target := "root.#tip", guard := some .never }, { target := "\t#root" }]

def graftDefinition : ChartDef where
  initial := "stem"
  states :=
    [stem,
      ((StateDef.compound "root" "hair").on .click [{ target := ".#tip " }]).containing
        [StateDef.atomic "hair", StateDef.atomic "#tip"]]

theorem targets_of_build_graft :
    graftDefinition.build = .ok graftDefinition.chart ∧
      graftDefinition.at? [0] = some ⟨⟨1⟩, "stem", some (Chart.root, ""), stem⟩ ∧
        (∃ n, graftDefinition.chart.node? ⟨1⟩ = some n ∧
          n.transitions.map (fun t => t.2.target) = [⟨3⟩, ⟨4⟩, Chart.root]) ∧
          graftDefinition.chart.lookup? " #root.root.hair " = some ⟨3⟩ ∧
            graftDefinition.chart.lookup? ("#root." ++ "root.#tip") = some ⟨4⟩ ∧
              graftDefinition.chart.lookup? "\t#root" = some Chart.root ∧
                Path.canonical "# root.a#b" = " root.a#b" := by
  have hbuild := build_eq_ok (d := graftDefinition) rfl
  obtain ⟨hstates, hread⟩ := targets_of_build hbuild
  have hstem : graftDefinition.at? [0] = some ⟨⟨1⟩, "stem", some (Chart.root, ""), stem⟩ := rfl
  obtain ⟨n, hn, htargets⟩ := hstates hstem
  obtain rfl := Option.some.inj hn
  obtain ⟨⟨-, hhair⟩, htargets⟩ := List.forall₂_cons.mp htargets
  obtain ⟨⟨-, htip⟩, htargets⟩ := List.forall₂_cons.mp htargets
  obtain ⟨⟨-, hroot⟩, -⟩ := List.forall₂_cons.mp htargets
  have hmarked : Path.Target.parse? "# root.a#b" = some (.absolute " root.a#b") := by
    decide +kernel
  exact ⟨hbuild, hstem, ⟨_, hn, rfl⟩, hhair, htip, hroot, ((hread _ _).mp hmarked).1⟩

end ChartDef

end Dialogue
