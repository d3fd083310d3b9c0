import Dialogue.Chart.Path
import Dialogue.Proofs.Text.Occurrence
import Dialogue.Proofs.Text.Trimming
/-!
# The forms of a path

A path is written as it stands, behind a `#`, or behind `#root.`.  Reading it takes off the white
space around it, then the `#`, then the root's name, so that a form is read back as its path just if
none of these is found in the path itself.  The targets of transitions are read in another way,
which comes to the same for their absolute forms.
-/

namespace Dialogue.Path

open Text

/-! ## Taking off the root -/

theorem after?_eq_some_iff {start text rest : List Char} :
    after? start text = some rest ↔ text = start ++ rest := by
  rw [after?, List.isPrefixOf?_eq_some_iff_append_eq, eq_comm]

theorem after?_eq_none_iff {start text : List Char} :
    after? start text = none ↔ ¬ start <+: text :=
  Text.isPrefixOf?_eq_none_iff

def withoutMark (text : List Char) : List Char :=
  (after? ['#'] text).getD text

def belowRoot (path : List Char) : List Char :=
  if path = rootName.toList then [] else withoutRoot path

theorem toList_canonical (raw : String) :
    (canonical raw).toList = belowRoot (withoutMark (trim raw.toList)) := by
  unfold withoutMark belowRoot
  simp only [canonical, apply_ite String.toList, String.toList_empty, String.toList_ofList]

theorem canonical_eq_iff {raw path : String} :
    canonical raw = path ↔ belowRoot (withoutMark (trim raw.toList)) = path.toList := by
  rw [← toList_canonical, String.toList_inj]

theorem withoutMark_cons (text : List Char) : withoutMark ('#' :: text) = text := by
  have hafter : after? ['#'] ('#' :: text) = some text := after?_eq_some_iff.mpr rfl
  rw [withoutMark, hafter, Option.getD_some]

theorem belowRoot_rootName : belowRoot rootName.toList = [] :=
  if_pos rfl

theorem belowRoot_append (path : List Char) : belowRoot ("root.".toList ++ path) = path := by
  have hne : "root.".toList ++ path ≠ rootName.toList := by
    intro heq
    have hlength := congrArg List.length heq
    simp [rootName] at hlength
  have hafter : after? "root.".toList ("root.".toList ++ path) = some path :=
    after?_eq_some_iff.mpr rfl
  rw [belowRoot, if_neg hne, withoutRoot, hafter, Option.getD_some]

theorem withoutMark_sublist (text : List Char) : (withoutMark text).Sublist text := by
  rw [withoutMark]
  cases hafter : after? ['#'] text with
  | none => exact List.Sublist.refl text
  | some rest =>
    rw [after?_eq_some_iff.mp hafter]
    exact List.sublist_append_right _ rest

theorem belowRoot_sublist (path : List Char) : (belowRoot path).Sublist path := by
  rw [belowRoot, withoutRoot]
  split
  · exact List.nil_sublist path
  · cases hafter : after? "root.".toList path with
    | none => exact List.Sublist.refl path
    | some rest =>
      rw [after?_eq_some_iff.mp hafter]
      exact List.sublist_append_right _ rest

/-! ## Paths that are read back -/

def SoundEnd (text : List Char) : Prop :=
  ∀ c ∈ text.getLast?, ¬ isBlank c

def Unmarked (text : List Char) : Prop :=
  ∀ c ∈ text.head?, ¬ isBlank c ∧ c ≠ '#'

/-- A text neither is the root's name nor begins with it as a path does. -/
def Unrooted (text : List Char) : Prop :=
  text ≠ rootName.toList ∧ ¬ "root.".toList <+: text

structure Plain (path : List Char) : Prop where
  unmarked : Unmarked path
  unrooted : Unrooted path
  soundEnd : SoundEnd path

theorem withoutMark_eq_self_iff {text : List Char} :
    withoutMark text = text ↔ ∀ c ∈ text.head?, c ≠ '#' := by
  constructor
  · rintro h c hc rfl
    obtain ⟨rest, rfl⟩ := List.head?_eq_some_iff.mp hc
    rw [withoutMark_cons] at h
    exact List.cons_ne_self _ _ h.symm
  · intro h
    have hnone : after? ['#'] text = none := by
      rw [after?_eq_none_iff]
      rintro ⟨rest, rfl⟩
      exact h '#' rfl rfl
    rw [withoutMark, hnone, Option.getD_none]

theorem belowRoot_eq_self_iff {path : List Char} : belowRoot path = path ↔ Unrooted path := by
  constructor
  · refine fun h => ⟨?_, ?_⟩
    · rintro rfl
      rw [belowRoot_rootName] at h
      simp [rootName] at h
    · rintro ⟨rest, rfl⟩
      rw [belowRoot_append] at h
      have hlength := congrArg List.length h
      simp at hlength
      omega
  · rintro ⟨hne, hprefix⟩
    rw [belowRoot, if_neg hne, withoutRoot, after?_eq_none_iff.mpr hprefix, Option.getD_none]

/-- A path as it stands is read back if nothing is taken off at any stage. -/
theorem canonical_self_iff {path : String} : canonical path = path ↔ Plain path.toList := by
  have hstages : belowRoot (withoutMark (trim path.toList)) = path.toList ↔
      belowRoot path.toList = path.toList ∧ withoutMark path.toList = path.toList ∧
        trim path.toList = path.toList := by
    constructor
    · intro h
      have hmark := belowRoot_sublist (withoutMark (trim path.toList))
      have htrim := withoutMark_sublist (trim path.toList)
      rw [h] at hmark
      have htrimmed : trim path.toList = path.toList :=
        (trim_sublist path.toList).antisymm (hmark.trans htrim)
      rw [htrimmed] at h hmark htrim
      have hunmarked : withoutMark path.toList = path.toList := htrim.antisymm hmark
      exact ⟨by rwa [hunmarked] at h, hunmarked, htrimmed⟩
    · rintro ⟨hroot, hmark, htrim⟩
      rw [htrim, hmark, hroot]
  rw [canonical_eq_iff, hstages, belowRoot_eq_self_iff, withoutMark_eq_self_iff, trim_eq_self_iff]
  constructor
  · rintro ⟨hroot, hmark, hhead, hend⟩
    exact ⟨fun c hc => ⟨hhead c hc, hmark c hc⟩, hroot, hend⟩
  · rintro ⟨hmark, hroot, hend⟩
    exact ⟨hroot, fun c hc => (hmark c hc).2, fun c hc => (hmark c hc).1, hend⟩

theorem canonical_marked_iff {path : String} :
    canonical ("#" ++ path) = path ↔ Unrooted path.toList ∧ SoundEnd path.toList := by
  have htrim : trim ("#" ++ path).toList = '#' :: dropEndWhile isBlank path.toList := by
    rw [String.toList_append]
    exact trim_append ⟨'#', rfl, by decide⟩ ⟨'#', rfl, by decide⟩ path.toList
  rw [canonical_eq_iff, htrim, withoutMark_cons]
  constructor
  · intro h
    have hend : dropEndWhile isBlank path.toList = path.toList := by
      have hbelow := belowRoot_sublist (dropEndWhile isBlank path.toList)
      rw [h] at hbelow
      exact (List.rdropWhile_prefix isBlank _).sublist.antisymm hbelow
    rw [hend, belowRoot_eq_self_iff] at h
    exact ⟨h, dropEndWhile_eq_self_iff.mp hend⟩
  · rintro ⟨hroot, hend⟩
    rw [dropEndWhile_eq_self hend, belowRoot_eq_self_iff.mpr hroot]

/-- Behind the root a path is read back whatever names it has, if white space is not its end. -/
theorem canonical_rooted (path : String) :
    (canonical ("#root." ++ path)).toList = dropEndWhile isBlank path.toList := by
  have hroot : "#root.".toList = '#' :: "root.".toList := rfl
  have htrim : trim ("#root." ++ path).toList =
      '#' :: ("root.".toList ++ dropEndWhile isBlank path.toList) := by
    rw [String.toList_append, hroot]
    exact trim_append ⟨'#', rfl, by decide⟩ ⟨'.', by decide, by decide⟩ path.toList
  rw [toList_canonical, htrim, withoutMark_cons, belowRoot_append]

theorem canonical_rooted_iff {path : String} :
    canonical ("#root." ++ path) = path ↔ SoundEnd path.toList := by
  rw [← String.toList_inj, canonical_rooted, dropEndWhile_eq_self_iff, SoundEnd]

theorem canonical_root : canonical "#root" = "" := by
  decide +kernel

/-! ## Names and paths -/

theorem toList_join (base rest : String) :
    (join base rest).toList =
      if base = "" then rest.toList else base.toList ++ '.' :: rest.toList := by
  have hdot : ".".toList = ['.'] := String.toList_ofList
  rw [join, apply_ite String.toList, String.toList_append, String.toList_append, hdot,
    List.append_assoc]
  rfl

theorem getLast?_join (base : String) {rest : String} (h : rest ≠ "") :
    (join base rest).toList.getLast? = rest.toList.getLast? := by
  have hne : rest.toList ≠ [] := fun hnil => h (String.toList_inj.mp hnil)
  rw [toList_join]
  split
  · rfl
  · rw [List.getLast?_append_of_ne_nil _ (List.cons_ne_nil _ _), List.getLast?_cons_of_ne_nil hne]

theorem unrooted_append {base : List Char} (h : Unrooted base) (name : List Char) :
    Unrooted (base ++ '.' :: name) := by
  have hroot : "root.".toList = rootName.toList ++ ['.'] := rfl
  have hdot : '.' ∉ rootName.toList := by decide +kernel
  refine ⟨fun heq => hdot ?_, ?_⟩
  · rw [← heq]
    exact List.mem_append_right _ List.mem_cons_self
  · rintro ⟨rest, hrest⟩
    rw [hroot, List.append_assoc] at hrest
    -- the dot behind the root's name is the one behind `base`, or it lies in `base`
    rcases List.append_eq_append_iff.mp hrest with ⟨mid, hbase, hmid⟩ | ⟨mid, hname, hmid⟩
    · cases mid with
      | nil => exact h.1 (by rw [hbase, List.append_nil])
      | cons c mid =>
        obtain ⟨rfl, -⟩ := List.cons.inj hmid
        exact h.2 ⟨mid, by rw [hbase, hroot, List.append_assoc]; rfl⟩
    · cases mid with
      | nil => exact h.1 (by rw [hname, List.append_nil])
      | cons c mid =>
        obtain ⟨rfl, -⟩ := List.cons.inj hmid
        exact hdot (hname ▸ List.mem_append_right _ List.mem_cons_self)

theorem plain_empty : Plain "".toList where
  unmarked _ hc := by cases hc
  unrooted := by
    refine ⟨by decide +kernel, fun hprefix => ?_⟩
    cases List.prefix_nil.mp hprefix
  soundEnd _ hc := by cases hc

/-- Below a path that is read back, names matter by their ends only. -/
theorem plain_join {base name : String} (hne : base ≠ "") (h : Plain base.toList)
    (hname : SoundEnd name.toList) : Plain (join base name).toList := by
  have hbase : base.toList ≠ [] := fun hnil => hne (String.toList_inj.mp hnil)
  have hpath : (join base name).toList = base.toList ++ '.' :: name.toList := by
    rw [toList_join, if_neg hne]
  refine ⟨?_, ?_, ?_⟩
  · rw [Unmarked, hpath, List.head?_append_of_ne_nil _ hbase]
    exact h.unmarked
  · rw [hpath]
    exact unrooted_append h.unrooted name.toList
  · by_cases hempty : name = ""
    · subst hempty
      rw [SoundEnd, hpath, String.toList_empty, List.getLast?_concat]
      rintro c ⟨⟩
      decide
    · rwa [SoundEnd, getLast?_join base hempty]

theorem soundEnd_of_join {base name : String} (h : SoundEnd (join base name).toList) :
    SoundEnd name.toList := by
  by_cases hempty : name = ""
  · subst hempty
    rintro c ⟨⟩
  · rwa [SoundEnd, getLast?_join base hempty] at h

/-! ## Targets -/

/-- A target in absolute form, declared by the state at `declaring` whose parent is at `parent`. -/
def absoluteForm (declaring : String) (parent : Option String) (raw : String) : String :=
  match trim raw.toList with
  | '#' :: _ => raw
  | '.' :: rest => "#root." ++ join declaring (String.ofList rest)
  | name => "#root." ++ join (parent.getD declaring) (String.ofList name)

theorem ne_nil_of_wellFormed {path : List Char} (h : wellFormed path) : path ≠ [] := by
  rintro rfl
  cases h

namespace Target

theorem checked_eq_some_iff {form : String → Target} {path : List Char} {target : Target} :
    checked form path = some target ↔ wellFormed path ∧ form (String.ofList path) = target := by
  rw [checked, Option.ite_none_right_eq_some, Option.some.injEq]

section Parse

variable {raw : String} {rest : List Char}

theorem parse?_of_mark (h : trim raw.toList = '#' :: rest) :
    parse? raw =
      if rest = rootName.toList then some (absolute "")
      else checked absolute (withoutRoot rest) := by
  have hafter : after? ['#'] ('#' :: rest) = some rest := after?_eq_some_iff.mpr rfl
  simp only [parse?, h, hafter]

theorem parse?_of_dot (h : trim raw.toList = '.' :: rest) :
    parse? raw = checked descendant rest := by
  have hmark : after? ['#'] ('.' :: rest) = none := by simp [after?_eq_none_iff]
  have hafter : after? ['.'] ('.' :: rest) = some rest := after?_eq_some_iff.mpr rfl
  simp only [parse?, h, hmark, hafter]

theorem parse?_of_name (h : ∀ c ∈ (trim raw.toList).head?, c ≠ '#' ∧ c ≠ '.') :
    parse? raw = checked sibling (trim raw.toList) := by
  have hnone : ∀ mark, mark = '#' ∨ mark = '.' → after? [mark] (trim raw.toList) = none := by
    intro mark hmark
    rw [after?_eq_none_iff]
    rintro ⟨rest, hrest⟩
    have hne := h mark (by rw [← hrest]; rfl)
    rcases hmark with rfl | rfl
    · exact hne.1 rfl
    · exact hne.2 rfl
  simp only [parse?, hnone '#' (Or.inl rfl), hnone '.' (Or.inr rfl)]

variable (raw) in
theorem trim_cases : (∃ rest, trim raw.toList = '#' :: rest) ∨
    (∃ rest, trim raw.toList = '.' :: rest) ∨
      ∀ c ∈ (trim raw.toList).head?, c ≠ '#' ∧ c ≠ '.' := by
  cases htext : trim raw.toList with
  | nil => exact Or.inr (Or.inr fun c hc => by cases hc)
  | cons c rest =>
    by_cases hmark : c = '#'
    · exact Or.inl ⟨rest, by rw [hmark]⟩
    · by_cases hdot : c = '.'
      · exact Or.inr (Or.inl ⟨rest, by rw [hdot]⟩)
      · refine Or.inr (Or.inr fun c' hc' => ?_)
        obtain rfl := Option.some.inj hc'
        exact ⟨hmark, hdot⟩

theorem exists_mark_of_parse? {path : String} (h : parse? raw = some (absolute path)) :
    ∃ rest, trim raw.toList = '#' :: rest := by
  rcases trim_cases raw with hmark | ⟨rest, hrest⟩ | hname
  · exact hmark
  · rw [parse?_of_dot hrest, checked_eq_some_iff] at h
    cases h.2
  · rw [parse?_of_name hname, checked_eq_some_iff] at h
    cases h.2

theorem parse?_eq_absolute_iff {path : String} :
    parse? raw = some (absolute path) ↔
      canonical raw = path ∧ (trim raw.toList = "#root".toList ∨
        (∃ rest, trim raw.toList = '#' :: rest) ∧ wellFormed path.toList) := by
  have hroot : "#root".toList = '#' :: rootName.toList := rfl
  by_cases hmark : ∃ rest, trim raw.toList = '#' :: rest
  · obtain ⟨rest, hrest⟩ := hmark
    have hcanonical : canonical raw = path ↔ belowRoot rest = path.toList := by
      rw [canonical_eq_iff, hrest, withoutMark_cons]
    have hpath : ∀ text, absolute text = absolute path ↔ text.toList = path.toList := by
      intro text
      rw [absolute.injEq, String.toList_inj]
    rw [parse?_of_mark hrest, hcanonical, hrest, hroot, List.cons.injEq]
    by_cases hname : rest = rootName.toList
    · rw [if_pos hname, hname, belowRoot_rootName, Option.some.injEq, hpath, String.toList_empty]
      exact ⟨fun heq => ⟨heq, Or.inl ⟨rfl, rfl⟩⟩, And.left⟩
    · rw [if_neg hname, checked_eq_some_iff, belowRoot, if_neg hname, hpath, String.toList_ofList]
      constructor
      · rintro ⟨hwell, heq⟩
        exact ⟨heq, Or.inr ⟨⟨rest, rfl⟩, heq ▸ hwell⟩⟩
      · rintro ⟨heq, ⟨-, hrestName⟩ | ⟨-, hwell⟩⟩
        · exact absurd hrestName hname
        · exact ⟨heq ▸ hwell, heq⟩
  · refine iff_of_false (fun h => hmark (exists_mark_of_parse? h)) ?_
    rintro ⟨-, htext | ⟨hexists, -⟩⟩
    · exact hmark ⟨_, htext.trans hroot⟩
    · exact hmark hexists

end Parse

theorem soundEnd_join (base : String) {rest : List Char} (hne : rest ≠ []) (h : SoundEnd rest) :
    SoundEnd (join base (String.ofList rest)).toList := by
  have hname : String.ofList rest ≠ "" := by
    rw [ne_eq, ← String.toList_inj, String.toList_ofList]
    exact hne
  rw [SoundEnd, getLast?_join base hname, String.toList_ofList]
  exact h

/-- Any target, once in absolute form, is looked up where it is resolved to. -/
theorem canonical_absoluteForm {raw : String} {target : Target} (h : parse? raw = some target)
    (declaring : String) (parent : Option String) :
    canonical (absoluteForm declaring parent raw) = target.resolve declaring parent := by
  have hend : SoundEnd (trim raw.toList) := fun c hc => not_of_mem_getLast?_dropEndWhile hc
  rcases trim_cases raw with ⟨rest, hrest⟩ | ⟨rest, hrest⟩ | hname
  · obtain ⟨path, rfl⟩ : ∃ path, target = absolute path := by
      rw [parse?_of_mark hrest] at h
      split at h
      · exact ⟨_, (Option.some.inj h).symm⟩
      · exact ⟨_, (checked_eq_some_iff.mp h).2.symm⟩
    have hform : absoluteForm declaring parent raw = raw := by simp only [absoluteForm, hrest]
    rw [hform]
    exact (parse?_eq_absolute_iff.mp h).1
  · rw [parse?_of_dot hrest, checked_eq_some_iff] at h
    obtain ⟨hwell, rfl⟩ := h
    have hne := ne_nil_of_wellFormed hwell
    rw [hrest, SoundEnd, List.getLast?_cons_of_ne_nil hne] at hend
    simp only [absoluteForm, hrest]
    exact canonical_rooted_iff.mpr (soundEnd_join declaring hne hend)
  · rw [parse?_of_name hname, checked_eq_some_iff] at h
    obtain ⟨hwell, rfl⟩ := h
    have hform : absoluteForm declaring parent raw =
        "#root." ++ join (parent.getD declaring) (String.ofList (trim raw.toList)) := by
      unfold absoluteForm
      split
      · next hrest => exact absurd rfl (hname _ (by rw [hrest]; rfl)).1
      · next hrest => exact absurd rfl (hname _ (by rw [hrest]; rfl)).2
      · rfl
    rw [hform]
    exact canonical_rooted_iff.mpr (soundEnd_join _ (ne_nil_of_wellFormed hwell) hend)

end Target

end Dialogue.Path
