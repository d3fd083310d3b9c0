import Dialogue.Proofs.Text.NormalForm
import Mathlib.Data.Finset.Card
/-!
# Phrases of a grammar

A grammar is made by adding rules, phrase by phrase.  Of the rules whose phrases have the same
normal form the last one counts, for every utterance that has it too.  In which order rules are
added matters only between such phrases.
-/

namespace Dialogue

namespace Table

variable {κ α : Type} [DecidableEq κ]

theorem size_ofList (pairs : List (κ × α)) :
    (ofList pairs).size = (pairs.map Prod.fst).toFinset.card := by
  have hkeys : ((ofList pairs).entries.map Prod.fst).toFinset = (pairs.map Prod.fst).toFinset := by
    ext k
    rw [List.mem_toFinset, List.mem_toFinset, mem_keys_ofList]
  rw [← hkeys, List.toFinset_card_of_nodup (ofList pairs).keys_nodup, List.length_map, size]

end Table

structure PhraseRule extends GrammarRule where
  phrase : String

namespace PhraseRule

def key (r : PhraseRule) : String :=
  normalize r.phrase

/-- The last of the rules whose phrases have the normal form of an utterance. -/
def LastFor (rules : List PhraseRule) (utterance : String) (r : PhraseRule) : Prop :=
  ∃ before after, rules = before ++ r :: after ∧ r.key = normalize utterance ∧
    ∀ r' ∈ after, r'.key ≠ normalize utterance

def Carries (r : PhraseRule) (category : String) (entity : Entity) : Prop :=
  ∃ before after, r.entities = before ++ entity :: after ∧ entity.category = category ∧
    ∀ entity' ∈ before, entity'.category ≠ category

theorem find?_reverse_eq_some_iff {rules : List PhraseRule} {utterance : String}
    {r : PhraseRule} :
    (rules.reverse.find? fun r => r.key = normalize utterance) = some r ↔
      LastFor rules utterance r := by
  rw [List.find?_eq_some_iff_append]
  constructor
  · rintro ⟨hkey, after, before, hrules, hafter⟩
    refine ⟨before.reverse, after.reverse, ?_, of_decide_eq_true hkey, fun r' hr' => ?_⟩
    · rw [← List.reverse_reverse rules, hrules]
      simp
    · simpa using hafter r' (List.mem_reverse.mp hr')
  · rintro ⟨before, after, rfl, hkey, hafter⟩
    refine ⟨decide_eq_true hkey, after.reverse, before.reverse, by simp, fun r' hr' => ?_⟩
    simpa using hafter r' (List.mem_reverse.mp hr')

theorem find?_entities_eq_some_iff {r : PhraseRule} {category : String} {entity : Entity} :
    (r.entities.find? fun e => e.category = category) = some entity ↔
      r.Carries category entity := by
  rw [List.find?_eq_some_iff_append]
  constructor
  · rintro ⟨hcategory, before, after, hentities, hbefore⟩
    exact ⟨before, after, hentities, of_decide_eq_true hcategory,
      fun entity' hmem => by simpa using hbefore entity' hmem⟩
  · rintro ⟨before, after, hentities, hcategory, hbefore⟩
    exact ⟨decide_eq_true hcategory, before, after, hentities,
      fun entity' hmem => by simpa using hbefore entity' hmem⟩

end PhraseRule

namespace Grammar

def addAll (g : Grammar) (rules : List PhraseRule) : Grammar :=
  rules.foldl (fun g r => g.rule r.phrase r.intent r.entities) g

/-! ## What is kept -/

theorem rules_addAll (g : Grammar) (rules : List PhraseRule) :
    (g.addAll rules).rules =
      (rules.map fun r => (r.key, r.toGrammarRule)).foldl (fun t p => t.insert p.1 p.2)
        g.rules := by
  induction rules generalizing g with
  | nil => rfl
  | cons r rules ih => exact ih (g.rule r.phrase r.intent r.entities)

theorem rules_ofRules (rules : List PhraseRule) :
    (empty.addAll rules).rules = .ofList (rules.map fun r => (r.key, r.toGrammarRule)) :=
  rules_addAll empty rules

theorem get?_addAll (rules : List PhraseRule) (utterance : String) :
    (empty.addAll rules).get? utterance =
      (rules.reverse.find? fun r => r.key = normalize utterance).map
        PhraseRule.toGrammarRule := by
  rw [get?, rules_ofRules, Table.get?_ofList, ← List.map_reverse, List.find?_map, Option.map_map]
  simp only [Function.comp_def]

theorem entity?_addAll (rules : List PhraseRule) (utterance category : String) :
    (empty.addAll rules).entity? utterance category =
      (rules.reverse.find? fun r => r.key = normalize utterance).bind fun r =>
        (r.entities.find? fun e => e.category = category).map Entity.text := by
  rw [entity?, get?_addAll]
  cases rules.reverse.find? fun r => decide (r.key = normalize utterance) with
  | none => rfl
  | some r => cases h : r.entities.find? fun e => decide (e.category = category) <;> simp [h]

theorem size_addAll (rules : List PhraseRule) :
    (empty.addAll rules).size = (rules.map PhraseRule.key).toFinset.card := by
  rw [size, rules_ofRules, Table.size_ofList, List.map_map]
  rfl

theorem get?_normalize (g : Grammar) (utterance : String) :
    g.get? (normalize utterance) = g.get? utterance := by
  rw [get?, normalize_normalize, get?]

/-! ## The order of rules -/

structure Agree (g g' : Grammar) : Prop where
  get?_eq : ∀ utterance, g.get? utterance = g'.get? utterance
  intent?_eq : ∀ utterance, g.intent? utterance = g'.intent? utterance
  entity?_eq : ∀ utterance category, g.entity? utterance category = g'.entity? utterance category
  size_eq : g.size = g'.size

/-- Two rules for different phrases may be added in either order. -/
theorem agree_of_key_ne (before after : List PhraseRule) {r r' : PhraseRule}
    (hne : r.key ≠ r'.key) :
    Agree (empty.addAll (before ++ r :: r' :: after))
      (empty.addAll (before ++ r' :: r :: after)) := by
  have hget : ∀ utterance, (empty.addAll (before ++ r :: r' :: after)).get? utterance =
      (empty.addAll (before ++ r' :: r :: after)).get? utterance := by
    intro utterance
    have hfind : ((before ++ r :: r' :: after).reverse.find? fun s => s.key = normalize utterance) =
        (before ++ r' :: r :: after).reverse.find? fun s => s.key = normalize utterance := by
      simp only [List.reverse_append, List.reverse_cons, List.find?_append, List.find?_singleton]
      by_cases hr : r.key = normalize utterance
      · have hr' : r'.key ≠ normalize utterance := fun heq => hne (hr.trans heq.symm)
        simp [hr, hr']
      · simp [hr]
    rw [get?_addAll, get?_addAll, hfind]
  refine ⟨hget, fun utterance => ?_, fun utterance category => ?_, ?_⟩
  · rw [intent?, intent?, hget]
  · rw [entity?, entity?, hget]
  · have hperm : (before ++ r :: r' :: after).Perm (before ++ r' :: r :: after) :=
      (List.Perm.swap r' r after).append_left before
    rw [size_addAll, size_addAll, List.toFinset_eq_of_perm _ _ (hperm.map PhraseRule.key)]

/-! ## Grammars by their rules -/

structure MadeOf (g : Grammar) (rules : List PhraseRule) : Prop where
  get?_eq_some_iff : ∀ utterance rule, g.get? utterance = some rule ↔
    ∃ r, PhraseRule.LastFor rules utterance r ∧ r.toGrammarRule = rule
  get?_eq_none_iff : ∀ utterance, g.get? utterance = none ↔
    ∀ r ∈ rules, r.key ≠ normalize utterance
  entity?_eq_some_iff : ∀ utterance category text,
    g.entity? utterance category = some text ↔
      ∃ r entity, PhraseRule.LastFor rules utterance r ∧ r.Carries category entity ∧
        entity.text = text
  size_eq : g.size = (rules.map PhraseRule.key).toFinset.card
  get?_normalize : ∀ utterance, g.get? (normalize utterance) = g.get? utterance

/-- The grammar made by adding `rules` answers as `MadeOf` tells.  Neighbours whose phrases have
different normal forms may be exchanged. -/
theorem madeOf_addAll (rules : List PhraseRule) :
    (empty.addAll rules).MadeOf rules ∧
      ∀ before r r' after, rules = before ++ r :: r' :: after →
        normalize r.phrase ≠ normalize r'.phrase →
          Agree (empty.addAll rules) (empty.addAll (before ++ r' :: r :: after)) := by
  refine ⟨⟨fun utterance rule => ?_, fun utterance => ?_, fun utterance category text => ?_,
    size_addAll rules, get?_normalize _⟩, ?_⟩
  · rw [get?_addAll, Option.map_eq_some_iff]
    simp only [PhraseRule.find?_reverse_eq_some_iff]
  · rw [get?_addAll, Option.map_eq_none_iff, List.find?_eq_none]
    simp only [List.mem_reverse, decide_eq_true_eq, ne_eq]
  · rw [entity?_addAll, Option.bind_eq_some_iff]
    simp only [PhraseRule.find?_reverse_eq_some_iff, Option.map_eq_some_iff,
      PhraseRule.find?_entities_eq_some_iff, ← exists_and_left]
  · rintro before r r' after rfl hne
    exact agree_of_key_ne before after hne

def tenRule : PhraseRule where
  phrase := "At 10."
  intent := "time"
  entities := [⟨"time", "10"⟩]

def lunchRule : PhraseRule where
  phrase := "lunch"
  intent := "meeting"
  entities := [⟨"title", "lunch"⟩]

def lateTenRule : PhraseRule where
  phrase := " AT 10"
  intent := "late"
  entities := [⟨"day", "friday"⟩, ⟨"time", "22"⟩, ⟨"time", "10"⟩]

theorem madeOf_addAll_ten :
    normalize tenRule.phrase ≠ normalize lunchRule.phrase ∧
      (empty.addAll [tenRule, lunchRule, lateTenRule]).entity? "at 10?" "time" = some "22" ∧
      (empty.addAll [tenRule, lunchRule, lateTenRule]).size = 2 ∧
      Agree (empty.addAll [tenRule, lunchRule, lateTenRule])
        (empty.addAll [lunchRule, tenRule, lateTenRule]) := by
  have hne : normalize tenRule.phrase ≠ normalize lunchRule.phrase := by decide +kernel
  have hlast : PhraseRule.LastFor [tenRule, lunchRule, lateTenRule] "at 10?" lateTenRule :=
    ⟨[tenRule, lunchRule], [], rfl, by decide +kernel, by simp⟩
  have hcarries : lateTenRule.Carries "time" ⟨"time", "22"⟩ :=
    ⟨[⟨"day", "friday"⟩], [⟨"time", "10"⟩], rfl, rfl, by simp⟩
  obtain ⟨hmade, hagree⟩ := madeOf_addAll [tenRule, lunchRule, lateTenRule]
  refine ⟨hne, ?_, ?_, hagree [] tenRule lunchRule [lateTenRule] rfl hne⟩
  · exact (hmade.entity?_eq_some_iff _ _ _).mpr ⟨_, _, hlast, hcarries, rfl⟩
  · exact hmade.size_eq.trans (by decide +kernel)

end Grammar

end Dialogue
