import Dialogue.Proofs.Appointment.Landmarks
/-!
# Silence

Silences are counted from the last turn, reset or beginning on.  Wherever the assistant talks, a
silence below the limit is followed by an apology, and the one that reaches the limit by a reset.
-/

namespace Dialogue

/-! ## Counting -/

def Context.silences (ctx : Context) : Nat :=
  (ctx.retryCount.map UInt32.toNat).getD 0

namespace RetryPolicy

theorem toNat_nextCount {ctx : Context} (h : ctx.silences + 1 < UInt32.size) :
    (nextCount ctx).toNat = ctx.silences + 1 := by
  unfold nextCount
  cases hcount : ctx.retryCount with
  | none => simp [Context.silences, hcount]
  | some n =>
    simp only [Context.silences, hcount, Option.map_some, Option.getD_some] at h ⊢
    rw [if_pos h, UInt32.toNat_add]
    exact Nat.mod_eq_of_lt h

theorem escalates_iff {p : RetryPolicy} {ctx : Context} :
    p.escalates ctx ↔ p.maxTimeouts.toNat ≤ ctx.silences + 1 := by
  rw [escalates, decide_eq_true_iff, UInt32.le_iff_toNat_le]
  by_cases h : ctx.silences + 1 < UInt32.size
  · rw [toNat_nextCount h]
  · -- the count has stopped at the largest number, which no limit exceeds
    obtain ⟨n, hcount⟩ : ∃ n, ctx.retryCount = some n := by
      cases hcount : ctx.retryCount with
      | none => simp [Context.silences, hcount, UInt32.size] at h
      | some n => exact ⟨n, rfl⟩
    simp only [Context.silences, hcount, Option.map_some, Option.getD_some] at h ⊢
    have hlimit := p.maxTimeouts.toNat_lt
    have hn := n.toNat_lt
    simp only [nextCount, hcount, if_neg h]
    simp only [UInt32.size] at h
    omega

end RetryPolicy

/-! ## Streaks -/

def endsSilence : Event × StepResult → Bool
  | (.recognised _, _) => true
  | (.timeout, .transitioned _ target _ _) => target == "idle"
  | _ => false

def isSilence : Event × StepResult → Bool
  | (.timeout, .transitioned _ _ _ _) => true
  | _ => false

/-- The number of silences since the last step that put an end to them. -/
def streak (past : List (Event × StepResult)) : Nat :=
  (past.reverse.takeWhile fun s => !endsSilence s).countP isSilence

theorem streak_append (past : List (Event × StepResult)) (s : Event × StepResult) :
    streak (past ++ [s]) =
      if endsSilence s then 0 else streak past + if isSilence s then 1 else 0 := by
  unfold streak
  rw [List.reverse_append, List.reverse_singleton, List.singleton_append]
  cases h : endsSilence s <;> simp [h, List.countP_cons]

namespace Engine

def told (e : Engine) (events : List Event) : List (Event × StepResult) :=
  events.zip (e.run events).2

theorem told_concat (e : Engine) (events : List Event) (event : Event) :
    e.told (events ++ [event]) = e.told events ++ [(event, ((e.run events).1.step event).2)] := by
  rw [told, run_concat, List.zip_append (length_run e events).symm]
  rfl

theorem last?_journal_step {e : Engine} {event : Event} {source target : String}
    {configuration : List String} {directives : List Directive}
    (h : (e.step event).2 = .transitioned source target configuration directives) :
    (e.step event).1.journal.last? = some
      { source, target, event := event.kind
        attempt := (e.step event).1.context.retryCount.getD 0 } := by
  rcases step_cases e event with
    ⟨-, -, hstep⟩ | ⟨e', -, ⟨-, _, -, hstep⟩ | ⟨id, t, -, hstep⟩⟩
  · rw [hstep] at h
    cases h
  · rw [hstep] at h
    cases h
  · rw [hstep] at h ⊢
    obtain ⟨rfl, rfl, -, -⟩ := StepResult.transitioned.inj h
    exact List.getLast?_concat

end Engine

namespace Appointment

theorem problems_of_chart {resolver : Resolver} {config : Config} {c : Chart}
    (h : Appointment.chart resolver config = .ok c) : config.problems = [] := by
  unfold Appointment.chart at h
  split at h
  · cases h
  · next hvalid =>
    unfold Config.validate at hvalid
    split at hvalid
    · next hnil => exact hnil
    · cases hvalid

theorem limit_pos {resolver : Resolver} {config : Config} {c : Chart}
    (h : Appointment.chart resolver config = .ok c) : 0 < config.maxTimeouts.toNat := by
  have hproblems := problems_of_chart h
  simp only [Config.problems, List.append_eq_nil_iff] at hproblems
  have hpos : 0 < config.maxTimeouts := by
    by_contra hzero
    rw [if_neg hzero] at hproblems
    cases hproblems.1.2
  exact UInt32.lt_iff_toNat_lt.mp hpos

/-! ## The count of an engine -/

/-- A context has counted `n` silences, fewer than the limit. -/
structure Counted (limit : UInt32) (n : Nat) (ctx : Context) : Prop where
  count_eq : ctx.retryCount.map UInt32.toNat = if n = 0 then none else some n
  lt_limit : n < limit.toNat

theorem Counted.silences_eq {limit : UInt32} {n : Nat} {ctx : Context}
    (h : Counted limit n ctx) : ctx.silences = n := by
  rw [Context.silences, h.count_eq]
  split
  · next hzero => rw [hzero, Option.getD_none]
  · rfl

theorem counted_zero {limit : UInt32} (hpos : 0 < limit.toNat) {ctx : Context}
    (hcount : ctx.retryCount = none) : Counted limit 0 ctx :=
  ⟨by rw [hcount]; rfl, hpos⟩

theorem Counted.toNat_nextCount {limit : UInt32} {n : Nat} {ctx : Context}
    (h : Counted limit n ctx) : (RetryPolicy.nextCount ctx).toNat = n + 1 := by
  have hsize : ctx.silences + 1 < UInt32.size := by
    have hlimit := limit.toNat_lt
    have hlt := h.lt_limit
    rw [h.silences_eq, UInt32.size]
    omega
  rw [RetryPolicy.toNat_nextCount hsize, h.silences_eq]

theorem Counted.record {limit : UInt32} {n : Nat} {ctx : Context} (h : Counted limit n ctx)
    (hlt : n + 1 < limit.toNat) : Counted limit (n + 1) (RetryPolicy.record ctx) := by
  refine ⟨?_, hlt⟩
  rw [RetryPolicy.record, Option.map_some, h.toNat_nextCount, if_neg (Nat.succ_ne_zero n)]

theorem Effect.retryCount_apply (resolver : Resolver) (config : Config) (ctx : Context)
    (event : Event) {effect : Effect} (hrestart : effect ≠ .restart) (hretry : effect ≠ .retry) :
    (effect.apply resolver config ctx event).retryCount = ctx.retryCount := by
  rcases effect with _ | _ | (_ | _) | _ | _ | _ <;> first | rfl | contradiction

section Setting

variable {resolver : Resolver} {config : Config} {e : Engine}

theorem Branch.timeoutName_ne_idle (b : Branch) : Support.timeoutName b.name ≠ "idle" := by
  cases b <;> decide

def silenceArrow (config : Config) (b : Branch) (ctx : Context) : Arrow :=
  if config.retryPolicy.escalates ctx then .restart else .retry b

theorem silenceArrow_cases (config : Config) (b : Branch) (ctx : Context) :
    (config.maxTimeouts.toNat ≤ ctx.silences + 1 ∧ silenceArrow config b ctx = .restart) ∨
      (ctx.silences + 1 < config.maxTimeouts.toNat ∧ silenceArrow config b ctx = .retry b) := by
  rw [silenceArrow]
  by_cases h : config.retryPolicy.escalates ctx
  · exact Or.inl ⟨RetryPolicy.escalates_iff.mp h, if_pos h⟩
  · rw [if_neg h]
    rw [RetryPolicy.escalates_iff] at h
    exact Or.inr ⟨Nat.lt_of_not_le h, rfl⟩

namespace Attends

variable (h : Attends resolver config e)
include h

theorem taken_timeout {b : Branch} (hnear : b.Near e.leaf) :
    ∃ source, (source ∈ shape.lineage e.leaf ∧ source ≠ Chart.root) ∧
      Taken resolver config e .timeout source (silenceArrow config b e.context)
        (e.step .timeout) := by
  obtain ⟨⟨source, _⟩, hdeciding, rfl⟩ :=
    Option.map_eq_some_iff.mp (landmarks.deciding?_timeout _ h.leaf_mem_places b hnear)
  have hreaction : reaction? resolver config e.leaf e.context .timeout =
      some (source, silenceArrow config b e.context) := by
    refine reaction?_eq_some_iff.mpr ⟨_, hdeciding, ?_⟩
    rw [silenceArrow]
    cases hescalates : config.retryPolicy.escalates e.context <;>
      simp [Arrow.silence, Arrow.restart, Arrow.retry, Condition.holds, hescalates]
  exact ⟨source, h.source_mem hreaction, (h.step_spec rfl).2 source _ hreaction⟩

theorem step_timeout_eq_ignored (hleaf : e.leaf = idle ∨ e.leaf = ready) :
    e.step .timeout = (e, .ignored .noHandler) := by
  have hhandler : e.handler? .timeout = none := by
    have hdeciding := landmarks.deciding?_timeout_eq_none e.leaf (by simpa using hleaf)
    rw [h.handler?_eq, hdeciding, Option.map_none]
  simp only [Engine.step, Engine.receive?, Event.kind, hhandler]

theorem leaf_cases : e.leaf = idle ∨ e.leaf = ready ∨ ∃ b : Branch, b.Near e.leaf :=
  landmarks.idle_or_ready_or_near _ h.leaf_mem_places h.not_isCompound_leaf

theorem leafPath_eq_iff : (e.leafPath = "idle" ↔ e.leaf = idle) ∧
    (e.leafPath = "init" ↔ e.leaf = ready) := by
  rw [h.leafPath_eq]
  exact ⟨landmarks.path_eq_idle_iff _ h.leaf_mem_places,
    landmarks.path_eq_init_iff _ h.leaf_mem_places⟩

theorem retryCount_step {event : Event} {e' : Engine} (hkind : event.kind ≠ .timeout)
    (hreceive : e.receive? event = some e') :
    (e.step event).1.context.retryCount = e'.context.retryCount := by
  obtain ⟨hignored, htaken⟩ := h.step_spec hreceive
  cases hreaction : reaction? resolver config e.leaf e'.context event with
  | none => rw [hignored hreaction]
  | some r =>
    obtain ⟨arrows, hdeciding, ha⟩ := deciding?_of_reaction? hreaction
    obtain ⟨hrestart, hretry⟩ := landmarks.effect_of_deciding? _ h.leaf_mem_places _
      event.kind.mem_all hkind _ hdeciding _ ha
    rw [(htaken r.1 r.2 hreaction).context_eq,
      Effect.retryCount_apply resolver config _ event hrestart hretry]

theorem restarted {b : Branch} (hnear : b.Near e.leaf)
    (hlimit : config.maxTimeouts.toNat ≤ e.context.silences + 1) :
    (e.step .timeout).2 = .transitioned e.leafPath "idle" ["idle"]
        [.speak (config.prompts.reset.render e.context.cleared)] ∧
      (e.step .timeout).1.leaf = idle ∧ (e.step .timeout).1.context = e.context.cleared := by
  obtain ⟨source, hsource, ht⟩ := h.taken_timeout hnear
  rcases silenceArrow_cases config b e.context with ⟨-, harrow⟩ | ⟨hlt, -⟩
  · rw [harrow] at ht
    have hidle : Arrow.restart.target ∈ [idle, b.help, b.timeout] := List.mem_cons_self
    refine ⟨?_, ht.leaf_top h hidle, ht.context_eq⟩
    rw [ht.result_top h hidle hsource]
    rfl
  · omega

theorem retried {b : Branch} (hnear : b.Near e.leaf)
    (hlimit : e.context.silences + 1 < config.maxTimeouts.toNat) :
    (∃ directives, (e.step .timeout).2 = .transitioned e.leafPath (Support.timeoutName b.name)
        [Support.timeoutName b.name] directives) ∧
      (e.step .timeout).1.leaf = b.timeout ∧
      (e.step .timeout).1.context = RetryPolicy.record e.context ∧
      ∀ b' : Branch, (e.step .timeout).1.history.resume? b'.place =
        if b'.place ∈ shape.lineage e.leaf then some e.leaf
        else e.history.resume? b'.place := by
  obtain ⟨source, hsource, ht⟩ := h.taken_timeout hnear
  rcases silenceArrow_cases config b e.context with ⟨hle, -⟩ | ⟨-, harrow⟩
  · omega
  · rw [harrow] at ht
    have hbeside : (Arrow.retry b).target ∈ [idle, b.help, b.timeout] := by simp [Arrow.retry]
    have hresult := ht.result_top h hbeside hsource
    simp only [Arrow.retry, (landmarks.path_aside b).2] at hresult
    exact ⟨⟨_, hresult⟩, ht.leaf_top h hbeside, ht.context_eq, ht.resume?_top h hbeside hsource⟩

theorem counted_timeout {n : Nat} (hn : Counted config.maxTimeouts n e.context)
    (hpos : 0 < config.maxTimeouts.toNat) :
    Counted config.maxTimeouts
      (if endsSilence (.timeout, (e.step .timeout).2) then 0
        else n + if isSilence (.timeout, (e.step .timeout).2) then 1 else 0)
      (e.step .timeout).1.context := by
  rcases h.leaf_cases with hleaf | hleaf | ⟨b, hnear⟩
  · rw [h.step_timeout_eq_ignored (Or.inl hleaf)]
    exact hn
  · rw [h.step_timeout_eq_ignored (Or.inr hleaf)]
    exact hn
  · rcases Nat.lt_or_ge (e.context.silences + 1) config.maxTimeouts.toNat with hlt | hle
    · obtain ⟨⟨_, hresult⟩, -, hcontext, -⟩ := h.retried hnear hlt
      have hother := beq_false_of_ne b.timeoutName_ne_idle
      rw [hn.silences_eq] at hlt
      simp only [hresult, hcontext, endsSilence, hother, isSilence, if_true]
      exact hn.record hlt
    · obtain ⟨hresult, -, hcontext⟩ := h.restarted hnear hle
      rw [hresult, hcontext]
      exact counted_zero hpos rfl

theorem counted_step {n : Nat} (hn : Counted config.maxTimeouts n e.context)
    (hpos : 0 < config.maxTimeouts.toNat) (event : Event) :
    Counted config.maxTimeouts
      (if endsSilence (event, (e.step event).2) then 0
        else n + if isSilence (event, (e.step event).2) then 1 else 0)
      (e.step event).1.context := by
  -- what neither is a silence nor ends one keeps both the count and the streak
  have keeps : ∀ {e' : Engine}, event.kind ≠ .timeout → e.receive? event = some e' →
      e'.context.retryCount = e.context.retryCount →
        Counted config.maxTimeouts n (e.step event).1.context := by
    intro e' hkind hreceive hcount
    refine ⟨?_, hn.lt_limit⟩
    rw [h.retryCount_step hkind hreceive, hcount, hn.count_eq]
  cases event with
  | timeout => exact h.counted_timeout hn hpos
  | recognised turn =>
    have hkind : (Event.recognised turn).kind ≠ .timeout := by simp [Event.kind]
    have hcount := h.retryCount_step hkind (Engine.receive?_recognised e turn)
    exact counted_zero hpos hcount
  | lookupDone ticket answer =>
    cases hreceive : e.receive? (.lookupDone ticket answer) with
    | none =>
      rw [Engine.step_of_receive?_eq_none hreceive]
      exact hn
    | some e' =>
      obtain ⟨_, -, heq⟩ := Option.map_eq_some_iff.mp hreceive
      exact keeps (by simp [Event.kind]) hreceive (by rw [← heq])
  | click | ttsReady | endSpeech => exact keeps (by decide) rfl rfl

end Attends

theorem counted_run {c : Chart} (hc : Appointment.chart resolver config = .ok c)
    (journal : Journal Move) (events : List Event) :
    Counted config.maxTimeouts (streak ((Engine.start c journal).told events))
      ((Engine.start c journal).run events).1.context := by
  -- from the end, where the streak is counted
  induction events using List.reverseRecOn with
  | nil =>
    rw [eq_assistant_of_chart resolver config hc, start_assistant]
    exact counted_zero (limit_pos hc) rfl
  | append_singleton events event ih =>
    rw [Engine.told_concat, streak_append, Engine.run_concat]
    exact (attends_run hc journal events).counted_step ih (limit_pos hc) event

end Setting

/-- `retryCount` is the `streak` of silences, which stays below the limit.  Outside `idle` and
`init` a silence is answered: the one that makes the streak reach the limit leads to `idle`, empties
slots and answer and speaks the reset prompt, and the journal holds the new count. -/
theorem silence_run {resolver : Resolver} {config : Config} {c : Chart}
    (hc : Appointment.chart resolver config = .ok c) (journal : Journal Move)
    (past : List Event) :
    let e := ((Engine.start c journal).run past).1
    let s := e.step .timeout
    let n := streak ((Engine.start c journal).told past)
    let limit := config.maxTimeouts.toNat
    e.context.retryCount.map UInt32.toNat = (if n = 0 then none else some n) ∧
      n < limit ∧
      (e.leafPath ≠ "idle" → e.leafPath ≠ "init" →
        ∃ target configuration directives,
          s.2 = .transitioned e.leafPath target configuration directives ∧
            (target = "idle" ↔ n + 1 = limit) ∧
            (target = "idle" →
              (∀ slot, s.1.context.slot slot = none) ∧ s.1.context.answer = none ∧
                s.1.context.retryCount = none ∧
                directives = [.speak (config.prompts.reset.render s.1.context)]) ∧
            ∃ attempt, s.1.journal.last? =
                some { source := e.leafPath, target, event := .timeout, attempt } ∧
              attempt.toNat = if n + 1 = limit then 0 else n + 1) ∧
      (e.leafPath = "idle" ∨ e.leafPath = "init" → s = (e, .ignored .noHandler)) := by
  intro e s n limit
  have h : Attends resolver config e := attends_run hc journal past
  have hn : Counted config.maxTimeouts n e.context := counted_run hc journal past
  refine ⟨hn.count_eq, hn.lt_limit, fun hidle hinit => ?_, fun hleaf => ?_⟩
  · rw [ne_eq, h.leafPath_eq_iff.1] at hidle
    rw [ne_eq, h.leafPath_eq_iff.2] at hinit
    obtain ⟨b, hnear⟩ := (h.leaf_cases.resolve_left hidle).resolve_left hinit
    rcases Nat.lt_or_ge (e.context.silences + 1) config.maxTimeouts.toNat with hlt | hle
    · obtain ⟨⟨directives, hresult⟩, -, hcontext, -⟩ := h.retried hnear hlt
      rw [hn.silences_eq] at hlt
      refine ⟨_, _, directives, hresult, ?_, fun htarget => absurd htarget b.timeoutName_ne_idle, _,
        Engine.last?_journal_step hresult, ?_⟩
      · exact iff_of_false b.timeoutName_ne_idle (by omega)
      · rw [hcontext, if_neg (by omega)]
        exact hn.toNat_nextCount
    · obtain ⟨hresult, -, hcontext⟩ := h.restarted hnear hle
      have hlt := hn.lt_limit
      rw [hn.silences_eq] at hle
      have hlimit : n + 1 = limit := by omega
      refine ⟨_, _, _, hresult, iff_of_true rfl hlimit, fun _ => ?_, _,
        Engine.last?_journal_step hresult, ?_⟩
      · rw [hcontext]
        exact ⟨fun slot => by cases slot <;> rfl, rfl, rfl, rfl⟩
      · rw [hcontext, if_pos hlimit]
        rfl
  · rw [h.leafPath_eq_iff.1, h.leafPath_eq_iff.2] at hleaf
    exact h.step_timeout_eq_ignored hleaf

theorem silence_run_welcome :
    Appointment.chart Grammar.appointment.resolver {} = .ok standard ∧
      streak ((Engine.start standard (.withCapacity 4)).told
        [.click, .click, .timeout, .timeout]) = 2 ∧
      ∃ source configuration directives,
        (((Engine.start standard (.withCapacity 4)).run
          [.click, .click, .timeout, .timeout]).1.step .timeout).2 =
            .transitioned source "idle" configuration directives := by
  have hpath : ((Engine.start standard (.withCapacity 4)).run
      [.click, .click, .timeout, .timeout]).1.leafPath = "welcome_timeout" := by decide
  have hstreak : streak ((Engine.start standard (.withCapacity 4)).told
      [.click, .click, .timeout, .timeout]) = 2 := by decide
  obtain ⟨-, -, htalking, -⟩ := silence_run chart_standard (.withCapacity 4)
    [.click, .click, .timeout, .timeout]
  rw [hstreak] at htalking
  obtain ⟨_, configuration, directives, hresult, htarget, -⟩ :=
    htalking (ne_of_eq_of_ne hpath (by decide)) (ne_of_eq_of_ne hpath (by decide))
  obtain rfl := htarget.mpr rfl
  exact ⟨chart_standard, hstreak, _, configuration, directives, hresult⟩

end Appointment

end Dialogue
