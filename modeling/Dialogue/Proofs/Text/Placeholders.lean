import Dialogue.Proofs.Text.Trimming
import Dialogue.Template
import Mathlib.Data.List.Chain
/-!
# Placeholders

A template is its source with every placeholder filled: a placeholder is a text in braces that holds
no brace and is not blank, and whatever else stands in the source stays as it is.  The source can be
divided at all its placeholders at once, for they do not overlap, and the parts of a template are
those of this division.
-/

namespace Dialogue.Template

open Text (isBlank trim splitFirst? splitFirst?_eq_some_iff splitFirst?_eq_none_iff)

structure Placeholder (w : List Char) : Prop where
  opening_notMem : '\x7b' ∉ w
  closing_notMem : '\x7d' ∉ w
  exists_not_blank : ∃ c ∈ w, ¬ isBlank c

def braced (w : List Char) : List Char :=
  '\x7b' :: (w ++ ['\x7d'])

theorem braced_append (w rest : List Char) :
    braced w ++ rest = '\x7b' :: (w ++ '\x7d' :: rest) := by
  rw [braced, List.cons_append, List.append_assoc]
  rfl

/-- A text that is divided at some texts in braces: `start` stands before the first of them, and
each of `holes` is what the braces hold with what stands behind them. -/
structure Division where
  start : List Char
  holes : List (List Char × List Char)

namespace Division

def whole (d : Division) : List Char :=
  d.start ++ d.holes.flatMap fun hole => braced hole.1 ++ hole.2

def names (d : Division) : List String :=
  d.holes.map fun hole => String.ofList (trim hole.1)

def filled (value : String → List Char) (d : Division) : List Char :=
  d.start ++ d.holes.flatMap fun hole => value (String.ofList (trim hole.1)) ++ hole.2

/-- The text is divided at placeholders, and wherever one stands in it. -/
structure Of (d : Division) (cs : List Char) : Prop where
  whole_eq : d.whole = cs
  placeholder : ∀ hole ∈ d.holes, Placeholder hole.1
  complete : ∀ {before w after}, Placeholder w → cs = before ++ (braced w ++ after) →
    ∃ earlier text later, d.holes = earlier ++ (w, text) :: later ∧
      before = whole ⟨d.start, earlier⟩

end Division

/-! ## Placeholders in a text -/

theorem placeholder_iff {w : List Char} (h : '\x7d' ∉ w) :
    Placeholder w ↔ ¬ (trim w = [] ∨ '\x7b' ∈ trim w) := by
  rw [not_or, Text.trim_eq_nil_iff]
  constructor
  · intro hw
    obtain ⟨c, hc, hblank⟩ := hw.exists_not_blank
    exact ⟨fun hall => hblank (hall c hc), fun hmem =>
      hw.opening_notMem ((Text.trim_sublist w).subset hmem)⟩
  · rintro ⟨hblank, hopening⟩
    refine ⟨fun hmem => hopening (Text.mem_trim_of_not_blank hmem (by decide)), h, ?_⟩
    simpa using hblank

theorem braced_append_inj {w w' rest rest' : List Char} (hw : '\x7d' ∉ w) (hw' : '\x7d' ∉ w')
    (h : braced w ++ rest = braced w' ++ rest') : w = w' ∧ rest = rest' := by
  rw [braced_append, braced_append] at h
  have hsplit : splitFirst? '\x7d' (w ++ '\x7d' :: rest) = some (w, rest) :=
    splitFirst?_eq_some_iff.mpr ⟨rfl, hw⟩
  rw [splitFirst?_eq_some_iff.mpr ⟨(List.cons.inj h).2, hw'⟩] at hsplit
  exact (Prod.mk.inj (Option.some.inj hsplit)).imp Eq.symm Eq.symm

theorem eq_opening_of_isPrefix {w cs : List Char} {c : Char} (h : braced w <+: c :: cs) :
    c = '\x7b' := by
  obtain ⟨rest, hrest⟩ := h
  rw [braced_append] at hrest
  exact (List.cons.inj hrest).1.symm

/-- Two placeholders of one text are the same, or one ends before the other begins. -/
theorem braced_append_cases {w w' rest before after : List Char} (hw : Placeholder w)
    (hw' : Placeholder w') (h : braced w ++ rest = before ++ (braced w' ++ after)) :
    (before = [] ∧ w = w') ∨
      ∃ between, before = braced w ++ between ∧ rest = between ++ (braced w' ++ after) := by
  cases before with
  | nil =>
    exact Or.inl ⟨rfl, (braced_append_inj hw.closing_notMem hw'.closing_notMem h).1⟩
  | cons c before =>
    rw [braced_append w rest, braced_append w' after, List.cons_append] at h
    obtain ⟨rfl, hinner⟩ := List.cons.inj h
    -- the second one opens behind `w`, which holds no opening brace
    rcases List.append_eq_append_iff.mp hinner with ⟨mid, rfl, hmid⟩ | ⟨mid, rfl, hmid⟩
    · cases mid with
      | nil => exact absurd (List.cons.inj hmid).1 (by decide)
      | cons c between =>
        obtain ⟨rfl, hrest⟩ := List.cons.inj hmid
        refine Or.inr ⟨between, (braced_append w between).symm, ?_⟩
        rw [braced_append]
        exact hrest
    · cases mid with
      | nil => exact absurd (List.cons.inj hmid).1 (by decide)
      | cons c mid =>
        obtain ⟨rfl, -⟩ := List.cons.inj hmid
        exact absurd (List.mem_append_right _ List.mem_cons_self) hw.opening_notMem

namespace Division

/-! ## Dividing a text -/

theorem whole_cons (w text : List Char) (start : List Char)
    (holes : List (List Char × List Char)) :
    whole ⟨start, (w, text) :: holes⟩ = start ++ (braced w ++ whole ⟨text, holes⟩) := by
  simp [whole, List.append_assoc]

theorem Of.uncons {c : Char} {start cs : List Char} {holes : List (List Char × List Char)}
    (h : Of ⟨c :: start, holes⟩ cs) :
    ∃ rest, cs = c :: rest ∧ Of ⟨start, holes⟩ rest ∧
      ∀ w, Placeholder w → ¬ braced w <+: c :: rest := by
  obtain rfl := h.whole_eq
  refine ⟨whole ⟨start, holes⟩, rfl, ⟨rfl, h.placeholder, fun {before w after} hw heq => ?_⟩, ?_⟩
  · have hlater : whole ⟨c :: start, holes⟩ = (c :: before) ++ (braced w ++ after) :=
      congrArg (c :: ·) heq
    obtain ⟨earlier, text, later, hholes, hbefore⟩ := h.complete hw hlater
    exact ⟨earlier, text, later, hholes, (List.cons.inj hbefore).2⟩
  · rintro w hw ⟨after, hafter⟩
    have hfirst : whole ⟨c :: start, holes⟩ = [] ++ (braced w ++ after) := hafter.symm
    obtain ⟨earlier, text, later, -, hbefore⟩ := h.complete hw hfirst
    exact List.cons_ne_nil _ _ hbefore.symm

theorem Of.tail {w text cs : List Char} {holes : List (List Char × List Char)}
    (h : Of ⟨[], (w, text) :: holes⟩ cs) :
    Placeholder w ∧ ∃ rest, cs = braced w ++ rest ∧ Of ⟨text, holes⟩ rest := by
  obtain rfl := h.whole_eq
  refine ⟨h.placeholder _ List.mem_cons_self, whole ⟨text, holes⟩, whole_cons w text [] holes, rfl,
    fun hole hmem => h.placeholder hole (List.mem_cons_of_mem _ hmem),
    fun {before w' after} hw' heq => ?_⟩
  have hlater : whole ⟨[], (w, text) :: holes⟩ =
      (braced w ++ before) ++ (braced w' ++ after) := by
    rw [whole_cons, heq, List.nil_append, List.append_assoc]
  obtain ⟨earlier, text', later, hholes, hbefore⟩ := h.complete hw' hlater
  cases earlier with
  | nil => exact absurd hbefore (by simp [whole, braced])
  | cons hole earlier =>
    obtain ⟨rfl, hlast⟩ := List.cons.inj hholes
    refine ⟨earlier, text', later, hlast, ?_⟩
    rw [whole_cons, List.nil_append] at hbefore
    exact List.append_cancel_left hbefore

theorem Of.cons_hole {w rest : List Char} {d : Division} (hw : Placeholder w) (h : d.Of rest) :
    Of ⟨[], (w, d.start) :: d.holes⟩ (braced w ++ rest) where
  whole_eq := by rw [whole_cons, h.whole_eq, List.nil_append]
  placeholder := List.forall_mem_cons.mpr ⟨hw, h.placeholder⟩
  complete {before w' after} hw' heq := by
    rcases braced_append_cases hw hw' heq with ⟨rfl, rfl⟩ | ⟨between, rfl, hrest⟩
    · exact ⟨[], d.start, d.holes, rfl, rfl⟩
    · obtain ⟨earlier, text, later, hholes, rfl⟩ := h.complete hw' hrest
      refine ⟨(w, d.start) :: earlier, text, later, by rw [hholes]; rfl, ?_⟩
      rw [whole_cons, List.nil_append]

theorem Of.cons_char {c : Char} {cs : List Char} {d : Division}
    (hnone : ∀ w, Placeholder w → ¬ braced w <+: c :: cs) (h : d.Of cs) :
    Of ⟨c :: d.start, d.holes⟩ (c :: cs) where
  whole_eq := congrArg (c :: ·) h.whole_eq
  placeholder := h.placeholder
  complete {before w after} hw heq := by
    cases before with
    | nil => exact absurd ⟨after, heq.symm⟩ (hnone w hw)
    | cons x before =>
      obtain ⟨rfl, hrest⟩ := List.cons.inj heq
      obtain ⟨earlier, text, later, hholes, rfl⟩ := h.complete hw hrest
      exact ⟨earlier, text, later, hholes, rfl⟩

theorem of_self {cs : List Char} (h : '\x7b' ∉ cs ∨ '\x7d' ∉ cs) : Of ⟨cs, []⟩ cs where
  whole_eq := List.append_nil cs
  placeholder _ hmem := absurd hmem List.not_mem_nil
  complete {before w after} _ heq := by
    rw [heq] at h
    simp [braced] at h

theorem Of.append {front cs : List Char} {d : Division} (hfront : '\x7b' ∉ front) (h : d.Of cs) :
    Of ⟨front ++ d.start, d.holes⟩ (front ++ cs) := by
  induction front with
  | nil => exact h
  | cons c front ih =>
    rw [List.mem_cons, not_or] at hfront
    exact (ih hfront.2).cons_char fun w _ hprefix => hfront.1 (eq_opening_of_isPrefix hprefix).symm

theorem Of.unique : {d d' : Division} → {cs : List Char} → d.Of cs → d'.Of cs → d' = d
  | ⟨[], []⟩, ⟨start', holes'⟩, _, h, h' => by
    obtain rfl := h.whole_eq
    obtain ⟨rfl, hholes⟩ := List.append_eq_nil_iff.mp h'.whole_eq
    cases holes' with
    | nil => rfl
    | cons hole' holes' => cases hholes
  | ⟨[], (w, text) :: holes⟩, ⟨start', holes'⟩, _, h, h' => by
    obtain ⟨hw, rest, rfl, htail⟩ := h.tail
    cases start' with
    | nil =>
      cases holes' with
      | nil => cases h'.whole_eq
      | cons hole' holes' =>
        obtain ⟨hw', rest', heq, htail'⟩ := h'.tail
        obtain ⟨rfl, rfl⟩ := braced_append_inj hw.closing_notMem hw'.closing_notMem heq
        obtain ⟨rfl, rfl⟩ := Division.mk.inj (htail.unique htail')
        rfl
    | cons c start' =>
      obtain ⟨rest', heq, -, hnone⟩ := h'.uncons
      exact absurd ⟨rest, heq⟩ (hnone w hw)
  | ⟨c :: start, holes⟩, ⟨start', holes'⟩, _, h, h' => by
    obtain ⟨rest, rfl, hrest, hnone⟩ := h.uncons
    cases start' with
    | nil =>
      cases holes' with
      | nil => cases h'.whole_eq
      | cons hole' holes' =>
        obtain ⟨hw', rest', heq, -⟩ := h'.tail
        exact absurd ⟨rest', heq.symm⟩ (hnone _ hw')
    | cons c' start' =>
      obtain ⟨rest', heq, hrest', -⟩ := h'.uncons
      obtain ⟨rfl, rfl⟩ := List.cons.inj heq
      obtain ⟨rfl, rfl⟩ := Division.mk.inj (hrest.unique hrest')
      rfl
  termination_by d => (d.holes.length, d.start.length)

end Division

/-! ## Reading the parts -/

def textPart (cs : List Char) : List Segment :=
  if cs = [] then [] else [.text cs]

def Division.segments (d : Division) : List Segment :=
  textPart d.start ++
    d.holes.flatMap fun hole => .field (String.ofList (trim hole.1)) :: textPart hole.2

theorem Division.segments_cons_hole (start w text : List Char)
    (holes : List (List Char × List Char)) :
    segments ⟨start, (w, text) :: holes⟩ =
      textPart start ++ .field (String.ofList (trim w)) :: segments ⟨text, holes⟩ :=
  rfl

theorem pushText_nil (cs : List Char) : pushText [] cs = textPart cs :=
  rfl

theorem pushText_concat_text (parts : List Segment) (last cs : List Char) :
    pushText (parts ++ [.text last]) cs = parts ++ [.text (last ++ cs)] := by
  rw [pushText, List.getLast?_concat, List.dropLast_concat]
  split
  · next hnil => rw [hnil, List.append_nil]
  · rfl

theorem pushText_concat_field (parts : List Segment) (name : String) (cs : List Char) :
    pushText (parts ++ [.field name]) cs = parts ++ .field name :: textPart cs := by
  rw [pushText, List.getLast?_concat, textPart]
  split
  · rfl
  · rw [List.append_assoc]
    rfl

theorem pushText_pushText (parts : List Segment) (cs cs' : List Char) :
    pushText (pushText parts cs) cs' = pushText parts (cs ++ cs') := by
  cases cs with
  | nil => rfl
  | cons c cs =>
    rcases List.eq_nil_or_concat' parts with rfl | ⟨parts, last | name, rfl⟩
    · exact pushText_concat_text [] (c :: cs) cs'
    · rw [pushText_concat_text, pushText_concat_text, pushText_concat_text, List.append_assoc]
    · have htext := pushText_concat_text (parts ++ [.field name]) (c :: cs) cs'
      rw [List.append_assoc, List.append_assoc] at htext
      rw [pushText_concat_field, pushText_concat_field]
      exact htext

/-- What is read of a text, behind the parts that were there, is what its division tells. -/
theorem exists_parse_eq (parts : List Segment) (rest : List Char) :
    ∃ d : Division, d.Of rest ∧ parse parts rest = pushText parts d.start ++
      d.holes.flatMap fun hole => .field (String.ofList (trim hole.1)) :: textPart hole.2 := by
  fun_induction parse parts rest with
  | case1 parts rest hopening =>
    have hrest := splitFirst?_eq_none_iff.mp hopening
    exact ⟨⟨rest, []⟩, Division.of_self (Or.inl hrest), (List.append_nil _).symm⟩
  | case2 parts rest before inside hopening hclosing =>
    obtain ⟨rfl, hbefore⟩ := splitFirst?_eq_some_iff.mp hopening
    have hinside : '\x7d' ∉ '\x7b' :: inside :=
      List.not_mem_cons_of_ne_of_not_mem (by decide) (splitFirst?_eq_none_iff.mp hclosing)
    exact ⟨_, (Division.of_self (Or.inr hinside)).append hbefore, (List.append_nil _).symm⟩
  | case3 parts rest before inside hopening inner behind hclosing name hname ih =>
    obtain ⟨rfl, hbefore⟩ := splitFirst?_eq_some_iff.mp hopening
    obtain ⟨rfl, hinner⟩ := splitFirst?_eq_some_iff.mp hclosing
    obtain ⟨d, hd, hparse⟩ := ih
    have hnone : ∀ w, Placeholder w → ¬ braced w <+: '\x7b' :: (inner ++ '\x7d' :: behind) := by
      rintro w hw ⟨rest, hrest⟩
      rw [← braced_append] at hrest
      obtain ⟨rfl, -⟩ := braced_append_inj hw.closing_notMem hinner hrest
      exact (placeholder_iff hinner).mp hw hname
    refine ⟨_, (hd.cons_char hnone).append hbefore, ?_⟩
    rw [hparse, pushText_pushText, List.append_assoc]
    rfl
  | case4 parts rest before inside hopening inner behind hclosing name hname ih =>
    obtain ⟨rfl, hbefore⟩ := splitFirst?_eq_some_iff.mp hopening
    obtain ⟨rfl, hinner⟩ := splitFirst?_eq_some_iff.mp hclosing
    obtain ⟨d, hd, hparse⟩ := ih
    have hdivision := (hd.cons_hole ((placeholder_iff hinner).mpr hname)).append hbefore
    rw [braced_append] at hdivision
    refine ⟨_, hdivision, ?_⟩
    rw [hparse, pushText_concat_field]
    simp [name]

/-! ## What the parts come to -/

def Apart : Segment → Segment → Prop
  | .text _, .text _ => False
  | _, _ => True

structure Separated (segs : List Segment) : Prop where
  text_ne_nil : .text [] ∉ segs
  isChain : segs.IsChain Apart

theorem separated_textPart (cs : List Char) : Separated (textPart cs) := by
  rw [textPart]
  split
  · exact ⟨List.not_mem_nil, .nil⟩
  · next hne => exact ⟨by simpa using Ne.symm hne, .singleton _⟩

theorem Separated.append_field {segs segs' : List Segment} (h : Separated segs)
    (h' : Separated segs') (name : String) : Separated (segs ++ .field name :: segs') where
  text_ne_nil := by
    have hfield : Segment.text [] ≠ .field name := Segment.noConfusion
    rw [List.mem_append, not_or]
    exact ⟨h.text_ne_nil, List.not_mem_cons_of_ne_of_not_mem hfield h'.text_ne_nil⟩
  isChain := by
    have htail : (Segment.field name :: segs').IsChain Apart :=
      List.isChain_cons.mpr ⟨fun _ _ => trivial, h'.isChain⟩
    refine List.isChain_append.mpr ⟨h.isChain, htail, ?_⟩
    rintro x - y ⟨⟩
    cases x <;> trivial

theorem filterMap_textPart {name? : Segment → Option String}
    (htext : ∀ cs, name? (.text cs) = none) (cs : List Char) :
    (textPart cs).filterMap name? = [] := by
  rw [textPart]
  split
  · rfl
  · rw [List.filterMap_cons_none (htext cs), List.filterMap_nil]

theorem flatMap_textPart (ctx : Context) (cs : List Char) :
    (textPart cs).flatMap (expand ctx) = cs := by
  rw [textPart]
  split
  · next hnil => exact hnil.symm
  · exact List.append_nil cs

namespace Division

theorem filterMap_segments {name? : Segment → Option String}
    (hfield : ∀ name, name? (.field name) = some name) (htext : ∀ cs, name? (.text cs) = none) :
    (d : Division) → d.segments.filterMap name? = d.names
  | ⟨start, holes⟩ => by
    induction holes generalizing start with
    | nil => simpa [segments, names] using filterMap_textPart htext start
    | cons hole holes ih =>
      rw [segments_cons_hole, List.filterMap_append, filterMap_textPart htext, List.nil_append,
        List.filterMap_cons_some (hfield _), ih]
      rfl

theorem flatMap_segments (ctx : Context) : (d : Division) →
    d.segments.flatMap (expand ctx) = d.filled fun name => ((ctx.field? name).getD "").toList
  | ⟨start, holes⟩ => by
    induction holes generalizing start with
    | nil => simpa [segments, filled] using flatMap_textPart ctx start
    | cons hole holes ih =>
      rw [segments_cons_hole, List.flatMap_append, flatMap_textPart, List.flatMap_cons, ih]
      simp [filled, expand]

theorem separated_segments : (d : Division) → Separated d.segments
  | ⟨start, holes⟩ => by
    induction holes generalizing start with
    | nil => simpa [segments] using separated_textPart start
    | cons hole holes ih => exact (separated_textPart start).append_field (ih hole.2) _

end Division

/-- There is exactly one division of the source at all its placeholders.  `render` puts the value of
each name in place of its braces and keeps all else, and `segments` are the names with nonempty
texts between them. -/
theorem divided_source (t : Template) :
    ∃ d : Division, (∀ d' : Division, d'.Of t.source.toList ↔ d' = d) ∧
      (∀ ctx, (t.render ctx).toList =
        d.filled fun name => ((ctx.field? name).getD "").toList) ∧
        t.fields = d.names ∧ (t.isLiteral ↔ d.holes = []) ∧ Separated t.segments := by
  obtain ⟨d, hd, hparse⟩ := exists_parse_eq [] t.source.toList
  have hparts : t.segments = d.segments := by
    rw [segments, hparse, pushText_nil, Division.segments]
  have hfields : t.fields = d.names := by
    rw [fields, hparts]
    exact Division.filterMap_segments (fun _ => rfl) (fun _ => rfl) d
  refine ⟨d, fun d' => ⟨fun hd' => hd.unique hd', fun h => h ▸ hd⟩, fun ctx => ?_, hfields, ?_, ?_⟩
  · rw [render, hparts, String.toList_ofList, Division.flatMap_segments]
  · rw [isLiteral_iff, hfields, Division.names, List.map_eq_nil_iff]
  · rw [hparts]
    exact d.separated_segments

/-- Braces around nothing, and one in front of a placeholder, are kept. -/
example : (Template.mk "For \x7b\x7d: \x7b\x7b title \x7d").segments =
    [.text "For \x7b\x7d: \x7b".toList, .field "title"] := by
  decide

end Dialogue.Template
