import Dialogue.Proofs.Json.Reading
import Dialogue.Wire.Context
import Dialogue.Wire.Event
/-!
# Messages and contexts are read as they are written

Each value that is written gives an object with its names in some order, and its reader finds every
field under its name, or takes the default where the field is left out.
-/

namespace Dialogue

open Json (Field Reads)

/-! ## Small values -/

theorem StateId.reads_encode {id : StateId} (h : id.index < UInt64.size) :
    Reads StateId.decode? id.encode id :=
  (Reads.word h).map StateId.mk

theorem Entity.reads_encode (e : Entity) : Reads Entity.decode? e.encode e := by
  intro j halike
  obtain ⟨field, hfields, hfield⟩ := Json.exists_fields (by simp) halike
  have hcategory := (hfield "category").required (.ofString e.category)
  have htext := (hfield "text").required (.ofString e.text)
  simp [Entity.decode?, hfields, hcategory, htext]

theorem Answer.reads_encode (a : Answer) : Reads Answer.decode? a.encode a := by
  intro j halike
  obtain ⟨abstract, heading, url⟩ := a
  obtain ⟨field, hfields, hfield⟩ := Json.exists_fields (by
    cases heading <;> cases url <;> simp [Json.someMember]) halike
  have habstract := (hfield "Abstract").required (.ofString abstract)
  have hheading : (field "Heading").Alike (.ofOption (heading.map .ofString)) := by
    cases heading <;> cases url <;> exact hfield "Heading"
  have hurl : (field "AbstractURL").Alike (.ofOption (url.map .ofString)) := by
    cases heading <;> cases url <;> exact hfield "AbstractURL"
  simp [Answer.decode?, hfields, habstract, hheading.withDefault_none, hurl.withDefault_none]

structure Ticket.Writable (t : Ticket) : Prop where
  state_lt : t.state.index < UInt64.size
  generation_lt : t.generation < UInt64.size

theorem Ticket.reads_encode {t : Ticket} (h : t.Writable) : Reads Ticket.decode? t.encode t := by
  intro j halike
  obtain ⟨field, hfields, hfield⟩ := Json.exists_fields (by simp) halike
  have hstate := (hfield "state").required (StateId.reads_encode h.state_lt)
  have hgeneration := (hfield "generation").required (.word h.generation_lt)
  simp [Ticket.decode?, hfields, hstate, hgeneration]

theorem Slot.reads_encode (s : Slot) : Reads Slot.decode? s.encode s :=
  (Reads.caseName s.name).bind (by cases s <;> rfl)

theorem EventKind.reads_encode (k : EventKind) : Reads EventKind.decode? k.encode k :=
  (Reads.caseName k.journalName).bind (by cases k <;> rfl)

theorem Template.reads_encode (t : Template) : Reads Template.decode? t.encode t :=
  (Reads.ofString t.source).map Template.mk

/-! ## Events -/

theorem Turn.reads_members {t : Turn} (h : t.confidence.isFinite) :
    Reads Turn.decode? (.ofMembers t.members) t := by
  intro j halike
  obtain ⟨utterance, confidence, entities, topIntent⟩ := t
  obtain ⟨field, hfields, hfield⟩ := Json.exists_fields (by
    cases topIntent <;> simp [Turn.members, Json.someMember]) halike
  have hutterance := (hfield "utterance").required (.ofString utterance)
  have hconfidence := (hfield "confidence").required (.ofFloat h)
  have hentities := (hfield "entities").withDefault
    (.list fun e (_ : e ∈ entities) => e.reads_encode) []
  have htopIntent : (field "topIntent").Alike (.ofOption (topIntent.map .ofString)) := by
    cases topIntent <;> exact hfield "topIntent"
  simp [Turn.decode?, hfields, hutterance, hconfidence, hentities, htopIntent.withDefault_none]

def Event.Writable : Event → Prop
  | .recognised turn => turn.confidence.isFinite
  | .lookupDone ticket _ => ticket.Writable
  | _ => True

theorem Json.holdsNothing_of_alike {j : Json} (h : j.Alike (.ofMembers [])) : j.holdsNothing := by
  obtain ⟨members, -, rfl, -, -⟩ := h.exists_members
  rfl

theorem Event.reads_lookupDone {ticket : Ticket} (h : ticket.Writable) (answer : Answer) :
    Reads Event.decodeLookupDone? (.ofMembers (Event.lookupDone ticket answer).members)
      (.lookupDone ticket answer) := by
  intro j halike
  obtain ⟨field, hfields, hfield⟩ := Json.exists_fields (by simp [Event.members]) halike
  have hticket := (hfield "ticket").required (Ticket.reads_encode h)
  have hanswer := (hfield "answer").required answer.reads_encode
  simp [Event.decodeLookupDone?, hfields, hticket, hanswer]

theorem Event.reads_members {e : Event} (h : e.Writable) :
    Reads (Event.decodeKind? e.kind) (.ofMembers e.members) e := by
  cases e with
  | recognised turn => exact (Turn.reads_members h).map Event.recognised
  | lookupDone ticket answer => exact Event.reads_lookupDone h answer
  | click | ttsReady | endSpeech | timeout =>
    intro j halike
    exact if_pos (Json.holdsNothing_of_alike halike)

theorem Event.usable_encode (e : Event) : e.encode.usable Json.tagDepth := by
  cases e with
  | recognised turn =>
    cases htopIntent : turn.topIntent <;>
      simp [Event.encode, Event.members, Turn.members, Json.tagDepth, Json.usable_ofMembers,
        Json.usable_array, Entity.encode, Json.someMember, htopIntent]
  | lookupDone ticket answer =>
    cases hheading : answer.heading <;> cases hurl : answer.url <;>
      simp [Event.encode, Event.members, Json.tagDepth, Json.usable_ofMembers, Ticket.encode,
        StateId.encode, Answer.encode, Json.someMember, hheading, hurl]
  | click | ttsReady | endSpeech | timeout =>
    simp [Event.encode, Event.members, Json.tagDepth, Json.usable_ofMembers]

theorem Event.nodup_members (e : Event) : ("type" :: e.members.map Prod.fst).Nodup := by
  cases e with
  | recognised turn =>
    cases htopIntent : turn.topIntent <;>
      simp [Event.members, Turn.members, Json.someMember, htopIntent]
  | _ => simp [Event.members]

theorem Event.reads_encode {e : Event} (h : e.Writable) : Reads Event.decode? e.encode e := by
  intro j halike
  obtain ⟨rest, htag, hrest⟩ := Json.exists_tagged e.nodup_members e.usable_encode halike
  have hkind : EventKind.ofName? e.kind.name = some e.kind := by cases e <;> rfl
  simp [Event.decode?, htag, hkind, Event.reads_members h rest hrest]

/-! ## Directives -/

def Directive.Writable : Directive → Prop
  | .lookup ticket _ => ticket.Writable
  | _ => True

theorem Directive.reads_encode {d : Directive} (h : d.Writable) :
    Reads Directive.decode? d.encode d := by
  intro j halike
  cases d with
  | speak text =>
    obtain ⟨rest, htag, hrest⟩ := Json.exists_tagged (by simp)
      (by simp [Json.tagDepth, Json.usable_ofMembers]) halike
    obtain ⟨field, hfields, hfield⟩ := Json.exists_fields (by simp) hrest
    have htext := (hfield "text").required (.ofString text)
    simp [Directive.decode?, htag, Directive.decodeTag?, hfields, htext]
  | listen =>
    obtain ⟨rest, htag, hrest⟩ := Json.exists_tagged (by simp)
      (by simp [Json.tagDepth, Json.usable_ofMembers]) halike
    simp [Directive.decode?, htag, Directive.decodeTag?, Json.holdsNothing_of_alike hrest]
  | lookup ticket subject =>
    obtain ⟨rest, htag, hrest⟩ := Json.exists_tagged (by simp)
      (by simp [Json.tagDepth, Json.usable_ofMembers, Ticket.encode, StateId.encode]) halike
    obtain ⟨field, hfields, hfield⟩ := Json.exists_fields (by simp) hrest
    have hticket := (hfield "ticket").required (Ticket.reads_encode h)
    have hsubject := (hfield "subject").required (.ofString subject)
    simp [Directive.decode?, htag, Directive.decodeTag?, hfields, hticket, hsubject]

/-! ## Contexts -/

theorem Context.reads_encode {ctx : Context} (h : ctx.turn.confidence.isFinite) :
    Reads Context.decode? ctx.encode ctx := by
  intro j halike
  have hnames : Context.fieldNames.Nodup := by decide
  obtain ⟨field, hfields, hfield⟩ := Json.exists_fields (by exact hnames) halike
  have hutterance := (hfield "last_utterance").required (.ofString ctx.turn.utterance)
  have hconfidence := (hfield "confidence").required (.ofFloat h)
  have hentities := (hfield "entities").required
    (.list fun e (_ : e ∈ ctx.turn.entities) => e.reads_encode)
  have htext : ∀ o : Option String,
      Reads (Field.nullable Json.string?) (.ofOption .ofString o) o := fun o =>
    .ofOption fun s => ⟨.ofString s, nofun⟩
  have htopIntent := (hfield "top_intent").optional (htext ctx.turn.topIntent)
  have htitle := (hfield "title").optional (htext ctx.slots.title)
  have hday := (hfield "day").optional (htext ctx.slots.day)
  have htime := (hfield "time").optional (htext ctx.slots.time)
  have haccept := (hfield "accept").optional (htext ctx.slots.accept)
  have hdecline := (hfield "decline").optional (htext ctx.slots.decline)
  have hcategory := (hfield "category").optional (htext ctx.slots.category)
  have hhelp := (hfield "help").optional (htext ctx.slots.help)
  have hanswer := (hfield "knowledge_base_result").optional
    (.ofOption fun a => ⟨Answer.reads_encode a, nofun⟩)
  have hretryCount := (hfield "retry_count").optional
    (.ofOption fun n => ⟨.count n, nofun⟩)
  have hall : Context.fieldNames.map field =
      [field "last_utterance", field "confidence", field "entities", field "top_intent",
        field "title", field "day", field "time", field "accept", field "decline",
        field "category", field "help", field "knowledge_base_result", field "retry_count"] := rfl
  -- The reading of each field stands inside that of the one before, so all values are put in place
  -- before any of them is passed on.
  rw [Context.decode?, hfields, hall]
  dsimp only [Option.bind_eq_bind, Option.bind_some]
  rw [hutterance, hconfidence, hentities, htopIntent, htitle, hday, htime, haccept, hdecline,
    hcategory, hhelp, hanswer, hretryCount]
  rfl

end Dialogue
