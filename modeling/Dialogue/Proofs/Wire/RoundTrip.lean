import Dialogue.Proofs.Timestamp.Form
import Dialogue.Proofs.Wire.Messages
import Dialogue.Wire.Journal
import Mathlib.Data.List.Perm.Basic
/-!
# What is written is read back

The values that a dialogue writes are read as they were, in whatever order the members of an object
stand.  The keys of a history are numbers in plain digits, which are read as they are written; so a
history is read with the same leaves, and in the order in which they were written it is the same.
-/

namespace Dialogue

open Json (Field Reads)

/-! ## Keys -/

theorem digitPiece?_piece {c : Char} (h : c.isDigit) :
    digitPiece? (Json.Literal.piece c) = some (c.toNat - '0'.toNat) := by
  have hne : ∀ d : Char, d.isDigit = false → c ≠ d := by
    rintro d hd rfl
    exact absurd h (by simp [hd])
  have hlow : 48 ≤ c.toNat := (Char.isDigit_iff_toNat.mp h).1
  have hletter : Json.needsLetter c = false := by
    simp only [Json.needsLetter, Bool.or_eq_false_iff, beq_eq_false_iff_ne]
    simp only [hne '"' rfl, hne '\\' rfl, hne '\n' rfl, hne '\r' rfl, hne '\t' rfl, ne_eq,
      not_false_eq_true, and_true, true_and]
    omega
  rw [Json.Literal.piece, hletter, if_neg (by decide), if_neg (by omega), digitPiece?, if_pos h]

theorem head?_toDigits {n : Nat} (h : 0 < n) : (Nat.toDigits 10 n).head? ≠ some '0' := by
  induction n using Nat.strongRecOn with
  | ind n ih =>
    rw [Nat.toDigits_eq_if (by decide)]
    split
    · next hlt =>
      have hdigit : ∀ n < 10, 0 < n → n.digitChar ≠ '0' := by decide
      simpa using hdigit n hlt h
    · next hle =>
      obtain ⟨c, cs, heq⟩ := List.exists_cons_of_ne_nil
        (Nat.toDigits_ne_nil (n := n / 10) (b := 10))
      have hrest := ih (n / 10) (by omega) (by omega)
      rw [heq] at hrest ⊢
      exact hrest

def digitsOf (n : Nat) : List Nat :=
  (Nat.toDigits 10 n).map fun c => c.toNat - '0'.toNat

theorem digitsOf_ne_nil (n : Nat) : digitsOf n ≠ [] := by
  simp [digitsOf, Nat.toDigits_ne_nil]

theorem ofDigits_digitsOf (n : Nat) : Json.Numeral.ofDigits (digitsOf n) = n := by
  calc
    Json.Numeral.ofDigits (digitsOf n)
      = Timestamp.digitsValue (Nat.toDigits 10 n) := List.foldl_map
    _ = Nat.ofDigitChars 10 (Nat.toDigits 10 n) 0 := Timestamp.digitsValue_eq _
    _ = n := Nat.ofDigitChars_ten_toDigits

theorem length_digitsOf_of_head? {n : Nat} (h : (digitsOf n).head? = some 0) :
    (digitsOf n).length = 1 := by
  rcases Nat.eq_zero_or_pos n with rfl | hpos
  · rfl
  · rw [digitsOf, List.head?_map] at h
    obtain ⟨c, hc, hvalue⟩ := Option.map_eq_some_iff.mp h
    have hdigit := Nat.isDigit_of_mem_toDigits (by decide) (by decide) (List.mem_of_head? hc)
    have hlow := (Char.isDigit_iff_toNat.mp hdigit).1
    obtain rfl : c = '0' := Char.toNat_inj.mp (by omega)
    exact absurd hc (head?_toDigits hpos)

theorem StateId.ofKey?_key {id : StateId} (h : id.index < UInt64.size) :
    StateId.ofKey? (.ofString id.key) = some id := by
  have hpieces : (Json.Literal.ofString id.key).mapM digitPiece? = some (digitsOf id.index) := by
    rw [Json.Literal.ofString, key, Nat.toString_eq_ofList_toDigits, String.toList_ofList,
      List.mapM_map, digitsOf]
    refine Json.mapM_eq_some (List.forall₂_map_right_iff.mpr (List.forall₂_same.mpr fun c hc => ?_))
    exact digitPiece?_piece (Nat.isDigit_of_mem_toDigits (by decide) (by decide) hc)
  simpa [ofKey?, hpieces, ofDigits_digitsOf, digitsOf_ne_nil, h] using length_digitsOf_of_head?

/-! ## Histories -/

def History.Writable (h : History) : Prop :=
  ∀ e ∈ h.leaves.entries, e.1.index < UInt64.size ∧ e.2.index < UInt64.size

def History.decodeLeaf? (m : Json.Literal × Json) : Option (StateId × StateId) := do
  pure (← StateId.ofKey? m.1, ← StateId.decode? m.2)

theorem History.decodeLeaves?_object {members : List (Json.Literal × Json)}
    {pairs : List (StateId × StateId)} (h : members.mapM decodeLeaf? = some pairs) :
    decodeLeaves? (.object members) = some (.ofList pairs) := by
  have hpairs : decodeLeaves? (.object members) =
      (members.mapM decodeLeaf?).bind (some ∘ .ofList) := rfl
  rw [hpairs, h]
  rfl

theorem History.decodeLeaf?_of_atKey {e : StateId × StateId} (hstate : e.1.index < UInt64.size)
    (hleaf : e.2.index < UInt64.size) {m : Json.Literal × Json}
    (h : Json.AtKey Json.Alike m (.ofString e.1.key, e.2.encode)) : decodeLeaf? m = some e := by
  cases h with
  | mk _ hvalue =>
    simp [decodeLeaf?, StateId.ofKey?_key hstate, StateId.reads_encode hleaf _ hvalue]

theorem History.exists_leaves {h : History} (hwritable : h.Writable) {j : Json}
    (halike : j.Alike (.ofMembers (h.leaves.entries.map fun e => (e.1.key, e.2.encode)))) :
    ∃ pairs, decodeLeaves? j = some (.ofList pairs) ∧ pairs.Perm h.leaves.entries := by
  obtain ⟨members, ordered, rfl, hperm, hmembers⟩ := halike.exists_members
  rw [List.map_map, List.forall₂_map_right_iff] at hmembers
  have hordered : List.Forall₂ (fun m e => decodeLeaf? m = some e) ordered h.leaves.entries :=
    Json.forall₂_of_mem hmembers fun m e he hm =>
      decodeLeaf?_of_atKey (hwritable e he).1 (hwritable e he).2 hm
  -- The order of the members passes to the entries that are read.
  obtain ⟨pairs, hpairs, hpermPairs⟩ := List.perm_comp_forall₂ hperm hordered
  exact ⟨pairs, decodeLeaves?_object (Json.mapM_eq_some hpairs), hpermPairs⟩

/-- Two histories that remember the same leaves for the same states. -/
structure History.Agrees (h h' : History) : Prop where
  size_eq : h.size = h'.size
  resume?_eq (compound : StateId) : h.resume? compound = h'.resume? compound

theorem History.agrees_ofList {h : History} {pairs : List (StateId × StateId)}
    (hperm : pairs.Perm h.leaves.entries) : History.Agrees ⟨.ofList pairs⟩ h := by
  have hnodup : (pairs.map Prod.fst).Nodup :=
    (hperm.map Prod.fst).nodup_iff.mpr h.leaves.keys_nodup
  have hentries := Table.entries_ofList hnodup
  refine ⟨?_, fun compound => Option.ext fun leaf => ?_⟩
  · rw [size, size, Table.size, Table.size, hentries, hperm.length_eq]
  · rw [resume?, resume?, Table.get?, Table.get?, hentries, Table.find?_eq_some_iff hnodup,
      Table.find?_eq_some_iff h.leaves.keys_nodup, hperm.mem_iff]

theorem History.exists_decode? {h : History} (hwritable : h.Writable) {j : Json}
    (halike : j.Alike h.encode) : ∃ h', decode? j = some h' ∧ h'.Agrees h := by
  obtain ⟨field, hfields, hfield⟩ := Json.exists_fields (by simp) halike
  obtain ⟨leaves, hleaves, halike⟩ := (hfield "records").exists_present
  obtain ⟨pairs, hpairs, hperm⟩ := exists_leaves hwritable halike
  refine ⟨⟨.ofList pairs⟩, ?_, agrees_ofList hperm⟩
  simp [decode?, hfields, hleaves, Field.required, hpairs]

theorem History.decode?_encode {h : History} (hwritable : h.Writable) :
    decode? h.encode = some h := by
  have hentries : (h.leaves.entries.map (Json.member ∘ fun e => (e.1.key, e.2.encode))).mapM
      decodeLeaf? = some h.leaves.entries :=
    Json.mapM_eq_some <| List.forall₂_map_left_iff.mpr <| List.forall₂_same.mpr fun e he =>
      decodeLeaf?_of_atKey (hwritable e he).1 (hwritable e he).2 (.mk _ (.refl _))
  have hleaves : decodeLeaves? (.ofMembers (h.leaves.entries.map fun e => (e.1.key, e.2.encode))) =
      some h.leaves := by
    rw [Json.ofMembers, List.map_map]
    exact (decodeLeaves?_object hentries).trans (congrArg some (Table.ofList_entries h.leaves))
  have hfields : h.encode.fields? ["records"] =
      some [.present (.ofMembers (h.leaves.entries.map fun e => (e.1.key, e.2.encode)))] := by
    simp [encode, Json.ofMembers, Json.fields?, Json.memberField?, Json.valuesOf]
  simp [decode?, hfields, Field.required, hleaves]

/-! ## Journals -/

theorem TimedMove.reads_encode {m : TimedMove}
    (htime : Timestamp.parse? m.time.format = some m.time) :
    Reads TimedMove.decode? m.encode m := by
  intro j halike
  obtain ⟨field, hfields, hfield⟩ := Json.exists_fields (by simp) halike
  have hsource := (hfield "from").required (.ofString m.source)
  have htarget := (hfield "to").required (.ofString m.target)
  have hevent := (hfield "event").required m.event.reads_encode
  have htimestamp := (hfield "timestamp").required ((Reads.ofString m.time.format).bind htime)
  have hattempt := (hfield "attempt").required (.count m.attempt)
  simp [TimedMove.decode?, hfields, hsource, htarget, hevent, htimestamp, hattempt]

structure Journal.Writable (j : Journal TimedMove) : Prop where
  capacity_lt : j.capacity < UInt64.size
  time (m : TimedMove) (h : m ∈ j.records) : Timestamp.parse? m.time.format = some m.time

theorem Journal.reads_encode {j : Journal TimedMove} (h : j.Writable) :
    Reads Journal.decode? j.encode j := by
  intro j' halike
  obtain ⟨field, hfields, hfield⟩ := Json.exists_fields (by simp) halike
  have hcapacity := (hfield "capacity").required (.word h.capacity_lt)
  have hrecords := (hfield "records").required
    (.list fun m hm => TimedMove.reads_encode (h.time m hm))
  simp [Journal.decode?, hfields, hcapacity, hrecords]

/-! ## All values -/

/-- `decode?` gives back what `encode` was given, in whatever order members stand: writable events,
directives and contexts, answers, slots, templates and writable journals.  A history is read with
the same leaves, and as it was if its members stand as they are written. -/
theorem reads_what_is_written :
    (∀ e : Event, e.Writable → Reads Event.decode? e.encode e) ∧
      (∀ ctx : Context, ctx.turn.confidence.isFinite → Reads Context.decode? ctx.encode ctx) ∧
      (∀ d : Directive, d.Writable → Reads Directive.decode? d.encode d) ∧
      (∀ a : Answer, Reads Answer.decode? a.encode a) ∧
      (∀ s : Slot, Reads Slot.decode? s.encode s) ∧
      (∀ t : Template, Reads Template.decode? t.encode t) ∧
      (∀ h : History, h.Writable → History.decode? h.encode = some h ∧
        ∀ j : Json, j.Alike h.encode → ∃ h', History.decode? j = some h' ∧ h'.Agrees h) ∧
      (∀ j : Journal TimedMove, j.Writable → Reads Journal.decode? j.encode j) ∧
      ∀ t : Timestamp, t.Proper → Timestamp.parse? t.format = some t :=
  ⟨fun _ => Event.reads_encode, fun _ => Context.reads_encode, fun _ => Directive.reads_encode,
    Answer.reads_encode, Slot.reads_encode, Template.reads_encode,
    fun _ hwritable =>
      ⟨History.decode?_encode hwritable, fun _ => History.exists_decode? hwritable⟩,
    fun _ => Journal.reads_encode, fun _ => Timestamp.parse?_format⟩

def Turn.wish : Turn where
  utterance := "lunch on friday"
  confidence := 0.9
  entities := [⟨"title", "lunch"⟩, ⟨"day", "friday"⟩]
  topIntent := some "create a meeting"

def Answer.reply : Answer :=
  { abstract := "A meal \"at noon\".", heading := some "Lunch" }

def Context.wished : Context where
  turn := .wish
  slots := { title := some "lunch", day := some "friday" }
  answer := some .reply
  retryCount := some 2

def History.twofold : History :=
  (History.empty.record ⟨7⟩ ⟨9⟩).record ⟨10⟩ ⟨12⟩

def Journal.way : Journal TimedMove where
  capacity := 2
  records :=
    [{ source := "idle", target := "init", event := .click, attempt := 0
       time := ⟨43200, 0⟩ },
      { source := "init", target := "welcome.prompt", event := .ttsReady, attempt := 1
        time := ⟨1483228799, 1500000000⟩ }]

theorem reads_what_is_written_wish :
    Event.decode? (Event.recognised .wish).encode = some (.recognised .wish) ∧
      Event.decode? (Event.lookupDone ⟨⟨4⟩, 7⟩ .reply).encode =
        some (.lookupDone ⟨⟨4⟩, 7⟩ .reply) ∧
      Context.decode? Context.wished.encode = some .wished ∧
      Directive.decode? (Directive.lookup ⟨⟨4⟩, 7⟩ "lunch").encode =
        some (.lookup ⟨⟨4⟩, 7⟩ "lunch") ∧
      History.decode? History.twofold.encode = some .twofold ∧
      (∃ h, History.decode? (.ofMembers [("records",
          .ofMembers [("10", .ofNat 12), ("7", .ofNat 9)])]) = some h ∧ h.Agrees .twofold) ∧
      Journal.decode? Journal.way.encode = some .way := by
  obtain ⟨hevent, hcontext, hdirective, -, -, -, hhistory, hjournal, htime⟩ :=
    reads_what_is_written
  have hticket : Ticket.Writable ⟨⟨4⟩, 7⟩ := ⟨by decide, by decide⟩
  have hconfidence : (0.9 : Float).isFinite := by decide +kernel
  have hleaves : History.twofold.Writable := by
    intro e he
    rcases List.mem_pair.mp he with rfl | rfl <;> decide
  have hencode : History.twofold.encode =
      .ofMembers [("records", .ofMembers [("7", .ofNat 9), ("10", .ofNat 12)])] := rfl
  have hsorted : (Json.ofMembers [("records",
      .ofMembers [("10", .ofNat 12), ("7", .ofNat 9)])]).Alike History.twofold.encode := by
    rw [hencode]
    exact .object (.refl _) (.cons (.mk _ (.object (.swap _ _ _) (List.forall₂_same.mpr fun m _ =>
      .mk m.1 (.refl m.2)))) .nil)
  have hway : Journal.way.Writable := ⟨by decide, fun m hm => htime _ (by
    rcases List.mem_pair.mp hm with rfl | rfl <;> exact ⟨by decide, by decide⟩)⟩
  exact ⟨(hevent (.recognised .wish) hconfidence).self,
    (hevent (.lookupDone ⟨⟨4⟩, 7⟩ .reply) hticket).self, (hcontext .wished hconfidence).self,
    (hdirective (.lookup ⟨⟨4⟩, 7⟩ "lunch") hticket).self, (hhistory .twofold hleaves).1,
    (hhistory .twofold hleaves).2 _ hsorted, (hjournal .way hway).self⟩

end Dialogue
