import Dialogue.History
import Dialogue.Journal
import Dialogue.Timestamp.Rfc3339
import Dialogue.Wire.Basic
/-!
# Histories and journals on the wire
-/

namespace Dialogue

open Json (Literal)

/-! ## Histories -/

def StateId.key (id : StateId) : String :=
  toString id.index

def digitPiece? : Json.Piece → Option Nat
  | .plain c => if c.isDigit then some (c.toNat - '0'.toNat) else none
  | _ => none

/-- Reads the key for a state, which must be written in plain digits without a zero in front. -/
def StateId.ofKey? (key : Literal) : Option StateId := do
  let digits ← key.mapM digitPiece?
  let n := Json.Numeral.ofDigits digits
  if digits.isEmpty || (digits.head? == some 0 && digits.length != 1) || UInt64.size ≤ n then none
  else pure ⟨n⟩

def History.decodeLeaves? : Json → Option (Table StateId StateId)
  | .object members => do
    let pairs ← members.mapM fun m => do pure (← StateId.ofKey? m.1, ← StateId.decode? m.2)
    pure (.ofList pairs)
  | _ => none

def History.encode (h : History) : Json :=
  .ofMembers
    [("records", .ofMembers (h.leaves.entries.map fun e => (e.1.key, e.2.encode)))]

def History.decode? (j : Json) : Option History := do
  match ← j.fields? ["records"] with
  | [records] => pure ⟨← records.required decodeLeaves?⟩
  | _ => none

/-! ## Journals -/

def TimedMove.encode (m : TimedMove) : Json :=
  .ofMembers
    [("from", .ofString m.source), ("to", .ofString m.target), ("event", m.event.encode),
      ("timestamp", .ofString m.time.format), ("attempt", .ofNat m.attempt.toNat)]

def TimedMove.decode? (j : Json) : Option TimedMove := do
  match ← j.fields? ["from", "to", "event", "timestamp", "attempt"] with
  | [source, target, event, timestamp, attempt] =>
    pure
      { source := ← source.required Json.string?
        target := ← target.required Json.string?
        event := ← event.required EventKind.decode?
        time := ← timestamp.required fun j => j.string?.bind Timestamp.parse?
        attempt := ← attempt.required Json.count? }
  | _ => none

def Journal.encode (j : Journal TimedMove) : Json :=
  .ofMembers
    [("capacity", .ofNat j.capacity), ("records", .array (j.records.map TimedMove.encode))]

/-- Reads a journal as it was written, whatever its capacity. -/
def Journal.decode? (j : Json) : Option (Journal TimedMove) := do
  match ← j.fields? ["capacity", "records"] with
  | [capacity, records] =>
    pure
      { capacity := ← capacity.required Json.word?
        records := ← records.required (Json.list? TimedMove.decode?) }
  | _ => none

end Dialogue
