import Skirmish.Document
import Skirmish.Modifier.Stack
import Skirmish.Number.Numeral

namespace Skirmish.Modifier

inductive RestoreError where
  | missingKey (key : String)
  | wrongType
  | unreadableNumber
  | arithmetic (cause : ArithmeticError)
  deriving DecidableEq, Repr

abbrev Restored := Except RestoreError

def saveOption (n : Option Int) : Document :=
  match n with
  | none => .null
  | some n => .ofInt n

def Effect.save (e : Effect) : Document :=
  .object [("stat", .text e.stat), ("valueType", .text e.mode.name), ("value", .number e.value)]

def Definition.save (d : Definition) : Document :=
  .object [
    ("id", .text d.id),
    ("name", .text d.name),
    ("description", .text d.description),
    ("effects", .list (d.effects.map Effect.save)),
    ("duration", saveOption d.duration),
    ("stackable", .bool d.stackable),
    ("maxStacks", saveOption d.maxStacks)]

def Held.save (h : Held) : Document :=
  .object [
    ("id", .text h.definition.id),
    ("sourceType", .text h.source),
    ("stacks", .ofInt h.count),
    ("duration", saveOption h.remaining),
    ("definition", h.definition.save)]

def Stack.save (s : Stack) : List Document := s.values.map Held.save

def require (d : Document) (key : String) : Restored Document :=
  match d with
  | .object _ =>
    match d.get? key with
    | some v => .ok v
    | none => .error (.missingKey key)
  | _ => .error .wrongType

def asText : Document → Restored String
  | .text s => .ok s
  | .illFormed codes => .ok (Text.ofCodes codes)
  | _ => .error .wrongType

def asQuantity : Document → Restored Quantity
  | .number q => .ok q
  | .bool b => .ok (if b then 1 else 0)
  | _ => .error .wrongType

/-- A number loses its fraction; a text has to be the numeral of an integer. -/
def asWhole : Document → Restored Int
  | .number q => q.truncate.mapError .arithmetic
  | .bool b => .ok (if b then 1 else 0)
  | .text s =>
    match Numeral.whole? s with
    | some n => .ok n
    | none => .error .unreadableNumber
  | .illFormed _ => .error .unreadableNumber
  | _ => .error .wrongType

/-- A whole number is kept as it is, and so is none; nothing else counts turns or stacks. -/
def optionalWhole (d : Document) (key : String) : Restored (Option Int) :=
  match d.get? key with
  | none | some .null => .ok none
  | some (.number (.whole n)) => .ok (some n)
  | some _ => .error .wrongType

def textOr (d : Document) (key default : String) : Restored String :=
  match d.get? key with
  | none => .ok default
  | some v => asText v

def isTruthy : Document → Bool
  | .null => false
  | .bool b => b
  | .number q => !q.isZero
  | .text s => !s.isEmpty
  | .illFormed codes => !codes.isEmpty
  | .list items => !items.isEmpty
  | .object fields => !fields.isEmpty

def Effect.restore (d : Document) : Restored Effect := do
  let stat ← asText (← require d "stat")
  let mode ← textOr d "valueType" "flat"
  let value ← asQuantity (← require d "value")
  return ⟨stat, .ofName mode, value⟩

def restoreEffects (d : Document) : Restored (List Effect) :=
  match d.get? "effects" with
  | none => .ok []
  | some (.list items) => items.mapM Effect.restore
  | some _ => .error .wrongType

def Definition.restore (d : Document) : Restored Definition := do
  let id ← asText (← require d "id")
  let name ← textOr d "name" id
  let description ← textOr d "description" ""
  let effects ← restoreEffects d
  let duration ← optionalWhole d "duration"
  let stackable := ((d.get? "stackable").map isTruthy).getD false
  let maxStacks ← optionalWhole d "maxStacks"
  return { id, name, description, effects, duration, stackable, maxStacks }

abbrev Lookup := Option (String → Option Definition)

def savedDefinition (lookup : Lookup) (d : Document) : Restored (Option Definition) :=
  match d, d.get? "definition", lookup with
  | .object _, none, none | .object _, some .null, none => .ok none
  | .object _, none, some find | .object _, some .null, some find => do
    return find (← asText (← require d "id"))
  | .object _, some body, _ => some <$> Definition.restore body
  | _, _, _ => .error .wrongType

def Held.restore (lookup : Lookup) (d : Document) : Restored (Option Held) := do
  match ← savedDefinition lookup d with
  | none => return none
  | some definition =>
    let source ← asText (← require d "sourceType")
    let count ← asWhole ((d.get? "stacks").getD (.ofInt 1))
    let remaining ← optionalWhole d "duration"
    return some { definition, source, count, remaining }

def Stack.restoreFrom (lookup : Lookup) (s : Stack) : List Document → Restored Stack
  | [] => .ok s
  | d :: ds => do
    match ← Held.restore lookup d with
    | none => restoreFrom lookup s ds
    | some h => restoreFrom lookup (s.insert h.definition.id h) ds

def Stack.restore (lookup : Lookup) (saved : List Document) : Restored Stack :=
  Stack.restoreFrom lookup {} saved

end Skirmish.Modifier
