import Skirmish.Modifier.Definition
import Skirmish.Stat.Block

namespace Skirmish.Modifier

structure Held where
  definition : Definition
  source : String
  count : Int := 1
  remaining : Option Int := none

namespace Held

def start (definition : Definition) (source : String) : Held :=
  ⟨definition, source, 1, definition.duration⟩

def limited (count : Int) : Option Int → Int
  | none => count
  | some most => min count most

/-- What a further addition makes of a modifier held already. -/
def again (h : Held) (added : Definition) : Held :=
  if added.stackable then
    { h with
      count := limited (h.count + 1) added.maxStacks
      remaining := added.duration.or h.remaining }
  else h

def ticked (h : Held) : Held := { h with remaining := h.remaining.map (· - 1) }

def isOver (h : Held) : Bool :=
  match h.remaining with
  | none => false
  | some n => n ≤ 0

end Held

abbrev Stack := Table Held

namespace Stack

def add (s : Stack) (definition : Definition) (source : String) : Stack :=
  match s.get? definition.id with
  | none => s.insert definition.id (.start definition source)
  | some h => s.insert definition.id (h.again definition)

theorem get?_add (s : Stack) (d : Definition) (source id : String) :
    (s.add d source).get? id =
      if id = d.id then
        some (((s.get? id).map fun h => h.again d).getD (.start d source))
      else s.get? id := by
  by_cases hid : id = d.id
  · subst hid
    cases h : s.get? d.id <;> simp [add, h, Table.get?_insert]
  · cases h : s.get? d.id <;> simp [add, h, Table.get?_insert, hid]

def removeStack (s : Stack) (id : String) : Stack :=
  match s.get? id with
  | none => s
  | some h =>
    if h.count - 1 ≤ 0 then s.erase id
    else s.insert id { h with count := h.count - 1 }

def tick (s : Stack) : Stack :=
  (s.map fun _ h => h.ticked).filter fun _ h => !h.isOver

theorem get?_tick (s : Stack) (id : String) :
    s.tick.get? id = ((s.get? id).map Held.ticked).filter fun h => !h.isOver := by
  simp [tick, Table.get?_filter, Table.get?_map]

def expiring (s : Stack) : List String :=
  (s.filter fun _ h => h.ticked.isOver).keys

def bySource (s : Stack) (source : String) : List Held :=
  s.values.filter fun h => h.source = source

def clearSource (s : Stack) (source : String) : Stack :=
  s.filter fun _ h => h.source ≠ source

theorem get?_clearSource (s : Stack) (source id : String) :
    (s.clearSource source).get? id = (s.get? id).filter fun h => h.source ≠ source := by
  simp [clearSource, Table.get?_filter]

def stacksOf (s : Stack) (id : String) : Int :=
  match s.get? id with
  | none => 0
  | some h => h.count

def remainingOf (s : Stack) (id : String) : Option Int := (s.get? id).bind Held.remaining

def effects (s : Stack) : List (Effect × Int) :=
  s.values.flatMap fun h => h.definition.effects.map fun e => (e, h.count)

structure Totals where
  flat : Stat.Block := {}
  percent : Stat.Block := {}

def Totals.add (t : Totals) (e : Effect) (count : Int) : Quantity.Result Totals := do
  let value ← e.value.mul (.whole count)
  if e.mode.isFlat then
    return { t with flat := t.flat.insert e.stat (← (t.flat.getD e.stat 0).add value) }
  else
    return { t with percent := t.percent.insert e.stat (← (t.percent.getD e.stat 0).add value) }

def total (t : Totals) : List (Effect × Int) → Quantity.Result Totals
  | [] => .ok t
  | e :: es => do total (← t.add e.1 e.2) es

/-- A value with a sum added and a percentage on top, rounded down. -/
def adjusted (base flat percent : Quantity) : Quantity.Result Int := do
  let sum ← base.add flat
  (← raised sum percent).floor

def adjustAll (t : Totals) :
    List (String × Quantity) → Quantity.Result (List (String × Quantity))
  | [] => .ok []
  | e :: es => do
    let n ← adjusted e.2 (t.flat.getD e.1 0) (t.percent.getD e.1 0)
    return (e.1, .whole n) :: (← adjustAll t es)

/-- Adjusts the stats of a block; a stat that it lacks is not added. -/
def applyTo (s : Stack) (base : Stat.Block) : Quantity.Result Stat.Block := do
  let t ← total {} s.effects
  return Table.ofList (← adjustAll t base.entries)

structure Bonus where
  flat : Quantity
  percent : Quantity
  final : Int

def bonusSums (stat : String) (sums : Effect.Sums) :
    List (Effect × Int) → Quantity.Result Effect.Sums
  | [] => .ok sums
  | e :: es => do
    if e.1.stat = stat then
      let value ← e.1.value.mul (.whole e.2)
      bonusSums stat (← sums.add { e.1 with value }) es
    else bonusSums stat sums es

def bonus (s : Stack) (stat : String) (base : Quantity) : Quantity.Result Bonus := do
  let sums ← bonusSums stat {} s.effects
  return ⟨sums.flat, sums.percent, ← adjusted base sums.flat sums.percent⟩

end Stack

end Skirmish.Modifier
