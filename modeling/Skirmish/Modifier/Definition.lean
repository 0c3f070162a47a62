import Skirmish.Modifier.Effect

namespace Skirmish.Modifier

/-- Without a duration a modifier stays; without a maximum its stacks have no bound. -/
structure Definition where
  id : String
  name : String
  effects : List Effect := []
  description : String := ""
  duration : Option Int := none
  stackable : Bool := false
  maxStacks : Option Int := none

def Effect.told (e : Effect) : Quantity.Result String := do
  let shown ← e.value.shown
  return "+" ++ shown ++ (if e.mode = .percent then "% " else " ") ++ e.stat

namespace Definition

def single (id name : String) (effect : Effect) (duration : Option Int) :
    Quantity.Result Definition := do
  return { id, name, duration, effects := [effect], description := ← effect.told }

def flat (id name stat : String) (value : Quantity) (duration : Option Int) :
    Quantity.Result Definition :=
  single id name ⟨stat, .flat, value⟩ duration

def percent (id name stat : String) (value : Quantity) (duration : Option Int) :
    Quantity.Result Definition :=
  single id name ⟨stat, .percent, value⟩ duration

def equipment (id name : String) (effects : List Effect) : Quantity.Result Definition := do
  let told ← effects.mapM Effect.told
  return { id, name, effects, description := String.intercalate ", " told }

def stacking (id name stat : String) (sign : String) (shown value : Quantity)
    (maxStacks duration : Int) : Quantity.Result Definition := do
  let text ← shown.shown
  let most := " per stack (max " ++ toString maxStacks ++ ")"
  return { id, name, duration := some duration, stackable := true, maxStacks := some maxStacks
           effects := [⟨stat, .flat, value⟩]
           description := sign ++ text ++ " " ++ stat ++ most }

def stackableBuff (id name stat : String) (value : Quantity) (maxStacks duration : Int) :
    Quantity.Result Definition :=
  stacking id name stat "+" value value maxStacks duration

/-- Takes the value away, whatever its sign. -/
def stackableDebuff (id name stat : String) (value : Quantity) (maxStacks duration : Int) :
    Quantity.Result Definition :=
  stacking id name stat "-" value.abs (-value.abs) maxStacks duration

def timed (id name : String) (effect : Effect) (duration : Option Int) (description : String) :
    Definition :=
  { id, name, duration, description, effects := [effect] }

end Definition

end Skirmish.Modifier
