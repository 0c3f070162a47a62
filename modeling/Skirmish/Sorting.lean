namespace Skirmish.Sorting

variable {α : Type}

/-- An element and those after it, as far as each stands to the next in a relation; and the rest. -/
def stretch (related : α → α → Bool) (x : α) : List α → List α × List α
  | [] => ([x], [])
  | y :: ys =>
    if related x y then
      let (run, rest) := stretch related y ys
      (x :: run, rest)
    else ([x], y :: ys)

/-- The run that a list begins with, turned round if it falls, and the rest. -/
def firstRun (before : α → α → Bool) : List α → List α × List α
  | [] => ([], [])
  | [x] => ([x], [])
  | x :: y :: ys =>
    if before y x then
      let (run, rest) := stretch (fun a b => before b a) x (y :: ys)
      (run.reverse, rest)
    else stretch (fun a b => !before b a) x (y :: ys)

def place (before : α → α → Bool) (x : α) (xs : List α) : List α :=
  if h : xs.length = 0 then [x]
  else if before x (xs.get ⟨xs.length / 2, by omega⟩) then
    place before x (xs.take (xs.length / 2)) ++ xs.drop (xs.length / 2)
  else xs.take (xs.length / 2 + 1) ++ place before x (xs.drop (xs.length / 2 + 1))
termination_by xs.length
decreasing_by
  · rw [List.length_take]
    omega
  · rw [List.length_drop]
    omega

/-- Keeps the first run and puts every later element in its place. An order decides the outcome by
itself; of a relation that is none, such as one that not-a-number takes part in, this is a
permutation all the same. -/
def sorted (before : α → α → Bool) (xs : List α) : List α :=
  let (run, rest) := firstRun before xs
  rest.foldl (fun run x => place before x run) run

end Skirmish.Sorting
