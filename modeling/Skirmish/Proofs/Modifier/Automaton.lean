import Skirmish.Modifier.Stack
import Skirmish.Proofs.Table

namespace Skirmish.Modifier

inductive Operation where
  | add (definition : Definition) (source : String)
  | remove (id : String)
  | removeStack (id : String)
  | tick
  | clear
  | clearSource (source : String)

def Operation.concerns (id : String) : Operation → Bool
  | add definition _ => definition.id = id
  | remove other | removeStack other => other = id
  | tick | clear | clearSource _ => true

namespace Stack

def operate (s : Stack) : Operation → Stack
  | .add definition source => s.add definition source
  | .remove id => s.erase id
  | .removeStack id => s.removeStack id
  | .tick => s.tick
  | .clear => {}
  | .clearSource source => s.clearSource source

def operateAll (s : Stack) (os : List Operation) : Stack := os.foldl operate s

/-- The automaton of one id, under the operations that concern it. -/
def entryAfter : Option Held → Operation → Option Held
  | none, .add d source => some ⟨d, source, 1, d.duration⟩
  | some h, .add d _ =>
    if d.stackable then
      let count := match d.maxStacks with
        | none => h.count + 1
        | some most => if most < h.count + 1 then most else h.count + 1
      let remaining := match d.duration with
        | none => h.remaining
        | some turns => some turns
      some ⟨h.definition, h.source, count, remaining⟩
    else some h
  | some h, .removeStack _ =>
    if h.count - 1 ≤ 0 then none else some ⟨h.definition, h.source, h.count - 1, h.remaining⟩
  | some h, .tick =>
    match h.remaining with
    | none => some h
    | some turns =>
      if turns - 1 ≤ 0 then none else some ⟨h.definition, h.source, h.count, some (turns - 1)⟩
  | some h, .clearSource source => if h.source = source then none else some h
  | _, .remove _ | _, .clear => none
  | none, .removeStack _ | none, .tick | none, .clearSource _ => none

theorem get?_removeStack (s : Stack) (id other : String) :
    (s.removeStack other).get? id =
      if id = other then (s.get? id).bind fun h =>
        if h.count - 1 ≤ 0 then none else some { h with count := h.count - 1 }
      else s.get? id := by
  rw [removeStack]
  split
  next hnone => split <;> simp_all
  next h hheld =>
    by_cases hlast : h.count - 1 ≤ 0
    · rw [if_pos hlast, Table.get?_erase]
      split
      next hid => rw [hid, hheld, Option.bind_some, if_pos hlast]
      next => rfl
    · rw [if_neg hlast, Table.get?_insert]
      split
      next hid => rw [hid, hheld, Option.bind_some, if_neg hlast]
      next => rfl

theorem again_eq_entryAfter (h : Held) (d : Definition) (source : String) :
    some (h.again d) = entryAfter (some h) (.add d source) := by
  cases hstack : d.stackable with
  | false => simp [Held.again, entryAfter, hstack]
  | true =>
    simp only [Held.again, entryAfter, hstack, if_true, Option.some.injEq, Held.mk.injEq, true_and]
    constructor
    · cases d.maxStacks with
      | none => rfl
      | some most => simp only [Held.limited]; split <;> omega
    · cases d.duration <;> rfl

theorem ticked_eq_entryAfter (entry : Option Held) :
    (entry.map Held.ticked).filter (fun h => !h.isOver) = entryAfter entry .tick := by
  cases entry with
  | none => rfl
  | some h =>
    obtain ⟨definition, source, count, remaining⟩ := h
    cases remaining with
    | none => rfl
    | some turns =>
      simp only [entryAfter, Held.ticked, Held.isOver, Option.map_some, Option.filter_some]
      by_cases hover : turns - 1 ≤ 0 <;> simp only [hover] <;> rfl

/-- An operation does to the entry of an id what the automaton does, or nothing. -/
theorem get?_operate (s : Stack) (o : Operation) (id : String) :
    (s.operate o).get? id = if o.concerns id then entryAfter (s.get? id) o else s.get? id := by
  cases o with
  | add d source =>
    rw [operate, get?_add]
    by_cases hid : id = d.id
    · cases hheld : s.get? id with
      | none => simp [Operation.concerns, hid, entryAfter, Held.start]
      | some h => simp [Operation.concerns, hid, ← again_eq_entryAfter]
    · simp [Operation.concerns, hid, Ne.symm hid]
  | remove other =>
    rw [operate, Table.get?_erase]
    by_cases hid : id = other
    · cases s.get? id <;> simp [Operation.concerns, hid, entryAfter]
    · simp [Operation.concerns, hid, Ne.symm hid]
  | removeStack other =>
    rw [operate, get?_removeStack]
    by_cases hid : id = other
    · cases s.get? id <;> simp [Operation.concerns, hid, entryAfter]
    · simp [Operation.concerns, hid, Ne.symm hid]
  | tick => simp [operate, Operation.concerns, get?_tick, ticked_eq_entryAfter]
  | clear => cases s.get? id <;> rfl
  | clearSource source =>
    rw [operate, get?_clearSource]
    cases s.get? id with
    | none => rfl
    | some h =>
      by_cases hsource : h.source = source <;> simp [Operation.concerns, entryAfter, hsource]

/-- What holds of all entries holds after an operation, if it holds of what the operation makes of
the entries that it concerns. -/
theorem forall_entries_operate {s : Stack} {o : Operation} {p : String → Held → Prop}
    (hs : ∀ e ∈ s.entries, p e.1 e.2)
    (hstep : ∀ id h, o.concerns id → entryAfter (s.get? id) o = some h → p id h) :
    ∀ e ∈ (s.operate o).entries, p e.1 e.2 := by
  rw [Table.forall_entries_iff] at hs ⊢
  intro id h hget
  rw [get?_operate] at hget
  split at hget
  next hconcerns => exact hstep id h hconcerns hget
  next => exact hs id h hget

theorem get?_operateAll (s : Stack) (os : List Operation) (id : String) :
    (s.operateAll os).get? id =
      (os.filter fun o => o.concerns id).foldl entryAfter (s.get? id) := by
  induction os generalizing s with
  | nil => rfl
  | cons o os ih =>
      show ((s.operate o).operateAll os).get? id = _
      rw [ih, get?_operate]
      cases hconcerns : o.concerns id <;> simp [hconcerns]

/-- The entry of an id is what its own operations make of it: on a stack that nothing else
happens to, and in the automaton. -/
theorem entry_operateAll (os : List Operation) (id : String) :
    (operateAll {} os).get? id = (operateAll {} (os.filter fun o => o.concerns id)).get? id ∧
      (operateAll {} os).get? id = (os.filter fun o => o.concerns id).foldl entryAfter none := by
  have hempty : ({} : Stack).get? id = none := rfl
  constructor
  · rw [get?_operateAll, get?_operateAll, List.filter_filter]
    simp only [Bool.and_self]
  · rw [get?_operateAll, hempty]

end Stack

end Skirmish.Modifier
