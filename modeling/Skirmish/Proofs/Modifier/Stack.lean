import Mathlib.Logic.Relation
import Skirmish.Modifier.Stack
import Skirmish.Proofs.Fallible
import Skirmish.Proofs.Table

namespace Skirmish.Modifier.Stack

theorem keys_adjustAll {t : Totals} {es es' : List (String × Quantity)}
    (h : adjustAll t es = .ok es') : es'.map Prod.fst = es.map Prod.fst := by
  induction es generalizing es' with
  | nil =>
      cases h
      rfl
  | cons e es ih =>
      simp only [adjustAll, Fallible.bind_eq_ok, Fallible.pure_eq, Except.ok.injEq] at h
      obtain ⟨n, -, rest, hrest, rfl⟩ := h
      simp [ih hrest]

theorem keys_applyTo {s : Stack} {base stats : Stat.Block} (h : s.applyTo base = .ok stats) :
    stats.keys = base.keys := by
  simp only [applyTo, Fallible.bind_eq_ok, Fallible.pure_eq, Except.ok.injEq] at h
  obtain ⟨t, -, es, hes, rfl⟩ := h
  have hkeys := keys_adjustAll hes
  rw [Table.keys, Table.entries_ofList (hkeys ▸ base.nodup), hkeys, Table.keys]

/-- What may be done to a stack within a turn: a modifier that does not stack is added, or debuffs
are cured. -/
inductive Edit (s : Stack) : Stack → Prop
  | add (definition : Definition) (source : String) (h : definition.stackable = false) :
      Edit s (s.add definition source)
  | cure : Edit s (s.clearSource "debuff")

abbrev Edits : Stack → Stack → Prop := Relation.ReflTransGen Edit

variable {s t : Stack} {id : String} {h : Held}

theorem Edit.entry (hedit : Edit s t) (hs : s.get? id = some h) (hsource : h.source ≠ "debuff") :
    t.get? id = some h := by
  cases hedit with
  | add definition source hstack =>
      rw [get?_add, hs]
      split
      · simp [Held.again, hstack]
      · rfl
  | cure => rw [get?_clearSource, hs, Option.filter_some, if_pos (by simpa using hsource)]

/-- Within a turn an entry that is no debuff stays as it is, its remaining turns included. -/
theorem Edits.entry (hedits : Edits s t) (hs : s.get? id = some h) (hsource : h.source ≠ "debuff") :
    t.get? id = some h := by
  induction hedits with
  | refl => exact hs
  | tail _ hedit ih => exact hedit.entry ih hsource

end Skirmish.Modifier.Stack
