import Skirmish.Modifier.Save
import Skirmish.Proofs.Fallible
import Skirmish.Proofs.Modifier.Automaton

namespace Skirmish.Modifier

theorem optionalWhole_of_get? {d : Document} {key : String} {n : Option Int}
    (h : d.get? key = some (saveOption n)) : optionalWhole d key = .ok n := by
  cases n with
  | none => simp [optionalWhole, h, saveOption]
  | some n =>
      simp [optionalWhole, h, saveOption, Document.ofInt]

theorem Effect.restore_save (e : Effect) : Effect.restore e.save = .ok e := by
  simp [Effect.restore, Effect.save, require, Document.get?, Table.lookup, textOr, asText,
    asQuantity, Mode.ofName_name]

theorem mapM_restore_save (es : List Effect) :
    (es.map Effect.save).mapM Effect.restore = .ok es := by
  induction es with
  | nil => rfl
  | cons e es ih => simp [List.mapM_cons, Effect.restore_save, ih]

theorem Definition.restore_save (d : Definition) : Definition.restore d.save = .ok d := by
  have hid : require d.save "id" = .ok (.text d.id) := rfl
  have hname : textOr d.save "name" d.id = .ok d.name := rfl
  have hdescription : textOr d.save "description" "" = .ok d.description := rfl
  have heffects : restoreEffects d.save = .ok d.effects := mapM_restore_save d.effects
  have hduration : optionalWhole d.save "duration" = .ok d.duration := optionalWhole_of_get? rfl
  have hstackable : d.save.get? "stackable" = some (.bool d.stackable) := rfl
  have hmost : optionalWhole d.save "maxStacks" = .ok d.maxStacks := optionalWhole_of_get? rfl
  simp [Definition.restore, hid, asText, hname, hdescription, heffects, hduration, hstackable,
    isTruthy, hmost]

/-- The definition is saved along with its modifier, so that nothing is looked up. -/
theorem Held.restore_save (lookup : Lookup) (h : Held) :
    Held.restore lookup h.save = .ok (some h) := by
  have hdefinition : savedDefinition lookup h.save = .ok (some h.definition) := by
    have hbody : savedDefinition lookup h.save = some <$> Definition.restore h.definition.save := by
      cases lookup <;> rfl
    rw [hbody, Definition.restore_save]
    rfl
  have hsource : require h.save "sourceType" = .ok (.text h.source) := rfl
  have hcount : asWhole ((h.save.get? "stacks").getD (.ofInt 1)) = .ok h.count := rfl
  have hremaining : optionalWhole h.save "duration" = .ok h.remaining := optionalWhole_of_get? rfl
  simp [Held.restore, hdefinition, hsource, asText, hcount, hremaining]

namespace Stack

def Keyed (s : Stack) : Prop := ∀ e ∈ s.entries, e.2.definition.id = e.1

theorem restoreFrom_save (lookup : Lookup) (s : Stack) (es : List (String × Held))
    (h : ∀ e ∈ es, e.2.definition.id = e.1) :
    restoreFrom lookup s (es.map fun e => e.2.save) = .ok (s.insertAll es) := by
  induction es generalizing s with
  | nil => rfl
  | cons e es ih =>
      obtain ⟨he, hes⟩ := List.forall_mem_cons.1 h
      simp [restoreFrom, Held.restore_save, he, ih _ hes, Table.insertAll]

theorem Keyed.restore_save {s : Stack} (h : s.Keyed) (lookup : Lookup) :
    restore lookup s.save = .ok s := by
  have hall : Table.insertAll {} s.entries = s := Table.ofList_entries s
  have hrestored := restoreFrom_save lookup {} s.entries h
  rw [hall] at hrestored
  rw [restore, save, Table.values, List.map_map]
  exact hrestored

theorem id_of_entryAfter {id : String} {entry : Option Held} {o : Operation} {h : Held}
    (hconcerns : o.concerns id) (hentry : ∀ h ∈ entry, h.definition.id = id)
    (hafter : entryAfter entry o = some h) : h.definition.id = id := by
  cases entry with
  | none =>
      cases o with
      | add d source =>
          cases hafter
          simpa [Operation.concerns] using hconcerns
      | remove | removeStack | tick | clear | clearSource => cases hafter
  | some held =>
      have hid : held.definition.id = id := hentry held rfl
      cases o with
      | add d source =>
          rw [← again_eq_entryAfter] at hafter
          cases hafter
          rw [Held.again]
          split <;> exact hid
      | tick | removeStack | clearSource => simp only [entryAfter] at hafter; grind
      | remove | clear => cases hafter

theorem Keyed.operate {s : Stack} (h : s.Keyed) (o : Operation) : (s.operate o).Keyed := by
  refine forall_entries_operate (p := fun id held => held.definition.id = id) h ?_
  intro id held hconcerns hafter
  exact id_of_entryAfter hconcerns (fun g hg => h (id, g) (Table.mem_of_lookup hg)) hafter

theorem Keyed.operateAll {s : Stack} (h : s.Keyed) (os : List Operation) :
    (s.operateAll os).Keyed := by
  induction os generalizing s with
  | nil => exact h
  | cons o os ih => exact ih (h.operate o)

/-- Whatever has been done to a stack, saving it loses nothing. -/
theorem restore_save_operateAll (lookup : Lookup) (os : List Operation) :
    restore lookup (operateAll {} os).save = .ok (operateAll {} os) := by
  have hempty : Keyed {} := List.forall_mem_nil _
  exact (hempty.operateAll os).restore_save lookup

end Stack

end Skirmish.Modifier
