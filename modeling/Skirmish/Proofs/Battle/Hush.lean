import Skirmish.Proofs.Battle.Apart
import Skirmish.Proofs.Battle.Course

namespace Skirmish

mutual

/-- The event with an empty list of events for each dialog. -/
def Event.hushed : Event → Event
  | .dialog .. => .multi []
  | .multi events => .multi (Event.hushedAll events)
  | e => e

def Event.hushedAll : List Event → List Event
  | [] => []
  | e :: es => e.hushed :: Event.hushedAll es

end

mutual

def Event.Plain : Event → Prop
  | .dialog _ _ options => options = []
  | .multi events => Event.PlainAll events
  | _ => True

def Event.PlainAll : List Event → Prop
  | [] => True
  | e :: es => e.Plain ∧ Event.PlainAll es

end

theorem Event.hushedAll_eq_map (es : List Event) : Event.hushedAll es = es.map Event.hushed := by
  induction es with
  | nil => rfl
  | cons e es ih => rw [Event.hushedAll, ih, List.map_cons]

theorem Event.hushed_eq_self {e : Event}
    (hdialog : ∀ text speaker options, e ≠ .dialog text speaker options)
    (hmulti : ∀ events, e ≠ .multi events) : e.hushed = e := by
  cases e with
  | dialog text speaker options => exact absurd rfl (hdialog text speaker options)
  | multi events => exact absurd rfl (hmulti events)
  | _ => rfl

theorem Event.plainAll_iff {es : List Event} : Event.PlainAll es ↔ ∀ e ∈ es, e.Plain := by
  induction es with
  | nil => simp [Event.PlainAll]
  | cons e es ih => simp [Event.PlainAll, ih]

def Trigger.hushed (t : Trigger) : Trigger := { t with event := t.event.hushed }

def Scene.hushed (s : Scene) : Scene := { s with triggers := s.triggers.map Trigger.hushed }

namespace Trigger

theorem fireAll_hushed (c : Formula.Context) (ts : List Trigger) :
    fireAll c (ts.map hushed) = List.map hushed <$> fireAll c ts := by
  induction ts with
  | nil => rfl
  | cons t ts ih =>
      have hkey : t.hushed.key = t.key := rfl
      have hmay : t.hushed.mayFire = t.mayFire := rfl
      have hholds : t.hushed.holds c = t.holds c := rfl
      simp only [List.map_cons, fireAll, hkey, hmay, hholds, map_bind]
      refine bind_congr fun counts => ?_
      split
      · exact ih
      · simp only [map_bind]
        refine bind_congr fun holds => ?_
        split
        · simp only [ih, map_bind, map_pure, bind_map_left, List.map_cons]
        · exact ih

theorem fireAll_cons_eq_ok {c : Formula.Context} {t : Trigger} {ts fired : List Trigger}
    {counts counts' : Counts} (h : (fireAll c (t :: ts)).run.run counts = (.ok fired, counts')) :
    (t.mayFire (counts.getD t.key 0) = false ∨ t.holds c = .ok false) ∧
        (fireAll c ts).run.run counts = (.ok fired, counts') ∨
      ∃ rest, t.mayFire (counts.getD t.key 0) = true ∧ t.holds c = .ok true ∧ fired = t :: rest ∧
        (fireAll c ts).run.run (counts.insert t.key (counts.getD t.key 0 + 1)) =
          (.ok rest, counts') := by
  rw [fireAll] at h
  change (ite (!t.mayFire (counts.getD t.key 0)) (fireAll c ts) _ :
    ExceptT _ (StateM Counts) _).run.run counts = _ at h
  split at h
  next hmay => exact .inl ⟨.inl (by simpa using hmay), h⟩
  next hmay =>
    cases hholds : t.holds c with
    | error e =>
        rw [hholds] at h
        cases h
    | ok holds =>
        rw [hholds] at h
        change (ite _ _ (fireAll c ts) : ExceptT _ (StateM Counts) _).run.run counts = _ at h
        split at h
        next hfires =>
          change (List.cons t <$> fireAll c ts).run.run
            (counts.insert t.key (counts.getD t.key 0 + 1)) = _ at h
          rw [ExceptT.run_map, StateT.run_map] at h
          cases hrest : (fireAll c ts).run.run
              (counts.insert t.key (counts.getD t.key 0 + 1)) with
          | mk outcome last =>
              rw [hrest] at h
              cases outcome with
              | error e => cases h
              | ok rest =>
                  cases h
                  exact .inr ⟨rest, by simpa using hmay, by rw [hfires], rfl, rfl⟩
        next hfails => exact .inl ⟨.inr (by simpa using hfails), h⟩

theorem fireAll_sublist {c : Formula.Context} {ts fired : List Trigger} {counts counts' : Counts}
    (h : (fireAll c ts).run.run counts = (.ok fired, counts')) : fired.Sublist ts := by
  induction ts generalizing fired counts with
  | nil =>
      cases h
      exact .refl []
  | cons t ts ih =>
      rcases fireAll_cons_eq_ok h with ⟨-, hrest⟩ | ⟨rest, -, -, rfl, hrest⟩
      · exact (ih hrest).cons t
      · exact (ih hrest).cons_cons t

namespace Book

theorem triggers_evaluate (k : Book) (fighters : List Fighter) (turn : Quantity) :
    (k.evaluate fighters turn).2.triggers = k.triggers := by
  rw [evaluate]
  split <;> rfl

theorem subset_of_evaluate {k : Book} {fighters : List Fighter} {turn : Quantity}
    {fired : List Trigger} (h : (k.evaluate fighters turn).1 = .ok fired) :
    fired ⊆ k.triggers := by
  rw [evaluate] at h
  split at h
  · cases h
  next c _ =>
    cases hrun : (fireAll c k.triggers).run.run k.fired with
    | mk outcome counts =>
        rw [hrun] at h
        obtain rfl : outcome = .ok fired := h
        exact (fireAll_sublist hrun).subset

def hushed (k : Book) : Book := { k with triggers := k.triggers.map Trigger.hushed }

theorem evaluate_hushed (k : Book) (fighters : List Fighter) (turn : Quantity) :
    k.hushed.evaluate fighters turn =
      ((k.evaluate fighters turn).1.map (List.map Trigger.hushed),
        (k.evaluate fighters turn).2.hushed) := by
  simp only [evaluate, hushed]
  split
  · rfl
  next c _ =>
    rw [fireAll_hushed]
    simp only [ExceptT.run_map, StateT.run_map]
    rfl

theorem assignIds_hushed (named : Nat) (ts : List Trigger) :
    assignIds named (ts.map Trigger.hushed) =
      ((assignIds named ts).1.map Trigger.hushed, (assignIds named ts).2) := by
  induction ts generalizing named with
  | nil => rfl
  | cons t ts ih =>
      have hkey : t.hushed.key = t.key := rfl
      rw [List.map_cons, assignIds, assignIds, hkey, ih, ih]
      split <;> rfl

theorem exists_of_mem_assignIds {named : Nat} {ts : List Trigger} {t : Trigger}
    (h : t ∈ (assignIds named ts).1) : ∃ t' ∈ ts, ∃ id, t = { t' with id } := by
  induction ts generalizing named with
  | nil => cases h
  | cons u ts ih =>
      rw [assignIds] at h
      split at h
      all_goals
        rcases List.mem_cons.1 h with rfl | h
        · exact ⟨_, List.mem_cons_self .., _, rfl⟩
        · obtain ⟨t', ht', hid⟩ := ih h
          exact ⟨t', .tail _ ht', hid⟩

theorem setTriggers_hushed (k : Book) (ts : List Trigger) :
    k.hushed.setTriggers (ts.map Trigger.hushed) = (k.setTriggers ts).hushed := by
  have hnamed : k.hushed.named = k.named := rfl
  simp only [setTriggers, hnamed, assignIds_hushed]
  rfl

end Book

end Trigger

namespace Battle

variable {b b' : Battle}

def hush (b : Battle) : Battle :=
  { b with
    scene := b.scene.map Scene.hushed
    phase := if b.phase = .dialog then b.resume.headD .start else b.phase
    resume := [], dialogs := [], listeners := [], notices := []
    triggers := b.triggers.hushed }

theorem hush_phase (h : b.phase ≠ .dialog) : b.hush.phase = b.phase := if_neg h

structure SameAside (b b' : Battle) : Prop where
  scene : b'.scene = b.scene
  phase : b'.phase = b.phase
  resume : b'.resume = b.resume
  dialogs : b'.dialogs = b.dialogs
  triggers : b'.triggers = b.triggers

theorem Apart.sameAside {op : Battle → Result Battle} (hop : Apart op) (h : op b = .ok b') :
    SameAside b b' := by
  have hself := hop b b b' h
  rw [aside_self, h] at hself
  rw [Except.ok.inj hself]
  exact ⟨rfl, rfl, rfl, rfl, rfl⟩

theorem Apart.hush {op : Battle → Result Battle} (hop : Apart op) (h : op b = .ok b') :
    op b.hush = .ok b'.hush := by
  have hsame := hop.sameAside h
  have haside : b.hush = b.aside b.hush := rfl
  rw [haside, hop b b.hush b' h]
  simp only [aside, Battle.hush, hsame.scene, hsame.phase, hsame.resume, hsame.triggers]

theorem roll_hush {ε α : Type} {r : Roll ε α} {wrap : ε → Error} {a : α}
    (h : b.roll r wrap = .ok (a, b')) : b.hush.roll r wrap = .ok (a, b'.hush) := by
  have haside : b.hush = b.aside b.hush := rfl
  obtain ⟨dice, -, rfl⟩ := roll_eq_ok h
  rw [haside, roll, roll_aside _ _ _ _ h]
  rfl

end Battle

end Skirmish
