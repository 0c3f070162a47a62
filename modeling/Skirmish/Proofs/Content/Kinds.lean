import Skirmish.Proofs.Content.Sections

namespace Skirmish

/-- No part of the event is of a kind that no rule knows. -/
inductive Event.Known : Event → Prop
  | dialog {text : String} {speaker : Option String} {options : List DialogOption}
      (h : ∀ o ∈ options, ∀ e, o.event? = some e → e.Known) : Known (.dialog text speaker options)
  | spawn {enemyId : String} : Known (.spawn enemyId)
  | buff {stat : String} {value : Quantity} {target : Option String} {duration : Option Int} :
      Known (.buff stat value target duration)
  | heal {amount : Quantity} {target : Option String} : Known (.heal amount target)
  | damage {amount : Quantity} {target : Option String} : Known (.damage amount target)
  | flee {target : Option String} : Known (.flee target)
  | transform {enemyId : String} {target : Option String} : Known (.transform enemyId target)
  | multi {events : List Event} (h : ∀ e ∈ events, e.Known) : Known (.multi events)

structure Game.Known (g : Game) : Prop where
  skills : ∀ s ∈ g.skills, s.kind ∈ Skill.Kind.known
  items : ∀ i ∈ g.items, i.use ∈ Item.Use.known
  enemies : ∀ e ∈ g.enemies, ∀ d b, e.tactics = some d → d.behavior = some b →
    b ∈ Tactics.Behavior.known
  events : ∀ s ∈ g.scenes, ∀ t ∈ s.triggers, t.event.Known

namespace Content

open Decode

namespace Decode

variable {α : Type} {d : Decoder α} {v : Document} {a : α} {as : List α} {o : Option α}
  {names : List String} {read : String → α} {fs : Fields} {name : String}

theorem oneOf_eq_ok (h : oneOf names read v = .ok a) : ∃ n ∈ names, a = read n := by
  cases v with
  | text s =>
      rw [oneOf] at h
      split at h
      next hs => exact ⟨s, by simpa using hs, (Checked.ok.inj h).symm⟩
      next => cases h
  | _ => cases h

theorem nullable_eq_ok (h : nullable d v = .ok o) : o = none ∨ ∃ a, o = some a ∧ d v = .ok a := by
  have hread : some <$> d v = .ok o → ∃ a, o = some a ∧ d v = .ok a := by
    intro h
    obtain ⟨a, ha, rfl⟩ := Checked.map_eq_ok.1 h
    exact ⟨a, rfl, ha⟩
  cases v with
  | null => exact .inl (Checked.ok.inj h).symm
  | _ => exact .inr (hread h)

theorem required_eq_ok (h : required name d fs = .ok a) : ∃ v, d v = .ok a := by
  rw [required] at h
  split at h
  next => cases h
  next key v _ => exact ⟨v, Checked.under_eq_ok.1 h⟩

theorem withDefault_eq_ok {default : α} (h : withDefault name d default fs = .ok a) :
    a = default ∨ ∃ v, d v = .ok a := by
  rw [withDefault] at h
  split at h
  next => exact .inl (Checked.ok.inj h).symm
  next key v _ => exact .inr ⟨v, Checked.under_eq_ok.1 h⟩

theorem optional_eq_ok (h : Decode.optional name d fs = .ok (some a)) : ∃ v, d v = .ok a := by
  rcases withDefault_eq_ok h with hnone | ⟨v, hv⟩
  · cases hnone
  · rcases nullable_eq_ok hv with hnone | ⟨b, hb, hv⟩
    · cases hnone
    · cases hb
      exact ⟨v, hv⟩

theorem exists_of_mem_list (h : list d v = .ok as) (ha : a ∈ as) : ∃ v, d v = .ok a := by
  obtain ⟨vs, -, hall⟩ := list_eq_ok.1 h
  clear h
  induction hall with
  | nil => cases ha
  | cons hv _ ih =>
      rcases List.mem_cons.1 ha with rfl | ha
      · exact ⟨_, hv⟩
      · exact ih ha

theorem exists_of_mem_listField (h : listField name d fs = .ok as) (ha : a ∈ as) :
    ∃ v, d v = .ok a := by
  rcases withDefault_eq_ok h with rfl | ⟨v, hv⟩
  · cases ha
  · exact exists_of_mem_list hv ha

end Decode

section

variable {v : Document} {n : String}

theorem kind_known {k : Skill.Kind} (h : skillKind v = .ok k) : k ∈ Skill.Kind.known := by
  obtain ⟨n, hn, rfl⟩ := oneOf_eq_ok h
  have hall : ∀ n ∈ Skill.Kind.known.map Skill.Kind.name,
      Skill.Kind.ofName n ∈ Skill.Kind.known := by decide
  exact hall n hn

theorem use_known {u : Item.Use} (h : itemUse v = .ok u) : u ∈ Item.Use.known := by
  obtain ⟨n, hn, rfl⟩ := oneOf_eq_ok h
  have hall : ∀ n ∈ Item.Use.known.map Item.Use.name, Item.Use.ofName n ∈ Item.Use.known := by
    decide
  exact hall n hn

theorem behavior_known {b : Tactics.Behavior} (h : behavior v = .ok b) :
    b ∈ Tactics.Behavior.known := by
  obtain ⟨n, hn, rfl⟩ := oneOf_eq_ok h
  have hall : ∀ n ∈ Tactics.Behavior.known.map Tactics.Behavior.name,
      Tactics.Behavior.ofName n ∈ Tactics.Behavior.known := by decide
  exact hall n hn

theorem skill_known {s : Skill} (h : skill v = .ok s) : s.kind ∈ Skill.Kind.known := by
  obtain ⟨fs, -, h⟩ := object_eq_ok.1 h
  cases s
  simp only [Checked.seq_eq_ok, Checked.map_eq_ok, exists_and_left, exists_exists_and_eq_and,
    exists_exists_and_exists_and_eq_and, ↓existsAndEq, and_true, and_assoc, Skill.mk.injEq] at h
  obtain ⟨-, name, -, hkind, -⟩ := h
  obtain ⟨k, hk⟩ := required_eq_ok hkind
  exact kind_known hk

theorem item_known {i : Item} (h : item v = .ok i) : i.use ∈ Item.Use.known := by
  obtain ⟨fs, -, h⟩ := object_eq_ok.1 h
  cases i
  simp only [Checked.seq_eq_ok, Checked.map_eq_ok, exists_and_left, exists_exists_and_eq_and,
    exists_exists_and_exists_and_eq_and, ↓existsAndEq, and_true, and_assoc, Item.mk.injEq] at h
  obtain ⟨-, name, -, -, huse, -⟩ := h
  rcases withDefault_eq_ok huse with rfl | ⟨u, hu⟩
  · exact show Item.Use.nothing ∈ Item.Use.known by decide
  · exact use_known hu

theorem tactics_known {t : Tactics.Declaration} {b : Tactics.Behavior} (h : tactics v = .ok t)
    (hb : t.behavior = some b) : b ∈ Tactics.Behavior.known := by
  obtain ⟨fs, -, h⟩ := object_eq_ok.1 h
  cases t
  cases hb
  simp only [Checked.seq_eq_ok, Checked.map_eq_ok, exists_and_left, exists_exists_and_eq_and,
    exists_exists_and_exists_and_eq_and, ↓existsAndEq, and_true, and_assoc,
    Tactics.Declaration.mk.injEq] at h
  obtain ⟨hbehavior, -⟩ := h
  obtain ⟨w, hw⟩ := optional_eq_ok hbehavior
  exact behavior_known hw

theorem enemy_known {e : Enemy} {t : Tactics.Declaration} {b : Tactics.Behavior}
    (h : enemy v = .ok e) (ht : e.tactics = some t) (hb : t.behavior = some b) :
    b ∈ Tactics.Behavior.known := by
  obtain ⟨fs, -, h⟩ := object_eq_ok.1 h
  cases e
  cases ht
  simp only [Checked.seq_eq_ok, Checked.map_eq_ok, exists_and_left, exists_exists_and_eq_and,
    exists_exists_and_exists_and_eq_and, ↓existsAndEq, and_true, and_assoc, Enemy.mk.injEq] at h
  obtain ⟨-, name, -, -, -, -, -, -, -, htactics, -⟩ := h
  obtain ⟨w, hw⟩ := optional_eq_ok htactics
  exact tactics_known hw hb

end

section

variable {readOption : Decoder DialogOption} {readEvent : Decoder Event} {fs : Fields}
  {kind : String} {e : Event} {v : Document}

theorem eventFields_known
    (hoption : ∀ v o, readOption v = .ok o → ∀ e, o.event? = some e → e.Known)
    (hevent : ∀ v e, readEvent v = .ok e → e.Known)
    (h : eventFields readOption readEvent kind fs = some (.ok e)) : e.Known := by
  unfold eventFields at h
  split at h
  all_goals
    simp only [Option.some.injEq, reduceCtorEq, Checked.seq_eq_ok, Checked.map_eq_ok,
      ↓existsAndEq, and_true, exists_and_left, exists_exists_and_eq_and] at h
  next =>
    obtain ⟨text, speaker, -, options, hoptions, rfl⟩ := h
    refine .dialog fun o ho => ?_
    obtain ⟨w, hw⟩ := exists_of_mem_listField hoptions ho
    exact hoption w o hw
  next =>
    obtain ⟨enemyId, -, rfl⟩ := h
    exact .spawn
  next =>
    obtain ⟨stat, value, target, -, duration, -, rfl⟩ := h
    exact .buff
  next =>
    obtain ⟨amount, -, target, -, rfl⟩ := h
    exact .heal
  next =>
    obtain ⟨amount, -, target, -, rfl⟩ := h
    exact .damage
  next =>
    obtain ⟨target, -, rfl⟩ := h
    exact .flee
  next =>
    obtain ⟨enemyId, -, target, -, rfl⟩ := h
    exact .transform
  next =>
    obtain ⟨events, hevents, rfl⟩ := h
    refine .multi fun e he => ?_
    obtain ⟨w, hw⟩ := exists_of_mem_listField hevents he
    exact hevent w e hw

theorem exists_fields_of_taggedEvent {fields : String → Fields → Option (Checked Event)}
    (h : taggedEvent fields v = .ok e) : ∃ kind fs, fields kind fs = some (.ok e) := by
  simp only [taggedEvent] at h
  split at h
  next fs =>
    split at h
    next => cases h
    next =>
      split at h
      next kind _ =>
        split at h
        next c hc => exact ⟨kind, fs, by rw [hc, Checked.under_eq_ok.1 h]⟩
        next => cases h
      next => cases h
  next => cases h

theorem optionOf_known (hevent : ∀ v e, readEvent v = .ok e → e.Known) {o : DialogOption}
    (h : optionOf readEvent v = .ok o) (he : o.event? = some e) : e.Known := by
  obtain ⟨fs, -, h⟩ := object_eq_ok.1 h
  obtain ⟨g, event, hg, hread, rfl⟩ := Checked.seq_eq_ok.1 h
  obtain ⟨g', text, hg', -, rfl⟩ := Checked.seq_eq_ok.1 hg
  obtain ⟨id, -, rfl⟩ := Checked.map_eq_ok.1 hg'
  obtain rfl : event = some e := he
  obtain ⟨w, hw⟩ := optional_eq_ok hread
  exact hevent w e hw

/-- With each level that is left events of one more level are read. -/
theorem within_known (left : Nat) :
    (∀ place kind fs e, fieldsWithin left place kind fs = some (.ok e) → e.Known) ∧
      ∀ place v o, optionWithin left place v = .ok o → ∀ e, o.event? = some e → e.Known := by
  induction left with
  | zero =>
      constructor
      · intro place kind fs e h
        rw [fieldsWithin] at h
        split at h <;> cases h
      · intro place v o h
        cases h
  | succ left ih =>
      obtain ⟨hfields, hoption⟩ := ih
      have hevent : ∀ place v e, taggedEvent (fieldsWithin left place) v = .ok e → e.Known := by
        intro place v e h
        obtain ⟨kind, fs, hread⟩ := exists_fields_of_taggedEvent h
        exact hfields place kind fs e hread
      constructor
      · intro place kind fs e h
        rw [fieldsWithin] at h
        split at h
        next inside _ => exact hfields inside kind fs e h
        next => exact eventFields_known (hoption place) (hevent place) h
      · intro place v o h e he
        exact optionOf_known (hevent place) h he

theorem event_known (h : event v = .ok e) : e.Known := by
  obtain ⟨kind, fs, hread⟩ := exists_fields_of_taggedEvent h
  exact (within_known maxLevels).1 _ _ _ _ hread

end

variable {v : Document}

theorem scene_known {s : Scene} (h : scene v = .ok s) : ∀ t ∈ s.triggers, t.event.Known := by
  intro t ht
  obtain ⟨fs, rfl⟩ := object_of_ok v s h
  obtain ⟨-, -, -, -, -, -, htriggers⟩ := scene_eq_ok.1 h
  obtain ⟨w, hw⟩ := exists_of_mem_listField htriggers ht
  obtain ⟨fs, rfl⟩ := object_of_ok w t hw
  obtain ⟨-, -, -, -, haction⟩ := trigger_eq_ok.1 hw
  obtain ⟨w, hw⟩ := required_eq_ok haction
  exact event_known hw

/-- An accepted document names no kind that the rules do not know. -/
theorem game_known {g : Game} (h : game v = .ok g) : g.Known := by
  obtain ⟨fs, rfl⟩ := object_of_ok v g h
  obtain ⟨-, -, -, -, -, henemies, hskills, hitems, hscenes, -⟩ := game_eq_ok.1 h
  constructor
  · intro s hs
    obtain ⟨w, hw⟩ := required_eq_ok hskills
    obtain ⟨w, hw⟩ := exists_of_mem_list hw hs
    exact skill_known hw
  · intro i hi
    obtain ⟨w, hw⟩ := required_eq_ok hitems
    obtain ⟨w, hw⟩ := exists_of_mem_list hw hi
    exact item_known hw
  · intro e he t b ht hb
    obtain ⟨w, hw⟩ := required_eq_ok henemies
    obtain ⟨w, hw⟩ := exists_of_mem_list hw he
    exact enemy_known hw ht hb
  · intro s hs
    obtain ⟨w, hw⟩ := required_eq_ok hscenes
    obtain ⟨w, hw⟩ := exists_of_mem_list (list_of_nonEmptyList hw) hs
    exact scene_known hw

end Content

end Skirmish
