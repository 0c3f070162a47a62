import Skirmish.Proofs.Battle.UpToDate

namespace Skirmish.Battle

variable {b b' c : Battle} {f : Fighter}

structure Onward (b b' : Battle) : Prop where
  index : b'.index = b.index
  queue : b.queue <+: b'.queue
  fighters : ∀ id, (b.fighter? id).isSome → (b'.fighter? id).isSome

namespace Onward

theorem refl (b : Battle) : Onward b b := ⟨rfl, List.prefix_rfl, fun _ => id⟩

theorem trans (h : Onward b c) (h' : Onward c b') : Onward b b' where
  index := h'.index.trans h.index
  queue := h.queue.trans h'.queue
  fighters id hid := h'.fighters id (h.fighters id hid)

theorem setFighter (b : Battle) (f : Fighter) : Onward b (b.setFighter f) where
  index := rfl
  queue := List.prefix_rfl
  fighters id hid := by
    rw [fighter?, Battle.setFighter, Table.get?_insert]
    split
    · rfl
    · exact hid

theorem beginTurn (h : b.beginTurn f = .ok b') : Onward b b' := by
  simp only [Battle.beginTurn] at h
  split at h
  all_goals
    obtain ⟨g, -, h⟩ := Fallible.bind_eq_ok.1 h
    cases h
    have hset := setFighter b g
    exact ⟨rfl, List.prefix_rfl, hset.fighters⟩

theorem spawn {e : Enemy} (h : b.spawn e = .ok b') : Onward b b' := by
  simp only [Battle.spawn, Fallible.bind_eq_ok] at h
  obtain ⟨c, henroll, initiative, -, h⟩ := h
  obtain ⟨f, -, rfl⟩ := enroll_eq_ok henroll
  cases h
  exact ⟨rfl, List.prefix_append _ _, (setFighter b f).fighters⟩

theorem transform {e : Enemy} (h : b.transform f e = .ok b') : Onward b b' := by
  obtain ⟨g, hp, -, rfl⟩ := transform_eq_ok h
  exact ⟨rfl, List.prefix_rfl, (setFighter b { g with hp }).fighters⟩

theorem scriptBuff {stat : String} {value : Quantity} {duration : Option Int}
    (h : b.scriptBuff stat value duration f = .ok b') : Onward b b' := by
  obtain ⟨g, -, h⟩ := Fallible.bind_eq_ok.1 h
  cases h
  exact ⟨rfl, List.prefix_rfl, (setFighter b g).fighters⟩

theorem scriptHeal {amount : Quantity} (h : b.scriptHeal amount f = .ok b') : Onward b b' := by
  simp only [Battle.scriptHeal, Fallible.bind_eq_ok, Prod.exists] at h
  obtain ⟨g, gained, -, shown, -, h⟩ := h
  cases h
  exact ⟨rfl, List.prefix_rfl, (setFighter b g).fighters⟩

theorem scriptDamage {amount : Quantity} (h : b.scriptDamage amount f = .ok b') :
    Onward b b' := by
  simp only [Battle.scriptDamage, Fallible.bind_eq_ok] at h
  obtain ⟨g, -, shown, -, h⟩ := h
  cases h
  split
  · exact ⟨rfl, List.prefix_rfl, (setFighter b g).fighters⟩
  · exact ⟨rfl, List.prefix_rfl, (setFighter b g).fighters⟩

theorem scriptFlee (b : Battle) (f : Fighter) : Onward b (b.scriptFlee f) := by
  rw [Battle.scriptFlee]
  split
  · exact .refl b
  · exact ⟨rfl, List.prefix_rfl, (setFighter b { f with isAlive := false }).fighters⟩

theorem queueDialog {d : Dialog} (h : b.queueDialog d = .ok b') : Onward b b' := by
  simp only [Battle.queueDialog] at h
  split at h
  · cases h
    exact ⟨rfl, List.prefix_rfl, fun _ => id⟩
  · split at h
    · cases h
      exact ⟨rfl, List.prefix_rfl, fun _ => id⟩
    · split at h
      · split at h
        · cases h
        · cases h
          exact ⟨rfl, List.prefix_rfl, fun _ => id⟩
      · cases h
        exact ⟨rfl, List.prefix_rfl, fun _ => id⟩

theorem happens (h : Happens b b') : Onward b b' := by
  cases h with
  | dialog h => exact queueDialog h
  | spawn h => exact spawn h
  | buff _ h => exact scriptBuff h
  | heal _ h => exact scriptHeal h
  | damage _ h => exact scriptDamage h
  | flee => exact scriptFlee b _
  | transform _ h => exact transform h

theorem happen (h : Relation.ReflTransGen Happens b b') : Onward b b' := by
  induction h with
  | refl => exact .refl b
  | tail _ hstep ih => exact ih.trans (happens hstep)

theorem checkTriggers (h : b.checkTriggers = .ok b') : Onward b b' := by
  simp only [Battle.checkTriggers, Fallible.bind_eq_ok] at h
  obtain ⟨fired, -, h⟩ := h
  have hperform := happen (performAll_happens _ h)
  exact ⟨hperform.index, hperform.queue, hperform.fighters⟩

theorem win (h : b.win = .ok b') : Onward b b' := by
  obtain ⟨⟨r, c⟩, hroll, h⟩ := Fallible.bind_eq_ok.1 h
  obtain ⟨dice, -, rfl⟩ := roll_eq_ok hroll
  cases h
  exact ⟨rfl, List.prefix_rfl, fun _ => id⟩

theorem checkEnd (h : b.checkEnd = .ok b') : Onward b b' := by
  simp only [Battle.checkEnd] at h
  split at h
  · cases h
    exact .refl b
  · split at h
    · cases h
      exact ⟨rfl, List.prefix_rfl, fun _ => id⟩
    · split at h
      · exact win h
      · cases h
        exact .refl b

theorem current? {P : Fighter → Prop} (h : Onward b b') (hb : b.fighters.Every P)
    (hf : b.current? = some f) : ∃ g, b'.fighter? f.id = some g ∧ b'.current? = some g := by
  obtain ⟨entry, hentry, hfound⟩ := Option.bind_eq_some_iff.1 hf
  have hid : f.id = entry.id := (hb entry.id f hfound).1
  obtain ⟨more, hmore⟩ := h.queue
  have hentry' : b'.queue[b'.index]? = some entry := by
    obtain ⟨hlt, -⟩ := List.getElem?_eq_some_iff.1 hentry
    rw [h.index, ← hmore, List.getElem?_append_left hlt, hentry]
  obtain ⟨g, hg⟩ := Option.isSome_iff_exists.1 (h.fighters entry.id (by rw [hfound]; rfl))
  exact ⟨g, hid ▸ hg, by rw [Battle.current?, hentry', Option.bind_some, hg]⟩

end Onward

end Skirmish.Battle
