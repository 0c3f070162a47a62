import Mathlib.Algebra.GroupWithZero.Nat
import Mathlib.Algebra.Order.BigOperators.Group.List
import Mathlib.Algebra.Order.Group.Nat
import Skirmish.Proofs.Battle.Footprint
import Skirmish.Proofs.Battle.Hush

namespace Skirmish

mutual

/-- An enemy arrives; what an option of a dialog brings is left to the answer. -/
def Event.spawns : Event → Bool
  | .spawn _ => true
  | .multi events => Event.spawnsAny events
  | _ => false

def Event.spawnsAny : List Event → Bool
  | [] => false
  | e :: es => e.spawns || Event.spawnsAny es

end

theorem Event.spawnsAny_eq_false {es : List Event} :
    Event.spawnsAny es = false ↔ ∀ e ∈ es, e.spawns = false := by
  induction es with
  | nil => simp [Event.spawnsAny]
  | cons e es ih => simp [Event.spawnsAny, ih]

namespace Trigger

def IsBounded (t : Trigger) : Prop := t.once = true ∨ t.maxFires.isSome = true

def limit (t : Trigger) : Nat := if t.once then 1 else (t.maxFires.getD 0).toNat

theorem lt_limit {t : Trigger} {n : Nat} (ht : t.IsBounded) (h : t.mayFire n = true) :
    n < t.limit := by
  rw [mayFire] at h
  cases honce : t.once with
  | true => simp_all [limit]
  | false =>
      obtain ⟨most, hmost⟩ := Option.isSome_iff_exists.1 (ht.resolve_left (by simp [honce]))
      simp only [honce, hmost, Bool.false_and, Bool.not_false, Bool.true_and,
        decide_eq_true_eq] at h
      simp only [limit, honce, hmost, Bool.false_eq_true, if_false, Option.getD_some]
      omega

/-- Counts only grow, and that of a trigger that fires grows from a number at which it may. -/
theorem fireAll_counts {c : Formula.Context} {ts fired : List Trigger} {counts counts' : Counts}
    (h : (fireAll c ts).run.run counts = (.ok fired, counts')) :
    (∀ k, counts.getD k 0 ≤ counts'.getD k 0) ∧
      ∀ t ∈ fired, ∃ n, counts.getD t.key 0 ≤ n ∧ n < counts'.getD t.key 0 ∧
        t.mayFire n = true := by
  induction ts generalizing fired counts with
  | nil =>
      cases h
      exact ⟨fun _ => Nat.le_refl _, by simp⟩
  | cons t ts ih =>
      rcases fireAll_cons_eq_ok h with ⟨-, hrest⟩ | ⟨rest, hmay, -, rfl, hrest⟩
      · exact ih hrest
      · obtain ⟨hgrow, hfired⟩ := ih hrest
        have hstep : ∀ k, counts.getD k 0 ≤
            (counts.insert t.key (counts.getD t.key 0 + 1)).getD k 0 := by
          intro k
          rw [Table.getD_insert]
          split
          next hk => rw [hk]; omega
          next => omega
        refine ⟨fun k => (hstep k).trans (hgrow k), fun u hu => ?_⟩
        rcases List.mem_cons.1 hu with rfl | hu
        · refine ⟨_, Nat.le_refl _, ?_, hmay⟩
          have hlast := hgrow u.key
          rw [Table.getD_insert, if_pos rfl] at hlast
          omega
        · obtain ⟨n, hn, hlt, hmay⟩ := hfired u hu
          exact ⟨n, (hstep u.key).trans hn, hlt, hmay⟩

namespace Book

variable {k : Book} {fighters : List Fighter} {turn : Quantity} {fired : List Trigger}

theorem firedCount_evaluate (h : (k.evaluate fighters turn).1 = .ok fired) :
    (∀ key, k.firedCount key ≤ (k.evaluate fighters turn).2.firedCount key) ∧
      ∀ t ∈ fired, ∃ n, k.firedCount t.key ≤ n ∧
        n < (k.evaluate fighters turn).2.firedCount t.key ∧ t.mayFire n = true := by
  rw [evaluate] at h ⊢
  split at h
  · cases h
  next c _ =>
    cases hrun : (fireAll c k.triggers).run.run k.fired with
    | mk outcome counts =>
        rw [hrun] at h
        obtain rfl : outcome = .ok fired := h
        exact fireAll_counts hrun

/-- The firings that are left to the triggers that call enemies. -/
def firesLeft (k : Book) : Nat :=
  ((k.triggers.filter (·.event.spawns)).map fun t => t.limit - k.firedCount t.key).sum

theorem firesLeft_evaluate (hbounded : ∀ t ∈ k.triggers, t.event.spawns = true → t.IsBounded)
    (h : (k.evaluate fighters turn).1 = .ok fired) :
    (k.evaluate fighters turn).2.firesLeft ≤ k.firesLeft ∧
      ((∃ t ∈ fired, t.event.spawns = true) →
        (k.evaluate fighters turn).2.firesLeft < k.firesLeft) := by
  obtain ⟨hgrow, hfired⟩ := firedCount_evaluate h
  have hle : ∀ t ∈ k.triggers.filter (·.event.spawns),
      t.limit - (k.evaluate fighters turn).2.firedCount t.key ≤ t.limit - k.firedCount t.key := by
    intro t _
    have hkey := hgrow t.key
    omega
  rw [firesLeft, triggers_evaluate, firesLeft]
  refine ⟨List.sum_le_sum hle, ?_⟩
  rintro ⟨t, ht, hspawns⟩
  have hmem : t ∈ k.triggers := subset_of_evaluate h ht
  obtain ⟨n, hn, hlt, hmay⟩ := hfired t ht
  have hlimit := lt_limit (hbounded t hmem hspawns) hmay
  refine List.sum_lt_sum _ _ hle ⟨t, List.mem_filter.2 ⟨hmem, hspawns⟩, ?_⟩
  omega

end Book

end Trigger

namespace Battle

variable {b b' : Battle}

theorem perform_stirred {e : Event}
    (hdialog : ∀ text speaker options, e ≠ .dialog text speaker options)
    (hspawn : ∀ enemyId, e ≠ .spawn enemyId) (hmulti : ∀ events, e ≠ .multi events)
    (h : perform b e = .ok b') : Stirred b b' := by
  cases e with
  | dialog text speaker options => exact absurd rfl (hdialog text speaker options)
  | spawn enemyId => exact absurd rfl (hspawn enemyId)
  | buff stat value target duration =>
      rw [perform] at h
      rcases withFighter_eq_ok h with rfl | ⟨f, -, h⟩
      · exact .refl b'
      · exact .scriptBuff h
  | heal amount target =>
      rw [perform] at h
      rcases withFighter_eq_ok h with rfl | ⟨f, -, h⟩
      · exact .refl b'
      · exact .scriptHeal h
  | damage amount target =>
      rw [perform] at h
      rcases withFighter_eq_ok h with rfl | ⟨f, -, h⟩
      · exact .refl b'
      · exact .scriptDamage h
  | flee target =>
      rw [perform] at h
      cases h
      cases b.named? target with
      | none => exact .refl b
      | some f => exact .scriptFlee b f
  | transform enemyId target =>
      rw [perform, scriptTransform] at h
      split at h
      · split at h
        · cases h
          exact .refl b
        · exact .transform h
      · cases h
        exact .refl b
  | multi events => exact absurd rfl (hmulti events)
  | other text =>
      rw [perform] at h
      cases h

mutual

theorem perform_queue {b b' : Battle} :
    ∀ e : Event, e.spawns = false → perform b e = .ok b' → b'.queue = b.queue
  | .dialog text speaker options, _, h => by
      rw [perform] at h
      rcases queueDialog_cases h with ⟨-, notices, rfl⟩ | ⟨-, -, resume, notices, -, rfl⟩
      all_goals rfl
  | .multi events, hspawns, h => by
      rw [perform] at h
      rw [Event.spawns] at hspawns
      exact performAll_queue events hspawns h
  | .spawn enemyId, hspawns, _ => by
      rw [Event.spawns] at hspawns
      cases hspawns
  | .buff stat value target duration, _, h =>
      (perform_stirred (e := .buff stat value target duration) (by simp) (by simp) (by simp)
        h).queue
  | .heal amount target, _, h =>
      (perform_stirred (e := .heal amount target) (by simp) (by simp) (by simp) h).queue
  | .damage amount target, _, h =>
      (perform_stirred (e := .damage amount target) (by simp) (by simp) (by simp) h).queue
  | .flee target, _, h =>
      (perform_stirred (e := .flee target) (by simp) (by simp) (by simp) h).queue
  | .transform enemyId target, _, h =>
      (perform_stirred (e := .transform enemyId target) (by simp) (by simp) (by simp) h).queue
  | .other text, _, h => by
      rw [perform] at h
      cases h

theorem performAll_queue {b b' : Battle} :
    ∀ es : List Event, Event.spawnsAny es = false → performAll b es = .ok b' → b'.queue = b.queue
  | [], _, h => by
      rw [performAll] at h
      cases h
      rfl
  | e :: es, hspawns, h => by
      rw [performAll] at h
      rw [Event.spawnsAny, Bool.or_eq_false_iff] at hspawns
      obtain ⟨c, hc, h⟩ := Fallible.bind_eq_ok.1 h
      exact (performAll_queue es hspawns.2 h).trans (perform_queue e hspawns.1 hc)

end

theorem checkTriggers_firesLeft
    (hbounded : ∀ t ∈ b.triggers.triggers, t.event.spawns = true → t.IsBounded)
    (h : b.checkTriggers = .ok b') :
    b'.triggers.firesLeft ≤ b.triggers.firesLeft ∧
      (b'.triggers.firesLeft < b.triggers.firesLeft ∨ b'.queue = b.queue) := by
  simp only [checkTriggers, arithmetic, Fallible.bind_eq_ok, Fallible.leaving_eq_ok,
    Fallible.mapError_eq_ok] at h
  obtain ⟨fired, hfired, h⟩ := h
  have htriggers := (happen_leaves (performAll_happens _ h)).2.1
  obtain ⟨hle, hlt⟩ := Trigger.Book.firesLeft_evaluate hbounded hfired
  rw [htriggers]
  refine ⟨hle, ?_⟩
  by_cases hspawns : ∃ t ∈ fired, t.event.spawns = true
  · exact .inl (hlt hspawns)
  · have hnone : Event.spawnsAny (fired.map Trigger.event) = false := by
      rw [Event.spawnsAny_eq_false]
      intro e he
      obtain ⟨t, ht, rfl⟩ := List.mem_map.1 he
      exact Bool.eq_false_iff.2 fun hspawn => hspawns ⟨t, ht, hspawn⟩
    have hqueue := performAll_queue _ hnone h
    exact .inr hqueue

end Battle

end Skirmish
