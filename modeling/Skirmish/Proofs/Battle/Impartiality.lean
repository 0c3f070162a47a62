import Mathlib.Data.List.Perm.Basic
import Mathlib.Data.Prod.Lex
import Mathlib.Data.String.Basic
import Skirmish.Proofs.Battle.Decision
import Skirmish.Proofs.Number.Level

namespace Skirmish

/-- The same order but for the sequence of its targets. -/
structure Order.Alike (o p : Order) : Prop where
  kind : o.kind = p.kind
  actor : o.actorId = p.actorId
  skill : o.skillId = p.skillId
  item : o.itemId = p.itemId
  targets : o.targets.Perm p.targets

theorem Order.Alike.refl (o : Order) : o.Alike o := ⟨rfl, rfl, rfl, rfl, .refl _⟩

namespace Tactics

open Chance

section Least

variable {α κ : Type} [LinearOrder κ] {key : α → κ} {before : α → α → Bool} {a b : α}
  {xs ys : List α}

/-- Elements come one before the other by a key that no two of them share. -/
structure RankedBy (key : α → κ) (before : α → α → Bool) (xs : List α) : Prop where
  before_iff : ∀ a ∈ xs, ∀ b ∈ xs, before a b = true ↔ key a < key b
  distinct : ∀ a ∈ xs, ∀ b ∈ xs, key a = key b → a = b

theorem RankedBy.subset (h : RankedBy key before xs) (hsub : ys ⊆ xs) : RankedBy key before ys where
  before_iff a ha b hb := h.before_iff a (hsub ha) b (hsub hb)
  distinct a ha b hb := h.distinct a (hsub ha) b (hsub hb)

theorem RankedBy.key_firstLeast_le (h : RankedBy key before (a :: xs)) :
    ∀ x ∈ a :: xs, key (firstLeast before a xs) ≤ key x := by
  induction xs generalizing a with
  | nil => simp [firstLeast]
  | cons b xs ih =>
      have hba := h.before_iff b (by simp) a (by simp)
      simp only [List.forall_mem_cons]
      rw [firstLeast]
      split
      next hless =>
        have hrest := List.forall_mem_cons.1 (ih (h.subset (List.subset_cons_self a _)))
        exact ⟨hrest.1.trans (hba.1 hless).le, hrest⟩
      next hleast =>
        have hsub : a :: xs ⊆ a :: b :: xs := List.cons_subset_cons a (List.subset_cons_self b xs)
        have hrest := List.forall_mem_cons.1 (ih (h.subset hsub))
        exact ⟨hrest.1, hrest.1.trans (not_lt.1 (mt hba.2 hleast)), hrest.2⟩

theorem RankedBy.firstLeast_eq (h : RankedBy key before (a :: xs))
    (hperm : (a :: xs).Perm (b :: ys)) : firstLeast before a xs = firstLeast before b ys := by
  have h' : RankedBy key before (b :: ys) := h.subset hperm.symm.subset
  have hmem := firstLeast_mem before a xs
  have hmem' := hperm.mem_iff.2 (firstLeast_mem before b ys)
  apply h.distinct _ hmem _ hmem'
  exact le_antisymm (h.key_firstLeast_le _ hmem') (h'.key_firstLeast_le _ (hperm.mem_iff.1 hmem))

end Least

section Strength

variable {fs : List Fighter}

/-- The life of a fighter as a number; NaN has none, and nothing is said of it. -/
noncomputable def life (f : Fighter) : EReal := f.hp.height.getD ⊥

theorem life_mem {f : Fighter} (h : f.hp.isNaN = false) : life f ∈ f.hp.height := by
  obtain ⟨a, ha⟩ := Quantity.exists_height h
  rw [life, Option.mem_def.1 ha]
  rfl

theorem eq_of_id_eq (hids : (fs.map Fighter.id).Nodup) {f g : Fighter} (hf : f ∈ fs) (hg : g ∈ fs)
    (h : f.id = g.id) : f = g :=
  List.inj_on_of_nodup_map hids hf hg h

theorem rankedBy_weaker (hids : (fs.map Fighter.id).Nodup)
    (hnan : ∀ f ∈ fs, f.hp.isNaN = false) :
    RankedBy (fun f => toLex (life f, f.id)) weaker fs where
  before_iff f hf g hg := by
    have hlt := Quantity.lt_iff_of_mem (life_mem (hnan f hf)) (life_mem (hnan g hg))
    have heq := Quantity.eq_iff_of_mem (life_mem (hnan f hf)) (life_mem (hnan g hg))
    simp [weaker, hlt, heq, Prod.Lex.toLex_lt_toLex]
  distinct f hf g hg h := eq_of_id_eq hids hf hg (by simpa using congrArg (fun k => (ofLex k).2) h)

theorem rankedBy_stronger (hids : (fs.map Fighter.id).Nodup)
    (hnan : ∀ f ∈ fs, f.hp.isNaN = false) :
    RankedBy (fun f => toLex (OrderDual.toDual (life f), f.id)) stronger fs where
  before_iff f hf g hg := by
    have hlt := Quantity.lt_iff_of_mem (life_mem (hnan g hg)) (life_mem (hnan f hf))
    have heq := Quantity.eq_iff_of_mem (life_mem (hnan f hf)) (life_mem (hnan g hg))
    simp [stronger, hlt, heq, Prod.Lex.toLex_lt_toLex]
  distinct f hf g hg h := eq_of_id_eq hids hf hg (by simpa using congrArg (fun k => (ofLex k).2) h)

end Strength

variable {g : Game} {self : Fighter} {fighters fighters' : List Fighter} {turn : Int}
  {declaration : Option Declaration} {c : Config} {v w : View} {s : Skill} {target : Fighter}

/-- Two views that differ in the sequence of the players only. -/
structure Reshuffled (v w : View) : Prop where
  self : v.self = w.self
  skills : v.skills = w.skills
  players : v.players.Perm w.players
  ids : (v.players.map Fighter.id).Nodup
  numbers : ∀ f ∈ v.players, f.hp.isNaN = false

namespace Reshuffled

theorem usable (h : Reshuffled v w) : v.usable = w.usable := by
  rw [View.usable, View.usable, h.self, h.skills]

theorem attacks (h : Reshuffled v w) : v.attacks = w.attacks := by
  rw [View.attacks, View.attacks, h.usable]

theorem first? (h : Reshuffled v w) (kind : Skill.Kind) : v.first? kind = w.first? kind := by
  rw [View.first?, View.first?, h.usable]

theorem useOn (h : Reshuffled v w) (id : String) (targets : List String) :
    v.useOn id targets = w.useOn id targets := by
  rw [View.useOn, View.useOn, h.self]

theorem defend (h : Reshuffled v w) : v.defend = w.defend := by
  rw [View.defend, View.defend, h.self]

theorem heal? (h : Reshuffled v w) (percent : Float) (threshold : Quantity) :
    v.heal? percent threshold = w.heal? percent threshold := by
  simp only [View.heal?, h.first?, h.self, h.useOn]

theorem wanted? (h : Reshuffled v w) : Tactics.wanted? c v turn = Tactics.wanted? c w turn := by
  rw [Tactics.wanted?, Tactics.wanted?, h.usable]

theorem target_eq (h : Reshuffled v w) {preference : Preference} (hne : preference ≠ .random) :
    v.target preference = w.target preference := by
  cases preference with
  | weakest =>
      rw [View.target, View.target, (rankedBy_weaker h.ids h.numbers).firstLeast_eq h.players]
  | strongest =>
      rw [View.target, View.target, (rankedBy_stronger h.ids h.numbers).firstLeast_eq h.players]
  | random => exact absurd rfl hne

theorem use_alike (h : Reshuffled v w) (s : Skill) (target : Fighter) :
    (v.use s target).Alike (w.use s target) := by
  refine ⟨rfl, congrArg Fighter.id h.self, rfl, rfl, ?_⟩
  show (v.targetIds s target).Perm (w.targetIds s target)
  rw [View.targetIds, View.targetIds, h.self]
  split
  · exact .refl _
  · split
    · exact h.players.map _
    · exact .refl _

theorem aggressive (h : Reshuffled v w) :
    Parallel Order.Alike (Tactics.aggressive c v) (Tactics.aggressive c w) := by
  have hne : (if c.preference = .random then .weakest else c.preference) ≠ Preference.random := by
    split
    · simp
    · assumption
  rw [Tactics.aggressive, Tactics.aggressive, h.target_eq hne, h.attacks]
  refine .bind fun target => ?_
  split
  · exact parallel_pure (h.useOn .. ▸ .refl _)
  · exact parallel_pure (h.use_alike _ target)

theorem defensive (h : Reshuffled v w) (hne : c.preference ≠ .random) :
    Parallel Order.Alike (Tactics.defensive c v) (Tactics.defensive c w) := by
  rw [Tactics.defensive, Tactics.defensive, h.self, h.target_eq hne, h.attacks, h.defend]
  refine .bind fun percent => ?_
  rw [h.heal?]
  split
  next order _ => exact parallel_pure (.refl order)
  next =>
    split
    · exact parallel_pure (.refl _)
    · split
      · exact parallel_pure (.refl _)
      · exact .bind fun target => parallel_pure (h.use_alike _ target)

theorem balanced (h : Reshuffled v w) (hne : c.preference ≠ .random) :
    Parallel Order.Alike (Tactics.balanced c v) (Tactics.balanced c w) := by
  rw [Tactics.balanced, Tactics.balanced, h.self, h.target_eq hne, h.attacks, h.defend,
    h.target_eq (by simp : Preference.strongest ≠ .random), h.first?, h.first?]
  refine .bind fun percent => ?_
  rw [h.heal?]
  split
  next order _ => exact parallel_pure (.refl order)
  next =>
    refine .bind fun buff => ?_
    split
    next s => exact parallel_pure (h.useOn .. ▸ .refl _)
    next =>
      refine .bind fun debuff => ?_
      split
      next s => exact .bind fun target => parallel_pure (h.useOn .. ▸ .refl _)
      next =>
        split
        · exact parallel_pure (.refl _)
        · exact .bind fun s => .bind fun target => parallel_pure (h.use_alike s target)

theorem scripted (h : Reshuffled v w) (hne : c.preference ≠ .random) :
    Parallel Order.Alike (Tactics.scripted c v turn) (Tactics.scripted c w turn) := by
  rw [Tactics.scripted, Tactics.scripted, h.wanted?, h.target_eq hne, h.first?, h.self]
  split
  next s _ => exact .bind fun target => parallel_pure (h.use_alike s target)
  next =>
    split
    next s _ => exact parallel_pure (h.useOn .. ▸ .refl _)
    next => exact h.balanced hne

end Reshuffled

def Config.ByStrength (c : Config) : Prop :=
  c.behavior = .aggressive ∨
    (c.behavior = .defensive ∨ c.behavior = .balanced ∨ c.behavior = .scripted) ∧
      (c.preference = .weakest ∨ c.preference = .strongest)

theorem Reshuffled.act (h : Reshuffled v w) (hc : c.ByStrength) :
    Parallel Order.Alike (Tactics.act c v turn) (Tactics.act c w turn) := by
  rw [Tactics.act, Tactics.act]
  rcases hc with hbehavior | ⟨hbehavior, hpreference⟩
  · rw [hbehavior]
    exact h.aggressive
  · have hne : c.preference ≠ .random := by rcases hpreference with hp | hp <;> simp [hp]
    rcases hbehavior with hbehavior | hbehavior | hbehavior <;> rw [hbehavior]
    · exact h.defensive hne
    · exact h.balanced hne
    · exact h.scripted hne

theorem View.of?_reshuffled (hperm : fighters.Perm fighters')
    (hids : (fighters.map Fighter.id).Nodup) (hnan : ∀ f ∈ fighters, f.hp.isNaN = false) :
    Option.Rel Reshuffled (View.of? g self fighters) (View.of? g self fighters') := by
  have hliving : (Roster.living (fighters.filter Fighter.isPlayer)).Perm
      (Roster.living (fighters'.filter Fighter.isPlayer)) := (hperm.filter _).filter _
  have hsub : (Roster.living (fighters.filter Fighter.isPlayer)).Sublist fighters :=
    List.filter_sublist.trans List.filter_sublist
  rw [View.of?, View.of?]
  cases hplayers : Roster.living (fighters.filter Fighter.isPlayer) with
  | nil =>
      rw [hplayers] at hliving
      rw [hliving.nil_eq.symm]
      exact .none
  | cons player others =>
      cases hplayers' : Roster.living (fighters'.filter Fighter.isPlayer) with
      | nil =>
          rw [hplayers, hplayers'] at hliving
          cases hliving.symm.nil_eq
      | cons player' others' =>
          rw [hplayers, hplayers'] at hliving
          rw [hplayers] at hsub
          refine .some ⟨rfl, rfl, hliving, hids.sublist (hsub.map _), ?_⟩
          exact fun f hf => hnan f (hsub.subset hf)

/-- An enemy that goes by strength comes to the same order on the same dice, but for the sequence of
the targets, in whatever order the fighters stand before it; or it fails in the same way. -/
theorem choose_reshuffled (hperm : fighters.Perm fighters')
    (hids : (fighters.map Fighter.id).Nodup) (hnan : ∀ f ∈ fighters, f.hp.isNaN = false)
    (hc : (Config.ofDeclaration declaration).ByStrength) (dice : Dice) :
    Matches Order.Alike ((choose g self fighters turn declaration).run.run dice)
      ((choose g self fighters' turn declaration).run.run dice) := by
  have hviews : Option.Rel Reshuffled (View.of? g self fighters) (View.of? g self fighters') :=
    View.of?_reshuffled hperm hids hnan
  rw [choose_eq, choose_eq]
  generalize View.of? g self fighters = v?, View.of? g self fighters' = w? at hviews
  cases hviews with
  | none => exact .ok (.refl _) dice
  | some h => exact h.act hc dice

def party : List Fighter :=
  [(novice "monk" true).withHp 12, novice "imp" false, novice "hero" true,
    (novice "bard" true).withHp (.real 12)]

theorem choose_reshuffled_party :
    party.Perm party.reverse ∧ (party.map Fighter.id).Nodup ∧
      (∀ f ∈ party, f.hp.isNaN = false) ∧ (Config.ofDeclaration (some fierce)).ByStrength ∧
      Matches Order.Alike
        ((choose (clawed 5) (novice "imp" false) party 3 (some fierce)).run.run {})
        ((choose (clawed 5) (novice "imp" false) party.reverse 3 (some fierce)).run.run {}) := by
  have hperm : party.Perm party.reverse := (List.reverse_perm party).symm
  have hids : (party.map Fighter.id).Nodup := by decide
  have hnan : ∀ f ∈ party, f.hp.isNaN = false := by decide +kernel
  have hc : (Config.ofDeclaration (some fierce)).ByStrength := .inl rfl
  exact ⟨hperm, hids, hnan, hc, choose_reshuffled hperm hids hnan hc {}⟩

end Tactics

end Skirmish
