import Skirmish.Proofs.Battle.Sweeps

namespace Skirmish

structure Profile where
  id : String
  name : String
  isPlayer : Bool
  baseStats : Stat.Block
  stats : Stat.Block
  maxHp : Quantity
  maxMp : Quantity
  level : Quantity
  skills : List String

def Fighter.profile (f : Fighter) : Profile :=
  ⟨f.id, f.name, f.isPlayer, f.baseStats, f.stats, f.maxHp, f.maxMp, f.level, f.skills⟩

namespace Action

open Chance

/-- What a fighter is after it is met, and as what that is told. The flag says whether the fallen
are brought back; then nothing else is done. -/
inductive Meets : Bool → Fighter → Fighter → EffectKind → Prop
  | strike {f g : Fighter} {amount : Quantity} (h : f.takeDamage amount = .ok g) :
      Meets false f g .damage
  | change {f : Fighter} {kind : EffectKind} (hkind : kind ≠ .revive) (hp mp : Quantity)
      (modifiers : Modifier.Stack) (isDefending : Bool) :
      Meets false f { f with hp, mp, modifiers, isDefending } kind
  | revive {f : Fighter} (hfallen : f.isAlive = false) (hp : Quantity) :
      Meets true f { f with isAlive := true, hp } .revive

/-- From a moment to the next one at most one fighter, under one of the ids, is met. -/
inductive Link (revives : Bool) (ids : List String) (p : Progress) : Progress → Prop
  | idle : Link revives ids p p
  | meet {f g : Fighter} {e : Effect} (hid : f.id ∈ ids) (hf : p.roster.get? f.id = some f)
      (htold : e.targetId = f.id) (h : Meets revives f g e.kind) :
      Link revives ids p (p.strike f g e)

section

variable {revives : Bool} {ids ids' : List String} {p q : Progress} {f g : Fighter} {e : Effect}
  {kind : EffectKind} {id : String}

theorem Meets.profile (h : Meets revives f g kind) : g.profile = f.profile := by
  cases h with
  | strike h =>
    obtain ⟨hp, isAlive, rfl⟩ := Fighter.takeDamage_eq_ok h
    rfl
  | change => rfl
  | revive => rfl

theorem Meets.id_eq (h : Meets revives f g kind) : g.id = f.id := congrArg Profile.id h.profile

theorem Meets.falls (h : Meets false f g kind) (halive : g.isAlive = true) : f.isAlive = true := by
  cases h with
  | strike h =>
    obtain ⟨rest, -, h⟩ := Fallible.bind_eq_ok.1 h
    cases h
    exact (Bool.and_eq_true_iff.1 halive).1
  | change => exact halive

theorem Meets.fallen (h : Meets true f g kind) : f.isAlive = false := by
  cases h with
  | revive hfallen => exact hfallen

theorem strike_roster : (p.strike f g e).roster = p.roster.insert g.id g := by
  rw [Progress.strike]
  split <;> rfl

theorem strike_effects : (p.strike f g e).effects = p.effects ++ [e] := by
  rw [Progress.strike]
  split <;> rfl

theorem strike_killed :
    (p.strike f g e).killed = p.killed ++ if Fighter.fell f g then [g.id] else [] := by
  rw [Progress.strike]
  split
  next hfell => rfl
  next hfell => rw [Progress.record, List.append_nil]

theorem strike_of_same (h : g.isAlive = f.isAlive) : p.strike f g e = p.record g e := by
  have hstands : Fighter.fell f g = false := by simp [Fighter.fell, h]
  rw [Progress.strike, hstands]
  rfl

namespace Link

theorem mono (h : Link revives ids p q) (hsub : ids ⊆ ids') : Link revives ids' p q := by
  cases h with
  | idle => exact .idle
  | meet hid hf htold h => exact .meet (hsub hid) hf htold h

theorem keyed (h : Link revives ids p q) (hp : p.roster.Keyed) : q.roster.Keyed := by
  cases h with
  | idle => exact hp
  | meet _ _ _ _ =>
    rw [strike_roster]
    exact hp.insert _

theorem frame (h : Link revives ids p q) (hid : id ∉ ids) :
    q.roster.get? id = p.roster.get? id := by
  cases h with
  | idle => rfl
  | meet hmem _ _ h =>
    rw [strike_roster, Table.get?_insert, h.id_eq, if_neg]
    rintro rfl
    exact hid hmem

theorem profile (h : Link revives ids p q) :
    (q.roster.get? id).map Fighter.profile = (p.roster.get? id).map Fighter.profile := by
  cases h with
  | idle => rfl
  | meet _ hf _ h =>
    rw [strike_roster, Table.get?_insert, h.id_eq]
    split
    next heq => rw [heq, hf, Option.map_some, Option.map_some, h.profile]
    next => rfl

theorem falls (h : Link false ids p q) (halive : q.roster.isAlive id = true) :
    p.roster.isAlive id = true := by
  cases h with
  | idle => exact halive
  | meet _ hf _ h =>
    rw [strike_roster, Roster.isAlive, Table.get?_insert, h.id_eq] at halive
    split at halive
    next heq =>
      rw [Roster.isAlive, heq, hf]
      exact h.falls halive
    next => exact halive

theorem spares (h : Link true ids p q) (halive : p.roster.isAlive id = true) :
    q.roster.get? id = p.roster.get? id := by
  cases h with
  | idle => rfl
  | meet _ hf _ h =>
    rw [strike_roster, Table.get?_insert, h.id_eq]
    split
    next heq =>
      rw [Roster.isAlive, heq, hf] at halive
      cases h.fallen.symm.trans halive
    next => rfl

end Link

abbrev Links (revives : Bool) (ids : List String) : Progress → Progress → Prop :=
  Relation.ReflTransGen (Link revives ids)

namespace Links

theorem keyed (h : Links revives ids p q) (hp : p.roster.Keyed) : q.roster.Keyed := by
  induction h with
  | refl => exact hp
  | tail _ hlink ih => exact hlink.keyed ih

theorem frame (h : Links revives ids p q) (hid : id ∉ ids) :
    q.roster.get? id = p.roster.get? id := by
  induction h with
  | refl => rfl
  | tail _ hlink ih => rw [hlink.frame hid, ih]

theorem profile (h : Links revives ids p q) :
    (q.roster.get? id).map Fighter.profile = (p.roster.get? id).map Fighter.profile := by
  induction h with
  | refl => rfl
  | tail _ hlink ih => rw [hlink.profile, ih]

theorem falls (h : Links false ids p q) (halive : q.roster.isAlive id = true) :
    p.roster.isAlive id = true := by
  induction h with
  | refl => exact halive
  | tail _ hlink ih => exact ih (hlink.falls halive)

theorem spares (h : Links true ids p q) (halive : p.roster.isAlive id = true) :
    q.roster.get? id = p.roster.get? id := by
  induction h with
  | refl => rfl
  | tail _ hlink ih =>
    rw [← ih]
    refine hlink.spares ?_
    rw [Roster.isAlive, ih]
    exact halive

theorem of_isChain {ps : List Progress} (h : (p :: ps).IsChain (Link revives ids)) :
    Links revives ids p (ps.getLastD p) := by
  induction ps generalizing p with
  | nil => exact .refl
  | cons q ps ih =>
    obtain ⟨hlink, h⟩ := List.isChain_cons_cons.1 h
    rw [List.getLastD_cons]
    exact (ih h).head hlink

end Links

end

def Linked (revives : Bool) (step : Step) : Prop :=
  ∀ p f, p.roster.get? f.id = some f → Yields (step p f) (Link revives [f.id] p)

section

variable {rules : Rules} {skill : Skill} {item : Item} {id : String} {p : Progress} {f g : Fighter}
  {e : Effect}

theorem Link.strike {amount : Quantity} (hf : p.roster.get? f.id = some f)
    (hkind : e.kind = .damage) (htold : e.targetId = f.id) (h : f.takeDamage amount = .ok g) :
    Link false [f.id] p (p.strike f g e) :=
  .meet (List.mem_singleton.2 rfl) hf htold (hkind ▸ .strike h)

theorem Link.change (hf : p.roster.get? f.id = some f) (hkind : e.kind ≠ .revive)
    (htold : e.targetId = f.id) (hp mp : Quantity) (modifiers : Modifier.Stack)
    (isDefending : Bool) :
    Link false [f.id] p (p.record { f with hp, mp, modifiers, isDefending } e) := by
  have hsame : p.strike f { f with hp, mp, modifiers, isDefending } e =
      p.record { f with hp, mp, modifiers, isDefending } e := strike_of_same rfl
  rw [← hsame]
  exact .meet (List.mem_singleton.2 rfl) hf htold (.change hkind hp mp modifiers isDefending)

theorem attackStep_linked : Linked false (attackStep rules id skill) := by
  intro p f hf
  refine (yields_true _).bind fun hit _ => (yields_true _).bind fun damage _ => ?_
  exact (yields_lift fun _ => Fallible.leaving_eq_ok.1).bind fun after hafter =>
    yields_pure (.strike hf rfl rfl hafter)

theorem healStep_linked : Linked false (healStep id skill) := by
  intro p f hf
  refine (yields_true _).bind fun amount _ =>
    (yields_lift fun _ => Fallible.mapError_eq_ok.1).bind ?_
  rintro ⟨after, gained⟩ hafter
  obtain ⟨hp, rfl⟩ := Fighter.restoreHp_eq_ok hafter
  exact yields_pure (.change hf (by simp) rfl hp f.mp f.modifiers f.isDefending)

theorem modifierStep_linked {definition : Modifier.Definition} {source : String}
    {effect : Fighter → Effect} (hkind : ∀ f, (effect f).kind ≠ .revive)
    (htold : ∀ f, (effect f).targetId = f.id) :
    Linked false (modifierStep definition source effect) := fun _ f hf =>
  yields_pure (.change hf (hkind f) (htold f) f.hp f.mp _ f.isDefending)

theorem buffStep_linked {c : Skill.Change} : Linked false (buffStep skill c) :=
  modifierStep_linked (fun _ => by simp) fun _ => rfl

theorem debuffStep_linked {c : Skill.Change} : Linked false (debuffStep skill c) :=
  modifierStep_linked (fun _ => by simp) fun _ => rfl

theorem defend_linked : Linked false fun p f => return defend skill p f := by
  intro p f hf
  refine yields_pure ?_
  rw [defend]
  split
  · exact .change hf (by simp) rfl f.hp f.mp f.modifiers true
  · exact .change hf (by simp) rfl f.hp f.mp _ true

theorem itemHealHp_linked : Linked false (itemHealHp item) := by
  intro p f hf
  refine (yields_lift fun _ => Fallible.mapError_eq_ok.1).bind ?_
  rintro ⟨after, gained⟩ hafter
  obtain ⟨hp, rfl⟩ := Fighter.restoreHp_eq_ok hafter
  exact yields_pure (.change hf (by simp) rfl hp f.mp f.modifiers f.isDefending)

theorem itemHealMp_linked : Linked false (itemHealMp item) := by
  intro p f hf
  refine (yields_lift fun _ => Fallible.mapError_eq_ok.1).bind ?_
  rintro ⟨after, gained⟩ hafter
  obtain ⟨mp, rfl⟩ := Fighter.restoreMp_eq_ok hafter
  exact yields_pure (.change hf (by simp) rfl f.hp mp f.modifiers f.isDefending)

theorem itemBuff_linked {stat : String} {value : Quantity} :
    Linked false (itemBuff item stat value) :=
  modifierStep_linked (fun _ => by simp) fun _ => rfl

theorem itemDamage_linked : Linked false (itemDamage item) := by
  intro p f hf
  exact (yields_lift fun _ => Fallible.leaving_eq_ok.1).bind fun after hafter =>
    yields_pure (.strike hf rfl rfl hafter)

theorem itemCure_linked : Linked false itemCure := fun _ f hf =>
  yields_pure (.change hf (by simp) rfl f.hp f.mp _ f.isDefending)

theorem itemRevive_linked : Linked true (itemRevive item) := by
  intro p f hf
  rw [itemRevive]
  split
  next => exact yields_pure .idle
  next hfallen =>
    have hfallen : f.isAlive = false := by simpa using hfallen
    refine (yields_true _).bind fun hp _ => yields_pure ?_
    have hrises : Fighter.fell f { f with isAlive := true, hp := .whole hp } = false := by
      simp [Fighter.fell]
    have hmeets := Link.meet (e := ⟨f.id, .revive, .whole hp, false, none⟩)
      (List.mem_singleton.2 rfl) hf rfl (.revive hfallen (.whole hp))
    rwa [Progress.strike, hrises] at hmeets

end

section

variable {revives : Bool} {ids reach : List String} {p q : Progress} {step : Step}

theorem isChain_append {R : Progress → Progress → Prop} {ps qs : List Progress}
    (hp : (p :: ps).IsChain R) (hq : (ps.getLastD p :: qs).IsChain R) :
    (p :: (ps ++ qs)).IsChain R := by
  induction ps generalizing p with
  | nil => exact hq
  | cons r ps ih =>
    obtain ⟨hlink, hp⟩ := List.isChain_cons_cons.1 hp
    rw [List.getLastD_cons] at hq
    exact List.isChain_cons_cons.2 ⟨hlink, ih hp hq⟩

theorem watchEach_isChain (hlinked : Linked revives step) (hp : p.roster.Keyed)
    (hids : ids ⊆ reach) :
    Yields (watchEach step p ids) fun ps => (p :: ps).IsChain (Link revives reach) := by
  induction ids generalizing p with
  | nil => exact yields_pure (.singleton p)
  | cons id ids ih =>
    have hrest : ids ⊆ reach := fun x hx => hids (List.mem_cons_of_mem id hx)
    rw [watchEach]
    split
    next => exact ih hp hrest
    next f hf =>
      have hid : f.id = id := hp id f hf
      have hreach : [f.id] ⊆ reach := by
        rw [hid]
        exact List.cons_subset.2 ⟨hids List.mem_cons_self, List.nil_subset reach⟩
      refine (hlinked p f (hid ▸ hf)).bind fun q hq => ?_
      refine (ih (hq.keyed hp) hrest).bind fun qs hqs => yields_pure ?_
      exact List.isChain_cons_cons.2 ⟨hq.mono hreach, hqs⟩

structure Sweep.Within (s : Sweep) (revives : Bool) (reach : List String) (p : Progress) :
    Prop where
  linked : Linked revives s.step
  aims : ∀ q, Links revives reach p q → s.aims q.roster ⊆ reach

theorem Sweep.Within.later {s : Sweep} (h : s.Within revives reach p)
    (hlinks : Links revives reach p q) : s.Within revives reach q :=
  ⟨h.linked, fun r hr => h.aims r (hlinks.trans hr)⟩

theorem watchAll_isChain {ss : List Sweep} (hp : p.roster.Keyed)
    (h : ∀ s ∈ ss, s.Within revives reach p) :
    Yields (watchAll ss p) fun ps => (p :: ps).IsChain (Link revives reach) := by
  induction ss generalizing p with
  | nil => exact yields_pure (.singleton p)
  | cons s ss ih =>
    have hs := h s List.mem_cons_self
    refine (watchEach_isChain hs.linked hp (hs.aims p .refl)).bind fun ps hps => ?_
    have hlinks := Links.of_isChain hps
    refine (ih (hlinks.keyed hp) fun t ht => ?_).bind fun qs hqs => yields_pure ?_
    · exact (h t (List.mem_cons_of_mem s ht)).later hlinks
    · exact isChain_append hps hqs

theorem living_within {targets : List String} (hlinked : Linked false step)
    (hreach : livingIds p.roster targets ⊆ reach) :
    (Sweep.living targets step).Within false reach p where
  linked := hlinked
  aims q hlinks id hid := by
    obtain ⟨htarget, halive⟩ := List.mem_filter.1 hid
    exact hreach (List.mem_filter.2 ⟨htarget, hlinks.falls halive⟩)

end

end Action

end Skirmish
