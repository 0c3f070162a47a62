import Skirmish.Proofs.Battle.UpToDate
import Skirmish.Proofs.Chance

namespace Skirmish

namespace Fighter

variable {f g : Fighter} {amount gained : Quantity}

theorem takeDamage_eq_ok (h : f.takeDamage amount = .ok g) :
    ∃ hp isAlive, g = { f with hp, isAlive } := by
  simp only [takeDamage, Fallible.bind_eq_ok, Fallible.pure_eq, Except.ok.injEq] at h
  obtain ⟨hp, -, rfl⟩ := h
  exact ⟨_, _, rfl⟩

theorem restoreHp_ends (f : Fighter) (amount : Quantity) :
    Fallible.Ends (fun g => ∃ hp mp, g = { f with hp, mp }) (fun x => ∃ hp, x.1 = { f with hp })
      (f.restoreHp amount) := by
  refine (Fallible.ends_leaving ⟨_, _, rfl⟩).bind fun hp _ => ?_
  exact (Fallible.ends_leaving ⟨_, _, rfl⟩).bind fun gained _ => ⟨_, rfl⟩

theorem restoreMp_ends (f : Fighter) (amount : Quantity) :
    Fallible.Ends (fun g => ∃ hp mp, g = { f with hp, mp }) (fun x => ∃ mp, x.1 = { f with mp })
      (f.restoreMp amount) := by
  refine (Fallible.ends_leaving ⟨_, _, rfl⟩).bind fun mp _ => ?_
  exact (Fallible.ends_leaving ⟨_, _, rfl⟩).bind fun gained _ => ⟨_, rfl⟩

theorem restoreHp_eq_ok (h : f.restoreHp amount = .ok (g, gained)) : ∃ hp, g = { f with hp } :=
  (f.restoreHp_ends amount).of_eq_ok h

theorem restoreMp_eq_ok (h : f.restoreMp amount = .ok (g, gained)) : ∃ mp, g = { f with mp } :=
  (f.restoreMp_ends amount).of_eq_ok h

end Fighter

namespace Action

open Battle Chance

variable {Q : List Effect → Fighter → Prop} {f g : Fighter} {e : Effect} {p : Progress}
  {skill : Skill} {item : Item} {id : String} {targets : List String}

/-- What an action keeps true of a fighter, given the effects that it reports: life, magic and
modifiers may change, the latter only with an effect on the stats of that fighter. -/
structure Kept (Q : List Effect → Fighter → Prop) : Prop where
  mono {es es' : List Effect} {f : Fighter} (h : Q es f) (hsub : es ⊆ es') : Q es' f
  same {es : List Effect} {f : Fighter} (hp mp : Quantity) (isAlive : Bool) (h : Q es f) :
    Q es { f with hp, mp, isAlive }
  changed {es : List Effect} {f : Fighter} {e : Effect} (modifiers : Modifier.Stack)
    (isDefending : Bool) (h : Q es f) (he : changesStats e = true) (hid : e.targetId = f.id) :
    Q (es ++ [e]) { f with modifiers, isDefending }

def Tracked (Q : List Effect → Fighter → Prop) (p : Progress) : Prop :=
  p.roster.Every (Q p.effects)

theorem Tracked.record (hQ : Kept Q) (hp : Tracked Q p) (hf : Q (p.effects ++ [e]) f) :
    Tracked Q (p.record f e) :=
  Roster.Every.insert (hp.imp fun _ h => hQ.mono h (List.subset_append_left _ _)) hf

theorem Tracked.record_same (hQ : Kept Q) (hp : Tracked Q p) (hf : Q p.effects f)
    (life magic : Quantity) (isAlive : Bool) :
    Tracked Q (p.record { f with hp := life, mp := magic, isAlive } e) :=
  hp.record hQ (hQ.mono (hQ.same life magic isAlive hf) (List.subset_append_left _ _))

theorem Tracked.strike (hQ : Kept Q) (hp : Tracked Q p) (hf : Q p.effects f) {before : Fighter}
    (life : Quantity) (isAlive : Bool) :
    Tracked Q (p.strike before { f with hp := life, isAlive } e) := by
  rw [Progress.strike]
  split
  · exact hp.record_same hQ hf life f.mp isAlive
  · exact hp.record_same hQ hf life f.mp isAlive

def Strayed (Q : List Effect → Fighter → Prop) (r : Roster) : Prop := ∃ es, r.Every (Q es)

theorem Tracked.strayed (hp : Tracked Q p) : Strayed Q p.roster := ⟨p.effects, hp⟩

theorem Tracked.strayed_same (hQ : Kept Q) (hp : Tracked Q p) (hf : Q p.effects f)
    (life magic : Quantity) (isAlive : Bool) :
    Strayed Q (p.roster.insert f.id { f with hp := life, mp := magic, isAlive }) :=
  ⟨p.effects, Roster.Every.insert hp (hQ.same life magic isAlive hf)⟩

def Tracks (Q : List Effect → Fighter → Prop) (step : Step) : Prop :=
  ∀ p f, Tracked Q p → Q p.effects f → Ends (Strayed Q) (Tracked Q) (step p f)

theorem forEach_tracked {step : Step} (hstep : Tracks Q step) {ids : List String}
    (hp : Tracked Q p) : Ends (Strayed Q) (Tracked Q) (forEach step p ids) := by
  induction ids generalizing p with
  | nil => exact ends_pure hp
  | cons id ids ih =>
      rw [forEach]
      split
      next => exact ih hp
      next f hf => exact (hstep p f hp (hp id f hf).2).bind fun _ hq => ih hq

theorem Tracked.draw {α : Type} {x : Roll ArithmeticError α} (hp : Tracked Q p) :
    Ends (Strayed Q) (fun _ => True) (p.draw x) :=
  ends_adapt hp.strayed (yields_true x)

theorem Tracked.leaving {α : Type} {x : Quantity.Result α} (hp : Tracked Q p) :
    Ends (Strayed Q) (fun a => x = .ok a) (liftM (leaving p.roster x) : Attempt α) :=
  ends_lift (Fallible.ends_leaving hp.strayed)

theorem Tracked.through {α : Type} {x : Fighter.Result α} {R : α → Prop} (hQ : Kept Q)
    (hp : Tracked Q p) (hf : Q p.effects f)
    (hx : Fallible.Ends (fun g => ∃ hp mp, g = { f with hp, mp }) R x) :
    Ends (Strayed Q) R (liftM (p.through x) : Attempt α) := by
  refine ends_lift (Fallible.ends_mapError hx ?_)
  rintro ⟨cause, _⟩ ⟨hp', mp, rfl⟩
  exact hp.strayed_same hQ hf hp' mp f.isAlive

theorem attackStep_tracks (hQ : Kept Q) {rules : Rules} : Tracks Q (attackStep rules id skill) := by
  intro p f hp hf
  refine hp.draw.bind fun hit _ => hp.leaving.bind fun damage _ => ?_
  refine hp.leaving.bind fun after hafter => ends_pure ?_
  obtain ⟨life, isAlive, rfl⟩ := Fighter.takeDamage_eq_ok hafter
  exact hp.strike hQ hf life isAlive

theorem healed_tracked (hQ : Kept Q) {amount : Quantity} {e : Fighter × Quantity → Effect}
    (hp : Tracked Q p) (hf : Q p.effects f) :
    Ends (Strayed Q) (Tracked Q) (do
      let x ← (liftM (p.through (f.restoreHp amount)) : Attempt _)
      return p.record x.1 (e x)) := by
  refine (hp.through hQ hf (f.restoreHp_ends amount)).bind fun x hx => ends_pure ?_
  obtain ⟨life, hx⟩ := hx
  rw [hx]
  exact hp.record_same hQ hf life f.mp f.isAlive

theorem healStep_tracks (hQ : Kept Q) : Tracks Q (healStep id skill) := by
  intro p f hp hf
  exact hp.draw.bind fun amount _ => healed_tracked hQ hp hf

theorem modifierStep_tracks (hQ : Kept Q) {definition : Modifier.Definition} {source : String}
    {effect : Fighter → Effect} (hchange : ∀ f, changesStats (effect f) = true)
    (hid : ∀ f, (effect f).targetId = f.id) :
    Tracks Q (modifierStep definition source effect) := by
  intro p f hp hf
  exact ends_pure (hp.record hQ (hQ.changed _ f.isDefending hf (hchange f) (hid f)))

theorem buffAll_tracked (hQ : Kept Q) (hp : Tracked Q p) :
    Ends (Strayed Q) (Tracked Q) (buffAll skill targets p) := by
  rw [buffAll]
  split
  · exact ends_pure hp
  · exact forEach_tracked (modifierStep_tracks hQ (fun _ => rfl) fun _ => rfl) hp

theorem debuffAll_tracked (hQ : Kept Q) (hp : Tracked Q p) :
    Ends (Strayed Q) (Tracked Q) (debuffAll skill targets p) := by
  rw [debuffAll]
  split
  · exact ends_pure hp
  · exact forEach_tracked (modifierStep_tracks hQ (fun _ => rfl) fun _ => rfl) hp

theorem defend_tracked (hQ : Kept Q) (hp : Tracked Q p) (hf : Q p.effects f) :
    Tracked Q (defend skill p f) := by
  rw [defend]
  split
  · exact hp.record hQ (hQ.changed f.modifiers true hf rfl rfl)
  · exact hp.record (f := { f with modifiers := _, isDefending := true }) hQ
      (hQ.changed (f := f) (f.modifiers.add _ "buff") true hf rfl rfl)

theorem perform_tracked (hQ : Kept Q) {rules : Rules} (hp : Tracked Q p) (hf : Q p.effects f) :
    Ends (Strayed Q) (Tracked Q) (perform rules f skill targets p) := by
  rw [perform]
  split
  · exact forEach_tracked (attackStep_tracks hQ) hp
  · exact forEach_tracked (attackStep_tracks hQ) hp
  · exact forEach_tracked (healStep_tracks hQ) hp
  · exact buffAll_tracked hQ hp
  · exact debuffAll_tracked hQ hp
  · exact ends_pure (defend_tracked hQ hp hf)
  · refine (buffAll_tracked hQ hp).bind fun q hq => (debuffAll_tracked hQ hq).bind fun q' hq' => ?_
    split
    · exact forEach_tracked (attackStep_tracks hQ) hq'
    · exact ends_pure hq'
  · exact ends_pure hp

theorem itemRevive_tracks (hQ : Kept Q) : Tracks Q (itemRevive item) := by
  intro p f hp hf
  rw [itemRevive]
  split
  · exact ends_pure hp
  · have hrisen : Strayed Q (p.update { f with isAlive := true }).roster :=
      hp.strayed_same hQ hf f.hp f.mp true
    refine (ends_lift (Fallible.ends_leaving hrisen)).bind fun life _ => ends_pure ?_
    exact hp.record_same hQ hf (.whole life) f.mp true

theorem itemHealHp_tracks (hQ : Kept Q) : Tracks Q (itemHealHp item) :=
  fun _ _ hp hf => healed_tracked hQ hp hf

theorem itemHealMp_tracks (hQ : Kept Q) : Tracks Q (itemHealMp item) := by
  intro p f hp hf
  refine (hp.through hQ hf (f.restoreMp_ends item.value)).bind fun x hx => ends_pure ?_
  obtain ⟨magic, hx⟩ := hx
  rw [hx]
  exact hp.record_same hQ hf f.hp magic f.isAlive

theorem itemDamage_tracks (hQ : Kept Q) : Tracks Q (itemDamage item) := by
  intro p f hp hf
  refine hp.leaving.bind fun after hafter => ends_pure ?_
  obtain ⟨life, isAlive, rfl⟩ := Fighter.takeDamage_eq_ok hafter
  exact hp.strike hQ hf life isAlive

theorem itemCure_tracks (hQ : Kept Q) : Tracks Q itemCure := by
  intro p f hp hf
  exact ends_pure (hp.record hQ (hQ.changed _ f.isDefending hf rfl rfl))

theorem applyItem_tracked (hQ : Kept Q) (hp : Tracked Q p) :
    Ends (Strayed Q) (Tracked Q) (applyItem item targets p) := by
  rw [applyItem]
  split
  · exact forEach_tracked (itemHealHp_tracks hQ) hp
  · exact forEach_tracked (itemHealMp_tracks hQ) hp
  · exact forEach_tracked (itemRevive_tracks hQ) hp
  · split
    · exact ends_pure hp
    · exact forEach_tracked (modifierStep_tracks hQ (fun _ => rfl) fun _ => rfl) hp
  · exact forEach_tracked (itemDamage_tracks hQ) hp
  · exact forEach_tracked (itemCure_tracks hQ) hp
  · exact ends_pure hp
  · exact ends_pure hp

/-- A failed action changes nobody; a successful one reports what it has changed. -/
def Reported (Q : List Effect → Fighter → Prop) (x : Report × Roster) : Prop :=
  x.2.Every (Q []) ∨ x.1.success = true ∧ x.2.Every (Q x.1.effects)

theorem Reported.every {x : Report × Roster} (hQ : Kept Q) (hx : Reported Q x) :
    x.2.Every (Q x.1.effects) := by
  rcases hx with hx | ⟨-, hx⟩
  · exact hx.imp fun _ hf => hQ.mono hf (List.nil_subset _)
  · exact hx

variable {roster : Roster}

theorem refuse_reported {why : Refusal} (hr : roster.Every (Q [])) :
    Ends (Strayed Q) (Reported Q) (liftM (refuse roster why) : Attempt _) :=
  ends_lift ((Fallible.ends_leaving ⟨[], hr⟩).bind fun _ _ => .inl hr)

theorem Tracked.report {actor : Fighter} {what : String} (hp : Tracked Q p) :
    Reported Q (p.report actor what, p.roster) :=
  .inr ⟨rfl, hp⟩

theorem pay_ends (f : Fighter) (skill : Skill) :
    Fallible.Ends (fun g => ∃ hp mp, g = { f with hp, mp })
      (fun g => ∃ hp mp, g = { f with hp, mp }) (pay f skill) := by
  refine (Fallible.ends_leaving ⟨_, _, rfl⟩).bind fun mp _ => ?_
  exact (Fallible.ends_leaving ⟨_, _, rfl⟩).bind fun hp _ => ⟨_, _, rfl⟩

theorem pay_eq_ok (h : pay f skill = .ok g) : ∃ hp mp, g = { f with hp, mp } :=
  (pay_ends f skill).of_eq_ok h

theorem useSkill_reported (hQ : Kept Q) {rules : Rules} {actor : Fighter}
    (hr : roster.Every (Q [])) (hactor : Q [] actor) :
    Ends (Strayed Q) (Reported Q) (useSkill rules roster actor skill targets) := by
  rw [useSkill]
  split
  · exact refuse_reported hr
  · have hpaid := Tracked.through (p := { roster }) hQ hr hactor (pay_ends actor skill)
    refine hpaid.bind fun paid hpaid => ?_
    obtain ⟨hp, mp, rfl⟩ := hpaid
    have hpaid : Q [] { actor with hp, mp } := hQ.same hp mp actor.isAlive hactor
    have hstart : Tracked Q { roster := roster.insert actor.id { actor with hp, mp } } :=
      Roster.Every.insert hr hpaid
    exact (perform_tracked hQ hstart hpaid).bind fun p hp => ends_pure hp.report

theorem useItem_reported (hQ : Kept Q) {actor : Fighter} (hr : roster.Every (Q [])) :
    Ends (Strayed Q) (Reported Q) (useItem roster actor item targets) := by
  rw [useItem]
  split
  · exact refuse_reported hr
  · have hstart : Tracked Q { roster } := hr
    exact (applyItem_tracked hQ hstart).bind fun p hp => ends_pure hp.report

section

variable {among : String → Prop} {r : Stat.Rules} {c : Battle.Config}

def Accounted (among : String → Prop) (r : Stat.Rules) (c : Battle.Config) (effects : List Effect)
    (f : Fighter) : Prop :=
  among f.id →
    Rooted r c f ∧ (UpToDate r c f ∨ ∃ e ∈ effects, changesStats e = true ∧ e.targetId = f.id)

theorem accounted_of_upToDate {effects : List Effect} (h : among f.id → UpToDate r c f) :
    Accounted among r c effects f :=
  fun hid => ⟨(h hid).rooted, .inl (h hid)⟩

theorem upToDate_of_accounted_nil (h : Accounted among r c [] f) (hid : among f.id) :
    UpToDate r c f := by
  simpa using (h hid).2

theorem accounted_kept : Kept (Accounted among r c) where
  mono := by
    intro es es' f h hsub hid
    obtain ⟨hroot, hup | ⟨e, he, hchange⟩⟩ := h hid
    · exact ⟨hroot, .inl hup⟩
    · exact ⟨hroot, .inr ⟨e, hsub he, hchange⟩⟩
  same _ _ _ h := h
  changed _ _ h he hid hamong := ⟨(h hamong).1, .inr ⟨_, by simp, he, hid⟩⟩

end

end Action

end Skirmish
