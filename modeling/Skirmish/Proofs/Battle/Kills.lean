import Skirmish.Proofs.Battle.Scope

namespace Skirmish

namespace Roster

/-- Those who live in the one roster and not in the other. -/
def felled (r r' : Roster) : List String := r.keys.filter fun id => r.isAlive id && !r'.isAlive id

def fallen : List Roster → List String
  | r :: r' :: rs => felled r r' ++ fallen (r' :: rs)
  | _ => []

def Apart (r r' : Roster) : Prop := ∃ id, ∀ x ≠ id, r'.get? x = r.get? x

variable {r r' : Roster} {f g : Fighter} {id : String}

theorem exists_of_isAlive (h : r.isAlive id = true) : ∃ f, r.get? id = some f := by
  cases hf : r.get? id with
  | none =>
    rw [isAlive, hf] at h
    cases h
  | some f => exact ⟨f, rfl⟩

theorem mem_keys_of_get? (h : r.get? id = some f) : id ∈ r.keys := by
  by_contra hnone
  cases h.symm.trans (Table.lookup_eq_none hnone)

theorem isAlive_of_get? (h : r.get? id = some f) : r.isAlive id = f.isAlive := by
  rw [isAlive, h]
  rfl

theorem mem_felled : id ∈ felled r r' ↔ r.isAlive id = true ∧ r'.isAlive id = false := by
  rw [felled, List.mem_filter, Bool.and_eq_true, Bool.not_eq_true']
  refine ⟨And.right, fun h => ⟨?_, h⟩⟩
  obtain ⟨f, hf⟩ := exists_of_isAlive h.1
  exact mem_keys_of_get? hf

theorem felled_eq_nil (h : ∀ id, r.isAlive id = true → r'.isAlive id = true) :
    felled r r' = [] := by
  refine List.filter_eq_nil_iff.2 fun id _ hmem => ?_
  obtain ⟨halive, hfallen⟩ := Bool.and_eq_true_iff.1 hmem
  rw [h id halive] at hfallen
  cases hfallen

theorem felled_insert (hf : r.get? f.id = some f) (hid : g.id = f.id) :
    felled r (r.insert g.id g) = if Fighter.fell f g then [g.id] else [] := by
  have hfell : ∀ id, (r.isAlive id && !Roster.isAlive (r.insert g.id g) id) =
      (Fighter.fell f g && id == f.id) := by
    intro id
    rw [Roster.isAlive, Roster.isAlive, Table.get?_insert, hid]
    by_cases heq : id = f.id
    · rw [heq, if_pos rfl, hf]
      simp [Fighter.fell]
    · rw [if_neg heq, Bool.and_not_self, beq_false_of_ne heq, Bool.and_false]
  simp only [felled, hfell]
  cases Fighter.fell f g with
  | false => exact List.filter_eq_nil_iff.2 fun id _ hmem => by cases hmem
  | true =>
    have hkeys : r.keys.count f.id = 1 := List.count_eq_one_of_mem r.nodup (mem_keys_of_get? hf)
    rw [hid, if_pos rfl]
    simp only [Bool.true_and]
    rw [List.filter_beq, hkeys]
    rfl

end Roster

namespace Action

open Chance Roster

/-- The effects that bring back whoever has the id. -/
def revivals (id : String) (es : List Effect) : Nat :=
  es.countP fun e => e.targetId = id ∧ e.kind = .revive

section

variable {revives : Bool} {ids : List String} {p q : Progress} {ps : List Progress} {f g : Fighter}
  {kind : EffectKind} {id : String} {r : Roster}

theorem Meets.damages (h : Meets revives f g kind) (hfell : Fighter.fell f g = true) :
    kind = .damage := by
  cases h with
  | strike => rfl
  | change => simp [Fighter.fell] at hfell
  | revive hfallen => simp [Fighter.fell, hfallen] at hfell

theorem Meets.raises (h : Meets revives f g kind) :
    kind = .revive ↔ f.isAlive = false ∧ g.isAlive = true := by
  cases h with
  | strike h =>
    refine iff_of_false (by simp) fun hraised => ?_
    cases hraised.1.symm.trans ((Meets.strike h).falls hraised.2)
  | change hkind => exact iff_of_false hkind fun hraised => by cases hraised.1.symm.trans hraised.2
  | revive hfallen => exact iff_of_true rfl ⟨hfallen, rfl⟩

namespace Link

theorem apart (h : Link revives ids p q) : Apart p.roster q.roster := by
  cases h with
  | idle => exact ⟨"", fun _ _ => rfl⟩
  | @meet f g e _ _ _ h =>
    refine ⟨g.id, fun x hx => ?_⟩
    rw [strike_roster, Table.get?_insert, if_neg hx]

theorem killed (h : Link revives ids p q) : q.killed = p.killed ++ felled p.roster q.roster := by
  cases h with
  | idle => rw [felled_eq_nil fun _ => id, List.append_nil]
  | meet _ hf _ h => rw [strike_killed, strike_roster, felled_insert hf h.id_eq]

theorem effects_subset (h : Link revives ids p q) : p.effects ⊆ q.effects := by
  cases h with
  | idle => exact List.Subset.refl _
  | meet _ _ _ _ =>
    rw [strike_effects]
    exact List.subset_append_left _ _

theorem damaged (h : Link revives ids p q) (hid : id ∈ felled p.roster q.roster) :
    ∃ e ∈ q.effects, e.targetId = id ∧ e.kind = .damage := by
  cases h with
  | idle =>
    obtain ⟨halive, hfallen⟩ := mem_felled.1 hid
    cases halive.symm.trans hfallen
  | meet _ hf htold h =>
    rw [strike_roster, felled_insert hf h.id_eq] at hid
    split at hid
    next hfell =>
      obtain rfl := List.mem_singleton.1 hid
      rw [strike_effects]
      exact ⟨_, List.mem_append_right _ (List.mem_singleton.2 rfl), htold.trans h.id_eq.symm,
        h.damages hfell⟩
    next => cases hid

theorem revivals (h : Link revives ids p q) :
    revivals id q.effects = revivals id p.effects +
      if p.roster.isAlive id = false ∧ q.roster.isAlive id = true then 1 else 0 := by
  cases h with
  | idle =>
    rw [if_neg, Nat.add_zero]
    exact fun hraised => by cases hraised.1.symm.trans hraised.2
  | @meet f g e _ hf htold h =>
    have hraises : (p.roster.isAlive id = false ∧
        Roster.isAlive (p.roster.insert g.id g) id = true) ↔
          e.targetId = id ∧ e.kind = .revive := by
      rw [htold, h.raises, Roster.isAlive, Roster.isAlive, Table.get?_insert, h.id_eq]
      by_cases heq : id = f.id
      · simp [heq, hf]
      · rw [if_neg heq]
        refine iff_of_false (fun hraised => ?_) fun hraised => heq hraised.1.symm
        cases hraised.1.symm.trans hraised.2
    rw [strike_effects, strike_roster, Action.revivals, List.countP_append, List.countP_singleton]
    simp only [hraises, decide_eq_true_eq, Action.revivals]

end Link

/-- The report is right about a run that began with the roster: who fell or was brought back lived
or had fallen then, and nobody does both. -/
structure Tally (revives : Bool) (r : Roster) (p : Progress) : Prop where
  falls : revives = false → ∀ id, p.roster.isAlive id = true → r.isAlive id = true
  rises : revives = true → ∀ id, r.isAlive id = true → p.roster.isAlive id = true
  nodup : p.killed.Nodup
  killed : ∀ id, id ∈ p.killed ↔ r.isAlive id = true ∧ p.roster.isAlive id = false
  damaged : ∀ id ∈ p.killed, ∃ e ∈ p.effects, e.targetId = id ∧ e.kind = .damage
  revived : ∀ id, revivals id p.effects =
    if r.isAlive id = false ∧ p.roster.isAlive id = true then 1 else 0

namespace Tally

theorem unchanged {r' : Roster} (h : ∀ id, r'.isAlive id = r.isAlive id) :
    Tally revives r { roster := r' } where
  falls _ id halive := h id ▸ halive
  rises _ id halive := h id ▸ halive
  nodup := List.nodup_nil
  killed id := by
    rw [h id]
    exact iff_of_false List.not_mem_nil fun hfell => by cases hfell.1.symm.trans hfell.2
  damaged id hid := by cases hid
  revived id := by
    rw [h id, if_neg]
    · rfl
    · exact fun hraised => by cases hraised.1.symm.trans hraised.2

theorem link (hp : Tally revives r p) (h : Link revives ids p q) : Tally revives r q := by
  have hfalls : revives = false →
      ∀ id, q.roster.isAlive id = true → p.roster.isAlive id = true := by
    rintro rfl id
    exact h.falls
  have hrises : revives = true → ∀ id, p.roster.isAlive id = true → q.roster.isAlive id = true := by
    rintro rfl id halive
    rw [Roster.isAlive, h.spares halive]
    exact halive
  have hkilled : ∀ id, id ∈ q.killed ↔ id ∈ p.killed ∨
      p.roster.isAlive id = true ∧ q.roster.isAlive id = false := by
    intro id
    rw [h.killed, List.mem_append, mem_felled]
  refine ⟨fun hr id hq => hp.falls hr id (hfalls hr id hq),
    fun hr id hlives => hrises hr id (hp.rises hr id hlives), ?_, fun id => ?_, fun id hid => ?_,
    fun id => ?_⟩
  · rw [h.killed]
    refine hp.nodup.append (p.roster.nodup.filter _) fun id hbefore hnow => ?_
    cases ((hp.killed id).1 hbefore).2.symm.trans (mem_felled.1 hnow).1
  · rw [hkilled, hp.killed]
    cases revives with
    | false => grind [hp.falls rfl id, hfalls rfl id]
    | true => grind [hp.rises rfl id, hrises rfl id]
  · rcases (hkilled id).1 hid with hbefore | hnow
    · obtain ⟨e, he, htold⟩ := hp.damaged id hbefore
      exact ⟨e, h.effects_subset he, htold⟩
    · exact h.damaged (mem_felled.2 hnow)
  · rw [h.revivals, hp.revived]
    cases revives with
    | false => grind [hp.falls rfl id, hfalls rfl id]
    | true => grind [hp.rises rfl id, hrises rfl id]

theorem links (hp : Tally revives r p) (h : Links revives ids p q) : Tally revives r q := by
  induction h with
  | refl => exact hp
  | tail _ hlink ih => exact ih.link hlink

end Tally

theorem killed_of_isChain (h : (p :: ps).IsChain (Link revives ids)) :
    (ps.getLastD p).killed = p.killed ++ fallen ((p :: ps).map Progress.roster) := by
  induction ps generalizing p with
  | nil => exact (List.append_nil _).symm
  | cons q ps ih =>
    obtain ⟨hlink, h⟩ := List.isChain_cons_cons.1 h
    rw [List.getLastD_cons, ih h, hlink.killed, List.append_assoc]
    rfl

/-- A step that leaves alive whom it meets leaves everybody alive whom a sweep goes to. -/
theorem watchEach_raises {step : Step} (hlinked : Linked true step)
    (hstep : ∀ p f, p.roster.get? f.id = some f →
      Yields (step p f) fun q => q.roster.isAlive f.id = true)
    (hp : p.roster.Keyed) :
    Yields (watchEach step p ids) fun ps =>
      ∀ id ∈ ids, (p.roster.get? id).isSome → (ps.getLastD p).roster.isAlive id = true := by
  induction ids generalizing p with
  | nil => exact yields_pure fun id hid => by cases hid
  | cons id ids ih =>
    rw [watchEach]
    split
    next hnone =>
      refine (ih hp).mono fun ps hps x hx hsome => ?_
      rcases List.mem_cons.1 hx with rfl | hx
      · rw [hnone] at hsome
        cases hsome
      · exact hps x hx hsome
    next f hf =>
      have hid : f.id = id := hp id f hf
      subst hid
      refine ((hlinked p f hf).and (hstep p f hf)).bind fun q hq => ?_
      refine ((watchEach_isChain hlinked (hq.1.keyed hp) (List.Subset.refl ids)).and
        (ih (hq.1.keyed hp))).bind fun qs hqs => yields_pure fun x hx hsome => ?_
      rw [List.getLastD_cons]
      rcases List.mem_cons.1 hx with rfl | hx
      · rw [Roster.isAlive, (Links.of_isChain hqs.1).spares hq.2]
        exact hq.2
      · refine hqs.2 x hx ?_
        rw [← Option.isSome_map, hq.1.profile, Option.isSome_map]
        exact hsome

theorem itemRevive_raises {item : Item} (hf : p.roster.get? f.id = some f) :
    Yields (itemRevive item p f) fun q => q.roster.isAlive f.id = true := by
  rw [itemRevive]
  split
  next halive =>
    refine yields_pure ?_
    rw [isAlive_of_get? hf, halive]
  next =>
    refine (yields_true _).bind fun hp _ => yields_pure ?_
    refine isAlive_of_get? (f := { f with isAlive := true, hp := .whole hp }) ?_
    rw [Progress.record, Table.get?_insert, if_pos rfl]

end

namespace Tool

variable {t : Tool} {roster roster' : Roster} {actor : Fighter} {targets : List String}
  {report : Report} {dice dice' : Dice} {p : Progress} {ps : List Progress} {id : String}

theorem start_fresh (h : t.start roster actor = .ok p) : ∃ r, p = { roster := r } := by
  rcases start_cases h with rfl | ⟨-, hp, mp, rfl⟩
  · exact ⟨_, rfl⟩
  · exact ⟨_, rfl⟩

theorem start_apart (h : t.start roster actor = .ok p) : Apart roster p.roster :=
  ⟨actor.id, fun _ hne => start_frame hne h⟩

theorem start_isAlive (hactor : roster.get? actor.id = some actor)
    (h : t.start roster actor = .ok p) : p.roster.isAlive id = roster.isAlive id := by
  rw [Roster.isAlive, start_kept (fun _ _ => rfl) hactor h]
  rfl

theorem start_tally (hactor : roster.get? actor.id = some actor)
    (h : t.start roster actor = .ok p) : Tally t.revives roster p := by
  have halive : ∀ id, p.roster.isAlive id = roster.isAlive id := fun _ => start_isAlive hactor h
  obtain ⟨r, rfl⟩ := start_fresh h
  exact .unchanged halive

theorem sweeps_of_revives (targets : List String) (hrevives : t.revives = true) :
    ∃ i, t.sweeps actor.id targets = [⟨itemRevive i, fun _ => targets⟩] ∧
      t.reach roster actor.id targets = targets := by
  cases t with
  | skill r s => cases hrevives
  | item i =>
    have huse : i.use = .revive := by simpa [revives] using hrevives
    refine ⟨i, ?_, ?_⟩
    · rw [sweeps, huse]
    · rw [reach, if_pos huse]

theorem raised_iff (hr : roster.Keyed) (hactor : roster.get? actor.id = some actor)
    (hstart : t.start roster actor = .ok p)
    (hwatch : (watchAll (t.sweeps actor.id targets) p).run.run dice = (.ok ps, dice')) :
    roster.isAlive id = false ∧ (ps.getLastD p).roster.isAlive id = true ↔
      t.revives = true ∧ id ∈ targets ∧ ∃ f, roster.get? id = some f ∧ f.isAlive = false := by
  have hlinks := start_links hr hstart hwatch
  cases hrevives : t.revives with
  | false =>
    rw [hrevives] at hlinks
    refine iff_of_false (fun hraised => ?_) fun h => by cases h.1
    have halive := hlinks.falls hraised.2
    rw [start_isAlive hactor hstart, hraised.1] at halive
    cases halive
  | true =>
    obtain rfl := start_of_revives hrevives hstart
    obtain ⟨i, hsweeps, hreach⟩ := sweeps_of_revives (t := t) targets hrevives
    rw [hrevives, hreach] at hlinks
    rw [hsweeps, watchAll_singleton] at hwatch
    constructor
    · rintro ⟨hfallen, halive⟩
      have htarget : id ∈ targets := by
        by_contra hnot
        rw [Roster.isAlive, hlinks.frame hnot] at halive
        cases hfallen.symm.trans halive
      obtain ⟨g, hg⟩ := exists_of_isAlive halive
      have hprofile : ((ps.getLastD { roster }).roster.get? id).map Fighter.profile =
          (roster.get? id).map Fighter.profile := hlinks.profile
      rw [hg] at hprofile
      obtain ⟨f, hf, -⟩ := Option.map_eq_some_iff.1 hprofile.symm
      exact ⟨rfl, htarget, f, hf, (isAlive_of_get? hf).symm.trans hfallen⟩
    · rintro ⟨-, htarget, f, hf, hfallen⟩
      refine ⟨(isAlive_of_get? hf).trans hfallen, ?_⟩
      exact watchEach_raises itemRevive_linked (fun _ _ => itemRevive_raises) hr dice ps dice'
        hwatch id htarget (by rw [hf]; rfl)

theorem not_revives_of_fails (h : t.Fails actor) : t.revives = false := by
  cases t with
  | skill r s => rfl
  | item i =>
    refine decide_eq_false fun huse => ?_
    rw [Fails, huse] at h
    exact h (by decide)

theorem moments_of_fails (h : t.Fails actor) :
    (t.moments roster actor targets).run.run dice = (.ok [], dice) := by
  cases hrefusal : t.refusal? actor with
  | none => exact absurd h (refusal?_eq_none.1 hrefusal)
  | some why =>
    rw [moments, hrefusal]
    rfl

theorem moments_run (hcan : t.refusal? actor = none) (hstart : t.start roster actor = .ok p)
    (hwatch : (watchAll (t.sweeps actor.id targets) p).run.run dice = (.ok ps, dice')) :
    (t.moments roster actor targets).run.run dice = (.ok (p :: ps), dice') := by
  rw [moments, hcan, hstart]
  show (watchAll (t.sweeps actor.id targets) p >>= fun ps => pure (p :: ps)).run.run dice = _
  rw [ExceptT.run_bind, StateT.run_bind, hwatch]
  rfl

/-- Whatever is used on whomever: those are reported as killed who lived before and do not
afterwards, once each and in the order in which they fell, and each of them takes damage. Those who
live afterwards and did not before are the fallen targets of what brings them back, and it is told
once of each of them. -/
theorem kills_exact (hr : roster.Keyed) (hactor : roster.get? actor.id = some actor)
    (hrun : (t.use roster actor targets).run.run dice = (.ok (report, roster'), dice')) :
    ∃ ps, (t.moments roster actor targets).run.run dice = (.ok ps, dice') ∧
      (ps.map Progress.roster).getLastD roster = roster' ∧
      (roster :: ps.map Progress.roster).IsChain Apart ∧
      report.killed = fallen (roster :: ps.map Progress.roster) ∧ report.killed.Nodup ∧
      (∀ id, id ∈ report.killed ↔ roster.isAlive id = true ∧ roster'.isAlive id = false) ∧
      (∀ id ∈ report.killed, ∃ e ∈ report.effects, e.targetId = id ∧ e.kind = .damage) ∧
      ∀ id, (roster.isAlive id = false ∧ roster'.isAlive id = true ↔
          t.revives = true ∧ id ∈ targets ∧ ∃ f, roster.get? id = some f ∧ f.isAlive = false) ∧
        revivals id report.effects =
          if roster.isAlive id = false ∧ roster'.isAlive id = true then 1 else 0 := by
  rcases use_cases hrun with
    ⟨hfails, -, heffects, hkilled, rfl, rfl⟩ | ⟨hgoes, p, ps, hstart, hwatch, rfl, rfl⟩
  · have hnone : (t.moments roster' actor targets).run.run dice' = (.ok [], dice') :=
      moments_of_fails hfails
    have hsame : Tally false roster' { roster := roster' } := .unchanged fun _ => rfl
    rw [hkilled, heffects]
    refine ⟨[], hnone, rfl, .singleton roster', rfl, hsame.nodup, hsame.killed, hsame.damaged,
      fun id => ⟨?_, hsame.revived id⟩⟩
    refine iff_of_false (fun hraised => ?_) fun h => ?_
    · cases hraised.1.symm.trans hraised.2
    · cases (not_revives_of_fails hfails).symm.trans h.1
  · have hlinks := start_links hr hstart hwatch
    have hchain := watchAll_isChain (start_keyed hr hstart) sweeps_within dice ps dice' hwatch
    have htally := (start_tally hactor hstart).links hlinks
    refine ⟨p :: ps, moments_run (refusal?_eq_none.2 hgoes) hstart hwatch, ?_, ?_, ?_, htally.nodup,
      htally.killed, htally.damaged, fun id => ⟨raised_iff hr hactor hstart hwatch,
        htally.revived id⟩⟩
    · rw [List.map_cons, List.getLastD_cons]
      simp [List.getLastD_eq_getLast?, List.getLast?_map, Option.getD_map]
    · refine List.isChain_cons_cons.2 ⟨start_apart hstart, ?_⟩
      exact (List.isChain_map Progress.roster).2 (hchain.imp fun _ _ => Link.apart)
    · have hstays : felled roster p.roster = [] :=
        felled_eq_nil fun id halive => (start_isAlive hactor hstart).trans halive
      obtain ⟨r, rfl⟩ := start_fresh hstart
      rw [Progress.report, killed_of_isChain hchain, List.nil_append]
      exact (congrArg (· ++ _) hstays).symm

def bomb : Tool := .item {
  id := "bomb", name := "Bomb", use := .damage, value := 100, kind := "consumable"
  target := "enemy", description := "", buffStat := none, buffValue := none, buffDuration := none
  slot := none, modifiers := [] }

theorem kills_exact_bomb : ∃ report r dice,
    (bomb.use melee mage ["imp", "ghost", "imp"]).run.run {} = (.ok (report, r), dice) ∧
      report.effects.length = 2 ∧ report.killed = ["imp"] ∧ melee.isAlive "imp" = true ∧
      r.isAlive "imp" = false := by
  have hok : ((bomb.use melee mage ["imp", "ghost", "imp"]).run.run {}).1.toOption.map
      (fun p => (p.1.effects.length, p.1.killed)) = some (2, ["imp"]) := by decide +kernel
  obtain ⟨⟨report, r⟩, dice, hrun, htold⟩ := exists_run_eq_ok hok
  obtain ⟨hlength, hkilled⟩ := Prod.mk.inj htold
  obtain ⟨ps, -, -, -, -, -, hfell, -⟩ := kills_exact melee_keyed rfl hrun
  obtain ⟨halive, hfallen⟩ := (hfell "imp").1 (by rw [hkilled]; exact List.mem_singleton.2 rfl)
  exact ⟨report, r, dice, hrun, hlength, hkilled, halive, hfallen⟩

end Tool

end Action

end Skirmish
