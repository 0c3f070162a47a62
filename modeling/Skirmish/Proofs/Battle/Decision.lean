import Skirmish.Battle.Action
import Skirmish.Proofs.Battle.Muster
import Skirmish.Proofs.Battle.Tactics
import Skirmish.Proofs.Sorting

namespace Skirmish.Tactics

open Chance

variable {g : Game} {self : Fighter} {fighters : List Fighter} {turn : Int}
  {declaration : Option Declaration} {v : View} {c : Config} {d dice : Dice}

/-- The fighter has what the skill of this id costs, if the game has such a skill. -/
def CanPay (g : Game) (self : Fighter) (id : String) : Prop :=
  ∀ s, g.skill? id = some s → s.lacksMp self.mp = false ∧ s.lacksHp self.hp = false

/-- The fighter itself, or at least one of the players and nobody else. -/
def Aimed (self : Fighter) (players : List Fighter) (targets : List String) : Prop :=
  targets = [self.id] ∨ targets ≠ [] ∧ ∀ t ∈ targets, ∃ p ∈ players, p.id = t

def Knows (g : Game) (self : Fighter) (id : String) : Prop :=
  id = basicAttackId ∨ id ∈ self.skills ∧ (g.skill? id).isSome

/-- An order that can be carried out as it stands. -/
structure Sound (g : Game) (self : Fighter) (players : List Fighter) (o : Order) : Prop where
  actor : o.actorId = self.id
  alone : players = [] → o.kind = .defend
  deed : o.kind = .defend ∨ o.kind = .skill ∧ ∃ id, o.skillId = some id ∧
    Knows g self id ∧ CanPay g self id ∧ Aimed self players o.targets

theorem affordable_iff {f : Fighter} {s : Skill} :
    affordable f s = true ↔ s.lacksMp f.mp = false ∧ s.lacksHp f.hp = false := by
  simp [affordable]

theorem mem_knownSkills {s : Skill} :
    s ∈ knownSkills g self ↔ ∃ id ∈ self.skills, g.skill? id = some s := by
  simp [knownSkills]

theorem id_of_skill? {id : String} {s : Skill} (h : g.skill? id = some s) : s.id = id := by
  simpa using List.find?_some h

namespace View

def of? (g : Game) (self : Fighter) (fighters : List Fighter) : Option View :=
  match Roster.living (fighters.filter Fighter.isPlayer) with
  | [] => none
  | player :: others => some { self, skills := knownSkills g self, player, others }

theorem attacks_subset : v.attacks ⊆ v.usable := List.filter_sublist.subset

theorem mem_usable_of_first? {kind : Skill.Kind} {s : Skill} (h : v.first? kind = some s) :
    s ∈ v.usable :=
  List.mem_of_find?_eq_some h

end View

theorem mem_usable_of_wanted? {s : Skill} (h : wanted? c v turn = some s) : s ∈ v.usable := by
  obtain ⟨id, -, hfind⟩ := Option.bind_eq_some_iff.1 h
  exact List.mem_of_find?_eq_some hfind

theorem choose_eq :
    choose g self fighters turn declaration =
      match View.of? g self fighters with
      | none => return { kind := .defend, actorId := self.id }
      | some v => act (.ofDeclaration declaration) v turn := by
  rw [choose, View.of?]
  cases Roster.living (fighters.filter Fighter.isPlayer) <;> rfl

structure Seen (g : Game) (size : Nat) (v : View) : Prop where
  skills : v.skills = knownSkills g v.self
  skills_le : v.skills.length ≤ size
  players_le : v.players.length ≤ size

theorem View.seen_of_of? (h : View.of? g self fighters = some v) :
    Seen g (max self.skills.length fighters.length) v ∧ v.self = self ∧
      v.players = Roster.living (fighters.filter Fighter.isPlayer) := by
  rw [View.of?] at h
  split at h
  · cases h
  next player others hliving =>
    cases h
    refine ⟨⟨rfl, ?_, ?_⟩, rfl, hliving.symm⟩
    · exact Nat.le_trans (List.length_filterMap_le _ _) (Nat.le_max_left ..)
    · rw [View.players, ← hliving]
      have hle := Nat.le_trans (List.length_filter_le Fighter.isAlive _)
        (List.length_filter_le Fighter.isPlayer fighters)
      exact Nat.le_trans hle (Nat.le_max_right ..)

theorem View.players_ne_nil : v.players ≠ [] := List.cons_ne_nil _ _

section Sound

variable {size : Nat} {s : Skill} {p : Fighter}

theorem Seen.sound_useOn {targets : List String} (hv : Seen g size v) (hs : s ∈ v.usable)
    (haim : Aimed v.self v.players targets) : Sound g v.self v.players (v.useOn s.id targets) := by
  obtain ⟨hskill, hpays⟩ := List.mem_filter.1 hs
  rw [hv.skills] at hskill
  obtain ⟨id, hid, hfound⟩ := mem_knownSkills.1 hskill
  have hsame := id_of_skill? hfound
  subst hsame
  refine ⟨rfl, fun h => absurd h View.players_ne_nil, .inr ⟨rfl, s.id, rfl, ?_, ?_, haim⟩⟩
  · exact .inr ⟨hid, by rw [hfound]; rfl⟩
  · intro s' hs'
    rw [hfound] at hs'
    cases hs'
    exact affordable_iff.1 hpays

theorem aimed_self : Aimed v.self v.players [v.self.id] := .inl rfl

theorem aimed_player (hp : p ∈ v.players) : Aimed v.self v.players [p.id] := by
  refine .inr ⟨List.cons_ne_nil _ _, fun t ht => ?_⟩
  exact ⟨p, hp, (List.mem_singleton.1 ht).symm⟩

theorem aimed_targetIds (hp : p ∈ v.players) :
    Aimed v.self v.players (v.targetIds s p) := by
  rw [View.targetIds]
  split
  · exact aimed_self
  · split
    · exact .inr ⟨by simp [View.players], fun t ht => by simpa using ht⟩
    · exact aimed_player hp

theorem Seen.sound_use (hv : Seen g size v) (hs : s ∈ v.usable) (hp : p ∈ v.players) :
    Sound g v.self v.players (v.use s p) :=
  hv.sound_useOn hs (aimed_targetIds hp)

theorem sound_defend : Sound g v.self v.players v.defend :=
  ⟨rfl, fun _ => rfl, .inl rfl⟩

theorem Seen.sound_heal? {percent : Float} {threshold : Quantity} {o : Order}
    (hv : Seen g size v) (h : v.heal? percent threshold = some o) :
    Sound g v.self v.players o := by
  rw [View.heal?] at h
  split at h
  · obtain ⟨s, hs, rfl⟩ := Option.map_eq_some_iff.1 h
    exact hv.sound_useOn (View.mem_usable_of_first? hs) aimed_self
  · cases h

theorem sound_basicAttack_iff (hp : p ∈ v.players) :
    Sound g v.self v.players (v.useOn basicAttackId [p.id]) ↔ CanPay g v.self basicAttackId := by
  constructor
  · rintro ⟨-, -, hdefend | ⟨-, id, hid, -, hpays, -⟩⟩
    · cases hdefend
    · cases hid
      exact hpays
  · intro hpays
    refine ⟨rfl, fun h => absurd h View.players_ne_nil, .inr ⟨rfl, _, rfl, .inl rfl, hpays, ?_⟩⟩
    exact aimed_player hp

end Sound

theorem firstLeast_mem {α : Type} (before : α → α → Bool) (best : α) (xs : List α) :
    firstLeast before best xs ∈ best :: xs := by
  induction xs generalizing best with
  | nil => exact List.mem_singleton.2 rfl
  | cons x xs ih =>
      rw [firstLeast]
      rcases List.mem_cons.1 (ih (if before x best then x else best)) with h | h
      · rw [h]
        split <;> simp
      · exact List.mem_cons_of_mem _ (List.mem_cons_of_mem _ h)

/-- The strongest or weakest player is settled without a draw. -/
theorem target_of_ne_random {preference : Preference} (h : preference ≠ .random) :
    ∃ p ∈ v.players, v.target preference = pure p := by
  cases preference with
  | weakest => exact ⟨_, firstLeast_mem weaker v.player v.others, rfl⟩
  | strongest => exact ⟨_, firstLeast_mem stronger v.player v.others, rfl⟩
  | random => exact absurd rfl h

section Behaviors

variable {size : Nat}

theorem Seen.target_succeeds (hv : Seen g size v) (hfair : Fair d size)
    (preference : Preference) : Succeeds d (v.target preference) (· ∈ v.players) := by
  by_cases h : preference = .random
  · subst h
    exact hfair.pick View.players_ne_nil hv.players_le
  · obtain ⟨p, hp, htarget⟩ := target_of_ne_random (v := v) h
    rw [htarget]
    exact succeeds_pure hp

theorem hpPercent_succeeds {percent : Float} (h : v.self.hpPercent = .ok percent) :
    Succeeds d (liftM (Chance.arithmetic v.self.hpPercent) : Roll Chance.Error Float)
      fun _ => True := by
  rw [h]
  exact succeeds_lift rfl trivial

theorem tempted_succeeds (s : Option Skill) (chance : Float) :
    Succeeds d (tempted s chance) fun found => ∀ t, found = some t → s = some t := by
  cases s with
  | none => exact succeeds_pure fun t ht => ht
  | some s =>
      refine succeeds_unit.bind fun x _ => succeeds_pure fun t ht => ?_
      split at ht
      · exact ht
      · cases ht

theorem usable_length_le (hv : Seen g size v) : v.usable.length ≤ size :=
  Nat.le_trans (List.length_filter_le _ _) hv.skills_le

theorem attacks_length_le (hv : Seen g size v) : v.attacks.length ≤ size :=
  Nat.le_trans (List.length_filter_le _ _) (usable_length_le hv)

theorem aggressive_of_attacks_eq_nil (h : v.attacks = []) :
    ∃ p ∈ v.players, aggressive c v = pure (v.useOn basicAttackId [p.id]) := by
  have hne : (if c.preference = .random then .weakest else c.preference) ≠ Preference.random := by
    split
    · simp
    · assumption
  obtain ⟨p, hp, htarget⟩ := target_of_ne_random (v := v) hne
  refine ⟨p, hp, ?_⟩
  rw [aggressive, htarget, h]
  rfl

theorem Seen.aggressive_succeeds (hv : Seen g size v) (hfair : Fair d size)
    (hpays : v.attacks = [] → CanPay g v.self basicAttackId) :
    Succeeds d (aggressive c v) (Sound g v.self v.players) := by
  by_cases hnone : v.attacks = []
  · obtain ⟨p, hp, haggressive⟩ := aggressive_of_attacks_eq_nil (c := c) hnone
    rw [haggressive]
    exact succeeds_pure ((sound_basicAttack_iff hp).2 (hpays hnone))
  · rw [aggressive]
    refine (hv.target_succeeds hfair _).bind fun p hp => ?_
    split
    next h => exact absurd (Sorting.sorted_eq_nil h) hnone
    next s rest hattacks =>
      have hs := View.attacks_subset (Sorting.mem_of_sorted_eq_cons hattacks)
      exact succeeds_pure (hv.sound_use hs hp)

theorem Seen.defensive_succeeds (hv : Seen g size v) (hfair : Fair d size) {percent : Float}
    (hpercent : v.self.hpPercent = .ok percent) :
    Succeeds d (defensive c v) (Sound g v.self v.players) := by
  refine (hpPercent_succeeds hpercent).bind fun percent _ => ?_
  split
  next o hheal => exact succeeds_pure (hv.sound_heal? hheal)
  next =>
    split
    · exact succeeds_pure sound_defend
    · split
      next => exact succeeds_pure sound_defend
      next s rest hattacks =>
        refine (hv.target_succeeds hfair _).bind fun p hp => ?_
        have hs := View.attacks_subset (Sorting.mem_of_sorted_eq_cons hattacks)
        exact succeeds_pure (hv.sound_use hs hp)

theorem Seen.balanced_succeeds (hv : Seen g size v) (hfair : Fair d size) {percent : Float}
    (hpercent : v.self.hpPercent = .ok percent) :
    Succeeds d (balanced c v) (Sound g v.self v.players) := by
  refine (hpPercent_succeeds hpercent).bind fun percent _ => ?_
  split
  next o hheal => exact succeeds_pure (hv.sound_heal? hheal)
  next =>
    refine (tempted_succeeds _ _).bind fun buff hbuff => ?_
    split
    next s =>
      exact succeeds_pure (hv.sound_useOn (View.mem_usable_of_first? (hbuff s rfl)) aimed_self)
    next =>
      refine (tempted_succeeds _ _).bind fun debuff hdebuff => ?_
      split
      next s =>
        refine (hv.target_succeeds hfair _).bind fun p hp => ?_
        exact succeeds_pure
          (hv.sound_useOn (View.mem_usable_of_first? (hdebuff s rfl)) (aimed_player hp))
      next =>
        split
        · exact succeeds_pure sound_defend
        next hattacks =>
          refine (hfair.pick (by simpa using hattacks) (attacks_length_le hv)).bind fun s hs => ?_
          refine (hv.target_succeeds hfair _).bind fun p hp => ?_
          exact succeeds_pure (hv.sound_use (View.attacks_subset hs) hp)

theorem Seen.random_succeeds (hv : Seen g size v) (hfair : Fair d size) :
    Succeeds d (random v) (Sound g v.self v.players) := by
  rw [random]
  split
  · exact succeeds_pure sound_defend
  next husable =>
    refine (hfair.pick (by simpa using husable) (usable_length_le hv)).bind fun s hs => ?_
    refine (hv.target_succeeds hfair _).bind fun p hp => ?_
    exact succeeds_pure (hv.sound_use hs hp)

/-- A script leaves the decision to the balanced rules when neither the skill whose turn it is nor
a buff of its period can be used. -/
def Improvises (c : Config) (v : View) (turn : Int) : Prop :=
  wanted? c v turn = none ∧ (turn % buffPeriod = 0 → v.first? .buff = none)

theorem Seen.scripted_succeeds (hv : Seen g size v) (hfair : Fair d size)
    (hpercent : Improvises c v turn → ∃ percent, v.self.hpPercent = .ok percent) :
    Succeeds d (scripted c v turn) (Sound g v.self v.players) := by
  rw [scripted]
  split
  next s hs =>
    refine (hv.target_succeeds hfair _).bind fun p hp => ?_
    exact succeeds_pure (hv.sound_use (mem_usable_of_wanted? hs) hp)
  next hwanted =>
    split
    next s hbuff =>
      have hfirst : v.first? .buff = some s := by
        split at hbuff
        · exact hbuff
        · cases hbuff
      exact succeeds_pure (hv.sound_useOn (View.mem_usable_of_first? hfirst) aimed_self)
    next hbuff =>
      obtain ⟨percent, hpercent⟩ :=
        hpercent ⟨hwanted, fun hperiod => by simpa [hperiod] using hbuff⟩
      exact hv.balanced_succeeds hfair hpercent

/-- The last resort costs more than the fighter has. -/
def Overspends (g : Game) (c : Config) (v : View) : Prop :=
  c.behavior = .aggressive ∧ v.attacks = [] ∧ ¬ CanPay g v.self basicAttackId

def Consults (c : Config) (v : View) (turn : Int) : Prop :=
  c.behavior = .defensive ∨ c.behavior = .balanced ∨ c.behavior = .scripted ∧ Improvises c v turn

/-- The share of life that the rules ask for is beyond every float. -/
def Overflows (c : Config) (v : View) (turn : Int) : Prop :=
  Consults c v turn ∧ ∃ e, v.self.hpPercent = .error e

theorem Seen.act_succeeds (hv : Seen g size v) (hfair : Fair d size)
    (hpays : ¬ Overspends g c v) (hcounts : ¬ Overflows c v turn) :
    Succeeds d (act c v turn) (Sound g v.self v.players) := by
  have hpercent (h : Consults c v turn) : ∃ percent, v.self.hpPercent = .ok percent := by
    cases hshare : v.self.hpPercent with
    | ok percent => exact ⟨percent, rfl⟩
    | error e => exact absurd ⟨h, e, hshare⟩ hcounts
  rw [act]
  split
  next h =>
    refine hv.aggressive_succeeds hfair fun hnone => Classical.byContradiction fun hbroke => ?_
    exact hpays ⟨h, hnone, hbroke⟩
  next h =>
    obtain ⟨percent, hp⟩ := hpercent (.inl h)
    exact hv.defensive_succeeds hfair hp
  next h =>
    obtain ⟨percent, hp⟩ := hpercent (.inr (.inl h))
    exact hv.balanced_succeeds hfair hp
  next h => exact hv.scripted_succeeds hfair fun hi => hpercent (.inr (.inr ⟨h, hi⟩))
  next => exact hv.random_succeeds hfair
  next => exact hv.random_succeeds hfair

end Behaviors

theorem act_of_overspends (h : Overspends g c v) {o : Order} {dice' : Dice}
    (hrun : (act c v turn).run.run dice = (.ok o, dice')) : ¬ Sound g v.self v.players o := by
  obtain ⟨hbehavior, hnone, hpays⟩ := h
  obtain ⟨p, hp, haggressive⟩ := aggressive_of_attacks_eq_nil (c := c) hnone
  rw [act, hbehavior, haggressive] at hrun
  cases hrun
  exact fun hsound => hpays ((sound_basicAttack_iff hp).1 hsound)

theorem defensive_of_error {e : ArithmeticError} (h : v.self.hpPercent = .error e) :
    (defensive c v).run.run dice = (.error (.arithmetic e), dice) := by
  rw [defensive, h]
  rfl

theorem balanced_of_error {e : ArithmeticError} (h : v.self.hpPercent = .error e) :
    (balanced c v).run.run dice = (.error (.arithmetic e), dice) := by
  rw [balanced, h]
  rfl

theorem act_of_overflows (h : Overflows c v turn) :
    ∃ e, ∀ dice, (act c v turn).run.run dice = (.error e, dice) := by
  obtain ⟨hconsults, e, hpercent⟩ := h
  refine ⟨.arithmetic e, fun dice => ?_⟩
  rw [act]
  rcases hconsults with h | h | ⟨h, hwanted, hbuff⟩ <;> rw [h]
  · exact defensive_of_error hpercent
  · exact balanced_of_error hpercent
  · have hperiod : (if turn % buffPeriod = 0 then v.first? .buff else none) = none := by
      split
      next h => exact hbuff h
      next => rfl
    simp only [scripted, hwanted, hperiod]
    exact balanced_of_error hpercent

theorem not_sound_of_overspends (hv : View.of? g self fighters = some v)
    (h : Overspends g (.ofDeclaration declaration) v) {o : Order} {dice' : Dice}
    (hrun : (choose g self fighters turn declaration).run.run dice = (.ok o, dice')) :
    ¬ Sound g self (Roster.living (fighters.filter Fighter.isPlayer)) o := by
  obtain ⟨-, rfl, hplayers⟩ := View.seen_of_of? hv
  rw [choose_eq, hv] at hrun
  rw [← hplayers]
  exact act_of_overspends h hrun

/-- On fair dice an enemy comes to an order that can be carried out as it stands, except exactly
where an aggressive one is left with a basic attack that it cannot pay for, or where the share of
life that its rules ask for is no number. -/
theorem choose_sound_iff (hfair : Fair dice (max self.skills.length fighters.length)) :
    (∃ o dice', (choose g self fighters turn declaration).run.run dice = (.ok o, dice') ∧
      Sound g self (Roster.living (fighters.filter Fighter.isPlayer)) o) ↔
    ∀ v, View.of? g self fighters = some v →
      ¬ Overspends g (.ofDeclaration declaration) v ∧
        ¬ Overflows (.ofDeclaration declaration) v turn := by
  constructor
  · rintro ⟨o, dice', hrun, hsound⟩ v hv
    refine ⟨fun h => not_sound_of_overspends hv h hrun hsound, fun h => ?_⟩
    obtain ⟨e, herror⟩ := act_of_overflows h
    rw [choose_eq, hv] at hrun
    cases (herror dice).symm.trans hrun
  · intro h
    rw [choose_eq]
    cases hview : View.of? g self fighters with
    | none => exact ⟨_, dice, rfl, rfl, fun _ => rfl, .inl rfl⟩
    | some v =>
        obtain ⟨hpays, hcounts⟩ := h v hview
        obtain ⟨hseen, rfl, hplayers⟩ := View.seen_of_of? hview
        obtain ⟨o, dice', hrun, -, hsound⟩ :=
          hseen.act_succeeds hfair hpays hcounts dice .refl
        exact ⟨o, dice', hrun, hplayers ▸ hsound⟩

def strike (id : String) (mpCost : Quantity) : Skill where
  id := id
  name := id
  kind := .physical
  mpCost := mpCost
  hpCost := 0
  power := none
  value := none
  target := "enemy"
  description := ""
  buff := none
  debuff := none

def novice (id : String) (isPlayer : Bool) : Fighter where
  id := id
  name := id
  isPlayer := isPlayer
  baseStats := .ofList []
  stats := .ofList []
  hp := 20
  mp := 0
  maxHp := 20
  maxMp := 0
  skills := ["claw"]

def fierce : Declaration where
  behavior := some .aggressive
  healThreshold := none
  defendThreshold := none
  preference := none
  skillPriority := none

theorem fair_half : Fair {} 2 := by
  refine fair_of_constant fun n hpos hle => ?_
  obtain rfl | rfl : n = 1 ∨ n = 2 := by omega
  · have hone :
        ((Quantity.real 0.5).mul (.whole 1) >>= Quantity.floor).toOption.map id = some 0 := by
      decide +kernel
    obtain ⟨k, hk, rfl⟩ := Fallible.exists_eq_ok_and hone
    exact ⟨_, by decide, by decide, hk⟩
  · have htwo :
        ((Quantity.real 0.5).mul (.whole 2) >>= Quantity.floor).toOption.map id = some 1 := by
      decide +kernel
    obtain ⟨k, hk, rfl⟩ := Fallible.exists_eq_ok_and htwo
    exact ⟨_, by decide, by decide, hk⟩

def duel : List Fighter := [novice "hero" true, novice "imp" false]

def clawed (mpCost : Quantity) : Game :=
  { Game.plain (.plain "hero") with skills := [strike "claw" 1, strike basicAttackId mpCost] }

theorem choose_sound_iff_free :
    Fair {} 2 ∧ ∃ o dice',
      (choose (clawed 0) (novice "imp" false) duel 1 (some fierce)).run.run {} = (.ok o, dice') ∧
      Sound (clawed 0) (novice "imp" false) [novice "hero" true] o := by
  refine ⟨fair_half, (choose_sound_iff fair_half).2 ?_⟩
  intro v hv
  cases hv
  refine ⟨?_, ?_⟩
  · rintro ⟨-, -, hpays⟩
    refine hpays fun s hs => ?_
    cases hs
    decide
  · rintro ⟨h | h | ⟨h, -⟩, -⟩ <;> cases h

/-- An imp without magic points attacks at a price of five. -/
theorem not_sound_costly :
    Fair {} 2 ∧ ¬ ∃ o dice',
      (choose (clawed 5) (novice "imp" false) duel 1 (some fierce)).run.run {} = (.ok o, dice') ∧
      Sound (clawed 5) (novice "imp" false) [novice "hero" true] o := by
  refine ⟨fair_half, ?_⟩
  rintro ⟨o, dice', hrun, hsound⟩
  have hview : View.of? (clawed 5) (novice "imp" false) duel =
      some ⟨novice "imp" false, [strike "claw" 1], novice "hero" true, []⟩ := by rfl
  refine not_sound_of_overspends hview ⟨rfl, by rfl, fun hpays => ?_⟩ hrun hsound
  exact absurd (hpays (strike basicAttackId 5) rfl).1 (by decide)

end Skirmish.Tactics
