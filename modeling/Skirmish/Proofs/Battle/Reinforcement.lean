import Skirmish.Proofs.Battle.Consistency
import Skirmish.Proofs.Battle.Failure
import Skirmish.Proofs.Battle.FreshId
import Skirmish.Proofs.Battle.Mean

namespace Skirmish

namespace Battle

variable {b c : Battle} {e : Enemy} {f : Fighter} {stats : Stat.Block}

/-- An enemy has joined a battle under an id, and nothing else has changed. -/
structure Joins (b : Battle) (e : Enemy) (id : String) (c : Battle) : Prop where
  sought : Seeks b.fighters e.id e.id 1 id
  chosen : Chosen b.fighters e.id id
  fighter : ∃ f, recruitEnemy b e id = .ok f ∧ f.id = id ∧ f.isAlive = true ∧
    f.isPlayer = false ∧ c.fighters.entries = b.fighters.entries ++ [(id, f)]
  origin : c.origins.get? id = some e
  origins : ∀ other, other ≠ id → c.origins.get? other = b.origins.get? other
  counted : id ∉ b.origins.keys → c.origins.entries = b.origins.entries ++ [(id, e)]
  queued : ∃ initiative, c.queue = b.queue ++ [⟨id, initiative⟩]
  rest : c = { b with
    fighters := c.fighters, origins := c.origins, queue := c.queue
    log := b.log ++ [e.name ++ " appeared!"] }

theorem recruitEnemy_isAlive {id : String} (h : recruitEnemy b e id = .ok f) :
    f.isAlive = true := by
  obtain ⟨fresh, hfresh, hp, mp, rfl⟩ := recruit_eq_ok h
  obtain ⟨stats, -, rfl⟩ := refreshWith_eq_ok.1 hfresh
  rfl

theorem exists_recruitEnemy (h : statsFrom b.rules e.stats 1 {} = .ok stats) (id : String) :
    ∃ f, recruitEnemy b e id = .ok f := by
  cases hf : recruitEnemy b e id with
  | ok f => exact ⟨f, rfl⟩
  | error err => cases h.symm.trans (recruitEnemy_eq_error.1 hf)

def joined (b : Battle) (e : Enemy) (f : Fighter) (initiative : Quantity) : Battle :=
  { b with
    fighters := b.fighters.insert f.id f, origins := b.origins.insert f.id e
    queue := b.queue ++ [⟨f.id, initiative⟩], log := b.log ++ [e.name ++ " appeared!"] }

theorem spawn_eq (hf : recruitEnemy b e (freshId b.fighters e.id) = .ok f) :
    b.spawn e = leaving { b.setFighter f with origins := b.origins.insert f.id e }
      (arithmetic (meanInitiative b.queue)) >>= fun initiative =>
        .ok (b.joined e f initiative) := by
  have henroll : b.enroll e (freshId b.fighters e.id) =
      .ok { b.setFighter f with origins := b.origins.insert f.id e } := by
    rw [enroll, hf, (recruitEnemy_side hf).1]
    rfl
  rw [spawn, henroll, ← (recruitEnemy_side hf).1]
  rfl

theorem joins_joined (hf : recruitEnemy b e (freshId b.fighters e.id) = .ok f)
    (initiative : Quantity) : Joins b e (freshId b.fighters e.id) (b.joined e f initiative) := by
  obtain ⟨hid, henemy⟩ := recruitEnemy_side hf
  have hfree := freshId_notMem b.fighters e.id
  constructor
  case sought => exact seeks_freshId b.fighters e.id
  case chosen => exact chosen_freshId b.fighters e.id
  case fighter =>
    refine ⟨f, hf, hid, recruitEnemy_isAlive hf, henemy, ?_⟩
    rw [joined, hid]
    exact Table.entries_insert_of_notMem hfree
  case origin =>
    rw [joined, hid, Table.get?_insert, if_pos rfl]
  case origins =>
    intro other hother
    rw [joined, hid, Table.get?_insert, if_neg hother]
  case counted =>
    intro hnew
    rw [joined, hid]
    exact Table.entries_insert_of_notMem hnew
  case queued => exact ⟨initiative, by rw [joined, hid]⟩
  case rest => rfl

/-- An enemy whose stats have a value joins the battle exactly if the queue has a mean initiative,
and otherwise the call fails over a number that is too large. -/
theorem spawn_joins_iff (hstats : statsFrom b.rules e.stats 1 {} = .ok stats) :
    ((∃ id c, b.spawn e = .ok c ∧ Joins b e id c) ↔ Averages (b.queue.map (·.initiative))) ∧
      (¬Averages (b.queue.map (·.initiative)) →
        Fallible.FailsWith (b.spawn e) (.arithmetic .overflow)) := by
  obtain ⟨f, hf⟩ := exists_recruitEnemy hstats (freshId b.fighters e.id)
  rw [spawn_eq hf, ← exists_mean_iff]
  cases hmean : meanInitiative b.queue with
  | ok initiative =>
    refine ⟨iff_of_true ⟨_, _, rfl, joins_joined hf initiative⟩ ⟨initiative, rfl⟩, ?_⟩
    exact fun hnone => absurd ⟨initiative, rfl⟩ hnone
  | error cause =>
    obtain rfl := meanInitiative_overflows b.queue cause hmean
    refine ⟨iff_of_false ?_ ?_, fun _ => ⟨_, rfl⟩⟩
    · rintro ⟨id, c, hspawn, -⟩
      cases hspawn
    · rintro ⟨initiative, hinitiative⟩
      cases hinitiative

/-- The third slime takes the second number, as the second one has the first. -/
theorem spawn_joins_iff_haunted : ∃ b₁ b₂ stats,
    haunted.assemble none (some [.plain "slime", .plain "slime"]) = .ok b₁ ∧
      b₁.start = .ok b₂ ∧ statsFrom b₂.rules (Enemy.plain "slime").stats 1 {} = .ok stats ∧
      ∃ c, b₂.spawn (.plain "slime") = .ok c ∧ Joins b₂ (.plain "slime") "slime_2" c := by
  have hok : (do
      let b₁ ← haunted.assemble none (some [.plain "slime", .plain "slime"])
      let b₂ ← b₁.startWithin 2
      let stats ← leaving b₂ (statsFrom b₂.rules (Enemy.plain "slime").stats 1 {})
      let c ← b₂.spawn (.plain "slime")
      return (stats.size, c.queue.map Initiative.Entry.id)).toOption =
        some (3, ["hero", "slime", "slime_1", "slime_2"]) := by
    decide +kernel
  obtain ⟨found, h, hfound⟩ := Fallible.exists_eq_ok_and (f := id) (by simpa using hok)
  simp only [Fallible.bind_eq_ok, Fallible.leaving_eq_ok, Except.ok.injEq] at h
  obtain ⟨b₁, h₁, b₂, hstart, stats, hstats, c, hspawn, rfl⟩ := h
  obtain ⟨hjoins, hfails⟩ := spawn_joins_iff hstats
  have haverages : Averages (b₂.queue.map (·.initiative)) := by
    by_contra hnone
    obtain ⟨left, hleft⟩ := hfails hnone
    cases hspawn.symm.trans hleft
  obtain ⟨id, d, hd, hjoined⟩ := hjoins.2 haverages
  obtain rfl : c = d := Except.ok.inj (hspawn.symm.trans hd)
  obtain ⟨initiative, hqueue⟩ := hjoined.queued
  have hids : c.queue.map (·.id) = ["hero", "slime", "slime_1"] ++ ["slime_2"] :=
    (Prod.mk.inj hfound).2
  rw [hqueue, List.map_append] at hids
  obtain rfl : id = "slime_2" := by simpa using (List.append_inj' hids rfl).2
  exact ⟨b₁, b₂, stats, h₁, start_of_startWithin hstart, hstats, c, hspawn, hjoined⟩

def racer : Enemy :=
  { Enemy.plain "slime" with stats := .ofList [("MaxHP", 20), ("Speed", .real 1.7e308)] }

def race : Battle :=
  create { Game.plain { Character.plain "hero" with stats := racer.stats } with
    enemies := [racer] } none ⟨[], [], .standard⟩ {} {}

/-- The first racer that comes late brings a float into the queue, and then the sum of the speeds of
the others is too large for one. -/
theorem not_joins_race : ∃ b₁ b₂ b stats,
    race.assemble none (some [racer]) = .ok b₁ ∧ b₁.start = .ok b₂ ∧
      perform b₂ (.spawn "slime") = .ok b ∧ statsFrom b.rules racer.stats 1 {} = .ok stats ∧
      Fallible.FailsWith (b.spawn racer) (.arithmetic .overflow) ∧
      ¬∃ id c, b.spawn racer = .ok c ∧ Joins b racer id c := by
  have hok : ((do
      let b₁ ← race.assemble none (some [racer])
      let b₂ ← b₁.startWithin 2
      let b ← perform b₂ (.spawn "slime")
      let stats ← leaving b (statsFrom b.rules racer.stats 1 {})
      return (b, stats)).toOption.bind fun p =>
        (Fallible.failure? (p.1.spawn racer)).map Halt.cause) =
        some (.arithmetic .overflow) := by
    decide +kernel
  obtain ⟨⟨b, stats⟩, h, hfails⟩ := Fallible.exists_eq_ok_bind hok
  simp only [Fallible.bind_eq_ok, Fallible.leaving_eq_ok, Fallible.pure_eq, Except.ok.injEq,
    Prod.mk.injEq] at h
  obtain ⟨b₁, h₁, b₂, hstart, _, hspawn, _, hstats, rfl, rfl⟩ := h
  have hover := Fallible.failsWith_of_failure? hfails
  refine ⟨b₁, b₂, _, _, h₁, start_of_startWithin hstart, hspawn, hstats, hover, ?_⟩
  obtain ⟨left, hleft⟩ := hover
  rintro ⟨id, c, hc, -⟩
  cases hleft.symm.trans hc

end Battle

end Skirmish
