import Skirmish.Proofs.Battle.Changes
import Skirmish.Proofs.Battle.Initiative

namespace Skirmish

theorem Roster.Keyed.map_id {r : Roster} (h : r.Keyed) : r.values.map Fighter.id = r.keys := by
  rw [Table.values, List.map_map, Table.keys]
  exact List.map_congr_left fun e he => h e.1 e.2 (Table.get?_of_mem he)

namespace Battle

variable {b c : Battle} {e : Enemy} {f : Fighter} {s t : Call}

def Matches (r : Roster) (origins : Table Enemy) : Prop :=
  ∀ id, id ∈ origins.keys ↔ ∃ f, r.get? id = some f ∧ f.isPlayer = false

theorem Matches.insert {r : Roster} {origins : Table Enemy} (h : Matches r origins)
    (hf : f.isPlayer = false) : Matches (r.insert f.id f) (origins.insert f.id e) := by
  intro id
  rw [Table.mem_keys_insert, Table.get?_insert]
  split
  next hid => exact iff_of_true (.inl hid) ⟨f, rfl, hf⟩
  next hid => rw [or_iff_right hid, h id]

/-- Fighters stand under their own ids, the enemies among them have an origin, and the queue is made
of fighters, none of them twice; the index is a place in it, if it has any. -/
structure Consistent (b : Battle) : Prop where
  keyed : b.fighters.Keyed
  origins : Matches b.fighters b.origins
  queue : ∀ entry ∈ b.queue, ∃ f, b.fighter? entry.id = some f
  once : (b.queue.map (·.id)).Nodup
  index : b.queue = [] ∧ b.index = 0 ∨ b.index < b.queue.length

def Keeps (b c : Battle) : Prop :=
  ∀ id f, b.fighter? id = some f → ∃ g, c.fighter? id = some g ∧ g.id = f.id ∧
    g.isPlayer = f.isPlayer

theorem Keeps.refl (b : Battle) : Keeps b b := fun _ f hf => ⟨f, hf, rfl, rfl⟩

theorem Keeps.trans {d : Battle} (h : Keeps b c) (h' : Keeps c d) : Keeps b d := by
  intro id f hf
  obtain ⟨g, hg, hid, hside⟩ := h id f hf
  obtain ⟨g', hg', hid', hside'⟩ := h' id g hg
  exact ⟨g', hg', hid'.trans hid, hside'.trans hside⟩

theorem side_of_changes {g : Fighter} (h : Relation.ReflTransGen (Change s) f g) :
    g.id = f.id ∧ g.isPlayer = f.isPlayer := by
  induction h with
  | refl => exact ⟨rfl, rfl⟩
  | tail _ hchange ih =>
      obtain ⟨hid, hside, -⟩ := hchange.footprint
      exact ⟨hid.trans ih.1, hside.trans ih.2⟩

theorem Step.keeps (hb : b.fighters.Keyed) (h : Step s b c) : Keeps b c := by
  intro id f hf
  obtain ⟨g, hg, hchanges⟩ := h.after hb hf
  exact ⟨g, hg, side_of_changes hchanges⟩

namespace Consistent

theorem beside (hb : Consistent b) (h : Beside b c) : Consistent c := by
  obtain ⟨hsame, horigins, hqueue, hindex⟩ := h
  constructor
  · rw [hsame.fighters]
    exact hb.keyed
  · rw [hsame.fighters, horigins]
    exact hb.origins
  · rw [hqueue]
    simpa only [fighter?, hsame.fighters] using hb.queue
  · rw [hqueue]
    exact hb.once
  · rw [hqueue, hindex]
    exact hb.index

theorem treated (hb : Consistent b) (h : b.fighters.Treated (Change s) c.fighters)
    (horigins : SameOrigins b c) (hqueue : c.queue = b.queue) (hindex : c.index = b.index) :
    Consistent c := by
  have hid : ∀ f g, Change s f g → g.id = f.id := fun _ _ h => h.footprint.1
  have hkeys : ∀ id, id ∈ c.origins.keys ↔ id ∈ b.origins.keys := by
    intro id
    rcases horigins with hsame | ⟨f, e, hf, henemy, hinsert⟩
    · rw [hsame]
    · rw [hinsert, Table.mem_keys_insert, or_iff_right_of_imp]
      rintro rfl
      exact (hb.origins f.id).2 ⟨f, hf, henemy⟩
  constructor
  · exact h.keyed hb.keyed
  · intro id
    rw [hkeys, hb.origins id]
    constructor
    · rintro ⟨f, hf, henemy⟩
      obtain ⟨g, hg, hchanges⟩ := h.after hid hf
      exact ⟨g, hg, (side_of_changes hchanges).2.trans henemy⟩
    · rintro ⟨g, hg, henemy⟩
      obtain ⟨f, hf, hchanges⟩ := h.before hid hg
      exact ⟨f, hf, (side_of_changes hchanges).2.symm.trans henemy⟩
  · rw [hqueue]
    intro entry hentry
    obtain ⟨f, hf⟩ := hb.queue entry hentry
    obtain ⟨g, hg, -⟩ := h.after hid hf
    exact ⟨g, hg⟩
  · rw [hqueue]
    exact hb.once
  · rw [hqueue, hindex]
    exact hb.index

theorem enlist (hb : Consistent b) (hf : f.isPlayer = false) :
    Consistent
      { b with fighters := b.fighters.insert f.id f, origins := b.origins.insert f.id e } where
  keyed := hb.keyed.insert f
  origins := hb.origins.insert hf
  queue entry hentry := by
    obtain ⟨g, hg⟩ := hb.queue entry hentry
    rw [fighter?, Table.get?_insert]
    split
    · exact ⟨f, rfl⟩
    · exact ⟨g, hg⟩
  once := hb.once
  index := hb.index

theorem joined (hb : Consistent b) (h : Joined b c) : Consistent c := by
  obtain ⟨e, f, entry, log, hf, hentry, rfl⟩ := h
  obtain ⟨hid, henemy⟩ := recruitEnemy_side hf
  have henlisted := hb.enlist (e := e) henemy
  have hnew : f.id ∉ b.fighters.keys := hid ▸ freshId_notMem b.fighters e.id
  refine ⟨henlisted.keyed, henlisted.origins, fun x hx => ?_, ?_, .inr ?_⟩
  · rcases List.mem_append.1 hx with hx | hx
    · exact henlisted.queue x hx
    · rw [List.mem_singleton.1 hx]
      exact ⟨f, by rw [fighter?, Table.get?_insert, if_pos hentry]⟩
  · rw [List.map_append, List.map_singleton, List.nodup_append]
    refine ⟨hb.once, List.nodup_singleton _, fun id hid y hy => ?_⟩
    obtain ⟨x, hx, rfl⟩ := List.mem_map.1 hid
    obtain ⟨g, hg⟩ := hb.queue x hx
    rw [List.mem_singleton.1 hy, hentry]
    rintro heq
    rw [heq, fighter?, Table.get?_of_notMem hnew] at hg
    cases hg
  · rcases hb.index with ⟨-, hindex⟩ | hindex
    all_goals
      simp only [List.length_append, List.length_singleton]
      omega

theorem round {turn : Nat} {queue : List Initiative.Entry} {dice : Dice} (hb : Consistent b)
    (h : (Initiative.queue b.config.initiativeVariance b.fighters.values).run.run b.dice =
      (.ok queue, dice)) : Consistent { b with turn, index := 0, queue, dice } := by
  have hperm := Initiative.queue_yields _ _ b.dice queue dice h
  refine ⟨hb.keyed, hb.origins, fun entry hentry => ?_, ?_, ?_⟩
  · obtain ⟨f, hf, hid⟩ := List.mem_map.1 (hperm.mem_iff.1 (List.mem_map_of_mem hentry))
    obtain ⟨x, hx, rfl⟩ := List.mem_map.1 (List.mem_filter.1 hf).1
    have hfound : b.fighter? x.1 = some x.2 := Table.get?_of_mem hx
    refine ⟨x.2, ?_⟩
    rw [← hid, hb.keyed x.1 x.2 hfound]
    exact hfound
  · refine hperm.nodup_iff.2 ?_
    have hids : (b.fighters.values.map Fighter.id).Nodup := by
      rw [hb.keyed.map_id]
      exact b.fighters.nodup
    exact (List.filter_sublist.map Fighter.id).nodup hids
  · cases queue with
    | nil => exact .inl ⟨rfl, rfl⟩
    | cons entry queue => exact .inr (Nat.succ_pos _)

/-- No step harms the consistency. -/
theorem step (hb : Consistent b) (h : Step s b c) : Consistent c := by
  rcases h.fighters hb.keyed with ⟨horigins, htreats⟩ | hjoined
  · cases h with
    | beside h => exact hb.beside h
    | advance h => exact ⟨hb.keyed, hb.origins, hb.queue, hb.once, .inr h⟩
    | round h => exact hb.round h
    | begin _ _ h =>
        obtain ⟨fighters, dice, log, rfl⟩ := Acted.beginTurn h
        exact hb.treated htreats horigins rfl rfl
    | order _ _ h =>
        obtain ⟨fighters, dice, log, rfl⟩ := Acted.runOrder h
        exact hb.treated htreats horigins rfl rfl
    | deed he h =>
        rcases deed_cases hb.keyed he h with halters | hjoined
        · obtain ⟨fighters, origins, buffsMade, log, rfl⟩ := halters.stirred
          exact hb.treated htreats horigins rfl rfl
        · exact hb.joined hjoined
    | settle _ _ => exact hb.treated htreats horigins rfl rfl
  · exact hb.joined hjoined

theorem path (hb : Consistent b) (h : Path s b c) : Consistent c ∧ Keeps b c := by
  induction h with
  | refl => exact ⟨hb, .refl b⟩
  | tail _ hstep ih =>
      obtain ⟨t, -, hstep⟩ := hstep
      exact ⟨ih.1.step hstep, ih.2.trans (hstep.keeps ih.1.keyed)⟩

theorem apply {k : Command} (hb : Consistent b) (h : k.apply b = .ok c) :
    Consistent c ∧ Keeps b c :=
  hb.path (.apply h)

theorem follow {ks : List Command} (hb : Consistent b) (h : b.follow ks = .ok c) :
    Consistent c := by
  induction ks generalizing b with
  | nil =>
      cases h
      exact hb
  | cons k ks ih =>
      obtain ⟨d, hd, h⟩ := Fallible.bind_eq_ok.1 h
      exact ih (hb.apply hd).1 h

theorem enrollAll {seen : List String} {es : List Enemy} (hb : Consistent b)
    (h : b.enrollAll seen es = .ok c) : Consistent c := by
  induction es generalizing b seen with
  | nil =>
      cases h
      exact hb
  | cons e es ih =>
      obtain ⟨d, hd, h⟩ := Fallible.bind_eq_ok.1 h
      refine ih ?_ h
      obtain ⟨f, hf, rfl⟩ := enroll_eq_ok hd
      obtain ⟨hid, henemy⟩ := recruitEnemy_side hf
      have henlisted := hb.enlist (e := e) henemy
      rw [hid] at henlisted
      simpa only [setFighter, hid] using henlisted

theorem assemble {player : Option Character} {enemies : Option (List Enemy)}
    (h : b.assemble player enemies = .ok c) : Consistent c := by
  obtain ⟨p, hp, h⟩ := Fallible.bind_eq_ok.1 h
  obtain ⟨d, hd, h⟩ := Fallible.bind_eq_ok.1 h
  cases h
  have hplayer : p.isPlayer = true := (recruitPlayer_side (Fallible.leaving_eq_ok.1 hp)).2
  have halone : ∀ id f, (Table.empty.insert p.id p).get? id = some f → f.id = id ∧ f = p := by
    intro id f hf
    rw [Table.get?_insert] at hf
    split at hf
    next hid =>
      cases hf
      exact ⟨hid.symm, rfl⟩
    next => cases hf
  have hd : Consistent d := by
    refine enrollAll ⟨fun id f hf => (halone id f hf).1, fun id => ?_, by simp [setFighter],
      by simp [setFighter], .inl ⟨rfl, rfl⟩⟩ hd
    refine iff_of_false List.not_mem_nil ?_
    rintro ⟨f, hf, henemy⟩
    rw [(halone id f hf).2, hplayer] at henemy
    cases henemy
  exact ⟨hd.keyed, hd.origins, hd.queue, hd.once, hd.index⟩

end Consistent

def haunted : Battle :=
  create { Game.plain (.plain "hero") with enemies := [.plain "slime"] } none ⟨[], [], .standard⟩
    {} {}

/-- After every command of a battle the roster, the origins and the queue are consistent, and no
command that follows takes a fighter from the field or changes its id or its side. -/
theorem consistent_of_follow {b b₁ b₂ : Battle} {player : Option Character}
    {enemies : Option (List Enemy)} {ks : List Command} (h₁ : b.assemble player enemies = .ok b₁)
    (h₂ : b₁.follow ks = .ok b₂) :
    Consistent b₂ ∧ ∀ (k : Command) b₃, k.apply b₂ = .ok b₃ → Keeps b₂ b₃ := by
  have hb := (Consistent.assemble h₁).follow h₂
  exact ⟨hb, fun k b₃ h₃ => (hb.apply h₃).2⟩

theorem consistent_of_follow_spawn :
    ∃ b₁ b₂ b₃, haunted.assemble none (some [.plain "slime"]) = .ok b₁ ∧
      b₁.follow [.start, .perform (.spawn "slime")] = .ok b₂ ∧ b₂.close = .ok b₃ ∧
      b₂.queue.map (·.id) = ["hero", "slime", "slime_1"] ∧ Consistent b₂ ∧ Keeps b₂ b₃ := by
  have hok : (do
      let b₁ ← haunted.assemble none (some [.plain "slime"])
      let c ← b₁.startWithin 2
      let b₂ ← perform c (.spawn "slime")
      let b₃ ← b₂.close
      return (b₂.queue.map Initiative.Entry.id, b₃.phase)).toOption =
        some (["hero", "slime", "slime_1"], .actionSelect) := by
    decide +kernel
  obtain ⟨found, h, hfound⟩ := Fallible.exists_eq_ok_and (f := id) (by simpa using hok)
  simp only [Fallible.bind_eq_ok, Except.ok.injEq] at h
  obtain ⟨b₁, h₁, c, hstart, b₂, hspawn, b₃, hclose, rfl⟩ := h
  have h₂ : b₁.follow [.start, .perform (.spawn "slime")] = .ok b₂ := by
    simp only [follow, Command.apply, start_of_startWithin hstart, hspawn, Fallible.ok_bind]
  obtain ⟨hconsistent, hkeeps⟩ := consistent_of_follow h₁ h₂
  have hqueue : b₂.queue.map (·.id) = ["hero", "slime", "slime_1"] := (Prod.mk.inj hfound).1
  exact ⟨b₁, b₂, b₃, h₁, h₂, hclose, hqueue, hconsistent, hkeeps .close b₃ hclose⟩

end Battle

end Skirmish
