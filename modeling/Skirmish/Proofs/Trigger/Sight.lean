import Skirmish.Battle.Trigger
import Skirmish.Proofs.Stat.Names

namespace Skirmish

namespace Text

theorem splitOn_append {c : Char} {cs : List Char} (h : c ∉ cs) (ds : List Char) :
    splitOn c (cs ++ c :: ds) = cs :: splitOn c ds := by
  induction cs with
  | nil =>
      obtain ⟨part, parts, hds⟩ := exists_splitOn_cons c ds
      simp [splitOn, hds]
  | cons d cs ih =>
      rw [List.mem_cons, not_or] at h
      simp [splitOn, ih h.2, Ne.symm h.1]

theorem parts_of_two {s t : String} (hs : '.' ∉ s.toList) (ht : '.' ∉ t.toList) :
    parts '.' (s ++ "." ++ t) = [s, t] := by
  have hchars : (s ++ "." ++ t).toList = s.toList ++ '.' :: t.toList := by simp
  rw [parts, hchars, splitOn_append hs, splitOn_of_notMem ht]
  simp

end Text

theorem Fallible.exists_mapM_iff {ε α β : Type} {f : α → Except ε β} {as : List α} :
    (∃ bs, as.mapM f = .ok bs) ↔ ∀ a ∈ as, ∃ b, f a = .ok b := by
  induction as with
  | nil => simp
  | cons a as ih =>
      simp only [List.mapM_cons, bind_eq_ok, pure_eq, Except.ok.injEq, List.forall_mem_cons, ← ih]
      constructor
      · rintro ⟨-, b, hb, bs, hbs, -⟩
        exact ⟨⟨b, hb⟩, bs, hbs⟩
      · rintro ⟨⟨b, hb⟩, bs, hbs⟩
        exact ⟨b :: bs, b, hb, bs, hbs, rfl⟩

theorem Formula.Context.resolve_eq_ok {c : Context} {path : String} {x : Float} :
    c.resolve path = .ok x ↔
      ∃ q, c.at? (Text.parts '.' path) = some (.number q) ∧ q.toFloat = .ok x := by
  rw [resolve]
  split
  next q hq => simp [hq, arithmetic, Fallible.mapError_eq_ok]
  next hnone => simpa using fun q hq => absurd hq (hnone q)

namespace Fighter

inductive Trait where
  | hp | maxHp | hpPercent | mp | maxMp | mpPercent | level | isAlive | isDefending

namespace Trait

def name : Trait → String
  | hp => "hp"
  | maxHp => "maxHp"
  | hpPercent => "hpPercent"
  | mp => "mp"
  | maxMp => "maxMp"
  | mpPercent => "mpPercent"
  | level => "level"
  | isAlive => "isAlive"
  | isDefending => "isDefending"

def value (f : Fighter) : Trait → Quantity.Result Quantity
  | hp => .ok f.hp
  | maxHp => .ok f.maxHp
  | hpPercent => .real <$> f.hpPercent
  | mp => .ok f.mp
  | maxMp => .ok f.maxMp
  | mpPercent => .real <$> f.mpPercent
  | level => .ok f.level
  | isAlive => .ok (if f.isAlive then 1 else 0)
  | isDefending => .ok (if f.isDefending then 1 else 0)

def number (t : Trait) (f : Fighter) : Quantity.Result Float := do (← t.value f).toFloat

theorem not_mem_name (t : Trait) : '.' ∉ t.name.toList := by cases t <;> decide

end Trait

def Measured (f : Fighter) : Prop := (∃ x, f.hpPercent = .ok x) ∧ ∃ x, f.mpPercent = .ok x

/-- Every live number is defined, and no stat of its name differs from it. -/
def Unmasked (f : Fighter) : Prop :=
  ∀ t : Trait, ∃ x, t.number f = .ok x ∧ ∀ q, f.stats.get? t.name = some q → q.toFloat = .ok x

variable {f : Fighter} {c : Formula.Context}

theorem exists_conditions_iff : (∃ c, f.conditions = .ok c) ↔ f.Measured := by
  simp only [conditions, Fallible.bind_eq_ok, Fallible.pure_eq, Except.ok.injEq, Measured]
  constructor
  · rintro ⟨c, x, hx, y, hy, -⟩
    exact ⟨⟨x, hx⟩, y, hy⟩
  · rintro ⟨⟨x, hx⟩, y, hy⟩
    exact ⟨_, x, hx, y, hy, rfl⟩

theorem Unmasked.measured (h : f.Unmasked) : f.Measured := by
  have hvalue : ∀ t : Trait, ∃ q, t.value f = .ok q := by
    intro t
    obtain ⟨x, hx, -⟩ := h t
    obtain ⟨q, hq, -⟩ := Fallible.bind_eq_ok.1 hx
    exact ⟨q, hq⟩
  have hreal : ∀ {x : Quantity.Result Float}, (∃ q, Quantity.real <$> x = .ok q) →
      ∃ y, x = .ok y := by
    rintro (e | y) ⟨q, hq⟩
    · cases hq
    · exact ⟨y, rfl⟩
  exact ⟨hreal (hvalue .hpPercent), hreal (hvalue .mpPercent)⟩

theorem at?_conditions (h : f.conditions = .ok c) (t : Trait) :
    ∃ q, t.value f = .ok q ∧
      c.at? [t.name] = some (.number ((f.stats.get? t.name).getD q)) := by
  simp only [conditions, Fallible.bind_eq_ok, Fallible.pure_eq, Except.ok.injEq] at h
  obtain ⟨hpPercent, hhp, mpPercent, hmp, rfl⟩ := h
  rw [← Table.insertAll, Formula.Context.at?_ofBlock, Table.get?_insertAll]
  cases t <;> simp only [Trait.value, hhp, hmp] <;> refine ⟨_, rfl, ?_⟩ <;>
    cases f.stats.get? _ <;> rfl

end Fighter

namespace Trigger

open Fighter (Trait)

def reserved : List String :=
  ["turn", "playersAlive", "enemiesAlive", "totalPlayers", "totalEnemies", "player", "enemy"]

/-- An id that is one part of a path, and no other name of the context. -/
def Addressable (id : String) : Prop := '.' ∉ id.toList ∧ id ∉ reserved

instance (id : String) : Decidable (Addressable id) := inferInstanceAs (Decidable (_ ∧ _))

/-- A fighter goes by its id, and the first one of each side by its role. -/
inductive Named (fs : List Fighter) : String → Fighter → Prop
  | id {f : Fighter} (hf : f ∈ fs) (h : Addressable f.id) : Named fs f.id f
  | player {f : Fighter} (h : (fs.filter Fighter.isPlayer).head? = some f) : Named fs "player" f
  | enemy {f : Fighter} (h : (fs.filter fun f => !f.isPlayer).head? = some f) : Named fs "enemy" f

/-- Under the name stands the live number of every trait. -/
def Shows (c : Formula.Context) (name : String) (f : Fighter) : Prop :=
  ∀ t : Trait, ∃ x, t.number f = .ok x ∧ c.resolve (name ++ "." ++ t.name) = .ok x

variable {fs : List Fighter} {turn : Quantity} {name role : String} {f : Fighter}
  {c d : Formula.Context} {es : List (String × Formula.Context)}

theorem Named.mem (h : Named fs name f) : f ∈ fs := by
  cases h with
  | id hf => exact hf
  | player h | enemy h => exact (List.mem_filter.1 (List.mem_of_mem_head? h)).1

theorem Named.not_mem_name (h : Named fs name f) : '.' ∉ name.toList := by
  cases h with
  | id hf h => exact h.1
  | player h | enemy h => decide

theorem roleContext_eq_ok : roleContext role fs = .ok es ↔
    (fs.head? = none ∧ es = []) ∨
      ∃ f c, fs.head? = some f ∧ f.conditions = .ok c ∧ es = [(role, c)] := by
  cases fs with
  | nil => simp [roleContext, eq_comm]
  | cons f fs =>
      simp only [roleContext, Fallible.bind_eq_ok, Fallible.pure_eq, Except.ok.injEq]
      simp [eq_comm]

theorem lookup_roleContext_of_ne (h : roleContext role fs = .ok es) (hne : name ≠ role) :
    Table.lookup name es.reverse = none := by
  rcases roleContext_eq_ok.1 h with ⟨-, rfl⟩ | ⟨f, c, -, -, rfl⟩
  · rfl
  · simp [Table.lookup, Ne.symm hne]

theorem lookup_roleContext (h : roleContext role fs = .ok es) (hf : fs.head? = some f) :
    ∃ c, f.conditions = .ok c ∧ Table.lookup role es.reverse = some c := by
  rcases roleContext_eq_ok.1 h with ⟨hnone, -⟩ | ⟨g, c, hg, hc, rfl⟩
  · rw [hf] at hnone
    cases hnone
  · obtain rfl : f = g := Option.some.inj (hf.symm.trans hg)
    exact ⟨c, hc, by simp [Table.lookup]⟩

theorem exists_roleContext (role : String) (h : ∀ f ∈ fs, f.Measured) :
    ∃ es, roleContext role fs = .ok es := by
  cases fs with
  | nil => exact ⟨[], rfl⟩
  | cons f fs =>
      obtain ⟨c, hc⟩ := Fighter.exists_conditions_iff.2 (h f (.head fs))
      exact ⟨[(role, c)], roleContext_eq_ok.2 (.inr ⟨f, c, rfl, hc, rfl⟩)⟩

theorem mapM_conditions_eq_ok
    (h : (fs.mapM fun f => do return (f.id, ← f.conditions)) = .ok es) :
    es.map Prod.fst = fs.map Fighter.id ∧ ∀ f ∈ fs, ∃ c, f.conditions = .ok c ∧ (f.id, c) ∈ es := by
  induction fs generalizing es with
  | nil =>
      cases h
      simp
  | cons f fs ih =>
      simp only [List.mapM_cons, Fallible.bind_eq_ok, Fallible.pure_eq, Except.ok.injEq] at h
      obtain ⟨-, ⟨c, hc, rfl⟩, es, hes, rfl⟩ := h
      obtain ⟨hkeys, hall⟩ := ih hes
      refine ⟨by simp [hkeys], List.forall_mem_cons.2 ⟨⟨c, hc, .head es⟩, fun g hg => ?_⟩⟩
      obtain ⟨d, hd, hmem⟩ := hall g hg
      exact ⟨d, hd, .tail _ hmem⟩

theorem exists_context_iff : (∃ c, context fs turn = .ok c) ↔ ∀ f ∈ fs, f.Measured := by
  simp only [context, Fallible.bind_eq_ok, Fallible.pure_eq]
  constructor
  · rintro ⟨-, each, heach, -⟩ f hf
    obtain ⟨c, hc, -⟩ := (mapM_conditions_eq_ok heach).2 f hf
    exact Fighter.exists_conditions_iff.1 ⟨c, hc⟩
  · intro h
    have hsome : ∀ f ∈ fs, ∃ e, (do return (f.id, ← f.conditions)) = .ok e := by
      intro f hf
      obtain ⟨c, hc⟩ := Fighter.exists_conditions_iff.2 (h f hf)
      exact ⟨(f.id, c), by rw [hc]; rfl⟩
    obtain ⟨each, heach⟩ := Fallible.exists_mapM_iff.2 hsome
    obtain ⟨player, hplayer⟩ := exists_roleContext "player"
      fun f hf => h f (List.mem_filter.1 hf).1
    obtain ⟨enemy, henemy⟩ := exists_roleContext "enemy"
      fun f hf => h f (List.mem_filter.1 hf).1
    exact ⟨_, each, heach, player, hplayer, enemy, henemy, rfl⟩

theorem Named.at?_context (hids : (fs.map Fighter.id).Nodup) (hc : context fs turn = .ok c)
    (h : Named fs name f) :
    ∃ d, f.conditions = .ok d ∧ ∀ path, c.at? (name :: path) = d.at? path := by
  simp only [context, Fallible.bind_eq_ok, Fallible.pure_eq, Except.ok.injEq] at hc
  obtain ⟨each, heach, player, hplayer, enemy, henemy, rfl⟩ := hc
  obtain ⟨hkeys, hall⟩ := mapM_conditions_eq_ok heach
  simp only [Formula.Context.at?, Table.lookup_foldl_put, List.reverse_append,
    Table.lookup_append]
  cases h with
  | id hf haddress =>
      obtain ⟨hplain, hfree⟩ := haddress
      have hne : f.id ≠ "player" ∧ f.id ≠ "enemy" := by
        constructor <;> intro heq <;> exact hfree (by rw [heq]; decide)
      obtain ⟨d, hd, hmem⟩ := hall f hf
      have hlookup := Table.lookup_of_mem (hkeys ▸ hids) hmem
      refine ⟨d, hd, fun path => ?_⟩
      rw [lookup_roleContext_of_ne hplayer hne.1, lookup_roleContext_of_ne henemy hne.2,
        Table.lookup_reverse (hkeys ▸ hids), hlookup]
      rfl
  | player hf =>
      obtain ⟨d, hd, hlookup⟩ := lookup_roleContext hplayer hf
      refine ⟨d, hd, fun path => ?_⟩
      rw [lookup_roleContext_of_ne henemy (by decide), hlookup]
      rfl
  | enemy hf =>
      obtain ⟨d, hd, hlookup⟩ := lookup_roleContext henemy hf
      refine ⟨d, hd, fun path => ?_⟩
      rw [hlookup]
      rfl

theorem Named.shows_iff (hids : (fs.map Fighter.id).Nodup) (hc : context fs turn = .ok c)
    (h : Named fs name f) : Shows c name f ↔ f.Unmasked := by
  obtain ⟨d, hd, hpath⟩ := h.at?_context hids hc
  refine forall_congr' fun t => exists_congr fun x => and_congr_right fun hx => ?_
  obtain ⟨q, hq, hat⟩ := Fighter.at?_conditions hd t
  have hlive : q.toFloat = .ok x := by
    rw [Trait.number, hq] at hx
    exact hx
  rw [Formula.Context.resolve_eq_ok, Text.parts_of_two h.not_mem_name t.not_mem_name, hpath, hat]
  cases f.stats.get? t.name with
  | none => simp [hlive]
  | some r => simp

/-- Of a snapshot with different ids there is a context that shows every fighter as it is, under its
id and its role, exactly if all percentages have values and no stat hides another live number; and
a role and an id of the same fighter always lead to the same. -/
theorem context_shows_iff (hids : (fs.map Fighter.id).Nodup) :
    ((∃ c, context fs turn = .ok c ∧ ∀ name f, Named fs name f → Shows c name f) ↔
      (∀ f ∈ fs, f.Measured) ∧ ∀ name f, Named fs name f → f.Unmasked) ∧
    ∀ c, context fs turn = .ok c → ∀ name f, Named fs name f → Addressable f.id →
      ∀ path, c.at? (name :: path) = c.at? (f.id :: path) := by
  refine ⟨⟨?_, ?_⟩, fun c hc name f hname hid path => ?_⟩
  · rintro ⟨c, hc, hall⟩
    refine ⟨exists_context_iff.1 ⟨c, hc⟩, fun name f hname => ?_⟩
    exact (hname.shows_iff hids hc).1 (hall name f hname)
  · rintro ⟨hmeasured, hall⟩
    obtain ⟨c, hc⟩ : ∃ c, context fs turn = .ok c := exists_context_iff.2 hmeasured
    refine ⟨c, hc, fun name f hname => ?_⟩
    exact (hname.shows_iff hids hc).2 (hall name f hname)
  · obtain ⟨d, hd, hpath⟩ := hname.at?_context hids hc
    obtain ⟨d', hd', hpath'⟩ := (Named.id hname.mem hid).at?_context hids hc
    obtain rfl : d = d' := Except.ok.inj (hd.symm.trans hd')
    rw [hpath, hpath']

def wounded (id : String) (isPlayer : Bool) (stats : Stat.Block) : Fighter where
  id := id
  name := id
  isPlayer := isPlayer
  baseStats := stats
  stats := stats
  hp := 80
  mp := 5
  maxHp := 100
  maxMp := 20

theorem wounded_unmasked (id : String) (isPlayer : Bool) :
    (wounded id isPlayer (Table.ofList [("Attack", 12)])).Unmasked := by
  intro t
  have hsame : t.number (wounded id isPlayer (Table.ofList [("Attack", 12)])) =
      t.number (wounded "hero" true {}) := by
    cases t <;> rfl
  have hok : (t.number (wounded "hero" true {})).isOk = true := by cases t <;> decide +kernel
  obtain ⟨x, hx⟩ := Fallible.exists_eq_ok hok
  refine ⟨x, hsame.trans hx, fun q hq => ?_⟩
  have hnone : (Table.ofList [("Attack", (12 : Quantity))]).get? t.name = none := by
    cases t <;> rfl
  exact absurd (hnone.symm.trans hq) (by simp)

theorem context_shows_iff_duel :
    let duel := [wounded "hero" true (Table.ofList [("Attack", 12)]),
      wounded "boss" false (Table.ofList [("Attack", 12)])]
    (duel.map Fighter.id).Nodup ∧
      ∃ c, context duel 1 = .ok c ∧ ∀ name f, Named duel name f → Shows c name f := by
  intro duel
  have hids : (duel.map Fighter.id).Nodup := by decide
  have hunmasked : ∀ f ∈ duel, f.Unmasked := by
    simpa [duel] using ⟨wounded_unmasked "hero" true, wounded_unmasked "boss" false⟩
  refine ⟨hids, (context_shows_iff hids).1.2 ⟨fun f hf => (hunmasked f hf).measured, ?_⟩⟩
  exact fun name f hname => hunmasked f hname.mem

/-- The stat of a boss is taken for its life, which a condition finds below ten. -/
theorem not_shows_masked :
    let boss := wounded "boss" false (Table.ofList [("hp", 5)])
    Addressable boss.id ∧ ∃ c, context [boss] 1 = .ok c ∧ ¬ Shows c boss.id boss ∧
      holds ⟨none, "boss.hp < 10", false, none, .multi []⟩ c = .ok true := by
  intro boss
  have hok : (do
      let c ← context [boss] 1
      let seen ← (c.resolve "boss.hp").mapError fun _ => ArithmeticError.undefined
      let live ← Trait.hp.number boss
      let met ← holds ⟨none, "boss.hp < 10", false, none, .multi []⟩ c
      return (seen == 80, live == 80, met)).toOption = some (false, true, true) := by
    decide +kernel
  obtain ⟨found, h, rfl⟩ := Fallible.exists_eq_ok_and (f := fun x => x) (by simpa using hok)
  simp only [Fallible.bind_eq_ok, Fallible.mapError_eq_ok, Except.ok.injEq, Prod.mk.injEq] at h
  obtain ⟨c, hc, seen, hseen, live, hlive, met, hmet, hother, hfull, rfl⟩ := h
  refine ⟨by decide, c, hc, fun hshows => ?_, hmet⟩
  obtain ⟨x, hx, hresolve⟩ := hshows .hp
  obtain rfl : live = x := Except.ok.inj (hlive.symm.trans hx)
  obtain rfl : seen = live := Except.ok.inj (hseen.symm.trans hresolve)
  exact absurd (hother.symm.trans hfull) (by decide)

end Trigger

end Skirmish
