import Skirmish.Proofs.Battle.Initiative
import Skirmish.Proofs.Draws

namespace Skirmish.Initiative

open Chance

variable {variance : Quantity} {dice dice' : Dice} {f : Fighter} {fs : List Fighter} {e : Entry}
  {es seen : List Entry}

/-- What a fighter rolls on a drawn number: its speed, or ten, and a whole number below the
variance. -/
structure Rolled (variance : Quantity) (f : Fighter) (x : Float) (e : Entry) : Prop where
  id : e.id = f.id
  initiative : ∃ speed n : Int, f.stats.getD "Speed" 10 = .whole speed ∧
    scaled variance x = .ok n ∧ e.initiative = .whole (speed + n)

theorem Rolled.isNaN {x : Float} (h : Rolled variance f x e) : e.initiative.isNaN = false := by
  obtain ⟨speed, n, -, -, hsum⟩ := h.initiative
  rw [hsum]
  rfl

def HasWholeSpeed (f : Fighter) : Prop :=
  ∀ q, f.stats.get? "Speed" = some q → ∃ n, q = .whole n

theorem HasWholeSpeed.exists_speed (h : HasWholeSpeed f) :
    ∃ n, f.stats.getD "Speed" defaultSpeed = .whole n := by
  rw [Table.getD]
  cases hq : f.stats.get? "Speed" with
  | none => exact ⟨10, rfl⟩
  | some q => exact h q hq

theorem run_roll (hspeed : HasWholeSpeed f)
    (h : (roll variance f).run.run dice = (.ok e, dice')) :
    Rolled variance f dice.next e ∧ dice' = dice.after (cost variance) := by
  obtain ⟨n, between, hbelow, h⟩ := run_bind_eq_ok h
  obtain ⟨hn, rfl⟩ := run_below hbelow
  obtain ⟨q, between, hsum, h⟩ := run_bind_eq_ok h
  obtain ⟨hq, rfl⟩ := run_lift_eq_ok hsum
  obtain ⟨speed, hf⟩ := hspeed.exists_speed
  rw [hf] at hq
  cases hq
  cases h
  exact ⟨⟨rfl, speed, n, hf, hn, rfl⟩, rfl⟩

theorem scaled_after (variance : Quantity) (dice : Dice) (k : Nat) :
    scaled variance ((dice.after (cost variance)).after k).next =
      scaled variance (dice.after (k + 1)).next := by
  rw [Dice.after_after, scaled, scaled, cost]
  cases Quantity.lt 0 variance with
  | true => rw [if_pos rfl, if_pos rfl, if_pos rfl, Nat.add_comm]
  | false => rw [if_neg Bool.false_ne_true, if_neg Bool.false_ne_true]

theorem run_mapM_roll (hspeed : ∀ f ∈ fs, HasWholeSpeed f)
    (h : (fs.mapM (roll variance)).run.run dice = (.ok es, dice')) :
    (∀ (k : Nat) (e : Entry), es[k]? = some e →
        ∃ f, fs[k]? = some f ∧ Rolled variance f (dice.after k).next e) ∧
      dice' = dice.after (fs.length * cost variance) := by
  induction fs generalizing dice es with
  | nil =>
      cases h
      simp
  | cons f fs ih =>
      rw [List.mapM_cons] at h
      obtain ⟨e, between, hroll, h⟩ := run_bind_eq_ok h
      obtain ⟨rest, dice₂, hrest, h⟩ := run_bind_eq_ok h
      cases h
      obtain ⟨he, rfl⟩ := run_roll (hspeed f (.head _)) hroll
      obtain ⟨hothers, rfl⟩ := ih (fun f hf => hspeed f (.tail _ hf)) hrest
      constructor
      · intro k e' hk
        cases k with
        | zero =>
          cases hk
          exact ⟨f, rfl, he⟩
        | succ k =>
          obtain ⟨f', hf', hid, speed, n, hs, hn, hsum⟩ := hothers k e' hk
          exact ⟨f', hf', hid, speed, n, hs, scaled_after variance dice k ▸ hn, hsum⟩
      · rw [Dice.after_after, List.length_cons, Nat.succ_mul, Nat.add_comm]

section

variable {R : Entry → Entry → Prop}

/-- A relation along the queue is kept if it holds both ways of what is placed. -/
theorem pairwise_place (hes : es.Pairwise R)
    (hbefore : ∀ x ∈ es, x.initiative.lt e.initiative = false → R x e)
    (hafter : ∀ x ∈ es, x.initiative.lt e.initiative = true → R e x)
    (hfalls : ∀ x y, R x y → x.initiative.lt e.initiative = true →
      y.initiative.lt e.initiative = true) :
    (place e es).Pairwise R := by
  induction es with
  | nil => exact List.pairwise_singleton R e
  | cons x xs ih =>
      obtain ⟨hx, hxs⟩ := List.pairwise_cons.1 hes
      rw [place]
      cases hless : x.initiative.lt e.initiative with
      | true =>
        refine List.pairwise_cons.2 ⟨fun y hy => hafter y hy ?_, hes⟩
        rcases List.mem_cons.1 hy with rfl | hy
        · exact hless
        · exact hfalls x y (hx y hy) hless
      | false =>
        refine List.pairwise_cons.2 ⟨fun y hy => ?_, ih hxs
          (fun y hy => hbefore y (.tail _ hy)) fun y hy => hafter y (.tail _ hy)⟩
        rcases List.mem_cons.1 ((place_perm e xs).mem_iff.1 hy) with rfl | hy
        · exact hbefore x (.head _) hless
        · exact hx y hy

end

/-- One comes before another: not with less, and with as much only if it came before it. -/
structure Ranked (seen : List Entry) (e e' : Entry) : Prop where
  falls : e'.initiative.le e.initiative = true
  keeps : e.initiative.eq e'.initiative = true → [e, e'].Sublist seen

theorem Ranked.append {e' : Entry} (h : Ranked seen e e') (new : Entry) :
    Ranked (seen ++ [new]) e e' where
  falls := h.falls
  keeps heq := (h.keeps heq).trans (List.sublist_append_left _ _)

theorem ranked_before {x : Entry} (hx : x ∈ seen)
    (hless : x.initiative.lt e.initiative = false) (hnan : x.initiative.isNaN = false)
    (hnan' : e.initiative.isNaN = false) : Ranked (seen ++ [e]) x e where
  falls := Quantity.le_of_not_lt hless hnan hnan'
  keeps _ := (List.singleton_sublist.2 hx).append (.refl [e])

theorem ranked_after {x : Entry} (hless : x.initiative.lt e.initiative = true) :
    Ranked seen e x where
  falls := Quantity.le_of_lt hless
  keeps heq := absurd heq (by rw [Quantity.not_eq_of_lt hless]; exact Bool.false_ne_true)

theorem arrange_append (es : List Entry) (e : Entry) :
    arrange (es ++ [e]) = place e (arrange es) := by
  rw [arrange, List.foldl_append]
  rfl

theorem arrange_ranked (hnan : ∀ e ∈ es, e.initiative.isNaN = false) :
    (arrange es).Pairwise (Ranked es) := by
  induction es using List.reverseRecOn with
  | nil => exact .nil
  | append_singleton es e ih =>
      have hold : ∀ x ∈ arrange es, x ∈ es := fun x hx => (arrange_perm es).mem_iff.1 hx
      have hes : ∀ x ∈ es, x.initiative.isNaN = false :=
        fun x hx => hnan x (List.mem_append_left _ hx)
      rw [arrange_append]
      apply pairwise_place
      · exact (ih hes).imp fun h => h.append e
      · intro x hx hless
        exact ranked_before (hold x hx) hless (hes x (hold x hx)) (hnan e (by simp))
      · exact fun x _ hless => ranked_after hless
      · exact fun x y hxy hless => Quantity.lt_of_le_of_lt hxy.falls hless

theorem same_place {f' : Fighter} {j k : Nat} (hids : (fs.map Fighter.id).Nodup)
    (hk : fs[k]? = some f) (hj : fs[j]? = some f') (hid : f.id = f'.id) : k = j := by
  have hlt : k < (fs.map Fighter.id).length := by
    rw [List.length_map]
    exact (List.getElem?_eq_some_iff.1 hk).1
  refine (List.getElem?_inj hlt hids).1 ?_
  rw [List.getElem?_map, List.getElem?_map, hk, hj]
  exact congrArg some hid

structure Arranged (variance : Quantity) (fs : List Fighter) (dice dice' : Dice)
    (es : List Entry) : Prop where
  everyone : (es.map (·.id)).Perm (fs.map Fighter.id)
  falling : es.Pairwise fun e e' => e'.initiative.le e.initiative = true
  stable : es.Pairwise fun e e' =>
    e.initiative.eq e'.initiative = true → [e.id, e'.id].Sublist (fs.map Fighter.id)
  rolled : ∀ (k : Nat) (f : Fighter) (e : Entry), fs[k]? = some f → e ∈ es → e.id = f.id →
    Rolled variance f (dice.after k).next e
  drawn : dice' = dice.after (if Quantity.lt 0 variance then fs.length else 0)

/-- The order of turns is a stable arrangement of the living by falling initiative. -/
theorem queue_arranged {fighters : List Fighter} (hids : (fighters.map Fighter.id).Nodup)
    (hspeed : ∀ f ∈ fighters, HasWholeSpeed f)
    (h : (queue variance fighters).run.run dice = (.ok es, dice')) :
    Arranged variance (Roster.living fighters) dice dice' es := by
  have hids : ((Roster.living fighters).map Fighter.id).Nodup :=
    hids.sublist (List.filter_sublist.map Fighter.id)
  have hspeed : ∀ f ∈ Roster.living fighters, HasWholeSpeed f :=
    fun f hf => hspeed f (List.mem_of_mem_filter hf)
  have heveryone := queue_yields variance fighters dice es dice' h
  obtain ⟨entries, between, hrolls, h⟩ := run_bind_eq_ok h
  have hids' := mapM_roll_yields variance _ dice entries between hrolls
  obtain ⟨hrolled, rfl⟩ := run_mapM_roll hspeed hrolls
  cases h
  have hranked : (arrange entries).Pairwise (Ranked entries) := by
    apply arrange_ranked
    intro e he
    obtain ⟨k, hk⟩ := List.mem_iff_getElem?.1 he
    obtain ⟨f, -, hf⟩ := hrolled k e hk
    exact hf.isNaN
  constructor
  case everyone => exact heveryone
  case falling => exact hranked.imp fun h => h.falls
  case stable =>
    refine hranked.imp fun h heq => ?_
    rw [← hids']
    exact (h.keeps heq).map (·.id)
  case rolled =>
    intro k f e hf he hid
    obtain ⟨j, hj⟩ := List.mem_iff_getElem?.1 ((arrange_perm entries).mem_iff.1 he)
    obtain ⟨f', hf', hroll⟩ := hrolled j e hj
    obtain rfl := same_place hids hf hf' (hid.symm.trans hroll.id)
    obtain rfl : f = f' := Option.some.inj (hf.symm.trans hf')
    exact hroll
  case drawn =>
    rw [cost]
    cases Quantity.lt 0 variance with
    | true => rw [if_pos rfl, if_pos rfl, Nat.mul_one]
    | false => rfl

def runner (id : String) (stats : Stat.Block) (isAlive : Bool) : Fighter :=
  { id, name := id, isPlayer := true, baseStats := stats, stats, hp := 1, mp := 0, maxHp := 1,
    maxMp := 0, isAlive }

def runners : List Fighter := [runner "a" (.ofList [("Speed", 12)]) true,
  runner "b" (.ofList [("Speed", 90)]) false, runner "c" .empty true,
  runner "d" (.ofList [("Speed", 11)]) true]

theorem queue_arranged_runners : (runners.map Fighter.id).Nodup ∧
    (∀ f ∈ runners, HasWholeSpeed f) ∧ ∃ es dice',
      (queue 10 runners).run.run { values := [0.25, 0.45, 0.95] } = (.ok es, dice') ∧
      es.map (·.id) = ["d", "a", "c"] ∧
      Arranged 10 (Roster.living runners) { values := [0.25, 0.45, 0.95] } dice' es := by
  have hids : (runners.map Fighter.id).Nodup := by decide
  have hspeed : ∀ f ∈ runners, HasWholeSpeed f := by
    intro f hf q hq
    simp only [runners, List.mem_cons, List.not_mem_nil, or_false] at hf
    rcases hf with rfl | rfl | rfl | rfl
    all_goals
      cases hq
    all_goals exact ⟨_, rfl⟩
  have hok : ((queue 10 runners).run.run { values := [0.25, 0.45, 0.95] }).1.toOption.map
      (fun es => es.map (·.id)) = some ["d", "a", "c"] := by decide +kernel
  obtain ⟨es, dice', hrun, horder⟩ := exists_run_eq_ok hok
  exact ⟨hids, hspeed, es, dice', hrun, horder, queue_arranged hids hspeed hrun⟩

end Skirmish.Initiative
