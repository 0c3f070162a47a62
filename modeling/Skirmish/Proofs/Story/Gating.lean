import Mathlib.Data.List.Forall2
import Skirmish.Proofs.Battle.Muster
import Skirmish.Proofs.Fallible
import Skirmish.Story.Choice

namespace Skirmish.Choice

open Fallible

variable {g : Game} {c : Choice} {choices : List Choice} {character : Character} {story : Story}
  {o : Obstacle} {text : String}

inductive Need where
  | stat (id : String) (minimum : Quantity)
  | item (need : ItemNeed)
  | flag (name : String) (expected : Flag)
  | skill (id : String)
  | condition (text : String)

def requirements (r : Requirements) : List Need :=
  r.stats.entries.map (fun e => .stat e.1 e.2) ++ (r.items.map .item ++
    (r.flags.entries.map (fun e => .flag e.1 e.2) ++ r.skills.map .skill))

def required (c : Choice) : List Need := (c.requires.map requirements).getD []

def conditions (c : Choice) : List Need :=
  (c.condition.toList.filter (· ≠ "")).map .condition

def needs (c : Choice) : List Need := c.required ++ c.conditions

/-- The value that counts for a character's stat: the current one, else the base one, else zero. -/
inductive HasStat (character : Character) (id : String) : Quantity → Prop
  | current {stats : Stat.Block} {q : Quantity} (hcurrent : character.currentStats = some stats)
      (h : stats.get? id = some q) : HasStat character id q
  | base {q : Quantity}
      (hcurrent : ∀ stats, character.currentStats = some stats → stats.get? id = none)
      (h : character.stats.get? id = some q) : HasStat character id q
  | missing (hcurrent : ∀ stats, character.currentStats = some stats → stats.get? id = none)
      (h : character.stats.get? id = none) : HasStat character id 0

theorem hasStat_iff {id : String} {q : Quantity} :
    HasStat character id q ↔ q = effectiveStat character id := by
  have hnone : (character.currentStats.bind fun b => b.get? id) = none ↔
      ∀ stats, character.currentStats = some stats → stats.get? id = none := by
    simp [Option.bind_eq_none_iff]
  constructor
  · intro h
    cases h with
    | current hcurrent h => simp [effectiveStat, hcurrent, h]
    | base hcurrent h => simp [effectiveStat, hnone.2 hcurrent, h]
    | missing hcurrent h => simp [effectiveStat, hnone.2 hcurrent, h]
  · rintro rfl
    rw [effectiveStat]
    cases hcurrent : character.currentStats.bind fun b => b.get? id with
    | some q =>
        obtain ⟨stats, hstats, hq⟩ := Option.bind_eq_some_iff.1 hcurrent
        exact .current hstats hq
    | none =>
        cases hbase : character.stats.get? id with
        | some q => exact .base (hnone.1 hcurrent) hbase
        | none => exact .missing (hnone.1 hcurrent) hbase

def flagValue? : Flag → Option Quantity
  | .bool b => some (if b then 1 else 0)
  | .number q => some q
  | .text _ => none

/-- A remembered value is what a flag expects: the same text, or a number of the same value. -/
inductive Equals : Document → Flag → Prop
  | text (s : String) : Equals (.text s) (.text s)
  | number {d : Document} {f : Flag} {p q : Quantity} (hd : variableValue? d = some p)
      (hf : flagValue? f = some q) (h : p.eq q = true) : Equals d f

theorem meetsFlag_eq {d : Document} {f : Flag} {q : Quantity} (hf : flagValue? f = some q) :
    meetsFlag d f = ((variableValue? d).map fun p => p.eq q).getD false := by
  cases f with
  | bool b | number q' =>
      obtain rfl := Option.some.inj hf
      cases d <;> rfl
  | text s => cases hf

theorem equals_iff {d : Document} {f : Flag} : Equals d f ↔ meetsFlag d f = true := by
  constructor
  · intro h
    cases h with
    | text s => simp [meetsFlag]
    | number hd hf h => simp [meetsFlag_eq hf, hd, h]
  · intro h
    cases hf : flagValue? f with
    | some q =>
        rw [meetsFlag_eq hf] at h
        cases hd : variableValue? d with
        | none => simp [hd] at h
        | some p => exact .number hd hf (by simpa [hd] using h)
    | none =>
        cases f with
        | bool b | number q => cases hf
        | text s =>
            cases d with
            | text t =>
                obtain rfl : t = s := by simpa [meetsFlag] using h
                exact .text t
            | _ => simp [meetsFlag] at h

/-- A remembered value stands to a word as an operator says: by its text, or by its number. -/
inductive Compares (actual : Option Document) : String → String → Prop
  | same {expected : String} (h : shownVariable actual = expected) : Compares actual "==" expected
  | different {expected : String} (h : shownVariable actual ≠ expected) :
      Compares actual "!=" expected
  | numbers {op expected : String} {a b : Float} (hop : op ≠ "==" ∧ op ≠ "!=")
      (ha : numberOf actual = .ok a) (hb : numberOf (some (.text expected)) = .ok b)
      (h : compareNumbers op a b = true) : Compares actual op expected

/-- A comparison of three words holds as it says; any other text holds. -/
def Holds (story : Story) (condition : String) : Prop :=
  ∀ name op expected, Text.words condition = [name, op, expected] →
    Compares (Table.lookup name story) op expected

theorem passes_eq_true_iff : passes text story = .ok true ↔ Holds story text := by
  rcases hwords : Text.words text with _ | ⟨name, _ | ⟨op, _ | ⟨expected, _ | ⟨extra, rest⟩⟩⟩⟩
  case cons.cons.cons.nil =>
    have hholds : Holds story text ↔ Compares (Table.lookup name story) op expected := by
      simp [Holds, hwords]
    simp only [passes, hwords, hholds]
    constructor
    · intro h
      split at h
      next hop => exact hop ▸ .same (by simpa using h)
      next hop =>
        split at h
        next hop' => exact hop' ▸ .different (by simpa using h)
        next hop' =>
          obtain ⟨a, ha, h⟩ := bind_eq_ok.1 h
          obtain ⟨b, hb, h⟩ := bind_eq_ok.1 h
          exact .numbers ⟨hop, hop'⟩ ha hb (Except.ok.inj h)
    · intro h
      cases h with
      | same h => simp [h]
      | different h => simp [h]
      | numbers hop ha hb h => simp [hop, ha, hb, h]
  all_goals simp [passes, Holds, hwords]

namespace Need

def Met (character : Character) (story : Story) : Need → Prop
  | stat id minimum => ∀ q, HasStat character id q → q.lt minimum = false
  | item need => need.count ≤ (character.inventory.get? need.itemId).getD 0
  | flag name expected => ∃ d, Table.lookup name story = some d ∧ Equals d expected
  | skill id => id ∈ character.skills
  | condition text => Holds story text

def obstacle (g : Game) (character : Character) : Need → Obstacle
  | stat id minimum => .stat (statName g id) minimum (effectiveStat character id)
  | item need => .item (itemName g need.itemId) need.count
  | flag name _ => .flag name
  | skill id => .skill (skillName g id)
  | condition _ => .condition

end Need

def check (g : Game) (character : Character) (story : Story) : Need → Option Obstacle
  | .stat id minimum => statObstacle? g character (id, minimum)
  | .item need => itemObstacle? g character need
  | .flag name expected => flagObstacle? story (name, expected)
  | .skill id => skillObstacle? g character id
  | .condition _ => none

theorem bind_unmet?_eq :
    c.requires.bind (unmet? g character story) =
      c.required.findSome? (check g character story) := by
  cases h : c.requires with
  | none => simp [required, h]
  | some r =>
      simp only [required, h, Option.bind_some, Option.map_some, Option.getD_some, unmet?,
        requirements, List.findSome?_append, List.findSome?_map]
      rfl

theorem condition_notMem_required : Need.condition text ∉ c.required := by
  cases h : c.requires <;> simp [required, requirements, h]

theorem check_eq_some_iff {n : Need} (hn : n ∈ c.required) :
    check g character story n = some o ↔ ¬n.Met character story ∧ n.obstacle g character = o := by
  cases n with
  | stat id minimum =>
      have hmet : (Need.stat id minimum).Met character story ↔
          (effectiveStat character id).lt minimum = false := by
        simp [Need.Met, hasStat_iff]
      rw [hmet, check, statObstacle?]
      cases (effectiveStat character id).lt minimum <;> simp [Need.obstacle]
  | item need =>
      rw [check, itemObstacle?, Need.Met, Int.not_le, Table.getD]
      by_cases h : (character.inventory.get? need.itemId).getD 0 < need.count <;>
        simp [h, Need.obstacle]
  | flag name expected =>
      have hmet : (Need.flag name expected).Met character story ↔
          ∃ d, Table.lookup name story = some d ∧ meetsFlag d expected = true := by
        simp only [Need.Met, equals_iff]
      rw [hmet, check, flagObstacle?]
      cases hd : Table.lookup name story with
      | none => simp [Need.obstacle]
      | some d => cases hmeets : meetsFlag d expected <;> simp [hmeets, Need.obstacle]
  | skill id =>
      rw [check, skillObstacle?, Need.Met]
      by_cases h : id ∈ character.skills <;> simp [h, Need.obstacle]
  | condition text => exact absurd hn condition_notMem_required

theorem met_of_check_eq_none {n : Need} (hn : n ∈ c.required)
    (h : check g character story n = none) : n.Met character story := by
  by_contra hunmet
  have hsome : check g character story n = some (n.obstacle g character) :=
    (check_eq_some_iff hn).2 ⟨hunmet, rfl⟩
  rw [h] at hsome
  cases hsome

theorem conditions_eq (c : Choice) (story : Story) :
    c.conditions = [] ∧ c.failsCondition story = .ok false ∨
      ∃ text, c.conditions = [.condition text] ∧
        c.failsCondition story = (passes text story).map (!·) := by
  cases h : c.condition with
  | none => exact .inl ⟨by simp [conditions, h], by simp only [failsCondition, h]⟩
  | some text =>
      by_cases htext : text = ""
      · subst htext
        exact .inl ⟨by simp [conditions, h], by simp only [failsCondition, h]⟩
      · refine .inr ⟨text, by simp [conditions, h, htext], ?_⟩
        simp only [failsCondition, h]
        cases passes text story <;> rfl

/-- A choice is hidden if it has a formula for showing it, and this is zero. -/
def Hides (c : Choice) (character : Character) (story : Story) : Prop :=
  ∃ formula x, c.showIf = some formula ∧ formula ≠ "" ∧
    Formula.compute formula (.ofBlock (context character story)) = .ok x ∧ (x == 0) = true

theorem isVisible_eq_ok_false_iff :
    isVisible text character story = .ok false ↔
      ∃ x, Formula.compute text (.ofBlock (context character story)) = .ok x ∧ (x == 0) = true := by
  rw [isVisible]
  cases Formula.compute text (.ofBlock (context character story)) with
  | ok x => simp [Formula.isTrue]
  | error e => cases e <;> simp

theorem isHidden_eq_ok_true_iff :
    c.isHidden character story = .ok true ↔ c.Hides character story := by
  cases h : c.showIf with
  | none => simp [isHidden, Hides, h]
  | some formula =>
      by_cases hformula : formula = ""
      · subst hformula
        simp [isHidden, Hides, h]
      · have hhides : c.Hides character story ↔ isVisible formula character story = .ok false := by
          simp [Hides, h, hformula, isVisible_eq_ok_false_iff]
        rw [hhides]
        simp only [isHidden, h]
        cases isVisible formula character story <;> simp

instance : Decidable (c.Hides character story) :=
  decidable_of_iff ((c.isHidden character story).toOption = some true)
    (toOption_eq_some.trans isHidden_eq_ok_true_iff)

inductive Verdict (g : Game) (character : Character) (story : Story) (c : Choice) :
    Option Obstacle → Prop
  | hidden (h : c.Hides character story) : Verdict g character story c (some .hidden)
  | available (h : ¬c.Hides character story) (hneeds : ∀ n ∈ c.needs, n.Met character story) :
      Verdict g character story c none
  | unmet {before after : List Need} {n : Need} (h : ¬c.Hides character story)
      (hneeds : c.needs = before ++ n :: after) (hbefore : ∀ m ∈ before, m.Met character story)
      (hn : ¬n.Met character story) : Verdict g character story c (some (n.obstacle g character))

theorem not_of_eq_ok_false {x : Quantity.Result Bool} {P : Prop} (hiff : x = .ok true ↔ P)
    (h : x = .ok false) : ¬P := by
  intro hP
  have htrue := hiff.2 hP
  rw [h] at htrue
  cases htrue

theorem verdict_of_failsCondition {b : Bool} (h : ¬c.Hides character story)
    (hrequired : ∀ m ∈ c.required, m.Met character story) (hb : c.failsCondition story = .ok b) :
    Verdict g character story c (if b then some .condition else none) := by
  rcases conditions_eq c story with ⟨hnone, hfails⟩ | ⟨text, htext, hfails⟩
  · obtain rfl := Except.ok.inj (hfails.symm.trans hb)
    exact .available h (by simpa [needs, hnone] using hrequired)
  · obtain ⟨holds, hpasses, rfl⟩ := map_eq_ok.1 (hfails.symm.trans hb)
    cases holds with
    | true =>
        have hmet : (Need.condition text).Met character story := passes_eq_true_iff.1 hpasses
        refine .available h ?_
        intro n hn
        rw [needs, htext, List.mem_append, List.mem_singleton] at hn
        rcases hn with hn | rfl
        · exact hrequired n hn
        · exact hmet
    | false =>
        have hunmet : ¬(Need.condition text).Met character story :=
          not_of_eq_ok_false passes_eq_true_iff hpasses
        exact .unmet h (by rw [needs, htext]) hrequired hunmet

theorem verdict_of_obstacle? {o? : Option Obstacle}
    (h : c.obstacle? g character story = .ok o?) : Verdict g character story c o? := by
  obtain ⟨hidden, hhidden, h⟩ := bind_eq_ok.1 h
  cases hidden with
  | true =>
      obtain rfl := Except.ok.inj h
      exact .hidden (isHidden_eq_ok_true_iff.1 hhidden)
  | false =>
      have hshown : ¬c.Hides character story :=
        not_of_eq_ok_false isHidden_eq_ok_true_iff hhidden
      simp only [bind_unmet?_eq] at h
      cases hu : c.required.findSome? (check g character story) with
      | none =>
          simp only [hu] at h
          obtain ⟨b, hb, h⟩ := bind_eq_ok.1 h
          obtain rfl := Except.ok.inj h
          rw [List.findSome?_eq_none_iff] at hu
          have hmet : ∀ m ∈ c.required, m.Met character story :=
            fun m hm => met_of_check_eq_none hm (hu m hm)
          exact verdict_of_failsCondition hshown hmet hb
      | some o =>
          simp only [hu] at h
          obtain rfl := Except.ok.inj h
          obtain ⟨before, n, after, hneeds, ho, hbefore⟩ := List.findSome?_eq_some_iff.1 hu
          have hmem : n ∈ c.required := by simp [hneeds]
          obtain ⟨hn, rfl⟩ := (check_eq_some_iff hmem).1 ho
          refine .unmet hshown (by rw [needs, hneeds, List.append_assoc]; rfl) ?_ hn
          intro m hm
          have hmem : m ∈ c.required := by simp [hneeds, hm]
          exact met_of_check_eq_none hmem (hbefore m hm)

theorem message_eq_hidden_iff : o.message = .ok "hidden" ↔ o = .hidden := by
  have hrequires (first rest : String) (hfirst : first.toList.head? = some 'R') :
      first ++ rest ≠ "hidden" := by
    intro h
    have hhead := congrArg (fun s => s.toList.head?) h
    simp [List.head?_append, hfirst] at hhead
  constructor
  · intro h
    cases o with
    | hidden => rfl
    | stat name minimum current =>
        obtain ⟨least, -, h⟩ := bind_eq_ok.1 h
        obtain ⟨now, -, h⟩ := bind_eq_ok.1 h
        have h := Except.ok.inj h
        simp only [String.append_assoc] at h
        exact absurd h (hrequires _ _ rfl)
    | item name count =>
        have h := Except.ok.inj h
        simp only [String.append_assoc] at h
        exact absurd h (hrequires _ _ rfl)
    | flag name | skill name => exact absurd (Except.ok.inj h) (hrequires _ _ rfl)
    | condition => simp [Obstacle.message] at h
  · rintro rfl
    rfl

def tell : Option Obstacle → Quantity.Result (Option String)
  | none => .ok none
  | some o => o.message.map some

def told (g : Game) (character : Character) (story : Story) (c : Choice) :
    Quantity.Result (Option String) := c.obstacle? g character story >>= tell

def listedTold (g : Game) (choices : List Choice) (character : Character) (story : Story) :
    Quantity.Result (List (Choice × Option String)) := do
  (← listed g choices character story).mapM fun e => (tell e.2).map fun reason => (e.1, reason)

/-- A reason is the right one for a choice: the word for hidden ones if it is hidden, none if all
that it needs is met, and else what is told of the first need that is not. -/
structure Judged (g : Game) (character : Character) (story : Story) (c : Choice)
    (reason : Option String) : Prop where
  hidden : reason = some "hidden" ↔ c.Hides character story
  available : reason = none ↔
    ¬c.Hides character story ∧ ∀ n ∈ c.needs, n.Met character story
  first : ∀ text, reason = some text → ¬c.Hides character story →
    ∃ before n after, c.needs = before ++ n :: after ∧ (∀ m ∈ before, m.Met character story) ∧
      ¬n.Met character story ∧ (n.obstacle g character).message = .ok text

theorem judged_of_told {reason : Option String} (h : c.told g character story = .ok reason) :
    Judged g character story c reason := by
  obtain ⟨o?, ho, htell⟩ := bind_eq_ok.1 h
  cases verdict_of_obstacle? ho with
  | hidden hhides =>
      obtain rfl := Except.ok.inj htell
      exact ⟨by simp [hhides], by simp [hhides], by simp [hhides]⟩
  | available hshown hneeds =>
      obtain rfl := Except.ok.inj htell
      exact ⟨by simp [hshown], by simpa [hshown] using hneeds, by simp⟩
  | @unmet before after n hshown hneeds hbefore hn =>
      obtain ⟨text, htext, rfl⟩ := map_eq_ok.1 htell
      refine ⟨?_, ?_, ?_⟩
      · have hother : n.obstacle g character ≠ .hidden := by cases n <;> simp [Need.obstacle]
        have hword : text ≠ "hidden" := by
          rintro rfl
          exact hother (message_eq_hidden_iff.1 htext)
        simp [hshown, hword]
      · have hmem : n ∈ c.needs := by simp [hneeds]
        have hnot : ¬∀ n ∈ c.needs, n.Met character story := fun hall => hn (hall n hmem)
        simp [hnot]
      · intro text' h' _
        obtain rfl := Option.some.inj h'
        exact ⟨before, n, after, hneeds, hbefore, hn, htext⟩

theorem isHidden_eq_decide {o? : Option Obstacle} (h : c.obstacle? g character story = .ok o?) :
    (o?.map Obstacle.isHidden).getD false = decide (c.Hides character story) := by
  cases verdict_of_obstacle? h with
  | hidden hhides => simp [hhides, Obstacle.isHidden]
  | available hshown => simp [hshown]
  | @unmet _ _ n hshown => cases n <;> simp [hshown, Need.obstacle, Obstacle.isHidden]

theorem listed_cons {o? : Option Obstacle} {es : List (Choice × Option Obstacle)}
    (h : c.obstacle? g character story = .ok o?) (hs : listed g choices character story = .ok es) :
    listed g (c :: choices) character story =
      .ok (if c.Hides character story then es else (c, o?) :: es) := by
  obtain ⟨all, hall, hes⟩ := bind_eq_ok.1 hs
  obtain rfl := Except.ok.inj hes
  simp only [listed, List.mapM_cons, h, hall, ok_bind, pure_bind]
  rw [List.filter_cons, isHidden_eq_decide h, pure_eq]
  by_cases hhides : c.Hides character story <;> simp [hhides]

theorem listedTold_cons {reason : Option String} {es : List (Choice × Option String)}
    (h : c.told g character story = .ok reason)
    (hs : listedTold g choices character story = .ok es) :
    listedTold g (c :: choices) character story =
      .ok (if c.Hides character story then es else (c, reason) :: es) := by
  obtain ⟨o?, ho, htell⟩ := bind_eq_ok.1 h
  obtain ⟨entries, hentries, hes⟩ := bind_eq_ok.1 hs
  simp only [listedTold, listed_cons ho hentries, ok_bind]
  by_cases hhides : c.Hides character story
  · simp [hhides, hes]
  · simp [hhides, htell, hes, List.mapM_cons]

/-- Each reason is the right one for its choice, and the choices that are not hidden are listed in
order, each with its reason. -/
theorem gated_exactly {reasons : List (Option String)}
    (h : choices.mapM (told g character story) = .ok reasons) :
    List.Forall₂ (Judged g character story) choices reasons ∧
      listedTold g choices character story =
        .ok ((choices.zip reasons).filter fun e => ¬e.1.Hides character story) := by
  induction choices generalizing reasons with
  | nil =>
      obtain rfl := Except.ok.inj h
      exact ⟨.nil, rfl⟩
  | cons c choices ih =>
      rw [List.mapM_cons] at h
      obtain ⟨reason, hreason, h⟩ := bind_eq_ok.1 h
      obtain ⟨rest, hrest, h⟩ := bind_eq_ok.1 h
      obtain rfl := Except.ok.inj h
      obtain ⟨hjudged, hlisted⟩ := ih hrest
      refine ⟨.cons (judged_of_told hreason) hjudged, ?_⟩
      rw [listedTold_cons hreason hlisted, List.zip_cons_cons, List.filter_cons]
      by_cases hhides : c.Hides character story <;> simp [hhides]

def climber : Character :=
  { Character.plain "hero" with
    currentStats := some (.ofList [("Strength", 12)])
    inventory := .ofList [("rope", 1)] }

def yard : List Choice := [
  ⟨"door", "Open the door", none, none, some "var_key", none⟩,
  ⟨"wall", "Climb the wall", none, some "mood == calm", none,
    some ⟨.ofList [("Strength", 10)], [⟨"rope", 2⟩], .empty, ["climbing"]⟩⟩,
  ⟨"bench", "Wait", none, some "mood == calm", none, none⟩]

def evening : Story := [("key", .bool false), ("mood", .text "calm")]

theorem gated_exactly_yard :
    ∃ reasons, yard.mapM (told (.plain climber) climber evening) = .ok reasons ∧
      reasons = [some "hidden", some "Requires 2x rope", none] ∧
      List.Forall₂ (Judged (.plain climber) climber evening) yard reasons ∧
      listedTold (.plain climber) yard climber evening =
        .ok ((yard.zip reasons).filter fun e => ¬e.1.Hides climber evening) := by
  have hreasons : yard.mapM (told (.plain climber) climber evening) =
      .ok [some "hidden", some "Requires 2x rope", none] :=
    toOption_eq_some.1 (by decide +kernel)
  exact ⟨_, hreasons, rfl, gated_exactly hreasons⟩

end Skirmish.Choice
