import Skirmish.Content.Schema
import Skirmish.Proofs.Content.Checked

namespace Skirmish

namespace Document

inductive Step where
  | field (name : String)
  | item (i : Nat)

def Step.name : Step → String
  | field name => name
  | item i => toString i

def child? : Document → Step → Option Document
  | object fs, .field name => Table.lookup name fs
  | list vs, .item i => vs[i]?
  | _, _ => none

def withChild : Document → Step → Document → Document
  | object fs, .field name, v => object (Table.put name v fs)
  | list vs, .item i, v => list (vs.set i v)
  | d, _, _ => d

def at? (d : Document) : List Step → Option Document
  | [] => some d
  | s :: way => (d.child? s).bind fun c => c.at? way

/-- The document with another value at the end of a way, if the way is there. -/
def replace (d v : Document) : List Step → Document
  | [] => v
  | s :: way =>
    match d.child? s with
    | none => d
    | some c => d.withChild s (c.replace v way)

variable {d v old mid : Document} {way more : List Step}

theorem at?_append : d.at? (way ++ more) = (d.at? way).bind fun c => c.at? more := by
  induction way generalizing d with
  | nil => rfl
  | cons s way ih =>
      rw [List.cons_append, at?, at?]
      cases d.child? s with
      | none => rfl
      | some c => exact ih

theorem replace_append (h : d.at? way = some mid) :
    d.replace v (way ++ more) = d.replace (mid.replace v more) way := by
  induction way generalizing d with
  | nil =>
      cases h
      rfl
  | cons s way ih =>
      rw [at?, Option.bind_eq_some_iff] at h
      obtain ⟨c, hc, hmid⟩ := h
      simp only [List.cons_append, replace, hc, ih hmid]

end Document

namespace Content

open Decode

variable {α β γ : Type}

/-- A place in the documents of a class, and the part that is loaded from it. -/
structure Spot (β α : Type) where
  way : List Document.Step
  get? : β → Option α
  put : α → β → β

namespace Spot

def field (name : String) (get : β → α) (put : α → β → β) : Spot β α where
  way := [.field name]
  get? b := some (get b)
  put := put

def entry (i : Nat) : Spot (List α) α where
  way := [.item i]
  get? as := as[i]?
  put a as := as.set i a

def comp (x : Spot γ β) (y : Spot β α) : Spot γ α where
  way := x.way ++ y.way
  get? c := (x.get? c).bind y.get?
  put a c := ((x.get? c).map fun b => x.put (y.put a b) c).getD c

def parts (x : Spot β α) : List String := x.way.map Document.Step.name

def enemy (i : Nat) : Spot Game Enemy where
  way := [.field "enemies", .item i]
  get? g := g.enemies[i]?
  put e g := { g with enemies := g.enemies.set i e }

def skill (i : Nat) : Spot Game Skill where
  way := [.field "skills", .item i]
  get? g := g.skills[i]?
  put s g := { g with skills := g.skills.set i s }

def item (i : Nat) : Spot Game Item where
  way := [.field "items", .item i]
  get? g := g.items[i]?
  put t g := { g with items := g.items.set i t }

def scene (i : Nat) : Spot Game Scene where
  way := [.field "scenes", .item i]
  get? g := g.scenes[i]?
  put s g := { g with scenes := g.scenes.set i s }

def choice (i : Nat) : Spot Scene Choice where
  way := [.field "choices", .item i]
  get? s := s.choices[i]?
  put c s := { s with choices := s.choices.set i c }

def trigger (i : Nat) : Spot Scene Trigger where
  way := [.field "triggers", .item i]
  get? s := s.triggers[i]?
  put t s := { s with triggers := s.triggers.set i t }

def action : Spot Trigger Event where
  way := [.field "action"]
  get? t := some t.event
  put e t := { t with event := e }

end Spot

variable {top : Decoder γ} {whole : Decoder β} {part : Decoder α} {d old v : Document} {b : β}

/-- With another value at a spot of a document the whole is accepted exactly if the value is, and
then loaded with what the value says; else its problems are those of the value, further in. -/
structure Governs (part : Decoder α) (whole : Decoder β) (x : Spot β α) (d : Document) (b : β)
    (v : Document) : Prop where
  accepted : (∃ b', whole (d.replace v x.way) = .ok b') ↔ ∃ a, part v = .ok a
  loaded : ∀ a, part v = .ok a →
    whole (d.replace v x.way) = .ok (x.put a b) ∧ x.get? (x.put a b) = some a
  refused : ∀ ps, part v = .wrong ps →
    whole (d.replace v x.way) = .wrong (ps.map (Problem.along x.parts))

/-- The part is read by itself: what stands at its spot in a document that is accepted governs
whether the document stays so. -/
def ReadsAlone (whole : Decoder β) (part : Decoder α) (x : Spot β α) : Prop :=
  ∀ d b old, whole d = .ok b → d.at? x.way = some old →
    (∃ a, part old = .ok a ∧ x.get? b = some a) ∧ ∀ v, Governs part whole x d b v

def Reads (whole : Decoder β) (part : Decoder α) (x : Spot β α) : Prop :=
  ∀ d b old, whole d = .ok b → d.at? x.way = some old →
    (∃ a, part old = .ok a ∧ x.get? b = some a) ∧ (∀ a, x.get? (x.put a b) = some a) ∧
      ∀ v, whole (d.replace v x.way) = (fun a => x.put a b) <$> (part v).along x.parts

theorem Reads.alone {x : Spot β α} (h : Reads whole part x) : ReadsAlone whole part x := by
  intro d b old hb hold
  obtain ⟨hpart, hget, hreplace⟩ := h d b old hb hold
  refine ⟨hpart, fun v => ?_⟩
  have hwhole := hreplace v
  cases hv : part v with
  | ok a =>
      rw [hv] at hwhole
      refine ⟨by simp [hwhole, hv, Checked.along], fun a' ha => ?_, by simp [hv]⟩
      obtain rfl : a = a' := Checked.ok.inj (hv.symm.trans ha)
      exact ⟨hwhole, hget a⟩
  | wrong ps =>
      rw [hv] at hwhole
      refine ⟨by simp [hwhole, hv, Checked.along], by simp [hv], fun qs hqs => ?_⟩
      obtain rfl : ps = qs := Checked.wrong.inj (hv.symm.trans hqs)
      exact hwhole

theorem Reads.comp {x : Spot γ β} {y : Spot β α} (hx : Reads top whole x)
    (hy : Reads whole part y) : Reads top part (x.comp y) := by
  intro d c old hc hold
  simp only [Spot.comp, Document.at?_append, Option.bind_eq_some_iff] at hold
  obtain ⟨mid, hmid, hold⟩ := hold
  obtain ⟨⟨b, hb, hget⟩, hput, hreplace⟩ := hx d c mid hc hmid
  obtain ⟨⟨a, ha, hget'⟩, hput', hreplace'⟩ := hy mid b old hb hold
  refine ⟨⟨a, ha, by simp [Spot.comp, hget, hget']⟩, ?_, fun v => ?_⟩
  · simp [Spot.comp, hget, hput, hput']
  · simp only [Spot.comp, Spot.parts, Document.replace_append hmid, hreplace, hreplace', hget,
      Checked.along_map, Checked.along_along, Checked.map_map, List.map_append, Option.map_some,
      Option.getD_some]

/-- An entry is read by itself in a list, be the list one that must not be empty. -/
theorem reads_entry {entries : Decoder (List α)} (i : Nat)
    (hlist : ∀ v as, entries v = .ok as → list part v = .ok as)
    (hentries : ∀ vs, vs ≠ [] → entries (.list vs) = list part (.list vs)) :
    Reads entries part (.entry i) := by
  intro d as old has hold
  obtain ⟨vs, rfl, hall⟩ := list_eq_ok.1 (hlist d as has)
  have hentry : vs[i]? = some old := by
    simpa [Spot.entry, Document.at?, Document.child?] using hold
  obtain ⟨hi, rfl⟩ := List.getElem?_eq_some_iff.1 hentry
  have hi' : i < as.length := hall.length_eq ▸ hi
  refine ⟨⟨as[i], (List.forall₂_iff_get.1 hall).2 i hi hi', List.getElem?_eq_getElem hi'⟩, ?_, ?_⟩
  · intro a
    simp [Spot.entry, hi']
  · intro v
    have hset : vs.set i v ≠ [] := by
      rw [Ne, ← List.length_eq_zero_iff, List.length_set]
      omega
    simp only [Spot.entry, Spot.parts, Document.replace, Document.child?, hentry,
      Document.withChild, hentries _ hset]
    rw [list_set (hlist _ _ has) hi, Checked.under_eq_along]
    rfl

theorem reads_field {name : String} {get : β → α} {put : α → β → β}
    (hobject : ∀ d b, whole d = .ok b → ∃ fs, d = .object fs) (hget : ∀ a b, get (put a b) = a)
    (h : ∀ fs b old, whole (.object fs) = .ok b → Table.lookup name fs = some old →
      part old = .ok (get b) ∧
        ∀ v, whole (.object (Table.put name v fs)) = (fun a => put a b) <$> (part v).under name) :
    Reads whole part (.field name get put) := by
  intro d b old hb hold
  obtain ⟨fs, rfl⟩ := hobject d b hb
  have hlookup : Table.lookup name fs = some old := by
    simpa [Spot.field, Document.at?, Document.child?] using hold
  obtain ⟨hold, hput⟩ := h fs b old hb hlookup
  refine ⟨⟨get b, hold, rfl⟩, fun a => congrArg some (hget a b), fun v => ?_⟩
  simp only [Spot.field, Spot.parts, Document.replace, Document.child?, hlookup,
    Document.withChild, hput, Checked.under_eq_along]
  rfl

variable {fs : Fields} {g : Game} {s : Scene} {t : Trigger}

theorem game_eq_ok : game (.object fs) = .ok g ↔
    required "id" nonEmptyText fs = .ok g.id ∧ required "title" nonEmptyText fs = .ok g.title ∧
      required "version" nonEmptyText fs = .ok g.version ∧
      required "stats" stats fs = .ok g.stats ∧
      required "characters" characters fs = .ok g.player ∧
      required "enemies" (list enemy) fs = .ok g.enemies ∧
      required "skills" (list skill) fs = .ok g.skills ∧
      required "items" (list item) fs = .ok g.items ∧
      required "scenes" (nonEmptyList scene) fs = .ok g.scenes ∧
      required "starting_scene" nonEmptyText fs = .ok g.startingScene := by
  cases g
  simp only [game, object, Checked.seq_eq_ok, Checked.map_eq_ok, exists_and_left,
    exists_exists_and_eq_and, exists_exists_and_exists_and_eq_and, ↓existsAndEq, and_true,
    and_assoc, Game.mk.injEq]

theorem scene_eq_ok : scene (.object fs) = .ok s ↔
    required "id" nonEmptyText fs = .ok s.id ∧
      required "type" (oneOf ["story", "battle"] id) fs = .ok s.kind ∧
      listField "choices" choice fs = .ok s.choices ∧
      listField "enemies" text fs = .ok s.enemies ∧
      Decode.optional "victory_scene" text fs = .ok s.victoryScene ∧
      Decode.optional "defeat_scene" text fs = .ok s.defeatScene ∧
      listField "triggers" trigger fs = .ok s.triggers := by
  cases s
  simp only [scene, object, Checked.seq_eq_ok, Checked.map_eq_ok, exists_and_left,
    exists_exists_and_eq_and, exists_exists_and_exists_and_eq_and, ↓existsAndEq, and_true,
    and_assoc, Scene.mk.injEq]

theorem trigger_eq_ok : trigger (.object fs) = .ok t ↔
    Decode.optional "id" text fs = .ok t.id ∧ required "condition" text fs = .ok t.condition ∧
      withDefault "once" bool false fs = .ok t.once ∧
      Decode.optional "max_fires" integer fs = .ok t.maxFires ∧
      required "action" event fs = .ok t.event := by
  cases t
  simp only [trigger, object, Checked.seq_eq_ok, Checked.map_eq_ok, exists_and_left,
    exists_exists_and_eq_and, exists_exists_and_exists_and_eq_and, ↓existsAndEq, and_true,
    and_assoc, Trigger.mk.injEq]

theorem game_put (h : game (.object fs) = .ok g) (v : Document) :
    game (.object (Table.put "enemies" v fs)) =
        (fun es => { g with enemies := es }) <$> (list enemy v).under "enemies" ∧
      game (.object (Table.put "skills" v fs)) =
        (fun ss => { g with skills := ss }) <$> (list skill v).under "skills" ∧
      game (.object (Table.put "items" v fs)) =
        (fun is => { g with items := is }) <$> (list item v).under "items" ∧
      game (.object (Table.put "scenes" v fs)) =
        (fun ss => { g with scenes := ss }) <$> (nonEmptyList scene v).under "scenes" := by
  obtain ⟨hid, htitle, hversion, hstats, hplayer, henemies, hskills, hitems, hscenes, hstarting⟩ :=
    game_eq_ok.1 h
  refine ⟨?_, ?_, ?_, ?_⟩
  all_goals
    simp (disch := decide) only [game, object, required_put_of_ne, required_put, hid,
      htitle, hversion, hstats, hplayer, henemies, hskills, hitems, hscenes, hstarting,
      Checked.map_ok, Checked.ok_seq, Checked.seq_ok, Checked.map_map]

theorem scene_put (h : scene (.object fs) = .ok s) (v : Document) :
    scene (.object (Table.put "choices" v fs)) =
        (fun cs => { s with choices := cs }) <$> (list choice v).under "choices" ∧
      scene (.object (Table.put "triggers" v fs)) =
        (fun ts => { s with triggers := ts }) <$> (list trigger v).under "triggers" := by
  obtain ⟨hid, hkind, hchoices, henemies, hvictory, hdefeat, htriggers⟩ := scene_eq_ok.1 h
  simp only [Decode.optional, listField] at hchoices henemies hvictory hdefeat htriggers
  refine ⟨?_, ?_⟩
  all_goals
    simp (disch := decide) only [scene, object, listField, Decode.optional,
      required_put_of_ne, withDefault_put_of_ne, withDefault_put, hid, hkind, hchoices, henemies,
      hvictory, hdefeat, htriggers, Checked.map_ok, Checked.ok_seq, Checked.seq_ok,
      Checked.map_map]

theorem trigger_put (h : trigger (.object fs) = .ok t) (v : Document) :
    trigger (.object (Table.put "action" v fs)) =
      (fun e => { t with event := e }) <$> (event v).under "action" := by
  obtain ⟨hid, hcondition, honce, hmost, haction⟩ := trigger_eq_ok.1 h
  simp only [Decode.optional] at hid hmost
  simp (disch := decide) only [trigger, object, Decode.optional, required_put_of_ne,
    withDefault_put_of_ne, required_put, hid, hcondition, honce, hmost, Checked.map_ok,
    Checked.ok_seq]

theorem object_of_ok {cls : String} {read : Fields → Checked α} :
    ∀ d a, object cls read d = .ok a → ∃ fs, d = .object fs := by
  intro d a h
  obtain ⟨fs, hfs, -⟩ := object_eq_ok.1 h
  exact ⟨fs, hfs⟩

theorem required_eq_ok_of_lookup {name : String} {a : α} (h : required name part fs = .ok a)
    (hname : camelCase name = name) (hv : Table.lookup name fs = some v) : part v = .ok a :=
  Checked.under_eq_ok.1 ((required_of_lookup hname hv).symm.trans h)

theorem listField_eq_ok_of_lookup {name : String} {as : List α}
    (h : listField name part fs = .ok as) (hname : camelCase name = name)
    (hv : Table.lookup name fs = some v) : list part v = .ok as :=
  Checked.under_eq_ok.1 ((withDefault_of_lookup hname hv).symm.trans h)

theorem reads_enemy (i : Nat) : Reads game enemy (.enemy i) := by
  have hsection : Reads game (list enemy)
      (.field "enemies" Game.enemies fun es g => { g with enemies := es }) := by
    refine reads_field object_of_ok (fun _ _ => rfl) fun fs g old hg hv => ?_
    obtain ⟨-, -, -, -, -, henemies, -, -, -, -⟩ := game_eq_ok.1 hg
    exact ⟨required_eq_ok_of_lookup henemies (by decide) hv, fun v => (game_put hg v).1⟩
  exact hsection.comp (reads_entry i (fun _ _ h => h) fun _ _ => rfl)

theorem reads_skill (i : Nat) : Reads game skill (.skill i) := by
  have hsection : Reads game (list skill)
      (.field "skills" Game.skills fun ss g => { g with skills := ss }) := by
    refine reads_field object_of_ok (fun _ _ => rfl) fun fs g old hg hv => ?_
    obtain ⟨-, -, -, -, -, -, hskills, -, -, -⟩ := game_eq_ok.1 hg
    exact ⟨required_eq_ok_of_lookup hskills (by decide) hv, fun v => (game_put hg v).2.1⟩
  exact hsection.comp (reads_entry i (fun _ _ h => h) fun _ _ => rfl)

theorem reads_item (i : Nat) : Reads game item (.item i) := by
  have hsection : Reads game (list item)
      (.field "items" Game.items fun is g => { g with items := is }) := by
    refine reads_field object_of_ok (fun _ _ => rfl) fun fs g old hg hv => ?_
    obtain ⟨-, -, -, -, -, -, -, hitems, -, -⟩ := game_eq_ok.1 hg
    exact ⟨required_eq_ok_of_lookup hitems (by decide) hv, fun v => (game_put hg v).2.2.1⟩
  exact hsection.comp (reads_entry i (fun _ _ h => h) fun _ _ => rfl)

theorem reads_scene (i : Nat) : Reads game scene (.scene i) := by
  have hsection : Reads game (nonEmptyList scene)
      (.field "scenes" Game.scenes fun ss g => { g with scenes := ss }) := by
    refine reads_field object_of_ok (fun _ _ => rfl) fun fs g old hg hv => ?_
    obtain ⟨-, -, -, -, -, -, -, -, hscenes, -⟩ := game_eq_ok.1 hg
    exact ⟨required_eq_ok_of_lookup hscenes (by decide) hv,
      fun v => (game_put hg v).2.2.2⟩
  exact hsection.comp
    (reads_entry i (fun _ _ => list_of_nonEmptyList) fun _ => nonEmptyList_of_ne_nil)

theorem reads_choice (i : Nat) : Reads scene choice (.choice i) := by
  have hsection : Reads scene (list choice)
      (.field "choices" Scene.choices fun cs s => { s with choices := cs }) := by
    refine reads_field object_of_ok (fun _ _ => rfl) fun fs s old hs hv => ?_
    obtain ⟨-, -, hchoices, -, -, -, -⟩ := scene_eq_ok.1 hs
    exact ⟨listField_eq_ok_of_lookup hchoices (by decide) hv, fun v => (scene_put hs v).1⟩
  exact hsection.comp (reads_entry i (fun _ _ h => h) fun _ _ => rfl)

theorem reads_trigger (i : Nat) : Reads scene trigger (.trigger i) := by
  have hsection : Reads scene (list trigger)
      (.field "triggers" Scene.triggers fun ts s => { s with triggers := ts }) := by
    refine reads_field object_of_ok (fun _ _ => rfl) fun fs s old hs hv => ?_
    obtain ⟨-, -, -, -, -, -, htriggers⟩ := scene_eq_ok.1 hs
    exact ⟨listField_eq_ok_of_lookup htriggers (by decide) hv,
      fun v => (scene_put hs v).2⟩
  exact hsection.comp (reads_entry i (fun _ _ h => h) fun _ _ => rfl)

theorem reads_action : Reads trigger event .action :=
  reads_field object_of_ok (fun _ _ => rfl) fun fs t old ht hv => by
    obtain ⟨-, -, -, -, haction⟩ := trigger_eq_ok.1 ht
    exact ⟨required_eq_ok_of_lookup haction (by decide) hv, trigger_put ht⟩

/-- The entries of a game, of a scene and of a trigger are read by themselves, each by the parser of
its own: a game with another value in place of one is accepted exactly if the parser accepts the
value, and nothing but the entry changes; else the problems are those of the parser, in their order,
each with the way to the entry in front. -/
theorem sections_read_alone (i j : Nat) :
    ReadsAlone game enemy (.enemy i) ∧ ReadsAlone game skill (.skill i) ∧
      ReadsAlone game item (.item i) ∧ ReadsAlone game scene (.scene i) ∧
      (ReadsAlone scene choice (.choice j) ∧
        ReadsAlone game choice (.comp (.scene i) (.choice j))) ∧
      (ReadsAlone scene trigger (.trigger j) ∧
        ReadsAlone game trigger (.comp (.scene i) (.trigger j))) ∧
      ReadsAlone trigger event .action ∧ ReadsAlone scene event (.comp (.trigger j) .action) ∧
        ReadsAlone game event (.comp (.scene i) (.comp (.trigger j) .action)) := by
  have hchoice := reads_choice j
  have htrigger := reads_trigger j
  have haction := htrigger.comp reads_action
  have hscene := reads_scene i
  exact ⟨(reads_enemy i).alone, (reads_skill i).alone, (reads_item i).alone, hscene.alone,
    ⟨hchoice.alone, (hscene.comp hchoice).alone⟩, ⟨htrigger.alone, (hscene.comp htrigger).alone⟩,
    reads_action.alone, haction.alone, (hscene.comp haction).alone⟩

def arena : Document := .object [
  ("id", .text "arena"), ("title", .text "Arena"), ("version", .text "1"),
  ("stats", .object [("primary", .list []), ("derived", .list [])]),
  ("characters", .object [("player", .object [("id", .text "hero")])]),
  ("enemies", .list []), ("skills", .list []), ("items", .list []),
  ("scenes", .list [.object [("id", .text "gate"), ("type", .text "battle"),
    ("triggers", .list [.object [("condition", .text "turn > 3"),
      ("action", .object [("type", .text "flee")])]])]]),
  ("startingScene", .text "gate")]

theorem sections_read_alone_arena :
    ∃ g, game arena = .ok g ∧
      game (arena.replace (.object [("type", .text "heal")])
        [.field "scenes", .item 0, .field "triggers", .item 0, .field "action"]) =
        .wrong [⟨["scenes", "0", "triggers", "0", "action", "heal", "amount"], .required⟩] := by
  obtain ⟨g, hg⟩ : ∃ g, game arena = .ok g := ⟨_, by rfl⟩
  have hold : ∃ old, arena.at? [.field "scenes", .item 0, .field "triggers", .item 0,
      .field "action"] = some old := ⟨_, rfl⟩
  have hevent : event (.object [("type", .text "heal")]) =
      .wrong [⟨["heal", "amount"], .required⟩] := by rfl
  obtain ⟨old, hold⟩ := hold
  obtain ⟨-, -, -, -, -, -, -, -, haction⟩ := sections_read_alone 0 0
  obtain ⟨-, hgoverns⟩ := haction arena g old hg hold
  exact ⟨g, hg, (hgoverns _).refused _ hevent⟩

end Content

end Skirmish
