import Mathlib.Data.Prod.Lex
import Skirmish.Proofs.Battle.Firing
import Skirmish.Proofs.Battle.Initiative
import Skirmish.Proofs.Battle.Waiting

namespace Skirmish.Battle

variable {ts : List Trigger} {p : String} {b c d : Battle} {f : Fighter}

/-- Turn after turn, the battle comes to a command, to its end or to a failure. -/
inductive Settles : Battle → Prop
  | waits {b : Battle} (h : b.isRunning = false) : Settles b
  | fails {b : Battle} {halt : Halt Error Battle} (hruns : b.isRunning = true)
      (h : b.startTurn = .error halt) : Settles b
  | turn {b c : Battle} (hruns : b.isRunning = true) (h : b.startTurn = .ok c) (hc : Settles c) :
      Settles b

theorem settles_iff : Settles b ↔ b.turns.isSome = true := by
  constructor
  · intro h
    induction h with
    | waits h =>
        rw [turns, h]
        rfl
    | fails hruns h =>
        rw [turns, if_pos hruns, h]
        rfl
    | turn hruns h _ ih =>
        rw [turns, if_pos hruns, h]
        exact ih
  · intro h
    obtain ⟨r, hr⟩ := Option.isSome_iff_exists.1 h
    refine turns.partial_correctness (motive := fun b _ => Settles b) ?_ b r hr
    intro turns ih b r hr
    split at hr
    next hruns =>
      split at hr
      next e he => exact .fails hruns he
      next c hc => exact .turn hruns hc (ih c r hr)
    next hruns => exact .waits (by simpa using hruns)

/-- The fighters for whose turn the battle waits: the living player, or else anyone alive. -/
def awaits (b : Battle) (e : Initiative.Entry) : Bool :=
  (b.fighter? e.id).any fun f => f.isAlive && (b.players.isEmpty || f.isPlayer)

def isAhead (b : Battle) : Bool := (b.queue.drop b.index).any b.awaits

/-- How far the turns still have to go: to the next round if there is none ahead, and through the
rest of the queue. -/
def walk (b : Battle) : Nat ×ₗ Nat := toLex ((!b.isAhead).toNat, b.queue.length - b.index)

theorem Led.awaits_iff {e : Initiative.Entry} (hled : Led p b) (hplayers : b.players ≠ []) :
    b.awaits e = true ↔ e.id = p := by
  have hnonempty : b.players.isEmpty = false := by simpa using hplayers
  simp only [awaits, Option.any_eq_true, hnonempty, Bool.false_or, Bool.and_eq_true]
  constructor
  · rintro ⟨f, hf, -, hplayer⟩
    obtain ⟨hid, hlead⟩ := hled e.id f hf
    rw [← hid, hlead hplayer]
  · rintro rfl
    exact hled.exists_living hplayers

section

variable {queue : List Initiative.Entry} {variance : Quantity} {dice dice' : Dice}

theorem mem_round (hrun : (Initiative.queue variance b.fighters.values).run.run dice =
    (.ok queue, dice')) {id : String} :
    (∃ e ∈ queue, e.id = id) ↔ ∃ f ∈ Roster.living b.fighters.values, f.id = id := by
  have hperm := Initiative.queue_yields _ _ _ _ _ hrun
  simpa using hperm.mem_iff (a := id)

/-- The living player has a turn in every round. -/
theorem exists_queued (hled : Led p b)
    (hrun : (Initiative.queue variance b.fighters.values).run.run dice = (.ok queue, dice'))
    (hplayers : b.players ≠ []) : ∃ e ∈ queue, e.id = p := by
  obtain ⟨f, hf, halive, -⟩ := hled.exists_living hplayers
  have hliving : f ∈ Roster.living b.fighters.values :=
    List.mem_filter.2 ⟨Table.mem_values_of_get? hf, halive⟩
  exact (mem_round hrun).2 ⟨f, hliving, (hled p f hf).1⟩

theorem exists_awaited (hled : Led p b)
    (hrun : (Initiative.queue variance b.fighters.values).run.run dice = (.ok queue, dice'))
    (hqueue : queue ≠ []) : ∃ e ∈ queue, b.awaits e = true := by
  by_cases hplayers : b.players = []
  · obtain ⟨e, he⟩ := List.exists_mem_of_ne_nil _ hqueue
    obtain ⟨f, hf, hid⟩ := (mem_round hrun).1 ⟨e, he, rfl⟩
    obtain ⟨hvalue, halive⟩ := List.mem_filter.1 hf
    obtain ⟨entry, hentry, rfl⟩ := List.mem_map.1 hvalue
    have hfound : b.fighter? entry.1 = some entry.2 := Table.get?_of_mem hentry
    rw [← (hled _ _ hfound).1, hid] at hfound
    exact ⟨e, he, by simp [awaits, hfound, halive, hplayers]⟩
  · obtain ⟨e, he, hid⟩ := exists_queued hled hrun hplayers
    exact ⟨e, he, (hled.awaits_iff hplayers).2 hid⟩

end

theorem nextTurn_same (h : b.nextTurn = .ok c) :
    c.triggers = b.triggers ∧ c.fighters = b.fighters := by
  rcases nextTurn_cases h with ⟨-, rfl⟩ | ⟨-, turn, queue, dice, -, ⟨-, rfl⟩ | ⟨-, hend⟩⟩
  · exact ⟨rfl, rfl⟩
  · exact ⟨rfl, rfl⟩
  · rcases checkEnd_cases hend with ⟨rfl, -⟩ | ⟨-, -, phase, outcome, dice, log, notices, -, rfl⟩
    all_goals exact ⟨rfl, rfl⟩

theorem isAhead_of_passed (hhead : ∀ e, b.queue[b.index]? = some e → b.awaits e = false) :
    b.isAhead = (b.queue.drop (b.index + 1)).any b.awaits := by
  by_cases hlt : b.index < b.queue.length
  · have hpassed := hhead _ (List.getElem?_eq_getElem hlt)
    rw [isAhead, List.drop_eq_getElem_cons hlt, List.any_cons, hpassed, Bool.false_or]
  · rw [isAhead, List.drop_eq_nil_of_le (by omega), List.drop_eq_nil_of_le (by omega)]

theorem nextTurn_walk (hled : Led p b) (hnone : b.outcome = none)
    (hhead : ∀ e, b.queue[b.index]? = some e → b.awaits e = false) (hok : b.nextTurn = .ok c)
    (hruns : c.isRunning = true) : c.walk < b.walk := by
  rcases nextTurn_cases hok with
    ⟨hmore, rfl⟩ | ⟨hlast, turn, queue, dice, hrun, ⟨hqueue, rfl⟩ | ⟨hempty, hend⟩⟩
  · have hahead : isAhead { b with index := b.index + 1 } = b.isAhead :=
      (isAhead_of_passed hhead).symm
    rw [walk, walk, hahead]
    exact Prod.Lex.toLex_lt_toLex.2 (.inr ⟨rfl, by simp only; omega⟩)
  · have hbehind : b.isAhead = false := by
      rw [isAhead_of_passed hhead, List.drop_eq_nil_of_le hlast]
      rfl
    obtain ⟨e, he, hawaited⟩ := exists_awaited hled hrun hqueue
    have hahead : isAhead { b with turn, index := 0, queue, dice } = true :=
      List.any_eq_true.2 ⟨e, he, hawaited⟩
    rw [walk, walk, hahead, hbehind]
    exact Prod.Lex.toLex_lt_toLex.2 (.inl Nat.zero_lt_one)
  · rcases checkEnd_cases hend with ⟨rfl, houtcome | hcontested⟩ | ⟨-, -, hconcluded⟩
    · simp [hnone] at houtcome
    · obtain ⟨e, he, -⟩ := exists_queued hled hrun hcontested.1
      exact absurd hempty (List.ne_nil_of_mem he)
    · simp [not_isRunning_of_isOver hconcluded.isOver] at hruns

/-- A turn has been played, from its first act to its last: queue and triggers are the same, and
players live. -/
structure Played (d z : Battle) : Prop where
  queue : z.queue = d.queue
  index : z.index = d.index
  triggers : z.triggers = d.triggers
  players : z.players ≠ []
  outcome : z.outcome = none

theorem dispatch_ends (hd : Silent ts d) (hcontested : d.Contested)
    (hok : d.dispatch f = .ok c) (hruns : c.isRunning = true) :
    (f.isAlive = false ∨ f.isPlayer = false) ∧ ∃ z, z.nextTurn = .ok c ∧ Played d z := by
  rcases dispatch_cases hok with ⟨hdead, hend⟩ | ⟨-, -, rfl⟩ | ⟨-, henemy, o, dice, hexecute⟩
  · exact ⟨.inl hdead, d.enter .turnEnd, hend, rfl, rfl, rfl, hcontested.1, hd.outcome⟩
  · cases hruns
  · refine ⟨.inr henemy, ?_⟩
    rcases executePending_cases rfl hexecute with
      ⟨notices, hend⟩ | ⟨g, a, e, notices, -, ⟨fighters, dice', log, rfl⟩, hcheck, hlast⟩
    · exact ⟨_, hend, rfl, rfl, rfl, hcontested.1, hd.outcome⟩
    · rcases checkEnd_cases hcheck with ⟨rfl, hcase⟩ | ⟨-, -, hconcluded⟩
      · have hplayers := (hcase.resolve_left (by simp [hd.outcome])).1
        rcases hlast with ⟨-, hend⟩ | ⟨hne, -⟩
        · exact ⟨_, hend, rfl, rfl, rfl, hplayers, hd.outcome⟩
        · exact absurd rfl hne
      · rcases hlast with ⟨hphase, -⟩ | ⟨-, rfl⟩
        · exact absurd hconcluded.isOver (by simp [isOver, hphase, Phase.isTerminal])
        · simp [not_isRunning_of_isOver hconcluded.isOver] at hruns

/-- How far a battle is from a command: first count the firings that are left to the triggers that
call enemies, then whether a player lives, then the way to the turn that is waited for. -/
def distance (b : Battle) : Nat ×ₗ Nat ×ₗ Nat ×ₗ Nat :=
  toLex (b.triggers.firesLeft, toLex (b.players.isEmpty.toNat, b.walk))

/-- Where the turn of a fighter that is not waited for ends, the battle comes nearer. -/
theorem nextTurn_distance_lt (hled : Led p b) (hnone : b.outcome = none)
    (hhead : ∀ e, b.queue[b.index]? = some e → b.awaits e = false) (hok : b.nextTurn = .ok c)
    (hruns : c.isRunning = true) : c.distance < b.distance := by
  obtain ⟨htriggers, hfighters⟩ := nextTurn_same hok
  have hplayers : c.players = b.players := by rw [players, players, hfighters]
  have hwalk := nextTurn_walk hled hnone hhead hok hruns
  rw [distance, distance, htriggers, hplayers]
  exact Prod.Lex.toLex_lt_toLex.2
    (.inr ⟨rfl, Prod.Lex.toLex_lt_toLex.2 (.inr ⟨rfl, hwalk⟩)⟩)

/-- What happens at the start of a turn uses up a firing that calls enemies, or nobody joins the
queue. -/
theorem Begun.firesLeft (hbounded : ∀ t ∈ ts, t.event.spawns = true → t.IsBounded)
    (hs : Silent ts b) (h : Begun b f d) :
    d.triggers.firesLeft < b.triggers.firesLeft ∨
      d.triggers.firesLeft = b.triggers.firesLeft ∧ d.queue = b.queue := by
  obtain ⟨-, -, c, hbegin, hfire⟩ := h
  have hc : c.triggers = b.triggers ∧ c.queue = b.queue := by
    obtain ⟨fighters, dice, log, rfl⟩ := Acted.beginTurn hbegin
    exact ⟨rfl, rfl⟩
  rw [← hc.1, ← hc.2]
  have hsubset : ∀ t ∈ c.triggers.triggers, t ∈ ts := hc.1 ▸ fun _ ht => hs.triggers ht
  obtain ⟨hle, hlt | hqueue⟩ :=
    checkTriggers_firesLeft (fun t ht => hbounded t (hsubset t ht)) hfire
  · exact .inl hlt
  · exact (Nat.lt_or_eq_of_le hle).imp id fun heq => ⟨heq, hqueue⟩

theorem not_awaits_of_passed (hled : Led p d) (hcontested : d.Contested)
    (hcurrent : d.current? = some f) (hpassed : f.isAlive = false ∨ f.isPlayer = false)
    {e : Initiative.Entry} (he : d.queue[d.index]? = some e) : e.id ≠ p := by
  rintro rfl
  obtain ⟨g, hg, halive, hplayer⟩ := hled.exists_living hcontested.1
  rw [Battle.current?, he, Option.bind_some, hg] at hcurrent
  obtain rfl := Option.some.inj hcurrent
  simp [halive, hplayer] at hpassed

theorem Begun.distance_le {z : Battle} (hbounded : ∀ t ∈ ts, t.event.spawns = true → t.IsBounded)
    (hs : Silent ts b) (hled : Led p b) (hbegun : Begun b f d) (hzled : Led p z)
    (hplayed : Played d z) : z.distance ≤ b.distance := by
  have hplayers := hplayed.players
  have hnonempty : z.players.isEmpty = false := by simpa using hplayers
  rcases hbegun.firesLeft hbounded hs with hlt | ⟨heq, hsame⟩
  · rw [← hplayed.triggers] at hlt
    exact (Prod.Lex.toLex_lt_toLex.2 (.inl hlt)).le
  · rw [← hplayed.triggers] at heq
    by_cases hnobody : b.players = []
    · have hlt : z.players.isEmpty.toNat < b.players.isEmpty.toNat := by simp [hplayers, hnobody]
      exact (Prod.Lex.toLex_lt_toLex.2 (.inr ⟨heq, Prod.Lex.toLex_lt_toLex.2 (.inl hlt)⟩)).le
    · have hawaits : z.awaits = b.awaits := by
        funext e
        rw [Bool.eq_iff_iff, hzled.awaits_iff hplayers, hled.awaits_iff hnobody]
      have hwalk : z.walk = b.walk := by
        rw [walk, walk, isAhead, isAhead, hawaits, hplayed.queue, hsame, hplayed.index,
          hbegun.onward.index]
      have hsomebody : b.players.isEmpty = false := by simpa using hnobody
      rw [distance, distance, heq, hwalk, hnonempty, hsomebody]

theorem act_distance_lt (hbounded : ∀ t ∈ ts, t.event.spawns = true → t.IsBounded)
    (hs : Silent ts b) (hled : Led p b) (hbegun : Begun b f d) (hd : Silent ts d)
    (hcontested : d.Contested) (hok : d.dispatch ((d.fighter? f.id).getD f) = .ok c)
    (hruns : c.isRunning = true) : c.distance < b.distance := by
  have hdled := hbegun.led hled
  obtain ⟨hpassed, z, hnext, hplayed⟩ := dispatch_ends hd hcontested hok hruns
  have hzled : Led p z := by
    rw [Led, ← (nextTurn_same hnext).2]
    exact Led.lasting.dispatch hok hdled
  have hhead : ∀ e, z.queue[z.index]? = some e → z.awaits e = false := by
    intro e he
    rw [hplayed.queue, hplayed.index] at he
    have hne := not_awaits_of_passed hdled hcontested (hbegun.current? hled) hpassed he
    exact Bool.eq_false_iff.2 fun h => hne ((hzled.awaits_iff hplayed.players).1 h)
  have hlt := nextTurn_distance_lt hzled hplayed.outcome hhead hnext hruns
  exact hlt.trans_le (hbegun.distance_le hbounded hs hled hzled hplayed)

theorem pass_distance_lt (hs : Silent ts b) (hled : Led p b)
    (hcurrent : b.current?.filter Fighter.isAlive = none)
    (hok : nextTurn { b with phase := .turnStart } = .ok c) (hruns : c.isRunning = true) :
    c.distance < b.distance := by
  have hled' : Led p { b with phase := .turnStart } := hled
  have hhead : ∀ e, b.queue[b.index]? = some e → b.awaits e = false := by
    intro e he
    have hfallen : ∀ g, b.fighter? e.id = some g → g.isAlive = false := by
      simpa [Battle.current?, he] using hcurrent
    cases hfound : b.fighter? e.id with
    | none => simp [awaits, hfound]
    | some g => simp [awaits, hfound, hfallen g hfound]
  have hlt := nextTurn_distance_lt hled' hs.outcome hhead hok hruns
  exact hlt

/-- Every turn after which no command is waited for brings one nearer. -/
theorem distance_lt (hbounded : ∀ t ∈ ts, t.event.spawns = true → t.IsBounded)
    (hs : Silent ts b) (hled : Led p b) (hok : b.startTurn = .ok c) (hruns : c.isRunning = true) :
    c.distance < b.distance := by
  cases hs.takesTurn hok with
  | pass hcurrent hnext => exact pass_distance_lt hs hled hcurrent hnext hruns
  | decide hdecided => simp [not_isRunning_of_isOver hdecided.isOver] at hruns
  | interrupt _ _ _ hphase _ hnotify =>
      subst hnotify
      simp [isRunning, Battle.notify, hphase, Phase.isWaiting] at hruns
  | act hbegun hd _ hcontested hdispatch =>
      exact act_distance_lt hbounded hs hled hbegun hd hcontested hdispatch hruns

theorem settles {b : Battle} (hbounded : ∀ t ∈ ts, t.event.spawns = true → t.IsBounded)
    (h : Standing ts b ∧ Voiced b) (hled : Led p b) : Settles b := by
  by_cases hruns : b.isRunning = true
  · have hs := h.1.silent_of_isRunning hruns
    cases hok : b.startTurn with
    | error e => exact .fails hruns hok
    | ok c =>
        have hc := (hs.takesTurn hok).standing hs
        have hcled := Led.lasting.startTurn hok hled
        refine .turn hruns hok ?_
        by_cases hcruns : c.isRunning = true
        · have hlt := distance_lt hbounded hs hled hok hcruns
          exact settles hbounded hc hcled
        · exact .waits (by simpa using hcruns)
  · exact .waits (by simpa using hruns)
termination_by b.distance
decreasing_by exact hlt

def script (b : Battle) : List Trigger :=
  match b.scene with
  | none => b.triggers.triggers
  | some s => s.triggers

theorem script_of_assemble {player : Option Character} {enemies : Option (List Enemy)}
    (h : b.assemble player enemies = .ok c) {t : Trigger} (ht : t ∈ c.triggers.triggers) :
    ∃ t' ∈ b.script, ∃ id, t = { t' with id } := by
  obtain ⟨f, -, h⟩ := Fallible.bind_eq_ok.1 h
  obtain ⟨d, hd, h⟩ := Fallible.bind_eq_ok.1 h
  obtain ⟨fs, -, -, rfl⟩ := enrollAll_eq_ok hd
  cases h
  simp only [notify, say, setFighter] at ht
  rw [script]
  cases hscene : b.scene with
  | none =>
      rw [hscene] at ht
      exact ⟨t, ht, t.id, rfl⟩
  | some s =>
      rw [hscene] at ht
      exact Trigger.Book.exists_of_mem_assignIds ht

/-- Wherever a command lets turns begin, and every trigger that calls enemies fires only so often,
the turns come to a command, to the end of the battle or to a failure, so that the loop returns. -/
theorem settles_of_course {b₀ b₁ b x : Battle} {player : Option Character}
    {enemies : Option (List Enemy)} {k : Command}
    (hbounded : ∀ t ∈ b₀.script, t.event.spawns = true → t.once = true ∨ t.maxFires.isSome = true)
    (h₀ : b₀.assemble player enemies = .ok b₁) (h : Course (fun _ => True) b₁ b) (hk : k.Fits b)
    (hreaches : Reaches (b, .command k) (x, .turns)) :
    Settles x ∧ x.turns.isSome = true := by
  have hdue : Due b₁.triggers.triggers (b, .command k) := ⟨hk, (Paused.assemble h₀).course h⟩
  have hled := Led.lasting.reaches hreaches (Led.lasting.course h (Led.assemble h₀))
  have hx : Settles x := by
    refine settles (fun t ht hspawns => ?_) (hdue.reaches hreaches) hled
    obtain ⟨t', ht', id, rfl⟩ := script_of_assemble h₀ ht
    exact hbounded t' ht' hspawns
  exact ⟨hx, settles_iff.1 hx⟩

def swarm : Scene :=
  .plain [⟨none, "turn == 1", true, none, .spawn "slime"⟩,
    ⟨none, "turn >= 1", false, some 3, .multi [.spawn "slime"]⟩]

def swarmed : Battle :=
  create { Game.plain (.plain "hero") with enemies := [.plain "slime"] } (some swarm)
    ⟨[], [], .standard⟩ {} {}

theorem settles_of_course_swarmed :
    ∃ b₁ x, swarmed.assemble none (some [.plain "slime"]) = .ok b₁ ∧
      Reaches (b₁, .command .start) (x, .turns) ∧ x.isRunning = true ∧
      x.triggers.firesLeft = 4 ∧ Settles x ∧ x.turns.isSome = true := by
  have hok : (do
      let b₁ ← swarmed.assemble none (some [.plain "slime"])
      let rolled ← b₁.rollQueue
      return (b₁.phase, rolled.2.triggers.firesLeft)).toOption = some (.start, 4) := by
    decide +kernel
  obtain ⟨facts, h, hfacts⟩ := Fallible.exists_eq_ok_and (f := id) (by simpa using hok)
  simp only [Fallible.bind_eq_ok, Except.ok.injEq] at h
  obtain ⟨b₁, h₁, ⟨queue, c⟩, hqueue, rfl⟩ := h
  obtain ⟨hfirst, hleft⟩ : b₁.phase = .start ∧ c.triggers.firesLeft = 4 := by simpa using hfacts
  have hbounded : ∀ t ∈ swarmed.script, t.event.spawns = true →
      t.once = true ∨ t.maxFires.isSome = true := by
    decide
  have hreaches : Reaches (b₁, .command .start)
      ({ c with queue, turn := 1, index := 0, phase := .turnStart }, .turns) :=
    .single (.start hqueue)
  exact ⟨b₁, _, h₁, hreaches, rfl, hleft,
    settles_of_course hbounded h₁ .refl (fun _ => hfirst) hreaches⟩

end Skirmish.Battle
