import Mathlib.Data.List.Nodup
import Mathlib.Data.Nat.Find
import Skirmish.Battle.Command
import Skirmish.Proofs.Battle.Muster
import Skirmish.Proofs.Table

namespace Skirmish.Battle

theorem append_cons_inj_of_notMem {α : Type} {x : α} {as bs cs ds : List α}
    (h : as ++ x :: cs = bs ++ x :: ds) (hc : x ∉ cs) (hd : x ∉ ds) : as = bs ∧ cs = ds := by
  rcases List.append_eq_append_iff.1 h with ⟨more, rfl, htail⟩ | ⟨more, rfl, htail⟩
  · cases more with
    | nil => simpa using htail
    | cons y more =>
        simp only [List.cons_append, List.cons.injEq] at htail
        exact absurd (by simp [htail.2]) hc
  · cases more with
    | nil => simpa [eq_comm] using htail
    | cons y more =>
        simp only [List.cons_append, List.cons.injEq] at htail
        exact absurd (by simp [htail.2]) hd

/-- A number has no underscore, so a numbered id is cut at its last one. -/
theorem numbered_injective {id id' : String} {n n' : Nat} (h : numbered id n = numbered id' n') :
    id = id' ∧ n = n' := by
  have hlist : id.toList ++ '_' :: Nat.toDigits 10 n = id'.toList ++ '_' :: Nat.toDigits 10 n' := by
    simpa [numbered] using congrArg String.toList h
  obtain ⟨hid, hn⟩ := append_cons_inj_of_notMem hlist Nat.underscore_not_in_toDigits
    Nat.underscore_not_in_toDigits
  refine ⟨String.toList_injective hid, ?_⟩
  rw [← Nat.ofDigitChars_ten_toDigits (n := n), hn, Nat.ofDigitChars_ten_toDigits]

/-- The ids that enemies are given, after those with the declared ids `seen`. -/
def labels (seen : List String) : List Enemy → List String
  | [] => []
  | e :: es =>
    (if seen.contains e.id then numbered e.id seen.length else e.id) :: labels (seen ++ [e.id]) es

theorem length_labels (seen : List String) (es : List Enemy) :
    (labels seen es).length = es.length := by
  induction es generalizing seen with
  | nil => rfl
  | cons e es ih => simp [labels, ih]

theorem getElem?_labels {seen : List String} {es : List Enemy} {i : Nat} (h : i < es.length) :
    (labels seen es)[i]? = some
      (if es[i].id ∈ seen ++ (es.take i).map Enemy.id then numbered es[i].id (seen.length + i)
      else es[i].id) := by
  induction es generalizing seen i with
  | nil => simp at h
  | cons e es ih =>
      cases i with
      | zero => simp [labels]
      | succ i =>
          have hi : i < es.length := by simpa using h
          simp [labels, ih hi, Nat.add_assoc, Nat.add_comm 1 i]

/-- The ids of the list are told apart: none is the player's, and the number that a repeated one
gets makes neither the player's id nor a declared one. -/
def Separate (c : Character) (es : List Enemy) : Prop :=
  (∀ e ∈ es, e.id ≠ c.id) ∧
    ∀ i (h : i < es.length), es[i].id ∈ (es.take i).map Enemy.id →
      numbered es[i].id i ≠ c.id ∧ ∀ e ∈ es, e.id ≠ numbered es[i].id i

instance (c : Character) (es : List Enemy) : Decidable (Separate c es) :=
  inferInstanceAs (Decidable (_ ∧ _))

theorem label_of_first {es : List Enemy} {i : Nat} (h : i < es.length)
    (hfirst : es[i].id ∉ (es.take i).map Enemy.id) :
    (labels [] es)[i]? = some es[i].id := by
  rw [getElem?_labels h, List.nil_append, if_neg hfirst]

theorem label_of_repeated {es : List Enemy} {i : Nat} (h : i < es.length)
    (hrep : es[i].id ∈ (es.take i).map Enemy.id) :
    (labels [] es)[i]? = some (numbered es[i].id i) := by
  rw [getElem?_labels h, List.nil_append, if_pos hrep, List.length_nil, Nat.zero_add]

theorem mem_take_of_lt {es : List Enemy} {i j : Nat} (hi : i < es.length) (hij : i < j) :
    es[i].id ∈ (es.take j).map Enemy.id := by
  refine List.mem_map_of_mem (List.mem_iff_getElem.2 ⟨i, ?_, List.getElem_take⟩)
  rw [List.length_take]
  omega

theorem exists_first {es : List Enemy} {e : Enemy} (he : e ∈ es) :
    ∃ k, ∃ h : k < es.length, es[k].id = e.id ∧ es[k].id ∉ (es.take k).map Enemy.id := by
  classical
  obtain ⟨j, hj, rfl⟩ := List.mem_iff_getElem.1 he
  have hex : ∃ k, ∃ h : k < es.length, es[k].id = es[j].id := ⟨j, hj, rfl⟩
  obtain ⟨hk, hid⟩ := Nat.find_spec hex
  refine ⟨Nat.find hex, hk, hid, ?_⟩
  intro hmem
  obtain ⟨d, hd, hdid⟩ := List.mem_map.1 hmem
  obtain ⟨m, hm, rfl⟩ := List.mem_iff_getElem.1 hd
  obtain ⟨hmk, hmlength⟩ := Nat.lt_min.1 (List.length_take ▸ hm)
  exact Nat.find_min hex hmk ⟨hmlength, by rw [← hid, ← hdid, List.getElem_take]⟩

theorem nodup_labels {c : Character} {es : List Enemy} (h : Separate c es) :
    (labels [] es).Nodup := by
  refine List.nodup_iff_getElem?_ne_getElem?.2 fun i j hij hj => ?_
  rw [length_labels] at hj
  have hi : i < es.length := Nat.lt_trans hij hj
  by_cases hirep : es[i].id ∈ (es.take i).map Enemy.id <;>
    by_cases hjrep : es[j].id ∈ (es.take j).map Enemy.id
  · rw [label_of_repeated hi hirep, label_of_repeated hj hjrep]
    exact fun heq => Nat.ne_of_lt hij (numbered_injective (Option.some.inj heq)).2
  · rw [label_of_repeated hi hirep, label_of_first hj hjrep]
    exact fun heq => (h.2 i hi hirep).2 _ (List.getElem_mem hj) (Option.some.inj heq).symm
  · rw [label_of_first hi hirep, label_of_repeated hj hjrep]
    exact fun heq => (h.2 j hj hjrep).2 _ (List.getElem_mem hi) (Option.some.inj heq)
  · rw [label_of_first hi hirep, label_of_first hj hjrep]
    exact fun heq => hjrep (Option.some.inj heq ▸ mem_take_of_lt hi hij)

theorem playerId_notMem_labels {c : Character} {es : List Enemy} (h : Separate c es) :
    c.id ∉ labels [] es := by
  intro hmem
  obtain ⟨i, hlabel⟩ := List.mem_iff_getElem?.1 hmem
  obtain ⟨hi, -⟩ := List.getElem?_eq_some_iff.1 hlabel
  rw [length_labels] at hi
  by_cases hrep : es[i].id ∈ (es.take i).map Enemy.id
  · rw [label_of_repeated hi hrep] at hlabel
    exact (h.2 i hi hrep).1 (Option.some.inj hlabel)
  · rw [label_of_first hi hrep] at hlabel
    exact h.1 _ (List.getElem_mem hi) (Option.some.inj hlabel)

theorem separate_of_nodup {c : Character} {es : List Enemy} (h : (c.id :: labels [] es).Nodup) :
    Separate c es := by
  obtain ⟨hplayer, hlabels⟩ := List.nodup_cons.1 h
  constructor
  · intro e he heq
    obtain ⟨k, hk, hid, hfirst⟩ := exists_first he
    have hlabel := label_of_first hk hfirst
    rw [hid, heq] at hlabel
    exact hplayer (List.mem_of_getElem? hlabel)
  · intro i hi hrep
    have hlabel := label_of_repeated hi hrep
    refine ⟨fun heq => hplayer (List.mem_of_getElem? (heq ▸ hlabel)), fun e he heq => ?_⟩
    -- The first place of the declared id cannot be the place of the repeated one.
    obtain ⟨k, hk, hid, hfirst⟩ := exists_first he
    have hsame : (labels [] es)[k]? = (labels [] es)[i]? := by
      rw [label_of_first hk hfirst, hlabel, hid, heq]
    have hlt : k < (labels [] es).length := by rwa [length_labels]
    obtain rfl := (List.getElem?_inj hlt hlabels).1 hsame
    exact hfirst hrep

theorem nodup_cons_labels_iff {c : Character} {es : List Enemy} :
    (c.id :: labels [] es).Nodup ↔ Separate c es :=
  ⟨separate_of_nodup, fun h => List.nodup_cons.2 ⟨playerId_notMem_labels h, nodup_labels h⟩⟩

theorem enrollAll_eq_ok {b b' : Battle} {seen : List String} {es : List Enemy}
    (h : b.enrollAll seen es = .ok b') :
    ∃ fs, List.Forall₂ (fun e f => recruitEnemy b e f.id = .ok f) es fs ∧
      fs.map Fighter.id = labels seen es ∧
      b' = { b with
        fighters := b.fighters.insertAll (fs.map fun f => (f.id, f))
        origins := b.origins.insertAll ((fs.map Fighter.id).zip es) } := by
  induction es generalizing b seen with
  | nil =>
      obtain rfl : b = b' := by simpa [enrollAll] using h
      exact ⟨[], .nil, rfl, rfl⟩
  | cons e es ih =>
      simp only [enrollAll, enroll, Fallible.bind_eq_ok, Fallible.leaving_eq_ok, Fallible.pure_eq,
        Except.ok.injEq] at h
      obtain ⟨_, ⟨f, hf, rfl⟩, h⟩ := h
      obtain ⟨fs, hfs, hids, rfl⟩ := ih h
      have hid := (recruitEnemy_side hf).1
      refine ⟨f :: fs, .cons (by rwa [hid]) hfs, by rw [List.map_cons, hids, hid, labels], ?_⟩
      simp [setFighter, Table.insertAll, hid]

/-- All take the field: the player, and for each place of the list an enemy of its own. -/
def Fielded (b : Battle) (c : Character) (es : List Enemy) (b' : Battle) : Prop :=
  ∃ p fs, recruitPlayer b c = .ok p ∧ p.isPlayer = true ∧
    List.Forall₂ (fun e f => recruitEnemy b e f.id = .ok f ∧ f.isPlayer = false) es fs ∧
    ((p :: fs).map Fighter.id).Nodup ∧
    b'.fighters.entries = (p :: fs).map (fun f => (f.id, f)) ∧
    b'.origins.entries = (fs.map Fighter.id).zip es

theorem assemble_eq_ok {b b' : Battle} {player : Option Character} {enemies : Option (List Enemy)}
    (h : b.assemble player enemies = .ok b') :
    ∃ p fs, recruitPlayer b (player.getD b.game.player) = .ok p ∧
      List.Forall₂ (fun e f => recruitEnemy b e f.id = .ok f) (enemies.getD b.sceneEnemies) fs ∧
      fs.map Fighter.id = labels [] (enemies.getD b.sceneEnemies) ∧
      b'.fighters = (Table.empty.insert p.id p).insertAll (fs.map fun f => (f.id, f)) ∧
      b'.origins =
        Table.empty.insertAll ((fs.map Fighter.id).zip (enemies.getD b.sceneEnemies)) := by
  simp only [assemble, Fallible.bind_eq_ok, Fallible.leaving_eq_ok, Fallible.pure_eq,
    Except.ok.injEq] at h
  obtain ⟨p, hp, joined, hjoined, rfl⟩ := h
  obtain ⟨fs, hfs, hids, rfl⟩ := enrollAll_eq_ok hjoined
  exact ⟨p, fs, hp, hfs, hids, rfl, rfl⟩

section

variable {b b' : Battle} {player : Option Character} {enemies : Option (List Enemy)}
  {p : Fighter} {fs : List Fighter} {c : Character} {es : List Enemy}

theorem ids_eq (hp : recruitPlayer b c = .ok p) (hids : fs.map Fighter.id = labels [] es) :
    (p :: fs).map Fighter.id = c.id :: labels [] es := by
  rw [List.map_cons, hids, (recruitPlayer_side hp).1]

theorem fielded_of_separate
    (h : b.assemble player enemies = .ok b')
    (hsep : Separate (player.getD b.game.player) (enemies.getD b.sceneEnemies)) :
    Fielded b (player.getD b.game.player) (enemies.getD b.sceneEnemies) b' := by
  obtain ⟨p, fs, hp, hfs, hids, hfighters, horigins⟩ := assemble_eq_ok h
  have hnodup : ((p :: fs).map Fighter.id).Nodup := by
    rw [ids_eq hp hids]
    exact nodup_cons_labels_iff.2 hsep
  have hlength : fs.length = (enemies.getD b.sceneEnemies).length := hfs.length_eq.symm
  refine ⟨p, fs, hp, (recruitPlayer_side hp).2, ?_, hnodup, ?_, ?_⟩
  · exact hfs.imp fun e f hf => ⟨hf, (recruitEnemy_side hf).2⟩
  · rw [hfighters]
    exact Table.entries_insertAll (t := Table.empty.insert p.id p)
      (by simpa [Table.insert, Table.empty, Table.put, Function.comp_def] using hnodup)
  · rw [horigins, Table.entries_insertAll (t := Table.empty)]
    · rfl
    · simpa [Table.empty, List.map_fst_zip, hlength] using (List.nodup_cons.1 hnodup).2

theorem separate_of_fielded
    (h : b.assemble player enemies = .ok b')
    (hfield : Fielded b (player.getD b.game.player) (enemies.getD b.sceneEnemies) b') :
    Separate (player.getD b.game.player) (enemies.getD b.sceneEnemies) := by
  obtain ⟨p, fs, hp, hfs, hids, hfighters, -⟩ := assemble_eq_ok h
  obtain ⟨q, gs, -, -, hgs, -, hentries, -⟩ := hfield
  have hsize : b'.fighters.size = (Table.empty.insert p.id p).size +
      (fs.map fun f => (f.id, f)).length := by
    rw [Table.size, hentries]
    simp [Table.size, Table.insert, Table.empty, Table.put, ← hfs.length_eq, ← hgs.length_eq,
      Nat.add_comm]
  have hnodup := Table.nodup_of_size_insertAll (hfighters ▸ hsize)
  refine separate_of_nodup ?_
  rw [← ids_eq hp hids]
  simpa [Table.insert, Table.empty, Table.put, Function.comp_def] using hnodup

/-- Nobody is lost on the way to the field exactly where the ids of the list are told apart. -/
theorem fielded_iff_separate (h : b.assemble player enemies = .ok b') :
    Fielded b (player.getD b.game.player) (enemies.getD b.sceneEnemies) b' ↔
      Separate (player.getD b.game.player) (enemies.getD b.sceneEnemies) :=
  ⟨separate_of_fielded h, fielded_of_separate h⟩

end

theorem fielded_iff_separate_slimes :
    ∃ b', (plain none).assemble none (some (["slime", "slime"].map .plain)) = .ok b' ∧
      (Fielded (plain none) (.plain "hero") (["slime", "slime"].map .plain) b' ↔
        Separate (.plain "hero") (["slime", "slime"].map .plain)) := by
  have hok : ((plain none).assemble none (some (["slime", "slime"].map .plain))).isOk = true := by
    decide +kernel
  obtain ⟨b', hb'⟩ := Fallible.exists_eq_ok hok
  exact ⟨b', hb', fielded_iff_separate hb'⟩

/-- The number of the second enemy makes the id that the third one declares. -/
theorem not_fielded_slimes :
    ∃ b', (plain none).assemble none (some (["slime", "slime", "slime_1"].map .plain)) = .ok b' ∧
      b'.fighters.keys = ["hero", "slime", "slime_1"] ∧
      ¬ Fielded (plain none) (.plain "hero") (["slime", "slime", "slime_1"].map .plain) b' := by
  have hkeys : ((plain none).assemble none
      (some (["slime", "slime", "slime_1"].map .plain))).toOption.map (fun b => b.fighters.keys) =
      some ["hero", "slime", "slime_1"] := by
    decide +kernel
  obtain ⟨b', hb', hkeys⟩ := Fallible.exists_eq_ok_and hkeys
  refine ⟨b', hb', hkeys, fun hfield => ?_⟩
  have hsep := separate_of_fielded hb' hfield
  exact absurd hsep (by decide +kernel)

end Skirmish.Battle
