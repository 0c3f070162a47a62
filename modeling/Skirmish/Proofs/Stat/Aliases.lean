import Skirmish.Proofs.Table
import Skirmish.Stat.Block

namespace Skirmish.Stat

theorem nodup_canonicalNames : (aliases.map Prod.fst).Nodup := by decide +kernel

theorem canonicalName_notMem_aliases :
    ∀ names ∈ aliases, ∀ others ∈ aliases, names.1 ∉ others.2 := by
  decide +kernel

theorem canonicalName_fst : ∀ names ∈ aliases, canonicalName names.1 = names.1 := by
  decide +kernel

theorem canonicalName_cases (k : String) :
    canonicalName k = k ∨ ∃ names ∈ aliases, canonicalName k = names.1 ∧ k ∈ names.2 := by
  rw [canonicalName]
  split
  next names hfound =>
    have hspells := List.find?_some hfound
    simp only [Bool.or_eq_true, decide_eq_true_eq, List.contains_iff_mem] at hspells
    rcases hspells with hcanonical | halias
    · exact .inl hcanonical
    · exact .inr ⟨names, List.mem_of_find?_eq_some hfound, rfl, halias⟩
  next => exact .inl rfl

theorem canonicalName_idem (k : String) : canonicalName (canonicalName k) = canonicalName k := by
  rcases canonicalName_cases k with hself | ⟨names, hmem, hcanonical, -⟩
  · rw [hself, hself]
  · rw [hcanonical, canonicalName_fst names hmem]

namespace Block

variable {stats block : Block} {names : String × List String} {value : Quantity} {k : String}

/-- The first of the aliases that the block has stands there with the value. -/
def Lends (stats : Block) (others : List String) (value : Quantity) : Prop :=
  ∃ before name after, others = before ++ name :: after ∧ stats.get? name = some value ∧
    ∀ other ∈ before, other ∉ stats.keys

theorem lends_iff {others : List String} :
    stats.Lends others value ↔ others.findSome? stats.get? = some value := by
  have hmissing : ∀ other, stats.get? other = none ↔ other ∉ stats.keys := by
    intro other
    rw [← Table.exists_get?_iff]
    simp [Option.eq_none_iff_forall_ne_some]
  simp only [List.findSome?_eq_some_iff, hmissing, Lends]

def addition? (stats : Block) (names : String × List String) : Option (String × Quantity) :=
  if stats.contains names.1 then none else (names.2.findSome? stats.get?).map (names.1, ·)

theorem addition?_eq_some :
    stats.addition? names = some (k, value) ↔
      k ∉ stats.keys ∧ names.1 = k ∧ stats.Lends names.2 value := by
  rw [addition?, lends_iff]
  by_cases hkey : names.1 ∈ stats.keys
  · rw [if_pos ((Table.contains_iff _ _).2 hkey)]
    refine iff_of_false (by simp) ?_
    rintro ⟨hnew, rfl, -⟩
    exact hnew hkey
  · rw [if_neg (mt (Table.contains_iff _ _).1 hkey), Option.map_eq_some_iff]
    constructor
    · rintro ⟨_, hlent, hentry⟩
      cases hentry
      exact ⟨hkey, rfl, hlent⟩
    · rintro ⟨-, rfl, hlent⟩
      exact ⟨value, hlent, rfl⟩

theorem entries_complete (hsame : names.1 ∈ block.keys ↔ names.1 ∈ stats.keys) :
    (stats.complete block names).entries = block.entries ++ (stats.addition? names).toList := by
  rw [complete, addition?]
  by_cases hkey : names.1 ∈ stats.keys
  · rw [if_pos ((Table.contains_iff _ _).2 (hsame.2 hkey)),
      if_pos ((Table.contains_iff _ _).2 hkey)]
    exact (List.append_nil _).symm
  · have hnew : names.1 ∉ block.keys := mt hsame.1 hkey
    rw [if_neg (mt (Table.contains_iff _ _).1 hnew), if_neg (mt (Table.contains_iff _ _).1 hkey)]
    cases names.2.findSome? stats.get? with
    | none => exact (List.append_nil _).symm
    | some value => exact Table.entries_insert_of_notMem hnew

theorem mem_keys_complete (hsame : names.1 ∈ block.keys ↔ names.1 ∈ stats.keys)
    (hne : k ≠ names.1) : k ∈ (stats.complete block names).keys ↔ k ∈ block.keys := by
  have hother : k ∉ ((stats.addition? names).toList).map Prod.fst := by
    intro hmem
    obtain ⟨entry, hentry, rfl⟩ := List.mem_map.1 hmem
    obtain ⟨-, heq, -⟩ := addition?_eq_some.1 (Option.mem_toList.1 hentry)
    exact hne heq.symm
  simp only [Table.keys, entries_complete hsame, List.map_append, List.mem_append, hother, or_false]

theorem entries_foldl_complete {rest : List (String × List String)}
    (hdistinct : (rest.map Prod.fst).Nodup)
    (hsame : ∀ names ∈ rest, names.1 ∈ block.keys ↔ names.1 ∈ stats.keys) :
    (rest.foldl stats.complete block).entries =
      block.entries ++ rest.filterMap stats.addition? := by
  induction rest generalizing block with
  | nil => exact (List.append_nil _).symm
  | cons names rest ih =>
      rw [List.map_cons, List.nodup_cons] at hdistinct
      have hfirst := hsame names List.mem_cons_self
      have hrest : ∀ others ∈ rest,
          others.1 ∈ (stats.complete block names).keys ↔ others.1 ∈ stats.keys := by
        intro others hmem
        have hne : others.1 ≠ names.1 := fun heq =>
          hdistinct.1 (heq ▸ List.mem_map_of_mem hmem)
        rw [mem_keys_complete hfirst hne]
        exact hsame others (List.mem_cons_of_mem names hmem)
      rw [List.foldl_cons, ih hdistinct.2 hrest, entries_complete hfirst, List.append_assoc]
      cases hadded : stats.addition? names with
      | none => rw [List.filterMap_cons_none hadded, Option.toList_none, List.nil_append]
      | some entry =>
          rw [List.filterMap_cons_some hadded, Option.toList_some, List.singleton_append]

theorem entries_withCanonicalNames (stats : Block) :
    stats.withCanonicalNames.entries = stats.entries ++ aliases.filterMap stats.addition? :=
  entries_foldl_complete nodup_canonicalNames fun _ _ => Iff.rfl

theorem get?_withCanonicalNames_of_get? (h : stats.get? k = some value) :
    stats.withCanonicalNames.get? k = some value := by
  refine Table.get?_of_mem (e := (k, value)) ?_
  rw [entries_withCanonicalNames]
  exact List.mem_append_left _ (Table.mem_of_lookup h)

theorem get?_withCanonicalNames_of_notMem (h : k ∉ stats.keys) :
    stats.withCanonicalNames.get? k = some value ↔
      ∃ others, (k, others) ∈ aliases ∧ stats.Lends others value := by
  have hentry : stats.withCanonicalNames.get? k = some value ↔
      (k, value) ∈ aliases.filterMap stats.addition? := by
    constructor
    · intro hvalue
      have hmem := Table.mem_of_lookup hvalue
      rw [entries_withCanonicalNames, List.mem_append] at hmem
      exact hmem.resolve_left fun hold => h (List.mem_map_of_mem (f := Prod.fst) hold)
    · intro hmem
      refine Table.get?_of_mem (e := (k, value)) ?_
      rw [entries_withCanonicalNames]
      exact List.mem_append_right _ hmem
  simp only [hentry, List.mem_filterMap, addition?_eq_some]
  constructor
  · rintro ⟨⟨_, others⟩, hmem, -, rfl, hlent⟩
    exact ⟨others, hmem, hlent⟩
  · rintro ⟨others, hmem, hlent⟩
    exact ⟨(k, others), hmem, h, rfl, hlent⟩

theorem mem_keys_withCanonicalNames (h : k ∈ stats.keys) : k ∈ stats.withCanonicalNames.keys := by
  obtain ⟨value, hvalue⟩ := Table.exists_get?_iff.2 h
  exact Table.exists_get?_iff.1 ⟨value, get?_withCanonicalNames_of_get? hvalue⟩

theorem mem_keys_of_lends (hnames : names ∈ aliases) (hlent : stats.Lends names.2 value) :
    names.1 ∈ stats.withCanonicalNames.keys := by
  by_cases hkey : names.1 ∈ stats.keys
  · exact mem_keys_withCanonicalNames hkey
  · refine Table.exists_get?_iff.1 ⟨value, ?_⟩
    exact (get?_withCanonicalNames_of_notMem hkey).2 ⟨names.2, hnames, hlent⟩

theorem canonicalName_mem_keys (h : k ∈ stats.keys) :
    canonicalName k ∈ stats.withCanonicalNames.keys := by
  rcases canonicalName_cases k with hself | ⟨names, hnames, hcanonical, halias⟩
  · rw [hself]
    exact mem_keys_withCanonicalNames h
  · obtain ⟨value, hvalue⟩ := Table.exists_get?_iff.2 h
    have hsome : (names.2.findSome? stats.get?).isSome := by
      rw [List.findSome?_isSome_iff]
      exact ⟨k, halias, by rw [hvalue]; rfl⟩
    obtain ⟨lent, hlent⟩ := Option.isSome_iff_exists.1 hsome
    rw [hcanonical]
    exact mem_keys_of_lends hnames (lends_iff.2 hlent)

/-- No alias is added, so the completed block lends what the block lends. -/
theorem get?_withCanonicalNames_alias (hnames : names ∈ aliases) (hk : k ∈ names.2) :
    stats.withCanonicalNames.get? k = stats.get? k := by
  by_cases hkey : k ∈ stats.keys
  · obtain ⟨value, hvalue⟩ := Table.exists_get?_iff.2 hkey
    rw [hvalue, get?_withCanonicalNames_of_get? hvalue]
  · rw [Table.get?_of_notMem hkey, Option.eq_none_iff_forall_ne_some]
    intro value hvalue
    obtain ⟨others, hmem, -⟩ := (get?_withCanonicalNames_of_notMem hkey).1 hvalue
    exact canonicalName_notMem_aliases (k, others) hmem names hnames hk

theorem lends_withCanonicalNames (hnames : names ∈ aliases) :
    stats.withCanonicalNames.Lends names.2 value ↔ stats.Lends names.2 value := by
  have hsame : names.2.map stats.withCanonicalNames.get? = names.2.map stats.get? :=
    List.map_congr_left fun k hk => get?_withCanonicalNames_alias hnames hk
  have hfind : ∀ block : Block,
      names.2.findSome? block.get? = (names.2.map block.get?).findSome? id := by
    intro block
    rw [List.findSome?_map]
    rfl
  rw [lends_iff, lends_iff, hfind, hsame, ← hfind]

theorem withCanonicalNames_idem (stats : Block) :
    stats.withCanonicalNames.withCanonicalNames = stats.withCanonicalNames := by
  have hnothing : aliases.filterMap stats.withCanonicalNames.addition? = [] := by
    refine List.filterMap_eq_nil_iff.2 fun names hnames => ?_
    rw [Option.eq_none_iff_forall_ne_some]
    rintro ⟨k, value⟩ hadded
    obtain ⟨hnew, rfl, hlent⟩ := addition?_eq_some.1 hadded
    exact hnew (mem_keys_of_lends hnames ((lends_withCanonicalNames hnames).1 hlent))
  have hentries := entries_withCanonicalNames stats.withCanonicalNames
  rw [hnothing, List.append_nil] at hentries
  rw [← Table.ofList_entries stats.withCanonicalNames.withCanonicalNames, hentries,
    Table.ofList_entries]

structure Canonized (stats block : Block) : Prop where
  keeps : ∀ k value, stats.get? k = some value → block.get? k = some value
  adds : ∀ k value, k ∉ stats.keys →
    (block.get? k = some value ↔ ∃ others, (k, others) ∈ aliases ∧ stats.Lends others value)
  complete : ∀ k ∈ stats.keys, canonicalName k ∈ block.keys
  settled : block.withCanonicalNames = block

/-- Whatever spellings a block mixes: all that it holds is kept, and what is added are the canonical
names that it lacks, each with the value of its first alias there; nothing is left to be added, and
a canonical name is its own one. -/
theorem canonized_withCanonicalNames (stats : Block) :
    Canonized stats stats.withCanonicalNames ∧
      ∀ k, canonicalName (canonicalName k) = canonicalName k := by
  refine ⟨⟨?_, ?_, ?_, withCanonicalNames_idem stats⟩, canonicalName_idem⟩
  · exact fun k value => get?_withCanonicalNames_of_get?
  · exact fun k value => get?_withCanonicalNames_of_notMem
  · exact fun k => canonicalName_mem_keys

end Block

end Skirmish.Stat
