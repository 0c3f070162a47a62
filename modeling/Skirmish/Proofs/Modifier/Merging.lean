import Skirmish.Proofs.Modifier.Bonus
import Skirmish.Proofs.Number.Level

namespace Skirmish.Modifier.Effect

variable {seen es : List Effect} {sums : Table Sums} {e : Effect} {stat : String} {isFlat : Bool}

def total (stat : String) (isFlat : Bool) (es : List Effect) : Float :=
  (es.filter fun e => e.stat = stat ∧ e.mode.isFlat = isFlat).foldl
    (fun x e => x + e.value.nearest) 0

def ofTotal (stat : String) (mode : Mode) (x : Float) : List Effect :=
  if x == 0 then [] else [⟨stat, mode, .real x⟩]

def summary (es : List Effect) (stat : String) : List Effect :=
  ofTotal stat .flat (total stat true es) ++ ofTotal stat .percent (total stat false es)

/-- The stats in the order in which they are mentioned first, each with its totals. -/
def merged (es : List Effect) : List Effect :=
  (es.map Effect.stat).eraseDups.flatMap (summary es)

theorem total_concat :
    total stat isFlat (seen ++ [e]) =
      if e.stat = stat ∧ e.mode.isFlat = isFlat then total stat isFlat seen + e.value.nearest
      else total stat isFlat seen := by
  rw [total, List.filter_append, List.foldl_append]
  by_cases h : e.stat = stat ∧ e.mode.isFlat = isFlat
  · rw [List.filter_cons_of_pos (by simpa using h), if_pos h]
    rfl
  · rw [List.filter_cons_of_neg (by simpa using h), if_neg h]
    rfl

def totals (es : List Effect) (stat : String) : Sums :=
  ⟨.real (total stat true es), .real (total stat false es)⟩

theorem sum_totals : (totals es stat).sum isFlat = .real (total stat isFlat es) := by
  cases isFlat <;> rfl

theorem effects_totals : (totals es stat).effects stat = summary es stat := by
  rw [Sums.effects, totals, Quantity.isZero_real, Quantity.isZero_real]
  rfl

theorem totals_concat_of_ne (h : stat ≠ e.stat) : totals (seen ++ [e]) stat = totals seen stat := by
  refine Sums.eq_of_sum_eq fun isFlat => ?_
  rw [sum_totals, sum_totals, total_concat, if_neg fun h' => h h'.1.symm]

theorem add_totals (h : e.value.Fits) :
    (totals seen e.stat).add e = .ok (totals (seen ++ [e]) e.stat) := by
  rw [Sums.add_eq, sum_totals, Quantity.add, Quantity.combine_real_left,
    Quantity.toFloat_of_fits h]
  refine congrArg Except.ok (Sums.eq_of_sum_eq fun isFlat => ?_)
  rw [Sums.sum_put, sum_totals, sum_totals, total_concat]
  by_cases hmode : e.mode.isFlat = isFlat
  · rw [if_pos hmode, if_pos ⟨rfl, hmode⟩, hmode]
  · rw [if_neg hmode, if_neg fun h => hmode h.2]

theorem add_totals_of_not_fits (h : ¬e.value.Fits) :
    (totals seen stat).add e = .error .overflow := by
  rw [Sums.add_eq, sum_totals, Quantity.add, Quantity.combine_real_left,
    Quantity.toFloat_of_not_fits h]
  rfl

/-- A table that holds the running sums after some effects, and nothing else. -/
structure Gathers (seen : List Effect) (sums : Table Sums) : Prop where
  keys_eq : sums.keys = (seen.map Effect.stat).eraseDups
  getD_eq (stat : String) : sums.getD stat {} = totals seen stat

namespace Gathers

theorem nil : Gathers [] {} := ⟨rfl, fun _ => rfl⟩

theorem concat (h : Gathers seen sums) (e : Effect) :
    Gathers (seen ++ [e]) (sums.insert e.stat (totals (seen ++ [e]) e.stat)) where
  keys_eq := by
    rw [List.map_append]
    exact Table.keys_insert_of_eraseDups h.keys_eq e.stat _
  getD_eq stat := by
    rw [Table.getD_insert]
    by_cases hstat : stat = e.stat
    · rw [if_pos hstat, hstat]
    · rw [if_neg hstat, h.getD_eq, totals_concat_of_ne hstat]

theorem collect (h : Gathers seen sums) (hes : ∀ e ∈ es, e.value.Fits) :
    ∃ sums', Effect.collect sums es = .ok sums' ∧ Gathers (seen ++ es) sums' := by
  induction es generalizing seen sums with
  | nil => exact ⟨sums, rfl, by rwa [List.append_nil]⟩
  | cons e es ih =>
      -- The rest of the walk starts from a table that has gathered this effect, too.
      rw [List.forall_mem_cons] at hes
      obtain ⟨sums', hcollect, hsums'⟩ := ih (h.concat e) hes.2
      rw [List.append_assoc, List.singleton_append] at hsums'
      refine ⟨sums', ?_, hsums'⟩
      rw [Effect.collect, h.getD_eq, add_totals hes.1]
      exact hcollect

theorem collect_overflows (h : Gathers seen sums) (he : e ∈ es) (hlarge : ¬e.value.Fits) :
    Effect.collect sums es = .error .overflow := by
  induction es generalizing seen sums with
  | nil => cases he
  | cons d es ih =>
      rw [Effect.collect, h.getD_eq]
      by_cases hd : d.value.Fits
      · have hrest : e ∈ es := by
          refine (List.mem_cons.1 he).resolve_left ?_
          rintro rfl
          exact hlarge hd
        rw [add_totals hd]
        exact ih (h.concat d) hrest
      · rw [add_totals_of_not_fits hd]
        rfl

theorem flatMap_entries (h : Gathers seen sums) :
    sums.entries.flatMap (fun e => e.2.effects e.1) = merged seen := by
  rw [Table.entries_eq_map_keys sums {}, List.flatMap_map, h.keys_eq]
  simp only [h.getD_eq, effects_totals]
  rfl

end Gathers

theorem collect_append {fs : List Effect} :
    collect sums (es ++ fs) = collect sums es >>= fun sums => collect sums fs := by
  induction es generalizing sums with
  | nil => rfl
  | cons e es ih =>
      rw [List.cons_append, collect, collect]
      cases (sums.getD e.stat {}).add e with
      | error cause => rfl
      | ok s => exact ih

theorem foldlM_collect (lists : List (List Effect)) :
    lists.foldlM collect sums = collect sums lists.flatten := by
  induction lists generalizing sums with
  | nil => rfl
  | cons es lists ih =>
      rw [List.foldlM_cons, List.flatten_cons, collect_append]
      simp only [ih]

theorem kinds_ofTotal (stat : String) (mode : Mode) (x : Float) :
    ((ofTotal stat mode x).map fun e => (e.stat, e.mode)).Sublist [(stat, mode)] := by
  rw [ofTotal]
  split
  · exact List.nil_sublist _
  · exact List.Sublist.refl _

theorem kinds_summary (es : List Effect) (stat : String) :
    ((summary es stat).map fun e => (e.stat, e.mode)).Sublist
      [(stat, .flat), (stat, .percent)] := by
  rw [summary, List.map_append]
  exact (kinds_ofTotal stat .flat _).append (kinds_ofTotal stat .percent _)

theorem nodup_merged (es : List Effect) : ((merged es).map fun e => (e.stat, e.mode)).Nodup := by
  have hstat : ∀ stat, ∀ kind ∈ (summary es stat).map fun e => (e.stat, e.mode), kind.1 = stat := by
    intro stat kind hkind
    have hmem := (kinds_summary es stat).subset hkind
    simp only [List.mem_cons, List.not_mem_nil, or_false] at hmem
    rcases hmem with rfl | rfl <;> rfl
  rw [merged, List.map_flatMap, List.nodup_flatMap]
  constructor
  · intro stat _
    exact (kinds_summary es stat).nodup (by simp)
  · refine (nodup_eraseDups _).imp fun hne kind hkind hkind' => ?_
    exact hne ((hstat _ kind hkind).symm.trans (hstat _ kind hkind'))

theorem merge_eq (lists : List (List Effect)) :
    merge lists = collect {} lists.flatten >>= fun sums =>
      .ok (sums.entries.flatMap fun e => e.2.effects e.1) := by
  rw [merge, foldlM_collect]
  rfl

/-- Lists of effects merge into what each stat comes to by itself, unless a value is an integer that
no float can hold. No stat has two effects of one kind, and it does not matter how the effects were
grouped into lists. -/
theorem merge_eq_merged (lists : List (List Effect)) :
    (merge lists =
        if ∀ e ∈ lists.flatten, e.value.Fits then .ok (merged lists.flatten)
        else .error .overflow) ∧
      ((merged lists.flatten).map fun e => (e.stat, e.mode)).Nodup ∧
      ∀ lists', lists'.flatten = lists.flatten → merge lists' = merge lists := by
  refine ⟨?_, nodup_merged _, fun lists' hsame => ?_⟩
  · rw [merge_eq]
    split
    next hfits =>
      obtain ⟨sums, hcollect, hsums⟩ := Gathers.nil.collect hfits
      rw [hcollect, Fallible.ok_bind, hsums.flatMap_entries]
      rfl
    next hlarge =>
      simp only [not_forall, exists_prop] at hlarge
      obtain ⟨e, he, hlarge⟩ := hlarge
      rw [Gathers.nil.collect_overflows he hlarge]
      rfl
  · rw [merge_eq, merge_eq, hsame]

def charms : List (List Effect) :=
  [[⟨"Luck", .percent, 10⟩, ⟨"Attack", .flat, 5⟩, ⟨"Luck", .flat, .real 2.5⟩],
    [⟨"Attack", .flat, .whole (-5)⟩, ⟨"Luck", .flat, .real 0.5⟩, ⟨"Speed", .ofName "aura", 4⟩]]

theorem merge_eq_merged_charms :
    ∃ result, merge charms = .ok result ∧
      result.map (fun e => (e.stat, e.mode, e.value.nearest)) =
        [("Luck", .flat, 3), ("Luck", .percent, 10), ("Speed", .percent, 4)] ∧
      merge [charms.flatten] = merge charms := by
  obtain ⟨hmerge, -, hgrouping⟩ := merge_eq_merged charms
  rw [if_pos (by decide +kernel)] at hmerge
  exact ⟨merged charms.flatten, hmerge, by decide +kernel, hgrouping [charms.flatten] rfl⟩

end Skirmish.Modifier.Effect
