import Mathlib.Data.List.Nodup
import Mathlib.Data.List.Perm.Subperm
import Skirmish.Table

namespace Skirmish

theorem nodup_eraseDups {α : Type} [BEq α] [LawfulBEq α] (xs : List α) : xs.eraseDups.Nodup := by
  match xs with
  | [] => simp
  | x :: xs =>
    have hshorter : (xs.filter fun y => !y == x).length ≤ xs.length := List.length_filter_le _ _
    rw [List.eraseDups_cons, List.nodup_cons]
    exact ⟨by simp, nodup_eraseDups _⟩
termination_by xs.length

theorem eraseDups_concat {α : Type} [DecidableEq α] (xs : List α) (x : α) :
    (xs ++ [x]).eraseDups = if x ∈ xs then xs.eraseDups else xs.eraseDups ++ [x] := by
  rw [List.eraseDups_append]
  by_cases h : x ∈ xs
  · simp [List.removeAll, h]
  · simp [List.removeAll, List.eraseDups_cons, h]

namespace Table

variable {α : Type}

theorem put_of_notMem {k : String} {a : α} {es : List (String × α)} (h : k ∉ es.map Prod.fst) :
    put k a es = es ++ [(k, a)] := by
  induction es with
  | nil => rfl
  | cons e es ih =>
      simp only [List.map_cons, List.mem_cons, not_or] at h
      simp [put, Ne.symm h.1, ih h.2]

theorem entries_insert_of_notMem {t : Table α} {k : String} {a : α} (h : k ∉ t.keys) :
    (t.insert k a).entries = t.entries ++ [(k, a)] := put_of_notMem h

theorem mem_keys_insert {t : Table α} {k x : String} {a : α} :
    x ∈ (t.insert k a).keys ↔ x = k ∨ x ∈ t.keys := mem_keys_put

def insertAll (t : Table α) (es : List (String × α)) : Table α :=
  es.foldl (fun t e => t.insert e.1 e.2) t

theorem mem_keys_insertAll {es : List (String × α)} {t : Table α} {k : String} :
    k ∈ (t.insertAll es).keys ↔ k ∈ t.keys ∨ k ∈ es.map Prod.fst := by
  induction es generalizing t with
  | nil => simp [insertAll]
  | cons e es ih =>
      have h := @ih (t.insert e.1 e.2)
      simp only [insertAll, List.foldl_cons, List.map_cons, List.mem_cons] at h ⊢
      rw [h, mem_keys_insert, or_assoc, or_left_comm]

theorem entries_insertAll {es : List (String × α)} {t : Table α}
    (h : ((t.entries ++ es).map Prod.fst).Nodup) : (t.insertAll es).entries = t.entries ++ es := by
  induction es generalizing t with
  | nil => simp [insertAll]
  | cons e es ih =>
      have hnew : e.1 ∉ t.keys := by
        intro hmem
        rw [List.map_append, List.nodup_append] at h
        exact h.2.2 e.1 hmem e.1 (by simp) rfl
      have hinsert := entries_insert_of_notMem (a := e.2) hnew
      have htail := @ih (t.insert e.1 e.2) (by simpa [hinsert] using h)
      simpa [insertAll, hinsert] using htail

theorem nodup_of_size_insertAll {es : List (String × α)} {t : Table α}
    (h : (t.insertAll es).size = t.size + es.length) : ((t.entries ++ es).map Prod.fst).Nodup := by
  have hsub : (t.insertAll es).keys ⊆ (t.entries ++ es).map Prod.fst := by
    intro k hk
    rw [List.map_append, List.mem_append]
    exact mem_keys_insertAll.1 hk
  have hlength : ((t.entries ++ es).map Prod.fst).length ≤ (t.insertAll es).keys.length := by
    simpa [keys, size] using Nat.le_of_eq h.symm
  have hperm := (List.subperm_of_subset (t.insertAll es).nodup hsub).perm_of_length_le hlength
  exact hperm.nodup_iff.1 (t.insertAll es).nodup

theorem entries_ofList {es : List (String × α)} (h : (es.map Prod.fst).Nodup) :
    (ofList es).entries = es := entries_insertAll (t := empty) h

theorem ofList_entries (t : Table α) : ofList t.entries = t := by
  have h := entries_ofList t.nodup
  generalize ofList t.entries = u at h
  cases u
  cases h
  rfl

theorem lookup_of_mem {es : List (String × α)} (h : (es.map Prod.fst).Nodup)
    {e : String × α} (he : e ∈ es) : lookup e.1 es = some e.2 := by
  induction es with
  | nil => cases he
  | cons d es ih =>
      simp only [List.map_cons, List.nodup_cons] at h
      rcases List.mem_cons.1 he with rfl | he
      · simp [lookup]
      · have hne : d.1 ≠ e.1 := fun hd => h.1 (hd ▸ List.mem_map_of_mem he)
        simp [lookup, hne, ih h.2 he]

theorem mem_of_lookup {k : String} {a : α} {es : List (String × α)} (h : lookup k es = some a) :
    (k, a) ∈ es := by
  induction es with
  | nil => cases h
  | cons e es ih =>
      rw [lookup] at h
      split at h
      next hk =>
        cases h
        exact hk ▸ List.mem_cons_self ..
      next => exact .tail _ (ih h)

theorem lookup_append (k : String) (es fs : List (String × α)) :
    lookup k (es ++ fs) = (lookup k es).or (lookup k fs) := by
  induction es with
  | nil => rfl
  | cons e es ih =>
      by_cases hk : e.1 = k
      · simp [lookup, hk]
      · simpa [lookup, hk] using ih

theorem lookup_foldl_put (k : String) (es init : List (String × α)) :
    lookup k (es.foldl (fun es e => put e.1 e.2 es) init) =
      (lookup k es.reverse).or (lookup k init) := by
  induction es generalizing init with
  | nil => rfl
  | cons e es ih =>
      rw [List.foldl_cons, ih, lookup_put, List.reverse_cons, lookup_append, Option.or_assoc]
      by_cases hk : k = e.1
      · simp [lookup, hk]
      · simp [lookup, hk, Ne.symm hk]

theorem lookup_reverse {es : List (String × α)} (h : (es.map Prod.fst).Nodup) (k : String) :
    lookup k es.reverse = lookup k es := by
  have hreverse : (es.reverse.map Prod.fst).Nodup := by
    rw [List.map_reverse]
    exact List.nodup_reverse.2 h
  refine Option.ext fun a => ⟨fun ha => ?_, fun ha => ?_⟩
  · exact lookup_of_mem h (List.mem_reverse.1 (mem_of_lookup ha))
  · exact lookup_of_mem hreverse (List.mem_reverse.2 (mem_of_lookup ha))

theorem get?_insertAll (t u : Table α) (k : String) :
    (t.insertAll u.entries).get? k = (u.get? k).or (t.get? k) := by
  have hentries : ∀ (es : List (String × α)) (t : Table α),
      (t.insertAll es).entries = es.foldl (fun es e => put e.1 e.2 es) t.entries := by
    intro es
    induction es with
    | nil => exact fun t => rfl
    | cons e es ih => exact fun t => ih (t.insert e.1 e.2)
  rw [get?, hentries, lookup_foldl_put, lookup_reverse u.nodup]
  rfl

theorem get?_of_mem {t : Table α} {e : String × α} (h : e ∈ t.entries) : t.get? e.1 = some e.2 :=
  lookup_of_mem t.nodup h

theorem mem_values_of_get? {t : Table α} {k : String} {a : α} (h : t.get? k = some a) :
    a ∈ t.values :=
  List.mem_map.2 ⟨(k, a), mem_of_lookup h, rfl⟩

theorem get?_of_notMem {t : Table α} {k : String} (h : k ∉ t.keys) : t.get? k = none :=
  lookup_eq_none h

theorem exists_get?_iff {t : Table α} {k : String} : (∃ a, t.get? k = some a) ↔ k ∈ t.keys := by
  constructor
  · rintro ⟨a, ha⟩
    exact List.mem_map.2 ⟨(k, a), mem_of_lookup ha, rfl⟩
  · intro h
    obtain ⟨e, he, rfl⟩ := List.mem_map.1 h
    exact ⟨e.2, get?_of_mem he⟩

theorem forall_entries_iff {t : Table α} {p : String → α → Prop} :
    (∀ e ∈ t.entries, p e.1 e.2) ↔ ∀ k a, t.get? k = some a → p k a := by
  constructor
  · intro h k a ha
    exact h (k, a) (mem_of_lookup ha)
  · intro h e he
    exact h e.1 e.2 (get?_of_mem he)

theorem entries_eq_map_keys (t : Table α) (a : α) :
    t.entries = t.keys.map fun k => (k, t.getD k a) := by
  rw [keys, List.map_map]
  refine (List.map_id _).symm.trans (List.map_congr_left fun e he => ?_)
  rw [Function.comp_apply, getD, get?_of_mem he]
  rfl

theorem getD_insert (t : Table α) (k x : String) (a b : α) :
    (t.insert k a).getD x b = if x = k then a else t.getD x b := by
  rw [getD, get?_insert]
  split <;> rfl

/-- Keys that are inserted one after the other stand where each came first. -/
theorem keys_insert_of_eraseDups {t : Table α} {ks : List String} (h : t.keys = ks.eraseDups)
    (k : String) (a : α) : (t.insert k a).keys = (ks ++ [k]).eraseDups := by
  rw [keys_insert, eraseDups_concat, h]
  simp only [List.mem_eraseDups]

theorem getD_of_notMem {t : Table α} {k : String} {a : α} (h : k ∉ t.keys) : t.getD k a = a := by
  rw [getD, get?_of_notMem h, Option.getD_none]

theorem getD_congr {t : Table α} {k : String} {a b : α} (h : k ∉ t.keys → a = b) :
    t.getD k a = t.getD k b := by
  by_cases hk : k ∈ t.keys
  · obtain ⟨e, he, rfl⟩ := List.mem_map.1 hk
    simp [getD, get?_of_mem he]
  · rw [h hk]

end Table

end Skirmish
