import LinkOverride.Keyed
import Mathlib.Data.List.Basic
import Mathlib.Data.List.Induction

/-!
# Definitions in order

A name may be defined more than once. If the definitions are inserted one after the other, each name
stands where it was first defined and has what was defined last, and `inOrder` says just that.
-/

namespace LinkOverride.Keyed

variable {α : Type}

/-- The names in the order in which they are first defined, each with its last definition. -/
def inOrder (ds : Keyed α) : Keyed α :=
  (keys ds).eraseDups.filterMap fun k => (find? ds.reverse k).map (k, ·)

/-- What is inserted one after the other. -/
def insertAll (ds : Keyed α) : Keyed α := ds.foldl (fun es d => es.insert d.1 d.2) []

theorem insertAll_append_singleton (ds : Keyed α) (d : String × α) :
    insertAll (ds ++ [d]) = (insertAll ds).insert d.1 d.2 := by
  rw [insertAll, List.foldl_append]
  rfl

theorem nodup_keys_insertAll (ds : Keyed α) : (keys (insertAll ds)).Nodup := by
  induction ds using List.reverseRecOn with
  | nil => exact .nil
  | append_singleton ds d ih =>
    rw [insertAll_append_singleton]
    by_cases h : d.1 ∈ keys (insertAll ds)
    · rwa [keys_insert_of_mem _ h]
    · rw [keys_insert_of_not_mem _ h]
      exact List.nodup_append.2 ⟨ih, List.pairwise_singleton _ _, fun a ha b hb heq =>
        h (List.mem_singleton.1 hb ▸ heq ▸ ha)⟩

theorem keys_insertAll (ds : Keyed α) : keys (insertAll ds) = (keys ds).eraseDups := by
  induction ds using List.reverseRecOn with
  | nil => rfl
  | append_singleton ds d ih =>
    have hkeys : keys (ds ++ [d]) = keys ds ++ [d.1] := by simp [keys]
    rw [insertAll_append_singleton, hkeys, List.eraseDups_append, ← ih]
    by_cases h : d.1 ∈ keys (insertAll ds)
    · have hmem : d.1 ∈ keys ds := by rwa [ih, List.mem_eraseDups] at h
      rw [keys_insert_of_mem _ h]
      simp [List.removeAll, hmem]
    · have hmem : d.1 ∉ keys ds := by rwa [ih, List.mem_eraseDups] at h
      rw [keys_insert_of_not_mem _ h]
      simp [List.removeAll, hmem, List.eraseDups_cons]

/-- What is inserted is not lost. -/
theorem eq_nil_of_insertAll {ds : Keyed α} (h : insertAll ds = []) : ds = [] := by
  rcases List.eq_nil_or_concat ds with hnil | ⟨ds', d, rfl⟩
  · exact hnil
  · rw [List.concat_eq_append, insertAll_append_singleton] at h
    have hfound := find?_insert_self (insertAll ds') d.1 d.2
    rw [h] at hfound
    exact absurd hfound (by simp [find?])

/-- **The last definition counts.** -/
theorem find?_insertAll (ds : Keyed α) (name : String) :
    find? (insertAll ds) name = find? ds.reverse name := by
  induction ds using List.reverseRecOn with
  | nil => rfl
  | append_singleton ds d ih =>
    rw [insertAll_append_singleton, List.reverse_append, List.reverse_singleton,
      List.singleton_append, find?]
    by_cases h : d.1 = name
    · rw [if_pos h, ← h, find?_insert_self]
    · rw [if_neg h, find?_insert_of_ne _ _ (Ne.symm h), ih]

/-- A keyed list with no name twice is known by its names and what is found under each. -/
theorem eq_filterMap_keys {es : Keyed α} (h : (keys es).Nodup) :
    es = (keys es).filterMap fun k => (find? es k).map (k, ·) := by
  induction es with
  | nil => rfl
  | cons e es ih =>
    obtain ⟨k, v⟩ := e
    obtain ⟨hk, hes⟩ := List.nodup_cons.1 h
    have hrest : (keys es).filterMap (fun n => (find? ((k, v) :: es) n).map (n, ·)) =
        (keys es).filterMap fun n => (find? es n).map (n, ·) := by
      refine List.filterMap_congr fun n hn => ?_
      have hne : k ≠ n := fun heq => hk (heq ▸ hn)
      rw [find?, if_neg hne]
    rw [show keys ((k, v) :: es) = k :: keys es from rfl, List.filterMap_cons, hrest, ← ih hes,
      find?, if_pos rfl]
    rfl

/-- **Inserting definitions one after the other puts them in order.** -/
theorem insertAll_eq (ds : Keyed α) : insertAll ds = inOrder ds := by
  rw [eq_filterMap_keys (nodup_keys_insertAll ds), keys_insertAll, inOrder]
  simp only [find?_insertAll]

end LinkOverride.Keyed
