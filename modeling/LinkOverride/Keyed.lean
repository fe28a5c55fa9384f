/-!
# Keyed lists

Values under names, in the order in which the names first arrived. Writing to a name that is present
keeps its place.
-/

namespace LinkOverride

abbrev Keyed (α : Type) := List (String × α)

namespace Keyed

variable {α : Type}

def find? : Keyed α → String → Option α
  | [], _ => none
  | (k, v) :: es, key => if k = key then some v else find? es key

def insert : Keyed α → String → α → Keyed α
  | [], key, v => [(key, v)]
  | (k, w) :: es, key, v => if k = key then (key, v) :: es else (k, w) :: insert es key v

def keys (es : Keyed α) : List String := es.map (·.1)

def holds (es : Keyed α) (key : String) : Bool := (find? es key).isSome

@[simp] theorem find?_insert_self (es : Keyed α) (key : String) (v : α) :
    find? (insert es key v) key = some v := by
  induction es with
  | nil => simp [insert, find?]
  | cons e es ih =>
    obtain ⟨k, w⟩ := e
    by_cases h : k = key <;> simp [insert, find?, h, ih]

theorem find?_insert_of_ne (es : Keyed α) {key other : String} (v : α) (h : other ≠ key) :
    find? (insert es key v) other = find? es other := by
  induction es with
  | nil => simp [insert, find?, Ne.symm h]
  | cons e es ih =>
    obtain ⟨k, w⟩ := e
    by_cases hk : k = key
    · subst hk; simp [insert, find?, Ne.symm h]
    · simp only [insert, hk, if_false, find?, ih]

theorem mem_keys_iff {es : Keyed α} {key : String} : key ∈ keys es ↔ holds es key = true := by
  induction es with
  | nil => simp [keys, holds, find?]
  | cons e es ih =>
    obtain ⟨k, w⟩ := e
    by_cases h : k = key
    · simp [keys, holds, find?, h]
    · simp only [keys, List.map_cons, List.mem_cons, holds, find?, h, if_false, Ne.symm h, false_or]
      exact ih

theorem keys_insert_of_mem {es : Keyed α} {key : String} (v : α) (h : key ∈ keys es) :
    keys (insert es key v) = keys es := by
  induction es with
  | nil => simp [keys] at h
  | cons e es ih =>
    obtain ⟨k, w⟩ := e
    by_cases hk : k = key
    · simp [insert, keys, hk]
    · have : key ∈ keys es := by simpa [keys, Ne.symm hk] using h
      simpa [insert, keys, hk] using ih this

theorem keys_insert_of_not_mem {es : Keyed α} {key : String} (v : α) (h : key ∉ keys es) :
    keys (insert es key v) = keys es ++ [key] := by
  induction es with
  | nil => simp [insert, keys]
  | cons e es ih =>
    obtain ⟨k, w⟩ := e
    have hk : k ≠ key := by rintro rfl; simp [keys] at h
    have : key ∉ keys es := fun hm => h (by simp only [keys, List.map_cons] at *; exact .tail _ hm)
    simpa [insert, keys, hk] using ih this

end Keyed

end LinkOverride
