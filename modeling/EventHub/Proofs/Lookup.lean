import Mathlib.Data.List.Nodup

/-!
Lists of pairs that are looked up by their first component: what dropping a key,
or changing the value under one, means for every lookup.
-/

namespace EventHub.Lookup

variable {κ α : Type} [DecidableEq κ]

/-- Whether an entry stays depends on its key only. -/
theorem lookup_filter_key {β : Type} [BEq β] [LawfulBEq β] (entries : List (β × α))
    (stays : β → Bool) (key : β) :
    (entries.filter fun entry => stays entry.1).lookup key =
      if stays key then entries.lookup key else none := by
  induction entries with
  | nil => simp
  | cons entry rest ih =>
      obtain ⟨k, a⟩ := entry
      by_cases hkey : key = k
      · subst hkey
        by_cases hk : stays key = true
        · simp [hk]
        · simpa [hk] using ih
      · have hb : (key == k) = false := beq_false_of_ne hkey
        by_cases hk : stays k = true
        · simpa [hk, List.lookup_cons, hb] using ih
        · simpa [hk, List.lookup_cons, hb] using ih

theorem lookup_filter_ne (entries : List (κ × α)) (dropped key : κ) :
    (entries.filter (·.1 ≠ dropped)).lookup key =
      if key = dropped then none else entries.lookup key := by
  rw [lookup_filter_key entries (fun k => k ≠ dropped) key]
  by_cases hkey : key = dropped <;> simp [hkey]

/-- Changes the value under one key and leaves every other lookup as it was. -/
theorem lookup_map_at (entries : List (κ × α)) (changed key : κ) (f : α → α) :
    (entries.map fun entry => if entry.1 = changed then (entry.1, f entry.2) else entry).lookup
        key =
      if key = changed then (entries.lookup key).map f else entries.lookup key := by
  induction entries with
  | nil => simp
  | cons entry rest ih =>
      obtain ⟨k, a⟩ := entry
      by_cases hkey : key = k
      · subst hkey
        by_cases hk : key = changed <;> simp [hk]
      · have hb : (key == k) = false := by simpa using hkey
        have hhead : (if k = changed then (k, f a) else (k, a)) =
            (k, if k = changed then f a else a) := by split <;> rfl
        simp only [List.map_cons, hhead, List.lookup_cons, hb]
        exact ih

theorem keys_map_at (entries : List (κ × α)) (changed : κ) (f : α → α) :
    (entries.map fun entry => if entry.1 = changed then (entry.1, f entry.2) else entry).map
        Prod.fst =
      entries.map Prod.fst := by
  rw [List.map_map]
  apply List.map_congr_left
  intro entry _
  by_cases h : entry.1 = changed <;> simp [h]

/-- Where no key stands twice, every entry is found under its key. -/
theorem lookup_of_mem {entries : List (κ × α)} (hkeys : (entries.map Prod.fst).Nodup)
    {entry : κ × α} (h : entry ∈ entries) : entries.lookup entry.1 = some entry.2 := by
  induction entries with
  | nil => cases h
  | cons first rest ih =>
      obtain ⟨k, a⟩ := first
      obtain ⟨hfirst, hrest⟩ := List.nodup_cons.mp hkeys
      rcases List.mem_cons.mp h with rfl | hmem
      · simp
      · have hne : entry.1 ≠ k := by
          intro heq
          exact hfirst (List.mem_map.mpr ⟨entry, hmem, heq⟩)
        have hb : (entry.1 == k) = false := by simpa using hne
        rw [List.lookup_cons, hb]
        exact ih hrest hmem

end EventHub.Lookup
