import Mathlib.Data.List.Nodup

namespace Verdict

variable {β : Type} {key other : String} {entries : List (String × β)}

theorem lookup_cons (entry : String × β) (entries : List (String × β)) (key : String) :
    (entry :: entries).lookup key =
      if key = entry.1 then some entry.2 else entries.lookup key := by
  rw [List.lookup_cons]
  by_cases hkey : key = entry.1
  · simp [hkey]
  · have hne : (key == entry.1) = false := by simpa using hkey
    simp [hkey, hne]

/-- Taking out the entries of one key leaves those of the others. -/
theorem lookup_filter_ne (entries : List (String × β)) (h : other ≠ key) :
    (entries.filter fun entry => entry.1 != key).lookup other = entries.lookup other := by
  induction entries with
  | nil => rfl
  | cons entry rest ih =>
    by_cases hkey : entry.1 = key
    · rw [List.filter_cons_of_neg (by simpa using hkey), ih, lookup_cons, if_neg (hkey ▸ h)]
    · rw [List.filter_cons_of_pos (by simpa using hkey), lookup_cons, lookup_cons, ih]

/-- An entry in the place of those of its key. -/
theorem lookup_replace (entries : List (String × β)) (key other : String) (v : β) :
    ((key, v) :: entries.filter fun entry => entry.1 != key).lookup other =
      if other = key then some v else entries.lookup other := by
  rw [lookup_cons]
  split
  next => rfl
  next h => exact lookup_filter_ne entries h

/-- Where each key has one entry, the entries are what the keys lead to. -/
theorem mem_iff_lookup_eq_some (h : (entries.map Prod.fst).Nodup) (key : String) (v : β) :
    (key, v) ∈ entries ↔ entries.lookup key = some v := by
  induction entries with
  | nil => simp
  | cons entry rest ih =>
    obtain ⟨hfresh, hrest⟩ := List.nodup_cons.mp h
    rw [List.mem_cons, lookup_cons]
    by_cases hkey : key = entry.1
    · have habsent : (key, v) ∉ rest := fun hmem => hfresh (List.mem_map.mpr ⟨_, hmem, hkey⟩)
      simp [Prod.ext_iff, hkey, hkey ▸ habsent, eq_comm]
    · have hne : (key, v) ≠ entry := fun heq => hkey (heq ▸ rfl)
      simp [hkey, hne, ih hrest]

end Verdict
