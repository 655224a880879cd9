import Verdict.Check
import Verdict.Proofs.Fold
import Verdict.Proofs.Lookup

namespace Verdict

namespace Bindings

variable {b : Bindings} {name other : String} {v : Value}

theorem get?_insert (b : Bindings) (name other : String) (v : Value) :
    (b.insert name v).get? other =
      if upperText other = upperText name then some v else b.get? other :=
  lookup_replace b.entries (upperText name) (upperText other) v

theorem contains_insert (h : b.contains other = true) :
    (b.insert name v).contains other = true := by
  rw [contains, get?_insert]
  split
  next => rfl
  next => exact h

theorem contains_insert_self : (b.insert name v).contains name = true := by
  simp [contains, get?_insert]

/-- Every bound value has a property. -/
def All (P : Value → Prop) (b : Bindings) : Prop := ∀ name v, b.get? name = some v → P v

theorem all_empty (P : Value → Prop) : empty.All P := by
  intro name v h
  cases h

theorem All.insert {P : Value → Prop} (hb : b.All P) (hv : P v) : (b.insert name v).All P := by
  intro other w h
  rw [get?_insert] at h
  split at h
  next =>
    cases h
    exact hv
  next => exact hb other w h

/-- What holds of every value that comes from JSON holds of every variable given as JSON. -/
theorem all_ofJson {P : Value → Prop} (hP : ∀ j v, Value.ofJson j = .ok v → P v) {text : String}
    (h : ofJson text = .ok b) : b.All P := by
  unfold ofJson at h
  split at h
  next members _ =>
    refine foldlM_keeps (P := All P) ?_ (all_empty P) h
    rintro b ⟨name, j⟩ b' hb hstep
    obtain ⟨v, hj, rfl⟩ := map_eq_ok_iff.mp hstep
    exact hb.insert (hP j v hj)
  next => cases h
  next => cases h

end Bindings

namespace Check

theorem all_bindMissing {P : Value → Prop} {b : Bindings} (hb : b.All P) (hu : P .undefined)
    (ts : List Token) : (bindMissing b ts).All P := by
  unfold bindMissing
  induction ts generalizing b with
  | nil => exact hb
  | cons t ts ih =>
    rw [List.foldl_cons]
    split
    next => exact ih (hb.insert hu)
    next => exact ih hb

theorem contains_bindMissing {b : Bindings} {ts : List Token} {name : String}
    (h : b.contains name = true ∨ ∃ t ∈ ts, t.kind = .identifier ∧ t.raw = name) :
    (bindMissing b ts).contains name = true := by
  unfold bindMissing
  induction ts generalizing b with
  | nil => simpa using h
  | cons t ts ih =>
    rw [List.foldl_cons]
    apply ih
    rcases h with h | ⟨u, hu, hk, rfl⟩
    · left
      split
      next => exact Bindings.contains_insert h
      next => exact h
    · rcases List.mem_cons.mp hu with rfl | hu
      · left
        split
        next => exact Bindings.contains_insert_self
        next hc => simpa [hk] using hc
      · exact .inr ⟨u, hu, hk, rfl⟩

end Check

end Verdict
