import Mathlib.Data.Finset.Card
import Mathlib.Data.List.Induction
import Verdict.Proofs.Bindings
import Verdict.Proofs.Json.Written
import Verdict.Proofs.Text.Bytes

namespace Verdict

/-- An object is somewhere in a value. -/
inductive Json.ContainsObject : Json → Prop
  | object (members : List (String × Json)) : ContainsObject (.object members)
  | item {items : List Json} {j : Json} (hmem : j ∈ items) (h : ContainsObject j) :
      ContainsObject (.array items)

/-- The result is an error just if `bad` holds, and the error is always the same. -/
def FailsJustIf {α : Type} (bad : Prop) (r : Except CheckError α) : Prop :=
  (¬ bad ∧ ∃ v, r = .ok v) ∨ (bad ∧ r = .error (.unsupported "object"))

namespace FailsJustIf

variable {α β : Type} {bad bad' : Prop} {r : Except CheckError α} {f : α → Except CheckError β}

theorem isOk_iff (h : FailsJustIf bad r) : (∃ v, r = .ok v) ↔ ¬ bad := by
  rcases h with ⟨hgood, hok⟩ | ⟨hbad, herror⟩
  · exact iff_of_true hok hgood
  · exact iff_of_false (by simp [herror]) (not_not.mpr hbad)

theorem congr (h : FailsJustIf bad r) (hbad : bad ↔ bad') : FailsJustIf bad' r :=
  propext hbad ▸ h

theorem bind (h : FailsJustIf bad r) (hf : ∀ v, FailsJustIf bad' (f v)) :
    FailsJustIf (bad ∨ bad') (r >>= f) := by
  rcases h with ⟨hgood, v, rfl⟩ | ⟨hbad, rfl⟩
  · exact (hf v).congr (or_iff_right hgood).symm
  · exact .inr ⟨.inl hbad, rfl⟩

theorem map (h : FailsJustIf bad r) (g : α → β) : FailsJustIf bad (r.map g) := by
  rcases h with ⟨hgood, v, rfl⟩ | ⟨hbad, rfl⟩
  · exact .inl ⟨hgood, g v, rfl⟩
  · exact .inr ⟨hbad, rfl⟩

end FailsJustIf

theorem Value.ofJson_failsJustIf (j : Json) : FailsJustIf j.ContainsObject (ofJson j) := by
  refine ofJson.induct (fun j => FailsJustIf j.ContainsObject (ofJson j))
    (fun items => FailsJustIf (∃ j ∈ items, j.ContainsObject) (ofJsonItems items))
    ?null ?boolean ?integer ?float ?string ?array ?object ?nil ?cons j
  case null => exact .inl ⟨nofun, _, rfl⟩
  case boolean => exact fun b => .inl ⟨nofun, _, rfl⟩
  case integer => exact fun n => .inl ⟨nofun, _, rfl⟩
  case float => exact fun x => .inl ⟨nofun, _, rfl⟩
  case string => exact fun s => .inl ⟨nofun, _, rfl⟩
  case array =>
    intro items ih
    rw [ofJson]
    refine (ih.map array).congr ⟨?_, ?_⟩
    · rintro ⟨j, hmem, h⟩
      exact .item hmem h
    · rintro (_ | ⟨hmem, h⟩)
      exact ⟨_, hmem, h⟩
  case object => exact fun members => .inr ⟨.object members, rfl⟩
  case nil => exact .inl ⟨by simp, _, rfl⟩
  case cons =>
    intro j items hhead htail
    rw [ofJsonItems]
    have hall : ∀ (v : Value) vs, FailsJustIf False (pure (v :: vs)) := fun v vs =>
      .inl ⟨id, _, rfl⟩
    exact (hhead.bind fun v => htail.bind (hall v)).congr (by simp)

namespace Bindings

variable {b : Bindings} {name : String} {m : String × Json} {members init : List (String × Json)}

theorem ofMembers_failsJustIf (members : List (String × Json)) :
    FailsJustIf (∃ m ∈ members, m.2.ContainsObject) (ofMembers members) := by
  unfold ofMembers
  generalize empty = b
  induction members generalizing b with
  | nil => exact .inl ⟨by simp, _, rfl⟩
  | cons m members ih =>
    rw [List.foldlM_cons]
    exact (((Value.ofJson_failsJustIf m.2).map _).bind fun c => ih c).congr (by simp)

/-- The last member is bound last. -/
theorem exists_of_ofMembers_concat (h : ofMembers (init ++ [m]) = .ok b) :
    ∃ c v, ofMembers init = .ok c ∧ Value.ofJson m.2 = .ok v ∧ b = c.insert m.1 v := by
  unfold ofMembers at h
  rw [List.foldlM_append] at h
  obtain ⟨c, hc, hlast⟩ := bind_eq_ok_iff.mp h
  rw [List.foldlM_cons] at hlast
  obtain ⟨d, hd, hnil⟩ := bind_eq_ok_iff.mp hlast
  cases hnil
  obtain ⟨v, hv, rfl⟩ := map_eq_ok_iff.mp hd
  exact ⟨c, v, hc, hv, rfl⟩

/-- The member that a name has its value from: of those with the upper case of the name, the one
whose own name is the last. -/
structure IsSource (members : List (String × Json)) (name : String) (m : String × Json) : Prop where
  mem : m ∈ members
  upper : upperText m.1 = upperText name
  last : ∀ n ∈ members, upperText n.1 = upperText name → bytes n.1 ≤ bytes m.1

theorem isSource_concat_self (hordered : Json.Ordered (init ++ [m]))
    (hupper : upperText m.1 = upperText name) {n : String × Json} :
    IsSource (init ++ [m]) name n ↔ n = m := by
  have hbefore : ∀ n ∈ init, n.1 < m.1 := fun n hn =>
    (List.pairwise_append.mp hordered).2.2 n hn m (List.mem_singleton.mpr rfl)
  constructor
  · intro h
    rcases List.mem_append.mp h.mem with hn | hn
    · have hle := h.last m (by simp) hupper
      exact absurd (bytes_le_bytes_iff.mp hle) (not_le.mpr (hbefore n hn))
    · exact List.mem_singleton.mp hn
  · rintro rfl
    refine ⟨by simp, hupper, fun k hk _ => bytes_le_bytes_iff.mpr ?_⟩
    rcases List.mem_append.mp hk with hk | hk
    · exact (hbefore k hk).le
    · exact (List.mem_singleton.mp hk ▸ le_refl _)

theorem isSource_concat_other (hupper : upperText m.1 ≠ upperText name) {n : String × Json} :
    IsSource (init ++ [m]) name n ↔ IsSource init name n := by
  constructor
  · intro h
    refine ⟨?_, h.upper, fun k hk => h.last k (List.mem_append_left _ hk)⟩
    rcases List.mem_append.mp h.mem with hn | hn
    · exact hn
    · exact absurd (List.mem_singleton.mp hn ▸ h.upper) hupper
  · intro h
    refine ⟨List.mem_append_left _ h.mem, h.upper, fun k hk hname => ?_⟩
    rcases List.mem_append.mp hk with hk | hk
    · exact h.last k hk hname
    · exact absurd (List.mem_singleton.mp hk ▸ hname) hupper

theorem get?_ofMembers (hordered : Json.Ordered members) (h : ofMembers members = .ok b)
    (name : String) (v : Value) :
    b.get? name = some v ↔ ∃ m, IsSource members name m ∧ Value.ofJson m.2 = .ok v := by
  induction members using List.reverseRecOn generalizing b with
  | nil =>
    cases h
    exact iff_of_false nofun fun ⟨m, hm, _⟩ => List.not_mem_nil hm.mem
  | append_singleton init m ih =>
    obtain ⟨c, w, hc, hw, rfl⟩ := exists_of_ofMembers_concat h
    have hinit := ih (List.pairwise_append.mp hordered).1 hc
    rw [get?_insert]
    by_cases hupper : upperText m.1 = upperText name
    · simp [hupper, isSource_concat_self hordered hupper, hw]
    · simp only [isSource_concat_other hupper, Ne.symm hupper, if_false, hinit]

/-- The names bound, in upper case. -/
def keys (b : Bindings) : List String := b.entries.map Prod.fst

theorem keys_insert (b : Bindings) (name : String) (v : Value) :
    (b.insert name v).keys = upperText name :: b.keys.filter (· != upperText name) := by
  unfold insert keys
  rw [List.map_cons, List.filter_map]
  rfl

theorem get?_eq_none_iff : b.get? name = none ↔ upperText name ∉ b.keys := by
  rw [get?, keys, List.lookup_eq_none_iff, List.mem_map]
  simp only [bne_iff_ne, not_exists, not_and]
  exact forall₂_congr fun entry _ => ne_comm

theorem keys_ofMembers (h : ofMembers members = .ok b) :
    b.keys.Nodup ∧ ∀ k, k ∈ b.keys ↔ ∃ m ∈ members, upperText m.1 = k := by
  induction members using List.reverseRecOn generalizing b with
  | nil =>
    cases h
    exact ⟨.nil, by simp [empty, keys]⟩
  | append_singleton init m ih =>
    obtain ⟨c, w, hc, _, rfl⟩ := exists_of_ofMembers_concat h
    obtain ⟨hnodup, hkeys⟩ := ih hc
    rw [keys_insert]
    refine ⟨List.nodup_cons.mpr ⟨by simp, hnodup.filter _⟩, fun k => ?_⟩
    rw [List.mem_cons, List.mem_filter, hkeys, bne_iff_ne]
    by_cases hk : k = upperText m.1
    · exact iff_of_true (.inl hk) ⟨m, by simp, hk.symm⟩
    · simp [hk, Ne.symm hk, or_and_right, exists_or]

theorem size_ofMembers (h : ofMembers members = .ok b) :
    b.size = (members.map fun m => upperText m.1).toFinset.card := by
  obtain ⟨hnodup, hkeys⟩ := keys_ofMembers h
  have hset : b.keys.toFinset = (members.map fun m => upperText m.1).toFinset := by
    ext k
    simp [hkeys]
  rw [← hset, List.toFinset_card_of_nodup hnodup, keys, List.length_map, size]

theorem ofJson_eq_ofMembers {text : String} (h : Json.read? text = some (.object members)) :
    ofJson text = ofMembers members := by
  rw [ofJson, h]

end Bindings

/-- Variables given as the text of an object: there are some just if no member has an object in its
value; each name has the value of one member, and the order of members with different names does not
matter. -/
theorem variables_of_object {text : String} {members : List (String × Json)}
    (h : Json.read? text = some (.object members)) :
    ((∃ b, Bindings.ofJson text = .ok b) ↔ ∀ m ∈ members, ¬ m.2.ContainsObject) ∧
      (∀ b, Bindings.ofJson text = .ok b →
        (∀ name v, b.get? name = some v ↔
          ∃ m, Bindings.IsSource members name m ∧ Value.ofJson m.2 = .ok v) ∧
        (∀ name, b.get? name = none ↔ ∀ m ∈ members, upperText m.1 ≠ upperText name) ∧
        b.size = (members.map fun m => upperText m.1).toFinset.card) ∧
      ∃ written, Json.written? text = some written ∧ members = Json.collect [] written ∧
        ((written.map Prod.fst).Nodup → ∀ other others, Json.written? other = some others →
          written.Perm others → Bindings.ofJson other = Bindings.ofJson text) := by
  obtain ⟨written, hwritten, hmembers⟩ := Json.read?_eq_object_iff.mp h
  have hordered : Json.Ordered members := hmembers ▸ Json.Ordered.collect .nil
  have htext := Bindings.ofJson_eq_ofMembers h
  refine ⟨?_, fun b hb => ?_, written, hwritten, hmembers,
    fun hnodup other others hothers hperm => ?_⟩
  · rw [htext, (Bindings.ofMembers_failsJustIf members).isOk_iff]
    simp only [not_exists, not_and]
  · rw [htext] at hb
    refine ⟨Bindings.get?_ofMembers hordered hb, fun name => ?_, Bindings.size_ofMembers hb⟩
    rw [Bindings.get?_eq_none_iff, (Bindings.keys_ofMembers hb).2]
    simp only [not_exists, not_and, ne_eq]
  · have hother : Json.read? other = some (.object members) := by
      refine Json.read?_eq_object_iff.mpr ⟨others, hothers, ?_⟩
      rw [hmembers, Json.collect_perm hnodup hperm]
    rw [htext, Bindings.ofJson_eq_ofMembers hother]

/-- Two members with one upper case are one variable, whichever of them stands first. -/
theorem variables_of_object_colliding :
    ∃ b, Bindings.ofJson "\x7b\"a\":null,\"A\":[true]\x7d" = .ok b ∧
      Bindings.ofJson "\x7b\"A\":[true],\"a\":null\x7d" = .ok b ∧
      b.get? "A" = some .null ∧ b.get? "B" = none ∧ b.size = 1 := by
  have hread : Json.read? "\x7b\"a\":null,\"A\":[true]\x7d" =
      some (.object [("A", .array [.boolean true]), ("a", .null)]) := by
    refine Json.read?_eq_some_iff.mpr ⟨[], rfl, ?_⟩
    simp only [String.reduceToList]
    rfl
  have hwritten : Json.written? "\x7b\"a\":null,\"A\":[true]\x7d" =
      some [("a", .null), ("A", .array [.boolean true])] := by
    refine Json.written?_eq_some_iff.mpr ⟨[], rfl, ?_⟩
    simp only [String.reduceToList]
    rfl
  have hother : Json.written? "\x7b\"A\":[true],\"a\":null\x7d" =
      some [("A", .array [.boolean true]), ("a", .null)] := by
    refine Json.written?_eq_some_iff.mpr ⟨[], rfl, ?_⟩
    simp only [String.reduceToList]
    rfl
  obtain ⟨hok, hvalues, written, hw, _, horder⟩ := variables_of_object hread
  cases hwritten.symm.trans hw
  have hsame := horder (by decide) _ _ hother (.swap _ _ _)
  have harray : ¬ (Json.array [.boolean true]).ContainsObject := by
    rintro (_ | ⟨hmem, h⟩)
    cases List.mem_singleton.mp hmem ▸ h
  have hnull : ¬ Json.null.ContainsObject := nofun
  obtain ⟨b, hb⟩ := hok.mpr (by simp [harray, hnull])
  obtain ⟨hget, hnone, hsize⟩ := hvalues b hb
  have hsource : Bindings.IsSource [("A", .array [.boolean true]), ("a", .null)] "A" ("a", .null) :=
    ⟨by simp, by decide, by simp only [bytes_le_bytes_iff]; decide⟩
  refine ⟨b, hb, hsame.trans hb, (hget _ _).mpr ⟨_, hsource, rfl⟩, ?_, ?_⟩
  · rw [hnone]
    decide
  · rw [hsize]
    decide

end Verdict
