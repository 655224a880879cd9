import Mathlib.Data.String.Basic
import Verdict.Json.Reader
import Verdict.Proofs.Lookup

namespace Verdict.Json

variable {name k : String} {v : Json} {members others written : List (String × Json)}

theorem lookup_insertMember (name : String) (v : Json) (members : List (String × Json))
    (k : String) :
    (insertMember name v members).lookup k = if k = name then some v else members.lookup k := by
  induction members with
  | nil => exact lookup_cons _ _ _
  | cons m members ih =>
    obtain ⟨other, w⟩ := m
    unfold insertMember
    split
    next => exact lookup_cons _ _ _
    next =>
      split
      next hname =>
        subst other
        rw [lookup_cons, lookup_cons]
        split <;> rfl
      next hname =>
        rw [lookup_cons, lookup_cons, ih]
        by_cases hk : k = other
        · have hne : k ≠ name := fun h => hname (h ▸ hk)
          rw [if_pos hk, if_neg hne, if_pos hk]
        · rw [if_neg hk, if_neg hk]

theorem mem_insertMember {m : String × Json} (h : m ∈ insertMember name v members) :
    m = (name, v) ∨ m ∈ members := by
  induction members with
  | nil => exact .inl (List.mem_singleton.mp h)
  | cons other members ih =>
    unfold insertMember at h
    split at h
    next => exact List.mem_cons.mp h
    next =>
      split at h
      next => exact (List.mem_cons.mp h).imp_right (List.mem_cons_of_mem _)
      next =>
        rcases List.mem_cons.mp h with rfl | h
        · exact .inr List.mem_cons_self
        · exact (ih h).imp_right (List.mem_cons_of_mem _)

/-- Members in the order of their names, each name once. -/
def Ordered (members : List (String × Json)) : Prop :=
  members.Pairwise fun m n => m.1 < n.1

theorem Ordered.insertMember (h : Ordered members) : Ordered (insertMember name v members) := by
  induction members with
  | nil => exact List.pairwise_singleton _ _
  | cons m members ih =>
    obtain ⟨other, w⟩ := m
    obtain ⟨hlater, hrest⟩ := List.pairwise_cons.mp h
    unfold Json.insertMember
    split
    next hlt =>
      refine List.pairwise_cons.mpr ⟨fun n hn => ?_, h⟩
      rcases List.mem_cons.mp hn with rfl | hn
      · exact hlt
      · exact lt_trans hlt (hlater n hn)
    next hlt =>
      split
      next hname =>
        subst other
        exact List.pairwise_cons.mpr ⟨hlater, hrest⟩
      next hname =>
        refine List.pairwise_cons.mpr ⟨fun n hn => ?_, ih hrest⟩
        rcases mem_insertMember hn with rfl | hn
        · exact lt_of_le_of_ne (not_lt.mp hlt) (Ne.symm hname)
        · exact hlater n hn

theorem Ordered.nodup (h : Ordered members) : members.Nodup :=
  h.imp fun hlt heq => ne_of_lt hlt (congrArg Prod.fst heq)

theorem Ordered.nodup_names (h : Ordered members) : (members.map Prod.fst).Nodup :=
  List.Pairwise.map _ (fun _ _ hlt => ne_of_lt hlt) h

/-- Ordered members are determined by the values of the names. -/
theorem Ordered.eq_of_lookup_eq (h : Ordered members) (h' : Ordered others)
    (hlookup : ∀ k, members.lookup k = others.lookup k) : members = others := by
  have hmem : ∀ m, m ∈ members ↔ m ∈ others := fun ⟨k, v⟩ => by
    rw [mem_iff_lookup_eq_some h.nodup_names, mem_iff_lookup_eq_some h'.nodup_names, hlookup]
  have hperm : members.Perm others := (List.perm_ext_iff_of_nodup h.nodup h'.nodup).mpr hmem
  exact hperm.eq_of_pairwise (fun m n _ _ hmn hnm => absurd hmn (lt_asymm hnm)) h h'

/-- Enters members into an object in turn. -/
def collect (members written : List (String × Json)) : List (String × Json) :=
  written.foldl (fun members m => insertMember m.1 m.2 members) members

theorem Ordered.collect (h : Ordered members) : Ordered (collect members written) := by
  induction written generalizing members with
  | nil => exact h
  | cons m written ih => exact ih h.insertMember

/-- Of several members with one name, the last counts. -/
theorem lookup_collect (members written : List (String × Json)) (k : String) :
    (collect members written).lookup k = (written.reverse.lookup k).or (members.lookup k) := by
  induction written generalizing members with
  | nil => rfl
  | cons m written ih =>
    have hstep : collect members (m :: written) = collect (insertMember m.1 m.2 members) written :=
      rfl
    rw [hstep, ih, lookup_insertMember, List.reverse_cons, List.lookup_append, Option.or_assoc,
      lookup_cons]
    split
    next => rfl
    next => rfl

/-- The order in which members of different names are entered does not matter. -/
theorem collect_perm (hnodup : (written.map Prod.fst).Nodup) (hperm : written.Perm others) :
    collect [] written = collect [] others := by
  refine Ordered.eq_of_lookup_eq (Ordered.collect .nil) (Ordered.collect .nil) fun k => ?_
  have hreverse : (written.reverse.map Prod.fst).Nodup := by
    rwa [List.map_reverse, List.nodup_reverse]
  have hothers : (others.reverse.map Prod.fst).Nodup := by
    rw [List.map_reverse, List.nodup_reverse]
    exact (hperm.map Prod.fst).nodup_iff.mp hnodup
  rw [lookup_collect, lookup_collect]
  congr 1
  refine Option.ext fun v => ?_
  rw [← mem_iff_lookup_eq_some hreverse, ← mem_iff_lookup_eq_some hothers, List.mem_reverse,
    List.mem_reverse, hperm.mem_iff]

end Verdict.Json
