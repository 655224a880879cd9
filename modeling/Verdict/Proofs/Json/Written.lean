import Verdict.Proofs.Json.Members

namespace Verdict.Json

variable {text : String} {s rest : List Char} {v : Json} {members : List (String × Json)}

/-- A value of neither array nor object. -/
def IsScalar : Json → Prop
  | .array _ | .object _ => False
  | _ => True

theorem isScalar_signed (negative : Bool) (x : Double) : (signed negative x).IsScalar := trivial

theorem NumberReading.isScalar_finish {r : NumberReading} (h : r.finish = some (v, rest)) :
    v.IsScalar := by
  obtain ⟨x, _, hx⟩ := Option.map_eq_some_iff.mp h
  cases hx
  exact isScalar_signed _ _

theorem NumberReading.isScalar_readExponent {r : NumberReading} {down : Bool}
    (h : r.readExponent down = some (v, rest)) : v.IsScalar := by
  unfold readExponent at h
  dsimp only at h
  split at h
  next => cases h
  next =>
    split at h
    next =>
      split at h
      next => cases h
      next =>
        cases h
        exact isScalar_signed _ _
    next => exact isScalar_finish h

theorem NumberReading.isScalar_readEnd {r : NumberReading} (h : r.readEnd = some (v, rest)) :
    v.IsScalar := by
  unfold readEnd at h
  split at h
  next =>
    split at h
    next => split at h <;> exact isScalar_readExponent h
    next => exact isScalar_finish h
  next => exact isScalar_finish h

theorem NumberReading.isScalar_readFraction {r : NumberReading}
    (h : r.readFraction = some (v, rest)) : v.IsScalar := by
  unfold readFraction at h
  split at h
  next =>
    dsimp only at h
    split at h
    next => cases h
    next => exact isScalar_readEnd h
  next => exact isScalar_readEnd h

theorem isScalar_readUnsigned? {negative : Bool} (h : readUnsigned? negative s = some (v, rest)) :
    v.IsScalar := by
  unfold readUnsigned? at h
  dsimp only at h
  split at h
  next => cases h
  next => cases h
  next =>
    split at h
    next =>
      cases h
      unfold ofWhole
      dsimp only
      split
      next => trivial
      next => exact isScalar_signed _ _
    next => exact NumberReading.isScalar_readFraction h

theorem isScalar_readScalar? (h : readScalar? false s = some (v, rest)) : v.IsScalar := by
  unfold readScalar? at h
  split at h
  next =>
    obtain ⟨_, _, hx⟩ := Option.map_eq_some_iff.mp h
    cases hx
    trivial
  next =>
    split at h
    next =>
      unfold readNumber? at h
      simp only [Bool.false_eq_true, if_false] at h
      split at h <;> exact isScalar_readUnsigned? h
    next =>
      unfold word? at h
      split at h
      next => cases h; trivial
      next => cases h; trivial
      next => cases h; trivial
      next => cases h
  next => cases h

theorem exists_array_of_readItems {fuel depth : Nat} {items : List Json}
    (h : readItems false fuel depth items s = some (v, rest)) : ∃ all, v = .array all := by
  induction fuel generalizing items s with
  | zero => cases h
  | succ fuel ih =>
    unfold readItems at h
    obtain ⟨⟨item, after⟩, _, h⟩ := Option.bind_eq_some_iff.mp h
    dsimp only at h
    split at h
    next => exact ih h
    next =>
      cases h
      exact ⟨_, rfl⟩
    next => cases h

/-- Reads members of an object, of which there is at least one more, as they stand in the text. -/
def readWritten : Nat → Nat → List Char → Option (List (String × Json) × List Char)
  | 0, _, _ => none
  | fuel + 1, depth, s => do
    let (name, rest) ← readName? false (skipSpace s)
    let (v, rest) ← readValue false fuel depth rest
    match skipSpace rest with
    | ',' :: rest =>
      (readWritten fuel depth rest).map fun (written, rest) => ((name, v) :: written, rest)
    | '\x7d' :: rest => some ([(name, v)], rest)
    | _ => none

/-- Reads an object as it stands in the text. -/
def readWrittenObject (fuel depth : Nat) (s : List Char) :
    Option (List (String × Json) × List Char) :=
  match skipSpace s with
  | '\x7b' :: rest =>
    match skipSpace rest with
    | '\x7d' :: rest => some ([], rest)
    | rest => readWritten fuel depth rest
  | _ => none

/-- The members that the text of an object has. -/
def written? (text : String) : Option (List (String × Json)) := do
  let s := text.toList
  let (written, rest) ← readWrittenObject (2 * s.length + 1) (maxDepth - 1) s
  if (skipSpace rest).isEmpty then some written else none

/-- The reader enters the members that it meets, one after the other. -/
theorem readMembers_eq (fuel depth : Nat) (members : List (String × Json)) (s : List Char) :
    readMembers false fuel depth members s =
      (readWritten fuel depth s).map fun (written, rest) =>
        (.object (collect members written), rest) := by
  induction fuel generalizing members s with
  | zero => rfl
  | succ fuel ih =>
    unfold readMembers readWritten
    cases readName? false (skipSpace s) with
    | none => rfl
    | some name =>
      cases hvalue : readValue false fuel depth name.2 with
      | none => simp [hvalue]
      | some value =>
        simp only [Option.bind_eq_bind, Option.bind_some, hvalue]
        rcases skipSpace value.2 with _ | ⟨c, after⟩
        · rfl
        · by_cases hcomma : c = ','
          · subst hcomma
            simp only [ih, Option.map_map]
            rfl
          · by_cases hend : c = '\x7d'
            · subst hend
              rfl
            · simp [hcomma, hend]

section Object

variable {fuel depth : Nat} {body : List Char}

/-- Only what begins with a brace is read as an object. -/
theorem readValue_ne_object (h : ∀ body, skipSpace s ≠ '\x7b' :: body) :
    readValue false (fuel + 1) (depth + 1) s ≠ some (.object members, rest) := by
  intro hread
  unfold readValue at hread
  split at hread
  next =>
    simp only at hread
    split at hread
    next => cases hread
    next =>
      obtain ⟨items, hitems⟩ := exists_array_of_readItems hread
      cases hitems
  next hbody => exact h _ hbody
  next => exact isScalar_readScalar? hread

theorem readValue_brace_iff (hbody : skipSpace s = '\x7b' :: body) :
    readValue false (fuel + 1) (depth + 1) s = some (.object members, rest) ↔
      ∃ written, readWrittenObject fuel depth s = some (written, rest) ∧
        members = collect [] written := by
  have hmembers : ∀ t, readMembers false fuel depth [] t = some (.object members, rest) ↔
      ∃ written, readWritten fuel depth t = some (written, rest) ∧
        members = collect [] written := by
    intro t
    rw [readMembers_eq, Option.map_eq_some_iff]
    constructor
    · rintro ⟨⟨written, after⟩, hwritten, heq⟩
      cases heq
      exact ⟨written, hwritten, rfl⟩
    · rintro ⟨written, hwritten, rfl⟩
      exact ⟨_, hwritten, rfl⟩
  simp only [readValue, readWrittenObject, hbody]
  rcases skipSpace body with _ | ⟨c, after⟩
  · exact hmembers []
  · by_cases hend : c = '\x7d'
    · subst hend
      constructor
      · intro h
        cases h
        exact ⟨[], rfl, rfl⟩
      · rintro ⟨written, hwritten, rfl⟩
        cases hwritten
        rfl
    · simpa [hend] using hmembers (c :: after)

theorem readValue_eq_object_iff :
    readValue false (fuel + 1) (depth + 1) s = some (.object members, rest) ↔
      ∃ written, readWrittenObject fuel depth s = some (written, rest) ∧
        members = collect [] written := by
  by_cases hbrace : ∃ body, skipSpace s = '\x7b' :: body
  · obtain ⟨body, hbody⟩ := hbrace
    exact readValue_brace_iff hbody
  · have hother : readWrittenObject fuel depth s = none := by
      unfold readWrittenObject
      split
      next h => exact absurd ⟨_, h⟩ hbrace
      next => rfl
    exact iff_of_false (readValue_ne_object (not_exists.mp hbrace)) (by simp [hother])

end Object

theorem read?_eq_some_iff : read? text = some v ↔
    ∃ rest, (skipSpace rest).isEmpty = true ∧
      readValue false (2 * text.toList.length + 2) maxDepth text.toList = some (v, rest) := by
  simp [read?, Option.bind_eq_some_iff, and_comm]

theorem written?_eq_some_iff {written : List (String × Json)} : written? text = some written ↔
    ∃ rest, (skipSpace rest).isEmpty = true ∧
      readWrittenObject (2 * text.toList.length + 1) (maxDepth - 1) text.toList =
        some (written, rest) := by
  simp [written?, Option.bind_eq_some_iff, and_comm]

/-- A text is read as an object just if it has the form of one; then the object has, of the members
in the text, the last of each name. -/
theorem read?_eq_object_iff :
    read? text = some (.object members) ↔
      ∃ written, written? text = some written ∧ members = collect [] written := by
  have hdepth : maxDepth = maxDepth - 1 + 1 := rfl
  rw [read?_eq_some_iff, hdepth]
  simp only [readValue_eq_object_iff, written?_eq_some_iff]
  tauto

end Verdict.Json
