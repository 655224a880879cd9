import Verdict.Text.Fold
import Verdict.Text.Letter

namespace Verdict

/-- A set of characters, written as an expression. -/
inductive CharSet where
  | none
  | char (c : Char)
  | range (low high : Char)
  | runs (s : RunSet)
  | category (k : Category)
  | blank
  | digit
  | word
  | union (s t : CharSet)
  | inter (s t : CharSet)
  | symmDiff (s t : CharSet)
  | compl (s : CharSet)
  /-- The characters that differ only in case from one in the set. -/
  | folded (s : CharSet)
  /-- As `folded`, for the ASCII letters alone. -/
  | asciiFolded (s : CharSet)
  deriving DecidableEq, Repr

namespace CharSet

/-- Whether a character is in the set. -/
def contains : CharSet → Char → Bool
  | none, _ => false
  | char d, c => c == d
  | range low high, c => low ≤ c && c ≤ high
  | runs s, c => s.contains c
  | category k, c => Category.of c == k
  | blank, c => isBlank c
  | digit, c => isDecimalDigit c
  | word, c => isWord c
  | union s t, c => s.contains c || t.contains c
  | inter s t, c => s.contains c && t.contains c
  | symmDiff s t, c => s.contains c != t.contains c
  | compl s, c => !s.contains c
  | folded s, c => (Fold.orbit c).any s.contains
  | asciiFolded s, c => (Fold.asciiOrbit c).any s.contains

instance : Union CharSet := ⟨union⟩
instance : Inter CharSet := ⟨inter⟩

/-- The characters of `s` that are not in `t`. -/
def diff (s t : CharSet) : CharSet :=
  s ∩ t.compl

instance : SDiff CharSet := ⟨diff⟩

def all : CharSet :=
  none.compl

/-- The union of a list of sets. -/
def unionAll : List CharSet → CharSet
  | [] => none
  | [s] => s
  | s :: rest => s ∪ unionAll rest

def ofCategories (ks : List Category) : CharSet :=
  unionAll (ks.map category)

def ofText (s : String) : CharSet :=
  unionAll (s.toList.map char)

@[simp] theorem contains_char (c d : Char) : (char d).contains c = (c == d) := rfl

@[simp] theorem contains_union (s t : CharSet) (c : Char) :
    (s ∪ t).contains c = (s.contains c || t.contains c) := rfl

@[simp] theorem contains_inter (s t : CharSet) (c : Char) :
    (s ∩ t).contains c = (s.contains c && t.contains c) := rfl

@[simp] theorem contains_compl (s : CharSet) (c : Char) :
    s.compl.contains c = !s.contains c := rfl

@[simp] theorem contains_diff (s t : CharSet) (c : Char) :
    (s \ t).contains c = (s.contains c && !t.contains c) := rfl

@[simp] theorem contains_all (c : Char) : all.contains c = true := rfl

theorem contains_unionAll_iff {sets : List CharSet} {c : Char} :
    (unionAll sets).contains c = true ↔ ∃ s ∈ sets, s.contains c = true := by
  induction sets with
  | nil => simp [unionAll, contains]
  | cons s sets ih =>
    cases sets with
    | nil => simp [unionAll]
    | cons t sets =>
      have hunion : unionAll (s :: t :: sets) = s ∪ unionAll (t :: sets) := rfl
      rw [hunion, contains_union, Bool.or_eq_true, ih]
      simp only [List.mem_cons, or_and_right, exists_or, exists_eq_left]

theorem contains_ofText_iff {s : String} {c : Char} :
    (ofText s).contains c = true ↔ c ∈ s.toList := by
  simp only [ofText, contains_unionAll_iff, List.mem_map]
  constructor
  · rintro ⟨_, ⟨d, hd, rfl⟩, hc⟩
    obtain rfl : c = d := by simpa using hc
    exact hd
  · exact fun hc => ⟨char c, ⟨c, hc, rfl⟩, by simp⟩

end CharSet

end Verdict
