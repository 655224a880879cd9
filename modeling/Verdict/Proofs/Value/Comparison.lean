import Mathlib.Data.List.TakeDrop
import Verdict.Operator
import Verdict.Proofs.Value.Numeric

namespace Verdict

/-- A literal is read back from its text: the slash before its flags is the last one. -/
theorem RegexLiteral.ofText?_text {re : RegexLiteral} (h : '/' ∉ re.flags.toList) :
    ofText? re.text.toList = some re := by
  have htext : re.text.toList = '/' :: (re.pattern.toList ++ '/' :: re.flags.toList) := by
    simp [text]
  have hflags : ∀ c ∈ re.flags.toList.reverse, (c != '/') = true := by
    intro c hc
    rw [bne_iff_ne]
    rintro rfl
    exact h (List.mem_reverse.mp hc)
  have hspan : (re.pattern.toList ++ '/' :: re.flags.toList).reverse.span (· != '/') =
      (re.flags.toList.reverse, '/' :: re.pattern.toList.reverse) := by
    rw [List.span_eq_takeWhile_dropWhile, List.reverse_append, List.reverse_cons,
      List.append_assoc, List.takeWhile_append_of_pos hflags, List.dropWhile_append_of_pos hflags]
    simp
  rw [htext, ofText?, hspan]
  simp

theorem RegexLiteral.text_inj {r s : RegexLiteral} (hr : '/' ∉ r.flags.toList)
    (hs : '/' ∉ s.flags.toList) : r.text = s.text ↔ r = s := by
  constructor
  · intro h
    have hread := ofText?_text hr
    rw [h, ofText?_text hs] at hread
    exact (Option.some.inj hread).symm
  · rintro rfl
    rfl

namespace Value

section Orientation

theorem map_swap_eq_some_eq {order : Option Ordering} :
    (order.map Ordering.swap == some .eq) = (order == some .eq) := by
  rcases order with _ | _ | _ | _ <;> rfl

theorem looseCompare_swap (a b : Value) :
    b.looseCompare a = (a.looseCompare b).map Ordering.swap := by
  unfold looseCompare
  generalize a.primitive = x
  generalize b.primitive = y
  cases x with
  | string s =>
    cases y with
    | string t => exact congrArg some Std.OrientedOrd.eq_swap
    | _ => exact compareNumbers_swap _ _
  | _ => cases y <;> exact compareNumbers_swap _ _

theorem looseScalarEq_comm (a b : Value) : looseScalarEq a b = looseScalarEq b a := by
  unfold looseScalarEq
  rw [Bool.or_comm, Bool.and_comm]
  split
  next => rfl
  next =>
    have hnumbers : ∀ x y, (compareNumbers x y == some .eq) = (compareNumbers y x == some .eq) := by
      intro x y
      rw [compareNumbers_swap y x, map_swap_eq_some_eq]
    generalize a.scalar = x
    generalize b.scalar = y
    cases x with
    | string s =>
      cases y with
      | string t => exact BEq.comm
      | _ => exact hnumbers _ _
    | _ => cases y <;> exact hnumbers _ _

theorem looseEq_comm (a b : Value) : a.looseEq b = b.looseEq a := by
  refine looseEq.induct (fun a b => a.looseEq b = b.looseEq a)
    (fun xs ys => looseEqAll xs ys = looseEqAll ys xs)
    ?arrays ?regexes ?scalars ?nil ?cons ?lengths a b
  case arrays =>
    intro xs ys ih
    rw [looseEq, looseEq, ih]
  case regexes =>
    intro r s
    rw [looseEq, looseEq, BEq.comm]
  case scalars =>
    intro a b harrays hregexes
    rw [looseEq.eq_3 a b harrays hregexes, looseScalarEq_comm,
      looseEq.eq_3 b a (fun xs ys hb ha => harrays ys xs ha hb)
        fun r s hb ha => hregexes s r ha hb]
  case nil => rfl
  case cons =>
    intro x xs y ys hhead htail
    rw [looseEqAll, looseEqAll, hhead, htail]
  case lengths =>
    intro xs ys hnil hcons
    rw [looseEqAll.eq_3 xs ys hnil hcons, looseEqAll.eq_3 ys xs (fun hy hx => hnil hx hy)
      fun y ys' x xs' hy hx => hcons x xs' y ys' hx hy]

theorem strictEq_comm (a b : Value) : a.strictEq b = b.strictEq a := by
  refine strictEq.induct (fun a b => a.strictEq b = b.strictEq a)
    (fun xs ys => strictEqAll xs ys = strictEqAll ys xs) ?undefined ?null ?booleans ?integers
    ?floats ?strings ?arrays ?regexes ?types ?nil ?cons ?lengths a b
  case floats =>
    intro x y
    rw [strictEq, strictEq, Double.eqNumber, Double.eqNumber, Double.compare?_swap y x,
      map_swap_eq_some_eq]
  case arrays =>
    intro xs ys ih
    rw [strictEq, strictEq, ih]
  case types =>
    intro a b
    cases a <;> cases b <;> simp [strictEq]
  case cons =>
    intro x xs y ys hhead htail
    rw [strictEqAll, strictEqAll, hhead, htail]
  case lengths =>
    intro xs ys hnil hcons
    rw [strictEqAll.eq_3 xs ys hnil hcons, strictEqAll.eq_3 ys xs (fun hy hx => hnil hx hy)
      fun y ys' x xs' hy hx => hcons x xs' y ys' hx hy]
  all_goals
    intros
    simp only [strictEq, strictEqAll, BEq.comm]

/-- A flag is compared as the number that it converts to, on whichever side it stands. -/
theorem looseEq_boolean (b : Bool) (v : Value) :
    (boolean b).looseEq v = (integer (if b then 1 else 0)).looseEq v := by
  rw [looseEq, looseEq]
  · rfl
  all_goals nofun

/-- An array is compared with what is none as its text. -/
theorem looseEq_array {v : Value} (hv : ∀ ys, v ≠ array ys) (xs : List Value) :
    (array xs).looseEq v = (string (text (array xs))).looseEq v := by
  rw [looseEq, looseEq]
  · rfl
  · nofun
  · nofun
  · rintro _ ys _ rfl
    exact hv ys rfl
  · nofun

/-- A regular expression is compared with what is none as its text. -/
theorem looseEq_regex {v : Value} (hv : ∀ s, v ≠ regex s) (r : RegexLiteral) :
    (regex r).looseEq v = (string r.text).looseEq v := by
  rw [looseEq, looseEq]
  · rfl
  · nofun
  · nofun
  · nofun
  · rintro _ s _ rfl
    exact hv s rfl

end Orientation

section Agreement

variable {a b : Value}

/-- The order of two values that are neither arrays nor regular expressions. -/
def scalarCompare (a b : Value) : Option Ordering :=
  match a, b with
  | string s, string t => some (compare s t)
  | a, b => compareNumbers a b

theorem scalarCompare_of_left (ha : ∀ s, a ≠ string s) (b : Value) :
    scalarCompare a b = compareNumbers a b := by
  unfold scalarCompare
  split
  next s t => exact absurd rfl (ha s)
  next => rfl

theorem scalarCompare_of_right (hb : ∀ s, b ≠ string s) (a : Value) :
    scalarCompare a b = compareNumbers a b := by
  unfold scalarCompare
  split
  next s t => exact absurd rfl (hb t)
  next => rfl

/-- It makes no difference to the order of two values whether a flag counts as a number. -/
theorem scalarCompare_scalar (a b : Value) :
    scalarCompare a.scalar b.scalar = a.looseCompare b := by
  have hnumbers : compareNumbers a.scalar b.scalar = compareNumbers a.primitive b.primitive :=
    compareNumbers_congr (toNumber_scalar a) (toDecimal?_scalar a) (toNumber_scalar b)
      (toDecimal?_scalar b)
  change _ = scalarCompare a.primitive b.primitive
  cases a with
  | boolean _ =>
    rwa [scalarCompare_of_left (by simp [scalar]), scalarCompare_of_left (by simp [primitive])]
  | _ =>
    cases b with
    | boolean _ =>
      rwa [scalarCompare_of_right (by simp [scalar]), scalarCompare_of_right (by simp [primitive])]
    | _ => rfl

theorem looseScalarEq_iff (ha : a.isNullish = false) (hb : b.isNullish = false) :
    looseScalarEq a b = true ↔ a.looseCompare b = some .eq := by
  rw [← scalarCompare_scalar, looseScalarEq, ha, hb]
  unfold scalarCompare
  generalize a.scalar = x
  generalize b.scalar = y
  cases x with
  | string s =>
    cases y with
    | string t => simp
    | _ => exact beq_iff_eq
  | _ => exact beq_iff_eq

theorem looseEq_iff (ha : a.isNullish = false) (hb : b.isNullish = false)
    (harrays : ∀ xs ys, a = array xs → b ≠ array ys)
    (hfa : ∀ r, a = regex r → '/' ∉ r.flags.toList)
    (hfb : ∀ r, b = regex r → '/' ∉ r.flags.toList) :
    a.looseEq b = true ↔ a.looseCompare b = some .eq := by
  by_cases hregexes : ∃ r s, a = regex r ∧ b = regex s
  · obtain ⟨r, s, rfl, rfl⟩ := hregexes
    have htexts : r.text = s.text ↔ r = s := RegexLiteral.text_inj (hfa r rfl) (hfb s rfl)
    simp [looseEq, looseCompare, primitive, htexts]
  · have hregexes : ∀ r s, a = regex r → b = regex s → False :=
      fun r s hr hs => hregexes ⟨r, s, hr, hs⟩
    rw [looseEq.eq_3 a b harrays hregexes]
    exact looseScalarEq_iff ha hb

end Agreement

end Value

open Value Comparison

/-- Which of two values stands on the left makes no difference: equality is symmetric, and the order
turns round. -/
theorem comparison_orientation (a b : Value) :
    a.looseEq b = b.looseEq a ∧ a.strictEq b = b.strictEq a ∧
      b.looseCompare a = (a.looseCompare b).map Ordering.swap ∧
      less.holds? a b = greater.holds? b a ∧ lessEqual.holds? a b = greaterEqual.holds? b a := by
  have hswap := looseCompare_swap a b
  refine ⟨looseEq_comm a b, strictEq_comm a b, hswap, ?_, ?_⟩
  · simp only [holds?, hswap]
    rcases a.looseCompare b with _ | _ | _ | _ <;> rfl
  · simp only [holds?, hswap]
    rcases a.looseCompare b with _ | _ | _ | _ <;> rfl

/-- Two values that are not absent, and not both arrays, are loosely equal just when neither comes
before the other. So at most one of `<`, `==` and `>` holds of them, and `<=` and `>=` hold when one
of two does. -/
theorem looseEq_iff_looseCompare (a b : Value) (ha : a.isNullish = false)
    (hb : b.isNullish = false) (harrays : ∀ xs ys, a = .array xs → b ≠ .array ys)
    (hfa : ∀ r, a = .regex r → '/' ∉ r.flags.toList)
    (hfb : ∀ r, b = .regex r → '/' ∉ r.flags.toList) :
    (a.looseEq b = true ↔ a.looseCompare b = some .eq) ∧
      (lessEqual.holds? a b = some true ↔
        less.holds? a b = some true ∨ equal.holds? a b = some true) ∧
      (greaterEqual.holds? a b = some true ↔
        greater.holds? a b = some true ∨ equal.holds? a b = some true) ∧
      ([less, equal, greater].countP fun op => op.holds? a b == some true) ≤ 1 := by
  have hiff := looseEq_iff ha hb harrays hfa hfb
  refine ⟨hiff, ?_⟩
  have heq : a.looseEq b = (a.looseCompare b == some .eq) := by
    rw [Bool.eq_iff_iff, hiff, beq_iff_eq]
  simp only [List.countP_cons, List.countP_nil, holds?, heq]
  rcases a.looseCompare b with _ | _ | _ | _ <;> simp

/-- A regular expression with a slash of its own, and an array with the text of it. -/
theorem looseEq_iff_looseCompare_regex :
    let a : Value := .regex ⟨"a/b", "g"⟩
    let b : Value := .array [.string "/a/b/g"]
    a.isNullish = false ∧ b.isNullish = false ∧ (∀ xs ys, a = .array xs → b ≠ .array ys) ∧
      (∀ r, a = .regex r → '/' ∉ r.flags.toList) ∧ (∀ r, b = .regex r → '/' ∉ r.flags.toList) ∧
      a.looseEq b = true ∧ a.looseCompare b = some .eq ∧ lessEqual.holds? a b = some true ∧
      greaterEqual.holds? a b = some true ∧ less.holds? a b ≠ some true := by
  intro a b
  have harrays : ∀ xs ys, a = .array xs → b ≠ .array ys := nofun
  have hfa : ∀ r, a = .regex r → '/' ∉ r.flags.toList := by
    intro r hr
    subst a
    cases hr
    decide
  have hfb : ∀ r, b = .regex r → '/' ∉ r.flags.toList := nofun
  have heq : a.looseEq b = true := by
    subst a b
    rfl
  obtain ⟨hiff, hle, hge, _⟩ := looseEq_iff_looseCompare a b rfl rfl harrays hfa hfb
  have hequal : equal.holds? a b = some true := congrArg some heq
  have horder : a.looseCompare b = some .eq := hiff.mp heq
  refine ⟨rfl, rfl, harrays, hfa, hfb, heq, horder, hle.mpr (.inr hequal),
    hge.mpr (.inr hequal), ?_⟩
  simp [holds?, horder]

end Verdict
