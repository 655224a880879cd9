import Verdict.Call.Functions

namespace Verdict

/-- The shape of a value: what the standard methods tell apart in a receiver. -/
inductive Shape where
  | scalar
  | string
  | array
  | regex (re : RegexLiteral)

namespace Value

def shape : Value → Shape
  | undefined | null | boolean _ | integer _ | float _ => .scalar
  | string _ => .string
  | array _ => .array
  | regex re => .regex re

/-- The regular expression that a value is. -/
def regex? : Value → Option RegexLiteral
  | regex re => some re
  | _ => none

theorem regex?_eq_of_shape {v w : Value} (h : v.shape = w.shape) : v.regex? = w.regex? := by
  cases v <;> cases w <;> simp_all [shape, regex?]

theorem shape_array_iff {v : Value} : v.shape = .array ↔ ∃ items, v = .array items := by
  cases v <;> simp [shape]

end Value

/-- The shape of the result of a method hangs on that of the receiver and on the regular expressions
among the arguments. -/
def Callable.MethodByShape (f : Callable) : Prop :=
  ∃ g : Shape → List (Option RegexLiteral) → Option Shape, ∀ receiver args,
    (f (some receiver) args).toOption.map Value.shape = g receiver.shape (args.map Value.regex?)

namespace Method

/-- The shape of the result of a method of strings that needs nothing else. -/
def ofString (result : Shape) : Shape → List (Option RegexLiteral) → Option Shape
  | .string, _ => some result
  | _, _ => none

theorem ofString_byShape {f : Callable} (result : Shape)
    (h : ∀ receiver args, (f (some receiver) args).toOption.map Value.shape =
      ofString result receiver.shape (args.map Value.regex?)) : f.MethodByShape :=
  ⟨ofString result, h⟩

theorem concat_byShape : Callable.MethodByShape concat := by
  refine ⟨fun s _ => match s with
    | .string => some .string
    | .array => some .array
    | _ => none, fun receiver args => ?_⟩
  cases receiver <;> rfl

theorem shape_positionValue (position : Option Nat) :
    (positionValue position).shape = .scalar := by
  cases position <;> rfl

theorem indexOf_byShape : Callable.MethodByShape indexOf := by
  refine ⟨fun s _ => match s with
    | .string => some .scalar
    | .array => some .scalar
    | _ => none, fun receiver args => ?_⟩
  cases receiver with
  | string s => exact congrArg some (shape_positionValue _)
  | array items => exact congrArg some (shape_positionValue _)
  | _ => rfl

theorem join_byShape : Callable.MethodByShape join := by
  refine ⟨fun s _ => match s with
    | .array => some .string
    | _ => none, fun receiver args => ?_⟩
  cases receiver <;> rfl

/-- Whether a pattern compiles decides whether there is a result of this shape. -/
def compiled (re? : Option RegexLiteral) (result : Shape) : Option Shape :=
  match re? with
  | some re => re.compile.toOption.map fun _ => result
  | none => some result

theorem replace_byShape : Callable.MethodByShape replace := by
  refine ⟨fun s rs => match s with
    | .string => compiled rs[0]?.join .string
    | _ => none, fun receiver args => ?_⟩
  cases receiver with
  | string s =>
    cases args with
    | nil => rfl
    | cons search args =>
      cases search with
      | regex re =>
        cases h : re.compile <;>
          simp [replace, stringReceiver, compiled, Value.shape, Value.regex?, Except.toOption, h,
            bind, Except.bind, stringOf, pure, Except.pure]
      | _ => rfl
  | _ => rfl

theorem split_byShape : Callable.MethodByShape split := by
  refine ⟨fun s rs => match s with
    | .string => compiled rs[0]?.join .array
    | _ => none, fun receiver args => ?_⟩
  cases receiver with
  | string s =>
    cases args with
    | nil => rfl
    | cons separator args =>
      cases separator with
      | regex re =>
        cases h : re.compile <;>
          simp [split, splitPieces, argument, stringReceiver, compiled, Value.shape, Value.regex?,
            Except.toOption, h, bind, Except.bind, pure, Except.pure, Except.map]
      | _ => rfl
  | _ => rfl

theorem test_byShape : Callable.MethodByShape test := by
  refine ⟨fun s rs => match s, rs with
    | .regex _, [] => some .scalar
    | .regex re, _ :: _ => compiled (some re) .scalar
    | _, _ => none, fun receiver args => ?_⟩
  cases receiver with
  | regex re =>
    cases args with
    | nil => rfl
    | cons subject args =>
      cases h : re.compile <;>
        simp [test, compiled, Value.shape, Except.toOption, h, Except.map]
  | _ => rfl

/-- Every standard method goes by shapes. -/
theorem standard_byShape : ∀ entry ∈ standard, Callable.MethodByShape entry.2 := by
  simp only [standard, List.forall_mem_cons, List.not_mem_nil, false_imp_iff, implies_true,
    and_true]
  refine ⟨?charAt, concat_byShape, ?endsWith, indexOf_byShape, join_byShape, replace_byShape,
    split_byShape, ?startsWith, ?substr, test_byShape, ?lower, ?upper, ?trim⟩
  case charAt | substr | lower | upper | trim =>
    exact ofString_byShape .string (fun receiver args => by cases receiver <;> rfl)
  case endsWith | startsWith =>
    exact ofString_byShape .scalar (fun receiver args => by cases receiver <;> rfl)

/-- No standard method has an absent receiver. -/
theorem standard_undefined : ∀ entry ∈ standard, ∀ args,
    (entry.2 (some .undefined) args).toOption = none := by
  simp only [standard, List.forall_mem_cons, List.not_mem_nil, false_imp_iff, implies_true,
    and_true]
  refine ⟨?_, ?_, ?_, ?_, ?_, ?_, ?_, ?_, ?_, ?_, ?_, ?_, ?_⟩ <;> exact fun _ => rfl

end Method

namespace Function

theorem shape_ofDigits (radix : Nat) (negative : Bool) (ds : List Nat) :
    (ofDigits radix negative ds).shape = .scalar := by
  unfold ofDigits
  dsimp only
  split <;> rfl

/-- Every standard function has a result, and it is a number. -/
theorem standard_scalar : ∀ entry ∈ standard, ∀ args,
    ∃ v, entry.2 none args = .ok v ∧ v.shape = .scalar := by
  simp only [standard, List.forall_mem_cons, List.not_mem_nil, false_imp_iff, implies_true,
    and_true]
  refine ⟨fun args => ⟨_, rfl, ?_⟩, fun args => ⟨_, rfl, rfl⟩⟩
  rw [apply_ite Value.shape, shape_ofDigits]
  exact ite_self _

end Function

namespace Registry

variable {name : String} {f : Callable}

theorem mem_of_lookup {entries : List (String × Callable)} (h : entries.lookup name = some f) :
    (name, f) ∈ entries := by
  obtain ⟨before, after, rfl, _⟩ := List.lookup_eq_some_iff.mp h
  simp

theorem standard_method (h : standard.method? name = some f) :
    f.MethodByShape ∧ ∀ args, (f (some .undefined) args).toOption = none :=
  ⟨Method.standard_byShape _ (mem_of_lookup h), Method.standard_undefined _ (mem_of_lookup h)⟩

theorem standard_function (h : standard.function? name = some f) (args : List Value) :
    ∃ v, f none args = .ok v ∧ v.shape = .scalar :=
  Function.standard_scalar _ (mem_of_lookup h) args

end Registry

end Verdict
