import Verdict.Operands

namespace Verdict

/-- A value as it is written. -/
inductive Term where
  | atom (t : Token)
  | array (items : List Term)
  | function (head : Token) (arguments : List Term)
  | method (receiver : Term) (head : Token) (arguments : List Term)

/-- What tokens spell: a value; values between commas; or such values, or none, and the token that
ends the list. -/
inductive Phrase where
  | value (term : Term)
  | series (items : List Term)
  | list (closer : TokenKind) (items : List Term)

/-- Tokens that only separate others. -/
def Gap (g : List Token) : Prop := ∀ t ∈ g, t.isTrivia = true

theorem Gap.nil : Gap [] := by simp [Gap]

theorem Gap.cons {t : Token} {g : List Token} (hg : Gap g) (ht : t.isTrivia = true) :
    Gap (t :: g) := by
  intro u hu
  rcases List.mem_cons.mp hu with rfl | hu
  · exact ht
  · exact hg u hu

/-- The tokens that do not only separate others. -/
def significant (ts : List Token) : List Token := ts.filter (!·.isTrivia)

@[simp] theorem significant_nil : significant [] = [] := rfl

@[simp] theorem significant_append (ts us : List Token) :
    significant (ts ++ us) = significant ts ++ significant us :=
  List.filter_append ..

@[simp] theorem significant_reverse (ts : List Token) :
    significant ts.reverse = (significant ts).reverse :=
  List.filter_reverse ..

theorem significant_cons {t : Token} (ht : t.isTrivia = false) (ts : List Token) :
    significant (t :: ts) = t :: significant ts := by
  simp [significant, ht]

theorem significant_cons_of_isTrivia {t : Token} (ht : t.isTrivia = true) (ts : List Token) :
    significant (t :: ts) = significant ts := by
  simp [significant, ht]

theorem significant_gap {g : List Token} (hg : Gap g) : significant g = [] := by
  simpa [significant, Gap] using hg

/-- The tokens that spell a phrase, with lists nested at most this deep. -/
inductive Spells : Nat → List Token → Phrase → Prop
  | atom {depth : Nat} {t : Token} : t.kind.group = .value → Spells depth [t] (.value (.atom t))
  | array {depth : Nat} {t : Token} {ts : List Token} {items : List Term} :
    t.kind = .openBracket → Spells depth ts (.list .closeBracket items) →
    Spells (depth + 1) (t :: ts) (.value (.array items))
  | function {depth : Nat} {t : Token} {ts : List Token} {items : List Term} :
    t.kind = .function → Spells depth ts (.list .closeParen items) →
    Spells (depth + 1) (t :: ts) (.value (.function t items))
  | method {depth : Nat} {t : Token} {us g ts : List Token} {receiver : Term} {items : List Term} :
    Spells (depth + 1) us (.value receiver) → Gap g → t.kind = .method →
    Spells depth ts (.list .closeParen items) →
    Spells (depth + 1) (us ++ g ++ t :: ts) (.value (.method receiver t items))
  | one {depth : Nat} {g ts : List Token} {item : Term} :
    Gap g → Spells depth ts (.value item) → Spells depth (g ++ ts) (.series [item])
  | more {depth : Nat} {t : Token} {ts g g' us : List Token} {items : List Term} {item : Term} :
    Spells depth ts (.series items) → Gap g → t.kind = .comma → Gap g' →
    Spells depth us (.value item) →
    Spells depth (ts ++ g ++ t :: (g' ++ us)) (.series (items ++ [item]))
  | none {depth : Nat} {t : Token} {g : List Token} :
    Gap g → Spells depth (g ++ [t]) (.list t.kind [])
  | some {depth : Nat} {t : Token} {ts g : List Token} {items : List Term} :
    Spells depth ts (.series items) → Gap g → Spells depth (ts ++ g ++ [t]) (.list t.kind items)

namespace Scope

/-- The value of a single token: its own, that of the variable, or its text. -/
def atomValue? (scope : Scope) (t : Token) : Option Value :=
  match t.value with
  | some v => some v
  | none => if t.kind = .identifier then scope.bindings.get? t.raw else some (.string t.raw)

/-- A token does not name anything unknown. -/
structure Knows (scope : Scope) (t : Token) : Prop where
  bound : t.kind = .identifier → t.value = none → scope.bindings.contains t.raw = true
  function : t.kind = .function → (scope.registry.function? t.callee).isSome
  method : t.kind = .method → (scope.registry.method? t.callee).isSome

instance (scope : Scope) (t : Token) : Decidable (scope.Knows t) :=
  decidable_of_iff
    ((t.kind = .identifier → t.value = none → scope.bindings.contains t.raw = true) ∧
      (t.kind = .function → (scope.registry.function? t.callee).isSome) ∧
      (t.kind = .method → (scope.registry.method? t.callee).isSome))
    ⟨fun ⟨hb, hf, hm⟩ => ⟨hb, hf, hm⟩, fun ⟨hb, hf, hm⟩ => ⟨hb, hf, hm⟩⟩

end Scope

namespace Term

mutual

/-- The value of a term: calls are applied from left to right. There is none if a name is unknown or
a call fails. -/
def value? (scope : Scope) : Term → Option Value
  | atom t => scope.atomValue? t
  | array items => (values? scope items).map .array
  | function head arguments => do
    let f ← scope.registry.function? head.callee
    (f none (← values? scope arguments)).toOption
  | method receiver head arguments => do
    let v ← receiver.value? scope
    let f ← scope.registry.method? head.callee
    (f (some v) (← values? scope arguments)).toOption

def values? (scope : Scope) : List Term → Option (List Value)
  | [] => some []
  | term :: rest => do return (← term.value? scope) :: (← values? scope rest)

end

end Term

/-- The next token that does not only separate others is the head of a method call. -/
def callFollows (ts : List Token) : Bool :=
  (ts.find? (!·.isTrivia)).any (·.kind == .method)

/-- A part of a rule: a token that is passed on, or a value and its first token. -/
inductive Piece where
  | other (t : Token)
  | value (first : Token) (term : Term)

/-- The parts of a rule. A value takes in all the method calls that follow it, and every token that
can start a value starts one. -/
inductive Splits (depth : Nat) : List Token → List Piece → Prop
  | nil : Splits depth [] []
  | other {t : Token} {ts : List Token} {pieces : List Piece} :
    t.kind.startsValue = false → Splits depth ts pieces →
    Splits depth (t :: ts) (.other t :: pieces)
  | value {t : Token} {ts rest : List Token} {term : Term} {pieces : List Piece} :
    Spells depth (t :: ts) (.value term) → callFollows rest = false → Splits depth rest pieces →
    Splits depth (t :: ts ++ rest) (.value t term :: pieces)

/-- A token in the place of another that has this value. -/
structure Token.Carries (t first : Token) (v : Value) : Prop where
  group : t.kind.group = .value
  raw : t.raw = first.raw
  location : t.location = first.location
  value : t.value = some v

/-- What becomes of a part: a value becomes one token, in the place of its first. -/
def Piece.Yields (scope : Scope) : Piece → Token → Prop
  | other t, out => out = t
  | value first term, out => ∃ v, term.value? scope = some v ∧ out.Carries first v

end Verdict
