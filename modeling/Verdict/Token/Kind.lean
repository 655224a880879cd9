import Verdict.Operator

namespace Verdict

/-- What a token is. -/
inductive TokenKind where
  | integer
  | float
  | string
  | boolean
  | null
  | undefined
  | regex
  /-- The name of a variable. -/
  | identifier
  /-- An array, which no single token of a text is. -/
  | array
  | comparison (op : Comparison)
  | connective (op : Connective)
  | openParen
  | closeParen
  | openBracket
  | closeBracket
  | comma
  /-- A dot, a name and an opening parenthesis. -/
  | method
  /-- A name and an opening parenthesis. -/
  | function
  | space
  | newline
  | comment
  /-- What nothing else matches. -/
  | unknown
  deriving DecidableEq, Repr

/-- The part that a token plays in a rule. -/
inductive TokenGroup where
  | value
  | operator
  | logical
  | openParen
  | closeParen
  | openBracket
  | closeBracket
  | comma
  | method
  | function
  | space
  | newline
  | comment
  | unknown
  deriving DecidableEq, Repr

namespace TokenKind

def group : TokenKind → TokenGroup
  | integer | float | string | boolean | null | undefined | regex | identifier | array => .value
  | comparison _ => .operator
  | connective _ => .logical
  | openParen => .openParen
  | closeParen => .closeParen
  | openBracket => .openBracket
  | closeBracket => .closeBracket
  | comma => .comma
  | method => .method
  | function => .function
  | space => .space
  | newline => .newline
  | comment => .comment
  | unknown => .unknown

def name : TokenKind → String
  | integer => "integer"
  | float => "float"
  | string => "string"
  | boolean => "bool"
  | null => "null"
  | undefined => "undefined"
  | regex => "regex"
  | identifier => "variable"
  | array => "array"
  | comparison .equal => "equal"
  | comparison .equalStrict => "equal_strict"
  | comparison .notEqual => "not_equal"
  | comparison .notEqualStrict => "not_equal_strict"
  | comparison .less => "smaller"
  | comparison .lessEqual => "smaller_equal"
  | comparison .greater => "greater"
  | comparison .greaterEqual => "greater_equal"
  | comparison .member => "in"
  | connective .and => "and"
  | connective .or => "or"
  | openParen => "opening_parenthesis"
  | closeParen => "closing_parenthesis"
  | openBracket => "opening_array"
  | closeBracket => "closing_array"
  | comma => "comma"
  | method => "method"
  | function => "function"
  | space => "space"
  | newline => "newline"
  | comment => "comment"
  | unknown => "unknown"

def all : List TokenKind :=
  [integer, float, string, boolean, null, undefined, regex, identifier, array, comparison .equal,
   comparison .equalStrict, comparison .notEqual, comparison .notEqualStrict, comparison .less,
   comparison .lessEqual, comparison .greater, comparison .greaterEqual, comparison .member,
   connective .and, connective .or, openParen, closeParen, openBracket, closeBracket, comma,
   method, function, space, newline, comment, unknown]

def ofName? (s : String) : Option TokenKind :=
  all.find? fun k => k.name == s

/-- The comparison that a kind of token is. -/
def comparison? : TokenKind → Option Comparison
  | comparison op => some op
  | _ => none

/-- The connective that a kind of token is. -/
def connective? : TokenKind → Option Connective
  | connective op => some op
  | _ => none

/-- Whether tokens of a kind only separate others: blanks, newlines and comments. -/
def isTrivia : TokenKind → Bool
  | space | newline | comment => true
  | _ => false

/-- Whether a value can start with a token of a kind. -/
def startsValue (k : TokenKind) : Bool :=
  k.group == .value || k == openBracket || k == function

/-- The kind of token that a value makes. -/
def ofValue : Value → TokenKind
  | .undefined => undefined
  | .null => null
  | .boolean _ => boolean
  | .integer _ => integer
  | .float _ => float
  | .string _ => string
  | .array _ => array
  | .regex _ => regex

theorem ne_of_group {k l : TokenKind} {g : TokenGroup} (hk : k.group = g) (hl : l.group ≠ g) :
    k ≠ l := by
  rintro rfl
  exact hl hk

theorem ne_of_startsValue {k l : TokenKind} (hk : k.startsValue = true)
    (hl : l.startsValue = false) : k ≠ l := by
  rintro rfl
  exact Bool.noConfusion (hk.symm.trans hl)

theorem ne_of_isTrivia {k l : TokenKind} (hk : k.isTrivia = true) (hl : l.isTrivia = false) :
    k ≠ l := by
  rintro rfl
  exact Bool.noConfusion (hk.symm.trans hl)

theorem startsValue_of_group {k : TokenKind} (h : k.group = .value) : k.startsValue = true := by
  simp [startsValue, h]

theorem isTrivia_of_startsValue {k : TokenKind} (h : k.startsValue = true) :
    k.isTrivia = false := by
  cases k <;> simp_all [startsValue, isTrivia, group]

theorem startsValue_of_isTrivia {k : TokenKind} (h : k.isTrivia = true) :
    k.startsValue = false := by
  cases k <;> simp_all [startsValue, isTrivia, group]

theorem group_ne_value_of_isTrivia {k : TokenKind} (h : k.isTrivia = true) : k.group ≠ .value := by
  intro hg
  exact Bool.noConfusion (h.symm.trans (isTrivia_of_startsValue (startsValue_of_group hg)))

theorem group_ofValue (v : Value) : (ofValue v).group = .value := by
  cases v <;> rfl

end TokenKind

end Verdict
