import Verdict.Token.Basic

namespace Verdict

/-- Tokens, and the number of them that the cursor has passed. -/
structure Cursor where
  tokens : List Token
  position : Nat

namespace Cursor

def ofTokens (tokens : List Token) : Cursor := ⟨tokens, 0⟩

/-- The token after the cursor, which is not moved. -/
def peek? (cursor : Cursor) : Option Token :=
  cursor.tokens[cursor.position]?

/-- Moves past a token and gives it. -/
def next? (cursor : Cursor) : Option Token × Cursor :=
  match cursor.peek? with
  | some t => (some t, { cursor with position := cursor.position + 1 })
  | none => (none, cursor)

/-- The next token that does not only separate others. -/
def peekSignificant? (cursor : Cursor) : Option Token :=
  (cursor.tokens.drop cursor.position).find? fun t => !t.isTrivia

/-- Moves past up to `n` tokens, up to the first one that does not only separate others. -/
def skipTrivia : Nat → Cursor → Option Token × Cursor
  | 0, cursor => (none, cursor)
  | n + 1, cursor =>
    match cursor.next? with
    | (some t, cursor) => if t.isTrivia then skipTrivia n cursor else (some t, cursor)
    | (none, cursor) => (none, cursor)

/-- Moves past the next token that does not only separate others and gives it. -/
def nextSignificant? (cursor : Cursor) : Option Token × Cursor :=
  cursor.skipTrivia (cursor.tokens.length - cursor.position)

/-- Moves to a place, or to the end if that lies before it. -/
def reset (cursor : Cursor) (position : Nat) : Cursor :=
  { cursor with position := min position cursor.tokens.length }

end Cursor

end Verdict
