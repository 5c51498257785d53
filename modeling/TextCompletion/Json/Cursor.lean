/-!
A place in a document that is being read: the bytes still to come, and how far the reader got, as a
line and as the number of bytes passed in that line.
-/

namespace TextCompletion.Json

structure Position where
  line : Nat
  column : Nat
  deriving DecidableEq, Repr

def Position.after (p : Position) (b : UInt8) : Position :=
  if b = 10 then ⟨p.line + 1, 0⟩ else ⟨p.line, p.column + 1⟩

structure Cursor where
  rest : List UInt8
  position : Position

namespace Cursor

def start (bytes : List UInt8) : Cursor := ⟨bytes, ⟨1, 0⟩⟩

def peek? (c : Cursor) : Option UInt8 := c.rest.head?

def advance (c : Cursor) : Cursor :=
  match c.rest with
  | [] => c
  | b :: rest => ⟨rest, c.position.after b⟩

/-- The position of the byte that comes next, counted as if it had been passed. -/
def peekPosition (c : Cursor) : Position := c.advance.position

def skipWhile (test : UInt8 → Bool) (c : Cursor) : Cursor :=
  go c.rest c.position
where
  go : List UInt8 → Position → Cursor
    | [], p => ⟨[], p⟩
    | b :: rest, p => if test b then go rest (p.after b) else ⟨b :: rest, p⟩

def isBlankByte (b : UInt8) : Bool := b == 32 || b == 9 || b == 10 || b == 13

def skipBlank (c : Cursor) : Cursor := c.skipWhile isBlankByte

end Cursor
end TextCompletion.Json
