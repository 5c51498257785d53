import TextCompletion.Text.Utf8
import TextCompletion.Weights.Element
import TextCompletion.Weights.Fault

/-!
Pickled objects: a byte string is a program for a small stack machine, and the object is what the
machine leaves on top. No call that the program asks for is carried out; a call stays in the object
as the function and its arguments, except that an ordered dictionary starts as an empty one.
-/

namespace TextCompletion.Weights.Pickle

inductive Value where
  | mark
  | none
  | boolean (b : Bool)
  | integer (n : Int)
  | real (bits : Nat)
  | text (s : String)
  | tuple (items : List Value)
  | list (items : List Value)
  /-- Keys and values in the order in which they were put in. -/
  | dictionary (items : List (Value × Value))
  | global (module name : String)
  | call (function arguments : Value)
  | instance (type arguments : Value)
  | built (object state : Value)
  | external (id : Value)

inductive Instruction where
  | protocol (version : Nat)
  | push (v : Value)
  | external
  | tuple
  | tupleOf (count : Nat)
  | append
  | appends
  | setItem
  | setItems
  | dictionary
  | build
  | reduce
  | newObject
  | get (slot : Nat)
  | put (slot : Nat)
  | stop

abbrev Decoded := Except ArchiveFault (Instruction × Bytes)

def takeWord (size : Nat) (bytes : Bytes) : Except ArchiveFault (Nat × Bytes) :=
  if bytes.length < size then .error .truncated
  else .ok (littleEndian (bytes.take size), bytes.drop size)

def trimReturn (line : Bytes) : Bytes :=
  if line.getLast? = some 13 then line.dropLast else line

def takeLine (bytes : Bytes) : String × Bytes :=
  (Text.Utf8.decodeLossy (trimReturn (bytes.takeWhile (· != 10))),
    (bytes.dropWhile (· != 10)).drop 1)

def takeText (size : Nat) (bytes : Bytes) : Decoded := do
  let (n, rest) ← takeWord size bytes
  if rest.length < n then throw .truncated
  match Text.Utf8.decode? (rest.take n) with
  | some s => pure (.push (.text s), rest.drop n)
  | none => throw (.notText (Text.Utf8.wellFormedLength (rest.take n)))

def pushWord (size bits : Nat) (bytes : Bytes) : Decoded := do
  let (n, rest) ← takeWord size bytes
  pure (.push (.integer (if bits = 0 then n else signed bits n)), rest)

/-- A whole number with its own length, of at most eight bytes. -/
def pushLong (bytes : Bytes) : Decoded := do
  let (size, rest) ← takeWord 1 bytes
  let (n, rest) ← takeWord size rest
  pure (.push (.integer (if size = 8 then signed 64 n else n)), rest)

def withSlot (f : Nat → Instruction) (size : Nat) (bytes : Bytes) : Decoded := do
  let (n, rest) ← takeWord size bytes
  pure (f n, rest)

def decode (code : UInt8) (rest : Bytes) : Decoded :=
  match code with
  | 0x80 => withSlot .protocol 1 rest
  | 0x63 =>
    let (module, rest) := takeLine rest
    let (name, rest) := takeLine rest
    .ok (.push (.global module name), rest)
  | 0x4B => pushWord 1 0 rest
  | 0x4D => pushWord 2 0 rest
  | 0x4A => pushWord 4 32 rest
  | 0x8A => pushLong rest
  | 0x47 => do
    let (_, after) ← takeWord 8 rest
    pure (.push (.real (littleEndian (rest.take 8).reverse)), after)
  | 0x58 => takeText 4 rest
  | 0x51 => .ok (.external, rest)
  | 0x74 => .ok (.tuple, rest)
  | 0x85 => .ok (.tupleOf 1, rest)
  | 0x86 => .ok (.tupleOf 2, rest)
  | 0x87 => .ok (.tupleOf 3, rest)
  | 0x88 => .ok (.push (.boolean true), rest)
  | 0x89 => .ok (.push (.boolean false), rest)
  | 0x61 => .ok (.append, rest)
  | 0x65 => .ok (.appends, rest)
  | 0x73 => .ok (.setItem, rest)
  | 0x75 => .ok (.setItems, rest)
  | 0x64 => .ok (.dictionary, rest)
  | 0x4E => .ok (.push .none, rest)
  | 0x2E => .ok (.stop, rest)
  | 0x62 => .ok (.build, rest)
  | 0x7D => .ok (.push (.dictionary []), rest)
  | 0x28 => .ok (.push .mark, rest)
  | 0x52 => .ok (.reduce, rest)
  | 0x29 => .ok (.push (.tuple []), rest)
  | 0x5D => .ok (.push (.list []), rest)
  | 0x68 => withSlot .get 1 rest
  | 0x6A => withSlot .get 4 rest
  | 0x71 => withSlot .put 1 rest
  | 0x72 => withSlot .put 4 rest
  | 0x81 => .ok (.newObject, rest)
  | _ => .error (.unknownInstruction code.toNat)

structure Machine where
  stack : List Value := []
  slots : List (Nat × Value) := []

def splitAtMark : List Value → Except ArchiveFault (List Value × List Value)
  | [] => .error .noMark
  | .mark :: below => .ok ([], below)
  | v :: below => (splitAtMark below).map fun (above, below) => (v :: above, below)

/-- Values that alternate value, key, value, key, as pairs in that order. -/
def pairs : List Value → Except ArchiveFault (List (Value × Value))
  | [] => .ok []
  | [_] => .error .oddItems
  | v :: k :: rest => (pairs rest).map ((k, v) :: ·)

def isDictionaryType (module name : String) : Bool :=
  module == "collections" && (name == "OrderedDict" || name == "defaultdict")

def Value.apply (function arguments : Value) : Value :=
  match function with
  | .global module name =>
    if isDictionaryType module name then .dictionary [] else .call function arguments
  | _ => .call function arguments

def Value.instantiate (type arguments : Value) : Value :=
  match type with
  | .global module name =>
    if isDictionaryType module name then .dictionary [] else .instance type arguments
  | _ => .instance type arguments

def Value.withState (object state : Value) : Value :=
  match object, state with
  | .dictionary items, .dictionary more => .dictionary (items ++ more)
  | object, state => .built object state

def pop : List Value → Except ArchiveFault (Value × List Value)
  | v :: below => .ok (v, below)
  | [] => .error .emptyStack

def topList (stack : List Value) : Except ArchiveFault (List Value × List Value) := do
  match ← pop stack with
  | (.list items, below) => pure (items, below)
  | _ => throw .notList

def topDictionary (stack : List Value) :
    Except ArchiveFault (List (Value × Value) × List Value) := do
  match ← pop stack with
  | (.dictionary items, below) => pure (items, below)
  | _ => throw .notDictionary

def stackStep (stack : List Value) : Instruction → Except ArchiveFault (List Value)
  | .push v => pure (v :: stack)
  | .external => do
    let (id, below) ← pop stack
    pure (.external id :: below)
  | .tuple => do
    let (above, below) ← splitAtMark stack
    pure (.tuple above.reverse :: below)
  | .tupleOf count =>
    if stack.length < count then throw .emptyStack
    else pure (.tuple (stack.take count).reverse :: stack.drop count)
  | .append => do
    let (v, below) ← pop stack
    let (items, below) ← topList below
    pure (.list (items ++ [v]) :: below)
  | .appends => do
    let (above, below) ← splitAtMark stack
    let (items, below) ← topList below
    pure (.list (items ++ above.reverse) :: below)
  | .setItem => do
    let (v, below) ← pop stack
    let (k, below) ← pop below
    let (items, below) ← topDictionary below
    pure (.dictionary (items ++ [(k, v)]) :: below)
  | .setItems => do
    let (above, below) ← splitAtMark stack
    let (items, below) ← topDictionary below
    pure (.dictionary (items ++ (← pairs above)) :: below)
  | .dictionary => do
    let (above, below) ← splitAtMark stack
    pure (.dictionary (← pairs above) :: below)
  | .build => do
    let (state, below) ← pop stack
    let (object, below) ← pop below
    pure (object.withState state :: below)
  | .reduce => do
    let (arguments, below) ← pop stack
    let (function, below) ← pop below
    pure (function.apply arguments :: below)
  | .newObject => do
    let (arguments, below) ← pop stack
    let (type, below) ← pop below
    pure (type.instantiate arguments :: below)
  | _ => pure stack

def Machine.step (m : Machine) : Instruction → Except ArchiveFault Machine
  | .get slot =>
    match m.slots.lookup slot with
    | some v => pure { m with stack := v :: m.stack }
    | none => throw (.emptySlot slot)
  | .put slot => do
    let (v, _) ← pop m.stack
    pure { m with slots := (slot, v) :: m.slots }
  | instruction => do pure { m with stack := ← stackStep m.stack instruction }

/-- Runs up to the stop instruction. Every instruction has at least one byte, so the length of the
program is fuel enough. -/
def Machine.run : Nat → Machine → Bytes → Except ArchiveFault Value
  | 0, _, _ => .error .truncated
  | _ + 1, _, [] => .error .truncated
  | fuel + 1, m, code :: rest => do
    match ← decode code rest with
    | (.stop, _) => Prod.fst <$> pop m.stack
    | (instruction, rest) => run fuel (← m.step instruction) rest

def load (bytes : Bytes) : Except ArchiveFault Value := Machine.run bytes.length {} bytes

end TextCompletion.Weights.Pickle
