import TextCompletion.Failure
import TextCompletion.Text.Blank
import TextCompletion.Text.Lowercase
import TextCompletion.Text.WordCharacter

/-!
A tokenizer of whole words: texts become ids of a vocabulary, and ids become texts. Added tokens are
cut out of a text wherever they occur, before anything else; what lies between them is normalised,
split into words, and looked up word by word. A template may put special tokens around the result,
and special tokens are left out of decoded text. Vocabularies of parts of words are left out, and so
are pairs of texts and the other ways of splitting, normalising and joining.
-/

namespace TextCompletion

structure AddedToken where
  text : String
  id : Nat
  isSpecial : Bool
  /-- It is looked for in the normalised text instead of the text as given. -/
  isNormalized : Bool := false
  isSingleWord : Bool := false
  stripsLeft : Bool := false
  stripsRight : Bool := false
  deriving DecidableEq, Repr

inductive WordSplit where
  | none
  | blanks
  | classes
  deriving DecidableEq, Repr

inductive TemplatePart where
  | text
  | special (ids : List Nat)
  deriving DecidableEq, Repr

def TemplatePart.fill (special : Bool) (ids : List Nat) : TemplatePart → List Nat
  | .text => ids
  | .special added => if special then added else []

inductive Side where
  | left
  | right
  deriving DecidableEq, Repr

inductive TruncationStrategy where
  | longestFirst
  | onlyFirst
  | onlySecond
  deriving DecidableEq, Repr

structure Truncation where
  side : Side := .right
  maxLength : Nat := 0
  strategy : TruncationStrategy := .longestFirst
  deriving DecidableEq, Repr

/-- How ids are filled up: to a length, or to that of the longest of the texts, of which there is
one; and from there to the next multiple. -/
structure Padding where
  length : Option Nat := none
  multiple : Option Nat := none
  side : Side := .right
  id : Nat := 0
  deriving DecidableEq, Repr

inductive Joining where
  | spaced
  | fused
  deriving DecidableEq, Repr

def Joining.join : Joining → List String → String
  | .spaced => " ".intercalate
  | .fused => String.join

structure Tokenizer where
  vocabulary : List (String × Nat)
  unknownWord : String
  /-- The added tokens, in the order in which they were added; a text may have been added twice. -/
  added : List AddedToken := []
  lowercase : Bool := false
  split : WordSplit := .none
  template : Option (List TemplatePart) := none
  truncation : Option Truncation := none
  padding : Option Padding := none
  joining : Joining := .spaced
  deriving DecidableEq, Repr

def Truncation.apply (r : Truncation) (reserved : Nat) (ids : List Nat) :
    Except Failure (List Nat) :=
  let limit := r.maxLength - reserved
  if ids.length ≤ limit ∨ r.maxLength < reserved then .ok ids
  else
    let kept : List Nat :=
      match r.side with
      | .right => ids.take limit
      | .left => ids.drop (ids.length - limit)
    if limit = 0 then .ok kept
    else
      match r.strategy with
      | .onlySecond =>
        .error (.of (.stated "Truncation error: Second sequence not provided"))
      | _ => .ok kept

def Padding.target (p : Padding) (length : Nat) : Nat :=
  let least := p.length.getD length
  match p.multiple with
  | none | some 0 => least
  | some m => if least % m = 0 then least else least + (m - least % m)

def Padding.apply (p : Padding) (ids : List Nat) : List Nat :=
  let filler := List.replicate (p.target ids.length - ids.length) p.id
  match p.side with
  | .left => filler ++ ids
  | .right => ids ++ filler

namespace Tokenizer

def runs {κ : Type} [DecidableEq κ] (kind : Char → Option κ) : List Char → List (List Char)
  | [] => []
  | c :: cs =>
    match kind c with
    | none => runs kind cs
    | some k =>
      match cs, runs kind cs with
      | d :: _, word :: words =>
        if kind d = some k then (c :: word) :: words else [c] :: word :: words
      | _, words => [c] :: words

def blankKind (c : Char) : Option Unit := if Text.isBlank c then none else some ()

/-- Blanks separate words, and letters are of another kind than the rest. -/
def classKind (c : Char) : Option Bool :=
  if Text.isBlank c then none else some (Text.isWordCharacter c)

def words : WordSplit → List Char → List (List Char)
  | .none, [] => []
  | .none, cs => [cs]
  | .blanks, cs => runs blankKind cs
  | .classes, cs => runs classKind cs

inductive Piece where
  | stretch (cs : List Char)
  | token (id : Nat)

def stretches (reversed : List Char) : List Piece :=
  if reversed.isEmpty then [] else [.stretch reversed.reverse]

def longestAt {α : Type} (texts : List (List Char × α)) (cs : List Char) : Option (Nat × α) :=
  texts.foldl (fun best (t, a) =>
    if t.isEmpty || !t.isPrefixOf cs then best
    else
      match best with
      | none => some (t.length, a)
      | some (length, _) => if length < t.length then some (t.length, a) else best) none

/-- A token that is a single word is found only where no word goes on at either of its ends. -/
def mayStand (a : AddedToken) (before : Option Char) (after : List Char) : Bool :=
  !a.isSingleWord ||
    !(before.any Text.isWordCharacter || after.head?.any Text.isWordCharacter)

/-- Cuts the texts out from left to right. No text is looked for within the next `blind` characters,
as they belong to the text found last, and the next `gone` ones are no part of a stretch. `open_`
holds in reverse the stretch before the cursor, and `before` is the character passed last. -/
def cutFrom (texts : List (List Char × AddedToken)) :
    (blind gone : Nat) → (before : Option Char) → (open_ : List Char) → List Char → List Piece
  | _, _, _, open_, [] => stretches open_
  | blind + 1, gone, _, open_, c :: cs =>
    cutFrom texts blind (gone - 1) (some c) (if gone = 0 then c :: open_ else open_) cs
  | 0, gone, before, open_, c :: cs =>
    let passed := if gone = 0 then c :: open_ else open_
    match longestAt texts (c :: cs) with
    | none => cutFrom texts 0 (gone - 1) (some c) passed cs
    | some (length, a) =>
      let after := (c :: cs).drop length
      if mayStand a before after then
        let blanks := if a.stripsRight then (after.takeWhile Text.isBlank).length else 0
        stretches (if a.stripsLeft then open_.dropWhile Text.isBlank else open_) ++
          .token a.id :: cutFrom texts (length - 1) (length - 1 + blanks) (some c) [] cs
      else cutFrom texts (length - 1) (gone - 1) (some c) passed cs

def cut (texts : List (List Char × AddedToken)) (cs : List Char) : List Piece :=
  cutFrom texts 0 0 none [] cs

def firstOfEach : List AddedToken → List AddedToken
  | [] => []
  | a :: rest => a :: (firstOfEach rest).filter fun b => b.text != a.text

variable (t : Tokenizer)

def normalize (s : String) : String := if t.lowercase then Text.lower s else s

def isSpecial (text : String) : Bool := t.added.any fun a => a.isSpecial && a.text == text

/-- The added tokens that are looked for. A special text is looked for as it was first added as
special, before all others. -/
def sought : List AddedToken :=
  firstOfEach (t.added.filter fun a => a.isSpecial) ++
    t.added.filter fun a => !t.isSpecial a.text

/-- Of tokens with one id the one that was added last says how it is cut out. -/
def holder (a : AddedToken) : AddedToken :=
  (t.added.reverse.find? fun b => b.id == a.id).getD a

def rawTexts : List (List Char × AddedToken) :=
  (t.sought.filter fun a => !a.isNormalized).map fun a => (a.text.toList, t.holder a)

def normalizedTexts : List (List Char × AddedToken) :=
  (t.sought.filter fun a => a.isNormalized).map fun a =>
    ((t.normalize a.text).toList, t.holder a)

def pieces (text : String) : List Piece :=
  (cut t.rawTexts text.toList).flatMap fun p =>
    match p with
    | .token id => [.token id]
    | .stretch cs => cut t.normalizedTexts (t.normalize (String.ofList cs)).toList

def wordId (word : List Char) : Except Failure Nat :=
  match t.vocabulary.lookup (String.ofList word) with
  | some id => .ok id
  | none =>
    match t.vocabulary.lookup t.unknownWord with
    | some id => .ok id
    | none => .error (.of .noUnknownWord)

def pieceIds : Piece → Except Failure (List Nat)
  | .token id => .ok [id]
  | .stretch cs => (words t.split cs).mapM t.wordId

def addedBySpecial : Nat :=
  (t.template.getD []).foldl (fun n p =>
    match p with
    | .text => n
    | .special ids => n + ids.length) 0

def surround (special : Bool) (ids : List Nat) : List Nat :=
  match t.template with
  | none => ids
  | some parts => parts.flatMap (TemplatePart.fill special ids)

def pad (ids : List Nat) : List Nat :=
  match t.padding with
  | none => ids
  | some p => p.apply ids

def encode (text : String) (special : Bool) : Except Failure (List Nat) := do
  let ids := (← (t.pieces text).mapM t.pieceIds).flatten
  let ids ←
    match t.truncation with
    | none => pure ids
    | some r => r.apply (if special then t.addedBySpecial else 0) ids
  pure (t.pad (t.surround special ids))

/-- The text of an id: that of the token last added with it, or else that of the vocabulary. -/
def textOf? (id : Nat) : Option String :=
  match t.added.reverse.find? fun a => a.id == id with
  | some a => some a.text
  | none => (t.vocabulary.find? fun e => e.2 == id).map Prod.fst

/-- The texts that some ids show. Special tokens and ids without a text are left out. -/
def shown (ids : List Nat) : List String :=
  (ids.filterMap t.textOf?).filter fun s => !t.isSpecial s

def decodeBy {β : Type} (join : List String → β) (ids : List Nat) : β := join (t.shown ids)

def decode (ids : List Nat) : String := t.decodeBy t.joining.join ids

end Tokenizer
end TextCompletion
