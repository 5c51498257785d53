import TextCompletion.Log
import TextCompletion.Weights.Archive
import TextCompletion.Weights.Header

/-!
The tensors of a model by name, whatever files they came from. Files are read in their order, and
of tensors with the same name the last one counts. An element type that no model uses makes its
tensor unusable without making the file unusable.
-/

namespace TextCompletion.Weights

abbrev Stored := Except TensorFault Tensor

/-- Named tensors; later ones replace earlier ones of the same name. -/
structure Store where
  entries : List (String × Stored) := []

namespace Store

def find? (s : Store) (name : String) : Option Stored :=
  (s.entries.reverse.find? fun e => e.1 == name).map Prod.snd

/-- Whether there is a tensor of the name. One of a type that is never read is there all the same;
one whose bytes cannot be had is not. -/
def contains (s : Store) (name : String) : Bool :=
  match s.find? name with
  | some (.ok _) => true
  | some (.error (.unusable _)) => true
  | _ => false

def get (s : Store) (name : String) (shape : List Nat) : Except TensorFault Tensor :=
  match s.find? name with
  | none => .error (.notFound name)
  | some (.error f) => .error f
  | some (.ok t) => if t.shape = shape then .ok t else .error (.wrongShape name shape t.shape)

/-- The tensors of all the stores, those of later stores replacing those of earlier ones. -/
def join (stores : List Store) : Store := ⟨stores.flatMap Store.entries⟩

def fault? (s : Store) : Option TensorFault :=
  s.entries.findSome? fun e =>
    match s.find? e.1 with
    | some (.error f) => some f
    | _ => none

def size (s : Store) : Nat := (s.entries.map Prod.fst).eraseDups.length

end Store

def Header.stored (h : Header) (info : TensorInfo) : Stored :=
  match info.type.decode? with
  | none => .error (.unusable info.type.label)
  | some decode =>
    let bytes := (h.content.drop info.first).take (info.last - info.first)
    .ok ⟨info.shape, elements info.type.size decode (info.shape.foldl (· * ·) 1) bytes⟩

def Header.store (h : Header) : Store := ⟨h.tensors.map fun (name, info) => (name, h.stored info)⟩

def inspect (t : FileTree) (path : String) : Except Failure Header := do
  match ← accessing (.openFile path) (t.lookup path) with
  | .directory _ => .error ⟨[.mapFile path], .os .noDevice⟩
  | .file content =>
    match Header.parse content with
    | .ok h => .ok h
    | .error f => .error ⟨[.readHeader path], .header f⟩

def readArchive (t : FileTree) (path : String) : Except Failure Store := do
  match ← accessing (.loadFile path) (t.lookup path) with
  | .directory _ => .error ⟨[.loadFile path, .system .invalidArgument], .os .invalidArgument⟩
  | .file content =>
    match Archive.tensors content with
    | .ok entries => .ok ⟨entries⟩
    | .error f => .error ⟨[.loadFile path], .archive f⟩

/-- An archive all of whose tensors are read at once, so that one that cannot be read is a failure
of the file. -/
def readWholeArchive (t : FileTree) (path : String) : Except Failure Store := do
  let store ← readArchive t path
  match store.fault? with
  | some f => .error ⟨[.loadFile path], .tensor f⟩
  | none => .ok store

def load (t : FileTree) : WeightFiles → Logged Store
  | .safetensors paths => do
    let headers ← liftM (paths.mapM (inspect t))
    Logged.report (.headersChecked paths.length (headers.flatMap Header.tensors).length)
    pure (Store.join (headers.map Header.store))
  | .archives [path] => do
    Logged.report (.archiveOpened path)
    liftM (readArchive t path)
  | .archives paths => do
    let store := Store.join (← liftM (paths.mapM (readWholeArchive t)))
    Logged.report (.archivesMerged paths.length store.size)
    pure store

end TextCompletion.Weights
