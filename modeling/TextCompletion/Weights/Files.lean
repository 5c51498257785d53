import TextCompletion.Failure
import TextCompletion.Json.Record
import TextCompletion.Text.Sorted

/-!
Which files of a model directory hold its weights. Five sources are tried in a fixed order, and the
first that is present decides alone: one that is present and broken is an error, never a reason to
look further. Shards named by an index come out sorted and each once, whatever the index's order.
-/

namespace TextCompletion

inductive WeightFiles where
  | safetensors (paths : List String)
  | archives (paths : List String)
  deriving DecidableEq, Repr

namespace WeightFiles

def paths : WeightFiles → List String
  | safetensors paths => paths
  | archives paths => paths

def label : WeightFiles → String
  | safetensors paths => "Safetensors([" ++ ", ".intercalate (paths.map Text.quote) ++ "])"
  | archives paths => "Pth([" ++ ", ".intercalate (paths.map Text.quote) ++ "])"

def safetensorsName : String := "model.safetensors"
def safetensorsIndexName : String := "model.safetensors.index.json"
def archiveName : String := "pytorch_model.bin"
def archiveIndexName : String := "pytorch_model.bin.index.json"

def lastValues : List (String × String) → List String
  | [] => []
  | (k, v) :: rest =>
    if rest.any fun m => m.1 == k then lastValues rest else v :: lastValues rest

open Json Json.Reader in
def indexSchema : Schema (List (String × String)) where
  name := "struct ShardIndex"
  blank := []
  fields := [{ name := "weight_map", required := true, read := fun _ => Reader.map Reader.text }]

/-- Paths of the named shards, all of which must be present. -/
def locateShards (t : FileTree) (directory index : String) :
    List String → Except Failure (List String)
  | [] => .ok []
  | name :: names =>
    let path := FilePath.join directory name
    if t.exists? path then (locateShards t directory index names).map (path :: ·)
    else .error (.of (.missingShard name index))

def ofIndex (t : FileTree) (directory index : String) : Except Failure (List String) := do
  let path := FilePath.join directory index
  let members ← (Json.Reader.record indexSchema).ofFile path (← t.contentOf path)
  match Text.sortDistinct (lastValues members) with
  | [] => .error (.of (.noShards index))
  | names => locateShards t directory index names

/-- The entries of a directory that end in `.safetensors`, files or not. -/
def loose (t : FileTree) (directory : String) : Except Failure (List String) := do
  let names ← accessing (.listDirectory directory) (t.list directory)
  let shards :=
    Text.sortDistinct (names.filter fun n => FilePath.extension? n == some "safetensors")
  pure (shards.map (FilePath.join directory))

def find (t : FileTree) (directory : String) : Except Failure WeightFiles := do
  let present (name : String) : Bool := t.exists? (FilePath.join directory name)
  if present safetensorsName then
    return safetensors [FilePath.join directory safetensorsName]
  if present safetensorsIndexName then
    return safetensors (← ofIndex t directory safetensorsIndexName)
  match ← loose t directory with
  | path :: paths => return safetensors (path :: paths)
  | [] =>
    if present archiveName then return archives [FilePath.join directory archiveName]
    if present archiveIndexName then return archives (← ofIndex t directory archiveIndexName)
    throw (.of (.noWeights directory))

end WeightFiles
end TextCompletion
