import TextCompletion.Tensor
import TextCompletion.Text.Quoted

/-!
What can be wrong with a file of tensors, and with a tensor that is asked for.
-/

namespace TextCompletion.Weights

inductive HeaderFault where
  | tooSmall
  | tooLarge
  | beyondFile
  | notText
  | notTensors
  | badOffset (name : String)
  | badSize
  | overflow
  | incomplete
  deriving DecidableEq, Repr

def HeaderFault.message : HeaderFault → String
  | .tooSmall => "HeaderTooSmall"
  | .tooLarge => "HeaderTooLarge"
  | .beyondFile => "InvalidHeaderLength"
  | .notText => "InvalidHeader"
  | .notTensors => "InvalidHeaderDeserialization"
  | .badOffset name => "InvalidOffset(" ++ Text.quote name ++ ")"
  | .badSize => "TensorInvalidInfo"
  | .overflow => "ValidationOverflow"
  | .incomplete => "MetadataIncompleteBuffer"

inductive ArchiveFault where
  | noDirectory
  | badDirectory
  | badEntry
  | compressed
  | truncated
  | unknownInstruction (code : Nat)
  | notText (position : Nat)
  | emptyStack
  | emptySlot (slot : Nat)
  | noMark
  | notList
  | notDictionary
  | oddItems
  deriving DecidableEq, Repr

def ArchiveFault.message : ArchiveFault → String
  | .noDirectory => "invalid Zip archive: Could not find EOCD"
  | .badDirectory => "invalid Zip archive: Invalid Central Directory header"
  | .badEntry => "invalid Zip archive: Invalid local file header"
  | .compressed => "unsupported Zip archive: Compression method not supported"
  | .truncated => "failed to fill whole buffer"
  | .unknownInstruction code => "unknown op-code " ++ toString code
  | .notText position => "invalid utf-8 sequence of 1 bytes from index " ++ toString position
  | .emptyStack => "unexpected empty stack"
  | .emptySlot slot => "missing object in memo " ++ toString slot
  | .noMark => "marker object not found"
  | .notList => "expected a list"
  | .notDictionary => "expected a dict"
  | .oddItems => "setitems: not an even number of objects"

inductive TensorFault where
  | notFound (name : String)
  | wrongShape (name : String) (expected found : List Nat)
  | unusable (type : String)
  | noStorage
  | compressedStorage
  | tooShort
  | notContiguous (shape strides : List Nat) (start : Nat)
  deriving DecidableEq, Repr

def TensorFault.message : TensorFault → String
  | .notFound name => "cannot find tensor " ++ name
  | .wrongShape name expected found =>
    "shape mismatch for " ++ name ++ ", expected: " ++ Tensor.shapeText expected ++ ", got: " ++
      Tensor.shapeText found
  | .unusable type => "unsupported safetensor dtype " ++ type
  | .noStorage => "specified file not found in archive"
  | .compressedStorage => "unsupported Zip archive: Compression method not supported"
  | .tooShort => "failed to fill whole buffer"
  | .notContiguous shape strides start =>
    "cannot retrieve non-contiguous tensors Layout \x7b shape: " ++ Tensor.shapeText shape ++
      ", stride: " ++ Tensor.shapeText strides ++ ", start_offset: " ++ toString start ++ " \x7d"

end TextCompletion.Weights
