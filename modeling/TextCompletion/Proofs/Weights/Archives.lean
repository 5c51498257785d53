import Mathlib.Data.List.Basic
import TextCompletion.Proofs.Results
import TextCompletion.Weights.Store

/-!
Archives as they are written: the records of the files one after another, then a directory with a
record for each file, then the record that ends the archive. Main statements: the files of an
archive are found as they were put into it, and the tensors of an archive with one dictionary are
those that the dictionary names, each read from the storage that lies beside it.
-/

namespace TextCompletion.Weights.Archive

def word : Nat → Nat → Bytes
  | 0, _ => []
  | size + 1, n => UInt8.ofNat n :: word size (n / 256)

/-- A file that is put into an archive, with its checksum. -/
structure Packed where
  name : Bytes
  check : Nat
  content : Bytes

namespace Packed

variable (f : Packed)

def entry : Entry := ⟨Text.Utf8.decodeLossy f.name, false, f.content⟩

/-- Flags, method and times, the checksum, and the sizes: what both records of a file have. -/
def about : Bytes :=
  word 6 0 ++ word 2 33 ++ word 4 f.check ++ word 4 f.content.length ++ word 4 f.content.length ++
    word 2 f.name.length

def localRecord : Bytes :=
  (word 4 localSignature ++ word 2 20 ++ f.about ++ word 2 0) ++ (f.name ++ f.content)

def centralRecord (offset : Nat) : Bytes :=
  (word 4 centralSignature ++ word 2 20 ++ word 2 20 ++ f.about ++ word 12 0 ++ word 4 offset) ++
    f.name

structure Fits : Prop where
  name : f.name.length < 0x10000
  content : f.content.length < 0x100000000

instance decidableFits : Decidable f.Fits :=
  decidable_of_iff (_ ∧ _) ⟨fun both => ⟨both.1, both.2⟩, fun fits => ⟨fits.name, fits.content⟩⟩

end Packed

def localRecords (files : List Packed) : Bytes := files.flatMap Packed.localRecord

/-- The directory of files whose records begin at the offset. -/
def directory : Nat → List Packed → Bytes
  | _, [] => []
  | offset, f :: files =>
    f.centralRecord offset ++ directory (offset + f.localRecord.length) files

def endRecord (count size offset : Nat) : Bytes :=
  word 4 endSignature ++ word 4 0 ++ word 2 count ++ word 2 count ++ word 4 size ++
    word 4 offset ++ word 2 0

def pack (files : List Packed) : Bytes :=
  localRecords files ++ directory 0 files ++
    endRecord files.length (directory 0 files).length (localRecords files).length

/-! ## The files -/

theorem littleEndian_word (size : Nat) {n : Nat} (fits : n < Nat.pow 256 size) :
    littleEndian (word size n) = n := by
  induction size generalizing n with
  | zero =>
    obtain rfl : n = 0 := by simpa using fits
    rfl
  | succ size ih =>
    have rest : n / 256 < Nat.pow 256 size :=
      Nat.div_lt_of_lt_mul (by rwa [Nat.mul_comm] : n < 256 * Nat.pow 256 size)
    rw [word, littleEndian, ih rest, UInt8.toNat_ofNat']
    omega

theorem findEnd_of_short {bytes : Bytes} (short : bytes.length < 22) : findEnd bytes = none := by
  induction bytes with
  | nil => rfl
  | cons b rest ih =>
    rw [List.length_cons] at short
    rw [findEnd, ih (by omega)]
    refine if_neg fun ⟨_, enough⟩ => ?_
    rw [List.length_cons] at enough
    omega

theorem findEnd_append {record : Bytes} (found : findEnd record = some record) (front : Bytes) :
    findEnd (front ++ record) = some record := by
  induction front with
  | nil => exact found
  | cons b front ih => rw [List.cons_append, findEnd, ih]

theorem findEnd_endRecord (count size offset : Nat) :
    findEnd (endRecord count size offset) = some (endRecord count size offset) := by
  obtain ⟨b, rest, whole, short⟩ : ∃ b rest, endRecord count size offset = b :: rest ∧
      rest.length = 21 := ⟨_, _, rfl, rfl⟩
  have signed : wordAt (endRecord count size offset) 0 4 = endSignature := by
    exact littleEndian_word 4 (by decide)
  have bounded : 22 + wordAt (endRecord count size offset) 20 2 ≤
      (endRecord count size offset).length := by
    show 22 + littleEndian (word 2 0) ≤ 22
    decide
  rw [whole] at signed bounded ⊢
  rw [findEnd, findEnd_of_short (by omega)]
  exact if_pos ⟨signed, bounded⟩

variable {f : Packed} {files : List Packed}

/-- The content of a file whose record stands between other bytes. -/
theorem contentAt_localRecord (fits : f.Fits) (front back : Bytes) :
    contentAt (front ++ (f.localRecord ++ back)) front.length f.content.length =
      .ok f.content := by
  have header : (front ++ (f.localRecord ++ back)).drop front.length = f.localRecord ++ back :=
    List.drop_left
  have signed : wordAt (f.localRecord ++ back) 0 4 = localSignature :=
    littleEndian_word 4 (by decide)
  have named : wordAt (f.localRecord ++ back) 26 2 = f.name.length :=
    littleEndian_word 2 fits.name
  have more : wordAt (f.localRecord ++ back) 28 2 = 0 := littleEndian_word 2 (by decide)
  have content : (f.localRecord ++ back).drop (30 + f.name.length + 0) = f.content ++ back := by
    have lead : (f.localRecord ++ back).drop 30 = f.name ++ (f.content ++ back) := by
      show (f.name ++ f.content) ++ back = _
      rw [List.append_assoc]
    rw [Nat.add_zero, ← List.drop_drop, lead, List.drop_left]
  have long : ¬ (f.localRecord ++ back).length < 30 := by
    show ¬ ((f.name ++ f.content) ++ back).length + 30 < 30
    exact Nat.not_lt.2 (Nat.le_add_left ..)
  have enough : ¬ (f.content ++ back).length < f.content.length := by
    rw [List.length_append]
    exact Nat.not_lt.2 (Nat.le_add_right ..)
  rw [contentAt, header]
  simp only [signed, named, more, content, long, enough, ne_eq, not_true, or_false, if_false,
    List.take_left]

theorem length_centralRecord (offset : Nat) (f : Packed) :
    (f.centralRecord offset).length = 46 + f.name.length := by
  show f.name.length + 46 = _
  exact Nat.add_comm ..

theorem readDirectory_centralRecord (fits : f.Fits) {offset : Nat} (early : offset < 0x100000000)
    (file rest : Bytes) (count : Nat) :
    readDirectory file (count + 1) (f.centralRecord offset ++ rest) = (do
      let content ← contentAt file offset f.content.length
      pure ({ f.entry with content } :: (← readDirectory file count rest))) := by
  have signed : wordAt (f.centralRecord offset ++ rest) 0 4 = centralSignature :=
    littleEndian_word 4 (by decide)
  have plain : wordAt (f.centralRecord offset ++ rest) 10 2 = 0 := littleEndian_word 2 (by decide)
  have size : wordAt (f.centralRecord offset ++ rest) 20 4 = f.content.length :=
    littleEndian_word 4 fits.content
  have named : wordAt (f.centralRecord offset ++ rest) 28 2 = f.name.length :=
    littleEndian_word 2 fits.name
  have extra : wordAt (f.centralRecord offset ++ rest) 30 2 = 0 := littleEndian_word 2 (by decide)
  have comment : wordAt (f.centralRecord offset ++ rest) 32 2 = 0 :=
    littleEndian_word 2 (by decide)
  have start : wordAt (f.centralRecord offset ++ rest) 42 4 = offset := littleEndian_word 4 early
  have long : ¬ (f.centralRecord offset ++ rest).length < 46 := by
    rw [List.length_append, length_centralRecord]
    omega
  have name : ((f.centralRecord offset ++ rest).drop 46).take f.name.length = f.name := by
    show (f.name ++ rest).take f.name.length = f.name
    exact List.take_left
  have next : (f.centralRecord offset ++ rest).drop (46 + f.name.length + 0 + 0) = rest := by
    rw [Nat.add_zero, ← length_centralRecord offset f, List.drop_left]
  rw [readDirectory]
  simp only [signed, plain, size, named, extra, comment, start, long, name, next]
  rfl

theorem readDirectory_directory (fits : ∀ f ∈ files, f.Fits) (front back more : Bytes)
    (within : (front ++ localRecords files).length < 0x100000000) :
    readDirectory (front ++ (localRecords files ++ back)) files.length
      (directory front.length files ++ more) = .ok (files.map Packed.entry) := by
  -- on the files, each with the records of the ones before it in front
  induction files generalizing front with
  | nil => rfl
  | cons f files ih =>
    obtain ⟨here, fits⟩ := List.forall_mem_cons.1 fits
    have split : localRecords (f :: files) = f.localRecord ++ localRecords files := rfl
    have within' : ((front ++ f.localRecord) ++ localRecords files).length < 0x100000000 := by
      rwa [List.append_assoc, ← split]
    have early : front.length < 0x100000000 := by
      rw [List.length_append] at within
      omega
    have others := ih fits (front ++ f.localRecord) within'
    rw [List.append_assoc, List.length_append] at others
    rw [split, directory, List.append_assoc, List.append_assoc, List.length_cons,
      readDirectory_centralRecord here early, contentAt_localRecord here, others]
    rfl

/-- The files of an archive are found as they were put into it. -/
theorem entries_pack (fits : ∀ f ∈ files, f.Fits) (count : files.length < 0x10000)
    (within : (localRecords files).length < 0x100000000) :
    entries (pack files) = .ok (files.map Packed.entry) := by
  have counted : wordAt (endRecord files.length (directory 0 files).length
      (localRecords files).length) 10 2 = files.length := littleEndian_word 2 count
  have start : wordAt (endRecord files.length (directory 0 files).length
      (localRecords files).length) 16 4 = (localRecords files).length :=
    littleEndian_word 4 within
  have listed := readDirectory_directory fits [] (directory 0 files ++ endRecord files.length
    (directory 0 files).length (localRecords files).length) (endRecord files.length
    (directory 0 files).length (localRecords files).length) within
  rw [entries, pack, findEnd_append (findEnd_endRecord ..)]
  simp only [counted, start]
  rw [List.append_assoc, List.drop_left]
  exact listed

/-! ## The tensors -/

variable {file : Bytes} {all : List Entry} {e : Entry} {placed : List (String × Layout)}

def layouts (object : Pickle.Value) : List (String × Layout) :=
  ((dictionary? object).getD []).filterMap fun (key, value) =>
    match key, layout? value with
    | .text name, some l => some (name, l)
    | _, _ => none

def readFrom (all : List Entry) (directory : String) (placed : List (String × Layout)) :
    List (String × Except TensorFault Tensor) :=
  placed.map fun (name, l) => (name, (contentOf all (directory ++ "/" ++ l.storage)).bind l.read)

theorem tensorsOf_eq (all : List Entry) (directory : String) (object : Pickle.Value) :
    tensorsOf all directory object = readFrom all directory (layouts object) := by
  rw [tensorsOf, readFrom, layouts, List.map_filterMap]
  refine List.filterMap_congr fun item _ => ?_
  obtain ⟨key, value⟩ := item
  dsimp only
  cases key with
  | text name => cases layout? value <;> rfl
  | _ => rfl

theorem tensors_of_layouts (listed : entries file = .ok all)
    (only : (all.filter fun e => e.name.endsWith dictionaryName) = [e])
    (plain : e.compressed = false)
    (described : (Pickle.load e.content).toOption.map layouts = some placed) :
    tensors file =
      .ok (readFrom all (String.ofList (e.name.toList.take (e.name.length - 4))) placed) := by
  obtain ⟨object, loaded, rfl⟩ := Option.map_eq_some_iff.1 described
  rw [tensors, listed]
  simp only [bind, Except.bind, only, List.mapM_cons, plain, eq_ok_of_toOption loaded, tensorsOf_eq]
  simp [pure, Except.pure]

theorem tensors_pack (fits : ∀ g ∈ f :: files, g.Fits) (count : (f :: files).length < 0x10000)
    (within : (localRecords (f :: files)).length < 0x100000000)
    (only : (((f :: files).map Packed.entry).filter fun e => e.name.endsWith dictionaryName) =
      [f.entry])
    (described : (Pickle.load f.content).toOption.map layouts = some placed) :
    tensors (pack (f :: files)) =
      .ok (readFrom ((f :: files).map Packed.entry)
        (String.ofList (f.entry.name.toList.take (f.entry.name.length - 4))) placed) :=
  tensors_of_layouts (entries_pack fits count within) only rfl described

end TextCompletion.Weights.Archive
