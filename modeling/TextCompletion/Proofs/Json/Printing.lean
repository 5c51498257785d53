import TextCompletion.Json.Printer
import TextCompletion.Proofs.Json.Reading

/-!
What is printed is a document as it may be written: every character is escaped into a form that
stands for it, and the members stand between braces without blanks.
-/

namespace TextCompletion.Json

def bytes (cs : List Char) : List UInt8 := cs.flatMap String.utf8EncodeChar

theorem bytes_append (cs ds : List Char) : bytes (cs ++ ds) = bytes cs ++ bytes ds :=
  List.flatMap_append

theorem bytes_cons (c : Char) (cs : List Char) :
    bytes (c :: cs) = String.utf8EncodeChar c ++ bytes cs := rfl

namespace Printer

theorem isQuad_control {c : Char} (control : c.toNat < 32) :
    IsQuad c.toNat
      (bytes ['0', '0', Nat.digitChar (c.toNat / 16), Nat.digitChar (c.toNat % 16)]) := by
  have digit : ∀ n < 16, (Nat.digitChar n).toNat ≤ 127 ∧
      hexValue? (UInt8.ofNat (Nat.digitChar n).toNat) = some n := by decide
  obtain ⟨small, high⟩ := digit (c.toNat / 16) (by omega)
  obtain ⟨small', low⟩ := digit (c.toNat % 16) (by omega)
  refine ⟨48, 48, UInt8.ofNat (Nat.digitChar (c.toNat / 16)).toNat,
    UInt8.ofNat (Nat.digitChar (c.toNat % 16)).toNat, ?_, ?_⟩
  · have zero : hexValue? 48 = some 0 := rfl
    simp only [hexQuad?, zero, high, low, Option.bind_eq_bind, Option.bind_some, Option.pure_def,
      Option.some.injEq]
    omega
  · simp only [bytes_cons, Text.Utf8.utf8EncodeChar_ascii small,
      Text.Utf8.utf8EncodeChar_ascii small']
    rfl

theorem writesChar_escape (c : Char) : WritesChar c (bytes (escape c)) := by
  have short {e : UInt8} {d : Char} (same : c = d) (letter : (e, d) ∈ shortEscapes) :
      WritesChar c [92, e] := same ▸ .short letter
  unfold escape
  split_ifs with quote backslash backspace formFeed lineFeed carriageReturn tab control
  · exact short quote (by decide)
  · exact short backslash (by decide)
  · exact short backspace (by decide)
  · exact short formFeed (by decide)
  · exact short lineFeed (by decide)
  · exact short carriageReturn (by decide)
  · exact short tab (by decide)
  · exact .number (isQuad_control control)
  · have one : bytes [c] = String.utf8EncodeChar c := List.append_nil _
    rw [one]
    exact .plain ⟨Nat.le_of_not_lt control, quote, backslash⟩

theorem quotes_text (s : String) : Quotes s (bytes (text s)) := by
  refine ⟨bytes (s.toList.flatMap escape), ?_, ?_⟩
  · induction s.toList with
    | nil => exact .nil
    | cons c cs ih =>
      rw [List.flatMap_cons, bytes_append]
      exact .cons (writesChar_escape c) ih
  · rw [text, List.cons_append, bytes_cons, bytes_append]
    rfl

def printed (m : String × String) : Member := ⟨bytes (text m.1), bytes (text m.2)⟩

theorem writes_member (m : String × String) : (printed m).Writes (bytes (member m.1 m.2)) := by
  refine ⟨[], [], isBlank_nil, isBlank_nil, ?_⟩
  rw [member, bytes_append, bytes_cons]
  rfl

theorem intercalate_cons {α : Type} (a : α) (l : List α) (ls : List (List α)) :
    List.intercalate [a] (l :: ls) = l ++ ls.flatMap (a :: ·) := by
  induction ls generalizing l with
  | nil => simp [List.intercalate]
  | cons l' ls ih => simp [List.intercalate_cons_cons, ih]

theorem elements_commas (ts : List (List UInt8)) : Elements false ts (ts.flatMap (44 :: ·)) := by
  induction ts with
  | nil => exact .done isBlank_nil
  | cons t ts ih => exact .next (.later isBlank_nil isBlank_nil) ih

theorem isObject_object (members : List (String × String)) :
    IsObject (members.map printed) (Text.Utf8.encode (object members)) := by
  refine ⟨members.map fun m => bytes (member m.1 m.2), ?_,
    bytes (List.intercalate [','] (members.map fun m => member m.1 m.2)), ?_, ?_⟩
  · induction members with
    | nil => exact .nil
    | cons m members ih => exact .cons (writes_member m) ih
  · cases members with
    | nil => exact .done isBlank_nil
    | cons m members =>
      have commas : bytes ((members.map fun m => member m.1 m.2).flatMap (',' :: ·)) =
          (members.map fun m => bytes (member m.1 m.2)).flatMap (44 :: ·) := by
        rw [bytes, List.flatMap_assoc, List.flatMap_map, List.flatMap_map]
        rfl
      rw [List.map_cons, List.map_cons, intercalate_cons, bytes_append, commas]
      exact .next (.first isBlank_nil) (elements_commas _)
  · rw [Text.Utf8.encode_eq_flatMap, object, String.toList_ofList, List.cons_append]
    change bytes (_ :: _) = _
    rw [bytes_cons, bytes_append]
    rfl

theorem documents_object (members : List (String × String)) :
    Documents (IsObject (members.map printed)) (Text.Utf8.encode (object members)) :=
  ⟨[], _, [], isBlank_nil, isBlank_nil, isObject_object members, (List.append_nil _).symm⟩

theorem named_printed {m : String × String} {name : String} :
    (printed m).Named name ↔ name = m.1 :=
  ⟨fun named => Reader.quotes_unique named (quotes_text m.1), fun same => same ▸ quotes_text m.1⟩

theorem gives_printed {members : List (String × String)} (distinct : (members.map Prod.fst).Nodup)
    {name : String} {writes : List UInt8 → Prop} {omitted : Prop}
    (written : ∀ value, (name, value) ∈ members → writes (bytes (text value)))
    (left : name ∉ members.map Prod.fst → omitted) :
    Gives (members.map printed) name writes omitted where
  once := by
    refine List.pairwise_map.2 ((List.pairwise_map.1 distinct).imp fun other both => ?_)
    exact other ((named_printed.1 both.1).symm.trans (named_printed.1 both.2))
  written := by
    rintro _ listed named
    obtain ⟨⟨key, value⟩, member, rfl⟩ := List.mem_map.1 listed
    obtain rfl := named_printed.1 named
    exact written value member
  omitted := by
    refine fun none => left fun listed => ?_
    obtain ⟨m, member, rfl⟩ := List.mem_map.1 listed
    exact none _ (List.mem_map_of_mem member) (named_printed.2 rfl)

theorem exists_named_printed (members : List (String × String)) :
    ∀ m ∈ members.map printed, ∃ name, m.Named name :=
  List.forall_mem_map.2 fun m _ => ⟨m.1, named_printed.2 rfl⟩

theorem wellFormed_printed (members : List (String × String)) :
    ∀ m ∈ members.map printed, IsString m.key ∧ IsValue m.value :=
  List.forall_mem_map.2 fun m _ => ⟨(quotes_text m.1).isString, (quotes_text m.2).isValue⟩

end Printer
end TextCompletion.Json
