import TextCompletion.Json.Printer
import TextCompletion.Json.Record

/-!
One generated sequence. Continuation and text-to-text tasks fill the generated text; a summarising
backend fills the summary. As a document a candidate is an object of the texts it has.
-/

namespace TextCompletion

structure Candidate where
  generatedText : Option String := none
  summaryText : Option String := none
  deriving DecidableEq, Repr

namespace Candidate

def generated (text : String) : Candidate := { generatedText := some text }

def summary (text : String) : Candidate := { summaryText := some text }

/-- The generated text if there is one, even an empty one; else the summary; else nothing. -/
def text (c : Candidate) : String :=
  (c.generatedText <|> c.summaryText).getD ""

def toJson (c : Candidate) : String :=
  Json.Printer.object
    ((c.generatedText.map fun t => ("generated_text", t)).toList ++
      (c.summaryText.map fun t => ("summary_text", t)).toList)

open Json Json.Reader in
def schema : Schema Candidate where
  name := "struct Candidate"
  blank := {}
  fields := [
    { name := "generated_text"
      read := fun c => do pure { c with generatedText := ← optional Reader.text } },
    { name := "summary_text"
      read := fun c => do pure { c with summaryText := ← optional Reader.text } }]

def parse (document : List UInt8) : Except Json.Fault Candidate :=
  Json.Reader.run (Json.Reader.record schema) document

end Candidate
end TextCompletion
