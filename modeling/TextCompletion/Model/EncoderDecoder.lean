import TextCompletion.Failure

/-!
An encoder and a decoder at work. The encoder takes a whole prompt, then the decoder takes the
answer token by token and looks at what the encoder made of the prompt. A step needs an encoded
prompt, and works with the one that was encoded last; an encoding that fails leaves the earlier one
in force, but not what the decoder kept of its tokens.
-/

namespace TextCompletion

/-- What the encoder makes of a prompt, and what the decoder answers to tokens of which the first
stands at a position. The decoder keeps something of the tokens it takes, also of those it fails
on. -/
structure EncoderDecoder (Encoded Cache : Type) where
  encoder : List Nat → Except Failure Encoded
  decoder : Encoded → Cache → List Nat → Nat → Except Failure Tensor × Cache

namespace EncoderDecoder

variable {Encoded Cache : Type} [Inhabited Cache]

/-- A cache that holds nothing is the default one. -/
structure State (Encoded Cache : Type) [Inhabited Cache] where
  encoded : Option Encoded := none
  cache : Cache := default

variable (c : EncoderDecoder Encoded Cache)

/-- Takes a prompt. Whatever the decoder has kept is forgotten before the encoder is tried. -/
def encode (s : State Encoded Cache) (tokens : List Nat) :
    Except Failure Unit × State Encoded Cache :=
  if tokens.isEmpty then (.error (.of .noTokens), s)
  else
    let s := { s with cache := default }
    match during .encodePrompt (c.encoder tokens) with
    | .error f => (.error f, s)
    | .ok encoded => (.ok (), { s with encoded := some encoded })

def step (s : State Encoded Cache) (tokens : List Nat) (offset : Nat) :
    Except Failure Tensor × State Encoded Cache :=
  match s.encoded with
  | none => (.error (.of .notEncoded), s)
  | some encoded =>
    let (answer, cache) := c.decoder encoded s.cache tokens offset
    (answer, { s with cache })

variable {c} {s : State Encoded Cache} {tokens : List Nat}

@[simp] theorem encode_nil : c.encode s [] = (.error (.of .noTokens), s) := rfl

theorem encode_of_error {f : Failure} (given : tokens ≠ []) (failed : c.encoder tokens = .error f) :
    c.encode s tokens = (.error (f.within .encodePrompt), { s with cache := default }) := by
  simp [encode, given, failed, during]

theorem encode_of_ok {encoded : Encoded} (given : tokens ≠ [])
    (made : c.encoder tokens = .ok encoded) :
    c.encode s tokens = (.ok (), { encoded := some encoded }) := by
  simp [encode, given, made, during]

theorem step_of_none (none : s.encoded = none) (tokens : List Nat) (offset : Nat) :
    c.step s tokens offset = (.error (.of .notEncoded), s) := by
  simp [step, none]

theorem step_of_some {encoded : Encoded} (some : s.encoded = some encoded) (tokens : List Nat)
    (offset : Nat) :
    c.step s tokens offset =
      ((c.decoder encoded s.cache tokens offset).1,
        { s with cache := (c.decoder encoded s.cache tokens offset).2 }) := by
  simp [step, some]

end EncoderDecoder
end TextCompletion
