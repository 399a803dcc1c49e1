import Hopline.Bytes

/-! Hooks that sign an encoded span and that accept or refuse a span to decode. -/

namespace Hopline.Codec

/-- Rewrites a span in place and says whether it could sign it. Writing in place
never changes the length of the span. -/
structure Signer where
  run : Bytes → Bytes × Bool
  length_run : ∀ span, (run span).1.length = span.length

abbrev Validator := Bytes → Bool

def Signer.accept : Signer where
  run span := (span, true)
  length_run _ := rfl

def Signer.refuse : Signer where
  run span := (span, false)
  length_run _ := rfl

def Signer.invert : Signer where
  run span := (span.map fun byte => ~~~byte, true)
  length_run _ := List.length_map _

def parity (span : Bytes) : UInt8 := span.foldl (· ^^^ ·) 0

/-- Overwrites the last two bytes with the parity of the bytes before them; a
span too short to hold both is refused. -/
def Signer.parity : Signer where
  run span :=
    if span.length < 2 then (span, false)
    else
      let body := span.take (span.length - 2)
      (body ++ [Codec.parity body, Codec.parity body], true)
  length_run span := by
    split
    · rfl
    · simp only [List.length_append, List.length_take, List.length_cons, List.length_nil]; omega

def Validator.parity : Validator := fun span =>
  let body := span.take (span.length - 2)
  2 ≤ span.length && span.drop (span.length - 2) == [Codec.parity body, Codec.parity body]

end Hopline.Codec
