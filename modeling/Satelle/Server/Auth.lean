import Mathlib.Logic.Function.Iterate

/-! Texts that carry a token where none belongs (`transport_api/server/auth.rs`). A text is
decoded again and again, as someone further on might; after some layers the daemon gives up
and refuses it. The decoder and the scanner for tokens are arguments. -/
namespace Satelle.Server

def maxPercentDecodeLayers : Nat := 8

section Carriers
variable (percentDecode : String → String) (containsApiBearerToken : String → Bool)

/-- The loop with the rounds that it has left, and the comparison after it. -/
def decodedTextHasCarrier : Nat → String → Bool
  | 0, decoded => containsApiBearerToken decoded || percentDecode decoded != decoded
  | rounds + 1, decoded =>
    containsApiBearerToken decoded ||
      let next := percentDecode decoded
      if next = decoded then false else decodedTextHasCarrier rounds next

def encodedTextHasDisallowedBearerCarrier (value : String) : Bool :=
  containsApiBearerToken value ||
    let first := percentDecode value
    if first = value then false
    else decodedTextHasCarrier percentDecode containsApiBearerToken (maxPercentDecodeLayers - 1) first

variable {percentDecode containsApiBearerToken}

/-- A text that decodes to itself has no further layers. -/
theorem fixed_clean (clean : containsApiBearerToken text = false) (fixed : percentDecode text = text)
    (layers : Nat) : containsApiBearerToken (percentDecode^[layers] text) = false := by
  rw [Function.iterate_fixed fixed]
  exact clean

/-- One layer is clean, and so are those below it. -/
theorem layers_clean (clean : containsApiBearerToken text = false)
    (below : ∀ layers, containsApiBearerToken (percentDecode^[layers] (percentDecode text)) = false)
    (layers : Nat) : containsApiBearerToken (percentDecode^[layers] text) = false := by
  cases layers with
  | zero => exact clean
  | succ layers => exact below layers

theorem decodedText_clean
    (clean : decodedTextHasCarrier percentDecode containsApiBearerToken rounds text = false) :
    ∀ layers, containsApiBearerToken (percentDecode^[layers] text) = false := by
  induction rounds generalizing text with
  | zero =>
    obtain ⟨absent, same⟩ := Bool.or_eq_false_iff.mp clean
    exact fixed_clean absent (by simpa using same)
  | succ rounds ih =>
    obtain ⟨absent, rest⟩ := Bool.or_eq_false_iff.mp clean
    dsimp only at rest
    split at rest
    · rename_i fixed
      exact fixed_clean absent fixed
    · exact layers_clean absent (ih rest)

/-- **No layer of encoding hides a token.** A text that is let through contains none, however
often it is decoded. -/
theorem encoding_hides_no_token
    (clean : encodedTextHasDisallowedBearerCarrier percentDecode containsApiBearerToken value = false)
    (layers : Nat) : containsApiBearerToken (percentDecode^[layers] value) = false := by
  obtain ⟨absent, rest⟩ := Bool.or_eq_false_iff.mp clean
  dsimp only at rest
  split at rest
  · rename_i fixed
    exact fixed_clean absent fixed layers
  · exact layers_clean absent (decodedText_clean rest) layers

end Carriers

/-- Two layers around a letter. -/
def sampleDecode (value : String) : String :=
  if value = "%2541" then "%41" else if value = "%41" then "A" else value

theorem encoding_hides_no_token_twice :
    encodedTextHasDisallowedBearerCarrier sampleDecode (· = "token") "%2541" = false ∧
      decide (sampleDecode^[2] "%2541" = "token") = false := by
  have clean : encodedTextHasDisallowedBearerCarrier sampleDecode (· = "token") "%2541" = false := by
    decide +kernel
  exact ⟨clean, encoding_hides_no_token clean 2⟩

end Satelle.Server
