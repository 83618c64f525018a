import Mathlib

/-! Identifiers and references (`core/ids.rs`, the head of `core/session.rs`).
Both are texts that only their checking constructor can build, so a value
carries the fact that its text was accepted. -/
namespace Satelle.Core

def isLowerHex (c : Char) : Bool := ('0' ≤ c && c ≤ '9') || ('a' ≤ c && c ≤ 'f')

/-- The canonical lowercase hyphenated UUID form, version 7 and RFC 9562
variant: `x` stands for a lowercase hexadecimal digit, `v` for one of `89ab`,
anything else for itself. -/
def uuidTemplate : List Char := "xxxxxxxx-xxxx-7xxx-vxxx-xxxxxxxxxxxx".toList

def matchesTemplate : List Char → List Char → Bool
  | [], [] => true
  | 'x' :: template, c :: text => isLowerHex c && matchesTemplate template text
  | 'v' :: template, c :: text => ['8', '9', 'a', 'b'].contains c && matchesTemplate template text
  | t :: template, c :: text => t == c && matchesTemplate template text
  | _, _ => false

/-- The texts `parse_id` accepts for one kind of identifier, which are those of
the published patterns `SESSION_ID_PATTERN` and its siblings. -/
def isCanonicalId (kind : String) (value : String) : Bool :=
  matchesTemplate (kind.toList ++ uuidTemplate) value.toList

/-- `define_public_id!`: one identifier type for each three letter marker. -/
structure PublicId (kind : String) where
  text : String
  canonical : isCanonicalId kind text = true
  deriving DecidableEq

instance PublicId.lawful : LawfulBEq (PublicId kind) := inferInstance

abbrev SessionId := PublicId "rs_"
abbrev TurnId := PublicId "rt_"

/-- `parse`. Every caller in the store drops the reason of a rejection, so only
the accepted identifier is returned. -/
def PublicId.parse (value : String) : Option (PublicId kind) :=
  if accepted : isCanonicalId kind value = true then some ⟨value, accepted⟩ else none

@[simp] theorem PublicId.parse_text (id : PublicId kind) : PublicId.parse id.text = some id := by
  simp [PublicId.parse, id.canonical]

@[simp] theorem PublicId.text_inj {a b : PublicId kind} : a.text = b.text ↔ a = b := by
  constructor
  · intro same
    cases a
    cases b
    cases same
    rfl
  · rintro rfl
    rfl

theorem PublicId.parse_eq_some {id : PublicId kind} :
    PublicId.parse value = some id ↔ id.text = value := by
  unfold PublicId.parse
  split
  · rename_i accepted
    simp only [Option.some.injEq]
    exact ⟨fun h => h ▸ rfl, fun h => PublicId.text_inj.mp h.symm⟩
  · rename_i refused
    constructor
    · intro h
      cases h
    · rintro rfl
      exact absurd id.canonical refused

/-! ## References -/

def maxReferenceBytes : Nat := 128

inductive ReferenceError where
  | empty | tooLong | relativePathSegment | invalidCharacter
  deriving DecidableEq, Repr

/-- The bytes allowed in a reference are all ASCII, so a text passes byte by
byte exactly when it passes character by character. -/
def isReferenceChar (c : Char) : Bool :=
  c.isAlphanum || ['-', '_', '.', ':', '/'].contains c

def validateReference (value : String) : Except ReferenceError Unit :=
  if value.isEmpty then .error .empty
  else if maxReferenceBytes < value.utf8ByteSize then .error .tooLong
  else if value = "." ∨ value = ".." then .error .relativePathSegment
  else if value.toList.all isReferenceChar then .ok ()
  else .error .invalidCharacter

inductive ReferenceKind where
  | hostIdentity | desktopBinding | effectiveModel | providerBinding
  deriving DecidableEq, Repr

/-- `define_reference!`: a text that passed `validate_reference`. -/
structure Reference (kind : ReferenceKind) where
  text : String
  valid : validateReference text = .ok ()
  deriving DecidableEq

abbrev HostIdentityRef := Reference .hostIdentity
abbrev DesktopBindingRef := Reference .desktopBinding
abbrev EffectiveModelRef := Reference .effectiveModel
abbrev ProviderBindingRef := Reference .providerBinding

/-- `new` of every reference type. -/
def Reference.new (value : String) : Except ReferenceError (Reference kind) :=
  match accepted : validateReference value with
  | .ok () => .ok ⟨value, accepted⟩
  | .error e => .error e

@[simp] theorem Reference.new_text (reference : Reference kind) :
    Reference.new reference.text = .ok reference := by
  unfold Reference.new
  split
  · rfl
  · rename_i e refused
    rw [reference.valid] at refused
    cases refused

end Satelle.Core
