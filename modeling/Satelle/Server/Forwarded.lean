import Mathlib.Data.List.DropRight

/-! Where a request comes from (`transport_api/server/auth.rs`): the transport peer, or a hop
that is named in its headers, by proxies that the Host trusts. How a hop is read,
`parse_forwarded_address`, is an argument. -/
namespace Satelle.Server

inductive IpAddr where
  | v4 (bits : BitVec 32)
  | v6 (bits : BitVec 128)
deriving DecidableEq, Repr

/-- An address or a range of addresses. -/
structure TrustedProxy where
  network : IpAddr
  prefixLen : Nat

def masked (address : BitVec width) (prefixLen : Nat) : BitVec width :=
  address &&& if prefixLen = 0 then 0 else BitVec.allOnes width <<< (width - prefixLen)

def maskedV4 (address : BitVec 32) (prefixLen : Nat) : BitVec 32 := masked address prefixLen

def maskedV6 (address : BitVec 128) (prefixLen : Nat) : BitVec 128 := masked address prefixLen

def TrustedProxy.contains (proxy : TrustedProxy) (address : IpAddr) : Bool :=
  match proxy.network, address with
  | .v4 network, .v4 address =>
    maskedV4 network proxy.prefixLen = maskedV4 address proxy.prefixLen
  | .v6 network, .v6 address =>
    maskedV6 network proxy.prefixLen = maskedV6 address proxy.prefixLen
  | .v4 _, .v6 _ | .v6 _, .v4 _ => false

abbrev Text := List Char

/-- The headers that are read. -/
inductive HeaderName where
  | forwarded
  | xForwardedFor
deriving DecidableEq, Repr

/-- The values of a header, with none for one that is not ASCII. -/
abbrev HeaderMap := HeaderName → List (Option Text)

def maxForwardedBytes : Nat := 4096

def maxForwardedHops : Nat := 32

def orErr (value : Option α) : Except Unit α := value.elim (.error ()) .ok

def trim (text : Text) : Text :=
  (text.dropWhile Char.isWhitespace).rdropWhile Char.isWhitespace

def splitOnce (separator : Char) (text : Text) : Option (Text × Text) :=
  match text.span (· ≠ separator) with
  | (_, []) => none
  | (first, _ :: second) => some (first, second)

def eqIgnoreAsciiCase (text : Text) (other : String) : Bool :=
  text.map Char.toLower = other.toList

def joinedHeaderValues (headers : HeaderMap) (name : HeaderName) : Except Unit (Option Text) := do
  let joined ← (headers name).foldlM (fun joined value => do
    let value ← orErr value
    if (trim value).isEmpty then throw ()
    let separator := if joined.isEmpty then [] else [',']
    if maxForwardedBytes < joined.length + separator.length + value.length then throw ()
    return joined ++ separator ++ value) []
  return if (headers name).isEmpty then none else some joined

section Parsing
variable (parseForwardedAddress : Text → Except Unit IpAddr)

/-- The loop over the elements of a header, with its bound. -/
def parseHops (parse : Text → Except Unit IpAddr) (value : Text) :
    Except Unit (Option (List IpAddr)) := do
  let addresses ← (value.splitOn ',').foldlM (fun addresses element => do
    let addresses := addresses ++ [← parse element]
    if maxForwardedHops < addresses.length then throw ()
    return addresses) []
  if addresses.isEmpty then throw () else pure (some addresses)

/-- The address of an element, the one parameter `for`. -/
def parseElement (element : Text) : Except Unit IpAddr := do
  let forwardedFor ← (element.splitOn ';').foldlM (fun forwardedFor parameter => do
    match splitOnce '=' (trim parameter) with
    | none => throw ()
    | some (name, value) =>
      if eqIgnoreAsciiCase (trim name) "for" then
        if forwardedFor.isSome then throw ()
        some <$> parseForwardedAddress (trim value)
      else pure forwardedFor) none
  orErr forwardedFor

def parseForwarded (headers : HeaderMap) : Except Unit (Option (List IpAddr)) := do
  match ← joinedHeaderValues headers .forwarded with
  | none => return none
  | some value => parseHops (parseElement parseForwardedAddress) value

def parseXForwardedFor (headers : HeaderMap) : Except Unit (Option (List IpAddr)) := do
  match ← joinedHeaderValues headers .xForwardedFor with
  | none => return none
  | some value =>
    parseHops (fun element => parseForwardedAddress (trim element)) value

def isTrusted (trustedProxies : List TrustedProxy) (address : IpAddr) : Bool :=
  trustedProxies.any (·.contains address)

/-- The loop over the hops, the nearest first: a hop counts if the one that names it is trusted. -/
def nearestUntrusted (trustedProxies : List TrustedProxy) (source : IpAddr) : List IpAddr → IpAddr
  | [] => source
  | hop :: rest =>
    if isTrusted trustedProxies source then nearestUntrusted trustedProxies hop rest else source

def forwardedClientSource (headers : HeaderMap) (transportPeer : IpAddr)
    (trustedProxies : List TrustedProxy) : IpAddr :=
  if isTrusted trustedProxies transportPeer then
    let follow (chain : List IpAddr) :=
      nearestUntrusted trustedProxies transportPeer chain.reverse
    match parseForwarded parseForwardedAddress headers,
      parseXForwardedFor parseForwardedAddress headers with
    | .ok (some chain), .ok none | .ok none, .ok (some chain) => follow chain
    | .ok (some forwarded), .ok (some xForwardedFor) =>
      if forwarded = xForwardedFor then follow forwarded else transportPeer
    | .ok none, .ok none | .error _, _ | _, .error _ => transportPeer
  else transportPeer

/-- A chain that one of the headers names. -/
def Names (headers : HeaderMap) (chain : List IpAddr) : Prop :=
  parseForwarded parseForwardedAddress headers = .ok (some chain) ∨
    parseXForwardedFor parseForwardedAddress headers = .ok (some chain)

variable {parseForwardedAddress}

/-- Headers that name no chain, or two, are not followed. -/
theorem source_cases (headers : HeaderMap) (transportPeer : IpAddr)
    (trustedProxies : List TrustedProxy) :
    forwardedClientSource parseForwardedAddress headers transportPeer trustedProxies = transportPeer ∨
    ∃ chain, (∀ other, Names parseForwardedAddress headers other ↔ chain = other) ∧
      forwardedClientSource parseForwardedAddress headers transportPeer trustedProxies =
        nearestUntrusted trustedProxies transportPeer chain.reverse := by
  unfold forwardedClientSource Names
  split
  · dsimp only
    split
    · exact .inr ⟨_, by simp_all, rfl⟩
    · exact .inr ⟨_, by simp_all, rfl⟩
    · split
      · exact .inr ⟨_, by simp_all, rfl⟩
      · exact .inl rfl
    all_goals exact .inl rfl
  · exact .inl rfl

/-- The walk passes trusted hops only, and ends at one that is not or at the last. -/
theorem nearest_stops (trustedProxies : List TrustedProxy) (source : IpAddr) (hops : List IpAddr) :
    ∃ right left, source :: hops = right ++ nearestUntrusted trustedProxies source hops :: left ∧
      (∀ hop ∈ right, isTrusted trustedProxies hop = true) ∧
      (isTrusted trustedProxies (nearestUntrusted trustedProxies source hops) = false ∨
        left = []) := by
  induction hops generalizing source with
  | nil => exact ⟨[], [], rfl, nofun, .inr rfl⟩
  | cons hop rest ih =>
    unfold nearestUntrusted
    split
    · rename_i trusted
      obtain ⟨right, left, shape, passed, ends⟩ := ih hop
      exact ⟨source :: right, left, by rw [shape, List.cons_append], by simpa [trusted], ends⟩
    · rename_i untrusted
      exact ⟨[], hop :: rest, rfl, nofun, .inl (by simpa using untrusted)⟩

/-- What is beyond a hop that is not trusted does not matter. -/
theorem nearest_agrees (untrusted : isTrusted trustedProxies hop = false) (source : IpAddr)
    (right left left' : List IpAddr) :
    nearestUntrusted trustedProxies source (right ++ hop :: left) =
      nearestUntrusted trustedProxies source (right ++ hop :: left') := by
  induction right generalizing source with
  | nil =>
    have ends : ∀ beyond, nearestUntrusted trustedProxies hop beyond = hop := by
      intro beyond
      cases beyond <;> simp [nearestUntrusted, untrusted]
    simp [nearestUntrusted, ends]
  | cons next rest ih => simp [nearestUntrusted, ih]

/-- **Forwarded addresses are not spoofed past a hop that is not trusted.** The source is the
transport peer, or the hop of the chain behind which all are trusted and which is not, if there
is one. Chains that agree from a hop that is not trusted on give the same source, unless the
headers are not followed. -/
theorem forwarded_source_unspoofed (transportPeer : IpAddr) (trustedProxies : List TrustedProxy)
    (headers : HeaderMap) :
    let source := fun headers =>
      forwardedClientSource parseForwardedAddress headers transportPeer trustedProxies
    (isTrusted trustedProxies transportPeer = false → source headers = transportPeer) ∧
    (source headers = transportPeer ∨ ∃ left hop right,
      Names parseForwardedAddress headers (left ++ hop :: right) ∧ source headers = hop ∧
      (∀ other ∈ right, isTrusted trustedProxies other = true) ∧
      (isTrusted trustedProxies hop = false ∨ left = [])) ∧
    ∀ headers' left left' hop right, Names parseForwardedAddress headers (left ++ hop :: right) →
      Names parseForwardedAddress headers' (left' ++ hop :: right) →
      isTrusted trustedProxies hop = false → source headers = source headers' ∨
        source headers = transportPeer ∨ source headers' = transportPeer := by
  intro source
  refine ⟨fun untrusted => by simp [source, forwardedClientSource, untrusted], ?_, ?_⟩
  · rcases source_cases headers transportPeer trustedProxies with peer | ⟨chain, named, told⟩
    · exact .inl peer
    · obtain ⟨right, left, shape, passed, ends⟩ :=
        nearest_stops trustedProxies transportPeer chain.reverse
      cases right with
      | nil => exact .inl (told.trans (List.cons.inj shape).1.symm)
      | cons _ right =>
        refine .inr ⟨left.reverse, _, right.reverse, (named _).mpr ?_, told, ?_, ?_⟩
        · simpa using congrArg List.reverse (List.cons.inj shape).2
        · exact fun other member => passed other (by simp_all)
        · simpa using ends
  · intro headers' left left' hop right first second untrusted
    rcases source_cases headers transportPeer trustedProxies with peer | ⟨chain, named, told⟩
    · exact .inr (.inl peer)
    rcases source_cases headers' transportPeer trustedProxies with peer | ⟨chain', named', told'⟩
    · exact .inr (.inr peer)
    refine .inl (told.trans (Eq.trans ?_ told'.symm))
    rw [(named _).mp first, (named' _).mp second]
    simpa using nearest_agrees untrusted transportPeer right.reverse left.reverse left'.reverse

end Parsing

/-- An address that is trusted below, and one that is not. -/
def sampleAddress (text : Text) : Except Unit IpAddr :=
  if text = "10.0.0.2".toList then .ok (.v4 0x0a000002)
  else if text = "192.0.2.7".toList then .ok (.v4 0xc0000207)
  else .error ()

def sampleHeaders (value : String) : HeaderMap
  | .forwarded => []
  | .xForwardedFor => [some value.toList]

def sampleSource (value : String) : IpAddr :=
  forwardedClientSource sampleAddress (sampleHeaders value) (.v4 0x0a000001)
    [⟨.v4 0x0a000000, 8⟩]

/-- All of the first chain is trusted; the second says who is behind it. -/
theorem trusted_chain_extended :
    Names sampleAddress (sampleHeaders "10.0.0.2") [.v4 0x0a000002] ∧
    Names sampleAddress (sampleHeaders "192.0.2.7,10.0.0.2")
      [.v4 0xc0000207, .v4 0x0a000002] ∧
    sampleSource "10.0.0.2" = .v4 0x0a000002 ∧
    sampleSource "192.0.2.7,10.0.0.2" = .v4 0xc0000207 := by
  unfold Names
  decide +kernel

end Satelle.Server
