import Mathlib.Data.List.Induction
import GreenGateway.Foundation.Ascii
import GreenGateway.Network.ClientIp

/-! What of a request's headers crosses to the upstream. -/

namespace GreenGateway.Network.HeaderMap

def append (headers : HeaderMap) (name : String) (value : HeaderValue) : HeaderMap :=
  ⟨headers.lines ++ [(name, value)]⟩

def remove (headers : HeaderMap) (name : String) : HeaderMap :=
  ⟨headers.lines.filter fun line => line.1 != name⟩

def insert (headers : HeaderMap) (name : String) (value : HeaderValue) : HeaderMap :=
  (headers.remove name).append name value

def keys (headers : HeaderMap) : List String := headers.lines.map Prod.fst

variable (headers : HeaderMap)

theorem getAll_append (own name : String) (value : HeaderValue) :
    (headers.append own value).getAll name =
      headers.getAll name ++ if own = name then [value] else [] := by
  by_cases same : own = name
  · simp [getAll, append, same]
  · simp [getAll, append, same]

theorem getAll_remove (own name : String) :
    (headers.remove own).getAll name = if own = name then [] else headers.getAll name := by
  rw [getAll, remove, List.filter_filter]
  split
  · case _ same =>
    subst same
    simp
  · case _ differs =>
    congr 1
    apply List.filter_congr
    intro line _
    by_cases here : line.1 = name
    · simp [here, Ne.symm differs]
    · simp [here]

theorem getAll_insert (own name : String) (value : HeaderValue) :
    (headers.insert own value).getAll name = if own = name then
    [value] else headers.getAll name := by
  rw [insert, getAll_append, getAll_remove]
  split
  · rfl
  · simp

theorem getAll_removes (names : List String) (headers : HeaderMap) (name : String) :
    (names.foldl remove headers).getAll name =
      if name ∈ names then [] else headers.getAll name := by
  induction names generalizing headers with
  | nil => simp
  | cons first rest ih =>
    rw [List.foldl_cons, ih, getAll_remove]
    by_cases later : name ∈ rest
    · simp [later]
    · by_cases here : first = name
      · simp [here]
      · simp [later, here, Ne.symm here]

theorem getAll_of_not_mem_keys {headers : HeaderMap} {name : String}
    (absent : name ∉ headers.keys) : headers.getAll name = [] := by
  rw [getAll, List.map_eq_nil_iff, List.filter_eq_nil_iff]
  intro line listed same
  exact absent (List.mem_map.mpr ⟨line, listed, beq_iff_eq.mp same⟩)

end GreenGateway.Network.HeaderMap

namespace GreenGateway.Proxy

open Foundation Rbac Network List HeaderMap

section Model

def requestIdHeader : String := "x-request-id"

def commonClientIpForwardingHeaders : List String :=
  ["cf-connecting-ip", "client-ip", "fastly-client-ip", "fly-client-ip", "forwarded",
    "forwarded-for", "forwarded-for-ip", "true-client-ip", "x-client-ip", "x-cluster-client-ip",
    "x-envoy-external-address", "x-forwarded", "x-original-forwarded-for", "x-proxyuser-ip",
    "x-real-ip"]

def isClientForwardingHeader (name : String) : Bool :=
  Text.startsWith name "x-forwarded-" || commonClientIpForwardingHeaders.contains name

def isHopByHopHeader (name : String) : Bool :=
  ["connection", "keep-alive", "proxy-connection", "proxy-authenticate", "proxy-authorization",
    "te", "trailer", "transfer-encoding", "upgrade", "host", "content-length"].contains name

/-- The characters of a field name. -/
def isNameChar (char : Char) : Bool := char.isAlphanum || "!#$%&'*+-.^_\x60|~".toList.contains char

def maxHeaderNameLen : Nat := 65535

/-- `HeaderName::from_bytes`: names are held in lower case. -/
def headerName (text : String) : Option String :=
  if text.isEmpty || maxHeaderNameLen < Text.len text || !text.toList.all isNameChar then none
  else some (Text.toAsciiLowercase text)

def connectionNamedHeaders (headers : HeaderMap) : List String :=
  (((headers.getAll "connection").filterMap toStr?).flatMap (Text.split ',')).filterMap
    fun token => headerName (Text.trim token)

def stripHopByHopHeaders (headers : HeaderMap) : HeaderMap :=
  let named := connectionNamedHeaders headers
  headers.lines.foldl (fun forwarded line =>
    if isHopByHopHeader line.1 || named.contains line.1 then forwarded
    else forwarded.append line.1 line.2) ⟨[]⟩

def stripGatewayCredentials (headers : HeaderMap) : HeaderMap :=
  (headers.remove "authorization").remove "cookie"

/-- The normalized text of an address as a header value. -/
class AddressText where
  value : IpAddr → HeaderValue

def setUpstreamClientIp [AddressParsers] [AddressText] (headers : HeaderMap) (sourceIp : String) :
    HeaderMap :=
  let headers := (headers.keys.filter isClientForwardingHeader).foldl HeaderMap.remove headers
  match AddressParsers.parseIp sourceIp with
  | none => headers
  | some sourceIp =>
    (headers.insert xForwardedFor (AddressText.value sourceIp)).insert xRealIp
      (AddressText.value sourceIp)

structure RouteRequestHeaderPolicy where
  addRequestHeaders : List (String × HeaderValue)
  stripRequestHeaders : List String

def applyRouteRequestHeaderPolicy (headers : HeaderMap) (policy : RouteRequestHeaderPolicy) :
    HeaderMap :=
  let headers := policy.stripRequestHeaders.foldl (fun headers name =>
    if name = requestIdHeader then headers else headers.remove name) headers
  policy.addRequestHeaders.foldl (fun headers line =>
    if isHopByHopHeader line.1 || line.1 == requestIdHeader then headers
    else headers.insert line.1 line.2) headers

def attemptHeaders [AddressParsers] [AddressText] (inbound : HeaderMap) (sourceIp : String)
    (policy : RouteRequestHeaderPolicy) (credentialHeaders : List String) : HeaderMap :=
  let headers := stripHopByHopHeaders inbound
  let headers := stripGatewayCredentials headers
  let headers := headers.remove requestIdHeader
  let headers := credentialHeaders.foldl HeaderMap.remove headers
  let headers := setUpstreamClientIp headers sourceIp
  applyRouteRequestHeaderPolicy headers policy

end Model

section Passes

variable [AddressParsers] [AddressText]

/-- What the route strips; the request identifier is not its to strip. -/
def RouteRequestHeaderPolicy.strips (policy : RouteRequestHeaderPolicy) (name : String) : Bool :=
  policy.stripRequestHeaders.contains name && name != requestIdHeader

/-- What the route sets a header to: the last value it lists. -/
def RouteRequestHeaderPolicy.sets? (policy : RouteRequestHeaderPolicy) (name : String) :
    Option HeaderValue :=
  if isHopByHopHeader name || name == requestIdHeader then none
  else ((policy.addRequestHeaders.filter fun line => line.1 == name).getLast?).map Prod.snd

/-- The gateway's own value of a client address header. -/
def clientIpValues (sourceIp name : String) : List HeaderValue :=
  if name = xForwardedFor ∨ name = xRealIp then
    ((AddressParsers.parseIp sourceIp).map AddressText.value).toList
  else []

omit [AddressParsers] [AddressText] in
theorem getAll_foldl_append (drops : String → Bool) (lines : List (String × HeaderValue))
    (start : HeaderMap) (name : String) :
    (lines.foldl (fun forwarded line =>
      if drops line.1 then forwarded else forwarded.append line.1 line.2) start).getAll name =
      start.getAll name ++ if drops name then [] else (HeaderMap.mk lines).getAll name := by
  induction lines generalizing start with
  | nil => simp [getAll]
  | cons line lines ih =>
    have split : (HeaderMap.mk (line :: lines)).getAll name =
        (if line.1 = name then [line.2] else []) ++ (HeaderMap.mk lines).getAll name := by
      by_cases here : line.1 = name <;> simp [getAll, here]
    rw [foldl_cons, ih, split]
    by_cases here : line.1 = name
    · cases dropped : drops name with
      | true => simp [here, dropped]
      | false => simp [here, dropped, getAll_append]
    · cases dropped : drops line.1 with
      | true => simp [here]
      | false => simp [here, getAll_append]

omit [AddressParsers] [AddressText] in
theorem getAll_stripHopByHopHeaders (headers : HeaderMap) (name : String) :
    (stripHopByHopHeaders headers).getAll name =
      if isHopByHopHeader name || (connectionNamedHeaders headers).contains name then []
      else headers.getAll name := by
  have kept := getAll_foldl_append
    (fun name => isHopByHopHeader name || (connectionNamedHeaders headers).contains name)
    headers.lines ⟨[]⟩ name
  rw [stripHopByHopHeaders, kept]
  rfl

theorem getAll_setUpstreamClientIp (headers : HeaderMap) (sourceIp name : String) :
    (setUpstreamClientIp headers sourceIp).getAll name =
      if isClientForwardingHeader name then clientIpValues sourceIp name
      else headers.getAll name := by
  have ownFor : isClientForwardingHeader xForwardedFor = true := by decide
  have ownReal : isClientForwardingHeader xRealIp = true := by decide
  have removed : ((headers.keys.filter isClientForwardingHeader).foldl HeaderMap.remove
      headers).getAll name =
        if isClientForwardingHeader name then [] else headers.getAll name := by
    rw [getAll_removes]
    cases forwarding : isClientForwardingHeader name with
    | false => simp [forwarding]
    | true =>
      by_cases present : name ∈ headers.keys
      · simp [forwarding, present]
      · simp [forwarding, getAll_of_not_mem_keys present]
  rw [setUpstreamClientIp, clientIpValues]
  cases AddressParsers.parseIp sourceIp with
  | none =>
    rw [removed]
    simp
  | some ip =>
    dsimp only
    rw [getAll_insert, getAll_insert, removed]
    by_cases real : xRealIp = name
    · subst real
      simp [ownReal]
    · by_cases forwarded : xForwardedFor = name
      · subst forwarded
        simp [ownFor, real]
      · simp [real, forwarded, Ne.symm real, Ne.symm forwarded]

omit [AddressParsers] [AddressText] in
theorem getAll_routeStrips (names : List String) (headers : HeaderMap) (name : String) :
    (names.foldl (fun headers name =>
      if name = requestIdHeader then headers else headers.remove name) headers).getAll name =
      if names.contains name && name != requestIdHeader then [] else headers.getAll name := by
  induction names generalizing headers with
  | nil => simp
  | cons first names ih =>
    rw [foldl_cons, ih]
    by_cases kept : name = requestIdHeader
    · by_cases here : first = requestIdHeader
      · simp [kept, here]
      · simp [kept, here, getAll_remove]
    · by_cases here : first = name
      · subst here
        simp [kept, getAll_remove]
      · by_cases skipped : first = requestIdHeader
        · simp [kept, skipped]
        · simp [here, Ne.symm here, skipped, getAll_remove]

omit [AddressParsers] [AddressText] in
theorem getAll_routeAdds (lines : List (String × HeaderValue)) (headers : HeaderMap)
    (name : String) :
    (lines.foldl (fun headers line =>
      if isHopByHopHeader line.1 || line.1 == requestIdHeader then headers
      else headers.insert line.1 line.2) headers).getAll name =
      match RouteRequestHeaderPolicy.sets? ⟨lines, []⟩ name with
      | some value => [value]
      | none => headers.getAll name := by
  induction lines using List.reverseRecOn with
  | nil => simp [RouteRequestHeaderPolicy.sets?]
  | append_singleton lines line ih =>
    rw [foldl_append, foldl_cons, foldl_nil]
    by_cases here : line.1 = name
    · subst here
      cases refused : isHopByHopHeader line.1 || line.1 == requestIdHeader with
      | true =>
        rw [if_pos rfl, ih]
        simp [RouteRequestHeaderPolicy.sets?, refused]
      | false => simp [RouteRequestHeaderPolicy.sets?, refused, getAll_insert]
    · have same : RouteRequestHeaderPolicy.sets? ⟨lines ++ [line], []⟩ name =
          RouteRequestHeaderPolicy.sets? ⟨lines, []⟩ name := by
        simp [RouteRequestHeaderPolicy.sets?, here]
      rw [same]
      split
      · exact ih
      · rw [getAll_insert, if_neg here, ih]

/-- The headers the gateway removes whatever the request's `Connection` says. -/
def isProtectedHeader (credentialHeaders : List String) (name : String) : Bool :=
  isHopByHopHeader name || name == "authorization" || name == "cookie" ||
    name == requestIdHeader || credentialHeaders.contains name || isClientForwardingHeader name

/-- Everything that decides what the upstream sees under one name. -/
theorem getAll_attemptHeaders (inbound : HeaderMap) (sourceIp : String)
    (policy : RouteRequestHeaderPolicy) (credentialHeaders : List String) (name : String) :
    (attemptHeaders inbound sourceIp policy credentialHeaders).getAll name =
      match policy.sets? name with
      | some value => [value]
      | none =>
        if policy.strips name then []
        else if isProtectedHeader credentialHeaders name ||
            (connectionNamedHeaders inbound).contains name then clientIpValues sourceIp name
        else inbound.getAll name := by
  have addresses : isClientForwardingHeader name = false → clientIpValues sourceIp name = [] := by
    intro other
    rw [clientIpValues, if_neg]
    rintro (rfl | rfl)
    · exact absurd other (by decide)
    · exact absurd other (by decide)
  rw [attemptHeaders, applyRouteRequestHeaderPolicy, getAll_routeAdds, getAll_routeStrips]
  change (match policy.sets? name with
    | some value => [value]
    | none => if policy.strips name then [] else _) = _
  cases policy.sets? name with
  | some value => rfl
  | none =>
    rw [getAll_setUpstreamClientIp, getAll_removes, getAll_remove,
      stripGatewayCredentials, getAll_remove, getAll_remove,
      getAll_stripHopByHopHeaders, isProtectedHeader]
    cases forwarding : isClientForwardingHeader name with
    | true => simp
    | false =>
      rw [addresses forwarding]
      by_cases credential : name ∈ credentialHeaders
      · simp [credential]
      · by_cases identifier : name = requestIdHeader
        · simp [identifier]
        · by_cases cookie : name = "cookie"
          · simp [cookie]
          · by_cases authorization : name = "authorization"
            · simp [authorization]
            · simp [credential, identifier, cookie, authorization, Ne.symm identifier,
                Ne.symm cookie, Ne.symm authorization]

end Passes

section Nomination

/-- The characters of a value whose bytes are read one by one. -/
def latin (value : HeaderValue) : List Char := value.map fun byte => Char.ofNat byte.toNat

def isBlank (byte : UInt8) : Bool := byte == 32 || byte == 9

/-- The members of a comma-separated list, without the blanks around them. -/
def fieldTokens (value : HeaderValue) : List HeaderValue :=
  (value.splitOn 44).map fun piece => (piece.dropWhile isBlank).rdropWhile isBlank

/-- The headers that the tokens of one `Connection` value name, whatever else it holds. -/
def namedBy (value : HeaderValue) : List String :=
  (fieldTokens value).filterMap fun token => headerName (String.ofList (latin token))

def nominatedHeaders (headers : HeaderMap) : List String :=
  (headers.getAll "connection").flatMap namedBy

variable {α : Type*} {items : List α}

theorem splitOn_map {β : Type*} [DecidableEq α] [DecidableEq β] (reads : α → β)
    (separator : α) (items : List α)
    (only : ∀ item ∈ items, reads item = reads separator → item = separator) :
    (items.map reads).splitOn (reads separator) = (items.splitOn separator).map
    (List.map reads) := by
  rw [List.splitOn, List.splitOn]
  induction items with
  | nil => simp
  | cons item items ih =>
    rw [map_cons, splitOnP_cons_eq_if_modifyHead, splitOnP_cons_eq_if_modifyHead,
      ih fun other listed => only other (mem_cons_of_mem _ listed)]
    by_cases here : item = separator
    · simp [here]
    · have differs : reads item ≠ reads separator := mt (only item mem_cons_self) here
      simp only [beq_iff_eq, here, differs, if_false]
      cases items.splitOnP (· == separator) with
      | nil => rfl
      | cons piece pieces => rfl

theorem dropWhile_congr {first second : α → Bool}
    (agree : ∀ item ∈ items, first item = second item) :
    items.dropWhile first = items.dropWhile second := by
  induction items with
  | nil => rfl
  | cons item items ih =>
    rw [dropWhile_cons, dropWhile_cons, agree item mem_cons_self,
      ih fun other listed => agree other (mem_cons_of_mem _ listed)]

theorem isWhitespace_of_isVisible {byte : UInt8} (visible : isVisible byte = true) :
    Text.isWhitespace (Char.ofNat byte.toNat) = isBlank byte := by
  simp only [isVisible, Bool.or_eq_true, decide_eq_true_eq, beq_iff_eq, UInt8.le_iff_toNat_le,
    UInt8.lt_iff_toNat_lt, ← UInt8.toNat_inj, UInt8.reduceToNat] at visible
  have own : (Char.ofNat byte.toNat).toNat = byte.toNat := Ascii.toNat_ofNat (by omega)
  rw [Bool.eq_iff_iff]
  simp only [Text.isWhitespace, own, isBlank, decide_eq_true_eq, Bool.or_eq_true, beq_iff_eq,
    ← UInt8.toNat_inj, UInt8.reduceToNat, mem_cons, not_mem_nil, or_false]
  omega

/-- On visible bytes the two ways to trim agree. -/
theorem trim_latin {piece : HeaderValue} (visible : ∀ byte ∈ piece, isVisible byte = true) :
    Text.trim (String.ofList (latin piece)) =
      String.ofList (latin ((piece.dropWhile isBlank).rdropWhile isBlank)) := by
  have front : (latin piece).dropWhile Text.isWhitespace = latin (piece.dropWhile isBlank) := by
    rw [latin, latin, dropWhile_map]
    congr 1
    exact dropWhile_congr fun byte listed => isWhitespace_of_isVisible (visible byte listed)
  have back : (latin (piece.dropWhile isBlank)).rdropWhile Text.isWhitespace =
      latin ((piece.dropWhile isBlank).rdropWhile isBlank) := by
    rw [latin, latin, List.rdropWhile, List.rdropWhile, ← map_reverse, dropWhile_map, ← map_reverse]
    congr 2
    apply dropWhile_congr
    intro byte listed
    have within := (dropWhile_sublist isBlank).mem (List.mem_reverse.mp listed)
    exact isWhitespace_of_isVisible (visible byte within)
  rw [Text.trim, String.toList_ofList, front, back]

theorem toNat_of_byte (byte : UInt8) : (Char.ofNat byte.toNat).toNat = byte.toNat := by
  have small := byte.toNat_lt
  have valid : byte.toNat.isValidChar := Or.inl (by omega)
  rw [Char.ofNat, dif_pos valid]
  rfl

theorem filterMap_split_eq_namedBy {value : HeaderValue} (readable : value.all isVisible = true) :
    (Text.split ',' (String.ofList (latin value))).filterMap
      (fun token => headerName (Text.trim token)) = namedBy value := by
  have comma : Char.ofNat (44 : UInt8).toNat = ',' := by decide
  have pieces : (latin value).splitOn ',' = (value.splitOn 44).map latin := by
    have split := splitOn_map (fun byte : UInt8 => Char.ofNat byte.toNat) 44 value (by
      intro byte _ same
      have codes := congrArg Char.toNat same
      rw [toNat_of_byte, toNat_of_byte] at codes
      exact UInt8.toNat_inj.mp codes)
    rwa [comma] at split
  rw [Text.split, String.toList_ofList, pieces, map_map, filterMap_map, namedBy,
    fieldTokens, filterMap_map]
  apply filterMap_congr
  intro piece listed
  have visible : ∀ byte ∈ piece, isVisible byte = true := by
    intro byte within
    exact List.all_eq_true.mp readable byte (Text.mem_of_mem_splitOnP listed within).1
  dsimp only [Function.comp]
  rw [trim_latin visible]

/-- What is stripped on account of `Connection`: what its readable values name. -/
theorem connectionNamedHeaders_eq (headers : HeaderMap) :
    connectionNamedHeaders headers =
      ((headers.getAll "connection").filter fun value => value.all isVisible).flatMap namedBy := by
  rw [connectionNamedHeaders]
  induction headers.getAll "connection" with
  | nil => rfl
  | cons value values ih =>
    cases readable : value.all isVisible with
    | false =>
      have unread : toStr? value = none := by rw [toStr?, readable]; rfl
      rw [filterMap_cons_none unread, ih, filter_cons_of_neg (by simp [readable])]
    | true =>
      have read : toStr? value = some (String.ofList (latin value)) := by rw [toStr?, readable]; rfl
      rw [filterMap_cons_some read, flatMap_cons, filterMap_append, ih,
        filterMap_split_eq_namedBy readable, filter_cons_of_pos (by simpa using readable),
        flatMap_cons]

theorem mem_nominatedHeaders_of_mem {headers : HeaderMap} {name : String}
    (named : name ∈ connectionNamedHeaders headers) : name ∈ nominatedHeaders headers := by
  rw [connectionNamedHeaders_eq, mem_flatMap] at named
  obtain ⟨value, listed, named⟩ := named
  exact List.mem_flatMap.mpr ⟨value, (List.mem_filter.mp listed).1, named⟩

end Nomination

section Guarantee

variable [AddressParsers] [AddressText] (inbound other : HeaderMap) (sourceIp : String)
  (policy : RouteRequestHeaderPolicy) (credentialHeaders : List String) {name : String}

/-- The headers whose inbound values stay behind. -/
def isWithheld (name : String) : Bool :=
  isProtectedHeader credentialHeaders name || (nominatedHeaders inbound).contains name

/-- The values of a header that are left once everything withheld is gone. -/
def remaining (name : String) : List HeaderValue :=
  if isWithheld inbound credentialHeaders name then [] else inbound.getAll name

/-- What crosses: of a withheld header only what the gateway and the route themselves set, in
the client address headers the gateway's own value, and everything else as it came. -/
structure Boundary : Prop where
  withheld : ∀ name, isWithheld inbound credentialHeaders name = true →
    (attemptHeaders inbound sourceIp policy credentialHeaders).getAll name =
      (attemptHeaders ⟨[]⟩ sourceIp policy credentialHeaders).getAll name
  clientIp : ∀ name ∈ [xForwardedFor, xRealIp], policy.strips name = false →
    policy.sets? name = none →
    (attemptHeaders inbound sourceIp policy credentialHeaders).getAll name =
      ((AddressParsers.parseIp sourceIp).map AddressText.value).toList
  forwarded : ∀ name, isWithheld inbound credentialHeaders name = false →
    name ∉ policy.stripRequestHeaders → inbound.getAll name ≠ [] →
    (attemptHeaders inbound sourceIp policy credentialHeaders).getAll name = inbound.getAll name

/-- Whatever only unreadable `Connection` values name is removed on another account or not
there, and the route does not set what the client sent differently. -/
structure Sealed : Prop where
  nominated : ∀ value ∈ inbound.getAll "connection", toStr? value = none →
    ∀ name ∈ namedBy value, inbound.getAll name = [] ∨
      isProtectedHeader credentialHeaders name = true ∨ name ∈ connectionNamedHeaders inbound ∨
      policy.strips name = true ∨ (policy.sets? name).isSome = true
  kept : ∀ name value, policy.sets? name = some value → name ∉ policy.stripRequestHeaders →
    isWithheld inbound credentialHeaders name = false →
    inbound.getAll name = [] ∨ inbound.getAll name = [value]

variable {inbound other sourceIp policy credentialHeaders}

theorem clientIpValues_of_not_protected (free : isProtectedHeader credentialHeaders name = false) :
    clientIpValues sourceIp name = [] := by
  rw [clientIpValues, if_neg]
  rintro (rfl | rfl)
  · have own : isClientForwardingHeader xForwardedFor = true := by decide
    simp [isProtectedHeader, own] at free
  · have own : isClientForwardingHeader xRealIp = true := by decide
    simp [isProtectedHeader, own] at free

/-- Without a request there are only the gateway's and the route's own values. -/
theorem getAll_attemptHeaders_empty (name : String) :
    (attemptHeaders ⟨[]⟩ sourceIp policy credentialHeaders).getAll name =
      match policy.sets? name with
      | some value => [value]
      | none => if policy.strips name then [] else clientIpValues sourceIp name := by
  rw [getAll_attemptHeaders]
  have none_ : connectionNamedHeaders ⟨[]⟩ = [] := rfl
  cases policy.sets? name with
  | some value => rfl
  | none =>
    cases free : isProtectedHeader credentialHeaders name with
    | true => rfl
    | false =>
      rw [none_, clientIpValues_of_not_protected free]
      rfl

/-- An absent header is what the gateway and the route make of it. -/
theorem getAll_attemptHeaders_of_absent (absent : inbound.getAll name = []) :
    (attemptHeaders inbound sourceIp policy credentialHeaders).getAll name =
      (attemptHeaders ⟨[]⟩ sourceIp policy credentialHeaders).getAll name := by
  rw [getAll_attemptHeaders_empty, getAll_attemptHeaders, absent]
  cases policy.sets? name with
  | some value => rfl
  | none =>
    cases free : isProtectedHeader credentialHeaders name with
    | true => rfl
    | false => rw [clientIpValues_of_not_protected free, ite_self]

omit [AddressParsers] [AddressText] in
theorem isWithheld_eq_true :
    isWithheld inbound credentialHeaders name = true ↔
      isProtectedHeader credentialHeaders name = true ∨ name ∈ nominatedHeaders inbound := by
  simp [isWithheld]

/-- What is not withheld arrives as it came, unless the route touches it. -/
theorem getAll_attemptHeaders_of_free (free : isWithheld inbound credentialHeaders name = false) :
    (attemptHeaders inbound sourceIp policy credentialHeaders).getAll name =
      match policy.sets? name with
      | some value => [value]
      | none => if policy.strips name then [] else inbound.getAll name := by
  rw [isWithheld, Bool.or_eq_false_iff] at free
  obtain ⟨unprotected, unnamed⟩ := free
  have unread : name ∉ connectionNamedHeaders inbound :=
    mt mem_nominatedHeaders_of_mem (by simpa using unnamed)
  rw [getAll_attemptHeaders]
  simp [unprotected, unread]

theorem Sealed.boundary (tight : Sealed inbound policy credentialHeaders) :
    Boundary inbound sourceIp policy credentialHeaders where
  withheld name held := by
    by_cases absent : inbound.getAll name = []
    · exact getAll_attemptHeaders_of_absent absent
    · rw [getAll_attemptHeaders_empty, getAll_attemptHeaders]
      cases set_ : policy.sets? name with
      | some value => rfl
      | none =>
        cases stripped : policy.strips name with
        | true => rfl
        | false =>
          rw [if_neg Bool.false_ne_true, if_neg Bool.false_ne_true, if_pos]
          cases covered : isProtectedHeader credentialHeaders name with
          | true => rfl
          | false =>
            rw [Bool.false_or, contains_iff_mem]
            rcases isWithheld_eq_true.mp held with protected_ | named
            · rw [covered] at protected_
              cases protected_
            · obtain ⟨value, listed, named⟩ := List.mem_flatMap.mp named
              cases read : toStr? value with
              | none =>
                rcases tight.nominated value listed read name named with gone | held | named | cut
                · exact absurd gone absent
                · rw [covered] at held
                  cases held
                · exact named
                · simp [stripped, set_] at cut
              | some text =>
                have readable : value.all isVisible = true := by
                  by_contra unreadable
                  rw [toStr?, if_neg unreadable] at read
                  cases read
                rw [connectionNamedHeaders_eq]
                exact List.mem_flatMap.mpr
                  ⟨value, List.mem_filter.mpr ⟨listed, readable⟩, named⟩
  clientIp name own unstripped unset := by
    have covered : isProtectedHeader credentialHeaders name = true := by
      have forwarding : ∀ name ∈ [xForwardedFor, xRealIp],
          isClientForwardingHeader name = true := by decide
      simp [isProtectedHeader, forwarding name own]
    have addressed : name = xForwardedFor ∨ name = xRealIp := by simpa using own
    rw [getAll_attemptHeaders, unset]
    simp [unstripped, covered, clientIpValues, addressed]
  forwarded name free unstripped present := by
    rw [getAll_attemptHeaders_of_free free]
    cases set_ : policy.sets? name with
    | some value =>
      rcases tight.kept name value set_ unstripped free with gone | same
      · exact absurd gone present
      · exact same.symm
    | none => simp [RouteRequestHeaderPolicy.strips, unstripped]

theorem Boundary.tight (boundary : Boundary inbound sourceIp policy credentialHeaders) :
    Sealed inbound policy credentialHeaders where
  nominated value listed unread name named := by
    have held : isWithheld inbound credentialHeaders name = true :=
      isWithheld_eq_true.mpr (.inr (List.mem_flatMap.mpr ⟨value, listed, named⟩))
    have same := boundary.withheld name held
    rw [getAll_attemptHeaders_empty, getAll_attemptHeaders] at same
    cases covered : isProtectedHeader credentialHeaders name with
    | true => exact .inr (.inl rfl)
    | false =>
      by_cases read : name ∈ connectionNamedHeaders inbound
      · exact .inr (.inr (.inl read))
      · cases stripped : policy.strips name with
        | true => exact .inr (.inr (.inr (.inl rfl)))
        | false =>
          cases set_ : policy.sets? name with
          | some value => exact .inr (.inr (.inr (.inr rfl)))
          | none =>
            -- nothing removed it, so what was left of it has to be nothing
            rw [set_, clientIpValues_of_not_protected covered] at same
            simpa [stripped, covered, read] using same
  kept name value set_ unstripped free := by
    by_cases absent : inbound.getAll name = []
    · exact .inl absent
    · right
      have same := boundary.forwarded name free unstripped absent
      rw [getAll_attemptHeaders_of_free free, set_] at same
      exact same.symm

/-- Maps that agree on what remains of them lead to one outbound map. -/
theorem Boundary.agree (boundary : Boundary inbound sourceIp policy credentialHeaders)
    (otherBoundary : Boundary other sourceIp policy credentialHeaders)
    (same : ∀ name, remaining inbound credentialHeaders name =
      remaining other credentialHeaders name) (name : String) :
    (attemptHeaders inbound sourceIp policy credentialHeaders).getAll name =
      (attemptHeaders other sourceIp policy credentialHeaders).getAll name := by
  have here := same name
  rw [remaining, remaining] at here
  cases held : isWithheld inbound credentialHeaders name with
  | true =>
    rw [boundary.withheld name held]
    cases otherHeld : isWithheld other credentialHeaders name with
    | true => rw [otherBoundary.withheld name otherHeld]
    | false =>
      rw [held, otherHeld] at here
      exact (getAll_attemptHeaders_of_absent here.symm).symm
  | false =>
    cases otherHeld : isWithheld other credentialHeaders name with
    | true =>
      rw [held, otherHeld] at here
      rw [otherBoundary.withheld name otherHeld]
      exact getAll_attemptHeaders_of_absent here
    | false =>
      rw [held, otherHeld] at here
      have values : inbound.getAll name = other.getAll name := here
      rw [getAll_attemptHeaders_of_free held, getAll_attemptHeaders_of_free otherHeld, values]

/-- The boundary holds for two requests, and keeps them apart only by what remains of them,
just when neither has a `Connection` value that cannot be read as text and names a header that
would otherwise pass. -/
theorem attemptHeaders_boundary_iff (inbound other : HeaderMap) (sourceIp : String)
    (policy : RouteRequestHeaderPolicy) (credentialHeaders : List String) :
    (Boundary inbound sourceIp policy credentialHeaders ∧
      Boundary other sourceIp policy credentialHeaders ∧
      ((∀ name, remaining inbound credentialHeaders name =
          remaining other credentialHeaders name) →
        ∀ name, (attemptHeaders inbound sourceIp policy credentialHeaders).getAll name =
          (attemptHeaders other sourceIp policy credentialHeaders).getAll name)) ↔
      Sealed inbound policy credentialHeaders ∧ Sealed other policy credentialHeaders := by
  constructor
  · rintro ⟨boundary, otherBoundary, -⟩
    exact ⟨boundary.tight, otherBoundary.tight⟩
  · rintro ⟨tight, otherTight⟩
    exact ⟨tight.boundary, otherTight.boundary, tight.boundary.agree otherTight.boundary⟩

end Guarantee

section Leak

@[reducible] def noAddresses : AddressParsers := ⟨fun _ => none, fun _ => none, fun _ => none⟩

@[reducible] def noAddressText : AddressText := ⟨fun _ => []⟩

attribute [local instance] noAddresses noAddressText

/-- `Connection: x-remove,` with a byte behind the comma that is not ASCII. -/
def leakingInbound : HeaderMap :=
  ⟨[("connection", asciiBytes "x-remove," ++ [255]), ("x-remove", asciiBytes "private")]⟩

/-- A header that `Connection` names crosses with its value. -/
theorem attemptHeaders_forwards_nominated :
    "x-remove" ∈ nominatedHeaders leakingInbound ∧
      (attemptHeaders leakingInbound "" ⟨[], []⟩ []).getAll "x-remove" = [asciiBytes "private"] ∧
      ¬ Boundary leakingInbound "" ⟨[], []⟩ [] := by
  have named : "x-remove" ∈ nominatedHeaders leakingInbound := by decide
  have crosses : (attemptHeaders leakingInbound "" ⟨[], []⟩ []).getAll "x-remove" =
      [asciiBytes "private"] := by decide
  refine ⟨named, crosses, ?_⟩
  intro boundary
  have none_ := boundary.withheld "x-remove" (isWithheld_eq_true.mpr (.inr named))
  exact absurd none_ (by decide)

end Leak

end GreenGateway.Proxy
