import GreenGateway.Foundation.BestMatch
import GreenGateway.Foundation.JsonSize
import GreenGateway.Kernel.Decide
import GreenGateway.Network.ClientIp

/-! Which upstream route a request takes, and the request host that choice reads. -/

namespace GreenGateway.Proxy

open Foundation Rbac Kernel Network List

section Routing

class RouteMatch (T : Type*) where
  pathPrefix : T → Option String
  host : T → Option String

variable {T : Type*} [RouteMatch T] {routes permuted : List T} {path : String}
  {requestHost : Option String} {route other : T}

open RouteMatch

def routeMatches (route : T) (path : String) (requestHost : Option String) : Bool :=
  let hostMatches := (host route).all fun host => requestHost == some host
  let pathMatches := (pathPrefix route).all fun pathPrefix => pathPrefixMatches path pathPrefix
  hostMatches && pathMatches

/-- How good a match is: the length of the prefix and whether a host is named. -/
structure MatchQuality where
  prefixLen : Nat
  hostSpecific : Bool
  deriving DecidableEq, Repr

def matchQuality (route : T) : MatchQuality :=
  { prefixLen := ((pathPrefix route).map Text.len).getD 0, hostSpecific := (host route).isSome }

def MatchQuality.shouldReplace (own best : MatchQuality) : Bool :=
  decide (best.prefixLen < own.prefixLen) ||
    (own.prefixLen == best.prefixLen && own.hostSpecific && !best.hostSpecific)

def matchingRoute (routes : List T) (path : String) (requestHost : Option String) : Option T :=
  (BestMatch.best
    (fun route => if routeMatches route path requestHost then some (matchQuality route) else none)
    MatchQuality.shouldReplace routes).map Prod.fst

def MatchQuality.rank (quality : MatchQuality) : Nat :=
  2 * quality.prefixLen + quality.hostSpecific.toNat

theorem MatchQuality.shouldReplace_iff (own best : MatchQuality) :
    own.shouldReplace best = true ↔ best.rank < own.rank := by
  obtain ⟨ownLen, ownHost⟩ := own
  obtain ⟨bestLen, bestHost⟩ := best
  cases ownHost <;> cases bestHost <;> simp [shouldReplace, rank] <;> omega

/-- The route matches, no matching route has a longer prefix, and none of the same length
names a host unless this one does. -/
structure Wins (routes : List T) (path : String) (requestHost : Option String) (route : T) :
    Prop where
  listed : route ∈ routes
  matched : routeMatches route path requestHost = true
  longest : ∀ other ∈ routes, routeMatches other path requestHost = true →
    (matchQuality other).prefixLen ≤ (matchQuality route).prefixLen
  hostBound : ∀ other ∈ routes, routeMatches other path requestHost = true →
    (matchQuality other).prefixLen = (matchQuality route).prefixLen →
    (matchQuality other).hostSpecific = true → (matchQuality route).hostSpecific = true

theorem Wins.of_matchingRoute (found : matchingRoute routes path requestHost = some route) :
    Wins routes path requestHost route := by
  rw [matchingRoute, Option.map_eq_some_iff] at found
  obtain ⟨⟨route, quality⟩, best, rfl⟩ := found
  obtain ⟨front, back, rfl, first⟩ := BestMatch.first_of_best MatchQuality.shouldReplace_iff best
  obtain ⟨matched, scored⟩ := Option.ite_none_right_eq_some.mp first.scored
  cases scored
  -- wherever it stands, a matching route ranks no higher
  have bounded : ∀ other ∈ front ++ route :: back, routeMatches other path requestHost = true →
      (matchQuality other).rank ≤ (matchQuality route).rank := by
    intro other listed matches_
    rcases List.mem_append.mp listed with before | after
    · exact (first.before other before _ (if_pos matches_)).le
    · rcases List.mem_cons.mp after with rfl | after
      · exact le_rfl
      · exact first.after other after _ (if_pos matches_)
  dsimp only
  constructor
  case listed => simp
  case matched => exact matched
  case longest =>
    intro other listed matches_
    have lower := bounded other listed matches_
    have := Bool.toNat_le (matchQuality route).hostSpecific
    simp only [MatchQuality.rank] at lower
    omega
  case hostBound =>
    intro other listed matches_ same bound
    have lower := bounded other listed matches_
    rw [MatchQuality.rank, MatchQuality.rank, same, bound] at lower
    cases kept : (matchQuality route).hostSpecific with
    | true => rfl
    | false => rw [kept] at lower; simp at lower

theorem matchingRoute_eq_none :
    matchingRoute routes path requestHost = none ↔
      ∀ route ∈ routes, routeMatches route path requestHost = false := by
  rw [matchingRoute, Option.map_eq_none_iff, BestMatch.best_eq_none]
  simp

/-- A prefix that matches opens the path, and is not empty. -/
theorem pathPrefix_of_routeMatches {start : String}
    (matched : routeMatches route path requestHost = true) (own : pathPrefix route = some start) :
    0 < Text.len start ∧ ∃ rest, path = start ++ rest := by
  simp only [routeMatches, own, Option.all_some, Bool.and_eq_true] at matched
  obtain ⟨absolute, below⟩ := pathPrefixMatches_iff.mp matched.2
  constructor
  · obtain ⟨tail, rfl⟩ := Text.startsWith_iff.mp absolute
    have slash : "/".utf8ByteSize = 1 := rfl
    rw [Text.len, String.utf8ByteSize_append, slash]
    omega
  · rcases below with rfl | ⟨-, rest, rfl⟩ | ⟨-, rest, rfl⟩
    · exact ⟨"", by simp⟩
    · exact ⟨rest, rfl⟩
    · exact ⟨"/" ++ rest, rfl⟩

/-- Two texts of one length that open the same path are one text. -/
theorem eq_of_len_eq {first second left right : String} (same : first ++ left = second ++ right)
    (level : Text.len first = Text.len second) : first = second := by
  have chars : first.toList ++ left.toList = second.toList ++ right.toList := by
    simpa using congrArg String.toList same
  have widths : utf8Width first.toList = utf8Width second.toList := by
    rw [← len_ofList, ← len_ofList, String.ofList_toList, String.ofList_toList, level]
  have zero : ∀ chars, utf8Width chars = 0 → chars = [] := by
    intro chars empty
    cases chars with
    | nil => rfl
    | cons char rest =>
      have := char.utf8Size_pos
      rw [utf8Width_cons] at empty
      omega
  rcases List.append_eq_append_iff.mp chars with ⟨more, longer, -⟩ | ⟨more, longer, -⟩
  · rw [longer, utf8Width_append] at widths
    rw [zero more (by omega), append_nil] at longer
    exact (String.toList_inj.mp longer).symm
  · rw [longer, utf8Width_append] at widths
    rw [zero more (by omega), append_nil] at longer
    exact String.toList_inj.mp longer

theorem binding_eq_of_matchQuality_eq (matched : routeMatches route path requestHost = true)
    (otherMatched : routeMatches other path requestHost = true)
    (level : matchQuality route = matchQuality other) :
    (pathPrefix route, host route) = (pathPrefix other, host other) := by
  rw [matchQuality, matchQuality, MatchQuality.mk.injEq] at level
  obtain ⟨lengths, hosts⟩ := level
  apply Prod.ext
  · dsimp only
    cases own : pathPrefix route with
    | none =>
      cases its : pathPrefix other with
      | none => rfl
      | some start =>
        have nonempty := (pathPrefix_of_routeMatches otherMatched its).1
        simp only [own, its, Option.map_none, Option.map_some, Option.getD_none,
          Option.getD_some] at lengths
        omega
    | some start =>
      obtain ⟨nonempty, rest, opens⟩ := pathPrefix_of_routeMatches matched own
      cases its : pathPrefix other with
      | none =>
        simp only [own, its, Option.map_none, Option.map_some, Option.getD_none,
          Option.getD_some] at lengths
        omega
      | some otherStart =>
        obtain ⟨-, otherRest, otherOpens⟩ := pathPrefix_of_routeMatches otherMatched its
        simp only [own, its, Option.map_some, Option.getD_some] at lengths
        rw [eq_of_len_eq (opens.symm.trans otherOpens) lengths]
  · dsimp only
    simp only [routeMatches, Bool.and_eq_true] at matched otherMatched
    cases own : host route with
    | none =>
      cases its : host other with
      | none => rfl
      | some bound => simp [own, its] at hosts
    | some bound =>
      cases its : host other with
      | none => simp [own, its] at hosts
      | some otherBound =>
        have named : requestHost = some bound := by simpa [own] using matched.1
        have otherNamed : requestHost = some otherBound := by simpa [its] using otherMatched.1
        rw [← named, otherNamed]

section

variable (distinct : (routes.map fun route => (pathPrefix route, host route)).Nodup)

include distinct

/-- With distinct bindings at most one route wins. -/
theorem Wins.unique
    (wins : Wins routes path requestHost route) (otherWins : Wins routes path requestHost other) :
    route = other := by
  have lengths := le_antisymm (otherWins.longest route wins.listed wins.matched)
    (wins.longest other otherWins.listed otherWins.matched)
  have hosts : (matchQuality route).hostSpecific = (matchQuality other).hostSpecific := by
    rw [Bool.eq_iff_iff]
    exact ⟨otherWins.hostBound route wins.listed wins.matched lengths,
      wins.hostBound other otherWins.listed otherWins.matched lengths.symm⟩
  have level : matchQuality route = matchQuality other := by
    cases own : matchQuality route
    simp_all
  exact inj_on_of_nodup_map distinct wins.listed otherWins.listed
    (binding_eq_of_matchQuality_eq wins.matched otherWins.matched level)

theorem matchingRoute_eq_some :
    matchingRoute routes path requestHost = some route ↔ Wins routes path requestHost route := by
  constructor
  · exact Wins.of_matchingRoute
  · intro wins
    cases found : matchingRoute routes path requestHost with
    | none =>
      have misses := matchingRoute_eq_none.mp found route wins.listed
      rw [wins.matched] at misses
      cases misses
    | some other => rw [(Wins.of_matchingRoute found).unique distinct wins]

end

theorem Wins.perm (wins : Wins routes path requestHost route)
    (same : permuted.Perm routes) : Wins permuted path requestHost route where
  listed := same.mem_iff.mpr wins.listed
  matched := wins.matched
  longest other listed := wins.longest other (same.mem_iff.mp listed)
  hostBound other listed := wins.hostBound other (same.mem_iff.mp listed)

theorem matchingRoute_perm (same : permuted.Perm routes)
    (distinct : (routes.map fun route => (pathPrefix route, host route)).Nodup) :
    matchingRoute permuted path requestHost = matchingRoute routes path requestHost := by
  cases found : matchingRoute routes path requestHost with
  | none =>
    rw [matchingRoute_eq_none]
    intro route listed
    exact matchingRoute_eq_none.mp found route (same.mem_iff.mp listed)
  | some route =>
    rw [matchingRoute_eq_some ((same.map _).nodup_iff.mpr distinct)]
    exact (Wins.of_matchingRoute found).perm same

end Routing

section Hosts

variable [Externals]

/-- The request's host as admission and routing read it. -/
inductive HostHeader where
  | absent
  | present (host : String)
  | malformed
  | tooLong
  deriving DecidableEq, Repr

def isRegNameChar (char : Char) : Bool := char.isAlphanum || "-._~!$&'()*+,;=".toList.contains char

def isRegName : List Char → Bool
  | [] => true
  | '%' :: first :: second :: rest =>
    Text.isHexDigit first && Text.isHexDigit second && isRegName rest
  | char :: rest => isRegNameChar char && isRegName rest

/-- `str::parse::<u16>` on digits. -/
def parseU16 (digits : String) : Option Nat :=
  let value := Nat.ofDigitChars 10 digits.toList 0
  if value ≤ 65535 then some value else none

/-- The port behind a closing bracket. -/
def portAfter (after : String) : Option String :=
  if after = "" then some "" else Text.stripFront? after ":"

/-- A value's host, judged, and its port, not yet judged. -/
def hostAndPort (value : String) : Option (String × String) :=
  match Text.stripFront? value "[" with
  | some rest =>
    (Text.splitOnce ']' rest).bind fun (host, after) =>
      (portAfter after).bind fun port =>
        if !Externals.isIpv6 host then none else some (host, port)
  | none =>
    let (host, port) := (Text.splitOnce ':' value).getD (value, "")
    if host.isEmpty || !isRegName host.toList then none else some (host, port)

def parseHostWithoutPort (value : String) : Option String :=
  (hostAndPort value).bind fun (host, port) =>
    if !port.isEmpty && (!port.toList.all Char.isDigit || (parseU16 port).isNone) then none
    else some (Text.toAsciiLowercase host)

/-- What a value names, with its trimmed lower-cased raw text. -/
def classifyHostValue (value : String) : HostHeader × String :=
  let value := Text.trim value
  if value.isEmpty then (.absent, "")
  else
    let classified := match parseHostWithoutPort value with
      | some host => if maxRequestHostBytes < Text.len host then .tooLong else .present host
      | none => .malformed
    (classified, Text.toAsciiLowercase value)

def hostField (headers : HeaderMap) : HostHeader × String :=
  match headers.getAll "host" with
  | [] => (.absent, "")
  | value :: more =>
    if !more.isEmpty then (.malformed, "")
    else match toStr? value with
      | none => (.malformed, "")
      | some value => classifyHostValue value

def hostAuthority : Option String → HostHeader × String
  | some authority => classifyHostValue authority
  | none => (.absent, "")

def hostHeader (authority : Option String) (headers : HeaderMap) : HostHeader :=
  match hostField headers, hostAuthority authority with
  | (.malformed, _), _ => .malformed
  | _, (.malformed, _) => .malformed
  | (.tooLong, _), _ => .tooLong
  | _, (.tooLong, _) => .tooLong
  | (.present host, rawField), (.present _, rawAuthority) =>
    if rawField = rawAuthority then .present host else .malformed
  | (.present host, _), (.absent, _) => .present host
  | (.absent, _), (.present host, _) => .present host
  | (.absent, _), (.absent, _) => .absent

end Hosts

section Canonical

/-- What is used of `Ipv6Addr::from_str`: its texts are hexadecimal digits, colons and dots,
at least one of them a colon, and case does not matter. -/
structure Ipv6Syntax [Externals] : Prop where
  spelled : ∀ text, Externals.isIpv6 text = true →
    ∀ char ∈ text.toList, Text.isHexDigit char = true ∨ char = ':' ∨ char = '.'
  colon : ∀ text, Externals.isIpv6 text = true → ':' ∈ text.toList
  lower : ∀ text, Externals.isIpv6 text = true →
    Externals.isIpv6 (Text.toAsciiLowercase text) = true

variable {char : Char} {chars : List Char} {text value host port rest raw : String}
  {headers : HeaderMap}

theorem isRegNameChar_lt (spelled : isRegNameChar char = true) : char.toNat < 128 := by
  rw [isRegNameChar, Bool.or_eq_true, contains_iff_mem] at spelled
  rcases spelled with alphanumeric | listed
  · exact Ascii.toNat_lt_of_isAlphanum alphanumeric
  · have marks : ∀ mark ∈ "-._~!$&'()*+,;=".toList, mark.toNat < 128 := by simp
    exact marks char listed

theorem isRegNameChar_facts (spelled : isRegNameChar char = true) :
    (33 ≤ char.toNat ∧ char.toNat < 127) ∧ isRegNameChar char.toLower = true ∧
      char ∉ ['/', ':', '[', '%'] :=
  Ascii.forall_lt (fun char => isRegNameChar char = true →
      (33 ≤ char.toNat ∧ char.toNat < 127) ∧ isRegNameChar char.toLower = true ∧
        char ∉ ['/', ':', '[', '%'])
    (by decide) (isRegNameChar_lt spelled) spelled

theorem isHexDigit_facts (digit : Text.isHexDigit char = true) :
    isRegNameChar char = true ∧ Text.isHexDigit char.toLower = true ∧ char ≠ ']' :=
  Ascii.forall_lt (fun char => Text.isHexDigit char = true →
      isRegNameChar char = true ∧ Text.isHexDigit char.toLower = true ∧ char ≠ ']')
    (by decide) (Ascii.toNat_lt_of_isAlphanum (Ascii.isAlphanum_of_isHexDigit digit)) digit

section

variable (named : isRegName chars = true)

include named

theorem mem_of_isRegName : ∀ char ∈ chars, isRegNameChar char = true ∨ char = '%' := by
  fun_induction isRegName chars with
  | case1 => exact nofun
  | case2 first second rest ih =>
    simp only [Bool.and_eq_true] at named
    obtain ⟨⟨high, low⟩, others⟩ := named
    intro char listed
    simp only [mem_cons] at listed
    rcases listed with rfl | rfl | rfl | listed
    · exact .inr rfl
    · exact .inl (isHexDigit_facts high).1
    · exact .inl (isHexDigit_facts low).1
    · exact ih others char listed
  | case3 head rest _ ih =>
    rw [Bool.and_eq_true] at named
    intro char listed
    rcases List.mem_cons.mp listed with rfl | listed
    · exact .inl named.1
    · exact ih named.2 char listed

theorem isRegName_lower : isRegName (chars.map Char.toLower) = true := by
  fun_induction isRegName chars with
  | case1 => rfl
  | case2 first second rest ih =>
    simp only [Bool.and_eq_true] at named
    have percent : '%'.toLower = '%' := by decide
    rw [map_cons, map_cons, map_cons, percent, isRegName,
      (isHexDigit_facts named.1.1).2.1, (isHexDigit_facts named.1.2).2.1, ih named.2]
    rfl
  | case3 head rest _ ih =>
    rw [Bool.and_eq_true] at named
    have lowered := (isRegNameChar_facts named.1).2.1
    have plain : head.toLower ≠ '%' := by
      intro same
      exact (isRegNameChar_facts lowered).2.2 (by simp [same])
    rw [map_cons, isRegName, lowered, ih named.2]
    · rfl
    · exact fun _ _ _ same => absurd same plain

theorem regName_excludes (mark : Char) (foreign : mark ∈ ['/', ':', '[']) : mark ∉ chars := by
  intro listed
  rcases mem_of_isRegName named mark listed with spelled | rfl
  · have outside := (isRegNameChar_facts spelled).2.2
    simp only [mem_cons] at foreign outside
    tauto
  · simp at foreign

end

theorem toStr?_asciiBytes (solid : Ascii.Solid text.toList) :
    toStr? (asciiBytes text) = some text := by
  have visible : (asciiBytes text).all isVisible = true := by
    rw [asciiBytes, all_map, all_eq_true]
    intro char listed
    have bounds := solid char listed
    exact Ascii.forall_lt (fun char => 33 ≤ char.toNat ∧ char.toNat < 127 →
      isVisible (UInt8.ofNat char.toNat) = true) (by decide) (by omega) bounds
  have back : (asciiBytes text).map (fun byte => Char.ofNat byte.toNat) = text.toList := by
    rw [asciiBytes, map_map, map_congr_left, map_id]
    intro char listed
    have bounds := solid char listed
    have small : char.toNat % 256 = char.toNat := Nat.mod_eq_of_lt (by omega)
    simp [small, Char.ofNat_toNat]
  rw [toStr?, if_pos visible, back, String.ofList_toList]

variable [Externals]

/-- A lower-case registered name or IPv6 address. -/
structure CanonicalHost (host : String) : Prop where
  spelled : (host ≠ "" ∧ isRegName host.toList = true) ∨ Externals.isIpv6 host = true
  lower : Text.toAsciiLowercase host = host

theorem hostAndPort_spelled (found : hostAndPort value = some (host, port)) :
    (host ≠ "" ∧ isRegName host.toList = true) ∨ Externals.isIpv6 host = true := by
  rw [hostAndPort] at found
  split at found
  · case _ rest _ =>
    simp only [Option.bind_eq_some_iff] at found
    obtain ⟨⟨name, after⟩, -, behind, -, kept⟩ := found
    cases ipv6 : Externals.isIpv6 name with
    | false => simp [ipv6] at kept
    | true =>
      simp only [ipv6, Bool.not_true, Bool.false_eq_true, if_false, Option.some.injEq,
        Prod.mk.injEq] at kept
      obtain ⟨rfl, -⟩ := kept
      exact .inr ipv6
  · dsimp only at found
    split at found
    · cases found
    · case _ kept =>
      cases found
      simp only [Bool.or_eq_true, not_or, Bool.not_eq_true', Bool.not_eq_true] at kept
      exact .inl ⟨by simpa using kept.1, by simpa using kept.2⟩

theorem CanonicalHost.of_parse (ipv6 : Ipv6Syntax)
    (found : parseHostWithoutPort value = some host) : CanonicalHost host := by
  simp only [parseHostWithoutPort, Option.bind_eq_some_iff] at found
  obtain ⟨⟨name, port⟩, parts, kept⟩ := found
  split at kept
  · cases kept
  · cases kept
    constructor
    case lower => exact Text.toAsciiLowercase_idem name
    case spelled =>
      rcases hostAndPort_spelled parts with ⟨nonempty, named⟩ | address
      · left
        constructor
        · intro empty
          apply nonempty
          simpa [Text.toAsciiLowercase] using empty
        · simpa [Text.toAsciiLowercase] using isRegName_lower named
      · exact .inr (ipv6.lower name address)

theorem ipv6_excludes (ipv6 : Ipv6Syntax) (address : Externals.isIpv6 text = true)
    (mark : Char) (foreign : mark ∈ ['/', ']']) : mark ∉ text.toList := by
  intro listed
  simp only [mem_cons, not_mem_nil, or_false] at foreign
  rcases ipv6.spelled text address mark listed with digit | rfl | rfl
  · obtain ⟨spelled, -, notBracket⟩ := isHexDigit_facts digit
    rcases foreign with rfl | rfl
    · exact (isRegNameChar_facts spelled).2.2 (by simp)
    · exact notBracket rfl
  · simp at foreign
  · simp at foreign

theorem CanonicalHost.solid (ipv6 : Ipv6Syntax) (canonical : CanonicalHost host) :
    Ascii.Solid host.toList := by
  intro char listed
  rcases canonical.spelled with ⟨-, named⟩ | address
  · rcases mem_of_isRegName named char listed with spelled | rfl
    · exact (isRegNameChar_facts spelled).1
    · decide
  · rcases ipv6.spelled host address char listed with digit | rfl | rfl
    · exact (isRegNameChar_facts (isHexDigit_facts digit).1).1
    · decide
    · decide

theorem CanonicalHost.isBareHost (ipv6 : Ipv6Syntax)
    (canonical : CanonicalHost host) : isBareHost host = true := by
  rw [Kernel.isBareHost]
  rcases canonical.spelled with ⟨nonempty, named⟩ | address
  · have slash := regName_excludes named '/' (by simp)
    have colon := regName_excludes named ':' (by simp)
    simp [nonempty, slash, colon]
  · have slash := ipv6_excludes ipv6 address '/' (by simp)
    have colon := ipv6.colon host address
    have nonempty : host ≠ "" := by
      rintro rfl
      simp at colon
    simp [nonempty, slash, colon, address]

/-- How a host is written in a `Host` field or an authority. -/
def bracketed (host : String) : String :=
  if ':' ∈ host.toList then "[" ++ (host ++ "]") else host

/-- A port as the grammar has it: digits, possibly none, that a socket could bind. -/
structure IsPort (port : String) : Prop where
  digits : ∀ char ∈ port.toList, char.isDigit = true
  bounded : Nat.ofDigitChars 10 port.toList 0 ≤ 65535

/-- What may follow the host: nothing, or a colon and a port. -/
inductive PortPart : String → Prop where
  | none : PortPart ""
  | port {port : String} (valid : IsPort port) : PortPart (":" ++ port)

theorem hostAndPort_bracketed (ipv6 : Ipv6Syntax)
    (canonical : CanonicalHost host) (after : rest = "" ∧ port = "" ∨ rest = ":" ++ port) :
    hostAndPort (bracketed host ++ rest) = some (host, port) := by
  have behind : portAfter rest = some port := by
    rw [portAfter]
    rcases after with ⟨rfl, rfl⟩ | rfl
    · rfl
    · rw [if_neg (by simp), Text.stripFront?_eq_some]
  rcases canonical.spelled with ⟨nonempty, named⟩ | address
  · have colon := regName_excludes named ':' (by simp)
    have bracket := regName_excludes named '[' (by simp)
    have unbracketed : Text.stripFront? (host ++ rest) "[" = none := by
      rw [Option.eq_none_iff_forall_ne_some]
      intro other found
      rw [Text.stripFront?_eq_some] at found
      -- the host is not empty, so it would open with the bracket
      obtain ⟨first, more, chars⟩ := exists_cons_of_ne_nil
        (mt String.toList_eq_nil_iff.mp nonempty)
      have heads : (host ++ rest).toList = ("[" ++ other).toList := by rw [found]
      rw [String.toList_append, String.toList_append, chars] at heads
      simp only [cons_append, String.reduceToList, nil_append, List.cons.injEq] at heads
      apply bracket
      rw [chars, heads.1]
      exact mem_cons_self
    have parts : (Text.splitOnce ':' (host ++ rest)).getD (host ++ rest, "") = (host, port) := by
      rcases after with ⟨rfl, rfl⟩ | rfl
      · rw [String.append_empty, Text.splitOnce_eq_none.mpr colon]
        rfl
      · have split : Text.splitOnce ':' (host ++ (":" ++ port)) = some (host, port) :=
          Text.splitOnce_eq_some.mpr ⟨rfl, colon⟩
        rw [split]
        rfl
    rw [bracketed, if_neg colon, hostAndPort, unbracketed]
    rw [parts]
    simp [nonempty, named]
  · have closing := ipv6_excludes ipv6 address ']' (by simp)
    have opened : Text.stripFront? ("[" ++ (host ++ "]") ++ rest) "[" =
        some (host ++ ("]" ++ rest)) := by
      rw [Text.stripFront?_eq_some, String.append_assoc, String.append_assoc]
    have parts : Text.splitOnce ']' (host ++ ("]" ++ rest)) = some (host, rest) :=
      Text.splitOnce_eq_some.mpr ⟨rfl, closing⟩
    rw [bracketed, if_pos (ipv6.colon host address), hostAndPort, opened]
    dsimp only
    rw [parts, Option.bind_some]
    rw [behind, Option.bind_some, address]
    rfl

theorem parseHostWithoutPort_empty : parseHostWithoutPort "" = none := by
  have unbracketed : Text.stripFront? "" "[" = none := by decide
  have whole : Text.splitOnce ':' "" = none := by decide
  simp [parseHostWithoutPort, hostAndPort, unbracketed, whole]

theorem parseHostWithoutPort_bracketed (ipv6 : Ipv6Syntax)
    (canonical : CanonicalHost host) (after : PortPart rest) :
    parseHostWithoutPort (bracketed host ++ rest) = some host := by
  cases after with
  | none =>
    rw [parseHostWithoutPort, hostAndPort_bracketed ipv6 canonical (.inl ⟨rfl, rfl⟩)]
    simp [canonical.lower]
  | @port port valid =>
    rw [parseHostWithoutPort, hostAndPort_bracketed ipv6 canonical (.inr rfl), Option.bind_some]
    have digits : port.toList.all Char.isDigit = true := List.all_eq_true.mpr valid.digits
    have read : (parseU16 port).isNone = false := by simp [parseU16, valid.bounded]
    dsimp only
    rw [digits, read]
    simp [canonical.lower]

theorem bracketed_solid (ipv6 : Ipv6Syntax) (canonical : CanonicalHost host)
    (after : PortPart rest) : Ascii.Solid (bracketed host ++ rest).toList := by
  have own := canonical.solid ipv6
  have spelled : Ascii.Solid (bracketed host).toList := by
    rw [bracketed]
    split
    · simpa using own
    · exact own
  have behind : Ascii.Solid rest.toList := by
    cases after with
    | none => exact Ascii.solid_nil
    | port valid =>
      rw [String.toList_append, Ascii.solid_append]
      exact ⟨by simp, fun char listed => Ascii.isDigit_solid (valid.digits char listed)⟩
  rw [String.toList_append, Ascii.solid_append]
  exact ⟨spelled, behind⟩

/-- A text read as an authority, as the `Host` field and as both names the host. -/
structure Names (text host : String) : Prop where
  authority : ∀ headers : HeaderMap, headers.getAll "host" = [] →
    hostHeader (some text) headers = .present host
  field : ∀ headers : HeaderMap, headers.getAll "host" = [asciiBytes text] →
    hostHeader none headers = .present host
  both : ∀ headers : HeaderMap, headers.getAll "host" = [asciiBytes text] →
    hostHeader (some text) headers = .present host

theorem Names.of_classified (solid : Ascii.Solid text.toList)
    (classified : classifyHostValue text = (.present host, Text.toAsciiLowercase text)) :
    Names text host where
  authority headers none_ := by
    simp [hostHeader, hostField, hostAuthority, none_, classified]
  field headers one := by
    simp [hostHeader, hostField, hostAuthority, one, toStr?_asciiBytes solid, classified]
  both headers one := by
    simp [hostHeader, hostField, hostAuthority, one, toStr?_asciiBytes solid, classified]

theorem classified_of_hostField (found : hostField headers = (.present host, raw)) :
    ∃ value, classifyHostValue value = (.present host, raw) := by
  rw [hostField] at found
  split at found
  · cases found
  · split at found
    · cases found
    · split at found
      · cases found
      · exact ⟨_, found⟩

/-- A present host was read from one value. -/
theorem classified_of_hostHeader {authority : Option String}
    (found : hostHeader authority headers = .present host) :
    ∃ value raw, classifyHostValue value = (.present host, raw) := by
  rw [hostHeader] at found
  split at found
  case h_5 own raw other otherRaw field _ =>
    obtain ⟨value, read⟩ := classified_of_hostField field
    split at found
    · cases found
      exact ⟨value, raw, read⟩
    · cases found
  case h_6 own raw otherRaw field _ =>
    obtain ⟨value, read⟩ := classified_of_hostField field
    cases found
    exact ⟨value, raw, read⟩
  case h_7 own raw _ named =>
    cases found
    cases authority with
    | none => cases named
    | some value => exact ⟨value, _, named⟩
  all_goals cases found

theorem classifyHostValue_present (found : classifyHostValue value = (.present host, raw)) :
    ∃ text, parseHostWithoutPort text = some host ∧ Text.len host ≤ maxRequestHostBytes := by
  simp only [classifyHostValue] at found
  split at found
  · cases found
  · refine ⟨Text.trim value, ?_⟩
    cases parsed : parseHostWithoutPort (Text.trim value) with
    | none => simp [parsed] at found
    | some name =>
      simp only [parsed, Prod.mk.injEq] at found
      split at found
      · cases found.1
      · case _ fits =>
        cases found.1
        exact ⟨rfl, Nat.not_lt.mp fits⟩

end Canonical

section Guarantee

open RouteMatch

variable {T : Type*} [RouteMatch T] [Externals]

/-- The route taken depends only on which routes there are: it is the matching one with the
longest prefix, a host-bound one before an unbound one. The host it reads is canonical. -/
theorem matchingRoute_canonical (ipv6 : Ipv6Syntax) :
    (∀ (routes : List T) (path : String) (requestHost : Option String),
      (routes.map fun route => (pathPrefix route, host route)).Nodup →
      (∀ permuted : List T, permuted.Perm routes →
        matchingRoute permuted path requestHost = matchingRoute routes path requestHost) ∧
      (∀ route, matchingRoute routes path requestHost = some route ↔
        Wins routes path requestHost route) ∧
      (matchingRoute routes path requestHost = none ↔
        ∀ route ∈ routes, routeMatches route path requestHost = false)) ∧
    (∀ (authority : Option String) (headers : HeaderMap) (host : String),
      hostHeader authority headers = .present host →
      isBareHost host = true ∧ Text.toAsciiLowercase host = host ∧
        Text.len host ≤ maxRequestHostBytes ∧
        ∀ rest, PortPart rest → Names (bracketed host ++ rest) host) := by
  constructor
  · intro routes path requestHost distinct
    exact ⟨fun permuted same => matchingRoute_perm same distinct,
      fun route => matchingRoute_eq_some distinct, matchingRoute_eq_none⟩
  · intro authority headers host found
    obtain ⟨value, raw, classified⟩ := classified_of_hostHeader found
    obtain ⟨text, parsed, bounded⟩ := classifyHostValue_present classified
    have canonical := CanonicalHost.of_parse ipv6 parsed
    refine ⟨canonical.isBareHost ipv6, canonical.lower, bounded, ?_⟩
    intro rest after
    have solid := bracketed_solid ipv6 canonical after
    have reparsed := parseHostWithoutPort_bracketed ipv6 canonical after
    have nonempty : bracketed host ++ rest ≠ "" := by
      intro empty
      rw [empty, parseHostWithoutPort_empty] at reparsed
      cases reparsed
    refine Names.of_classified solid ?_
    rw [classifyHostValue, solid.trim_eq]
    simp [nonempty, reparsed, Nat.not_lt.mpr bounded]

end Guarantee

section Sample

/-- A gateway whose only IPv6 address is the loopback. -/
@[reducible] def loopbackExternals : Externals := { inertExternals with isIpv6 := (· == "::1") }

attribute [local instance] loopbackExternals

structure SampleRoute where
  pathPrefix : Option String
  host : Option String
  deriving DecidableEq

instance : RouteMatch SampleRoute := ⟨SampleRoute.pathPrefix, SampleRoute.host⟩

def sampleRoutes : List SampleRoute :=
  [⟨none, none⟩, ⟨some "/api", none⟩, ⟨some "/api", some "a.test"⟩, ⟨some "/api/v1", none⟩]

theorem loopbackExternals_ipv6 : Ipv6Syntax where
  spelled text address := by
    obtain rfl : text = "::1" := beq_iff_eq.mp address
    simp [Text.isHexDigit]
  colon text address := by
    obtain rfl : text = "::1" := beq_iff_eq.mp address
    decide
  lower text address := by
    obtain rfl : text = "::1" := beq_iff_eq.mp address
    decide

theorem matchingRoute_canonical_sample :
    (sampleRoutes.map fun route => (RouteMatch.pathPrefix route, RouteMatch.host route)).Nodup ∧
      matchingRoute sampleRoutes.reverse "/api/users" (some "a.test") =
        matchingRoute sampleRoutes "/api/users" (some "a.test") ∧
      matchingRoute sampleRoutes "/api/users" (some "a.test") =
        some ⟨some "/api", some "a.test"⟩ ∧
      hostHeader (some "[::1]:8443") ⟨[]⟩ = .present "::1" ∧ isBareHost "::1" = true := by
  have canonical := matchingRoute_canonical (T := SampleRoute) loopbackExternals_ipv6
  have distinct : (sampleRoutes.map fun route =>
      (RouteMatch.pathPrefix route, RouteMatch.host route)).Nodup := by decide
  obtain ⟨stable, -, -⟩ := canonical.1 sampleRoutes "/api/users" (some "a.test") distinct
  have named : hostHeader (some "[::1]:8443") ⟨[]⟩ = .present "::1" := by decide
  exact ⟨distinct, stable _ (reverse_perm _), by decide, named,
    (canonical.2 _ _ _ named).1⟩

end Sample

end GreenGateway.Proxy
