import DeviceClient.Endpoint.Uri
import DeviceClient.Proofs.Address.Ipv6
import DeviceClient.Proofs.FlagSet

namespace DeviceClient

/-- The flag of the family of an IP address. -/
def DeviceAddress.family? : DeviceAddress → Option TransportFlag
  | .ipv4 .. => some .ipv4
  | .ipv6 .. => some .ipv6
  | .bluetooth _ => none

namespace Scheme

theorem ofChars?_chars (s : Scheme) : ofChars? s.chars = some s := by
  obtain ⟨secured, stream⟩ := s
  cases secured <;> cases stream <;> decide

theorem colon_not_mem_chars (s : Scheme) : ':' ∉ s.chars := by
  obtain ⟨secured, stream⟩ := s
  cases secured <;> cases stream <;> decide

/-- With the flag of an address family there are those that the scheme tells, and no more. -/
theorem contains_flags (s : Scheme) {family : TransportFlag} (h : family ∈ [.ipv4, .ipv6])
    (f : TransportFlag) :
    (s.flags.union (.singleton family)).contains f = true ↔
      family = f ∨ f = .secured ∧ s.secured = true ∨ f = .tcp ∧ s.stream = true := by
  obtain ⟨secured, stream⟩ := s
  cases f <;> revert secured stream family <;> decide

/-- The flag of an address family leaves the scheme as it is. -/
theorem eq_of_flags (s : Scheme) {family : TransportFlag} (h : family ∈ [.ipv4, .ipv6]) :
    ⟨(s.flags.union (.singleton family)).contains .secured,
      (s.flags.union (.singleton family)).contains .tcp⟩ = s := by
  obtain ⟨secured, stream⟩ := s
  revert secured stream family
  decide

end Scheme

namespace Endpoint

open Numeral

theorem readPort_decimal (default port : UInt16) :
    readPort default (':' :: decimal port.toNat) = .ok port := by
  rw [readPort, toUInt16?_decimal]

theorem readPlain_chars (scheme : Scheme) (host : Ipv4Address) (port : UInt16) :
    readPlain scheme (host.chars ++ ':' :: decimal port.toNat) =
      .ok (ipv4 host port scheme.flags) := by
  have hcolon : ':' ∉ host.chars := host.not_mem_chars (by decide) (by decide)
  have hport : Split.StartsWith ':' (':' :: decimal port.toNat) := .inr ⟨_, rfl⟩
  simp only [readPlain, Split.takeWhile_append hcolon hport, Split.dropWhile_append hcolon hport,
    readPort_decimal, Ipv4Address.ofChars?_chars]
  rfl

theorem readBracketed_chars (scheme : Scheme) (host : Ipv6Address) (port : UInt16) :
    readBracketed scheme (host.chars ++ "]:".toList ++ decimal port.toNat) =
      .ok (ipv6 host port scheme.flags) := by
  have hbracket : ']' ∉ host.chars := host.not_mem_chars (by decide) (by decide) (by decide)
  have hsplit : Split.atFirst [']'] (host.chars ++ "]:".toList ++ decimal port.toNat) =
      some (host.chars, ':' :: decimal port.toNat) := by
    rw [List.append_assoc]
    exact Split.atFirst_append hbracket
  simp only [readBracketed, hsplit, Ipv6Address.ofChars?_chars, readPort_decimal]
  rfl

/-- The reader of the part between the scheme and the path. -/
def readAuthority (scheme : Scheme) : List Char → Except EndpointError Endpoint
  | '[' :: inner => readBracketed scheme inner
  | authority => readPlain scheme authority

theorem readAuthority_of_ne {scheme : Scheme} {authority : List Char}
    (h : ∀ inner, authority ≠ '[' :: inner) :
    readAuthority scheme authority = readPlain scheme authority := by
  rw [readAuthority]
  exact h

/-- The path that is read, where there is one. -/
def pathRead (path : List Char) : Option (List Char) := if path.isEmpty then none else some path

theorem readWithPath_eq {cs schemeChars rest : List Char} {scheme : Scheme}
    (hsplit : Split.atFirst "://".toList cs = some (schemeChars, rest))
    (hscheme : Scheme.ofChars? schemeChars = some scheme) :
    readWithPath cs = (do
      let endpoint ← readAuthority scheme (rest.takeWhile (· ≠ '/'))
      return (endpoint, pathRead (rest.dropWhile (· ≠ '/')))) := by
  simp only [readWithPath, hsplit, hscheme]
  split
  · rename_i inner hbracket
    rw [hbracket, readAuthority]
    rfl
  · rename_i hplain
    rw [readAuthority_of_ne hplain]
    rfl

theorem readWithPath_append (scheme : Scheme) {authority path : List Char}
    (hauthority : '/' ∉ authority) (hpath : Split.StartsWith '/' path) :
    readWithPath (scheme.chars ++ ("://".toList ++ (authority ++ path))) = (do
      let endpoint ← readAuthority scheme authority
      return (endpoint, pathRead path)) := by
  have hsplit : Split.atFirst "://".toList (scheme.chars ++ ("://".toList ++ (authority ++ path))) =
      some (scheme.chars, authority ++ path) :=
    Split.atFirst_append scheme.colon_not_mem_chars
  rw [readWithPath_eq hsplit scheme.ofChars?_chars, Split.takeWhile_append hauthority hpath,
    Split.dropWhile_append hauthority hpath]

theorem slash_not_mem_decimal (port : UInt16) : '/' ∉ decimal port.toNat :=
  not_mem_decimal port.toNat (by decide)

theorem readWithPath_ipv4 {e : Endpoint} {host : Ipv4Address} {port : UInt16}
    (he : e.address = .ipv4 host port) {path : List Char} (hpath : Split.StartsWith '/' path) :
    readWithPath (e.chars ++ path) = .ok (ipv4 host port e.scheme.flags, pathRead path) := by
  have hchars : e.chars ++ path = e.scheme.chars ++
      ("://".toList ++ ((host.chars ++ ':' :: decimal port.toNat) ++ path)) := by
    simp [chars, he]
  have hslash : '/' ∉ host.chars ++ ':' :: decimal port.toNat := by
    simp [host.not_mem_chars (c := '/') (by decide) (by decide), slash_not_mem_decimal]
  have hbracket : '[' ∉ host.chars ++ ':' :: decimal port.toNat := by
    simp [host.not_mem_chars (c := '[') (by decide) (by decide),
      not_mem_decimal port.toNat (c := '[') (by decide)]
  have hplain (inner : List Char) : host.chars ++ ':' :: decimal port.toNat ≠ '[' :: inner :=
    fun heq => hbracket (heq ▸ List.mem_cons_self)
  rw [hchars, readWithPath_append e.scheme hslash hpath, readAuthority_of_ne hplain,
    readPlain_chars]
  rfl

theorem readWithPath_ipv6 {e : Endpoint} {host : Ipv6Address} {port : UInt16} {scope : UInt8}
    (he : e.address = .ipv6 host port scope) {path : List Char}
    (hpath : Split.StartsWith '/' path) :
    readWithPath (e.chars ++ path) = .ok (ipv6 host port e.scheme.flags, pathRead path) := by
  have hchars : e.chars ++ path = e.scheme.chars ++ ("://".toList ++
      (('[' :: (host.chars ++ "]:".toList ++ decimal port.toNat)) ++ path)) := by
    simp [chars, he]
  have hslash : '/' ∉ '[' :: (host.chars ++ "]:".toList ++ decimal port.toNat) := by
    simp [host.not_mem_chars (c := '/') (by decide) (by decide) (by decide), slash_not_mem_decimal]
  rw [hchars, readWithPath_append e.scheme hslash hpath, readAuthority, readBracketed_chars]
  rfl

/-- The endpoints that their text form tells in full: addresses without a scope, with the flag of their
family, perhaps those for secured sessions and for streams, and nothing else. -/
inductive Plain : Endpoint → Prop
  | ipv4 (host : Ipv4Address) (port : UInt16) (s : Scheme) : Plain (.ipv4 host port s.flags)
  | ipv6 (host : Ipv6Address) (port : UInt16) (s : Scheme) : Plain (.ipv6 host port s.flags)

theorem scheme_ipv4 (host : Ipv4Address) (port : UInt16) (s : Scheme) :
    (Endpoint.ipv4 host port s.flags).scheme = s :=
  s.eq_of_flags (by decide)

theorem scheme_ipv6 (host : Ipv6Address) (port : UInt16) (s : Scheme) :
    (Endpoint.ipv6 host port s.flags).scheme = s :=
  s.eq_of_flags (by decide)

theorem Plain.readWithPath {e : Endpoint} (h : e.Plain) {path : List Char}
    (hpath : Split.StartsWith '/' path) :
    Endpoint.readWithPath (e.chars ++ path) = .ok (e, pathRead path) := by
  cases h with
  | ipv4 host port s => rw [readWithPath_ipv4 rfl hpath, scheme_ipv4]
  | ipv6 host port s => rw [readWithPath_ipv6 rfl hpath, scheme_ipv6]

theorem Plain.parse_text {e : Endpoint} (h : e.Plain) : parse e.text = .ok e := by
  have hnone : Split.StartsWith '/' [] := .inl rfl
  have hread := h.readWithPath hnone
  rw [List.append_nil] at hread
  rw [parse, text, String.toList_ofList, hread]
  rfl

theorem plain_of_readBracketed {scheme : Scheme} {cs : List Char} {e : Endpoint}
    (h : readBracketed scheme cs = .ok e) : e.Plain := by
  unfold readBracketed at h
  split at h
  · cases h
  · rename_i after _
    split at h
    · cases h
    · rename_i host _
      cases hport : readPort scheme.defaultPort after with
      | error fault =>
        rw [hport] at h
        cases h
      | ok port =>
        rw [hport] at h
        cases h
        exact .ipv6 host port scheme

theorem plain_of_readPlain {scheme : Scheme} {cs : List Char} {e : Endpoint}
    (h : readPlain scheme cs = .ok e) : e.Plain := by
  cases hport : readPort scheme.defaultPort (cs.dropWhile (· ≠ ':')) with
  | error fault =>
    rw [readPlain, hport] at h
    cases h
  | ok port =>
    cases hhost : Ipv4Address.ofChars? (cs.takeWhile (· ≠ ':')) with
    | none =>
      rw [readPlain, hport, hhost] at h
      cases h
    | some host =>
      rw [readPlain, hport, hhost] at h
      cases h
      exact .ipv4 host port scheme

theorem plain_of_readAuthority {scheme : Scheme} {cs : List Char} {e : Endpoint}
    (h : readAuthority scheme cs = .ok e) : e.Plain := by
  unfold readAuthority at h
  split at h
  · exact plain_of_readBracketed h
  · exact plain_of_readPlain h

/-- Whatever the text is, the endpoint that is read of it is a plain one. -/
theorem plain_of_readWithPath {cs : List Char} {e : Endpoint} {path : Option (List Char)}
    (h : readWithPath cs = .ok (e, path)) : e.Plain := by
  cases hsplit : Split.atFirst "://".toList cs with
  | none =>
    rw [readWithPath, hsplit] at h
    cases h
  | some parts =>
    obtain ⟨schemeChars, rest⟩ := parts
    cases hscheme : Scheme.ofChars? schemeChars with
    | none =>
      simp only [readWithPath, hsplit, hscheme] at h
      cases h
    | some scheme =>
      rw [readWithPath_eq hsplit hscheme] at h
      cases hread : readAuthority scheme (rest.takeWhile (· ≠ '/')) with
      | error fault =>
        rw [hread] at h
        cases h
      | ok endpoint =>
        rw [hread] at h
        cases h
        exact plain_of_readAuthority hread

/-- The text form tells the family, the host and the port, and whether sessions are secured and run
over a stream. Everything else has its default. -/
structure Tells (e e' : Endpoint) : Prop where
  address : e'.address = (e.withScope 0).address
  flags : ∀ f, e'.flags.contains f = true ↔
    e.address.family? = some f ∨ (f = .secured ∨ f = .tcp) ∧ e.flags.contains f = true
  named : e'.flags.Named
  device : e'.device = 0
  interfaceIndex : e'.interfaceIndex = 0
  version : e'.version = .ocf100

theorem contains_scheme_flags (e : Endpoint) {family : TransportFlag} (h : family ∈ [.ipv4, .ipv6])
    (f : TransportFlag) :
    (e.scheme.flags.union (.singleton family)).contains f = true ↔
      some family = some f ∨ (f = .secured ∨ f = .tcp) ∧ e.flags.contains f = true := by
  rw [e.scheme.contains_flags h, Option.some.injEq, or_and_right]
  refine or_congr_right (or_congr (and_congr_right ?_) (and_congr_right ?_))
  · rintro rfl
    rfl
  · rintro rfl
    rfl

theorem tells_ipv4 {e : Endpoint} {host : Ipv4Address} {port : UInt16}
    (he : e.address = .ipv4 host port) : e.Tells (ipv4 host port e.scheme.flags) where
  address := by simp [withScope, he, ipv4]
  flags f := by
    rw [he]
    exact e.contains_scheme_flags (show TransportFlag.ipv4 ∈ _ by decide) f
  named := (FlagSet.named_ofList _).union (FlagSet.named_singleton _)
  device := rfl
  interfaceIndex := rfl
  version := rfl

theorem tells_ipv6 {e : Endpoint} {host : Ipv6Address} {port : UInt16} {scope : UInt8}
    (he : e.address = .ipv6 host port scope) : e.Tells (ipv6 host port e.scheme.flags) where
  address := by simp [withScope, he, ipv6]
  flags f := by
    rw [he]
    exact e.contains_scheme_flags (show TransportFlag.ipv6 ∈ _ by decide) f
  named := (FlagSet.named_ofList _).union (FlagSet.named_singleton _)
  device := rfl
  interfaceIndex := rfl
  version := rfl

theorem map_pathRead (path : String) :
    (pathRead path.toList).map String.ofList = if path = "" then none else some path := by
  by_cases hpath : path = ""
  · rw [hpath]
    rfl
  · have hne : path.toList ≠ [] := fun h => hpath (String.toList_eq_nil_iff.mp h)
    rw [pathRead, if_neg (by simpa using hne), if_neg hpath, Option.map_some, String.ofList_toList]

/-- An endpoint with an IP address is read back from its text, up to what the text does not tell, and
so is the path behind it. An endpoint that has been read of some text is read back as it is. -/
theorem parseWithPath_text :
    (∀ (e : Endpoint) (path : String), e.address.family? ≠ none →
      Split.StartsWith '/' path.toList →
        ∃ e', parseWithPath (e.text ++ path) = .ok (e', if path = "" then none else some path) ∧
          e.Tells e') ∧
    ∀ text e path, parseWithPath text = .ok (e, path) → parse e.text = .ok e := by
  refine ⟨fun e path hfamily hpath => ?_, fun text e path h => ?_⟩
  · have htext : (e.text ++ path).toList = e.chars ++ path.toList := by
      rw [text, String.toList_append, String.toList_ofList]
    have hread : ∃ e', readWithPath (e.chars ++ path.toList) = .ok (e', pathRead path.toList) ∧
        e.Tells e' := by
      cases haddress : e.address with
      | ipv4 host port => exact ⟨_, readWithPath_ipv4 haddress hpath, tells_ipv4 haddress⟩
      | ipv6 host port scope => exact ⟨_, readWithPath_ipv6 haddress hpath, tells_ipv6 haddress⟩
      | bluetooth address => exact absurd (by rw [haddress]; rfl) hfamily
    obtain ⟨e', hread, htells⟩ := hread
    refine ⟨e', ?_, htells⟩
    rw [parseWithPath, htext, hread]
    change Except.ok (e', (pathRead path.toList).map String.ofList) = _
    rw [map_pathRead]
  · cases hread : readWithPath text.toList with
    | error fault =>
      rw [parseWithPath, hread] at h
      cases h
    | ok found =>
      rw [parseWithPath, hread] at h
      cases h
      exact (plain_of_readWithPath hread).parse_text

/-- A gateway on its own link, of which more is known than its text form tells. -/
def gateway : Endpoint where
  flags := .ofList [.discovery, .secured, .ipv4]
  address := .ipv6 ⟨[0xfe80, 0, 0, 0, 0, 0, 0, 1], rfl⟩ 5684 3
  interfaceIndex := 2
  version := .oic110

theorem parseWithPath_text_gateway :
    gateway.address.family? ≠ none ∧
    (∃ e', parseWithPath (gateway.text ++ "/a://[b]:1") = .ok (e', some "/a://[b]:1") ∧
      gateway.Tells e') ∧
    ∃ e, parseWithPath "coaps+tcp://[::1.2.3.4]/c" = .ok (e, some "/c") ∧ parse e.text = .ok e := by
  have hfamily : gateway.address.family? ≠ none := by decide
  have hpath : Split.StartsWith '/' "/a://[b]:1".toList := .inr ⟨"a://[b]:1".toList, rfl⟩
  have hread : parseWithPath "coaps+tcp://[::1.2.3.4]/c" =
      .ok (.ipv6 ⟨[0, 0, 0, 0, 0, 0, 0x0102, 0x0304], rfl⟩ 5684 (Scheme.flags ⟨true, true⟩), some "/c") := by
    rfl
  exact ⟨hfamily, parseWithPath_text.1 gateway "/a://[b]:1" hfamily hpath, _, hread,
    parseWithPath_text.2 _ _ _ hread⟩

end Endpoint

end DeviceClient
