import Notary.Lib.Ascii
import Notary.Lib.Result

/-! The text form of a notary endpoint, and what of it is read back. -/

namespace Notary.Core
open Ascii Result

inductive NotaryTransport
  | tcp
  | tls
  deriving DecidableEq

def NotaryTransport.scheme : NotaryTransport → String
  | .tcp => "tcp"
  | .tls => "tls"

structure NotaryEndpoint where
  host : String
  port : UInt16
  transport : NotaryTransport
  deriving DecidableEq

namespace NotaryEndpoint

def validate (e : NotaryEndpoint) : Except String Unit :=
  if e.host = "" ∨ e.host.toList.any Text.isWhitespace ∨ e.port = 0 then
    .error "notary endpoint is invalid"
  else .ok ()

def new (host : String) (port : UInt16) (transport : NotaryTransport) :
    Except String NotaryEndpoint := do
  validate ⟨host, port, transport⟩
  .ok ⟨host, port, transport⟩

/-- The `Display` of an endpoint. -/
def text (e : NotaryEndpoint) : String :=
  if ':' ∈ e.host.toList then
    e.transport.scheme ++ "://[" ++ e.host ++ "]:" ++ Nat.repr e.port.toNat
  else e.transport.scheme ++ "://" ++ e.host ++ ":" ++ Nat.repr e.port.toNat

end NotaryEndpoint

/-! The `url` crate. -/

inductive Host
  | domain (name : String)
  | ipv4 (address : String)
  | ipv6 (address : String)
  deriving DecidableEq

/-- The `host_str` of a URL with the host. -/
def Host.text : Host → String
  | .domain text => text
  | .ipv4 text => text
  | .ipv6 address => "[" ++ address ++ "]"

def Host.isIpv6 : Host → Bool
  | .ipv6 _ => true
  | _ => false

structure Url where
  scheme : String
  username : String
  password : Option String
  host : Option Host
  port : Option UInt16
  path : String
  query : Option String
  fragment : Option String
  deriving DecidableEq

/-- The URL of a scheme, a host and a port alone. -/
def Url.bare (scheme : String) (host : Host) (port : UInt16) : Url :=
  ⟨scheme, "", none, some host, some port, "", none, none⟩

/-- What the crate documents of its parser. Only IPv6 hosts have colons, and they stand in one
pair of brackets. The text of a host is read as that host, and the schemes have no default port. -/
structure Urls where
  parse : String → Option Url
  colon : ∀ value url host, parse value = some url → url.host = some host →
    (':' ∈ host.text.toList ↔ host.isIpv6)
  reparse : ∀ value url host port (transport : NotaryTransport), parse value = some url →
    url.host = some host → url.port = some port → url.scheme = transport.scheme →
    parse (transport.scheme ++ "://" ++ host.text ++ ":" ++ Nat.repr port.toNat) =
        some (.bare transport.scheme host port) ∧
      (host.isIpv6 →
        parse (transport.scheme ++ "://[" ++ host.text ++ "]:" ++ Nat.repr port.toNat) = none)

variable (urls : Urls)

def transportOf : String → Except String NotaryTransport
  | "tcp" => .ok .tcp
  | "tls" => .ok .tls
  | scheme => .error ("notary endpoint must use tcp:// or tls://, not " ++ scheme ++ "://")

def NotaryEndpoint.fromStr (value : String) : Except String NotaryEndpoint :=
  if ¬"://".toList <:+: value.toList then
    .error "notary endpoint must explicitly use tcp:// or tls://"
  else match urls.parse value with
    | none => .error "invalid notary endpoint"
    | some url => do
      let transport ← transportOf url.scheme
      if url.username ≠ "" ∨ url.password.isSome ∨ url.path ∉ ["", "/"] ∨ url.query.isSome ∨
          url.fragment.isSome then
        .error "notary endpoint must contain only a scheme, host, and port"
      else match url.host, url.port with
        | none, _ => .error "notary endpoint has no host"
        | _, none => .error "notary endpoint has no port"
        | some host, some port => new host.text port transport

theorem transportOf_ok :
    transportOf scheme = .ok transport ↔ scheme = transport.scheme := by
  unfold transportOf
  split
  · cases transport <;> simp [NotaryTransport.scheme]
  · cases transport <;> simp [NotaryTransport.scheme]
  · cases transport <;> simp_all [NotaryTransport.scheme]

namespace NotaryEndpoint

variable {urls} {e : NotaryEndpoint} {value : String}

/-- An endpoint is read from a URL that has its parts. -/
theorem fromStr_ok (h : fromStr urls value = .ok e) :
    ∃ url host, urls.parse value = some url ∧ url.host = some host ∧ url.port = some e.port ∧
      url.scheme = e.transport.scheme ∧ e.host = host.text ∧ e.validate = .ok () := by
  unfold fromStr at h
  split_ifs at h
  split at h
  · cases h
  · rename_i url hp
    obtain ⟨_, ht, h⟩ := bind_ok.mp h
    split_ifs at h
    split at h
    · cases h
    · cases h
    · rename_i host _ hh hpo
      obtain ⟨_, hv, h⟩ := bind_ok.mp h
      obtain rfl := Except.ok.inj h
      exact ⟨url, host, hp, hh, hpo, transportOf_ok.mp ht, rfl, hv⟩

theorem fromStr_bare {host : Host} (hc : "://".toList <:+: value.toList)
    (hp : urls.parse value = some (.bare e.transport.scheme host e.port)) (hh : e.host = host.text)
    (hv : e.validate = .ok ()) : fromStr urls value = .ok e := by
  obtain ⟨_, _, _⟩ := e
  subst hh
  simp only [fromStr, hc, hp, Url.bare, transportOf_ok.mpr rfl, ok_bind]
  exact bind_ok.mpr ⟨(), hv, rfl⟩

/-- An endpoint is read back from its text if and only if its host is no IPv6 address. -/
theorem endpoint_reparses (urls : Urls) (value : String) (e : NotaryEndpoint)
    (hparsed : fromStr urls value = .ok e) : fromStr urls e.text = .ok e ↔
      ((urls.parse value).bind Url.host).any Host.isIpv6 = false := by
  obtain ⟨url, host, hurl, hhost, hport, hscheme, htext, hvalid⟩ := fromStr_ok hparsed
  have hcolon := urls.colon value url host hurl hhost
  obtain ⟨hreparse, hbrackets⟩ :=
    urls.reparse value url host e.port e.transport hurl hhost hport hscheme
  rw [← htext] at hcolon hreparse hbrackets
  rw [hurl, Option.bind_some, hhost, Option.any_some, text]
  cases hipv6 : host.isIpv6 with
  | true =>
    rw [if_pos (hcolon.mpr hipv6)]
    refine iff_of_false (fun hagain => ?_) nofun
    obtain ⟨_, _, hparse, -⟩ := fromStr_ok hagain
    rw [hbrackets hipv6] at hparse
    cases hparse
  | false =>
    rw [if_neg fun hmem => absurd (hcolon.mp hmem) (by rw [hipv6]; nofun)]
    refine iff_of_true (fromStr_bare ⟨e.transport.scheme.toList, e.host.toList ++ ":".toList ++
      (Nat.repr e.port.toNat).toList, ?_⟩ hreparse htext hvalid) rfl
    simp only [String.toList_append, List.append_assoc]

end NotaryEndpoint

/-- A crate that reads two texts, of a name and of an IPv6 address. -/
def sampleUrls : Urls where
  parse value :=
    if value = "tls://notary.example:7047" then some (.bare "tls" (.domain "notary.example") 7047)
    else if value = "tcp://[::1]:7047" then some (.bare "tcp" (.ipv6 "::1") 7047)
    else none
  colon value url host hp hh := by
    split_ifs at hp
    · cases hp
      cases hh
      decide
    · cases hp
      cases hh
      decide
  reparse value url host port transport hp hh hpo hs := by
    split_ifs at hp
    · cases hp
      cases hh
      cases hpo
      obtain rfl : transport = .tls := by
        cases transport <;> simp_all [NotaryTransport.scheme, Url.bare]
      decide
    · cases hp
      cases hh
      cases hpo
      obtain rfl : transport = .tcp := by
        cases transport <;> simp_all [NotaryTransport.scheme, Url.bare]
      decide

namespace NotaryEndpoint

theorem endpoint_reparses_name :
    fromStr sampleUrls (text ⟨"notary.example", 7047, .tls⟩) = .ok ⟨"notary.example", 7047, .tls⟩ :=
  (endpoint_reparses sampleUrls "tls://notary.example:7047" _ rfl).mpr rfl

/-- The brackets of an IPv6 host are kept when it is read and added again when it is shown. -/
theorem ipv6_endpoint_unreadable :
    fromStr sampleUrls "tcp://[::1]:7047" = .ok ⟨"[::1]", 7047, .tcp⟩ ∧
      text ⟨"[::1]", 7047, .tcp⟩ = "tcp://[[::1]]:7047" ∧
      fromStr sampleUrls "tcp://[[::1]]:7047" = .error "invalid notary endpoint" := by
  decide

end NotaryEndpoint

end Notary.Core
