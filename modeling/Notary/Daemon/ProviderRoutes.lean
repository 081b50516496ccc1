import Notary.Lib.Ascii
import Notary.Lib.Result

/-! The route of a proxied request to its provider. -/

namespace Notary.Daemon.Routes
open List Option Result
open Utf8 (Bytes bytes chars)

inductive Provider
  | openai | openaiCodex | anthropic | deepseek | openrouter
  deriving DecidableEq

structure ProviderConfig where
  enabled : Bool
  routePrefix : String
  deriving DecidableEq

/-- The configuration of each provider. -/
abbrev NotarydConfig := Provider → ProviderConfig

namespace Provider

def all : List Provider := [openai, openaiCodex, anthropic, deepseek, openrouter]

def upstreamPathPrefix : Provider → Bytes
  | openaiCodex => bytes "/backend-api/codex"
  | _ => []

/-- The name of its section in the configuration. -/
def sectionName : Provider → String
  | openai => "openai"
  | openaiCodex => "codex"
  | anthropic => "anthropic"
  | deepseek => "deepseek"
  | openrouter => "openrouter"

end Provider

/-! The configuration. -/

def routePrefixesOverlap (left right : Bytes) : Bool :=
  left = right || (Search.stripStart right left).any (·.head? = some 0x2F) ||
    (Search.stripStart left right).any (·.head? = some 0x2F)

def isPrefixChar (c : Char) : Bool := c.isAlphanum || c = '-' || c = '_' || c = '/'

/-- One turn of the loop over the providers; the prefixes are those of the enabled ones so far. -/
def validateRoute (config : NotarydConfig) (prefixes : List (String × String)) (p : Provider) :
    Except String (List (String × String)) :=
  let route := (config p).routePrefix
  let field := "providers." ++ p.sectionName ++ ".route_prefix"
  if (chars route).head? ≠ some '/' then .error (field ++ " must start with /")
  else if (bytes route).length ≤ 1 then .error (field ++ " must not be /")
  else if (chars route).getLast? = some '/' then .error (field ++ " must not end with /")
  else if (chars route).all isPrefixChar = false then
    .error (field ++ " contains an invalid character")
  else if (config p).enabled = false then .ok prefixes
  else
    match prefixes.find? fun other => routePrefixesOverlap (bytes route) (bytes other.2) with
    | some other => .error ("enabled provider route prefixes overlap: " ++ field ++ " (" ++ route ++
        ") and providers." ++ other.1 ++ ".route_prefix (" ++ other.2 ++ ")")
    | none => .ok (prefixes ++ [(p.sectionName, route)])

def validateRoutes (config : NotarydConfig) : Except String Unit := do
  let _ ← Provider.all.foldlM (validateRoute config) []

/-! The targets of the http library. -/

/-- The bytes that may stand in a path and in a query; neither has the other's separator. -/
structure UriSyntax where
  pathByte : UInt8 → Bool
  queryByte : UInt8 → Bool
  slash : pathByte 0x2F = true
  codex : ∀ b ∈ bytes "/backend-api/codex", pathByte b = true
  question : pathByte 0x3F = false

def maxUriBytes : ℕ := 65534

def pathAndQuery (path : Bytes) : Option Bytes → Bytes
  | some query => path ++ [0x3F] ++ query
  | none => path

/-- The parts of a URI that the proxy reads. -/
structure Uri (u : UriSyntax) where
  path : Bytes
  query : Option Bytes
  pathOk : ∀ b ∈ path, u.pathByte b = true
  queryOk : ∀ q ∈ query, ∀ b ∈ q, u.queryByte b = true
  short : (pathAndQuery path query).length ≤ maxUriBytes

/-- A target that is given as a path and perhaps a query. -/
def UriSyntax.parse (u : UriSyntax) (text : Bytes) : Option (Bytes × Option Bytes) :=
  let (path, query) := match Search.splitOnce [0x3F] text with
    | some (path, query) => (path, some query)
    | none => (text, none)
  if text.length ≤ maxUriBytes ∧ path.head? = some 0x2F ∧ path.all u.pathByte ∧
      query.all (·.all u.queryByte) then some (path, query) else none

/-- The rest of a path after a prefix that ends at the end of a segment. -/
def atSegment (remainder : Bytes) : Bool := remainder = [] || remainder.head? = some 0x2F

/-- Codex is served at two paths only. -/
def serves (p : Provider) (remainder : Bytes) : Bool :=
  p ≠ .openaiCodex || remainder ∈ [bytes "/responses", bytes "/responses/compact"]

def upstreamPath (p : Provider) (remainder : Bytes) : Bytes :=
  p.upstreamPathPrefix ++ if remainder = [] then [0x2F] else remainder

section

variable (u : UriSyntax) (config : NotarydConfig) (uri : Uri u)

/-- The upstream target; one that does not parse is a panic. -/
def rebuild (p : Provider) (remainder : Bytes) : Except String (Provider × Bytes × Option Bytes) :=
  match u.parse (pathAndQuery (upstreamPath p remainder) uri.query) with
  | some target => .ok (p, target)
  | none => .error "a path and query taken from a parsed URI remain valid"

/-- The turn of the loop for one provider; `none` goes on to the next. -/
def routeTo (p : Provider) : Option (Except String (Provider × Bytes × Option Bytes)) :=
  if (config p).enabled = false then none
  else (Search.stripStart (bytes (config p).routePrefix) uri.path).bind fun remainder =>
    if atSegment remainder = false then none
    else if serves p remainder = false then none
    else some (rebuild u uri p remainder)

def providerRouteIn (order : List Provider) :
    Except String (Option (Provider × Bytes × Option Bytes)) :=
  match order.findSome? (routeTo u config uri) with
  | none => .ok none
  | some r => r.map some

def providerRoute : Except String (Option (Provider × Bytes × Option Bytes)) :=
  providerRouteIn u config uri Provider.all

end

/-! At most one provider matches. -/

section

variable {config : NotarydConfig} {path : Bytes} {p q : Provider}

/-- The prefix of an enabled provider begins the path and ends at the end of a segment. -/
def Matches (config : NotarydConfig) (path : Bytes) (p : Provider) : Prop :=
  (config p).enabled = true ∧ ∃ remainder,
    path = bytes (config p).routePrefix ++ remainder ∧ atSegment remainder = true

theorem stripStart_append (a b : Bytes) : Search.stripStart a (a ++ b) = some b := by
  simp [Search.stripStart]

theorem routePrefixesOverlap_comm (a b : Bytes) :
    routePrefixesOverlap a b = routePrefixesOverlap b a := by
  simp only [routePrefixesOverlap, Bool.or_assoc, eq_comm (a := a)]
  rw [Bool.or_comm (Option.any _ _)]

/-- Two prefixes that end at segments of one path overlap. -/
theorem overlap_of_common (h : a ++ r = b ++ s) (hr : atSegment r = true)
    (hs : atSegment s = true) :
    routePrefixesOverlap a b = true := by
  wlog hl : ∃ c, b = a ++ c ∧ r = c ++ s generalizing a b r s
  · rw [routePrefixesOverlap_comm]
    exact this h.symm hs hr ((append_eq_append_iff.mp h).resolve_left hl)
  obtain ⟨c, rfl, rfl⟩ := hl
  cases c with
  | nil => simp [routePrefixesOverlap]
  | cons x c =>
    have hx : (x :: c).head? = some 0x2F := by simpa [atSegment] using hr
    rw [routePrefixesOverlap, stripStart_append, any_some, hx]
    simp

def Apart (config : NotarydConfig) (p q : Provider) : Prop :=
  routePrefixesOverlap (bytes (config p).routePrefix)
    (bytes (config q).routePrefix) = false

instance : Std.Symm (Apart config) :=
  ⟨fun _ _ h => (routePrefixesOverlap_comm _ _).trans h⟩

/-- The prefixes that an accepted configuration enables do not overlap. -/
theorem validateRoute_pairwise {ps : List Provider} {acc acc' : List (String × String)}
    (h : ps.foldlM (validateRoute config) acc = .ok acc') :
    (ps.filter fun p => (config p).enabled).Pairwise (Apart config) ∧
    ∀ p ∈ ps.filter fun p => (config p).enabled, ∀ other ∈ acc,
      routePrefixesOverlap (bytes (config p).routePrefix) (bytes other.2) = false := by
  induction ps generalizing acc with
  | nil => simp
  | cons p _ ih =>
    obtain ⟨_, hn, h⟩ := bind_ok.mp h
    obtain ⟨hp, ha⟩ := ih h
    simp only [validateRoute, guard_ok] at hn
    obtain ⟨-, -, -, -, hn⟩ := hn
    by_cases he : (config p).enabled = false
    · rw [if_pos he] at hn
      obtain rfl := Except.ok.inj hn
      simpa [he] using ⟨hp, by simpa using ha⟩
    · rw [if_neg he] at hn
      split at hn
      · cases hn
      · rename_i hf
        obtain rfl := Except.ok.inj hn
        rw [find?_eq_none] at hf
        rw [filter_cons_of_pos (by simpa using he), pairwise_cons]
        simp only [mem_append, mem_singleton] at ha
        refine ⟨⟨fun q hq => ?_, hp⟩, forall_mem_cons.mpr ⟨fun other ho => ?_,
          fun q hq other ho => ha q hq other (.inl ho)⟩⟩
        · exact (routePrefixesOverlap_comm _ _).trans (ha q hq _ (.inr rfl))
        · simpa using hf other ho

theorem matches_unique (hv : validateRoutes config = .ok ()) (hp : Matches config path p)
    (hq : Matches config path q) : p = q := by
  obtain ⟨_, hf, -⟩ := bind_ok.mp hv
  by_contra hne
  have hm : ∀ r, Matches config path r →
      r ∈ Provider.all.filter fun r => (config r).enabled := fun r hr =>
    mem_filter.mpr ⟨by cases r <;> decide, hr.1⟩
  have hn := (validateRoute_pairwise hf).1.forall (hm p hp) (hm q hq) hne
  obtain ⟨-, _, rfl, hr⟩ := hp
  obtain ⟨-, _, hs, hs'⟩ := hq
  exact absurd ((overlap_of_common hs hr hs').symm.trans hn) nofun

end

/-! The rebuilt target. -/

section

variable {u : UriSyntax} {config : NotarydConfig} {uri : Uri u} {p : Provider}

theorem parse_pathAndQuery (hs : path.head? = some 0x2F) (hp : ∀ b ∈ path, u.pathByte b = true)
    (hq : ∀ q ∈ query, ∀ b ∈ q, u.queryByte b = true) :
    u.parse (pathAndQuery path query) =
      if (pathAndQuery path query).length ≤ maxUriBytes then some (path, query) else none := by
  have hn : (0x3F : UInt8) ∉ path := fun h => absurd ((hp _ h).symm.trans u.question) nofun
  have ha : path.all u.pathByte = true := List.all_eq_true.mpr hp
  cases query with
  | none =>
    have hsp : Search.splitOnce [0x3F] path = none := by
      rw [Search.splitOnce, Search.position_eq_none (mem_singleton_self _) hn, map_none]
    rw [UriSyntax.parse, pathAndQuery, hsp]
    simp only [hs, ha, all_none, and_true]
  | some query =>
    have hsp : Search.splitOnce [0x3F] (path ++ [0x3F] ++ query) = some (path, query) := by
      rw [Search.splitOnce, Search.position_append hn, Option.map_some]
      simp
    have hqa : query.all u.queryByte = true := List.all_eq_true.mpr (hq query rfl)
    rw [UriSyntax.parse, pathAndQuery, hsp]
    simp only [hs, ha, all_some, hqa, and_true]

/-- The target parses unless it has become too long. -/
theorem rebuild_eq (hr : atSegment remainder = true) (hp : ∀ b ∈ remainder, u.pathByte b = true) :
    rebuild u uri p remainder =
      if (pathAndQuery (upstreamPath p remainder) uri.query).length ≤ maxUriBytes then
        .ok (p, upstreamPath p remainder, uri.query)
      else .error "a path and query taken from a parsed URI remain valid" := by
  have hb : ∀ b ∈ upstreamPath p remainder, u.pathByte b = true := by
    intro b hb
    rcases mem_append.mp hb with hb | hb
    · cases p with
      | openaiCodex => exact u.codex b hb
      | openai | anthropic | deepseek | openrouter => cases hb
    · split_ifs at hb
      · exact mem_singleton.mp hb ▸ u.slash
      · exact hp b hb
  have hh : (upstreamPath p remainder).head? = some 0x2F := by
    have he : (if remainder = [] then [0x2F] else remainder).head? = some 0x2F := by
      split_ifs with he
      · rfl
      · simpa [atSegment, he] using hr
    cases p with
    | openaiCodex => rfl
    | openai | anthropic | deepseek | openrouter => exact he
  rw [rebuild, parse_pathAndQuery hh hb uri.queryOk]
  split_ifs <;> rfl

variable {r : Except String (Provider × Bytes × Option Bytes)}

theorem routeTo_eq_some : routeTo u config uri p = some r ↔ (config p).enabled = true ∧ ∃ remainder,
      uri.path = bytes (config p).routePrefix ++ remainder ∧ atSegment remainder = true ∧
        serves p remainder = true ∧ rebuild u uri p remainder = r := by
  rw [routeTo, ite_none_left_eq_some, Bool.not_eq_false, bind_eq_some_iff]
  refine and_congr_right fun _ => exists_congr fun remainder => ?_
  have hst : Search.stripStart (bytes (config p).routePrefix) uri.path = some remainder ↔
      uri.path = bytes (config p).routePrefix ++ remainder := by
    constructor
    · intro h
      rw [Search.stripStart, ite_none_right_eq_some] at h
      obtain ⟨⟨_, ht⟩, hd⟩ := h
      rw [← ht, drop_left, Option.some.injEq] at hd
      rw [← ht, hd]
    · intro h
      rw [h, stripStart_append]
  simp [hst, ite_none_left_eq_some]

theorem routeTo_matches (h : routeTo u config uri p = some r) : Matches config uri.path p := by
  obtain ⟨he, remainder, hp, hs, -⟩ := routeTo_eq_some.mp h
  exact ⟨he, remainder, hp, hs⟩

/-- The provider that takes the request decides, in whatever order they are tried. -/
theorem providerRouteIn_of_route (hv : validateRoutes config = .ok ()) (ho : p ∈ order)
    (h : routeTo u config uri p = some r) : providerRouteIn u config uri order = r.map some := by
  have hf : order.findSome? (routeTo u config uri) = some r := by
    cases hf : order.findSome? (routeTo u config uri) with
    | none => exact absurd (h.symm.trans (findSome?_eq_none_iff.mp hf p ho)) nofun
    | some =>
      obtain ⟨_, -, hq⟩ := exists_of_findSome?_eq_some hf
      obtain rfl := matches_unique hv (routeTo_matches h) (routeTo_matches hq)
      exact hq.symm.trans h
  rw [providerRouteIn, hf]

theorem providerRouteIn_of_none (h : ∀ p, routeTo u config uri p = none) (order : List Provider) :
    providerRouteIn u config uri order = .ok none := by
  rw [providerRouteIn, findSome?_eq_none_iff.mpr fun p _ => h p]

theorem mem_all (p : Provider) : p ∈ Provider.all := by
  cases p <;> decide

theorem routePrefix_length (hv : validateRoutes config = .ok ()) (p : Provider) :
    1 < (bytes (config p).routePrefix).length := by
  obtain ⟨_, hf, -⟩ := bind_ok.mp hv
  obtain ⟨_, _, h⟩ := foldlM_mem hf p (mem_all p)
  simp only [validateRoute, guard_ok] at h
  exact Nat.lt_of_not_le h.2.1

theorem length_pathAndQuery_append (a b : Bytes) (query : Option Bytes) :
    (pathAndQuery (a ++ b) query).length = a.length + (pathAndQuery b query).length := by
  cases query <;> simp [pathAndQuery]

/-- A target without a base path is not longer than the request's. -/
theorem upstream_fits (hv : validateRoutes config = .ok ()) (hp : p ≠ .openaiCodex)
    (h : uri.path = bytes (config p).routePrefix ++ remainder) :
    (pathAndQuery (upstreamPath p remainder) uri.query).length ≤ maxUriBytes := by
  have hs := uri.short
  have hl := routePrefix_length hv p
  have hb : p.upstreamPathPrefix = [] := by cases p <;> first | rfl | exact absurd rfl hp
  rw [h, length_pathAndQuery_append] at hs
  rw [upstreamPath, hb, nil_append]
  split_ifs with hr
  · rw [hr] at hs
    rw [← append_nil [0x2F], length_pathAndQuery_append, length_singleton]
    omega
  · omega

end

/-- What a route has to be: it does not panic, at most one provider matches, the order of the
providers does not matter, and the target is the base path, the rest of the path and the query. -/
structure RoutesCorrectly (u : UriSyntax) (config : NotarydConfig) (uri : Uri u) : Prop where
  returns : ∃ r, providerRoute u config uri = .ok r
  unique : ∀ p q, Matches config uri.path p → Matches config uri.path q → p = q
  anyOrder : ∀ order, order.Perm Provider.all →
    providerRouteIn u config uri order = providerRoute u config uri
  target : ∀ p path query, providerRoute u config uri = .ok (some (p, path, query)) →
    ∃ remainder, Matches config uri.path p ∧
      uri.path = bytes (config p).routePrefix ++ remainder ∧
      path = p.upstreamPathPrefix ++ (if remainder = [] then bytes "/" else remainder) ∧
      query = uri.query

/-- A request that codex serves leaves room for the base path in place of the prefix. -/
def CodexFits {u : UriSyntax} (config : NotarydConfig) (uri : Uri u) : Prop :=
  ∀ remainder, (config .openaiCodex).enabled = true → serves .openaiCodex remainder = true →
    uri.path = bytes (config .openaiCodex).routePrefix ++ remainder →
      (bytes "/backend-api/codex").length + (pathAndQuery remainder uri.query).length ≤ maxUriBytes

theorem serves_codex (h : serves .openaiCodex remainder = true) :
    atSegment remainder = true ∧ remainder ≠ [] := by
  have hm : remainder ∈ [bytes "/responses", bytes "/responses/compact"] := by
    simpa [serves] using h
  rcases mem_pair.mp hm with rfl | rfl <;> decide

theorem length_codex (remainder : Bytes) (hr : remainder ≠ []) (query : Option Bytes) :
    (pathAndQuery (upstreamPath .openaiCodex remainder) query).length =
      (bytes "/backend-api/codex").length + (pathAndQuery remainder query).length := by
  rw [upstreamPath, if_neg hr, length_pathAndQuery_append, Provider.upstreamPathPrefix]

/-- Under an accepted configuration a request is routed as it should be exactly if its target is
not a codex target that has become too long. -/
theorem providerRoute_correct_iff (u : UriSyntax) (config : NotarydConfig)
    (hvalid : validateRoutes config = .ok ()) (uri : Uri u) :
    RoutesCorrectly u config uri ↔ CodexFits config uri := by
  constructor
  · rintro ⟨⟨_, hr⟩, -⟩ remainder he hs hp
    have hroute : routeTo u config uri .openaiCodex = some (rebuild u uri .openaiCodex remainder) :=
      routeTo_eq_some.mpr ⟨he, remainder, hp, (serves_codex hs).1, hs, rfl⟩
    rw [providerRoute, providerRouteIn_of_route hvalid (mem_all _) hroute, rebuild_eq
      (serves_codex hs).1 fun b hb => uri.pathOk b (hp ▸ mem_append_right _ hb)] at hr
    split_ifs at hr with hl
    · exact length_codex remainder (serves_codex hs).2 _ ▸ hl
    · cases hr
  · intro hfits
    by_cases hn : ∀ p, routeTo u config uri p = none
    · have ho := providerRouteIn_of_none hn
      refine ⟨⟨none, ho _⟩, fun p q => matches_unique hvalid, fun order _ => (ho order).trans
        (ho _).symm, fun p path query h => ?_⟩
      exact absurd (Except.ok.inj ((ho _).symm.trans h)) nofun
    · obtain ⟨p, hp⟩ := not_forall.mp hn
      obtain ⟨_, hroute⟩ := ne_none_iff_exists'.mp hp
      obtain ⟨he, remainder, hpath, hseg, hserves, rfl⟩ := routeTo_eq_some.mp hroute
      have hlength : (pathAndQuery (upstreamPath p remainder) uri.query).length ≤ maxUriBytes := by
        by_cases hc : p = .openaiCodex
        · subst hc
          rw [length_codex remainder (serves_codex hserves).2]
          exact hfits remainder he hserves hpath
        · exact upstream_fits hvalid hc hpath
      rw [rebuild_eq hseg fun b hb => uri.pathOk b (hpath ▸ mem_append_right _ hb),
        if_pos hlength] at hroute
      have ho : ∀ order, p ∈ order → providerRouteIn u config uri order =
          .ok (some (p, upstreamPath p remainder, uri.query)) :=
        fun order hm => providerRouteIn_of_route hvalid hm hroute
      refine ⟨⟨_, ho _ (mem_all p)⟩, fun p q => matches_unique hvalid, fun order hperm => ?_, ?_⟩
      · rw [ho order (hperm.mem_iff.mpr (mem_all p)), providerRoute, ho _ (mem_all p)]
      · intro _ _ _ h
        obtain ⟨⟩ := (ho _ (mem_all p)).symm.trans h
        exact ⟨remainder, routeTo_matches hroute, hpath, rfl, rfl⟩

/-! Graphic characters make up the URIs of the examples. -/

set_option maxRecDepth 20000 in
def sampleSyntax : UriSyntax where
  pathByte b := 0x21 ≤ b && b ≤ 0x7E && b ≠ 0x23 && b ≠ 0x3F
  queryByte b := 0x21 ≤ b && b ≤ 0x7E && b ≠ 0x23
  slash := by decide
  codex := by decide
  question := by decide

def defaultProviders : NotarydConfig := fun p => ⟨true, "/" ++ p.sectionName⟩

set_option maxRecDepth 20000 in
/-- A codex request with a query of `n` letters. -/
def codexUri (n : ℕ) (h : n ≤ 65517) : Uri sampleSyntax where
  path := bytes "/codex/responses"
  query := some (List.replicate n 0x61)
  pathOk := by decide
  queryOk q hq b hb := by
    obtain rfl := Option.some.inj hq
    rw [eq_of_mem_replicate hb]
    decide
  short := by
    have hp : (bytes "/codex/responses").length = 16 := by decide
    simp only [pathAndQuery, length_append, length_replicate, hp, length_singleton,
      maxUriBytes]
    omega

theorem codexUri_path (n : ℕ) (h : n ≤ 65517) :
    (codexUri n h).path =
      bytes (defaultProviders .openaiCodex).routePrefix ++ bytes "/responses" := by
  change bytes "/codex/responses" = bytes ("/" ++ "codex") ++ bytes "/responses"
  decide

set_option maxRecDepth 20000 in
/-- The longest codex request panics. -/
theorem providerRoute_panics : validateRoutes defaultProviders = .ok () ∧
    providerRoute sampleSyntax defaultProviders (codexUri 65517 le_rfl) =
      .error "a path and query taken from a parsed URI remain valid" := by
  have hvalid : validateRoutes defaultProviders = .ok () := by decide
  have hroute :
      routeTo sampleSyntax defaultProviders (codexUri 65517 le_rfl) .openaiCodex = some _ :=
    routeTo_eq_some.mpr ⟨rfl, bytes "/responses", codexUri_path .., by decide, by decide, rfl⟩
  have hlength : ¬(pathAndQuery (upstreamPath .openaiCodex (bytes "/responses"))
      (codexUri 65517 le_rfl).query).length ≤ maxUriBytes := by
    have hp : (upstreamPath .openaiCodex (bytes "/responses")).length = 28 := by decide
    simp only [pathAndQuery, codexUri, length_append, length_replicate, hp,
      length_singleton, maxUriBytes]
    omega
  refine ⟨hvalid, ?_⟩
  rw [providerRoute, providerRouteIn_of_route hvalid (mem_all _) hroute,
    rebuild_eq (by decide) (by decide), if_neg hlength]
  rfl

theorem providerRoute_correct_iff_sample :
    RoutesCorrectly sampleSyntax defaultProviders (codexUri 3 (by decide)) :=
  (providerRoute_correct_iff sampleSyntax defaultProviders (by decide) _).mpr
    fun remainder _ hs hp => by
      obtain rfl := append_cancel_left ((codexUri_path ..).symm.trans hp)
      decide

end Notary.Daemon.Routes
