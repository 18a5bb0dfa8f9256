/-
  File:      Helpdesk/Identity/Oidc.lean
  Subject:   Discovery and signing keys of one OIDC provider
             (apps/api/app/identity/oidc.py).

  What the HTTP client brings back is a reply: a response with its `Cache-Control` and
  its JSON body, an `httpx.HTTPError`, or another exception. A lookup waits for the two
  locks and for the provider and for nothing else. The clock is exact, and the counters
  of the metrics, which nothing here reads, are left out.
-/
import Helpdesk.Lib.Coroutines
import Helpdesk.Python.Dict
import Helpdesk.Python.Json
import Helpdesk.Python.Text

namespace Helpdesk.Identity

open Helpdesk.Python Helpdesk.Coroutines

/-! ## 1. Replies -/

/-- What may leave a lookup. -/
inductive OidcFailure where
  /-- `OidcProviderError` -/
  | provider
  /-- `OidcAuthenticationError(UNKNOWN_KEY)` -/
  | unknownKey
  /-- `httpx.HTTPError` -/
  | httpError
  | valueError
  /-- any other exception, such as `httpx.InvalidURL` -/
  | other
  deriving DecidableEq, Repr

/-- A request to the provider; `force` says which kind of lookup asks for keys. -/
inductive OidcRequest where
  | discovery
  | jwks (uri : String) (force : Bool)
  deriving DecidableEq, Repr

inductive Reply where
  /-- a response with no error status; `none` where the body is no JSON -/
  | response (cacheControl : String) (body : Option Json)
  | httpError
  | other

/-- The least seconds that a cached value is kept. -/
def leastTtl : Int := 60

/-- The settings of the client, and what `urlsplit` refuses in a host besides brackets
    without their pair. -/
structure OidcProviderClient where
  issuer : String
  cacheSeconds : Int
  staleSeconds : Int
  requireHttps : Bool
  refusesHost : List Char → Bool
  /-- `oidc_jwks_cache_seconds` is at least 60 -/
  cache_low : leastTtl ≤ cacheSeconds
  /-- `oidc_jwks_stale_if_error_seconds` is no negative number -/
  stale_low : 0 ≤ staleSeconds

/-- `int(digits)`, which refuses more than 4300 of them. -/
def intOf (digits : List Nat) : Except OidcFailure Int :=
  if 4300 < digits.length then .error .valueError
  else .ok (digits.foldl (fun n d => 10 * n + d) 0 : Nat)

/-- The digits of `max-age`, where a directive between two commas is one. -/
def maxAge? (directive : List Char) : Option (List Nat) :=
  let stripped := strip directive
  if (stripped.take 8).map lowerChar = "max-age=".toList then
    match (stripped.drop 8).mapM decimalDigit? with
    | some (d :: ds) => some (d :: ds)
    | _ => none
  else none

/-- `urlsplit`: the scheme and the host. -/
def urlsplit (refusesHost : List Char → Bool) (url : String) :
    Except OidcFailure (List Char × List Char) :=
  let text := (url.toList.dropWhile fun c => c.toNat ≤ 0x20).filter fun c =>
    c ≠ '\t' && c ≠ '\r' && c ≠ '\n'
  let front := text.takeWhile (· ≠ ':')
  let named := text.contains ':' && (front.head?.any Char.isAlpha) &&
    front.all fun c => c.isAlphanum || c = '+' || c = '-' || c = '.'
  let scheme := if named then front.map lowerChar else []
  let rest := if named then text.drop (front.length + 1) else text
  match dropPrefix? "//".toList rest with
  | none => .ok (scheme, [])
  | some rest =>
      let netloc := rest.takeWhile fun c => c ≠ '/' && c ≠ '?' && c ≠ '#'
      if netloc.contains '[' != netloc.contains ']' then .error .valueError
      else if refusesHost netloc then .error .valueError
      else .ok (scheme, netloc)

namespace OidcProviderClient

variable (client : OidcProviderClient)

/-- `_ttl` -/
def ttl (cacheControl : String) (configured : Int) : Except OidcFailure Int :=
  match (cacheControl.toList.splitOn ',').findSome? maxAge? with
  | none => .ok configured
  | some digits => (intOf digits).map fun seconds => max leastTtl (min configured seconds)

/-- `_validate_remote_url` -/
def validateRemoteUrl (value : String) : Except OidcFailure String := do
  let (scheme, netloc) ← urlsplit client.refusesHost value
  if netloc = [] || !(["http".toList, "https".toList].contains scheme) then .error .provider
  else if client.requireHttps && scheme ≠ "https".toList then .error .provider
  else .ok value

/-- `response.json()`, which has to be an object. -/
def payloadOf : Option Json → Except OidcFailure (List (String × Json))
  | some (.dict payload) => .ok payload
  | _ => .error .valueError

/-- What `_fetch_json` makes of a reply. -/
def readReply : Reply → Except OidcFailure (List (String × Json) × Int)
  | .response cacheControl body => do
      let payload ← payloadOf body
      let seconds ← ttl cacheControl client.cacheSeconds
      .ok (payload, seconds)
  | .httpError => .error .httpError
  | .other => .error .other

end OidcProviderClient

/-! ## 2. The client's state -/

/-- `_Discovery` -/
structure Discovery where
  issuer : String
  jwksUri : String
  deriving DecidableEq

/-- The keys of a document by their ids. -/
abbrev SigningKeys := List (String × Json)

/-- `_CacheEntry` -/
structure CacheEntry (α : Type) where
  value : α
  expiresAt : Time
  staleUntil : Time

structure OidcState where
  discovery : Option (CacheEntry Discovery)
  jwks : Option (CacheEntry SigningKeys)
  /-- `_unknown_key_refresh` -/
  unknownKeyRefresh : List (String × Time)

def OidcState.initial : OidcState := ⟨none, none, []⟩

inductive OidcLock where
  | discovery | jwks
  deriving DecidableEq, Repr

/-- A lookup passes the throttle for its unknown key id. -/
inductive OidcNote where
  | refreshing (keyId : String) (now : Time)
  deriving DecidableEq

/-- A coroutine on the state of one client. -/
abbrev OidcTask (α : Type) :=
  Coroutine OidcState OidcLock OidcRequest Reply OidcNote OidcFailure α

/-- The cached value, as long as it has not expired. -/
def unexpired {α : Type} (entry : Option (CacheEntry α)) (now : Time) : Option α :=
  entry.bind fun entry => if now < entry.expiresAt then some entry.value else none

/-- The cached value that covers a failure. -/
def stale {α : Type} (entry : Option (CacheEntry α)) (now : Time) : Option α :=
  entry.bind fun entry => if now < entry.staleUntil then some entry.value else none

/-! ## 3. Lookups -/

namespace OidcProviderClient

variable (client : OidcProviderClient)

/-- `_fetch_json` -/
def fetchJson (request : OidcRequest) : OidcTask (List (String × Json) × Int) :=
  Coroutine.catchError
    (do
      let reply ← Coroutine.ask request
      Coroutine.ofExcept (client.readReply reply))
    fun error =>
      if error = .httpError || error = .valueError then .fail .provider else .fail error

/-- A cache entry for a value that was looked for at `now`. -/
def entry {α : Type} (value : α) (now : Time) (seconds : Int) : CacheEntry α :=
  ⟨value, now + seconds, now + seconds + client.staleSeconds⟩

/-- What the client takes from a discovery document. -/
def readDiscovery (payload : List (String × Json)) : Except OidcFailure Discovery :=
  match Json.getD payload "issuer", Json.getD payload "jwks_uri" with
  | .str issuer, .str jwksUri =>
      if issuer = client.issuer then
        (client.validateRemoteUrl jwksUri).map fun uri => ⟨issuer, uri⟩
      else .error .provider
  | _, _ => .error .provider

def discovery : OidcTask Discovery := do
  let now ← Coroutine.readClock
  let state ← Coroutine.get
  match unexpired state.discovery now with
  | some value => pure value
  | none =>
      .withLock .discovery do
        let now ← Coroutine.readClock
        let state ← Coroutine.get
        match unexpired state.discovery now with
        | some value => pure value
        | none =>
            Coroutine.catchError
              (do
                let (payload, seconds) ← client.fetchJson .discovery
                let value ← Coroutine.ofExcept (client.readDiscovery payload)
                Coroutine.modify fun state =>
                  { state with discovery := some (client.entry value now seconds) }
                pure value)
              fun error =>
                if error = .provider then do
                  let state ← Coroutine.get
                  match stale state.discovery now with
                  | some value => pure value
                  | none => .fail error
                else .fail error

/-- The item that a key of the document becomes: its id and the key itself. -/
def keyItem? (key : Json) : Option (String × Json) :=
  match key with
  | .dict items =>
      match Json.getD items "kid" with
      | .str kid => some (kid, key)
      | _ => none
  | _ => none

/-- What the client takes from a document of keys. -/
def readKeys (payload : List (String × Json)) : Except OidcFailure SigningKeys :=
  match Json.getD payload "keys" with
  | .list keys =>
      if 100 < keys.length then .error .provider
      else
        let indexed := dictOf (keys.filterMap keyItem?)
        if indexed = [] then .error .provider else .ok indexed
  | _ => .error .provider

/-- `_load_jwks` -/
def loadJwks (force : Bool) : OidcTask SigningKeys := do
  let now ← Coroutine.readClock
  let state ← Coroutine.get
  match if force then none else unexpired state.jwks now with
  | some value => pure value
  | none =>
      .withLock .jwks do
        let now ← Coroutine.readClock
        let state ← Coroutine.get
        match if force then none else unexpired state.jwks now with
        | some value => pure value
        | none =>
            Coroutine.catchError
              (do
                let discovery ← client.discovery
                let (payload, seconds) ← client.fetchJson (.jwks discovery.jwksUri force)
                let indexed ← Coroutine.ofExcept (readKeys payload)
                Coroutine.modify fun state =>
                  { state with jwks := some (client.entry indexed now seconds) }
                pure indexed)
              fun error =>
                if error = .provider then do
                  let state ← Coroutine.get
                  match stale state.jwks now with
                  | some value => pure value
                  | none => .fail error
                else .fail error

/-- The least seconds between two refreshes for one unknown key id. -/
def refreshSeconds : Time := 5

/-- `signing_key` -/
def signingKey (keyId : String) : OidcTask Json := do
  let keys ← client.loadJwks false
  match item? keys keyId with
  | some key => pure key
  | none => do
      let now ← Coroutine.readClock
      let state ← Coroutine.get
      let lastRefresh := (item? state.unknownKeyRefresh keyId).getD 0
      let keys ←
        if refreshSeconds ≤ now - lastRefresh then do
          Coroutine.modify fun state =>
            { state with unknownKeyRefresh := assign state.unknownKeyRefresh keyId now }
          Coroutine.record (.refreshing keyId now)
          client.loadJwks true
        else pure keys
      match item? keys keyId with
      | some key => pure key
      | none => .fail .unknownKey

end OidcProviderClient

end Helpdesk.Identity
