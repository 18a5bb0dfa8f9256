/-
  File:      Helpdesk/Identity/SigningKeys.lean
  Subject:   Which signing keys a lookup may return, and what it fails with when none may
             be returned any more.

  A log is split where a lookup begins and where it ends. A fetch is the accepted answer
  to a request for keys; its window ends with its seconds and the stale seconds after it
  was started.

  * `Cached`: what is cached is the last fetch, for no longer than its window. It is the
    invariant;
  * `Onward`: what happened while a lookup went on, as far as the lookup itself took part;
    `meets_discovery` and `meets_loadJwks` say what the two layers of the cache do;
  * `Settles`: how a lookup ends. No lock is needed for it: a fetch is cached in the turn
    in which it is answered.
-/
import Helpdesk.Identity.Oidc
import Helpdesk.Lib.Fallible
import Mathlib.Tactic.Linarith

namespace Helpdesk.Identity

open Helpdesk.Python Helpdesk.Coroutines

/-! ## 1. Fetches in the log -/

abbrev OidcMark := Mark String OidcRequest Reply OidcNote OidcFailure Json

abbrev OidcEntry (ι : Type) := Entry ι OidcMark

abbrev OidcMoment (ι : Type) := Moment OidcState ι OidcMark

/-- A document of keys, its seconds, and when the request for it was made. -/
structure Fetch where
  keys : SigningKeys
  seconds : Int
  since : Time

/-- The end of its window. -/
def Fetch.until (client : OidcProviderClient) (fetch : Fetch) : Time :=
  fetch.since + fetch.seconds + client.staleSeconds

/-- What `_load_jwks` takes from a reply. -/
def keysOf (client : OidcProviderClient) (reply : Reply) : Except OidcFailure (SigningKeys × Int) := do
  let (payload, seconds) ← client.readReply reply
  let indexed ← OidcProviderClient.readKeys payload
  .ok (indexed, seconds)

/-- The fetch that an entry of the log is. -/
def fetchOf {ι : Type} (client : OidcProviderClient) (e : OidcEntry ι) : Option Fetch :=
  match e.mark with
  | .answered (.jwks _ _) reply since =>
      (keysOf client reply).toOption.map fun (keys, seconds) => ⟨keys, seconds, since⟩
  | _ => none

/-- **The document of keys fetched last.** -/
def lastFetch {ι : Type} (client : OidcProviderClient) (log : List (OidcEntry ι)) : Option Fetch :=
  (log.filterMap (fetchOf client)).getLast?

/-- **A reply the lookup does not expect**: an exception that is no `httpx.HTTPError`, or a
    discovery document with an address that `urlsplit` cannot read. -/
def Breaks {ι : Type} (client : OidcProviderClient) (e : OidcEntry ι) : Prop :=
  match e.mark with
  | .answered request reply _ =>
      reply = .other ∨ request = .discovery ∧ ∃ payload seconds uri,
        client.readReply reply = .ok (payload, seconds) ∧
        Json.getD payload "issuer" = .str client.issuer ∧
        Json.getD payload "jwks_uri" = .str uri ∧
        urlsplit client.refusesHost uri = .error .valueError
  | _ => False

/-- A mark that neither begins nor ends a lookup. -/
def Internal : OidcMark → Prop
  | .called _ | .answered _ _ _ | .noted _ => True
  | _ => False

variable {ι : Type} {client : OidcProviderClient} {v v' v'' : OidcMoment ι} {i : ι} {mark : OidcMark}
  {log : List (OidcEntry ι)}

theorem lastFetch_append_of_none {more : List (OidcEntry ι)}
    (h : ∀ e ∈ more, fetchOf client e = none) :
    lastFetch client (log ++ more) = lastFetch client log := by
  have hnone : more.filterMap (fetchOf client) = [] := List.filterMap_eq_nil_iff.mpr h
  rw [lastFetch, List.filterMap_append, hnone, List.append_nil, lastFetch]

theorem lastFetch_concat_of_some {e : OidcEntry ι} {fetch : Fetch}
    (h : fetchOf client e = some fetch) : lastFetch client (log ++ [e]) = some fetch := by
  simp [lastFetch, h]

/-! ## 2. What is cached -/

/-- **The invariant**: what is cached is the document fetched last, within its window. -/
def Cached (client : OidcProviderClient) (v : OidcMoment ι) : Prop :=
  ∀ entry, v.store.jwks = some entry → ∃ fetch, lastFetch client v.log = some fetch ∧
    entry.value = fetch.keys ∧ entry.expiresAt ≤ fetch.since + fetch.seconds ∧
    entry.staleUntil ≤ fetch.until client

theorem Cached.pass (h : Cached client v) (t : Time) : Cached client (v.pass t) := h

/-- An entry that is no fetch. -/
theorem Cached.add (h : Cached client v) (hfetch : fetchOf client ⟨i, v.clock, mark⟩ = none) :
    Cached client (v.add i mark) := by
  intro entry hentry
  obtain ⟨fetch, hlast, hrest⟩ := h entry hentry
  refine ⟨fetch, ?_, hrest⟩
  rw [Moment.add_log, lastFetch_append_of_none]
  · exact hlast
  · intro e he
    obtain rfl := List.mem_singleton.mp he
    exact hfetch

/-- The keys are left as they are. -/
theorem Cached.put (h : Cached client v) {f : OidcState → OidcState}
    (hf : (f v.store).jwks = v.store.jwks) : Cached client (v.put f) := by
  intro entry hentry
  rw [Moment.put_store, hf] at hentry
  exact h entry hentry

theorem cached_start {clock : Time} :
    Cached client (⟨.initial, clock, []⟩ : OidcMoment ι) := by
  intro entry hentry
  cases hentry

/-- A value is kept for a minute at the least. -/
theorem ttl_low {cacheControl : String} {seconds : Int}
    (h : OidcProviderClient.ttl cacheControl client.cacheSeconds = .ok seconds) :
    leastTtl ≤ seconds := by
  rw [OidcProviderClient.ttl] at h
  split at h
  · cases h
    exact client.cache_low
  · next digits _ =>
      cases hseconds : intOf digits with
      | error error =>
          rw [hseconds] at h
          cases h
      | ok value =>
          rw [hseconds] at h
          cases h
          exact le_max_left _ _

theorem readReply_eq_ok {reply : Reply} {payload : List (String × Json)} {seconds : Int}
    (h : client.readReply reply = .ok (payload, seconds)) :
    leastTtl ≤ seconds ∧ reply ≠ .other := by
  cases reply with
  | httpError => cases h
  | other => cases h
  | response cacheControl body =>
      refine ⟨?_, nofun⟩
      obtain ⟨items, -, h⟩ := bind_eq_ok.mp h
      obtain ⟨value, hvalue, h⟩ := bind_eq_ok.mp h
      cases h
      exact ttl_low hvalue

theorem readReply_eq_error {reply : Reply} {error : OidcFailure}
    (h : client.readReply reply = .error error) :
    (reply = .other ∧ error = .other) ∨
      (reply ≠ .other ∧ (error = .httpError ∨ error = .valueError)) := by
  cases reply with
  | httpError =>
      cases h
      exact .inr ⟨nofun, .inl rfl⟩
  | other =>
      cases h
      exact .inl ⟨rfl, rfl⟩
  | response cacheControl body =>
      refine .inr ⟨nofun, .inr ?_⟩
      rcases bind_eq_error.mp h with h | ⟨items, -, h⟩
      · unfold OidcProviderClient.payloadOf at h
        split at h
        · cases h
        · cases h
          rfl
      · rcases bind_eq_error.mp h with h | ⟨value, -, h⟩
        · rw [OidcProviderClient.ttl] at h
          split at h
          · cases h
          · next digits _ =>
              rw [intOf] at h
              split at h
              · cases h
                rfl
              · cases h
        · cases h

theorem readKeys_eq_error {payload : List (String × Json)} {error : OidcFailure}
    (h : OidcProviderClient.readKeys payload = .error error) : error = .provider := by
  rw [OidcProviderClient.readKeys] at h
  split at h
  · split at h
    · cases h
      rfl
    · dsimp only at h
      split at h
      · cases h
        rfl
      · cases h
  · cases h
    rfl

theorem urlsplit_eq_error {refuses : List Char → Bool} {url : String} {error : OidcFailure}
    (h : urlsplit refuses url = .error error) : error = .valueError := by
  unfold urlsplit at h
  dsimp only at h
  split at h
  · cases h
  · split_ifs at h
    · cases h
      rfl
    · cases h
      rfl

/-- What goes wrong with a discovery document. -/
theorem readDiscovery_eq_error {payload : List (String × Json)} {error : OidcFailure}
    (h : client.readDiscovery payload = .error error) :
    error = .provider ∨ error = .valueError ∧ ∃ uri,
      Json.getD payload "issuer" = .str client.issuer ∧ Json.getD payload "jwks_uri" = .str uri ∧
      urlsplit client.refusesHost uri = .error .valueError := by
  unfold OidcProviderClient.readDiscovery at h
  split at h
  · next issuer uri hissuer huri =>
      split_ifs at h with hsame
      · cases hvalid : client.validateRemoteUrl uri with
        | ok value =>
            rw [hvalid] at h
            cases h
        | error failure =>
            rw [hvalid] at h
            cases h
            rcases bind_eq_error.mp hvalid with hsplit | ⟨parts, -, hcheck⟩
            · obtain rfl := urlsplit_eq_error hsplit
              exact .inr ⟨rfl, uri, hsame ▸ hissuer, huri, hsplit⟩
            · dsimp only at hcheck
              split_ifs at hcheck
              · cases hcheck
                exact .inl rfl
              · cases hcheck
                exact .inl rfl
      · cases h
        exact .inl rfl
  · cases h
    exact .inl rfl

/-- An address that `urlsplit` cannot read fails no other way. -/
theorem readDiscovery_of_urlsplit {payload : List (String × Json)} {uri : String}
    (hissuer : Json.getD payload "issuer" = .str client.issuer)
    (huri : Json.getD payload "jwks_uri" = .str uri)
    (hsplit : urlsplit client.refusesHost uri = .error .valueError) :
    client.readDiscovery payload = .error .valueError := by
  have hvalid : client.validateRemoteUrl uri = .error .valueError :=
    bind_eq_error.mpr (.inl hsplit)
  rw [OidcProviderClient.readDiscovery, hissuer, huri]
  dsimp only
  rw [if_pos rfl, hvalid]
  rfl

/-! ## 3. While a lookup goes on -/

/-- **What happened meanwhile**: the lookup neither began nor ended, and got no reply that
    it does not expect. -/
def Onward (client : OidcProviderClient) (i : ι) (v v' : OidcMoment ι) : Prop :=
  v.clock ≤ v'.clock ∧ ∃ entries, v'.log = v.log ++ entries ∧
    ∀ e ∈ entries, e.author = i → Internal e.mark ∧ ¬Breaks client e

/-- The lookup got a reply that it does not expect. -/
def Broken (client : OidcProviderClient) (i : ι) (v v' : OidcMoment ι) : Prop :=
  v.clock ≤ v'.clock ∧ ∃ entries, v'.log = v.log ++ entries ∧
    (∀ e ∈ entries, e.author = i → Internal e.mark) ∧
    ∃ e ∈ entries, e.author = i ∧ Breaks client e

theorem Onward.refl : Onward client i v v := ⟨le_refl _, [], by simp, by simp⟩

theorem Onward.trans (h : Onward client i v v') (h' : Onward client i v' v'') :
    Onward client i v v'' := by
  obtain ⟨hclock, entries, hlog, hentries⟩ := h
  obtain ⟨hclock', entries', hlog', hentries'⟩ := h'
  refine ⟨hclock.trans hclock', entries ++ entries', ?_, fun e he => ?_⟩
  · rw [hlog', hlog, List.append_assoc]
  · rcases List.mem_append.mp he with hmem | hmem
    · exact hentries e hmem
    · exact hentries' e hmem

theorem onward_follows (h : Moment.Follows i v v') : Onward client i v v' := by
  obtain ⟨hclock, entries, hlog, hentries⟩ := h
  exact ⟨hclock, entries, hlog, fun e he hi => absurd hi (hentries e he)⟩

theorem onward_pass {t : Time} (h : v.clock ≤ t) : Onward client i v (v.pass t) :=
  ⟨h, [], by simp, by simp⟩

theorem onward_put {f : OidcState → OidcState} : Onward client i v (v.put f) :=
  ⟨le_refl _, [], by simp, by simp⟩

theorem onward_add (hmark : Internal mark) (hbreaks : ¬Breaks client ⟨i, v.clock, mark⟩) :
    Onward client i v (v.add i mark) := by
  refine ⟨le_refl _, [⟨i, v.clock, mark⟩], rfl, fun e he _ => ?_⟩
  obtain rfl := List.mem_singleton.mp he
  exact ⟨hmark, hbreaks⟩

theorem broken_add (hmark : Internal mark) (hbreaks : Breaks client ⟨i, v.clock, mark⟩) :
    Broken client i v (v.add i mark) := by
  refine ⟨le_refl _, [⟨i, v.clock, mark⟩], rfl, fun e he _ => ?_, _, List.mem_singleton_self _,
    rfl, hbreaks⟩
  obtain rfl := List.mem_singleton.mp he
  exact hmark

theorem Onward.broken (h : Onward client i v v') (h' : Broken client i v' v'') :
    Broken client i v v'' := by
  obtain ⟨hclock, entries, hlog, hentries⟩ := h
  obtain ⟨hclock', entries', hlog', hentries', e, he, hbreaks⟩ := h'
  refine ⟨hclock.trans hclock', entries ++ entries', ?_, fun e he => ?_, e,
    List.mem_append_right _ he, hbreaks⟩
  · rw [hlog', hlog, List.append_assoc]
  · rcases List.mem_append.mp he with hmem | hmem
    · exact fun hi => (hentries e hmem hi).1
    · exact hentries' e hmem

/-! ## 4. The two layers of the cache -/

section Layers

variable {keeps : OidcMoment ι → Prop} {admits : OidcRequest → Reply → Prop}
  {raises : OidcMoment ι → OidcFailure → Prop}

/-- **`_fetch_json`** returns what the reply holds. -/
theorem meets_fetchJson {request : OidcRequest}
    {post : OidcMoment ι → List (String × Json) × Int → Prop}
    (hkeeps : ∀ v', Onward client i v v' → Cached client v' → keeps v') (hcached : Cached client v)
    (hpost : ∀ v' reply since payload seconds, Onward client i v v' → Cached client v' →
      v.clock ≤ since → client.readReply reply = .ok (payload, seconds) →
        post (v'.add i (.answered request reply since)) (payload, seconds))
    (hprovider : ∀ v' reply since error, Onward client i v v' → Cached client v' →
      reply ≠ .other → client.readReply reply = .error error →
        raises (v'.add i (.answered request reply since)) .provider)
    (hother : ∀ v' since, Onward client i v v' → Cached client v' →
      raises (v'.add i (.answered request .other since)) .other) :
    (client.fetchJson request).Meets (Cached client) keeps admits i post raises v := by
  simp only [OidcProviderClient.fetchJson, Coroutine.meets_catchError, Coroutine.meets_bind,
    Coroutine.meets_ask, Coroutine.meets_ofExcept]
  intro since hsince
  have hcalled : Onward client i v ((v.pass since).add i (.called request)) :=
    (onward_pass hsince).trans (onward_add trivial id)
  refine ⟨hkeeps _ hcalled ((hcached.pass since).add rfl), fun v' reply hfollows hcached' _ => ?_⟩
  have honward : Onward client i v v' := hcalled.trans (onward_follows hfollows)
  refine ⟨fun a ha => ?_, fun error herror => ?_⟩
  · exact hpost v' reply since a.1 a.2 honward hcached' hsince ha
  · rcases readReply_eq_error herror with ⟨rfl, rfl⟩ | ⟨hreply, hfailure⟩
    · rw [if_neg (by decide)]
      exact hother v' since honward hcached'
    · rw [if_pos (by rcases hfailure with rfl | rfl <;> rfl)]
      exact hprovider v' reply since error honward hcached' hreply herror

/-- A reply that is no discovery document the client can read. -/
theorem not_breaks_discovery {reply : Reply} {since t : Time} (hreply : reply ≠ .other)
    (h : ∀ payload seconds, client.readReply reply = .ok (payload, seconds) →
      client.readDiscovery payload ≠ .error .valueError) :
    ¬Breaks client (⟨i, t, .answered .discovery reply since⟩ : OidcEntry ι) := by
  intro hbreaks
  rcases hbreaks with rfl | ⟨-, payload, seconds, uri, hread, hissuer, huri, hsplit⟩
  · exact hreply rfl
  · exact h payload seconds hread (readDiscovery_of_urlsplit hissuer huri hsplit)

/-- What `discovery` does with a failed fetch: a provider that is down is answered for by the
    entry that is stale at `now`, if it is kept still. -/
def staleDiscovery (now : Time) (error : OidcFailure) : OidcTask Discovery :=
  if error = .provider then do
    let state ← Coroutine.get
    match stale state.discovery now with
    | some value => pure value
    | none => .fail error
  else .fail error

/-- What `loadJwks` does with a failed fetch. -/
def staleJwks (now : Time) (error : OidcFailure) : OidcTask SigningKeys :=
  if error = .provider then do
    let state ← Coroutine.get
    match stale state.jwks now with
    | some value => pure value
    | none => .fail error
  else .fail error

/-- **`discovery`** leaves the cached keys as they are. -/
theorem meets_discovery {post : OidcMoment ι → Discovery → Prop}
    (hkeeps : ∀ v', Onward client i v v' → Cached client v' → keeps v') (hcached : Cached client v)
    (hpost : ∀ v' value, Onward client i v v' → Cached client v' → post v' value)
    (hprovider : ∀ v', Onward client i v v' → Cached client v' → raises v' .provider)
    (hbroken : ∀ v' error, Broken client i v v' → Cached client v' → error ≠ .provider →
      raises v' error) :
    client.discovery.Meets (Cached client) keeps admits i post raises v := by
  simp only [OidcProviderClient.discovery, Coroutine.meets_bind, Coroutine.meets_readClock,
    Coroutine.meets_get]
  intro t ht
  have hpass : Onward client i v (v.pass t) := onward_pass ht
  split
  · exact hpost _ _ hpass (hcached.pass t)
  simp only [Coroutine.meets_withLock, Coroutine.meets_bind, Coroutine.meets_readClock,
    Coroutine.meets_get]
  refine ⟨hkeeps _ hpass (hcached.pass t), fun v₁ hfollows hcached₁ now hnow => ?_⟩
  have hlocked : Onward client i v (v₁.pass now) :=
    hpass.trans ((onward_follows hfollows).trans (onward_pass hnow))
  split
  · exact hpost _ _ hlocked (hcached₁.pass now)
  -- what a failure ends in
  have hfailure : ∀ v', Onward client i v v' → Cached client v' →
      (staleDiscovery now .provider).Meets (Cached client) keeps admits i post raises v' := by
    intro v' honward hcached'
    simp only [staleDiscovery, if_true, Coroutine.meets_bind, Coroutine.meets_get]
    split
    · exact hpost _ _ honward hcached'
    · exact hprovider _ honward hcached'
  simp only [Coroutine.meets_catchError, Coroutine.meets_bind, Coroutine.meets_ofExcept,
    Coroutine.meets_modify, Coroutine.meets_pure]
  refine meets_fetchJson (fun v' honward => hkeeps v' (hlocked.trans honward))
    (hcached₁.pass now) ?_ ?_ ?_
  · intro v' reply since payload seconds honward hcached' _ hread
    have hreply := (readReply_eq_ok hread).2
    refine ⟨fun value hvalue => ?_, fun error herror => ?_⟩
    · have hanswer : Onward client i v' (v'.add i (.answered .discovery reply since)) := by
        refine onward_add trivial (not_breaks_discovery hreply fun payload' seconds' hread' => ?_)
        rw [hread] at hread'
        cases hread'
        rw [hvalue]
        simp
      exact hpost _ _ (hlocked.trans (honward.trans (hanswer.trans onward_put)))
        ((hcached'.add rfl).put rfl)
    · rcases readDiscovery_eq_error herror with rfl | ⟨rfl, uri, hissuer, huri, hsplit⟩
      · have hanswer : Onward client i v' (v'.add i (.answered .discovery reply since)) := by
          refine onward_add trivial (not_breaks_discovery hreply fun payload' seconds' hread' => ?_)
          rw [hread] at hread'
          cases hread'
          rw [herror]
          simp
        exact hfailure _ (hlocked.trans (honward.trans hanswer)) (hcached'.add rfl)
      · have hbreaks : Broken client i v' (v'.add i (.answered .discovery reply since)) :=
          broken_add trivial (.inr ⟨rfl, payload, seconds, uri, hread, hissuer, huri, hsplit⟩)
        rw [if_neg (by decide)]
        exact hbroken _ _ (hlocked.broken (honward.broken hbreaks)) (hcached'.add rfl) (by decide)
  · intro v' reply since error honward hcached' hreply herror
    have hanswer : Onward client i v' (v'.add i (.answered .discovery reply since)) := by
      refine onward_add trivial (not_breaks_discovery hreply fun payload seconds hread => ?_)
      rw [herror] at hread
      cases hread
    exact hfailure _ (hlocked.trans (honward.trans hanswer)) (hcached'.add rfl)
  · intro v' since honward hcached'
    rw [if_neg (by decide)]
    exact hbroken _ _ (hlocked.broken (honward.broken (broken_add trivial (.inl rfl))))
      (hcached'.add rfl) (by decide)

theorem unexpired_eq_some {α : Type} {entry : Option (CacheEntry α)} {now : Time} {value : α} :
    unexpired entry now = some value ↔
      ∃ e, entry = some e ∧ now < e.expiresAt ∧ e.value = value := by
  cases entry with
  | none => simp [unexpired]
  | some e => simp [unexpired]

theorem stale_eq_some {α : Type} {entry : Option (CacheEntry α)} {now : Time} {value : α} :
    stale entry now = some value ↔ ∃ e, entry = some e ∧ now < e.staleUntil ∧ e.value = value := by
  cases entry with
  | none => simp [stale]
  | some e => simp [stale]

/-- A request for keys breaks only where the client raises something else. -/
theorem not_breaks_jwks {uri : String} {force : Bool} {reply : Reply} {since t : Time}
    (h : reply ≠ .other) :
    ¬Breaks client (⟨i, t, .answered (.jwks uri force) reply since⟩ : OidcEntry ι) := by
  intro hbreaks
  rcases hbreaks with rfl | ⟨hrequest, -⟩
  · exact h rfl
  · cases hrequest

/-- A request for keys whose reply is refused is no fetch. -/
theorem fetchOf_refused {uri : String} {force : Bool} {reply : Reply} {since t : Time}
    {error : OidcFailure} (h : keysOf client reply = .error error) :
    fetchOf client (⟨i, t, .answered (.jwks uri force) reply since⟩ : OidcEntry ι) = none := by
  rw [fetchOf]
  dsimp only
  rw [h]
  rfl

theorem fetchOf_accepted {uri : String} {force : Bool} {reply : Reply} {since t : Time}
    {keys : SigningKeys} {seconds : Int} (h : keysOf client reply = .ok (keys, seconds)) :
    fetchOf client (⟨i, t, .answered (.jwks uri force) reply since⟩ : OidcEntry ι) =
      some ⟨keys, seconds, since⟩ := by
  rw [fetchOf]
  dsimp only
  rw [h]
  rfl

/-- The keys come from the last fetch, whose window has not passed at `t`. -/
def Served (client : OidcProviderClient) (t : Time) (v : OidcMoment ι) (keys : SigningKeys) : Prop :=
  ∃ fetch, lastFetch client v.log = some fetch ∧ fetch.keys = keys ∧ t < fetch.until client

theorem Cached.served_unexpired (h : Cached client v) {now t : Time} {keys : SigningKeys}
    (hkeys : unexpired v.store.jwks now = some keys) (ht : t ≤ now) : Served client t v keys := by
  obtain ⟨entry, hentry, hnow, rfl⟩ := unexpired_eq_some.mp hkeys
  obtain ⟨fetch, hlast, hvalue, hexpires, -⟩ := h entry hentry
  refine ⟨fetch, hlast, hvalue.symm, ?_⟩
  have hstale : (0 : Time) ≤ client.staleSeconds := by exact_mod_cast client.stale_low
  rw [Fetch.until]
  linarith

theorem Cached.served_stale (h : Cached client v) {now t : Time} {keys : SigningKeys}
    (hkeys : stale v.store.jwks now = some keys) (ht : t ≤ now) : Served client t v keys := by
  obtain ⟨entry, hentry, hnow, rfl⟩ := stale_eq_some.mp hkeys
  obtain ⟨fetch, hlast, hvalue, -, hstale⟩ := h entry hentry
  exact ⟨fetch, hlast, hvalue.symm, lt_of_le_of_lt ht (lt_of_lt_of_le hnow hstale)⟩

/-- **A fetch is cached** in the turn in which it is answered. -/
theorem cached_fetch {uri : String} {force : Bool} {reply : Reply} {since now t : Time}
    {keys : SigningKeys} {seconds : Int} (h : keysOf client reply = .ok (keys, seconds))
    (hlow : leastTtl ≤ seconds) (hnow : now ≤ since) (ht : t ≤ now) :
    Cached client ((v.add i (.answered (.jwks uri force) reply since)).put fun state =>
      { state with jwks := some (client.entry keys now seconds) }) ∧
    Served client t ((v.add i (.answered (.jwks uri force) reply since)).put fun state =>
      { state with jwks := some (client.entry keys now seconds) }) keys := by
  have hlast : lastFetch client (v.add i (.answered (.jwks uri force) reply since)).log =
      some ⟨keys, seconds, since⟩ := lastFetch_concat_of_some (fetchOf_accepted h)
  have hstale : (0 : Time) ≤ client.staleSeconds := by exact_mod_cast client.stale_low
  have hseconds : (60 : Time) ≤ seconds := by exact_mod_cast hlow
  refine ⟨fun entry hentry => ⟨_, hlast, ?_⟩, ⟨_, hlast, rfl, ?_⟩⟩
  · obtain rfl := Option.some.inj hentry
    refine ⟨rfl, ?_, ?_⟩
    · show now + (seconds : Time) ≤ since + seconds
      linarith
    · show now + (seconds : Time) + client.staleSeconds ≤ since + seconds + client.staleSeconds
      linarith
  · show t < since + (seconds : Time) + client.staleSeconds
    linarith

/-- **`_load_jwks`** returns the keys of the last fetch, within its window. -/
theorem meets_loadJwks {force : Bool} {post : OidcMoment ι → SigningKeys → Prop}
    (hkeeps : ∀ v', Onward client i v v' → Cached client v' → keeps v') (hcached : Cached client v)
    (hpost : ∀ v' keys, Onward client i v v' → Cached client v' → Served client v.clock v' keys →
      post v' keys)
    (hprovider : ∀ v', Onward client i v v' → Cached client v' → raises v' .provider)
    (hbroken : ∀ v' error, Broken client i v v' → Cached client v' → error ≠ .provider →
      raises v' error) :
    (client.loadJwks force).Meets (Cached client) keeps admits i post raises v := by
  have hcache : ∀ {entry : Option (CacheEntry SigningKeys)} {now : Time} {keys : SigningKeys},
      (if force then none else unexpired entry now) = some keys → unexpired entry now = some keys := by
    intro entry now keys h
    cases force with
    | true => cases h
    | false => exact h
  simp only [OidcProviderClient.loadJwks, Coroutine.meets_bind, Coroutine.meets_readClock,
    Coroutine.meets_get]
  intro t ht
  have hpass : Onward client i v (v.pass t) := onward_pass ht
  split
  · next keys hkeys =>
      exact hpost _ _ hpass (hcached.pass t) ((hcached.pass t).served_unexpired (hcache hkeys) ht)
  simp only [Coroutine.meets_withLock, Coroutine.meets_bind, Coroutine.meets_readClock,
    Coroutine.meets_get]
  refine ⟨hkeeps _ hpass (hcached.pass t), fun v₁ hfollows hcached₁ now hnow => ?_⟩
  have hlocked : Onward client i v (v₁.pass now) :=
    hpass.trans ((onward_follows hfollows).trans (onward_pass hnow))
  have hbegan : v.clock ≤ now := hlocked.1
  split
  · next keys hkeys =>
      exact hpost _ _ hlocked (hcached₁.pass now)
        ((hcached₁.pass now).served_unexpired (hcache hkeys) hbegan)
  have hfailure : ∀ v', Onward client i v v' → Cached client v' →
      (staleJwks now .provider).Meets (Cached client) keeps admits i post raises v' := by
    intro v' honward hcached'
    simp only [staleJwks, if_true, Coroutine.meets_bind, Coroutine.meets_get]
    split
    · next keys hkeys =>
        exact hpost _ _ honward hcached' (hcached'.served_stale hkeys hbegan)
    · exact hprovider _ honward hcached'
  simp only [Coroutine.meets_catchError, Coroutine.meets_bind, Coroutine.meets_ofExcept,
    Coroutine.meets_modify, Coroutine.meets_pure]
  refine meets_discovery (fun v' honward => hkeeps v' (hlocked.trans honward)) (hcached₁.pass now)
    ?_ (fun v' honward hcached' => hfailure v' (hlocked.trans honward) hcached') ?_
  · intro v₂ discovery honward₂ hcached₂
    have hlocked₂ : Onward client i v v₂ := hlocked.trans honward₂
    refine meets_fetchJson (fun v' honward => hkeeps v' (hlocked₂.trans honward)) hcached₂ ?_ ?_ ?_
    · intro v' reply since payload seconds honward hcached' hsince hread
      obtain ⟨hlow, hreply⟩ := readReply_eq_ok hread
      have hanswer : Onward client i v (v'.add i (.answered (.jwks discovery.jwksUri force) reply since)) :=
        (hlocked₂.trans honward).trans (onward_add trivial (not_breaks_jwks hreply))
      refine ⟨fun keys hkeys => ?_, fun error herror => ?_⟩
      · have hfetch : keysOf client reply = .ok (keys, seconds) :=
          bind_eq_ok.mpr ⟨_, hread, bind_eq_ok.mpr ⟨keys, hkeys, rfl⟩⟩
        obtain ⟨hcached'', hserved⟩ := cached_fetch (v := v') (i := i) hfetch hlow
          (honward₂.1.trans hsince) hbegan
        exact hpost _ _ (hanswer.trans onward_put) hcached'' hserved
      · obtain rfl := readKeys_eq_error herror
        have hrefused : keysOf client reply = .error .provider :=
          bind_eq_error.mpr (.inr ⟨_, hread, bind_eq_error.mpr (.inl herror)⟩)
        exact hfailure _ hanswer (hcached'.add (fetchOf_refused hrefused))
    · intro v' reply since error honward hcached' hreply herror
      have hrefused : keysOf client reply = .error error := bind_eq_error.mpr (.inl herror)
      exact hfailure _ ((hlocked₂.trans honward).trans (onward_add trivial (not_breaks_jwks hreply)))
        (hcached'.add (fetchOf_refused hrefused))
    · intro v' since honward hcached'
      rw [if_neg (by decide)]
      have hbreaks : Broken client i v' (v'.add i (.answered (.jwks discovery.jwksUri force) .other since)) :=
        broken_add trivial (.inl rfl)
      exact hbroken _ _ ((hlocked₂.trans honward).broken hbreaks)
        (hcached'.add (fetchOf_refused (bind_eq_error.mpr (.inl rfl)))) (by decide)
  · intro v' error hbreaks hcached' hne
    rw [if_neg hne]
    exact hbroken _ _ (hlocked.broken hbreaks) hcached' hne

end Layers

/-! ## 5. How a lookup ends -/

/-- **The window has passed**: what was fetched last before the lookup began is too old by
    then, and nothing was fetched since. -/
def Lapsed (client : OidcProviderClient) (A : List (OidcEntry ι)) (b : Time)
    (B : List (OidcEntry ι)) : Prop :=
  (∀ e ∈ B, fetchOf client e = none) ∧ ∀ fetch ∈ lastFetch client A, fetch.until client ≤ b

/-- What is claimed of the end of a lookup that began at `b` behind `A`. -/
def Verdict (client : OidcProviderClient) (i : ι) (keyId : String) (A : List (OidcEntry ι))
    (b : Time) (B : List (OidcEntry ι)) : OidcMark → Prop
  | .returned key => ∃ fetch, lastFetch client (A ++ ⟨i, b, .began keyId⟩ :: B) = some fetch ∧
      item? fetch.keys keyId = some key ∧ b < fetch.until client
  | .failed error => Lapsed client A b B →
      (error = .provider ↔ ∀ e ∈ B, e.author = i → ¬Breaks client e)
  | _ => True

/-- What the log holds of a lookup that began at `b` behind `A`. -/
structure SettlesBy (client : OidcProviderClient) (i : ι) (keyId : String) (A : List (OidcEntry ι))
    (b : Time) (B : List (OidcEntry ι)) : Prop where
  first : ∀ e ∈ A, e.author ≠ i
  once : ∀ e ∈ B, e.author = i → ∀ keyId, e.mark ≠ .began keyId
  verdict : ∀ front t mark back, B = front ++ ⟨i, t, mark⟩ :: back →
    Verdict client i keyId A b front mark

def Settles (client : OidcProviderClient) (i : ι) (keyId : String) (v : OidcMoment ι) : Prop :=
  ∃ A b B, v.log = A ++ ⟨i, b, .began keyId⟩ :: B ∧ SettlesBy client i keyId A b B

variable {keyId : String} {A B : List (OidcEntry ι)} {b t : Time}

/-- One more entry: one of another lookup, or one with what is claimed of it. -/
theorem SettlesBy.concat (h : SettlesBy client i keyId A b B) {e : OidcEntry ι}
    (hbegan : e.author = i → ∀ keyId, e.mark ≠ .began keyId)
    (hverdict : e.author = i → Verdict client i keyId A b B e.mark) :
    SettlesBy client i keyId A b (B ++ [e]) where
  first := h.first
  once e' he' hi := by
    rcases List.mem_append.mp he' with hmem | hmem
    · exact h.once e' hmem hi
    · obtain rfl := List.mem_singleton.mp hmem
      exact hbegan hi
  verdict front t mark back hsplit := by
    rcases List.eq_nil_or_concat back with rfl | ⟨back', last, rfl⟩
    · obtain ⟨rfl, heq⟩ := List.append_inj' hsplit rfl
      obtain rfl := List.singleton_inj.mp heq
      exact hverdict rfl
    · rw [List.concat_eq_append, ← List.cons_append, ← List.append_assoc] at hsplit
      exact h.verdict front t mark back' (List.append_inj' hsplit rfl).1

theorem SettlesBy.append (h : SettlesBy client i keyId A b B) {more : List (OidcEntry ι)}
    (hmore : ∀ e ∈ more, e.author ≠ i) : SettlesBy client i keyId A b (B ++ more) := by
  induction more using List.reverseRecOn with
  | nil => rwa [List.append_nil]
  | append_singleton more e ih =>
      rw [← List.append_assoc]
      have he : e.author ≠ i := hmore e (by simp)
      exact (ih fun e' he' => hmore e' (List.mem_append_left _ he')).concat
        (fun hi => absurd hi he) fun hi => absurd hi he

theorem Settles.follows (h : Settles client i keyId v) (hv : Moment.Follows i v v') :
    Settles client i keyId v' := by
  obtain ⟨A, b, B, hlog, hsettles⟩ := h
  obtain ⟨-, entries, hlog', hentries⟩ := hv
  exact ⟨A, b, B ++ entries, by rw [hlog', hlog]; simp, hsettles.append hentries⟩

theorem Settles.cancelled (h : Settles client i keyId v) :
    Settles client i keyId (v.add i .cancelled) := by
  obtain ⟨A, b, B, hlog, hsettles⟩ := h
  refine ⟨A, b, B ++ [⟨i, v.clock, .cancelled⟩], by simp [hlog], hsettles.concat ?_ fun _ => ?_⟩
  · exact fun _ _ => nofun
  · trivial

/-- The lookup is under way: behind its beginning it only went on. -/
def Underway (client : OidcProviderClient) (i : ι) (keyId : String) (A : List (OidcEntry ι))
    (b : Time) (v : OidcMoment ι) : Prop :=
  (∀ e ∈ A, e.author ≠ i) ∧
    ∃ v₀, v₀.log = A ++ [⟨i, b, .began keyId⟩] ∧ b ≤ v₀.clock ∧ Onward client i v₀ v

theorem Underway.onward (h : Underway client i keyId A b v) (hv : Onward client i v v') :
    Underway client i keyId A b v' := by
  obtain ⟨hA, v₀, hlog, hclock, honward⟩ := h
  exact ⟨hA, v₀, hlog, hclock, honward.trans hv⟩

theorem Underway.le (h : Underway client i keyId A b v) : b ≤ v.clock := by
  obtain ⟨-, v₀, -, hclock, honward⟩ := h
  exact hclock.trans honward.1

/-- What went on, entry by entry. -/
theorem Underway.entries (h : Underway client i keyId A b v) :
    ∃ B, v.log = A ++ ⟨i, b, .began keyId⟩ :: B ∧
      ∀ e ∈ B, e.author = i → Internal e.mark ∧ ¬Breaks client e := by
  obtain ⟨-, v₀, hlog, -, -, B, hlog', hB⟩ := h
  exact ⟨B, by rw [hlog', hlog]; simp, hB⟩

theorem Underway.broken (h : Underway client i keyId A b v) (hv : Broken client i v v') :
    ∃ B, v'.log = A ++ ⟨i, b, .began keyId⟩ :: B ∧ (∀ e ∈ B, e.author = i → Internal e.mark) ∧
      ∃ e ∈ B, e.author = i ∧ Breaks client e := by
  obtain ⟨-, v₀, hlog, -, honward⟩ := h
  obtain ⟨-, B, hlog', hB⟩ := honward.broken hv
  exact ⟨B, by rw [hlog', hlog]; simp, hB⟩

theorem settlesBy_of_internal (hA : ∀ e ∈ A, e.author ≠ i)
    (hB : ∀ e ∈ B, e.author = i → Internal e.mark) : SettlesBy client i keyId A b B where
  first := hA
  once e he hi keyId' hmark := by
    have hinternal := hB e he hi
    rw [hmark] at hinternal
    exact hinternal
  verdict front t mark back hsplit := by
    have hinternal := hB ⟨i, t, mark⟩ (by rw [hsplit]; simp) rfl
    cases mark with
    | returned key => cases hinternal
    | failed error => cases hinternal
    | _ => trivial

/-- A lookup that ends with what is claimed of it. -/
theorem settles_add (hlog : v.log = A ++ ⟨i, b, .began keyId⟩ :: B) (hA : ∀ e ∈ A, e.author ≠ i)
    (hB : ∀ e ∈ B, e.author = i → Internal e.mark) (hbegan : ∀ keyId, mark ≠ .began keyId)
    (hverdict : Verdict client i keyId A b B mark) : Settles client i keyId (v.add i mark) :=
  ⟨A, b, B ++ [⟨i, v.clock, mark⟩], by simp [hlog],
    (settlesBy_of_internal hA hB).concat (fun _ => hbegan) fun _ => hverdict⟩

theorem Underway.settles (h : Underway client i keyId A b v) : Settles client i keyId v := by
  obtain ⟨B, hlog, hB⟩ := h.entries
  exact ⟨A, b, B, hlog, settlesBy_of_internal h.1 fun e he hi => (hB e he hi).1⟩

/-- It returns a key of the last fetch. -/
theorem Underway.returned (h : Underway client i keyId A b v) {key : Json} {keys : SigningKeys}
    (hserved : Served client b v keys) (hkey : item? keys keyId = some key) :
    Settles client i keyId (v.add i (.returned key)) := by
  obtain ⟨B, hlog, hB⟩ := h.entries
  obtain ⟨fetch, hlast, rfl, hwindow⟩ := hserved
  exact settles_add hlog h.1 (fun e he hi => (hB e he hi).1) (fun _ => nofun)
    ⟨fetch, hlog ▸ hlast, hkey, hwindow⟩

/-- It fails with `OidcProviderError`, having got no reply that it does not expect. -/
theorem Underway.failed_provider (h : Underway client i keyId A b v) :
    Settles client i keyId (v.add i (.failed .provider)) := by
  obtain ⟨B, hlog, hB⟩ := h.entries
  refine settles_add hlog h.1 (fun e he hi => (hB e he hi).1) (fun _ => nofun) fun _ => ?_
  exact ⟨fun _ e he hi => (hB e he hi).2, fun _ => rfl⟩

/-- It fails with anything else, having got such a reply. -/
theorem Underway.failed_broken (h : Underway client i keyId A b v) {error : OidcFailure}
    (hbroken : Broken client i v v') (hne : error ≠ .provider) :
    Settles client i keyId (v'.add i (.failed error)) := by
  obtain ⟨B, hlog, hB, e, he, hi, hbreaks⟩ := h.broken hbroken
  refine settles_add hlog h.1 hB (fun _ => nofun) fun _ => ?_
  exact ⟨fun heq => absurd heq hne, fun hall => absurd hbreaks (hall e he hi)⟩

/-- **Keys were served at one time**, so the window had not passed. -/
theorem not_lapsed {entries more : List (OidcEntry ι)} {keys : SigningKeys}
    (hlog : v.log = A ++ ⟨i, b, .began keyId⟩ :: entries) (hserved : Served client b v keys) :
    ¬Lapsed client A b (entries ++ more) := by
  intro ⟨hnone, hold⟩
  obtain ⟨fetch, hlast, -, hwindow⟩ := hserved
  rw [hlog, lastFetch_append_of_none] at hlast
  · exact absurd hwindow (not_lt.mpr (hold fetch hlast))
  · intro e he
    rcases List.mem_cons.mp he with rfl | hmem
    · rfl
    · exact hnone e (List.mem_append_left more hmem)

/-- The keys were there, and the key id is not one of them. -/
theorem Underway.failed_unknown (h : Underway client i keyId A b v) {keys : SigningKeys}
    (hserved : Served client b v keys) (hv : Onward client i v v') :
    Settles client i keyId (v'.add i (.failed .unknownKey)) := by
  obtain ⟨B, hlog, hB⟩ := h.entries
  obtain ⟨-, more, hlog', hmore⟩ := hv
  have hall : v'.log = A ++ ⟨i, b, .began keyId⟩ :: (B ++ more) := by rw [hlog', hlog]; simp
  refine settles_add hall h.1 ?_ (fun _ => nofun) ?_
  · intro e he hi
    rcases List.mem_append.mp he with hmem | hmem
    · exact (hB e hmem hi).1
    · exact (hmore e hmem hi).1
  · exact fun hlapsed => absurd hlapsed (not_lapsed hlog hserved)

/-! ## 6. Every run -/

/-- What the lookups keep between any two turns. -/
def lookupDiscipline (client : OidcProviderClient) (ι : Type) :
    Discipline OidcState OidcRequest Reply OidcNote OidcFailure Json String ι where
  always := Cached client
  own i keyId v := Settles client i keyId v
  admits _ _ := True
  always_pass _ h := h.pass _
  own_follows hfollows h := h.follows hfollows
  always_cancelled h := h.add rfl
  own_cancelled h := h.cancelled

/-- **`signing_key`** does its part. -/
theorem obeys_signingKey (hcached : Cached client v) (hfirst : ∀ e ∈ v.log, e.author ≠ i) :
    (lookupDiscipline client ι).Obeys i keyId (client.signingKey keyId)
      (v.add i (.began keyId)) := by
  have hbegan : Underway client i keyId v.log v.clock (v.add i (.began keyId)) :=
    ⟨hfirst, v.add i (.began keyId), rfl, le_refl _, .refl⟩
  have hkeeps : ∀ v', Underway client i keyId v.log v.clock v' → Cached client v' →
      (lookupDiscipline client ι).Keeps i keyId v' := fun v' hunder hcached' =>
    ⟨hcached', hunder.settles⟩
  have hserved : ∀ {v₁ v₂ : OidcMoment ι} {keys : SigningKeys},
      Underway client i keyId v.log v.clock v₁ → Served client v₁.clock v₂ keys →
        Served client v.clock v₂ keys := by
    intro v₁ v₂ keys hunder ⟨fetch, hlast, hvalue, hwindow⟩
    exact ⟨fetch, hlast, hvalue, lt_of_le_of_lt hunder.le hwindow⟩
  unfold Discipline.Obeys
  simp only [OidcProviderClient.signingKey, Coroutine.meets_bind]
  refine meets_loadJwks (fun v' honward => hkeeps v' (hbegan.onward honward)) (hcached.add rfl)
    ?_ ?_ ?_
  · intro v₁ keys honward hcached₁ hkeys
    have hunder := hbegan.onward honward
    have hkeys' := hserved hbegan hkeys
    split
    · next key hkey => exact ⟨hcached₁.add rfl, hunder.returned hkeys' hkey⟩
    · -- the key id is not among them
      simp only [Coroutine.meets_bind, Coroutine.meets_readClock, Coroutine.meets_get]
      intro now hnow
      have hpass : Onward client i v₁ (v₁.pass now) := onward_pass hnow
      split
      · simp only [Coroutine.meets_bind, Coroutine.meets_modify, Coroutine.meets_record]
        have hnoted : ∀ {f : OidcState → OidcState}, Onward client i v₁
            (((v₁.pass now).put f).add i (.noted (.refreshing keyId now))) := fun {f} =>
          hpass.trans (onward_put.trans (onward_add trivial id))
        have hunder' : ∀ {f : OidcState → OidcState}, Underway client i keyId v.log v.clock
            (((v₁.pass now).put f).add i (.noted (.refreshing keyId now))) := fun {f} =>
          hunder.onward hnoted
        refine meets_loadJwks (fun v' honward => hkeeps v' (hunder'.onward honward))
          (((hcached₁.pass now).put rfl).add rfl) ?_ ?_ ?_
        · intro v₂ keys' honward₂ hcached₂ hkeys₂
          split
          · next key hkey =>
              exact ⟨hcached₂.add rfl,
                (hunder'.onward honward₂).returned (hserved hunder' hkeys₂) hkey⟩
          · exact ⟨hcached₂.add rfl, hunder.failed_unknown hkeys' (hnoted.trans honward₂)⟩
        · intro v' honward' hcached'
          exact ⟨hcached'.add rfl, (hunder'.onward honward').failed_provider⟩
        · intro v' error hbroken hcached' hne
          exact ⟨hcached'.add rfl, hunder'.failed_broken hbroken hne⟩
      · rw [Coroutine.meets_bind, Coroutine.meets_pure]
        split
        · next key hkey => exact ⟨(hcached₁.pass now).add rfl, (hunder.onward hpass).returned hkeys' hkey⟩
        · exact ⟨(hcached₁.pass now).add rfl, hunder.failed_unknown hkeys' hpass⟩
  · intro v' honward hcached'
    exact ⟨hcached'.add rfl, (hbegan.onward honward).failed_provider⟩
  · intro v' error hbroken hcached' hne
    exact ⟨hcached'.add rfl, hbegan.failed_broken hbroken hne⟩

/-- Where a list is split at two of its entries. -/
theorem append_cons_cases {α : Type} {A B A' B' : List α} {x y : α}
    (h : A ++ x :: B = A' ++ y :: B') :
    (A = A' ∧ x = y ∧ B = B') ∨ (∃ C, A' = A ++ x :: C ∧ B = C ++ y :: B') ∨
      ∃ C, A = A' ++ y :: C ∧ B' = C ++ x :: B := by
  rcases List.append_eq_append_iff.mp h with ⟨mid, hA, hmid⟩ | ⟨mid, hA, hmid⟩
  · cases mid with
    | nil =>
        obtain ⟨rfl, rfl⟩ := List.cons.inj hmid
        exact .inl ⟨by rw [hA, List.append_nil], rfl, rfl⟩
    | cons z mid =>
        obtain ⟨rfl, rfl⟩ := List.cons.inj hmid
        exact .inr (.inl ⟨mid, hA, rfl⟩)
  · cases mid with
    | nil =>
        obtain ⟨rfl, rfl⟩ := List.cons.inj hmid
        exact .inl ⟨by rw [hA, List.append_nil], rfl, rfl⟩
    | cons z mid =>
        obtain ⟨rfl, rfl⟩ := List.cons.inj hmid
        exact .inr (.inr ⟨mid, hA, rfl⟩)

section Runs

variable [DecidableEq ι] {clock : Time} {turns : List (Turn Reply String ι)}
  {w : EventLoop OidcState OidcLock OidcRequest Reply OidcNote OidcFailure Json String ι}

/-- **Every lookup settles**, in every run. -/
theorem settles_of_run (hrun : EventLoop.Interleaving client.signingKey .initial clock turns w)
    {e : OidcEntry ι} (he : e ∈ w.log) : ∃ keyId, Settles client e.author keyId w.toMoment :=
  (Discipline.sound_of_run (D := lookupDiscipline client ι) cached_start
    (fun _ _ _ hcached hfirst => obeys_signingKey hcached hfirst)
    (Discipline.admitted_of_run (fun _ _ => trivial) hrun)).own_of_mem he

/-- **Signing keys are never served past their window.** In every run of any number of
    lookups, with any replies and any clock: a key that is returned for a key id stands
    under it in the document fetched last, and that fetch was started less than its
    seconds and the stale seconds before the lookup began; a lookup that begins when that
    window has passed, and during which nothing is fetched, returns no key, and it fails
    with `OidcProviderError` exactly when it got no reply that it does not expect. -/
theorem signing_keys_fresh
    (hrun : EventLoop.Interleaving client.signingKey .initial clock turns w) :
    (∀ front i t key back, w.log = front ++ ⟨i, t, .returned key⟩ :: back →
      ∃ A b B keyId fetch, front = A ++ ⟨i, b, .began keyId⟩ :: B ∧
        lastFetch client front = some fetch ∧ item? fetch.keys keyId = some key ∧
        b - fetch.since < fetch.seconds + client.staleSeconds) ∧
    ∀ A i b keyId B t mark back,
      w.log = A ++ ⟨i, b, .began keyId⟩ :: (B ++ ⟨i, t, mark⟩ :: back) → Lapsed client A b B →
        (∀ key, mark ≠ .returned key) ∧
        ∀ error, mark = .failed error →
          (error = .provider ↔ ∀ e ∈ B, e.author = i → ¬Breaks client e) := by
  refine ⟨fun front i t key back hlog => ?_, fun A i b keyId B t mark back hlog hlapsed => ?_⟩
  · obtain ⟨keyId, A, b, B, hlog', hsettles⟩ :=
      settles_of_run hrun (e := ⟨i, t, .returned key⟩) (by rw [hlog]; simp)
    rcases append_cons_cases (hlog'.symm.trans hlog) with ⟨-, heq, -⟩ | ⟨C, hfront, hB⟩ | ⟨C, hA, -⟩
    · cases heq
    · obtain ⟨fetch, hlast, hkey, hwindow⟩ := hsettles.verdict C t (.returned key) back hB
      refine ⟨A, b, C, keyId, fetch, hfront, hfront ▸ hlast, hkey, ?_⟩
      rw [Fetch.until] at hwindow
      linarith
    · exact absurd rfl (hsettles.first ⟨i, t, .returned key⟩ (by rw [hA]; simp))
  · obtain ⟨keyId', A', b', B', hlog', hsettles⟩ :=
      settles_of_run hrun (e := ⟨i, b, .began keyId⟩) (by rw [hlog]; simp)
    rcases append_cons_cases (hlog'.symm.trans hlog) with ⟨rfl, heq, hB⟩ | ⟨C, -, hB⟩ | ⟨C, hA, -⟩
    · simp only [Entry.mk.injEq, true_and, Mark.began.injEq] at heq
      obtain ⟨rfl, rfl⟩ := heq
      have hverdict := hsettles.verdict B t mark back hB
      constructor
      · intro key hmark
        rw [hmark] at hverdict
        obtain ⟨fetch, hlast, -, hwindow⟩ := hverdict
        rw [lastFetch_append_of_none] at hlast
        · exact absurd hwindow (not_lt.mpr (hlapsed.2 fetch hlast))
        · intro e he
          rcases List.mem_cons.mp he with rfl | hmem
          · rfl
          · exact hlapsed.1 e hmem
      · intro error hmark
        rw [hmark] at hverdict
        exact hverdict hlapsed
    · exact absurd rfl (hsettles.once ⟨i, b, .began keyId⟩ (by rw [hB]; simp) rfl keyId)
    · exact absurd rfl (hsettles.first ⟨i, b, .began keyId⟩ (by rw [hA]; simp))

end Runs

/-- A client that keeps keys for a minute, and no stale ones. -/
def minuteClient : OidcProviderClient where
  issuer := "https://id"
  cacheSeconds := 60
  staleSeconds := 0
  requireHttps := true
  refusesHost _ := false
  cache_low := by decide
  stale_low := by decide

/-- A discovery document with this address. -/
def discoveryReply (jwksUri : String) : Reply :=
  .response "" (some (.dict [("issuer", .str "https://id"), ("jwks_uri", .str jwksUri)]))

/-- A document with one key. -/
def jwksReply (keyId : String) : Reply :=
  .response "public, max-age=30" (some (.dict [("keys", .list [.dict [("kid", .str keyId)]])]))

/-- What the samples look at: who, what began, what failed, what was fetched. -/
def outline (e : OidcEntry Nat) : Nat × Option String × Option OidcFailure × Bool :=
  (e.author,
    match e.mark with
    | .began keyId => some keyId
    | _ => none,
    match e.mark with
    | .failed error => some error
    | _ => none,
    (fetchOf minuteClient e).isSome)

/-- A key is fetched and returned; a minute later the provider fails. -/
def servedOnce : List (Turn Reply String Nat) :=
  [.begin 0 "a" [0], .resume 0 [], .resume 0 [], .answer 0 (discoveryReply "https://id/keys") [1],
    .answer 0 (jwksReply "a") [2], .begin 1 "a" [70], .resume 1 [], .resume 1 [],
    .answer 1 .httpError [71]]

theorem signing_keys_fresh_sample :
    ∃ w : EventLoop OidcState OidcLock OidcRequest Reply OidcNote OidcFailure Json String Nat,
      w.log.filterMap (fun e => (outline e).2.2.1) = [.provider] ∧
      ∀ front i t key back, w.log = front ++ ⟨i, t, .returned key⟩ :: back →
        ∃ A b B keyId fetch, front = A ++ ⟨i, b, .began keyId⟩ :: B ∧
          lastFetch minuteClient front = some fetch ∧ item? fetch.keys keyId = some key ∧
          b - fetch.since < fetch.seconds + minuteClient.staleSeconds := by
  have hrun : ∃ w : EventLoop OidcState OidcLock OidcRequest Reply OidcNote OidcFailure Json
        String Nat,
      servedOnce.foldlM (EventLoop.turn minuteClient.signingKey) (.start .initial 0) = some w ∧
        w.log.filterMap (fun e => (outline e).2.2.1) = [.provider] := by
    rw [← Option.map_eq_some_iff]
    decide +kernel
  obtain ⟨w, hrun, houtline⟩ := hrun
  exact ⟨w, houtline, (signing_keys_fresh (run_of_foldlM hrun)).1⟩

theorem outline_began {e : OidcEntry Nat} {keyId : String} {fetched : Bool}
    (h : outline e = (0, some keyId, none, fetched)) : ∃ b, e = ⟨0, b, .began keyId⟩ := by
  obtain ⟨author, b, mark⟩ := e
  cases mark <;> simp [outline] at h
  obtain ⟨rfl, rfl, -⟩ := h
  exact ⟨b, rfl⟩

theorem outline_failed {e : OidcEntry Nat} {error : OidcFailure} {fetched : Bool}
    (h : outline e = (0, none, some error, fetched)) : ∃ t, e = ⟨0, t, .failed error⟩ := by
  obtain ⟨author, t, mark⟩ := e
  cases mark <;> simp [outline] at h
  obtain ⟨rfl, rfl, -⟩ := h
  exact ⟨t, rfl⟩

theorem outline_no_fetch {e : OidcEntry Nat} {author : Nat} {began : Option String}
    {failed : Option OidcFailure} (h : outline e = (author, began, failed, false)) :
    fetchOf minuteClient e = none := by
  have hnone : (fetchOf minuteClient e).isSome = false := congrArg (·.2.2.2) h
  rwa [Option.isSome_eq_false_iff, Option.isNone_iff_eq_none] at hnone

/-- The discovery document names an address with an open bracket. -/
def openBracket : List (Turn Reply String Nat) :=
  [.begin 0 "a" [0], .resume 0 [], .resume 0 [], .answer 0 (discoveryReply "https://[") [1]]

/-- **An address that `urlsplit` cannot read** leaves the lookup as a `ValueError`. -/
theorem open_bracket_escapes : ¬ ∀ (client : OidcProviderClient) (clock : Time)
    (turns : List (Turn Reply String Nat))
    (w : EventLoop OidcState OidcLock OidcRequest Reply OidcNote OidcFailure Json String Nat),
    EventLoop.Interleaving client.signingKey .initial clock turns w →
    (∀ front i t key back, w.log = front ++ ⟨i, t, .returned key⟩ :: back →
      ∃ A b B keyId fetch, front = A ++ ⟨i, b, .began keyId⟩ :: B ∧
        lastFetch client front = some fetch ∧ item? fetch.keys keyId = some key ∧
        b - fetch.since < fetch.seconds + client.staleSeconds) ∧
    ∀ A i b keyId B t mark back,
      w.log = A ++ ⟨i, b, .began keyId⟩ :: (B ++ ⟨i, t, mark⟩ :: back) → Lapsed client A b B →
        (∀ key, mark ≠ .returned key) ∧ ∀ error, mark = .failed error → error = .provider := by
  intro h
  have hrun : ∃ w : EventLoop OidcState OidcLock OidcRequest Reply OidcNote OidcFailure Json
        String Nat,
      openBracket.foldlM (EventLoop.turn minuteClient.signingKey) (.start .initial 0) = some w ∧
        w.log.map outline = [(0, some "a", none, false), (0, none, none, false),
          (0, none, none, false), (0, none, some .valueError, false)] := by
    rw [← Option.map_eq_some_iff]
    decide +kernel
  obtain ⟨w, hrun, houtline⟩ := hrun
  have hclaim := (h minuteClient 0 openBracket w (run_of_foldlM hrun)).2
  simp only [List.map_eq_cons_iff, List.map_eq_nil_iff] at houtline
  obtain ⟨began, _, hlog, hbegan, called, _, rfl, hcalled, answered, _, rfl, hanswered, failed, _, rfl,
    hfailed, rfl⟩ := houtline
  obtain ⟨b, rfl⟩ := outline_began hbegan
  obtain ⟨t, rfl⟩ := outline_failed hfailed
  have hlapsed : Lapsed minuteClient ([] : List (OidcEntry Nat)) b [called, answered] := by
    refine ⟨fun e he => ?_, fun fetch hfetch => by cases hfetch⟩
    rcases List.mem_cons.mp he with rfl | he
    · exact outline_no_fetch hcalled
    · obtain rfl := List.mem_singleton.mp he
      exact outline_no_fetch hanswered
  exact absurd ((hclaim [] 0 b "a" [called, answered] t _ [] hlog hlapsed).2 .valueError rfl)
    (by decide)

end Helpdesk.Identity
