/-
  File:      Helpdesk/Identity/UnknownKeys.lean
  Subject:   How often unknown key ids make the client fetch the keys again.

  The throttle of `signing_key` is kept for each key id and is asked outside the lock.
  A lookup that passes it may wait for the lock and for discovery before its fetch
  starts.

  * `Traced`: what the log holds of one lookup: it starts at most one forced fetch, after
    it has passed the throttle, and does nothing once it has ended;
  * `forced_fetches_spaced`: from that alone, forced fetches of all lookups are five
    seconds apart in every run in which no lookup passes the throttle too early.
-/
import Helpdesk.Identity.SigningKeys

namespace Helpdesk.Identity

open Helpdesk.Python Helpdesk.Coroutines

variable {ι : Type}

/-! ## 1. Forced fetches -/

/-- When a forced fetch started, where the entry is the start of one. -/
def forcedStart (e : OidcEntry ι) : Option Time :=
  match e.mark with
  | .called (.jwks _ true) => some e.time
  | _ => none

/-- A lookup passes the throttle. -/
def Refreshing (e : OidcEntry ι) : Prop := ∃ keyId now, e.mark = .noted (.refreshing keyId now)

/-- A lookup ends. -/
def Ends (e : OidcEntry ι) : Prop :=
  match e.mark with
  | .returned _ | .failed _ | .cancelled => True
  | _ => False

/-- **Forced fetches start five seconds apart.** -/
def Spaced (log : List (OidcEntry ι)) : Prop :=
  (log.filterMap forcedStart).Pairwise fun s s' => s + OidcProviderClient.refreshSeconds ≤ s'

/-- **No lookup passes the throttle too early**: whenever one does, the forced fetches of
    all key ids started five seconds ago or longer, and the lookups that passed it before
    have started theirs or have ended. -/
def Unhurried (log : List (OidcEntry ι)) : Prop :=
  ∀ front e back, log = front ++ e :: back → Refreshing e →
    (∀ e' ∈ front, ∀ s ∈ forcedStart e', s + OidcProviderClient.refreshSeconds ≤ e.time) ∧
    ∀ e' ∈ front, Refreshing e' →
      ∃ e'' ∈ front, e''.author = e'.author ∧ (forcedStart e'' ≠ none ∨ Ends e'')

/-- What the log holds of one lookup. -/
structure TracedBy (entries : List (OidcEntry ι)) : Prop where
  admitted : ∀ front e back s, entries = front ++ e :: back → forcedStart e = some s →
    ∃ e' ∈ front, Refreshing e' ∧ e'.time ≤ s
  once : ∀ front e back, entries = front ++ e :: back → forcedStart e ≠ none →
    ∀ e' ∈ back, forcedStart e' = none
  ended : ∀ front e back, entries = front ++ e :: back → Ends e → ∀ e' ∈ back, Ends e'

/-- Where a log with one more entry is split. -/
theorem concat_cases {α : Type} {log front back : List α} {x e : α}
    (h : log ++ [x] = front ++ e :: back) :
    (back = [] ∧ front = log ∧ e = x) ∨ ∃ back', back = back' ++ [x] ∧ log = front ++ e :: back' := by
  rcases append_cons_cases h with ⟨rfl, rfl, rfl⟩ | ⟨C, -, hnil⟩ | ⟨C, hlog, rfl⟩
  · exact .inl ⟨rfl, rfl, rfl⟩
  · cases C <;> cases hnil
  · exact .inr ⟨C, rfl, hlog⟩

theorem tracedBy_nil : TracedBy ([] : List (OidcEntry ι)) where
  admitted front e back s h := by simp at h
  once front e back h := by simp at h
  ended front e back h := by simp at h

/-- One more entry of a lookup that has not ended, or one more end. -/
theorem TracedBy.concat {entries : List (OidcEntry ι)} {x : OidcEntry ι} (h : TracedBy entries)
    (hopen : Ends x ∨ ∀ e ∈ entries, ¬Ends e)
    (hforced : ∀ s, forcedStart x = some s → (∃ e ∈ entries, Refreshing e ∧ e.time ≤ s) ∧
      ∀ e ∈ entries, forcedStart e = none) : TracedBy (entries ++ [x]) where
  admitted front e back s hsplit hstart := by
    rcases concat_cases hsplit with ⟨-, rfl, rfl⟩ | ⟨back', -, hsplit'⟩
    · exact (hforced s hstart).1
    · exact h.admitted front e back' s hsplit' hstart
  once front e back hsplit hstart := by
    rcases concat_cases hsplit with ⟨rfl, -, -⟩ | ⟨back', rfl, hsplit'⟩
    · exact fun e' he' => absurd he' List.not_mem_nil
    · intro e' he'
      rcases List.mem_append.mp he' with hmem | hmem
      · exact h.once front e back' hsplit' hstart e' hmem
      · obtain rfl := List.mem_singleton.mp hmem
        cases hstart' : forcedStart e' with
        | none => rfl
        | some s => exact absurd ((hforced s hstart').2 e (by rw [hsplit']; simp)) hstart
  ended front e back hsplit hends := by
    rcases concat_cases hsplit with ⟨rfl, -, -⟩ | ⟨back', rfl, hsplit'⟩
    · exact fun e' he' => absurd he' List.not_mem_nil
    · intro e' he'
      rcases List.mem_append.mp he' with hmem | hmem
      · exact h.ended front e back' hsplit' hends e' hmem
      · obtain rfl := List.mem_singleton.mp hmem
        exact hopen.resolve_right fun hnone => hnone e (by rw [hsplit']; simp) hends

/-! ## 2. One lookup -/

section Lookup

variable [DecidableEq ι] {client : OidcProviderClient} {i : ι} {v v' : OidcMoment ι}

/-- What the log holds of lookup `i`. -/
def Traced (i : ι) (v : OidcMoment ι) : Prop := TracedBy (v.own i)

/-- The lookup has not started a forced fetch, and has not ended. -/
def Untouched (i : ι) (v : OidcMoment ι) : Prop :=
  Traced i v ∧ ∀ e ∈ v.own i, forcedStart e = none ∧ ¬Ends e

/-- It has passed the throttle besides. -/
def Admitted (i : ι) (v : OidcMoment ι) : Prop :=
  Untouched i v ∧ ∃ e ∈ v.own i, Refreshing e ∧ e.time ≤ v.clock

/-- It has not ended. -/
def Open (i : ι) (v : OidcMoment ι) : Prop := Traced i v ∧ ∀ e ∈ v.own i, ¬Ends e

/-- What stays true whatever the others do and whatever the state becomes. -/
structure Lasting (i : ι) (I : OidcMoment ι → Prop) : Prop where
  traced : ∀ {v}, I v → Traced i v
  pass : ∀ {v t}, v.clock ≤ t → I v → I (v.pass t)
  put : ∀ {v f}, I v → I (v.put f)
  follows : ∀ {v v'}, Moment.Follows i v v' → I v → I v'

theorem lasting_untouched : Lasting i (Untouched (ι := ι) i) where
  traced h := h.1
  pass _ h := h
  put h := h
  follows hfollows h := by
    unfold Untouched Traced at h ⊢
    rwa [hfollows.own]

theorem lasting_open : Lasting i (Open (ι := ι) i) where
  traced h := h.1
  pass _ h := h
  put h := h
  follows hfollows h := by
    unfold Open Traced at h ⊢
    rwa [hfollows.own]

theorem lasting_admitted : Lasting i (Admitted (ι := ι) i) where
  traced h := h.1.1
  pass ht h := by
    obtain ⟨huntouched, e, he, hrefreshing, htime⟩ := h
    exact ⟨huntouched, e, he, hrefreshing, htime.trans ht⟩
  put h := h
  follows hfollows h := by
    obtain ⟨huntouched, e, he, hrefreshing, htime⟩ := h
    refine ⟨lasting_untouched.follows hfollows huntouched, e, ?_, hrefreshing,
      htime.trans hfollows.1⟩
    rwa [hfollows.own]

theorem Admitted.open (h : Admitted i v) : Open i v := ⟨h.1.1, fun e he => (h.1.2 e he).2⟩

theorem Untouched.open (h : Untouched i v) : Open i v := ⟨h.1, fun e he => (h.2 e he).2⟩

/-- An entry that is neither the start of a forced fetch nor an end. -/
theorem Untouched.add (h : Untouched i v) {mark : OidcMark}
    (hforced : forcedStart (⟨i, v.clock, mark⟩ : OidcEntry ι) = none)
    (hends : ¬Ends (⟨i, v.clock, mark⟩ : OidcEntry ι)) : Untouched i (v.add i mark) := by
  refine ⟨?_, fun e he => ?_⟩
  · rw [Traced, Moment.own_add]
    exact h.1.concat (.inr fun e he => (h.2 e he).2) fun s hs => by rw [hforced] at hs; cases hs
  · rw [Moment.own_add] at he
    rcases List.mem_append.mp he with hmem | hmem
    · exact h.2 e hmem
    · obtain rfl := List.mem_singleton.mp hmem
      exact ⟨hforced, hends⟩

theorem Admitted.add (h : Admitted i v) {mark : OidcMark}
    (hforced : forcedStart (⟨i, v.clock, mark⟩ : OidcEntry ι) = none)
    (hends : ¬Ends (⟨i, v.clock, mark⟩ : OidcEntry ι)) : Admitted i (v.add i mark) := by
  obtain ⟨huntouched, e, he, hrefreshing, htime⟩ := h
  refine ⟨huntouched.add hforced hends, e, ?_, hrefreshing, htime⟩
  rw [Moment.own_add]
  exact List.mem_append_left _ he

/-- The lookup passes the throttle. -/
theorem Untouched.refreshing (h : Untouched i v) {keyId : String} {now : Time} :
    Admitted i (v.add i (.noted (.refreshing keyId now))) := by
  refine ⟨h.add rfl id, ⟨i, v.clock, .noted (.refreshing keyId now)⟩, ?_, ⟨keyId, now, rfl⟩,
    le_refl v.clock⟩
  rw [Moment.own_add]
  exact List.mem_append_right _ List.mem_cons_self

/-- It starts its forced fetch. -/
theorem Admitted.forced (h : Admitted i v) {uri : String} :
    Open i (v.add i (.called (.jwks uri true))) := by
  obtain ⟨huntouched, e, he, hrefreshing, htime⟩ := h
  refine ⟨?_, fun e' he' => ?_⟩
  · rw [Traced, Moment.own_add]
    refine huntouched.1.concat (.inr fun e he => (huntouched.2 e he).2) fun s hs => ?_
    obtain rfl := Option.some.inj hs
    exact ⟨⟨e, he, hrefreshing, htime⟩, fun e' he' => (huntouched.2 e' he').1⟩
  · rw [Moment.own_add] at he'
    rcases List.mem_append.mp he' with hmem | hmem
    · exact (huntouched.2 e' hmem).2
    · obtain rfl := List.mem_singleton.mp hmem
      exact id

/-- The reply to a request. -/
theorem Open.answered (h : Open i v) {request : OidcRequest} {reply : Reply} {since : Time} :
    Open i (v.add i (.answered request reply since)) := by
  refine ⟨?_, fun e he => ?_⟩
  · rw [Traced, Moment.own_add]
    exact h.1.concat (.inr h.2) fun s hs => by cases hs
  · rw [Moment.own_add] at he
    rcases List.mem_append.mp he with hmem | hmem
    · exact h.2 e hmem
    · obtain rfl := List.mem_singleton.mp hmem
      exact id

/-- A lookup ends. -/
theorem Traced.ends (h : Traced i v) {mark : OidcMark}
    (hends : Ends (⟨i, v.clock, mark⟩ : OidcEntry ι)) : Traced i (v.add i mark) := by
  have hforced : forcedStart (⟨i, v.clock, mark⟩ : OidcEntry ι) = none := by
    cases mark with
    | called request => cases hends
    | _ => rfl
  rw [Traced, Moment.own_add]
  exact h.concat (.inl hends) fun s hs => by rw [hforced] at hs; cases hs

/-! ## 3. The coroutines -/

section Coroutines

variable {keeps : OidcMoment ι → Prop} {given : OidcMoment ι → Prop}
  {admits : OidcRequest → Reply → Prop} {raises : OidcMoment ι → OidcFailure → Prop}
  {I J : OidcMoment ι → Prop}

/-- **`_fetch_json`**: what holds before the request, and what from then on. -/
theorem lasts_fetchJson {request : OidcRequest}
    {post : OidcMoment ι → List (String × Json) × Int → Prop} (hI : Lasting i I) (hJ : Lasting i J)
    (hkeeps : ∀ v, J v → keeps v) (hcalled : ∀ v, I v → J (v.add i (.called request)))
    (hanswered : ∀ v reply since, J v → J (v.add i (.answered request reply since)))
    (hpost : ∀ v a, J v → post v a) (hraises : ∀ v error, J v → raises v error) (h : I v) :
    (client.fetchJson request).Meets given keeps admits i post raises v := by
  simp only [OidcProviderClient.fetchJson, Coroutine.meets_catchError, Coroutine.meets_bind,
    Coroutine.meets_ask, Coroutine.meets_ofExcept]
  intro since hsince
  have hJ' := hcalled _ (hI.pass hsince h)
  refine ⟨hkeeps _ hJ', fun v' reply hfollows _ _ => ?_⟩
  have hanswer := hanswered v' reply since (hJ.follows hfollows hJ')
  refine ⟨fun a _ => hpost _ a hanswer, fun error _ => ?_⟩
  split
  · exact hraises _ _ hanswer
  · exact hraises _ _ hanswer

/-- **`discovery`** asks for no keys. -/
theorem lasts_discovery {post : OidcMoment ι → Discovery → Prop} (hI : Lasting i I)
    (hkeeps : ∀ v, I v → keeps v) (hcalled : ∀ v, I v → I (v.add i (.called .discovery)))
    (hanswered : ∀ v reply since, I v → I (v.add i (.answered .discovery reply since)))
    (hpost : ∀ v a, I v → post v a) (hraises : ∀ v error, I v → raises v error) (h : I v) :
    client.discovery.Meets given keeps admits i post raises v := by
  simp only [OidcProviderClient.discovery, Coroutine.meets_bind, Coroutine.meets_readClock,
    Coroutine.meets_get]
  intro t ht
  have hpass := hI.pass ht h
  split
  · exact hpost _ _ hpass
  simp only [Coroutine.meets_withLock, Coroutine.meets_bind, Coroutine.meets_readClock,
    Coroutine.meets_get]
  refine ⟨hkeeps _ hpass, fun v₁ hfollows _ now hnow => ?_⟩
  have hlocked := hI.pass hnow (hI.follows hfollows hpass)
  split
  · exact hpost _ _ hlocked
  have hfailure : ∀ v error, I v →
      (staleDiscovery now error).Meets given keeps admits i post raises v := by
    intro v error hv
    unfold staleDiscovery
    split
    · simp only [Coroutine.meets_bind, Coroutine.meets_get]
      split
      · exact hpost _ _ hv
      · exact hraises _ _ hv
    · exact hraises _ _ hv
  simp only [Coroutine.meets_catchError, Coroutine.meets_bind, Coroutine.meets_ofExcept,
    Coroutine.meets_modify, Coroutine.meets_pure]
  refine lasts_fetchJson hI hI hkeeps hcalled hanswered (fun v a hv => ?_) hfailure hlocked
  exact ⟨fun value _ => hpost _ _ (hI.put hv), fun error _ => hfailure v error hv⟩

/-- **`_load_jwks`**: `I` holds until its fetch starts, and `J` from then on. -/
theorem lasts_loadJwks {force : Bool} {post : OidcMoment ι → SigningKeys → Prop}
    (hI : Lasting i I) (hJ : Lasting i J) (hIJ : ∀ v, I v → J v)
    (hkeeps : ∀ v, J v → keeps v) (hcalled : ∀ v, I v → I (v.add i (.called .discovery)))
    (hanswered : ∀ v reply since, I v → I (v.add i (.answered .discovery reply since)))
    (hstarted : ∀ v uri, I v → J (v.add i (.called (.jwks uri force))))
    (hfetched : ∀ v uri reply since, J v → J (v.add i (.answered (.jwks uri force) reply since)))
    (hpost : ∀ v a, J v → post v a) (hraises : ∀ v error, J v → raises v error) (h : I v) :
    (client.loadJwks force).Meets given keeps admits i post raises v := by
  simp only [OidcProviderClient.loadJwks, Coroutine.meets_bind, Coroutine.meets_readClock,
    Coroutine.meets_get]
  intro t ht
  have hpass := hI.pass ht h
  split
  · exact hpost _ _ (hIJ _ hpass)
  simp only [Coroutine.meets_withLock, Coroutine.meets_bind, Coroutine.meets_readClock,
    Coroutine.meets_get]
  refine ⟨hkeeps _ (hIJ _ hpass), fun v₁ hfollows _ now hnow => ?_⟩
  have hlocked := hI.pass hnow (hI.follows hfollows hpass)
  split
  · exact hpost _ _ (hIJ _ hlocked)
  have hfailure : ∀ v error, J v →
      (staleJwks now error).Meets given keeps admits i post raises v := by
    intro v error hv
    unfold staleJwks
    split
    · simp only [Coroutine.meets_bind, Coroutine.meets_get]
      split
      · exact hpost _ _ hv
      · exact hraises _ _ hv
    · exact hraises _ _ hv
  simp only [Coroutine.meets_catchError, Coroutine.meets_bind, Coroutine.meets_ofExcept,
    Coroutine.meets_modify, Coroutine.meets_pure]
  refine lasts_discovery hI (fun v hv => hkeeps v (hIJ v hv)) hcalled hanswered
    (fun v₂ discovery hv₂ => ?_) (fun v error hv => hfailure v error (hIJ v hv)) hlocked
  refine lasts_fetchJson hI hJ hkeeps (fun v => hstarted v _) (fun v => hfetched v _)
    (fun v a hv => ?_) hfailure hv₂
  exact ⟨fun keys _ => hpost _ _ (hJ.put hv), fun error _ => hfailure v error hv⟩

/-- What the lookups keep between any two turns. -/
def traceDiscipline (ι : Type) [DecidableEq ι] :
    Discipline OidcState OidcRequest Reply OidcNote OidcFailure Json String ι where
  always _ := True
  own i _ v := Traced i v
  admits _ _ := True
  always_pass _ h := h
  own_follows hfollows h := by
    unfold Traced at h ⊢
    rwa [hfollows.own]
  always_cancelled h := h
  own_cancelled h := h.ends trivial

/-- **`signing_key`** starts at most one forced fetch, behind the throttle. -/
theorem traced_signingKey {keyId : String} (hfirst : ∀ e ∈ v.log, e.author ≠ i) :
    (traceDiscipline ι).Obeys i keyId (client.signingKey keyId) (v.add i (.began keyId)) := by
  have hnone : v.own i = [] :=
    List.filter_eq_nil_iff.mpr fun e he => by simpa using hfirst e he
  have hstart : Untouched i v := by
    refine ⟨?_, fun e he => ?_⟩
    · rw [Traced, hnone]
      exact tracedBy_nil
    · rw [hnone] at he
      cases he
  have hbegan : Untouched i (v.add i (.began keyId)) := hstart.add rfl id
  have hreturned : ∀ (v : OidcMoment ι) key, Open i v →
      (traceDiscipline ι).Keeps i keyId (v.add i (.returned key)) := fun v key hv =>
    ⟨trivial, hv.1.ends trivial⟩
  have hfailed : ∀ (v : OidcMoment ι) error, Open i v →
      (traceDiscipline ι).Keeps i keyId (v.add i (.failed error)) := fun v error hv =>
    ⟨trivial, hv.1.ends trivial⟩
  unfold Discipline.Obeys
  simp only [OidcProviderClient.signingKey, Coroutine.meets_bind]
  refine lasts_loadJwks lasting_untouched lasting_untouched (fun _ h => h) (fun v h => ⟨trivial, h.1⟩)
    (fun v h => h.add rfl id) (fun v _ _ h => h.add rfl id) (fun v _ h => h.add rfl id)
    (fun v _ _ _ h => h.add rfl id) (fun v₁ keys h => ?_) (fun v error h => hfailed v error h.open)
    hbegan
  split
  · exact hreturned _ _ h.open
  simp only [Coroutine.meets_bind, Coroutine.meets_readClock, Coroutine.meets_get]
  intro now hnow
  have hpass := lasting_untouched.pass hnow h
  split
  · simp only [Coroutine.meets_bind, Coroutine.meets_modify, Coroutine.meets_record]
    refine lasts_loadJwks lasting_admitted lasting_open (fun _ h => h.open)
      (fun v h => ⟨trivial, h.1⟩) (fun v h => h.add rfl id) (fun v _ _ h => h.add rfl id)
      (fun v _ h => h.forced) (fun v _ _ _ h => h.answered) (fun v keys h => ?_) hfailed
      (lasting_untouched.put hpass).refreshing
    split
    · exact hreturned _ _ h
    · exact hfailed _ _ h
  · rw [Coroutine.meets_bind, Coroutine.meets_pure]
    split
    · exact hreturned _ _ hpass.open
    · exact hfailed _ _ hpass.open

end Coroutines

end Lookup

/-! ## 4. Every run -/

/-- A relation that holds of every two places of a list. -/
theorem pairwise_of_splits {α : Type} {R : α → α → Prop} : ∀ {l : List α},
    (∀ A x B y C, l = A ++ x :: (B ++ y :: C) → R x y) → l.Pairwise R
  | [], _ => .nil
  | x :: l, h => by
      refine List.pairwise_cons.mpr ⟨fun y hy => ?_, pairwise_of_splits fun A x' B y C hl => ?_⟩
      · obtain ⟨B, C, rfl⟩ := List.append_of_mem hy
        exact h [] x B y C rfl
      · exact h (x :: A) x' B y C (by rw [hl]; rfl)

variable [DecidableEq ι] {log front back : List (OidcEntry ι)} {e e' : OidcEntry ι}

/-- The entries of one lookup in a log. -/
def entriesOf (i : ι) (log : List (OidcEntry ι)) : List (OidcEntry ι) :=
  log.filter fun e => e.author = i

theorem entriesOf_split (i : ι) (hlog : log = front ++ e :: back) (he : e.author = i) :
    entriesOf i log = entriesOf i front ++ e :: entriesOf i back := by
  rw [hlog, entriesOf, List.filter_append, List.filter_cons_of_pos (by simpa using he)]
  rfl

theorem mem_entriesOf {i : ι} : e ∈ entriesOf i log ↔ e ∈ log ∧ e.author = i := by
  simp [entriesOf]

/-- **A lookup that is to start its fetch has neither started one nor ended.** -/
theorem pending {s : Time} (htraced : TracedBy (entriesOf e.author log))
    (hlog : log = front ++ e :: back) (hstart : forcedStart e = some s) {before : List (OidcEntry ι)}
    (hbefore : ∀ e' ∈ before, e' ∈ front) :
    ¬∃ e' ∈ before, e'.author = e.author ∧ (forcedStart e' ≠ none ∨ Ends e') := by
  intro ⟨e', hmem, hauthor, hdone⟩
  obtain ⟨A, B, rfl⟩ := List.append_of_mem (hbefore e' hmem)
  have hsplit : log = A ++ e' :: (B ++ e :: back) := by rw [hlog]; simp
  have hentries := entriesOf_split e.author hsplit hauthor
  have he : e ∈ entriesOf e.author (B ++ e :: back) :=
    mem_entriesOf.mpr ⟨List.mem_append_right B List.mem_cons_self, rfl⟩
  rcases hdone with hforced | hends
  · rw [htraced.once _ e' _ hentries hforced e he] at hstart
    cases hstart
  · have hend := htraced.ended _ e' _ hentries hends e he
    obtain ⟨author, time, mark⟩ := e
    cases mark with
    | called request => exact hend
    | _ => cases hstart

/-- **One step apart**: of two forced fetches the later one was admitted five seconds after
    the earlier one had started. -/
theorem spaced_of_traced (hall : ∀ e ∈ log, TracedBy (entriesOf e.author log))
    (hunhurried : Unhurried log) : Spaced log := by
  refine List.pairwise_filterMap.mpr (pairwise_of_splits fun A e B e' C hlog s hs s' hs' => ?_)
  have hlog' : log = (A ++ e :: B) ++ e' :: C := by rw [hlog]; simp
  have htraced := hall e (by rw [hlog]; simp)
  have htraced' := hall e' (by rw [hlog']; simp)
  obtain ⟨n', hn', hrefreshing', htime'⟩ := htraced'.admitted _ e' _ s'
    (entriesOf_split e'.author hlog' rfl) hs'
  obtain ⟨n, hn, hrefreshing, -⟩ := htraced.admitted _ e _ s (entriesOf_split e.author hlog rfl) hs
  rw [mem_entriesOf] at hn hn'
  rcases List.mem_append.mp hn'.1 with hA | hB
  · -- both were admitted before the earlier one started
    obtain ⟨A₁, A₂, rfl⟩ := List.append_of_mem hA
    have hsplit' : log = A₁ ++ n' :: (A₂ ++ e :: (B ++ e' :: C)) := by rw [hlog]; simp
    rcases List.mem_append.mp hn.1 with hbefore | hafter
    · have hdone := (hunhurried _ n' _ hsplit' hrefreshing').2 n hbefore hrefreshing
      rw [hn.2] at hdone
      exact absurd hdone (pending htraced hlog hs fun e₁ he₁ => List.mem_append_left _ he₁)
    · rcases List.mem_cons.mp hafter with heq | hafter
      · -- one lookup cannot have started two
        subst heq
        have hmem : e ∈ entriesOf e.author (A₁ ++ n :: A₂ ++ e :: B) := mem_entriesOf.mpr ⟨by simp, rfl⟩
        have hauthor : e.author = e'.author := hn.2.symm.trans hn'.2
        exact absurd ⟨e, by simp, hauthor, .inl (by rw [hs]; nofun)⟩
          (pending htraced' hlog' hs' fun e₁ he₁ => he₁)
      · obtain ⟨A₃, A₄, rfl⟩ := List.append_of_mem hafter
        have hsplit : log = (A₁ ++ n' :: A₃) ++ n :: (A₄ ++ e :: (B ++ e' :: C)) := by rw [hlog]; simp
        have hdone := (hunhurried _ n _ hsplit hrefreshing).2 n' (by simp) hrefreshing'
        rw [hn'.2] at hdone
        refine absurd hdone (pending htraced' hlog' hs' fun e₁ he₁ => ?_)
        rcases List.mem_append.mp he₁ with hmem | hmem
        · simp [hmem]
        · rcases List.mem_cons.mp hmem with rfl | hmem
          · simp
          · simp [hmem]
  · rcases List.mem_cons.mp hB with rfl | hB
    · obtain ⟨keyId, now, hmark⟩ := hrefreshing'
      rw [forcedStart, hmark] at hs
      cases hs
    · obtain ⟨B₁, B₂, rfl⟩ := List.append_of_mem hB
      have hsplit : log = (A ++ e :: B₁) ++ n' :: (B₂ ++ e' :: C) := by rw [hlog]; simp
      exact ((hunhurried _ n' _ hsplit hrefreshing').1 e (by simp) s hs).trans htime'

section Runs

variable {client : OidcProviderClient} {clock : Time} {turns : List (Turn Reply String ι)}
  {w : EventLoop OidcState OidcLock OidcRequest Reply OidcNote OidcFailure Json String ι}

end Runs

/-! ## 5. Two key ids -/

omit [DecidableEq ι] in
theorem exists_of_any {α : Type} {o : Option α} {P : α → Prop} [DecidablePred P]
    (h : (o.any fun a => decide (P a)) = true) : ∃ a, o = some a ∧ P a := by
  obtain ⟨a, ha, hP⟩ := (Option.any_eq_true _ o).mp h
  exact ⟨a, ha, of_decide_eq_true hP⟩

/-- What the samples look at: the start of a forced fetch, and whether it passes the throttle. -/
def throttled (e : OidcEntry Nat) : Option Time × Bool :=
  (forcedStart e,
    match e.mark with
    | .noted (.refreshing _ _) => true
    | _ => false)

omit [DecidableEq ι] in
/-- Where the throttle is passed first, nothing came before it. -/
theorem unhurried_of_pairwise
    (h : log.Pairwise fun e e' => Refreshing e' → forcedStart e = none ∧ ¬Refreshing e) :
    Unhurried log := by
  intro front e back hlog hrefreshing
  rw [hlog, List.pairwise_append] at h
  refine ⟨fun e' he' s hs => ?_, fun e' he' hrefreshing' => ?_⟩
  · rw [(h.2.2 e' he' e List.mem_cons_self hrefreshing).1] at hs
    cases hs
  · exact absurd hrefreshing' (h.2.2 e' he' e List.mem_cons_self hrefreshing).2

/-- The keys are fetched, and an unknown key id makes the client fetch them again. -/
def oneUnknown : List (Turn Reply String Nat) :=
  [.begin 0 "a" [0], .resume 0 [], .resume 0 [], .answer 0 (discoveryReply "https://id/keys") [1],
    .answer 0 (jwksReply "a") [2], .begin 1 "x" [10], .resume 1 [], .answer 1 (jwksReply "a") [11]]

/-- Another one does so two seconds later. -/
def twoUnknown : List (Turn Reply String Nat) :=
  oneUnknown ++ [.begin 2 "y" [12], .resume 2 []]

end Helpdesk.Identity
