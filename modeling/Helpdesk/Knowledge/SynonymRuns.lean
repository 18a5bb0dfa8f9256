/-
  File:      Helpdesk/Knowledge/SynonymRuns.lean
  Subject:   The cap and the lifecycle of synonyms, however many changes run at once, as
             long as they do not outrun what was read without a lock.

  A change counts the term's active expansions and reads the entry's status before it
  waits for anything. What it counted is only still so at its COMMIT when no other change
  opens another expansion of the term meanwhile; the status it checked is only that of
  the row it updates when the row has the version it read. The row's version is checked
  by the UPDATE, so a version that the entry had already when the change began was read
  with it, or has passed.

  * `Registers`: what a COMMIT does to the registry;
  * `governed`: the contract of the changes beside each other;
  * `change_honours`: `change` meets it;
  * **`synonyms_stay_governed`**: under it a term keeps at most ten active expansions and
    every change of a status is allowed;
  * `unlocked_reads_break_cap`: without it, neither.
-/
import Helpdesk.Knowledge.Synonyms

namespace Helpdesk.Knowledge.Synonyms

open Helpdesk.Python Helpdesk.Tickets Helpdesk.Transactions
open Helpdesk.Transactions.Procedure

/-! ## 1. The registry -/

/-- The unique key of the table, and the cap. -/
structure RegistryOk (d : Registry) : Prop where
  keys : (d.synonyms.map (·.key)).Nodup
  cap : ∀ tenantId term, activeExpansionCount tenantId term d ≤ maxActiveExpansions

/-- An UPDATE of one row. -/
def replaced (old new s : Synonym) : Synonym := if s.key = old.key then new else s

section Rows

variable {d d' : Registry} {old new row s s' : Synonym} {tenantId : Uuid} {term : String}

theorem RegistryOk.unique (hok : RegistryOk d) (hs : s ∈ d.synonyms) (hs' : s' ∈ d.synonyms)
    (hkey : s.key = s'.key) : s = s' :=
  (List.nodup_map_iff_inj_on hok.keys.of_map).mp hok.keys s hs s' hs' hkey

theorem mem_of_entry {key : EntryKey} (h : entry key d = some s) : s ∈ d.synonyms ∧ s.key = key := by
  have hkey := List.find?_some h
  exact ⟨List.mem_of_find?_eq_some h, of_decide_eq_true hkey⟩

theorem mem_of_matching {key : EntryKey} {v : Nat} (h : matching key v d = some s) :
    s ∈ d.synonyms ∧ s.key = key ∧ s.rowVersion = v := by
  have hrow := List.find?_some h
  exact ⟨List.mem_of_find?_eq_some h, of_decide_eq_true hrow⟩

theorem entry_eq_none {key : EntryKey} (h : entry key d = none) : ∀ s ∈ d.synonyms, s.key ≠ key := by
  intro s hs hkey
  have hnot := List.find?_eq_none.mp h s hs
  exact hnot (decide_eq_true hkey)

/-- A count over rows of which one is replaced. -/
theorem countP_replaced (p : Synonym → Bool) (new : Synonym) : ∀ {rows : List Synonym},
    (rows.map (·.key)).Nodup → old ∈ rows → (rows.map (replaced old new)).countP p + (if p old then 1 else 0) =
      rows.countP p + if p new then 1 else 0
  | s :: rows, hkeys, hold => by
      rw [List.map_cons, List.nodup_cons] at hkeys
      by_cases hs : s.key = old.key
      · -- this is the row, and no other has its key
        have hrest : ∀ s' ∈ rows, replaced old new s' = s' := by
          intro s' hs'
          refine if_neg fun hkey => hkeys.1 ?_
          rw [hs, ← hkey]
          exact List.mem_map_of_mem hs'
        have hmap : rows.map (replaced old new) = rows := by
          rw [List.map_congr_left hrest, List.map_id']
        obtain rfl : old = s := by
          rcases List.mem_cons.mp hold with heq | hmem
          · exact heq
          · exact absurd (hs ▸ List.mem_map_of_mem hmem) hkeys.1
        rw [List.map_cons, hmap, replaced, if_pos rfl, List.countP_cons, List.countP_cons]
        omega
      · have hmem : old ∈ rows := by
          rcases List.mem_cons.mp hold with heq | hmem
          · exact absurd (heq ▸ rfl) hs
          · exact hmem
        have ih := countP_replaced p new hkeys.2 hmem
        rw [List.map_cons, replaced, if_neg hs, List.countP_cons, List.countP_cons]
        omega

theorem active_replaced (hok : RegistryOk d) (hold : old ∈ d.synonyms)
    (hrows : d'.synonyms = d.synonyms.map (replaced old new)) :
    activeExpansionCount tenantId term d' + (if old.active tenantId term then 1 else 0) =
      activeExpansionCount tenantId term d + if new.active tenantId term then 1 else 0 := by
  unfold activeExpansionCount
  rw [hrows]
  exact countP_replaced _ new hok.keys hold

theorem active_appended (hrows : d'.synonyms = d.synonyms ++ [row]) :
    activeExpansionCount tenantId term d' =
      activeExpansionCount tenantId term d + if row.active tenantId term then 1 else 0 := by
  unfold activeExpansionCount
  rw [hrows, List.countP_append, List.countP_singleton]

theorem keys_replaced (hkey : new.key = old.key) (rows : List Synonym) :
    (rows.map (replaced old new)).map (·.key) = rows.map (·.key) := by
  rw [List.map_map]
  refine List.map_congr_left fun s _ => ?_
  show (replaced old new s).key = s.key
  unfold replaced
  split
  · next hs => rw [hkey, hs]
  · rfl

theorem mem_replaced (hold : old ∈ d.synonyms) (hrows : d'.synonyms = d.synonyms.map (replaced old new)) :
    new ∈ d'.synonyms := by
  rw [hrows]
  exact List.mem_map.mpr ⟨old, hold, if_pos rfl⟩

theorem mem_replaced_of_ne (hs : s ∈ d.synonyms) (hne : s.key ≠ old.key)
    (hrows : d'.synonyms = d.synonyms.map (replaced old new)) : s ∈ d'.synonyms := by
  rw [hrows]
  exact List.mem_map.mpr ⟨s, hs, if_neg hne⟩

end Rows

/-! ## 2. The contract -/

section Contract

variable (lower : String → String)

/-- The entry that a request is about. -/
def ChangeRequest.key? (request : ChangeRequest) : Option EntryKey :=
  request.context.tenantId.map (request.key lower)

/-- **What a COMMIT does to the registry**: nothing; or a new draft where there was room
    for it; or an allowed change of a status, where a retired entry is only reopened when
    there was room for it. -/
inductive Registers (request : ChangeRequest) (held : List Lock) (d d' : Registry) : Prop
  | same (rows : d'.synonyms = d.synonyms)
  | inserted (row : Synonym) (key : request.key? lower = some row.key)
      (lock : .insertion row.key ∈ held) (command : request.command.synonymStatus = .draft)
      (status : row.status = .draft) (fresh : ∀ s ∈ d.synonyms, s.key ≠ row.key)
      (room : activeExpansionCount row.key.tenantId row.key.term d < maxActiveExpansions)
      (rows : d'.synonyms = d.synonyms ++ [row])
  | updated (old new : Synonym) (old_mem : old ∈ d.synonyms)
      (key : request.key? lower = some old.key) (lock : .row old.key ∈ held)
      (new_key : new.key = old.key) (status : new.status = request.command.synonymStatus)
      (version : old.rowVersion < new.rowVersion)
      (allowed : (old.status, new.status) ∈ allowedTransitions)
      (room : old.status = .retired →
        activeExpansionCount old.key.tenantId old.key.term d < maxActiveExpansions)
      (rows : d'.synonyms = d.synonyms.map (replaced old new))

/-- Changes that both may open an expansion, different ones of the same term. -/
def Contend (request other : ChangeRequest) : Prop :=
  ∃ key key', request.key? lower = some key ∧ other.key? lower = some key' ∧
    key.tenantId = key'.tenantId ∧ key.term = key'.term ∧ key ≠ key' ∧
    request.command.synonymStatus = .draft ∧ other.command.synonymStatus = .draft

/-- The row version of the request is one that the entry has had. -/
def VersionKnown (request : ChangeRequest) (d : Registry) : Prop :=
  ∀ key expectedRowVersion, request.key? lower = some key →
    request.command.expectedRowVersion = some expectedRowVersion →
    ∃ s ∈ d.synonyms, s.key = key ∧ expectedRowVersion ≤ s.rowVersion

variable {lower} {request : ChangeRequest} {held : List Lock} {d d' : Registry} {s s' : Synonym}

/-- An entry stays, and its version only grows. -/
theorem Registers.entry_stays (h : Registers lower request held d d') (hok : RegistryOk d)
    (hs : s ∈ d.synonyms) :
    s ∈ d'.synonyms ∨ Lock.row s.key ∈ held ∧
      ∃ s' ∈ d'.synonyms, s'.key = s.key ∧ s.rowVersion < s'.rowVersion := by
  cases h with
  | same rows => exact .inl (rows ▸ hs)
  | inserted row _ _ _ _ _ _ rows =>
      rw [rows]
      exact .inl (List.mem_append_left _ hs)
  | updated old new old_mem _ lock new_key _ version _ _ rows =>
      by_cases hkey : s.key = old.key
      · obtain rfl := hok.unique hs old_mem hkey
        exact .inr ⟨lock, new, mem_replaced old_mem rows, new_key, version⟩
      · exact .inl (mem_replaced_of_ne hs hkey rows)

/-- An allowed change opens no entry but a retired one, and that one as a draft. -/
theorem active_of_allowed {old new : Synonym} {tenantId : Uuid} {term : String}
    (hkey : new.key = old.key) (hallowed : (old.status, new.status) ∈ allowedTransitions)
    (hnew : new.active tenantId term = true) (hold : old.active tenantId term = false) :
    old.status = .retired ∧ new.status = .draft ∧ old.key.tenantId = tenantId ∧
      old.key.term = term := by
  simp only [Synonym.active, decide_eq_true_eq, decide_eq_false_iff_not, hkey] at hnew hold
  obtain ⟨htenant, hterm, hne⟩ := hnew
  have hretired : old.status = .retired := by
    by_contra hactive
    exact hold ⟨htenant, hterm, hactive⟩
  refine ⟨hretired, ?_, htenant, hterm⟩
  rw [hretired] at hallowed
  cases hstatus : new.status with
  | draft => rfl
  | approved => rw [hstatus] at hallowed; exact absurd hallowed (by decide)
  | retired => exact absurd hstatus hne

/-- **What opens an expansion**: a change to a draft, with room for it. -/
theorem Registers.active_le (h : Registers lower request held d d') (hok : RegistryOk d)
    (tenantId : Uuid) (term : String) :
    activeExpansionCount tenantId term d' ≤ activeExpansionCount tenantId term d ∨
      (∃ key, request.key? lower = some key ∧ key.tenantId = tenantId ∧ key.term = term ∧
        request.command.synonymStatus = .draft ∧
        (∃ s ∈ d'.synonyms, s.key = key) ∧
        (∀ s ∈ d.synonyms, s.key = key → ∃ s' ∈ d'.synonyms, s'.key = key ∧
          s.rowVersion < s'.rowVersion)) ∧
      activeExpansionCount tenantId term d < maxActiveExpansions ∧
      activeExpansionCount tenantId term d' ≤ activeExpansionCount tenantId term d + 1 := by
  cases h with
  | same rows =>
      refine .inl (le_of_eq ?_)
      unfold activeExpansionCount
      rw [rows]
  | inserted row key lock command status fresh room rows =>
      have hcount : activeExpansionCount tenantId term d' =
          activeExpansionCount tenantId term d + if row.active tenantId term then 1 else 0 :=
        active_appended rows
      by_cases hactive : row.active tenantId term = true
      · simp only [Synonym.active, decide_eq_true_eq] at hactive
        obtain ⟨rfl, rfl, -⟩ := hactive
        refine .inr ⟨⟨row.key, key, rfl, rfl, command, ⟨row, ?_, rfl⟩, ?_⟩, room, ?_⟩
        · rw [rows]
          exact List.mem_append_right _ List.mem_cons_self
        · exact fun s hs hkey => absurd hkey (fresh s hs)
        · rw [hcount]
          split <;> omega
      · rw [if_neg hactive] at hcount
        exact .inl (le_of_eq hcount)
  | updated old new old_mem key lock new_key status version allowed room rows =>
      have hcount : activeExpansionCount tenantId term d' +
          (if old.active tenantId term then 1 else 0) =
            activeExpansionCount tenantId term d + if new.active tenantId term then 1 else 0 :=
        active_replaced hok old_mem rows
      by_cases hopens : new.active tenantId term = true ∧ old.active tenantId term = false
      · obtain ⟨hretired, hdraft, rfl, rfl⟩ :=
          active_of_allowed new_key allowed hopens.1 hopens.2
        refine .inr ⟨⟨old.key, key, rfl, rfl, status.symm.trans hdraft,
          ⟨new, mem_replaced old_mem rows, new_key⟩, ?_⟩, room hretired, ?_⟩
        · intro s hs hkey
          obtain rfl := hok.unique hs old_mem hkey
          exact ⟨new, mem_replaced old_mem rows, new_key, version⟩
        · rw [hopens.1, hopens.2] at hcount
          simp at hcount
          omega
      · refine .inl ?_
        cases hold : old.active tenantId term with
        | true =>
            rw [hold, if_pos rfl] at hcount
            split at hcount <;> omega
        | false =>
            have hnew : ¬ new.active tenantId term = true := fun hnew => hopens ⟨hnew, hold⟩
            rw [if_neg hnew] at hcount
            omega

theorem Registers.kept (h : Registers lower request held d d') (hok : RegistryOk d) :
    RegistryOk d' where
  keys := by
    cases h with
    | same rows => rw [rows]; exact hok.keys
    | inserted row _ _ _ _ fresh _ rows =>
        rw [rows, List.map_append, List.nodup_append]
        refine ⟨hok.keys, List.nodup_singleton _, ?_⟩
        intro key hkey key' hkey' heq
        obtain ⟨s, hs, rfl⟩ := List.mem_map.mp hkey
        obtain rfl : key' = row.key := by simpa using hkey'
        exact fresh s hs heq
    | updated old new _ _ _ new_key _ _ _ _ rows =>
        rw [rows, keys_replaced new_key]
        exact hok.keys
  cap tenantId term := by
    have hcap := hok.cap tenantId term
    rcases h.active_le hok tenantId term with hle | ⟨-, hroom, hle⟩
    · omega
    · omega

theorem RegistryOk.congr (hok : RegistryOk d) (hrows : d'.synonyms = d.synonyms) : RegistryOk d' where
  keys := by
    rw [hrows]
    exact hok.keys
  cap tenantId term := by
    unfold activeExpansionCount
    rw [hrows]
    exact hok.cap tenantId term

/-- A version that the entry has had, it has had ever since. -/
theorem Registers.versionKnown {other : ChangeRequest} (h : Registers lower other held d d')
    (hok : RegistryOk d) (hknown : VersionKnown lower request d) : VersionKnown lower request d' := by
  intro key expectedRowVersion hkey hexpected
  obtain ⟨s, hs, rfl, hle⟩ := hknown key expectedRowVersion hkey hexpected
  rcases h.entry_stays hok hs with hs' | ⟨-, s', hs', hkey', hlt⟩
  · exact ⟨s, hs', rfl, hle⟩
  · exact ⟨s', hs', hkey', hle.trans (le_of_lt hlt)⟩

variable (lower)

/-- **The contract of the changes**: two that contend never run together, and each names
    a row version that its entry has had. -/
def governed : Contract Registry Lock ChangeRequest where
  always := RegistryOk
  guarantee := Registers lower
  apart := Contend lower
  elsewhere d d' := d'.synonyms = d.synonyms
  starts request d := RegistryOk d ∧ VersionKnown lower request d
  kept h hok := h.kept hok
  keptElsewhere h hok := hok.congr h
  startsKept h hstarts := ⟨h.kept hstarts.1, h.versionKnown hstarts.1 hstarts.2⟩
  startsElsewhere h hstarts := ⟨hstarts.1.congr h, by
    unfold VersionKnown
    rw [h]
    exact hstarts.2⟩

end Contract

/-! ## 3. What the others leave true -/

section Stability

variable {lower : String → String} {request : ChangeRequest} {held : List Lock} {d d' : Registry}
  {key : EntryKey} {previous : Synonym}

/-- There is room for another expansion, or the entry is there. -/
def Room (key : EntryKey) (d : Registry) : Prop :=
  activeExpansionCount key.tenantId key.term d < maxActiveExpansions ∨ ∃ s ∈ d.synonyms, s.key = key

/-- No entry has the key. -/
def Fresh (key : EntryKey) (d : Registry) : Prop := ∀ s ∈ d.synonyms, s.key ≠ key

/-- The entry is as it was read, or has a later version. -/
def Seen (previous : Synonym) (d : Registry) : Prop :=
  ∃ s ∈ d.synonyms, s.key = previous.key ∧ (s = previous ∨ previous.rowVersion < s.rowVersion)

/-- A retired entry as it was read has room to be reopened. -/
def Reopenable (previous : Synonym) (d : Registry) : Prop :=
  previous.status = .retired →
    activeExpansionCount previous.key.tenantId previous.key.term d < maxActiveExpansions ∨
      ∃ s ∈ d.synonyms, s.key = previous.key ∧ previous.rowVersion < s.rowVersion

/-- What another session may commit. -/
theorem interferes_cases (h : (governed lower).Interferes request held d d') :
    d'.synonyms = d.synonyms ∨ ∃ other held', ¬ Contend lower request other ∧
      (∀ k ∈ held', k ∉ held) ∧ Registers lower other held' d d' := h

/-- **Beside a change to a draft** the count only grows by the same entry. -/
theorem room_of_interferes (h : (governed lower).Interferes request held d d') (hok : RegistryOk d)
    (hkey : request.key? lower = some key) (hdraft : request.command.synonymStatus = .draft)
    (hroom : activeExpansionCount key.tenantId key.term d < maxActiveExpansions) :
    activeExpansionCount key.tenantId key.term d' < maxActiveExpansions ∨
      (∃ s ∈ d'.synonyms, s.key = key) ∧ ∀ s ∈ d.synonyms, s.key = key →
        ∃ s' ∈ d'.synonyms, s'.key = key ∧ s.rowVersion < s'.rowVersion := by
  rcases interferes_cases h with hrows | ⟨other, held', hapart, -, hregisters⟩
  · refine .inl ?_
    unfold activeExpansionCount at hroom ⊢
    rw [hrows]
    exact hroom
  · rcases hregisters.active_le hok key.tenantId key.term with
      hle | ⟨⟨key', hkey', htenant, hterm, hother, hthere, hversion⟩, -, -⟩
    · exact .inl (lt_of_le_of_lt hle hroom)
    · by_cases hsame : key = key'
      · subst hsame
        exact .inr ⟨hthere, hversion⟩
      · exact absurd ⟨key, key', hkey, hkey', htenant.symm, hterm.symm, hsame, hdraft, hother⟩ hapart

theorem stays_of_interferes (h : (governed lower).Interferes request held d d') (hok : RegistryOk d)
    {s : Synonym} (hs : s ∈ d.synonyms) :
    s ∈ d'.synonyms ∨ Lock.row s.key ∉ held ∧
      ∃ s' ∈ d'.synonyms, s'.key = s.key ∧ s.rowVersion < s'.rowVersion := by
  rcases interferes_cases h with hrows | ⟨other, held', -, hdisjoint, hregisters⟩
  · rw [hrows]
    exact .inl hs
  · rcases hregisters.entry_stays hok hs with hs' | ⟨hlock, hlater⟩
    · exact .inl hs'
    · exact .inr ⟨hdisjoint _ hlock, hlater⟩

theorem stable_room (hkey : request.key? lower = some key)
    (hdraft : request.command.synonymStatus = .draft) :
    (governed lower).Stable request held (Room key) := by
  rintro d d' h hok (hroom | ⟨s, hs, rfl⟩)
  · rcases room_of_interferes h hok hkey hdraft hroom with hroom' | ⟨hthere, -⟩
    · exact .inl hroom'
    · exact .inr hthere
  · rcases stays_of_interferes h hok hs with hs' | ⟨-, s', hs', hkey', -⟩
    · exact .inr ⟨s, hs', rfl⟩
    · exact .inr ⟨s', hs', hkey'⟩

theorem stable_fresh (hlock : Lock.insertion key ∈ held) :
    (governed lower).Stable request held (Fresh key) := by
  intro d d' h hok hfresh
  rcases interferes_cases h with hrows | ⟨other, held', -, hdisjoint, hregisters⟩
  · unfold Fresh
    rw [hrows]
    exact hfresh
  · intro s hs hkey
    cases hregisters with
    | same rows => exact hfresh s (rows ▸ hs) hkey
    | inserted row _ lock _ _ _ _ rows =>
        rw [rows] at hs
        rcases List.mem_append.mp hs with hold | hnew
        · exact hfresh s hold hkey
        · obtain rfl := List.mem_singleton.mp hnew
          exact hdisjoint _ lock (hkey ▸ hlock)
    | updated old new old_mem _ _ new_key _ _ _ _ rows =>
        rw [rows] at hs
        obtain ⟨s₀, hs₀, rfl⟩ := List.mem_map.mp hs
        unfold replaced at hkey
        split at hkey
        · exact hfresh old old_mem (new_key.symm.trans hkey)
        · exact hfresh s₀ hs₀ hkey

theorem stable_seen : (governed lower).Stable request held (Seen previous) := by
  rintro d d' h hok ⟨s, hs, hkey, hsame | hlater⟩
  · subst hsame
    rcases stays_of_interferes h hok hs with hs' | ⟨-, s', hs', hkey', hlt⟩
    · exact ⟨s, hs', rfl, .inl rfl⟩
    · exact ⟨s', hs', hkey', .inr hlt⟩
  · rcases stays_of_interferes h hok hs with hs' | ⟨-, s', hs', hkey', hlt⟩
    · exact ⟨s, hs', hkey, .inr hlater⟩
    · exact ⟨s', hs', hkey'.trans hkey, .inr (hlater.trans hlt)⟩

/-- What was read and counted for a reopening. -/
theorem stable_reopenable (hkey : request.key? lower = some previous.key)
    (hdraft : previous.status = .retired → request.command.synonymStatus = .draft) :
    (governed lower).Stable request held fun d => Seen previous d ∧ Reopenable previous d := by
  rintro d d' h hok ⟨hseen, hreopenable⟩
  refine ⟨stable_seen d d' h hok hseen, fun hretired => ?_⟩
  obtain ⟨s, hs, hskey, hsame⟩ := hseen
  rcases hreopenable hretired with hroom | ⟨s₀, hs₀, hkey₀, hlater⟩
  · rcases room_of_interferes h hok hkey (hdraft hretired) hroom with hroom' | ⟨-, hversion⟩
    · exact .inl hroom'
    · obtain ⟨s', hs', hkey', hlt⟩ := hversion s hs hskey
      refine .inr ⟨s', hs', hkey', ?_⟩
      rcases hsame with rfl | hlater
      · exact hlt
      · exact hlater.trans hlt
  · rcases stays_of_interferes h hok hs₀ with hs' | ⟨-, s', hs', hkey', hlt⟩
    · exact .inr ⟨s₀, hs', hkey₀, hlater⟩
    · exact .inr ⟨s', hs', hkey'.trans hkey₀, hlater.trans hlt⟩

/-- Under its row's lock the entry stays as it was read, with its room. -/
theorem stable_current (hkey : request.key? lower = some previous.key)
    (hdraft : previous.status = .retired → request.command.synonymStatus = .draft)
    (hlock : Lock.row previous.key ∈ held) :
    (governed lower).Stable request held fun d => previous ∈ d.synonyms ∧
      (previous.status = .retired →
        activeExpansionCount previous.key.tenantId previous.key.term d < maxActiveExpansions) := by
  rintro d d' h hok ⟨hcurrent, hroom⟩
  have hok' : RegistryOk d' := h.always hok
  have hcurrent' : previous ∈ d'.synonyms := by
    rcases stays_of_interferes h hok hcurrent with hs' | ⟨hnot, -⟩
    · exact hs'
    · exact absurd hlock hnot
  refine ⟨hcurrent', fun hretired => ?_⟩
  rcases room_of_interferes h hok hkey (hdraft hretired) (hroom hretired) with hroom' | ⟨-, hversion⟩
  · exact hroom'
  · obtain ⟨s', hs', hkey', hlt⟩ := hversion previous hcurrent rfl
    obtain rfl := hok'.unique hs' hcurrent' hkey'
    exact absurd hlt (lt_irrefl _)

end Stability

/-! ## 4. The changes meet the contract -/

section Calls

variable {lower : String → String} {requestHash : EntryKey → SynonymCommand → String}
  {request : ChangeRequest} {key : EntryKey} {userId recordId : Uuid}
  {p : Place Registry Lock Statement}

/-- A place before the registry is changed. -/
structure Ready (lower : String → String) (request : ChangeRequest)
    (p : Place Registry Lock Statement) : Prop where
  stable : (governed lower).Stable request p.held p.known
  rows : ∀ d : Registry, (pending d p.changes).synonyms = d.synonyms

/-- What is left to do is to write and to commit: no exception matters. -/
abbrev Safely (lower : String → String) (request : ChangeRequest) {α : Type} (x : SynonymCall α)
    (p : Place Registry Lock Statement) (post : Place Registry Lock Statement → α → Prop) : Prop :=
  x.Meets (governed lower) request p post fun _ _ => True

theorem Ready.entry (hp : Ready lower request p) (d : Registry) (key : EntryKey) :
    Synonyms.entry key (pending d p.changes) = Synonyms.entry key d := by
  unfold Synonyms.entry
  rw [hp.rows]

theorem Ready.active (hp : Ready lower request p) (d : Registry) (tenantId : Uuid) (term : String) :
    activeExpansionCount tenantId term (pending d p.changes) = activeExpansionCount tenantId term d := by
  unfold activeExpansionCount
  rw [hp.rows]

theorem Ready.matching (hp : Ready lower request p) (d : Registry) (key : EntryKey) (v : Nat) :
    Synonyms.matching key v (pending d p.changes) = Synonyms.matching key v d := by
  unfold Synonyms.matching
  rw [hp.rows]

theorem pending_append (d : Registry) (changes : List Statement) (x : Statement) :
    pending d (changes ++ [x]) = (pending d changes).change x := by
  unfold pending
  rw [List.foldl_append]
  rfl

/-- **The cap**, and what the count is good for. -/
theorem meets_enforceExpansionCap {A : Registry → Prop} {post : Place Registry Lock Statement → Unit → Prop}
    (hp : Ready lower request p) (hA : (governed lower).Stable request p.held A)
    (hroom : ∀ d, p.known d →
      activeExpansionCount key.tenantId key.term d < maxActiveExpansions → A d)
    (hpost : Ready lower request { p with known := A } → post { p with known := A } ()) :
    Safely lower request (enforceExpansionCap key) p post := by
  unfold Safely enforceExpansionCap
  rw [meets_bind, meets_query]
  intro d _ hd
  rw [hp.active]
  by_cases hcount : activeExpansionCount key.tenantId key.term d < maxActiveExpansions
  · refine ⟨A, hA, hroom d hd hcount, ?_⟩
    rw [meets_check]
    exact ⟨fun _ => hpost ⟨hA, hp.rows⟩, fun _ => trivial⟩
  · refine ⟨p.known, hp.stable, hd, ?_⟩
    rw [meets_check]
    exact ⟨fun hlt => absurd hlt hcount, fun _ => trivial⟩

/-- A place where one statement has changed the registry as the contract allows. -/
def Written (lower : String → String) (request : ChangeRequest)
    (p : Place Registry Lock Statement) : Prop :=
  ∀ d, RegistryOk d → p.known d → ∀ d', d'.synonyms = (pending d p.changes).synonyms →
    Registers lower request p.held d d'

theorem meets_insertEntry (hp : Ready lower request p) (hkey : request.key? lower = some key)
    (hdraft : request.command.synonymStatus = .draft) (hroom : ∀ d, p.known d → Room key d) :
    Safely lower request (insertEntry request key userId) p fun q row =>
      row ≠ none → Written lower request q := by
  unfold Safely insertEntry
  rw [meets_bind, meets_acquire, meets_bind, meets_query]
  intro d hok hd
  rw [hp.entry]
  have hstable : (governed lower).Stable request (.insertion key :: p.held) p.known :=
    hp.stable.mono fun k hk => List.mem_cons_of_mem _ hk
  cases hentry : entry key d with
  | some s => exact ⟨p.known, hstable, hd, fun hne => absurd rfl hne⟩
  | none =>
      refine ⟨_, hstable.and (stable_fresh List.mem_cons_self), ⟨hd, entry_eq_none hentry⟩, ?_⟩
      show Safely lower request (do
        write _
        return _) _ _
      unfold Safely
      rw [meets_bind, meets_write]
      rintro - d hok ⟨hknown, hfresh⟩ d' hrows
      have hnone : ¬ (pending d p.changes).synonyms.any (·.key = key) = true := by
        rw [hp.rows, List.any_eq_true]
        rintro ⟨s, hs, hskey⟩
        exact hfresh s hs (of_decide_eq_true hskey)
      rw [pending_append, Registry.change, if_neg hnone] at hrows
      refine .inserted ⟨request.newSynonymId, key, request.command.synonymStatus,
        request.command.synonymNote, userId, request.startedAt, 1⟩ hkey List.mem_cons_self hdraft
        hdraft hfresh ?_ ?_
      · rcases hroom d hknown with hroom | ⟨s, hs, hskey⟩
        · exact hroom
        · exact absurd hskey (hfresh s hs)
      · rw [hrows, hp.rows]

theorem meets_insertNew {previous : Option Synonym} (hp : Ready lower request p)
    (hkey : request.key? lower = some key) :
    Safely lower request (insertNew request key userId previous) p fun q row =>
      row ≠ none → Written lower request q := by
  unfold Safely insertNew
  rw [meets_bind, meets_check]
  refine ⟨fun _ => ?_, fun _ => trivial⟩
  rw [meets_bind, meets_check]
  refine ⟨fun hdraft => ?_, fun _ => trivial⟩
  rw [meets_bind]
  exact meets_enforceExpansionCap hp (stable_room hkey hdraft) (fun d _ hroom => .inl hroom)
    fun hq => meets_insertEntry hq hkey hdraft fun d hd => hd

/-- The UPDATE of an entry replaces its row. -/
theorem map_updated {d : Registry} {previous : Synonym} {status : SynonymStatus} {note : Option String}
    {decidedAt : Instant} (hok : RegistryOk d) (hprevious : previous ∈ d.synonyms) :
    d.synonyms.map (updated previous.key previous.rowVersion status note userId decidedAt) =
      d.synonyms.map (replaced previous
        (updated previous.key previous.rowVersion status note userId decidedAt previous)) := by
  refine List.map_congr_left fun s hs => ?_
  unfold replaced
  split
  · next hkey => rw [hok.unique hs hprevious hkey]
  · next hkey =>
      unfold updated
      exact if_neg fun h => hkey h.1

theorem meets_updateEntry {previous : Synonym} {expectedRowVersion : Nat}
    (hp : Ready lower request p) (hkey : request.key? lower = some previous.key)
    (hallowed : (previous.status, request.command.synonymStatus) ∈ allowedTransitions)
    (hdraft : previous.status = .retired → request.command.synonymStatus = .draft)
    (hexpected : expectedRowVersion ≤ previous.rowVersion)
    (hknown : ∀ d, p.known d → Seen previous d ∧ Reopenable previous d) :
    Safely lower request (updateEntry request previous.key userId expectedRowVersion) p fun q row =>
      row ≠ none → Written lower request q := by
  unfold Safely updateEntry
  rw [meets_bind]
  refine meets_query_result hp.stable fun d _ _ => ?_
  split
  · exact fun hne => absurd rfl hne
  · rw [meets_bind, meets_acquire, meets_bind, meets_query]
    intro d hok hd
    rw [hp.matching]
    have hstable : (governed lower).Stable request (.row previous.key :: p.held) p.known :=
      hp.stable.mono fun k hk => List.mem_cons_of_mem _ hk
    cases hmatching : matching previous.key expectedRowVersion d with
    | none => exact ⟨p.known, hstable, hd, fun hne => absurd rfl hne⟩
    | some row =>
        obtain ⟨hmem, hrow⟩ := mem_of_matching hmatching
        obtain ⟨⟨s, hs, hskey, hsame⟩, hreopenable⟩ := hknown d hd
        -- the row has the version that was read, so it is the row that was read
        obtain rfl : row = previous := by
          obtain rfl := hok.unique hmem hs (hrow.1.trans hskey.symm)
          rcases hsame with heq | hlater
          · exact heq
          · have hversion := hrow.2
            omega
        have hroom : row.status = .retired →
            activeExpansionCount row.key.tenantId row.key.term d < maxActiveExpansions := by
          intro hretired
          rcases hreopenable hretired with hroom | ⟨s', hs', hkey', hlater⟩
          · exact hroom
          · obtain rfl := hok.unique hs' hmem hkey'
            exact absurd hlater (lt_irrefl _)
        refine ⟨_, stable_current hkey hdraft List.mem_cons_self, ⟨hmem, hroom⟩, ?_⟩
        show Safely lower request (do
          write _
          return _) _ _
        unfold Safely
        rw [meets_bind, meets_write]
        rintro - d hok ⟨hcurrent, hroom⟩ d' hrows
        rw [pending_append, Registry.change, hp.rows, ← hrow.2, map_updated hok hcurrent] at hrows
        refine .updated row _ hcurrent hkey List.mem_cons_self ?_ ?_ ?_ ?_ hroom hrows
        all_goals simp [updated, hallowed]

/-- A retired entry may only become a draft. -/
theorem draft_of_retired {status : SynonymStatus}
    (h : (SynonymStatus.retired, status) ∈ allowedTransitions) : status = .draft := by
  cases status with
  | draft => rfl
  | approved => exact absurd h (by decide)
  | retired => exact absurd h (by decide)

theorem meets_updateKnown {previous : Synonym} {expectedRowVersion : Nat}
    (hp : Ready lower request p) (hkey : request.key? lower = some previous.key)
    (hexpected : expectedRowVersion ≤ previous.rowVersion) (hseen : ∀ d, p.known d → Seen previous d) :
    Safely lower request
      (updateKnown request previous.key userId (some previous) expectedRowVersion) p fun q row =>
        row ≠ none → Written lower request q := by
  unfold Safely updateKnown
  rw [meets_bind, meets_check]
  refine ⟨fun hall => ?_, fun _ => trivial⟩
  have hallowed := hall previous rfl
  have hdraft : previous.status = .retired → request.command.synonymStatus = .draft :=
    fun hretired => draft_of_retired (hretired ▸ hallowed)
  rw [meets_bind, guardReopening]
  by_cases hretired : previous.status = .retired
  · have hany : (some previous).any (·.status = .retired) = true := decide_eq_true hretired
    rw [if_pos hany]
    exact meets_enforceExpansionCap hp (stable_reopenable hkey hdraft)
      (fun d hd hroom => ⟨hseen d hd, fun _ => .inl hroom⟩)
      fun hq => meets_updateEntry hq hkey hallowed hdraft hexpected fun d hd => hd
  · have hnot : ¬ (some previous).any (·.status = .retired) = true := fun h =>
      hretired (of_decide_eq_true h)
    rw [if_neg hnot]
    exact meets_updateEntry hp hkey hallowed hdraft hexpected fun d hd =>
      ⟨hseen d hd, fun h => absurd h hretired⟩

/-- The COMMIT of what was written. -/
theorem meets_finish {row : Option Synonym} (hp : row ≠ none → Written lower request p) :
    Safely lower request (do
      let row ← demand row (conflict "Synonym entry was changed concurrently; reload and retry.")
      write (.complete recordId row.synonymId)
      save
      return (⟨row, false⟩ : SynonymResponse)) p fun _ _ => True := by
  unfold Safely
  rw [meets_bind, meets_demand]
  refine ⟨fun s hs => ?_, fun _ => trivial⟩
  have hwritten := hp (by rw [hs]; nofun)
  rw [meets_bind, meets_write, meets_bind, meets_save]
  intro d hok hd
  rw [pending_append]
  exact ⟨hwritten d hok hd _ rfl, fun _ => True, Contract.stable_true, trivial, trivial⟩

/-- The part of `change` after its key is claimed. -/
theorem meets_changeEntry (hp : Ready lower request p) (hkey : request.key? lower = some key)
    (hknown : ∀ d, p.known d → RegistryOk d ∧ VersionKnown lower request d) :
    Safely lower request (changeEntry request key userId recordId) p fun _ _ => True := by
  unfold Safely changeEntry
  rw [meets_bind, meets_query]
  intro d hok hd
  rw [hp.entry]
  cases hexpected : request.command.expectedRowVersion with
  | none =>
      refine ⟨p.known, hp.stable, hd, ?_⟩
      rw [meets_bind]
      exact (meets_insertNew hp hkey).imp (fun q row hq => meets_finish hq) fun _ _ _ => trivial
  | some expectedRowVersion =>
      -- the entry has had the version, so it is there
      obtain ⟨s, hs, rfl, hle⟩ := (hknown d hd).2 key expectedRowVersion hkey hexpected
      cases hentry : entry s.key d with
      | none => exact absurd rfl (entry_eq_none hentry s hs)
      | some previous =>
          obtain ⟨hmem, hsame⟩ := mem_of_entry hentry
          obtain rfl := hok.unique hmem hs hsame
          refine ⟨Seen previous, stable_seen, ⟨previous, hmem, rfl, .inl rfl⟩, ?_⟩
          rw [meets_bind]
          have hq : Ready lower request { p with known := Seen previous } := ⟨stable_seen, hp.rows⟩
          exact (meets_updateKnown hq hkey hle fun d hd => hd).imp
            (fun q row hq => meets_finish hq) fun _ _ _ => trivial

theorem meets_replay (hp : Ready lower request p) :
    Safely lower request (replay key) p fun _ _ => True := by
  unfold Safely replay
  rw [meets_bind]
  refine meets_query_result hp.stable fun d _ _ => ?_
  rw [meets_bind, meets_demand]
  refine ⟨fun row _ => ?_, fun _ => trivial⟩
  rw [meets_bind, meets_save]
  exact fun d _ _ => ⟨.same (hp.rows d), fun _ => True, Contract.stable_true, trivial, trivial⟩

theorem rows_claim (d : Registry) (record : ClaimRecord) :
    (d.change (.claim record)).synonyms = d.synonyms := by
  rw [Registry.change]
  split <;> rfl

theorem meets_claimIdempotency {record : ClaimRecord} {post : Place Registry Lock Statement → ClaimRecord → Prop}
    (hp : Ready lower request p)
    (hpost : ∀ q claim, Ready lower request q → q.known = p.known → post q claim) :
    Safely lower request (claimIdempotency record) p post := by
  unfold Safely claimIdempotency
  rw [meets_bind, meets_acquire, meets_bind, meets_write, meets_bind]
  have hstable : (governed lower).Stable request
      (.idempotency record.tenantId record.idempotencyKey :: p.held) p.known :=
    hp.stable.mono fun k hk => List.mem_cons_of_mem _ hk
  refine meets_query_result hstable fun d _ _ => ?_
  rw [meets_demand]
  refine ⟨fun claim _ => hpost _ claim ⟨hstable, fun d => ?_⟩ rfl, fun _ => trivial⟩
  rw [pending_append, rows_claim, hp.rows]

end Calls

/-- **`change` meets the contract.** -/
theorem change_honours (lower : String → String)
    (requestHash : EntryKey → SynonymCommand → String) :
    Honours (governed lower) (change lower requestHash) (fun _ _ _ => True) fun _ _ _ => True := by
  intro request
  have hready : Ready lower request (.fresh ((governed lower).starts request)) :=
    ⟨Contract.stable_starts, fun _ => rfl⟩
  unfold change
  rw [meets_bind, meets_ofExcept]
  refine ⟨fun _ _ => ?_, fun _ _ => trivial⟩
  rw [meets_bind, meets_ofExcept]
  refine ⟨fun ⟨tenantId, userId⟩ hidentity => ?_, fun _ _ => trivial⟩
  have hkey : request.key? lower = some (request.key lower tenantId) := by
    unfold identity at hidentity
    split at hidentity
    · next htenant _ =>
        obtain ⟨rfl, -⟩ := Prod.mk.inj (Except.ok.inj hidentity)
        rw [ChangeRequest.key?, htenant, Option.map_some]
    · cases hidentity
  rw [meets_bind, meets_check]
  refine ⟨fun _ => ?_, fun _ => trivial⟩
  rw [meets_bind]
  refine meets_claimIdempotency hready fun q claim hq hknown => ?_
  unfold validateClaim
  rw [meets_bind, meets_bind, meets_check]
  refine ⟨fun _ => ?_, fun _ => trivial⟩
  rw [meets_check]
  refine ⟨fun _ => ?_, fun _ => trivial⟩
  split
  · exact meets_replay hq
  · refine meets_changeEntry hq hkey fun d hd => ?_
    rw [hknown] at hd
    exact hd

/-! ## 5. The cap and the lifecycle -/

/-- Every change of a status is an allowed one. -/
def FollowsLifecycle (d d' : Registry) : Prop :=
  ∀ s ∈ d.synonyms, ∀ s' ∈ d'.synonyms, s'.key = s.key →
    s' = s ∨ (s.status, s'.status) ∈ allowedTransitions

theorem Registers.followsLifecycle {lower : String → String} {request : ChangeRequest}
    {held : List Lock} {d d' : Registry} (h : Registers lower request held d d') (hok : RegistryOk d) :
    FollowsLifecycle d d' := by
  intro s hs s' hs' hkey
  cases h with
  | same rows => exact .inl (hok.unique (rows ▸ hs') hs hkey)
  | inserted row _ _ _ _ fresh _ rows =>
      rw [rows] at hs'
      rcases List.mem_append.mp hs' with hold | hnew
      · exact .inl (hok.unique hold hs hkey)
      · obtain rfl := List.mem_singleton.mp hnew
        exact absurd hkey.symm (fresh s hs)
  | updated old new old_mem _ _ new_key _ _ allowed _ rows =>
      rw [rows] at hs'
      obtain ⟨s₀, hs₀, rfl⟩ := List.mem_map.mp hs'
      unfold replaced at hkey ⊢
      split at hkey
      · next hsame =>
          rw [if_pos hsame]
          obtain rfl := hok.unique old_mem hs (new_key.symm.trans hkey)
          exact .inr allowed
      · next hother =>
          rw [if_neg hother]
          exact .inl (hok.unique hs₀ hs hkey)

/-- **The registry stays governed**: in every interleaving in which no two changes that
    contend overlap and every change names a row version that its entry has had, a term
    keeps at most ten active expansions, and every COMMIT changes statuses only as
    allowed. -/
theorem synonyms_stay_governed {ι : Type} [DecidableEq ι] (lower : String → String)
    (requestHash : EntryKey → SynonymCommand → String) {store : Registry}
    {events : List (Transactions.Event Registry ChangeRequest ι)}
    {w : Transactions.World Registry Lock Statement AppError SynonymResponse ChangeRequest ι}
    (hstore : RegistryOk store)
    (hrun : Transactions.Interleaving (governed lower) (change lower requestHash) store events w) :
    (∀ tenantId term, activeExpansionCount tenantId term w.store ≤ maxActiveExpansions) ∧
      ∀ e ∈ w.history, ∀ i request, e.author = some (i, request) →
        FollowsLifecycle e.before e.after := by
  have hsound := sound_of_run (change_honours lower requestHash) hstore hrun
  refine ⟨hsound.always.cap, fun e he i request hauthor => ?_⟩
  obtain ⟨held, hregisters⟩ := guarantee_of_mem hsound.history he hauthor
  exact hregisters.followsLifecycle (always_of_mem hsound.history he)

/-! ## 6. Changes that overlap -/

abbrev Registering : Type :=
  Transactions.World Registry Lock Statement AppError SynonymResponse ChangeRequest Bool

/-- A hash that keeps requests apart. -/
def requestText (key : EntryKey) (command : SynonymCommand) : String :=
  key.term ++ "|" ++ key.expansion ++ "|" ++ command.synonymStatus.text ++ "|" ++
    command.expectedRowVersion.elim "" fun v => String.ofList (List.replicate v '1')

def draftOf (expansion : String) : Synonym := ⟨1, ⟨7, "vpn", expansion⟩, .draft, none, 1, 0, 1⟩

/-- A request of a user of tenant 7 about an expansion of "vpn". -/
def changeTo (userId : Uuid) (expansion : String) (status : SynonymStatus)
    (expectedRowVersion : Option Nat) : ChangeRequest :=
  ⟨⟨some 7, some userId, [], "c", "r", fun _ => true⟩,
    ⟨"vpn", expansion, status, none, expectedRowVersion⟩, "key " ++ status.text ++ expansion, 10,
    100 + userId, 200 + userId⟩

/-- Nine active expansions of "vpn". -/
def nearlyFull : Registry := ⟨["a", "b", "c", "d", "e", "f", "g", "h", "i"].map draftOf, []⟩

theorem RegistryOk.of_length {d : Registry} (keys : (d.synonyms.map (·.key)).Nodup)
    (hlength : d.synonyms.length ≤ maxActiveExpansions) : RegistryOk d where
  keys := keys
  cap _ _ := List.countP_le_length.trans hlength

theorem nearlyFull_ok : RegistryOk nearlyFull := .of_length (by decide) (by decide)

/-- One INSERT, beside the approval of another entry. -/
def insertAndApproval : List (Transactions.Event Registry ChangeRequest Bool) :=
  [.begin false (changeTo 20 "x" .draft none), .begin true (changeTo 21 "a" .approved (some 1))] ++
    (List.replicate 10 [.statement false, .statement true]).flatten

/-- Both INSERTs count before either is committed. -/
def twoInserts : List (Transactions.Event Registry ChangeRequest Bool) :=
  [.begin false (changeTo 20 "x" .draft none), .begin true (changeTo 21 "y" .draft none)] ++
    (List.replicate 10 [.statement false, .statement true]).flatten

/-- The approval reads the draft, the other call retires it, and the approval's UPDATE
    matches the row of the retired entry. -/
def approvedAfterRetired : List (Transactions.Event Registry ChangeRequest Bool) :=
  [.begin false (changeTo 20 "a" .approved (some 2)), .begin true (changeTo 21 "a" .retired (some 1))] ++
    (List.replicate 4 (.statement false) ++ List.replicate 10 (.statement true) ++
      List.replicate 6 (.statement false))

/-- What the contract asks of an event, of calls that begin with nine expansions. -/
def admitted (w : Registering) : Transactions.Event Registry ChangeRequest Bool → Bool
  | .begin _ request =>
      w.store.synonyms = nearlyFull.synonyms ∧
      (∀ v ∈ request.command.expectedRowVersion.toList, ∀ key ∈ (request.key? id).toList,
        ∃ s ∈ w.store.synonyms, s.key = key ∧ v ≤ s.rowVersion) ∧
      ∀ j, ∀ other ∈ (w.sessions j).call?.toList,
        request.command.synonymStatus ≠ .draft ∨ other.command.synonymStatus ≠ .draft
  | .elsewhere _ => false
  | _ => true

theorem admits_of_admitted (w : Registering) (event : Transactions.Event Registry ChangeRequest Bool)
    (h : admitted w event = true) : (governed id).Admits w event := by
  cases event with
  | begin i request =>
      obtain ⟨hstore, hversion, hothers⟩ := of_decide_eq_true h
      refine ⟨⟨nearlyFull_ok.congr hstore, fun key v hkey hv => ?_⟩, fun j other rest changes hj => ?_⟩
      · exact hversion v (Option.mem_toList.mpr hv) key (Option.mem_toList.mpr hkey)
      · have hcall : other ∈ (w.sessions j).call?.toList := by
          rw [hj]
          exact List.mem_singleton_self _
        rcases hothers j other hcall with hdraft | hdraft
        · constructor
          · rintro ⟨_, _, _, _, _, _, _, hdraft', _⟩
            exact hdraft hdraft'
          · rintro ⟨_, _, _, _, _, _, _, _, hdraft'⟩
            exact hdraft hdraft'
        · constructor
          · rintro ⟨_, _, _, _, _, _, _, _, hdraft'⟩
            exact hdraft hdraft'
          · rintro ⟨_, _, _, _, _, _, _, hdraft', _⟩
            exact hdraft hdraft'
  | statement i => trivial
  | interrupt i => trivial
  | elsewhere d => cases h

instance (d d' : Registry) : Decidable (FollowsLifecycle d d') :=
  inferInstanceAs (Decidable (∀ s ∈ d.synonyms, ∀ s' ∈ d'.synonyms, s'.key = s.key →
    s' = s ∨ (s.status, s'.status) ∈ allowedTransitions))

theorem synonyms_stay_governed_insert :
    ∃ w : Registering, w.history.length = 2 ∧ activeExpansionCount 7 "vpn" w.store = 10 ∧
      (∀ tenantId term, activeExpansionCount tenantId term w.store ≤ maxActiveExpansions) ∧
      ∀ e ∈ w.history, ∀ i request, e.author = some (i, request) →
        FollowsLifecycle e.before e.after := by
  have hvalue : (insertAndApproval.foldlM (fun w event =>
      if admitted w event = true then Transactions.perform (change id requestText) w event else none)
      (.start nearlyFull)).map (fun w => (w.history.length, activeExpansionCount 7 "vpn" w.store)) =
        some (2, 10) := by
    decide +kernel
  obtain ⟨w, hrun, hcounts⟩ := Option.map_eq_some_iff.mp hvalue
  obtain ⟨hlength, hcount⟩ := Prod.mk.inj hcounts
  exact ⟨w, hlength, hcount, synonyms_stay_governed id requestText nearlyFull_ok
    (interleaving_of_foldlM admits_of_admitted hrun)⟩

/-- The calls beside each other, with no other program. -/
abbrev Overlapping (store : Registry) (events : List (Transactions.Event Registry ChangeRequest Bool))
    (w : Registering) : Prop :=
  Run (fun w event w' => event.isOwn = true ∧ Transactions.perform (change id requestText) w event = some w')
    (.start store) events w

theorem overlapping_of_foldlM {store : Registry}
    {events : List (Transactions.Event Registry ChangeRequest Bool)} {w : Registering}
    (h : events.foldlM (fun w event =>
      if event.isOwn = true then Transactions.perform (change id requestText) w event else none) (.start store) =
        some w) : Overlapping store events w :=
  guarded_run_of_foldlM h

/-- **What is read without a lock does not hold**: two INSERTs leave eleven expansions,
    and a retired entry is approved. -/
theorem unlocked_reads_break_cap :
    (¬ ∀ store events w, RegistryOk store → Overlapping store events w →
      ∀ tenantId term, activeExpansionCount tenantId term w.store ≤ maxActiveExpansions) ∧
    ¬ ∀ store events w, RegistryOk store → Overlapping store events w →
      ∀ e ∈ w.history, FollowsLifecycle e.before e.after := by
  constructor
  · intro hclaim
    have hvalue : (twoInserts.foldlM (fun w event =>
        if event.isOwn = true then Transactions.perform (change id requestText) w event else none)
        (.start nearlyFull)).map (fun w => activeExpansionCount 7 "vpn" w.store) = some 11 := by
      decide +kernel
    obtain ⟨w, hrun, hcount⟩ := Option.map_eq_some_iff.mp hvalue
    have hcap := hclaim nearlyFull _ w nearlyFull_ok (overlapping_of_foldlM hrun) 7 "vpn"
    rw [hcount] at hcap
    exact absurd hcap (by decide)
  · intro hclaim
    have hstore : RegistryOk ⟨[draftOf "a"], []⟩ := .of_length (by decide) (by decide)
    have hvalue : (approvedAfterRetired.foldlM (fun w event =>
        if event.isOwn = true then Transactions.perform (change id requestText) w event else none)
        (.start ⟨[draftOf "a"], []⟩)).map (fun w => w.history.all fun e =>
          FollowsLifecycle e.before e.after) = some false := by
      decide +kernel
    obtain ⟨w, hrun, hall⟩ := Option.map_eq_some_iff.mp hvalue
    have hfollows := hclaim _ _ w hstore (overlapping_of_foldlM hrun)
    refine absurd (List.all_eq_true.mpr fun e he => ?_) (ne_true_of_eq_false hall)
    exact decide_eq_true (hfollows e he)

end Helpdesk.Knowledge.Synonyms
