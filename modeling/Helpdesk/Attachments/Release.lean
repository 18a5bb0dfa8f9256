/-
  File:      Helpdesk/Attachments/Release.lean
  Subject:   What is at the key of a released attachment.

  * `System.Sound`: the invariant, what the rows and the phases of the calls say about
    the object at the protected key;
  * `Unaltered`: a copy that takes what its call has read and scanned;
  * `next_sound`: every such step keeps the invariant;
  * `next_sameOn`: only quarantined and protected objects are touched.
-/
import Helpdesk.Attachments.Finalization
import Mathlib.Data.List.Nodup

namespace Helpdesk.Attachments

open Helpdesk.Python

/-! ## 1. Keys -/

/-- The key begins with the folder. -/
def Under (folder key : String) : Prop := folder.toList <+: key.toList

theorem Under.self (folder : String) : Under folder folder := List.prefix_rfl

theorem Under.append {folder key : String} (h : Under folder key) (rest : String) :
    Under folder (key ++ rest) := by
  unfold Under
  rw [String.toList_append]
  exact h.trans (List.prefix_append _ _)

/-- A key is in one folder only, of two that do not contain each other. -/
theorem Under.not_under {folder folder' key : String} (h : Under folder key)
    (hapart : ¬ (folder.toList <+: folder'.toList ∨ folder'.toList <+: folder.toList)) :
    ¬ Under folder' key :=
  fun h' => hapart (List.prefix_or_prefix_of_prefix h h')

theorem quarantineKey_under (tenantId ticketId attachmentId : Uuid) :
    Under "quarantine/" (quarantineKey tenantId ticketId attachmentId) := by
  unfold quarantineKey
  iterate 5 refine Under.append ?_ _
  exact Under.self _

theorem protectedKey_under (a : Attachment) : Under "protected/" a.protectedKey := by
  unfold Attachment.protectedKey
  iterate 7 refine Under.append ?_ _
  exact Under.self _

/-- A protected key ends with the text of the attachment's identifier. -/
theorem protectedKey_toList (a : Attachment) :
    ∃ folder, a.protectedKey.toList = folder ++ (uuidText a.attachmentId).toList := by
  unfold Attachment.protectedKey
  exact ⟨_, String.toList_append⟩

/-- **Two attachments have two protected keys.** -/
theorem attachmentId_of_protectedKey {a b : Attachment} (ha : a.attachmentId < 2 ^ 128)
    (hb : b.attachmentId < 2 ^ 128) (h : a.protectedKey = b.protectedKey) :
    a.attachmentId = b.attachmentId := by
  have htext : (uuidText a.attachmentId).toList = (uuidText b.attachmentId).toList := by
    obtain ⟨folder, hfolder⟩ := protectedKey_toList a
    obtain ⟨folder', hfolder'⟩ := protectedKey_toList b
    have hlist : folder ++ (uuidText a.attachmentId).toList =
        folder' ++ (uuidText b.attachmentId).toList := by rw [← hfolder, ← hfolder', h]
    refine (List.append_inj' hlist ?_).2
    rw [length_uuidText, length_uuidText]
  exact uuidText_injective ha hb (String.toList_injective htext)

/-! ## 2. The invariant -/

variable {sha256 : Bytes → String} {settings : Settings} {storage storage' : Storage}
  {s s' : System}

/-- What a row keeps for good. -/
def Attachment.identity (a : Attachment) : Uuid × Uuid × Uuid × String × String :=
  (a.attachmentId, a.tenantId, a.ticketId, a.sha256Checksum, a.quarantineObjectUri)

theorem protectedKey_congr {a b : Attachment} (h : a.identity = b.identity) :
    a.protectedKey = b.protectedKey := by
  simp only [Attachment.identity, Prod.mk.injEq] at h
  obtain ⟨hid, htenant, hticket, hsha, _⟩ := h
  unfold Attachment.protectedKey
  rw [hid, htenant, hticket, hsha]

/-- The content has the checksum and was the input of a clean scan. -/
def Verified (sha256 : Bytes → String) (storage : Storage) (a : Attachment) (content : Bytes) : Prop :=
  sha256 content = a.sha256Checksum ∧ content ∈ storage.scanned

/-- Verified content is at the protected key. -/
def Promoted (sha256 : Bytes → String) (storage : Storage) (a : Attachment) : Prop :=
  storage.bucket.Holds a.protectedKey (Verified sha256 storage a)

def Outcome.Sound (sha256 : Bytes → String) (storage : Storage) (a : Attachment) : Outcome → Prop
  | .clean _ protectedKey _ _ => protectedKey = a.protectedKey ∧ Promoted sha256 storage a
  | .infected _ _ _ _ | .invalid _ _ | .unavailable => True

/-- What a call has established. -/
def Phase.Sound (sha256 : Bytes → String) (storage : Storage) (a : Attachment) : Phase → Prop
  | .scanning | .finished => True
  | .validated content _ => sha256 content = a.sha256Checksum
  | .scanned content _ _ _ => Verified sha256 storage a content
  | .copied _ _ _ _ => Promoted sha256 storage a
  | .rejecting outcome | .recording outcome => outcome.Sound sha256 storage a

structure Attachment.WellFormed (a : Attachment) : Prop where
  id : a.attachmentId < 2 ^ 128
  quarantined : Under "quarantine/" a.quarantineObjectUri

/-- There is a row of this attachment. -/
def System.Known (s : System) (a : Attachment) : Prop := ∃ row ∈ s.rows, row.identity = a.identity

structure System.Sound (sha256 : Bytes → String) (storage : Storage) (s : System) : Prop where
  ids : (s.rows.map (·.attachmentId)).Nodup
  rows : ∀ row ∈ s.rows, row.WellFormed
  released : ∀ row ∈ s.rows, row.quarantineStatus = .released →
    row.protectedObjectUri = some row.protectedKey ∧ Promoted sha256 storage row
  known : ∀ call ∈ s.calls, s.Known call.attachment
  calls : ∀ call ∈ s.calls, call.phase.Sound sha256 storage call.attachment

theorem System.Sound.wellFormed (h : s.Sound sha256 storage) {a : Attachment} (ha : s.Known a) :
    a.WellFormed := by
  obtain ⟨row, hrow, hidentity⟩ := ha
  have hwell := h.rows row hrow
  simp only [Attachment.identity, Prod.mk.injEq] at hidentity
  exact ⟨hidentity.1 ▸ hwell.id, hidentity.2.2.2.2 ▸ hwell.quarantined⟩

/-- A protected key is that of one attachment. -/
theorem System.Sound.identity_eq (h : s.Sound sha256 storage) {a b : Attachment} (ha : s.Known a)
    (hb : s.Known b) (hkey : a.protectedKey = b.protectedKey) : a.identity = b.identity := by
  have hid := attachmentId_of_protectedKey (h.wellFormed ha).id (h.wellFormed hb).id hkey
  obtain ⟨row, hrow, hrowa⟩ := ha
  obtain ⟨row', hrow', hrowb⟩ := hb
  have hsame : row.attachmentId = row'.attachmentId := by
    simp only [Attachment.identity, Prod.mk.injEq] at hrowa hrowb
    rw [hrowa.1, hrowb.1, hid]
  obtain rfl := List.inj_on_of_nodup_map h.ids hrow hrow' hsame
  rw [← hrowa, hrowb]

/-! ## 3. What keeps it -/

theorem Verified.mono {a : Attachment} {content : Bytes} (h : Verified sha256 storage a content)
    (hscanned : storage.scanned ⊆ storage'.scanned) : Verified sha256 storage' a content :=
  ⟨h.1, hscanned h.2⟩

theorem Outcome.Sound.mono {a : Attachment} {outcome : Outcome} (h : outcome.Sound sha256 storage a)
    (hkeep : Promoted sha256 storage a → Promoted sha256 storage' a) :
    outcome.Sound sha256 storage' a := by
  cases outcome with
  | clean => exact ⟨h.1, hkeep h.2⟩
  | infected | invalid | unavailable => trivial

theorem Phase.Sound.mono {a : Attachment} {phase : Phase} (h : phase.Sound sha256 storage a)
    (hscanned : storage.scanned ⊆ storage'.scanned)
    (hkeep : Promoted sha256 storage a → Promoted sha256 storage' a) :
    phase.Sound sha256 storage' a := by
  cases phase with
  | scanning | finished => trivial
  | validated => exact h
  | scanned => exact Verified.mono h hscanned
  | copied => exact hkeep h
  | rejecting | recording => exact Outcome.Sound.mono h hkeep

/-- **The storage may change** where nothing was promoted, or to verified content. -/
theorem System.Sound.frame (h : s.Sound sha256 storage)
    (hscanned : storage.scanned ⊆ storage'.scanned)
    (hkeep : ∀ a, s.Known a → Promoted sha256 storage a → Promoted sha256 storage' a) :
    s.Sound sha256 storage' where
  ids := h.ids
  rows := h.rows
  released row hrow hstatus := by
    obtain ⟨huri, hpromoted⟩ := h.released row hrow hstatus
    exact ⟨huri, hkeep row ⟨row, hrow, rfl⟩ hpromoted⟩
  known := h.known
  calls call hcall := (h.calls call hcall).mono hscanned (hkeep call.attachment (h.known call hcall))

/-- Objects outside of `protected/` do not matter. -/
theorem System.Sound.sameOn (h : s.Sound sha256 storage)
    (hscanned : storage.scanned ⊆ storage'.scanned)
    (hsame : Bucket.SameOn (Under "protected/") storage.bucket storage'.bucket) :
    s.Sound sha256 storage' := by
  refine h.frame hscanned fun a _ hpromoted => ?_
  exact (hsame.holds (protectedKey_under a) hpromoted).mono fun _ hcontent => hcontent.mono hscanned

/-- A call goes on. -/
theorem System.Sound.setCall (h : s.Sound sha256 storage) {index : Nat} {call call' : Call}
    (hcall : s.calls[index]? = some call) (hsame : call'.attachment = call.attachment)
    (hphase : call'.phase.Sound sha256 storage call.attachment) :
    (s.setCall index call').Sound sha256 storage where
  ids := h.ids
  rows := h.rows
  released := h.released
  known other hother := by
    rcases List.mem_or_eq_of_mem_set hother with hold | rfl
    · exact h.known other hold
    · rw [hsame]
      exact h.known call (List.mem_of_getElem? hcall)
  calls other hother := by
    rcases List.mem_or_eq_of_mem_set hother with hold | rfl
    · exact h.calls other hold
    · rw [hsame]
      exact hphase

theorem apply_identity {now : Instant} {outcome : Outcome} (row : Attachment) :
    (outcome.apply settings now (markScanning row)).identity = row.identity := by
  cases outcome <;> rfl

theorem record_identity {now : Instant} {call : Call} {outcome : Outcome} :
    (s.record settings now call outcome).rows.map (·.identity) = s.rows.map (·.identity) := by
  unfold System.record
  rw [List.map_map]
  refine List.map_congr_left fun row _ => ?_
  dsimp only [Function.comp_apply]
  split
  · exact apply_identity row
  · rfl

/-- A row of a call that is recorded: the others stay. -/
theorem mem_record {now : Instant} {call : Call} {outcome : Outcome} {row' : Attachment}
    (h : row' ∈ (s.record settings now call outcome).rows) :
    row' ∈ s.rows ∨ ∃ row ∈ s.rows, row.attachmentId = call.attachment.attachmentId ∧
      row' = outcome.apply settings now (markScanning row) := by
  unfold System.record at h
  obtain ⟨row, hrow, rfl⟩ := List.mem_map.mp h
  split
  · next hid => exact .inr ⟨row, hrow, hid, rfl⟩
  · exact .inl hrow

/-- Only a clean outcome releases. -/
theorem apply_released {now : Instant} {outcome : Outcome} {row : Attachment}
    (h : (outcome.apply settings now row).quarantineStatus = .released) :
    ∃ detected protectedKey engine version, outcome = .clean detected protectedKey engine version := by
  cases outcome with
  | clean detected protectedKey engine version => exact ⟨detected, protectedKey, engine, version, rfl⟩
  | infected | invalid | unavailable => cases h

theorem System.Sound.record (h : s.Sound sha256 storage) {now : Instant} {call : Call}
    (hcall : call ∈ s.calls) {outcome : Outcome}
    (houtcome : outcome.Sound sha256 storage call.attachment) :
    (s.record settings now call outcome).Sound sha256 storage where
  ids := by
    have hidentity : (s.record settings now call outcome).rows.map (·.identity) =
        s.rows.map (·.identity) := record_identity
    have hids := congrArg (List.map Prod.fst) hidentity
    rw [List.map_map, List.map_map] at hids
    exact hids ▸ h.ids
  rows row' hrow' := by
    rcases mem_record hrow' with hold | ⟨row, hrow, _, rfl⟩
    · exact h.rows row' hold
    · exact h.wellFormed ⟨row, hrow, (apply_identity row).symm⟩
  released row' hrow' hstatus := by
    rcases mem_record hrow' with hold | ⟨row, hrow, hid, rfl⟩
    · exact h.released row' hold hstatus
    · obtain ⟨detected, protectedKey, engine, version, rfl⟩ := apply_released hstatus
      obtain ⟨rfl, hpromoted⟩ := houtcome
      -- the row of the call's attachment
      obtain ⟨locked, hlocked, hidentity⟩ := h.known call hcall
      have hlockedId : locked.attachmentId = row.attachmentId := by
        simp only [Attachment.identity, Prod.mk.injEq] at hidentity
        rw [hidentity.1, hid]
      obtain rfl := List.inj_on_of_nodup_map h.ids hlocked hrow hlockedId
      have hkey := protectedKey_congr hidentity
      refine ⟨congrArg some hkey.symm, ?_⟩
      unfold Promoted at hpromoted
      rw [← hkey] at hpromoted
      refine hpromoted.mono fun content hcontent => ⟨?_, hcontent.2⟩
      simp only [Attachment.identity, Prod.mk.injEq] at hidentity
      exact hcontent.1.trans hidentity.2.2.2.1.symm
  known other hother := by
    obtain ⟨row, hrow, hidentity⟩ := h.known other hother
    have hmem : row.identity ∈ (s.record settings now call outcome).rows.map (·.identity) := by
      rw [record_identity]
      exact List.mem_map_of_mem hrow
    obtain ⟨row', hrow', hsame⟩ := List.mem_map.mp hmem
    exact ⟨row', hrow', hsame.trans hidentity⟩
  calls := h.calls

/-! ## 4. Steps -/

/-- What an event of a call has done. -/
inductive EventStep (sha256 : Bytes → String) (settings : Settings) (a : Attachment) (storage : Storage) :
    Phase → Event → Storage → Phase → Prop where
  | read : EventStep sha256 settings a storage .scanning .read storage
      (readContent sha256 settings a storage.bucket)
  | clean {content : Bytes} {detected engine version : String} :
      EventStep sha256 settings a storage (.validated content detected) (.scan (.clean engine version))
        { storage with scanned := storage.scanned ++ [content] }
        (.scanned content detected engine version)
  | threat {content : Bytes} {detected engine version name : String} {threatName : Option String} :
      EventStep sha256 settings a storage (.validated content detected)
        (.scan (.threat engine version threatName)) storage
        (.rejecting (.infected detected engine version name))
  | copied {content object : Bytes} {detected engine version : String}
      (hobject : storage.bucket a.quarantineObjectUri = some object) :
      EventStep sha256 settings a storage (.scanned content detected engine version) .copy
        { storage with bucket := storage.bucket.put a.protectedKey object }
        (.copied content detected engine version)
  | deleted {content : Bytes} {detected engine version : String} :
      EventStep sha256 settings a storage (.copied content detected engine version) .delete
        { storage with bucket := storage.bucket.delete a.quarantineObjectUri }
        (.recording (.clean detected a.protectedKey engine version))
  | rejected {outcome : Outcome} :
      EventStep sha256 settings a storage (.rejecting outcome) .reject
        { storage with bucket := storage.bucket.delete a.quarantineObjectUri } (.recording outcome)
  | failed {phase : Phase} :
      EventStep sha256 settings a storage phase .fail storage (.recording .unavailable)

theorem callEvent_step {a : Attachment} {phase phase' : Phase} {event : Event}
    (h : callEvent sha256 settings a phase event storage = some (storage', phase')) :
    EventStep sha256 settings a storage phase event storage' phase' := by
  unfold callEvent at h
  split at h
  · cases h
    exact .read
  · cases h
    exact .clean
  · cases h
    exact .threat
  · simp only [Option.bind_eq_bind, Option.bind_eq_some_iff, Option.pure_def,
      Option.some.injEq, Bucket.copy_eq_some] at h
    obtain ⟨_, ⟨object, hobject, rfl⟩, h⟩ := h
    cases h
    exact .copied hobject
  · cases h
    exact .deleted
  · cases h
    exact .rejected
  · cases h
    exact .failed
  · cases h
    exact .failed
  · cases h
    exact .failed
  · cases h
    exact .failed
  · cases h
    exact .failed
  · cases h

/-- What a step has done. -/
inductive Stepped (sha256 : Bytes → String) (settings : Settings) (storage : Storage) (s : System) :
    Action → Storage → System → Prop where
  | authorized {attachmentId tenantId ticketId : Uuid} {command : UploadRequest}
      (hid : attachmentId < 2 ^ 128) (hnew : ∀ row ∈ s.rows, row.attachmentId ≠ attachmentId) :
      Stepped sha256 settings storage s (.authorize attachmentId tenantId ticketId command) storage
        { s with rows := s.rows ++ [newAttachment attachmentId tenantId ticketId command] }
  | uploaded {attachmentId : Uuid} {content : Bytes} {row : Attachment} (hrow : row ∈ s.rows) :
      Stepped sha256 settings storage s (.upload attachmentId content)
        { storage with bucket := storage.bucket.put row.quarantineObjectUri content } s
  | begun {now : Instant} {attachmentId : Uuid} {row : Attachment} (hrow : row ∈ s.rows) :
      Stepped sha256 settings storage s (.begin now attachmentId) storage
        { s with calls := s.calls ++ [⟨row, .scanning, true⟩] }
  | committed {index : Nat} {now : Instant} {call : Call} {outcome : Outcome}
      (hcall : s.calls[index]? = some call) (hphase : call.phase = .recording outcome) :
      Stepped sha256 settings storage s (.call index (.commit now)) storage
        ((s.record settings now call outcome).setCall index
          { call with phase := .finished, open_ := false })
  | rolledBack {index : Nat} {call : Call} (hcall : s.calls[index]? = some call) :
      Stepped sha256 settings storage s (.call index .rollback) storage
        (s.setCall index { call with open_ := false })
  | progressed {index : Nat} {event : Event} {call : Call} {storage' : Storage} {phase : Phase}
      (hcall : s.calls[index]? = some call)
      (hevent : EventStep sha256 settings call.attachment storage call.phase event storage' phase) :
      Stepped sha256 settings storage s (.call index event) storage' (s.setCall index { call with phase })

theorem begin_eq_some {now : Instant} {attachmentId : Uuid}
    (h : begin settings now attachmentId s = some s') :
    ∃ row ∈ s.rows, s' = { s with calls := s.calls ++ [⟨row, .scanning, true⟩] } := by
  simp only [begin, Option.bind_eq_bind, Option.bind_eq_some_iff] at h
  obtain ⟨row, hrow, h⟩ := h
  refine ⟨row, List.mem_of_find?_eq_some hrow, ?_⟩
  split at h
  · cases h
  · split at h
    · cases h
    · split at h
      · cases h
      · split at h
        · cases h
        · exact (Option.some.inj h).symm

theorem next_stepped {action : Action} (h : next sha256 settings storage s action = some (storage', s')) :
    Stepped sha256 settings storage s action storage' s' := by
  unfold next at h
  split at h
  · split at h
    · next hguard =>
        split at h
        · next hrow =>
            unfold authorizeUpload at hrow
            split at hrow
            · cases hrow
            · split at hrow
              · cases hrow
              · cases hrow
                cases h
                exact .authorized hguard.1 hguard.2
        · cases h
    · cases h
  · simp only [Option.bind_eq_bind, Option.bind_eq_some_iff] at h
    obtain ⟨row, hrow, h⟩ := h
    split at h
    · cases h
      exact .uploaded (List.mem_of_find?_eq_some hrow)
    · cases h
  · obtain ⟨_, hbegin, h⟩ := Option.map_eq_some_iff.mp h
    cases h
    obtain ⟨row, hrow, rfl⟩ := begin_eq_some hbegin
    exact .begun hrow
  · simp only [Option.bind_eq_bind, Option.bind_eq_some_iff] at h
    obtain ⟨call, hcall, h⟩ := h
    split at h
    · next outcome _ hphase =>
        cases h
        exact .committed hcall hphase
    · cases h
  · simp only [Option.bind_eq_bind, Option.bind_eq_some_iff] at h
    obtain ⟨call, hcall, h⟩ := h
    cases h
    exact .rolledBack hcall
  · simp only [Option.bind_eq_bind, Option.bind_eq_some_iff] at h
    obtain ⟨call, hcall, ⟨mid, phase⟩, hevent, h⟩ := h
    cases h
    exact .progressed hcall (callEvent_step hevent)

/-- **A copy takes what its call has read**, and nothing a client has put there since. -/
def Unaltered (storage : Storage) (s : System) : Action → Prop
  | .call index .copy => ∀ call ∈ s.calls[index]?, match call.phase with
      | .scanned content _ _ _ => storage.bucket call.attachment.quarantineObjectUri = some content
      | _ => True
  | _ => True

instance (storage : Storage) (s : System) (action : Action) : Decidable (Unaltered storage s action) := by
  unfold Unaltered
  split
  · refine @Option.decidableForallMem _ _ (fun call => ?_) _
    split <;> infer_instance
  · infer_instance

theorem readContent_sound (a : Attachment) :
    (readContent sha256 settings a storage.bucket).Sound sha256 storage a := by
  unfold readContent
  split
  · trivial
  · split
    · trivial
    · dsimp only
      split
      · next hvalid => exact (validateContent_eq_ok hvalid).2
      · trivial

/-- What is quarantined is not protected. -/
theorem quarantined_not_protected {key : String} (h : Under "quarantine/" key) :
    ¬ Under "protected/" key := h.not_under (by decide)

/-- The object at a quarantined key is nobody's business. -/
theorem System.Sound.quarantine (h : s.Sound sha256 storage) {key : String}
    (hkey : Under "quarantine/" key) {bucket : Bucket String Bytes}
    (hsame : ∀ S : String → Prop, ¬ S key → Bucket.SameOn S storage.bucket bucket) :
    s.Sound sha256 { storage with bucket } :=
  h.sameOn (List.Subset.refl _) (hsame _ (quarantined_not_protected hkey))

theorem EventStep.sound {call : Call} {event : Event} {phase : Phase} (h : s.Sound sha256 storage)
    (hcall : call ∈ s.calls)
    (hevent : EventStep sha256 settings call.attachment storage call.phase event storage' phase)
    (hunaltered : ∀ content detected engine version, event = .copy →
      call.phase = .scanned content detected engine version →
        storage.bucket call.attachment.quarantineObjectUri = some content) :
    s.Sound sha256 storage' ∧ phase.Sound sha256 storage' call.attachment := by
  have hknown := h.known call hcall
  have hphase := h.calls call hcall
  have hquarantined := (h.wellFormed hknown).quarantined
  have hprotected := protectedKey_under call.attachment
  have hdelete : ∀ S : String → Prop, ¬ S call.attachment.quarantineObjectUri →
      Bucket.SameOn S storage.bucket (storage.bucket.delete call.attachment.quarantineObjectUri) :=
    fun _ hkey => Bucket.sameOn_delete hkey
  generalize hold : call.phase = old at hevent hphase
  cases hevent with
  | read => exact ⟨h, readContent_sound call.attachment⟩
  | @clean content detected engine version =>
      have hscanned : storage.scanned ⊆ storage.scanned ++ [content] := List.subset_append_left _ _
      exact ⟨h.sameOn hscanned (.refl _), hphase, List.mem_append_right _ (List.mem_singleton_self _)⟩
  | threat | failed => exact ⟨h, trivial⟩
  | @copied content object detected engine version hobject =>
      have hcontent := hunaltered content detected engine version rfl hold
      obtain rfl : object = content := Option.some.inj (hobject.symm.trans hcontent)
      have hverified : Verified sha256 storage call.attachment object := hphase
      have hput : (storage.bucket.put call.attachment.protectedKey object).Holds
          call.attachment.protectedKey (Verified sha256 storage call.attachment) :=
        Bucket.holds_put hverified
      refine ⟨h.frame (List.Subset.refl _) fun a ha hpromoted => ?_, hput⟩
      refine Bucket.Holds.put hpromoted fun hkey => ⟨?_, hverified.2⟩
      -- the key is that of the call's own attachment
      have hidentity := h.identity_eq ha hknown hkey
      simp only [Attachment.identity, Prod.mk.injEq] at hidentity
      exact hverified.1.trans hidentity.2.2.2.1.symm
  | deleted =>
      refine ⟨h.quarantine hquarantined hdelete, rfl, ?_⟩
      exact (hdelete _ (quarantined_not_protected hquarantined)).holds hprotected hphase
  | rejected =>
      refine ⟨h.quarantine hquarantined hdelete, Outcome.Sound.mono hphase fun hpromoted => ?_⟩
      exact (hdelete _ (quarantined_not_protected hquarantined)).holds hprotected hpromoted

/-- **Every step whose copy is unaltered keeps the invariant.** -/
theorem next_sound {action : Action} (h : s.Sound sha256 storage)
    (hunaltered : Unaltered storage s action)
    (hnext : next sha256 settings storage s action = some (storage', s')) :
    s'.Sound sha256 storage' := by
  cases next_stepped hnext with
  | @authorized attachmentId tenantId ticketId command hid hnew =>
      have hgrown : ∀ {a : Attachment}, s.Known a → ∃ row ∈ s.rows ++
          [newAttachment attachmentId tenantId ticketId command], row.identity = a.identity := by
        rintro a ⟨row, hrow, hidentity⟩
        exact ⟨row, List.mem_append_left _ hrow, hidentity⟩
      refine ⟨?_, fun row hrow => ?_, fun row hrow hstatus => ?_,
        fun call hcall => hgrown (h.known call hcall), h.calls⟩
      · rw [List.map_append, List.nodup_append]
        refine ⟨h.ids, List.nodup_singleton _, fun old hold id hid' heq => ?_⟩
        obtain ⟨row, hrow, rfl⟩ := List.mem_map.mp hold
        obtain rfl := List.mem_singleton.mp hid'
        exact hnew row hrow heq
      · rcases List.mem_append.mp hrow with hold | hadded
        · exact h.rows row hold
        · obtain rfl := List.mem_singleton.mp hadded
          exact ⟨hid, quarantineKey_under tenantId ticketId attachmentId⟩
      · rcases List.mem_append.mp hrow with hold | hadded
        · exact h.released row hold hstatus
        · obtain rfl := List.mem_singleton.mp hadded
          cases hstatus
  | uploaded hrow => exact h.quarantine (h.rows _ hrow).quarantined fun _ hkey => Bucket.sameOn_put hkey
  | @begun now attachmentId row hrow =>
      refine ⟨h.ids, h.rows, h.released, fun call hcall => ?_, fun call hcall => ?_⟩
      · rcases List.mem_append.mp hcall with hold | hadded
        · exact h.known call hold
        · obtain rfl := List.mem_singleton.mp hadded
          exact ⟨row, hrow, rfl⟩
      · rcases List.mem_append.mp hcall with hold | hadded
        · exact h.calls call hold
        · obtain rfl := List.mem_singleton.mp hadded
          trivial
  | committed hcall hphase =>
      have hmem := List.mem_of_getElem? hcall
      have houtcome := h.calls _ hmem
      rw [hphase] at houtcome
      exact (h.record hmem houtcome).setCall hcall rfl trivial
  | rolledBack hcall => exact h.setCall hcall rfl (h.calls _ (List.mem_of_getElem? hcall))
  | @progressed index event call _ phase hcall hevent =>
      have hcopy : ∀ content detected engine version, event = .copy →
          call.phase = .scanned content detected engine version →
            storage.bucket call.attachment.quarantineObjectUri = some content := by
        intro content detected engine version hcopy hphase
        subst hcopy
        have hcall' := hunaltered call hcall
        rwa [hphase] at hcall'
      obtain ⟨hsound, hphase⟩ := EventStep.sound h (List.mem_of_getElem? hcall) hevent hcopy
      exact hsound.setCall hcall rfl hphase

/-- **Nothing else of the bucket is touched**, and no scan is forgotten. -/
theorem next_sameOn {action : Action} (h : s.Sound sha256 storage) {folder : String}
    (hquarantine : ∀ key, Under "quarantine/" key → ¬ Under folder key)
    (hprotected : ∀ key, Under "protected/" key → ¬ Under folder key)
    (hnext : next sha256 settings storage s action = some (storage', s')) :
    Bucket.SameOn (Under folder) storage.bucket storage'.bucket ∧
      storage.scanned ⊆ storage'.scanned := by
  cases next_stepped hnext with
  | authorized | begun | committed | rolledBack => exact ⟨.refl _, List.Subset.refl _⟩
  | uploaded hrow =>
      exact ⟨Bucket.sameOn_put (hquarantine _ (h.rows _ hrow).quarantined), List.Subset.refl _⟩
  | @progressed index event call _ phase hcall hevent =>
      have hkey := hquarantine _ (h.wellFormed (h.known call (List.mem_of_getElem? hcall))).quarantined
      generalize call.phase = old at hevent
      cases hevent with
      | read | threat | failed => exact ⟨.refl _, List.Subset.refl _⟩
      | clean => exact ⟨.refl _, List.subset_append_left _ _⟩
      | copied => exact ⟨Bucket.sameOn_put (hprotected _ (protectedKey_under _)), List.Subset.refl _⟩
      | deleted | rejected => exact ⟨Bucket.sameOn_delete hkey, List.Subset.refl _⟩

end Helpdesk.Attachments
