/-
  File:      Helpdesk/Knowledge/Stranding.lean
  Subject:   Which items some worker still looks after.

  A claim sets an item to ACQUIRING or EXTRACTING, and neither claim function takes an
  item of such a status: while a call of `process_one` is at work the item is in its
  hands alone. The call gives it back with the transaction that records what came of
  it; a call that ends without one leaves the item where it is, for good.

  * `RunItem.Kept`: what the status of an item promises, given the claims of the calls
    that have not recorded anything;
  * `Kept.step`: every step whose calls record keeps the promises;
  * `no_item_stranded`: in a run of such steps no item is stranded;
  * `claimed_item_stranded`: a call that ends too early strands its item.
-/
import Helpdesk.Knowledge.Items

namespace Helpdesk.Knowledge

open Helpdesk.Python

/-! ## 1. The claims of the calls at work -/

section Claims

variable {α : Type} {unrecorded : α → Bool} {claim : α → Claim} {calls : List α} {c : Claim}

/-- The claims of the calls that have not recorded anything. -/
def claimsOf (unrecorded : α → Bool) (claim : α → Claim) (calls : List α) : List Claim :=
  (calls.filter unrecorded).map claim

theorem mem_claimsOf :
    c ∈ claimsOf unrecorded claim calls ↔ ∃ call ∈ calls, unrecorded call = true ∧ claim call = c := by
  simp [claimsOf, and_assoc]

theorem mem_claimsOf_append {call : α} (h : c ∈ claimsOf unrecorded claim calls) :
    c ∈ claimsOf unrecorded claim (calls ++ [call]) := by
  obtain ⟨other, hmem, hother⟩ := mem_claimsOf.mp h
  exact mem_claimsOf.mpr ⟨other, List.mem_append_left _ hmem, hother⟩

/-- A call that goes on with its claim keeps it. -/
theorem mem_claimsOf_set {index : Nat} {call call' : α} (hcall : calls[index]? = some call)
    (hclaim : unrecorded call = true → c = claim call → unrecorded call' = true ∧ claim call' = c)
    (h : c ∈ claimsOf unrecorded claim calls) :
    c ∈ claimsOf unrecorded claim (calls.set index call') := by
  obtain ⟨other, hmem, hunrecorded, heq⟩ := mem_claimsOf.mp h
  obtain ⟨i, hi⟩ := List.mem_iff_getElem?.mp hmem
  have hlength : index < calls.length := (List.getElem?_eq_some_iff.mp hcall).1
  by_cases hindex : index = i
  · subst hindex
    obtain rfl : call = other := Option.some.inj (hcall.symm.trans hi)
    obtain ⟨hunrecorded', heq'⟩ := hclaim hunrecorded heq.symm
    exact mem_claimsOf.mpr ⟨call', List.mem_set hlength call', hunrecorded', heq'⟩
  · refine mem_claimsOf.mpr ⟨other, List.mem_iff_getElem?.mpr ⟨i, ?_⟩, hunrecorded, heq⟩
    rw [List.getElem?_set_ne hindex, hi]

/-- Only the claim of the call that ends is gone. -/
theorem mem_claimsOf_eraseIdx {index : Nat}
    (hclaim : ∀ call, calls[index]? = some call → unrecorded call = true → c ≠ claim call)
    (h : c ∈ claimsOf unrecorded claim calls) :
    c ∈ claimsOf unrecorded claim (calls.eraseIdx index) := by
  obtain ⟨other, hmem, hunrecorded, heq⟩ := mem_claimsOf.mp h
  obtain ⟨i, hi⟩ := List.mem_iff_getElem?.mp hmem
  refine mem_claimsOf.mpr ⟨other, List.mem_eraseIdx_iff_getElem?.mpr ⟨i, fun hindex => ?_, hi⟩,
    hunrecorded, heq⟩
  subst hindex
  exact hclaim other hi hunrecorded heq.symm

end Claims

/-- A call that has not recorded anything yet. -/
def AcquisitionCall.unrecorded (call : AcquisitionCall) : Bool :=
  match call.phase with
  | .claimed | .working _ => true
  | .cleaning _ | .done => false

def ProcessingCall.unrecorded (call : ProcessingCall) : Bool :=
  match call.phase with
  | .claimed | .working _ _ => true
  | .done => false

def World.acquiring (world : World) : List Claim :=
  claimsOf AcquisitionCall.unrecorded (·.claim) world.acquisitions

def World.extracting (world : World) : List Claim :=
  claimsOf ProcessingCall.unrecorded (·.claim) world.processings

def RunItem.claim (item : RunItem) : Claim := ⟨item.itemId, item.tenantId⟩

/-! ## 2. Stranded items -/

/-- An item no worker has to come back to. -/
def RunItem.Settled (item : RunItem) : Prop :=
  item.itemStatus ∈ [.embedded, .published, .skippedUnchanged, .skippedRemoved,
      .skippedRedirected, .blockedPermission] ∨
    item.itemStatus = .failed ∧ item.finalFailure = true

instance (item : RunItem) : Decidable item.Settled := inferInstanceAs (Decidable (_ ∨ _))

/-- From some time on, a later `process_one` may claim the item. -/
def RunItem.Reclaimable (item : RunItem) : Prop :=
  ∃ t, ∀ now, t ≤ now → acquirable now item = true ∨ processable now item = true

/-- **A stranded item**: it waits for no upload, is in no final status, in nobody's hands
    and cannot be claimed again. -/
def World.Stranded (world : World) (item : RunItem) : Prop :=
  item.itemStatus ≠ .awaitingUpload ∧ ¬ item.Settled ∧ ¬ item.Reclaimable ∧
    item.claim ∉ world.acquiring ∧ item.claim ∉ world.extracting

/-- Nobody is at work, and what there is to do can be claimed. -/
structure World.AtRest (world : World) : Prop where
  noAcquisition : world.acquisitions = []
  noProcessing : world.processings = []
  items : ∀ item ∈ world.store.items, item.Settled ∨ item.Reclaimable ∨
    item.itemStatus = .awaitingUpload ∧ item.pipelineStage = .acquisition ∧
      item.finalFailure = false

/-! ## 3. What the status of an item promises -/

/-- What the status promises, when the calls at work hold these claims. -/
def RunItem.Kept (acquiring extracting : List Claim) (item : RunItem) : Prop :=
  match item.itemStatus with
  | .awaitingUpload | .queued =>
      item.pipelineStage = .acquisition ∧ item.finalFailure = false
  | .acquiring => item.claim ∈ acquiring
  | .acquired => item.pipelineStage = .processing ∧ item.finalFailure = false
  | .extracting => item.claim ∈ extracting
  | .failed => item.finalFailure = true ∨ item.pipelineStage ≠ .complete
  | .embedded | .published | .skippedUnchanged | .skippedRemoved | .skippedRedirected
  | .blockedPermission => True
  | .extracted | .chunking | .chunked | .embedding | .validating => False

variable {d : Deployment} {A A' E E' : List Claim} {item : RunItem}

theorem RunItem.Kept.mono (h : item.Kept A E)
    (hA : item.itemStatus = .acquiring → item.claim ∈ A → item.claim ∈ A')
    (hE : item.itemStatus = .extracting → item.claim ∈ E → item.claim ∈ E') : item.Kept A' E' := by
  unfold RunItem.Kept at h ⊢
  split at h <;> simp_all

/-- A lock that is taken is stale some time. -/
theorem unlocked_from (item : RunItem) : ∃ t, ∀ now, t ≤ now → unlocked now item = true := by
  unfold unlocked
  cases hlocked : item.lockedAt with
  | none => exact ⟨0, fun now _ => rfl⟩
  | some lockedAt =>
      refine ⟨lockedAt + staleLock + 1, fun now hnow => ?_⟩
      have hlater : ¬ now - staleLock ≤ lockedAt := by
        have hlate : lockedAt + staleLock < now := Int.lt_of_add_one_le hnow
        exact not_le.mpr (Int.lt_sub_right_of_add_lt hlate)
      simpa using hlater

theorem acquirable_from (hstatus : item.itemStatus = .queued ∨ item.itemStatus = .failed)
    (hstage : item.pipelineStage = .acquisition) (hfinal : item.finalFailure = false) :
    item.Reclaimable := by
  obtain ⟨t, ht⟩ := unlocked_from item
  refine ⟨max t item.nextAttemptAt, fun now hnow => Or.inl ?_⟩
  have hattempt : item.nextAttemptAt ≤ now := le_trans (le_max_right _ _) hnow
  have hunlocked := ht now (le_trans (le_max_left _ _) hnow)
  simp [acquirable, hstatus, hstage, hfinal, hattempt, hunlocked]

theorem processable_from (hstatus : item.itemStatus = .acquired ∨ item.itemStatus = .failed)
    (hstage : item.pipelineStage = .processing) (hfinal : item.finalFailure = false) :
    item.Reclaimable := by
  obtain ⟨t, ht⟩ := unlocked_from item
  refine ⟨max t item.processingNextAttemptAt, fun now hnow => Or.inr ?_⟩
  have hattempt : item.processingNextAttemptAt ≤ now := le_trans (le_max_right _ _) hnow
  have hunlocked := ht now (le_trans (le_max_left _ _) hnow)
  simp [processable, hstatus, hstage, hfinal, hattempt, hunlocked]

/-- An item whose promise is kept is not stranded. -/
theorem RunItem.Kept.not_stranded {world : World} (h : item.Kept world.acquiring world.extracting) :
    ¬ world.Stranded item := by
  rintro ⟨hupload, hsettled, hreclaimable, hacquiring, hextracting⟩
  unfold RunItem.Kept at h
  split at h
  · next hstatus => exact hupload hstatus
  · next hstatus => exact hreclaimable (acquirable_from (Or.inl hstatus) h.1 h.2)
  · exact hacquiring h
  · next hstatus => exact hreclaimable (processable_from (Or.inl hstatus) h.1 h.2)
  · exact hextracting h
  · next hstatus =>
      cases hfinal : item.finalFailure with
      | true => exact hsettled (Or.inr ⟨hstatus, hfinal⟩)
      | false =>
          have hstage : item.pipelineStage ≠ .complete := by simpa [hfinal] using h
          cases hcase : item.pipelineStage with
          | acquisition => exact hreclaimable (acquirable_from (Or.inr hstatus) hcase hfinal)
          | processing => exact hreclaimable (processable_from (Or.inr hstatus) hcase hfinal)
          | complete => exact hstage hcase
  all_goals first
    | exact h
    | next hstatus => exact hsettled (Or.inl (by simp [hstatus]))

theorem RunItem.Settled.kept (h : item.Settled) : item.Kept A E := by
  unfold RunItem.Kept
  rcases h with h | ⟨hstatus, hfinal⟩
  · simp only [List.mem_cons, List.not_mem_nil, or_false] at h
    rcases h with h | h | h | h | h | h <;> simp [h]
  · simp [hstatus, hfinal]

theorem RunItem.Reclaimable.kept (h : item.Reclaimable) : item.Kept A E := by
  obtain ⟨t, ht⟩ := h
  unfold RunItem.Kept
  rcases ht t le_rfl with h | h
  · simp only [acquirable, Bool.and_eq_true, Bool.or_eq_true, decide_eq_true_eq,
      Bool.not_eq_true'] at h
    obtain ⟨⟨⟨⟨hstage, hfinal⟩, hstatus⟩, _⟩, _⟩ := h
    rcases hstatus with hstatus | hstatus <;> simp [hstatus, hstage, hfinal]
  · simp only [processable, Bool.and_eq_true, Bool.or_eq_true, decide_eq_true_eq,
      Bool.not_eq_true'] at h
    obtain ⟨⟨⟨⟨hstage, hfinal⟩, hstatus⟩, _⟩, _⟩ := h
    rcases hstatus with hstatus | hstatus <;> simp [hstatus, hstage, hfinal]

/-- An update that hands the items it selects on, and drops no claim of the others. -/
theorem kept_updateItem {store store' : Store} {itemId tenantId : Uuid} {selected : RunItem → Bool}
    {change : RunItem → RunItem} (hkept : ∀ item ∈ store.items, item.Kept A E)
    (hitems : store'.items = (store.updateItem itemId tenantId selected change).items)
    (hchange : ∀ item ∈ store.items, item.claim = ⟨itemId, tenantId⟩ → (change item).Kept A' E')
    (hA : ∀ item : RunItem, (item.claim = ⟨itemId, tenantId⟩ → selected item = false) →
      item.itemStatus = .acquiring → item.claim ∈ A → item.claim ∈ A')
    (hE : ∀ item : RunItem, (item.claim = ⟨itemId, tenantId⟩ → selected item = false) →
      item.itemStatus = .extracting → item.claim ∈ E → item.claim ∈ E') :
    ∀ item ∈ store'.items, item.Kept A' E' := by
  intro item hitem
  rw [hitems] at hitem
  rcases mem_updateItem hitem with ⟨hold, hother⟩ | ⟨old, hold, hid, htenant, hselected, rfl⟩
  · have hunselected : item.claim = ⟨itemId, tenantId⟩ → selected item = false := by
      intro hclaim
      obtain ⟨hid, htenant⟩ : item.itemId = itemId ∧ item.tenantId = tenantId := by
        simpa [RunItem.claim] using hclaim
      simpa [hid, htenant] using hother
    exact (hkept item hold).mono (hA item hunselected) (hE item hunselected)
  · exact hchange old hold (by simp [RunItem.claim, hid, htenant])

/-! ## 4. Calls that record -/

/-- No item of the claim has a status. -/
def Store.NoneOf (store : Store) (claim : Claim) (bad : RunItem → Prop) : Prop :=
  ∀ item ∈ store.items, item.claim = claim → ¬ bad item

/-- **The calls record what comes of them**: a call that ends has recorded something, or
    its item has left the status of the claim; and what is to be tried again is not
    recorded of an item whose pipeline is complete. -/
def Recording (world : World) : Action → Prop
  | .leaveAcquisition index => ∀ call ∈ world.acquisitions[index]?,
      call.unrecorded = true → world.store.NoneOf call.claim (·.itemStatus = .acquiring)
  | .leaveProcessing index => ∀ call ∈ world.processings[index]?,
      call.unrecorded = true → world.store.NoneOf call.claim (·.itemStatus = .extracting)
  | .acquisition index (.fail _ _ final) => ∀ call ∈ world.acquisitions[index]?,
      ∀ work ∈ call.phase.work,
        final = true ∨ call.settings.workerMaxAttempts ≤ work.attemptCount ∨
          world.store.NoneOf call.claim (·.pipelineStage = .complete)
  | .processing index (.fail _ _ final) => ∀ call ∈ world.processings[index]?,
      ∀ work ∈ call.phase.work,
        final = true ∨ call.settings.workerMaxAttempts ≤ work.processingAttemptCount ∨
          world.store.NoneOf call.claim (·.pipelineStage = .complete)
  | _ => True

instance (store : Store) (claim : Claim) (bad : RunItem → Prop) [DecidablePred bad] :
    Decidable (store.NoneOf claim bad) :=
  inferInstanceAs (Decidable (∀ item ∈ store.items, item.claim = claim → ¬ bad item))

instance (world : World) : (action : Action) → Decidable (Recording world action)
  | .leaveAcquisition index => inferInstanceAs (Decidable (∀ call ∈ world.acquisitions[index]?,
      call.unrecorded = true → world.store.NoneOf call.claim (·.itemStatus = .acquiring)))
  | .leaveProcessing index => inferInstanceAs (Decidable (∀ call ∈ world.processings[index]?,
      call.unrecorded = true → world.store.NoneOf call.claim (·.itemStatus = .extracting)))
  | .acquisition index (.fail _ _ final) => inferInstanceAs (Decidable (∀ call ∈
      world.acquisitions[index]?, ∀ work ∈ call.phase.work, final = true ∨
        call.settings.workerMaxAttempts ≤ work.attemptCount ∨
          world.store.NoneOf call.claim (·.pipelineStage = .complete)))
  | .processing index (.fail _ _ final) => inferInstanceAs (Decidable (∀ call ∈
      world.processings[index]?, ∀ work ∈ call.phase.work, final = true ∨
        call.settings.workerMaxAttempts ≤ work.processingAttemptCount ∨
          world.store.NoneOf call.claim (·.pipelineStage = .complete)))
  | .acquisition _ (.load _) | .acquisition _ (.block _) | .acquisition _ (.skip _ _)
  | .acquisition _ (.complete _ _) | .processing _ (.load _) | .processing _ (.start _ _ _)
  | .processing _ .replay | .processing _ (.persist _ _ _) | .govern _ _ | .importEntry _ _
  | .decideManifest _ _ _ | .createRun _ _ _ | .createRefreshRun _ _ _ _ | .authorizeUpload _ _ _
  | .completeUpload _ _ _ | .approveDocument _ _ _ _ | .publishDocument _ _ _ _ _
  | .retireDocument _ _ _ | .claimAcquisition _ _ | .claimProcessing _ _ => isTrue trivial

/-- Every promise is kept, and every call works on the item it claimed. -/
structure World.Sound (world : World) : Prop where
  items : ∀ item ∈ world.store.items, item.Kept world.acquiring world.extracting
  acquisitions : ∀ call ∈ world.acquisitions, ∀ work, call.phase.work = some work →
    call.claim = ⟨work.itemId, work.tenantId⟩
  processings : ∀ call ∈ world.processings, ∀ work, call.phase.work = some work →
    call.claim = ⟨work.itemId, work.tenantId⟩

theorem World.AtRest.sound {world : World} (h : world.AtRest) : world.Sound where
  items := by
    intro item hitem
    rcases h.items item hitem with hsettled | hreclaimable | ⟨hstatus, hstage, hfinal⟩
    · exact hsettled.kept
    · exact hreclaimable.kept
    · simp [RunItem.Kept, hstatus, hstage, hfinal]
  acquisitions := by simp [h.noAcquisition]
  processings := by simp [h.noProcessing]

theorem loadAcquisition_key {settings : WorkerSettings} {now : Instant} {claim : Claim}
    {store : Store} {work : AcquisitionWork}
    (h : loadAcquisition settings now claim store = .ok work) :
    claim = ⟨work.itemId, work.tenantId⟩ := by
  unfold loadAcquisition at h
  dsimp only at h
  split at h
  · split at h
    · split at h
      · split at h
        · cases h
          rfl
        · cases h
      · cases h
    · cases h
  · cases h

theorem loadProcessing_key {settings : WorkerSettings} {now : Instant} {claim : Claim}
    {store : Store} {work : ProcessingWork}
    (h : loadProcessing settings now claim store = .ok work) :
    claim = ⟨work.itemId, work.tenantId⟩ := by
  unfold loadProcessing at h
  dsimp only at h
  split at h
  · split at h
    · split at h
      · split at h
        · split at h
          · cases h
            rfl
          · cases h
        · cases h
      · cases h
    · cases h
  · cases h

/-! ## 5. A step keeps the promises -/

section Step

variable {store store' : Store} {index : Nat}

/-- An acquisition call that records gives up its claim: no item of the claim stays
    ACQUIRING. -/
theorem acquisition_recorded {calls : List AcquisitionCall} {call call' : AcquisitionCall}
    {work : AcquisitionWork} {selected : RunItem → Bool} {change : RunItem → RunItem}
    (hkept : ∀ item ∈ store.items, item.Kept (claimsOf AcquisitionCall.unrecorded (·.claim) calls) E)
    (hcall : calls[index]? = some call) (hkey : call.claim = ⟨work.itemId, work.tenantId⟩)
    (hitems : store'.items = (store.updateItem work.itemId work.tenantId selected change).items)
    (hselected : ∀ item : RunItem, item.itemStatus = .acquiring → selected item = true)
    (hchange : ∀ item ∈ store.items, item.claim = call.claim → ∀ A E, (change item).Kept A E) :
    ∀ item ∈ store'.items,
      item.Kept (claimsOf AcquisitionCall.unrecorded (·.claim) (calls.set index call')) E := by
  refine kept_updateItem hkept hitems ?_ ?_ ?_
  · exact fun item hitem hclaim => hchange item hitem (hclaim.trans hkey.symm) _ _
  · intro item hunselected hacquiring hmem
    refine mem_claimsOf_set hcall (fun _ heq => ?_) hmem
    have hunselected' := hunselected (heq.trans hkey)
    rw [hselected item hacquiring] at hunselected'
    cases hunselected'
  · exact fun _ _ _ hmem => hmem

theorem processing_recorded {calls : List ProcessingCall} {call call' : ProcessingCall}
    {work : ProcessingWork} {change : RunItem → RunItem}
    (hkept : ∀ item ∈ store.items, item.Kept A (claimsOf ProcessingCall.unrecorded (·.claim) calls))
    (hcall : calls[index]? = some call) (hkey : call.claim = ⟨work.itemId, work.tenantId⟩)
    (hitems : store'.items =
      (store.updateItem work.itemId work.tenantId (fun _ => true) change).items)
    (hchange : ∀ item ∈ store.items, item.claim = call.claim → ∀ A E, (change item).Kept A E) :
    ∀ item ∈ store'.items,
      item.Kept A (claimsOf ProcessingCall.unrecorded (·.claim) (calls.set index call')) := by
  refine kept_updateItem hkept hitems ?_ ?_ ?_
  · exact fun item hitem hclaim => hchange item hitem (hclaim.trans hkey.symm) _ _
  · exact fun _ _ _ hmem => hmem
  · intro item hunselected _ hmem
    exact mem_claimsOf_set hcall (fun _ heq => absurd (hunselected (heq.trans hkey)) (by simp)) hmem

theorem acquisition_items {calls : List AcquisitionCall} {call : AcquisitionCall}
    {event : AcquisitionEvent} {phase : AcquisitionPhase} {acquired : List Acquired}
    (hkept : ∀ item ∈ store.items, item.Kept (claimsOf AcquisitionCall.unrecorded (·.claim) calls) E)
    (hcall : calls[index]? = some call)
    (hkey : ∀ work, call.phase.work = some work → call.claim = ⟨work.itemId, work.tenantId⟩)
    (hrecording : ∀ now code final work, event = .fail now code final → call.phase.work = some work →
      final = true ∨ call.settings.workerMaxAttempts ≤ work.attemptCount ∨
        store.NoneOf call.claim (·.pipelineStage = .complete))
    (h : AcquisitionStep d call store event phase store' acquired) :
    ∀ item ∈ store'.items, item.Kept
      (claimsOf AcquisitionCall.unrecorded (·.claim) (calls.set index { call with phase })) E := by
  cases h with
  | load hphase hload =>
      intro item hitem
      refine (hkept item hitem).mono (fun _ hmem => ?_) (fun _ hmem => hmem)
      exact mem_claimsOf_set hcall (fun _ heq => ⟨rfl, heq.symm⟩) hmem
  | block hphase hreasons =>
      refine acquisition_recorded hkept hcall (hkey _ (by simp [hphase, AcquisitionPhase.work]))
        finalizeRun_items (fun _ _ => rfl) (fun item _ _ A E => ?_)
      simp [RunItem.Kept]
  | @skip now work removed hphase hreasons hrefresh =>
      refine acquisition_recorded hkept hcall (hkey _ (by simp [hphase, AcquisitionPhase.work]))
        finalizeRun_items (fun _ hacquiring => by simp [hacquiring]) (fun item _ _ A E => ?_)
      cases removed <;> simp [RunItem.Kept]
  | complete hphase hreasons hcomplete =>
      obtain ⟨stored, hitems, _⟩ := (completeAcquisition_completed hcomplete).items
      refine acquisition_recorded hkept hcall (hkey _ (by simp [hphase, AcquisitionPhase.work]))
        hitems (fun _ hacquiring => by simp [hacquiring]) (fun item _ _ A E => ?_)
      cases stored <;> simp [RunItem.Kept, finishedItem]
  | @fail now work code final hphase =>
      have hwork : call.phase.work = some work := by
        rcases hphase with hphase | hphase <;> simp [hphase, AcquisitionPhase.work]
      refine acquisition_recorded hkept hcall (hkey work hwork) finalizeRun_items (fun _ _ => rfl)
        (fun item hitem hclaim A E => ?_)
      rcases hrecording now code final work rfl hwork with hfinal | hattempts | hstage
      · simp [RunItem.Kept, acquisitionFailedItem, hfinal]
      · simp [RunItem.Kept, acquisitionFailedItem, hattempts]
      · exact Or.inr (hstage item hitem hclaim)

theorem processing_items {calls : List ProcessingCall} {call : ProcessingCall}
    {event : ProcessingEvent} {phase : ProcessingPhase}
    (hkept : ∀ item ∈ store.items, item.Kept A (claimsOf ProcessingCall.unrecorded (·.claim) calls))
    (hcall : calls[index]? = some call)
    (hkey : ∀ work, call.phase.work = some work → call.claim = ⟨work.itemId, work.tenantId⟩)
    (hrecording : ∀ now code final work, event = .fail now code final → call.phase.work = some work →
      final = true ∨ call.settings.workerMaxAttempts ≤ work.processingAttemptCount ∨
        store.NoneOf call.claim (·.pipelineStage = .complete))
    (h : ProcessingStep d call store event phase store') :
    ∀ item ∈ store'.items, item.Kept A
      (claimsOf ProcessingCall.unrecorded (·.claim) (calls.set index { call with phase })) := by
  have hsame : store'.items = store.items → ({ call with phase } : ProcessingCall).unrecorded = true →
      ∀ item ∈ store'.items, item.Kept A
        (claimsOf ProcessingCall.unrecorded (·.claim) (calls.set index { call with phase })) := by
    intro hitems hunrecorded item hitem
    rw [hitems] at hitem
    refine (hkept item hitem).mono (fun _ hmem => hmem) (fun _ hmem => ?_)
    exact mem_claimsOf_set hcall (fun _ heq => ⟨hunrecorded, heq.symm⟩) hmem
  cases h with
  | load hphase hload => exact hsame rfl rfl
  | start hphase hstart => exact hsame (startProcessing_items hstart) rfl
  | replay hphase =>
      refine processing_recorded hkept hcall (hkey _ (by simp [hphase, ProcessingPhase.work])) rfl
        (fun item _ _ A E => ?_)
      simp [RunItem.Kept]
  | @persist now work processingId parsed context status u store' hphase hpersist =>
      refine processing_recorded hkept hcall (hkey _ (by simp [hphase, ProcessingPhase.work]))
        (persist_items hpersist) (fun item _ _ A E => ?_)
      by_cases hfailed : status = .failed <;> simp [RunItem.Kept, processedItem, hfailed]
  | @fail now work processing code final hphase =>
      have hwork : call.phase.work = some work := by simp [hphase, ProcessingPhase.work]
      refine processing_recorded hkept hcall (hkey work hwork) processingFailed_items
        (fun item hitem hclaim A E => ?_)
      rcases hrecording now code final work rfl hwork with hfinal | hattempts | hstage
      · simp [RunItem.Kept, processingFailedItem, hfinal]
      · simp [RunItem.Kept, processingFailedItem, hattempts]
      · exact Or.inr (hstage item hitem hclaim)

end Step

/-- **Every step whose calls record keeps the promises.** -/
theorem World.Sound.step {world world' : World} {action : Action} (h : world.Sound)
    (hrecording : Recording world action) (hstep : WorldStep d world action world') :
    world'.Sound := by
  cases hstep.stepped with
  | @command action store' hcommand =>
      refine ⟨fun item hitem => ?_, h.acquisitions, h.processings⟩
      cases command_items hcommand hitem with
      | kept hold => exact h.items item hold
      | created hnew =>
          rcases hnew.status with hstatus | hstatus <;>
            simp [RunItem.Kept, hstatus, hnew.stage, hnew.notFinal]
      | @queued old now hold hstatus heq =>
          have hpromise : old.pipelineStage = .acquisition ∧ old.finalFailure = false := by
            have hkept := h.items old hold
            simpa [RunItem.Kept, hstatus] using hkept
          subst heq
          simp [RunItem.Kept, hpromise]
      | published hold hversion heq hstatus => simp [RunItem.Kept, hstatus]
  | @claimAcquisition settings env item hcandidate =>
      refine ⟨?_, ?_, h.processings⟩
      · refine kept_updateItem h.items rfl (fun old hold hclaim => ?_) ?_
          (fun _ _ _ hmem => hmem)
        · exact mem_claimsOf.mpr ⟨_, List.mem_append_right _ (List.mem_singleton_self _), rfl,
            hclaim.symm⟩
        · exact fun _ _ _ hmem => mem_claimsOf_append hmem
      · intro call hcall work hwork
        rcases List.mem_append.mp hcall with hold | hnew
        · exact h.acquisitions call hold work hwork
        · rw [List.mem_singleton.mp hnew] at hwork
          cases hwork
  | @acquisition index event call phase store' acquired hcall hevent =>
      have hmem := List.mem_of_getElem? hcall
      refine ⟨?_, ?_, h.processings⟩
      · refine acquisition_items h.items hcall (h.acquisitions call hmem) ?_ hevent
        rintro now code final work rfl hwork
        exact hrecording call hcall work hwork
      · intro other hother work hwork
        rcases List.mem_or_eq_of_mem_set hother with hold | rfl
        · exact h.acquisitions other hold work hwork
        · cases hevent with
          | load hphase hload =>
              cases hwork
              exact loadAcquisition_key hload
          | skip hphase | complete hphase =>
              cases hwork
              exact h.acquisitions call hmem _ (by simp [hphase, AcquisitionPhase.work])
          | block | fail => cases hwork
  | @leaveAcquisition index =>
      refine ⟨fun item hitem => ?_, fun call hcall => ?_, h.processings⟩
      · refine (h.items item hitem).mono (fun hacquiring hmem => ?_) (fun _ hmem => hmem)
        refine mem_claimsOf_eraseIdx (fun call hcall hunrecorded hclaim => ?_) hmem
        exact hrecording call hcall hunrecorded item hitem hclaim hacquiring
      · exact h.acquisitions call (List.mem_of_mem_eraseIdx hcall)
  | @claimProcessing settings env item hcandidate =>
      refine ⟨?_, h.acquisitions, ?_⟩
      · refine kept_updateItem h.items rfl (fun old hold hclaim => ?_)
          (fun _ _ _ hmem => hmem) ?_
        · exact mem_claimsOf.mpr ⟨_, List.mem_append_right _ (List.mem_singleton_self _), rfl,
            hclaim.symm⟩
        · exact fun _ _ _ hmem => mem_claimsOf_append hmem
      · intro call hcall work hwork
        rcases List.mem_append.mp hcall with hold | hnew
        · exact h.processings call hold work hwork
        · rw [List.mem_singleton.mp hnew] at hwork
          cases hwork
  | @processing index event call phase store' hcall hevent =>
      have hmem := List.mem_of_getElem? hcall
      refine ⟨?_, h.acquisitions, ?_⟩
      · refine processing_items h.items hcall (h.processings call hmem) ?_ hevent
        rintro now code final work rfl hwork
        exact hrecording call hcall work hwork
      · intro other hother work hwork
        rcases List.mem_or_eq_of_mem_set hother with hold | rfl
        · exact h.processings other hold work hwork
        · cases hevent with
          | load hphase hload =>
              cases hwork
              exact loadProcessing_key hload
          | start hphase =>
              cases hwork
              exact h.processings call hmem _ (by simp [hphase, ProcessingPhase.work])
          | replay | persist | fail => cases hwork
  | @leaveProcessing index =>
      refine ⟨fun item hitem => ?_, h.acquisitions, fun call hcall => ?_⟩
      · refine (h.items item hitem).mono (fun _ hmem => hmem) (fun hextracting hmem => ?_)
        refine mem_claimsOf_eraseIdx (fun call hcall hunrecorded hclaim => ?_) hmem
        exact hrecording call hcall hunrecorded item hitem hclaim hextracting
      · exact h.processings call (List.mem_of_mem_eraseIdx hcall)

/-- **No item is stranded in a run whose calls record.** -/
theorem no_item_stranded {world₀ world : World} {actions : List Action} (hrest : world₀.AtRest)
    (hrun : Run (Guarded Recording (WorldStep d)) world₀ actions world) :
    ∀ item ∈ world.store.items, ¬ world.Stranded item := by
  have hsound : world.Sound :=
    hrun.invariant hrest.sound fun _ _ _ h hs => h.step hs.1 hs.2
  exact fun item hitem => (hsound.items item hitem).not_stranded

/-! ## 6. A call that ends too early -/

/-- An item in the status of a claim is not claimed again. -/
theorem claimed_stranded {world : World}
    (hstatus : item.itemStatus = .acquiring ∨ item.itemStatus = .extracting)
    (hacquiring : item.claim ∉ world.acquiring) (hextracting : item.claim ∉ world.extracting) :
    world.Stranded item := by
  have hnot : ∀ now, acquirable now item = false ∧ processable now item = false := by
    intro now
    rcases hstatus with hstatus | hstatus <;> simp [acquirable, processable, hstatus]
  refine ⟨?_, ?_, ?_, hacquiring, hextracting⟩
  · rcases hstatus with hstatus | hstatus <;> simp [hstatus]
  · rcases hstatus with hstatus | hstatus <;> simp [RunItem.Settled, hstatus]
  · rintro ⟨t, ht⟩
    rcases ht t le_rfl with h | h
    · rw [(hnot t).1] at h
      cases h
    · rw [(hnot t).2] at h
      cases h

/-- The item of an upload that is complete. -/
def uploadedItem : RunItem where
  itemId := 5
  runId := 6
  manifestEntryId := 4
  tenantId := 3
  itemStatus := .queued
  pipelineStage := .acquisition
  finalFailure := false
  sourceRowVersion := 1
  manifestEntryRowVersion := 1
  quarantineObjectKey := "quarantine/5"
  documentId := none
  documentVersionId := none
  attemptCount := 0
  processingAttemptCount := 0
  nextAttemptAt := 0
  processingNextAttemptAt := 0
  lockedAt := none
  lockedBy := none
  errorCode := none
  changeClassification := none
  previousSha256 := none
  observedSha256 := none
  completedAt := none
  createdAt := 0
  rowVersion := 2

def uploadedRun : IngestionRun where
  runId := 6
  tenantId := 3
  runType := .acquisition
  runStatus := .queued
  totalItems := 1
  completedItems := 0
  failedItems := 0
  startedAt := none
  completedAt := none
  rowVersion := 1

def uploadedWorld : World where
  store := { emptyStore with
    sources := [boilerplateSource]
    manifests := [boilerplateManifest]
    runs := [uploadedRun]
    items := [uploadedItem] }
  acquisitions := []
  processings := []
  acquired := []

def sampleDeployment : Deployment where
  py := boilerplateRuntime
  chunking := defaultChunking
  modelCode := "DEFAULT_1536"
  oracleEnabled := false

def sampleWorker : WorkerSettings where
  workerId := "worker-1"
  workerMaxAttempts := 3
  oracleDocumentAcquisitionEnabled := false
  attempts_bounds := by decide

theorem uploadedWorld_atRest : uploadedWorld.AtRest where
  noAcquisition := rfl
  noProcessing := rfl
  items := by
    intro item hitem
    obtain rfl : item = uploadedItem := List.mem_singleton.mp hitem
    exact Or.inr (Or.inl (acquirable_from (Or.inl rfl) rfl rfl))

/-- The attempt fails and is recorded: the item is tried again later. -/
def recordedAttempt : List Action :=
  [.claimAcquisition sampleWorker ⟨0, []⟩, .acquisition 0 (.load 0),
   .acquisition 0 (.fail second "StorageError" false), .leaveAcquisition 0]

theorem no_item_stranded_sample :
    ∃ world : World, (∃ item ∈ world.store.items, item.itemStatus = .failed) ∧
      ∀ item ∈ world.store.items, ¬ world.Stranded item := by
  have hrun : ∃ world, recordedAttempt.foldlM (fun world action =>
      if Recording world action then world.next sampleDeployment action else none) uploadedWorld =
        some world ∧ ∃ item ∈ world.store.items, item.itemStatus = .failed := by
    refine ⟨_, rfl, ?_⟩
    decide +kernel
  obtain ⟨world, hrun, hfailed⟩ := hrun
  exact ⟨world, hfailed, no_item_stranded uploadedWorld_atRest (guarded_run_of_foldlM hrun)⟩

/-- **A worker that crashes after its claim strands the item.** -/
theorem claimed_item_stranded :
    ¬ ∀ (d : Deployment) (world₀ world : World) (actions : List Action), world₀.AtRest →
      Run (WorldStep d) world₀ actions world → ∀ item ∈ world.store.items, ¬ world.Stranded item := by
  intro hclaim
  have hrun : [Action.claimAcquisition sampleWorker ⟨0, []⟩, .leaveAcquisition 0].foldlM
      (fun world action => world.next sampleDeployment action) uploadedWorld = some
        { uploadedWorld with
          store := { uploadedWorld.store with
            items := [acquisitionClaimed 0 "worker-1" uploadedItem] } } := rfl
  refine hclaim sampleDeployment _ _ _ uploadedWorld_atRest (run_of_foldlM hrun) _
    (List.mem_singleton_self _) ?_
  exact claimed_stranded (Or.inl rfl) (by decide) (by decide)

end Helpdesk.Knowledge
