/-
  File:      Helpdesk/Attachments/Promotion.lean
  Subject:   Which bytes become a released attachment or an acquired original.

  Both the API and the acquisition worker read, check and scan the object of a
  quarantine key and then copy the object of that key. They share one bucket, and the
  keys are those that upload URLs are issued for.

  * `World.Verified`: what is at a final key has the checksum of its row and was the
    input of a clean scan;
  * `World.Unaltered`: the copies that take what was read;
  * `promoted_verified`: runs of such copies keep every final object verified;
  * `replaced_upload_released`: an upload between the scan and the copy is released.
-/
import Helpdesk.Knowledge.Originals
import Helpdesk.Knowledge.Stranding

namespace Helpdesk.Attachments

open Helpdesk.Python

/-! ## 1. One bucket -/

/-- What is the same for all of a deployment. -/
structure Hosting where
  /-- `hashlib.sha256(content).hexdigest()` -/
  sha256 : Bytes → String
  settings : Settings
  knowledge : Knowledge.Deployment

structure World where
  storage : Storage
  attachments : System
  originals : Knowledge.Originals

inductive Activity where
  | attachment (action : Action)
  | original (action : Knowledge.OriginalAction)

/-- **One step.** -/
def World.next (h : Hosting) (world : World) : Activity → Option World
  | .attachment action =>
      (Attachments.next h.sha256 h.settings world.storage world.attachments action).map
        fun (storage, attachments) => { world with storage, attachments }
  | .original action =>
      (world.originals.next h.sha256 h.knowledge world.storage action).map
        fun (storage, originals) => { world with storage, originals }

def WorldStep (h : Hosting) (world : World) (activity : Activity) (world' : World) : Prop :=
  world.next h activity = some world'

/-- The content at the key has the checksum and was the input of a clean scan. -/
def World.HasVerified (sha256 : Bytes → String) (world : World) (key checksum : String) : Prop :=
  world.storage.bucket.Holds key fun content =>
    sha256 content = checksum ∧ content ∈ world.storage.scanned

/-- **What is released or acquired is what was checked and scanned.** -/
structure World.Verified (sha256 : Bytes → String) (world : World) : Prop where
  attachments : ∀ row ∈ world.attachments.rows, row.quarantineStatus = .released →
    ∃ key, row.protectedObjectUri = some key ∧ world.HasVerified sha256 key row.sha256Checksum
  originals : ∀ version ∈ world.originals.world.store.versions,
    world.HasVerified sha256 version.originalFileUri version.sha256Checksum

/-- Nobody is at work; the keys are those of the code. -/
structure World.AtRest (sha256 : Bytes → String) (world : World) : Prop where
  noCall : world.attachments.calls = []
  noAcquisition : world.originals.world.acquisitions = []
  noHolding : world.originals.holdings = []
  ids : (world.attachments.rows.map (·.attachmentId)).Nodup
  rows : ∀ row ∈ world.attachments.rows, row.WellFormed ∧
    (row.quarantineStatus = .released → row.protectedObjectUri = some row.protectedKey)
  items : ∀ item ∈ world.originals.world.store.items, Under "quarantine/" item.quarantineObjectKey
  versions : ∀ version ∈ world.originals.world.store.versions,
    Under "knowledge/" version.originalFileUri
  verified : world.Verified sha256

/-! ## 2. Every final object is verified -/

/-- Both invariants, over the one bucket. -/
structure World.Sound (sha256 : Bytes → String) (world : World) : Prop where
  attachments : world.attachments.Sound sha256 world.storage
  originals : world.originals.Sound sha256 world.storage

variable {h : Hosting} {world world' : World}

theorem World.AtRest.sound {sha256 : Bytes → String} (hrest : world.AtRest sha256) :
    world.Sound sha256 where
  attachments := {
    ids := hrest.ids
    rows := fun row hrow => (hrest.rows row hrow).1
    released := by
      intro row hrow hstatus
      obtain ⟨key, huri, hverified⟩ := hrest.verified.attachments row hrow hstatus
      have hkey := (hrest.rows row hrow).2 hstatus
      obtain rfl : row.protectedKey = key := Option.some.inj (hkey.symm.trans huri)
      exact ⟨hkey, hverified⟩
    known := by
      rw [hrest.noCall]
      exact fun _ hcall => nomatch hcall
    calls := by
      rw [hrest.noCall]
      exact fun _ hcall => nomatch hcall }
  originals := {
    items := by
      intro key hkey
      obtain ⟨item, hitem, rfl⟩ := List.mem_map.mp hkey
      exact hrest.items item hitem
    works := by
      rw [hrest.noAcquisition]
      exact fun _ hcall => nomatch hcall
    holdings := by
      rw [hrest.noHolding]
      exact fun _ hholding => nomatch hholding
    versions := by
      intro file hfile
      obtain ⟨version, hversion, rfl⟩ := List.mem_map.mp hfile
      exact ⟨hrest.versions version hversion, hrest.verified.originals version hversion⟩ }

theorem World.Sound.verified {sha256 : Bytes → String} (hsound : world.Sound sha256) :
    world.Verified sha256 where
  attachments row hrow hstatus := by
    obtain ⟨huri, hpromoted⟩ := hsound.attachments.released row hrow hstatus
    exact ⟨row.protectedKey, huri, hpromoted⟩
  originals version hversion := (hsound.originals.versions _ (List.mem_map_of_mem hversion)).2

/-- **A copy takes what was read**: nobody has put other bytes at its source since, and no
    version with another checksum is stored at its target. -/
def World.Unaltered (h : Hosting) (world : World) : Activity → Prop
  | .attachment action => Attachments.Unaltered world.storage world.attachments action
  | .original action => world.originals.Unaltered h.sha256 h.knowledge world.storage action

instance (activity : Activity) : Decidable (world.Unaltered h activity) := by
  unfold World.Unaltered
  split <;> infer_instance

/-- **Each step keeps both invariants**: its own, and the other one because the bucket's
    folders are apart. -/
theorem World.Sound.step {activity : Activity} (hsound : world.Sound h.sha256)
    (hunaltered : world.Unaltered h activity) (hstep : WorldStep h world activity world') :
    world'.Sound h.sha256 := by
  cases activity with
  | attachment action =>
      obtain ⟨⟨storage, attachments⟩, hnext, rfl⟩ := Option.map_eq_some_iff.mp hstep
      obtain ⟨hsame, hscanned⟩ := next_sameOn hsound.attachments
        (fun _ => Knowledge.quarantined_not_original) (fun _ hkey => hkey.not_under (by decide)) hnext
      exact ⟨next_sound hsound.attachments hunaltered hnext,
        hsound.originals.sameOn hscanned hsame⟩
  | original action =>
      obtain ⟨⟨storage, originals⟩, hnext, rfl⟩ := Option.map_eq_some_iff.mp hstep
      obtain ⟨hsame, hscanned⟩ := Knowledge.originals_sameOn hsound.originals
        (fun _ => quarantined_not_protected) (fun _ hkey => hkey.not_under (by decide)) hnext
      exact ⟨hsound.attachments.sameOn hscanned hsame,
        Knowledge.originals_sound hsound.originals hunaltered hnext⟩

/-- **The bytes that are released or acquired are those that were checked and scanned**, in
    every run whose copies take what was read. -/
theorem promoted_verified {world₀ : World} {activities : List Activity}
    (hrest : world₀.AtRest h.sha256)
    (hr : Run (Guarded (World.Unaltered h) (WorldStep h)) world₀ activities world) :
    world.Verified h.sha256 := by
  have hsound : world.Sound h.sha256 := by
    refine hr.invariant hrest.sound fun world activity world' hsound hstep => ?_
    obtain ⟨hunaltered, hstep⟩ := hstep
    exact hsound.step hunaltered hstep
  exact hsound.verified

/-! ## 3. Runs -/

/-- `GIF89a` and a byte. -/
def image (last : UInt8) : Bytes := [0x47, 0x49, 0x46, 0x38, 0x39, 0x61, last]

/-- `# Guide`. -/
def guide : Bytes := [35, 32, 71, 117, 105, 100, 101]

def guideRuntime : Knowledge.Runtime where
  isWord := Knowledge.boilerplateRuntime.isWord
  sha256 := Knowledge.boilerplateRuntime.sha256
  uuid5 := fun name =>
    if name = "helpdesk:00000000-0000-0000-0000-000000000002:manual" then
      249308141270859534702756631672018513803
    else 64248483447326180695758528381292366843

def sampleHosting : Hosting where
  sha256 := fun content =>
    if content = image 0 then "b3e707e1d324ecee5097f6fe1570a6ad11ec951ed534de9f01e1f6793e19fbb0"
    else if content = image 1 then
      "f82624464e9e95dfae29e0e54c360aff84dda3c419fc8c3bd10ef668bbe7df9e"
    else "ca85e859db5c1f8ab39081106a1ccbe7e2a618fac858824eb09033b48ea7ce05"
  settings := ⟨100, 3, 30⟩
  knowledge := { Knowledge.sampleDeployment with py := guideRuntime }

/-- A document was announced for upload. -/
def announced : World where
  storage := ⟨fun _ => none, []⟩
  attachments := ⟨[], []⟩
  originals := ⟨Knowledge.uploadedWorld, []⟩

theorem announced_atRest : announced.AtRest sampleHosting.sha256 where
  noCall := rfl
  noAcquisition := rfl
  noHolding := rfl
  ids := List.nodup_nil
  rows _ hrow := absurd hrow List.not_mem_nil
  items := by
    intro item hitem
    obtain rfl : item = Knowledge.uploadedItem := List.mem_singleton.mp hitem
    show "quarantine/".toList <+: "quarantine/5".toList
    decide
  versions _ hversion := absurd hversion List.not_mem_nil
  verified := ⟨fun _ hrow => absurd hrow List.not_mem_nil,
    fun _ hversion => absurd hversion List.not_mem_nil⟩

/-- An image is uploaded, read and scanned. -/
def scannedImage : List Activity :=
  [.attachment (.authorize 1 3 2 ⟨"a.gif", "image/gif", 7,
      "b3e707e1d324ecee5097f6fe1570a6ad11ec951ed534de9f01e1f6793e19fbb0"⟩),
   .attachment (.upload 1 (image 0)), .attachment (.begin 0 1), .attachment (.call 0 .read),
   .attachment (.call 0 (.scan (.clean "ClamAV" "1.4")))]

def releasedImage : List Activity :=
  [.attachment (.call 0 .copy), .attachment (.call 0 .delete), .attachment (.call 0 (.commit 0))]

/-- A guide is uploaded and acquired. -/
def acquiredGuide : List Activity :=
  [.original (.upload 5 guide), .original (.world (.claimAcquisition Knowledge.sampleWorker ⟨0, []⟩)),
   .original (.world (.acquisition 0 (.load 0))), .original (.read 0), .original (.scanClean 0),
   .original (.complete 0 0 "text/markdown"), .original (.discard 0)]

theorem promoted_verified_sample :
    ∃ world : World, world.attachments.rows.map (·.quarantineStatus) = [.released] ∧
      world.originals.world.store.versions.length = 1 ∧ world.Verified sampleHosting.sha256 := by
  have hrun : ∃ world, (acquiredGuide ++ scannedImage ++ releasedImage).foldlM
      (fun world activity => if world.Unaltered sampleHosting activity then
        world.next sampleHosting activity else none) announced = some world ∧
      (world.attachments.rows.map (·.quarantineStatus),
        world.originals.world.store.versions.length) = ([.released], 1) := by
    rw [← Option.map_eq_some_iff]
    decide +kernel
  obtain ⟨world, hrun, hworld⟩ := hrun
  obtain ⟨hreleased, hversions⟩ := Prod.mk.inj hworld
  exact ⟨world, hreleased, hversions,
    promoted_verified announced_atRest (guarded_run_of_foldlM hrun)⟩

/-- **Another image is uploaded between the scan and the copy, and is released.** -/
theorem replaced_upload_released :
    ¬ ∀ (h : Hosting) (world₀ world : World) (activities : List Activity),
      world₀.AtRest h.sha256 → Run (WorldStep h) world₀ activities world →
        world.Verified h.sha256 := by
  intro hclaim
  have hrun : ∃ world : World, (scannedImage ++ [Activity.attachment (.upload 1 (image 1))] ++
      releasedImage).foldlM (World.next sampleHosting) announced = some world ∧
      (world.attachments.rows.map fun row => (row.quarantineStatus, row.sha256Checksum,
        row.protectedObjectUri.bind world.storage.bucket)) =
          [(.released, sampleHosting.sha256 (image 0), some (image 1))] := by
    rw [← Option.map_eq_some_iff]
    decide +kernel
  obtain ⟨world, hrun, hworld⟩ := hrun
  have hverified := hclaim sampleHosting announced world _ announced_atRest (run_of_foldlM hrun)
  obtain ⟨row, hrow, hvalues⟩ := List.mem_map.mp (hworld ▸ List.mem_singleton_self _)
  simp only [Prod.mk.injEq] at hvalues
  obtain ⟨hstatus, hsha, hobject⟩ := hvalues
  obtain ⟨key, hkey, content, hcontent, hchecksum, _⟩ := hverified.attachments row hrow hstatus
  rw [hkey, Option.bind_some] at hobject
  obtain rfl : image 1 = content := Option.some.inj (hobject.symm.trans hcontent)
  rw [hsha] at hchecksum
  revert hchecksum
  decide

end Helpdesk.Attachments
