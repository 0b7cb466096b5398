import Rts2.Kernel.CameraImages

/-! Every image of a camera client is finished once. What holds of the images, the current image and the queue of the
timers in every run in which no image is overwritten, forgotten or processed in place of another. -/
namespace Rts2.Kernel

open Lib

namespace CameraImage

variable {ci : CameraImage}

theorem canDelete_iff : ci.canDelete = true ↔ ci.exEnd.isSome ∧ ci.dataWriten = true ∧ ci.waitForMetaData = false := by
  unfold canDelete
  cases ci.exEnd <;> cases ci.dataWriten <;> simp

theorem waitForDevice_image (ci : CameraImage) (devClient : Nat) (after : Int) :
    (ci.waitForDevice devClient after).image = ci.image ∧ (ci.waitForDevice devClient after).dataWriten = ci.dataWriten ∧
      (ci.waitForDevice devClient after).exEnd = ci.exEnd := by
  unfold waitForDevice
  split <;> exact ⟨rfl, rfl, rfl⟩

theorem waitForTrigger_image (ci : CameraImage) (w : DevClientWriteImage) :
    (ci.waitForTrigger w).image = ci.image ∧ (ci.waitForTrigger w).dataWriten = ci.dataWriten ∧
      (ci.waitForTrigger w).exEnd = ci.exEnd := by
  unfold waitForTrigger
  split
  · exact ⟨rfl, rfl, rfl⟩
  · split <;> exact ⟨rfl, rfl, rfl⟩

theorem postMaster_image (ws : List DevClientWriteImage) (ci : CameraImage) :
    (ci.postMaster ws).image = ci.image ∧ (ci.postMaster ws).dataWriten = ci.dataWriten ∧
      (ci.postMaster ws).exEnd = ci.exEnd := by
  unfold postMaster
  induction ws generalizing ci with
  | nil => exact ⟨rfl, rfl, rfl⟩
  | cons w ws ih =>
    obtain ⟨image, data, ended⟩ := ih (ci.writeToImage w)
    have first : (ci.writeToImage w).image = ci.image ∧ (ci.writeToImage w).dataWriten = ci.dataWriten ∧
        (ci.writeToImage w).exEnd = ci.exEnd := by
      unfold writeToImage
      dsimp only
      split
      · split
        · obtain ⟨i, d, e⟩ := (ci.waitForDevice w.devClient w.now).waitForTrigger_image w
          obtain ⟨i', d', e'⟩ := ci.waitForDevice_image w.devClient w.now
          exact ⟨i.trans i', d.trans d', e.trans e'⟩
        · exact ci.waitForTrigger_image w
      · split
        · exact ci.waitForDevice_image w.devClient w.now
        · exact ⟨rfl, rfl, rfl⟩
    exact ⟨image.trans first.1, data.trans first.2.1, ended.trans first.2.2⟩

end CameraImage

def DevClientWriteImage.Waits (prematurelyReceived : List Nat) (w : DevClientWriteImage) : Prop :=
  w.devClient ∉ prematurelyReceived ∧ (w.beforeEnd = true ∨ w.triggered = true ∧ w.noImage = false)

instance (prematurelyReceived : List Nat) : DecidablePred (DevClientWriteImage.Waits prematurelyReceived) :=
  fun _ => inferInstanceAs (Decidable (_ ∧ _))

def Creation.Kept : Creation → Prop
  | .broken => False
  | .refused | .unwritten | .written _ => True

instance : DecidablePred Creation.Kept
  | .broken => isFalse id
  | .refused | .unwritten | .written _ => isTrue trivial

def Creation.Given : Creation → Prop
  | .written _ => True
  | .refused | .broken | .unwritten => False

instance : DecidablePred Creation.Given
  | .written _ => isTrue trivial
  | .refused | .broken | .unwritten => isFalse id

namespace DevClientCameraImage

variable {c : DevClientCameraImage} {rs : List Int}

def places (c : DevClientCameraImage) : List Nat :=
  c.processed.map (·.1.image) ++ c.deleted.map (·.1.image) ++ c.images.values.map CameraImage.image ++
    c.actualImage.toList.map CameraImage.image

/-- Each image that was created is in one place: it was processed, with its data and with all its metadata or by its
timer, it was deleted, without data or for a failure or a kill, or it waits. Then it is the current one, its data are
still on their way, or it lacks metadata and its timer runs. The timers are for images that wait. -/
structure Finished (c : DevClientCameraImage) : Prop where
  once : (List.range c.created).Perm c.places
  processed : ∀ p ∈ c.processed, p.1.dataWriten = true ∧ (p.1.waitForMetaData = true → p.2 = some p.1.image)
  deleted : ∀ p ∈ c.deleted, p.1.dataWriten = true → p.2 = .failed ∨ p.2 = .killed
  bare : ∀ ci ∈ c.actualImage, ci.dataWriten = false
  expected : ∀ p ∈ c.images.entries, p.2.dataWriten = false → p.1 ∈ c.readChannels
  lacking : ∀ ci ∈ c.images.values, ci.dataWriten = true → ci.waitForMetaData = true
  checked : ∀ i, i ∈ c.checkImages ↔ ∃ ci ∈ c.images.values, ci.image = i ∧ ci.dataWriten = true
  timed : c.checkImages.Sublist c.timers

def FailureHolds (c : DevClientCameraImage) : Prop := c.clears = true → c.checkImages = []

instance : Decidable c.FailureHolds := inferInstanceAs (Decidable (_ → _))

def NewDataHolds (c : DevClientCameraImage) (data_conn : Int) (creation : Creation) : Prop :=
  (c.actualImage = none → creation.Kept) ∧
    (c.actualImage.isSome ∨ creation.Given → data_conn ∉ c.images.keys)

instance (data_conn : Int) (creation : Creation) : Decidable (c.NewDataHolds data_conn creation) :=
  inferInstanceAs (Decidable ((_ → _) ∧ (_ ∨ _ → _)))

def DataHolds (c : DevClientCameraImage) (data_conn : Int) (noImage : Bool) (creation : Creation) : Prop :=
  (∀ ci ∈ c.images.find data_conn, ci.dataWriten = false ∧ (ci.exEnd.isSome ∨ noImage = true)) ∧
    (data_conn = -1 ∧ c.images.find data_conn = none →
      (∀ ci ∈ c.actualImage, ci.exEnd.isSome ∨ noImage = true) ∧
      (c.actualImage = none → creation.Kept ∧ (creation.Given → noImage = true)))

instance (data_conn : Int) (noImage : Bool) (creation : Creation) : Decidable (c.DataHolds data_conn noImage creation) :=
  inferInstanceAs (Decidable (_ ∧ (_ ∧ _ → _ ∧ _)))

def FitsHolds (c : DevClientCameraImage) : FitsFile → Prop
  | .unopened => c.FailureHolds ∧ (c.clears = false → 0 ∉ c.images.keys)
  | .uncopied => c.actualImage.isSome → c.FailureHolds ∧ (c.clears = false → 0 ∉ c.images.keys)
  | .unwritten _ => c.actualImage.isSome → c.clears = true ∧ c.checkImages = [] ∧ 0 ∉ c.images.keys
  | .written ws => c.actualImage.isSome → 0 ∉ c.images.keys ∧
      ∀ w ∈ ws, ¬ w.Waits c.prematurelyReceived

instance : DecidablePred c.FitsHolds
  | .unopened => inferInstanceAs (Decidable (_ ∧ _))
  | .uncopied => inferInstanceAs (Decidable (_ → _))
  | .unwritten _ => inferInstanceAs (Decidable (_ → _))
  | .written _ => inferInstanceAs (Decidable (_ → _ ∧ _))

/-- No image is overwritten by another or left behind, its data come once and after its exposure, failures and kills
find no image checked by a timer, and a timer finds its own image first in the queue. -/
def Holds (c : DevClientCameraImage) : ImageEvent → Prop
  | .exposureStarted expectImage creation => expectImage = true → creation.Kept
  | .newDataConn data_conn creation => c.NewDataHolds data_conn creation
  | .fullDataReceived data_conn restSize noImage _ creation =>
    if restSize > 0 then c.FailureHolds ∧ (c.clears = false → data_conn ∉ c.images.keys)
    else c.DataHolds data_conn noImage creation
  | .fitsData _ file => c.FitsHolds file
  | .exposureFailed => c.FailureHolds
  | .killAll => c.checkImages = []
  | .metadataTimeout => c.checkImages = [] ∨ c.checkImages.head? = c.timers.head?
  | .exposureEnd _ | .infoOK .. | .infoFailed .. | .triggered _ => True

instance (c : DevClientCameraImage) : DecidablePred c.Holds
  | .exposureStarted .. => inferInstanceAs (Decidable (_ → _))
  | .newDataConn .. => inferInstanceAs (Decidable (c.NewDataHolds ..))
  | .fullDataReceived _ restSize .. => inferInstanceAs (Decidable (if restSize > 0 then _ else _))
  | .fitsData .. => inferInstanceAs (Decidable (c.FitsHolds _))
  | .exposureFailed => inferInstanceAs (Decidable c.FailureHolds)
  | .killAll => inferInstanceAs (Decidable (_ = _))
  | .metadataTimeout => inferInstanceAs (Decidable (_ ∨ _))
  | .exposureEnd _ | .infoOK .. | .infoFailed .. | .triggered _ => isTrue trivial

/-- The invariant, with the data that are on their way apart: an image with data was also ended. -/
structure Kept (rs : List Int) (c : DevClientCameraImage) : Prop where
  once : (List.range c.created).Perm c.places
  processed : ∀ p ∈ c.processed, p.1.dataWriten = true ∧ (p.1.waitForMetaData = true → p.2 = some p.1.image)
  deleted : ∀ p ∈ c.deleted, p.1.dataWriten = true → p.2 = .failed ∨ p.2 = .killed
  bare : ∀ ci ∈ c.actualImage, ci.dataWriten = false
  expected : ∀ p ∈ c.images.entries, p.2.dataWriten = false → p.1 ∈ rs
  lacking : ∀ p ∈ c.images.entries, p.2.dataWriten = true → p.2.waitForMetaData = true ∧ p.2.exEnd.isSome
  checked : ∀ i, i ∈ c.checkImages ↔ ∃ p ∈ c.images.entries, p.2.image = i ∧ p.2.dataWriten = true
  timed : c.checkImages.Sublist c.timers
  distinct : c.checkImages.Nodup

theorem Kept.finished (kept : c.Kept c.readChannels) : c.Finished where
  once := kept.once
  processed := kept.processed
  deleted := kept.deleted
  bare := kept.bare
  expected := kept.expected
  lacking ci mem data := by
    obtain ⟨p, there, rfl⟩ := List.mem_map.mp mem
    exact (kept.lacking p there data).1
  checked i := by
    rw [kept.checked i]
    constructor
    · rintro ⟨p, there, same⟩
      exact ⟨p.2, List.mem_map_of_mem there, same⟩
    · rintro ⟨ci, mem, same⟩
      obtain ⟨p, there, rfl⟩ := List.mem_map.mp mem
      exact ⟨p, there, same⟩
  timed := kept.timed

theorem Kept.ids_nodup (kept : c.Kept rs) : (c.images.values.map CameraImage.image).Nodup := by
  have nodup := (kept.once.nodup_iff).mp List.nodup_range
  unfold places at nodup
  exact (List.nodup_append.mp (List.nodup_append.mp nodup).1).2.1

theorem Kept.same_image (kept : c.Kept rs) {p q : Int × CameraImage} (mem : p ∈ c.images.entries)
    (other : q ∈ c.images.entries) (same : p.2.image = q.2.image) : p = q := by
  have nodup := kept.ids_nodup
  unfold SortedMap.values at nodup
  rw [List.map_map] at nodup
  exact List.inj_on_of_nodup_map nodup mem other same

theorem range_next {made : Nat} {xs ys : List Nat} (once : (List.range made).Perm xs)
    (same : ∀ i, xs.count i + [made].count i = ys.count i) : (List.range (made + 1)).Perm ys := by
  rw [List.range_succ]
  refine List.perm_iff_count.mpr fun i => ?_
  rw [List.count_append, (List.perm_iff_count.mp once) i, same i]

theorem range_same {made : Nat} {xs ys : List Nat} (once : (List.range made).Perm xs)
    (same : ∀ i, xs.count i = ys.count i) : (List.range made).Perm ys :=
  once.trans (List.perm_iff_count.mpr same)

/-- A sweep over the images, and each image that is processed by itself: what was taken from the map had its data, and
was processed with its metadata or by its timer; the rest lacks metadata still. -/
theorem Kept.taken (kept : c.Kept rs) {images : SortedMap Int CameraImage} (taken : List CameraImage)
    (timer : Option Nat) {timers : List Nat}
    (parts : (c.images.values.map CameraImage.image).Perm
      (taken.map CameraImage.image ++ images.values.map CameraImage.image))
    (left : ∀ p ∈ images.entries, (∃ ci, (p.1, ci) ∈ c.images.entries ∧ ci.image = p.2.image ∧
      ci.dataWriten = p.2.dataWriten) ∧ (p.2.dataWriten = true → p.2.waitForMetaData = true ∧ p.2.exEnd.isSome))
    (done : ∀ ci ∈ taken, ci.dataWriten = true ∧ (ci.waitForMetaData = true → timer = some ci.image))
    (timed : (c.checkImages.diff (taken.map CameraImage.image)).Sublist timers) : Kept rs { c with
      images := images
      checkImages := c.checkImages.diff (taken.map CameraImage.image)
      processed := c.processed ++ taken.map (·, timer)
      timers := timers } where
  once := by
    refine range_same kept.once fun i => ?_
    have same := (List.perm_iff_count.mp parts) i
    have ids : (taken.map (·, timer)).map (·.1.image) = taken.map CameraImage.image := by simp
    unfold places
    dsimp only
    rw [List.map_append, ids]
    simp only [List.count_append] at same ⊢
    omega
  processed p mem := by
    rcases List.mem_append.mp mem with before | now
    · exact kept.processed p before
    · obtain ⟨ci, there, rfl⟩ := List.mem_map.mp now
      exact done ci there
  deleted := kept.deleted
  bare := kept.bare
  expected p mem data := by
    obtain ⟨ci, there, _, same⟩ := (left p mem).1
    exact kept.expected (p.1, ci) there (same.trans data)
  lacking p mem := (left p mem).2
  checked i := by
    have apart : (taken.map CameraImage.image ++ images.values.map CameraImage.image).Nodup :=
      (parts.nodup_iff).mp kept.ids_nodup
    rw [kept.distinct.mem_sdiff_iff, kept.checked i]
    constructor
    · rintro ⟨⟨p, there, rfl, data⟩, away⟩
      have stays := (parts.mem_iff (a := p.2.image)).mp (List.mem_map_of_mem (List.mem_map_of_mem there))
      rcases List.mem_append.mp stays with gone | stays
      · exact absurd gone away
      · obtain ⟨ci, mem, same⟩ := List.mem_map.mp stays
        obtain ⟨q, stays, rfl⟩ := List.mem_map.mp mem
        obtain ⟨before, was, image, written⟩ := (left q stays).1
        have one := kept.same_image there was (same.symm.trans image.symm)
        rw [one] at data
        exact ⟨q, stays, same, written.symm.trans data⟩
    · rintro ⟨q, mem, rfl, data⟩
      obtain ⟨before, was, image, written⟩ := (left q mem).1
      refine ⟨⟨_, was, image, written.trans data⟩, fun gone => ?_⟩
      exact (List.nodup_append.mp apart).2.2 _ gone _ (List.mem_map_of_mem (List.mem_map_of_mem mem)) rfl
  timed := timed
  distinct := (List.diff_sublist _ _).nodup kept.distinct

theorem foldl_finish (taken : List CameraImage) (timer : Option Nat) (c : DevClientCameraImage) :
    taken.foldl (finish · timer) c = { c with
      checkImages := c.checkImages.diff (taken.map CameraImage.image)
      processed := c.processed ++ taken.map (·, timer) } := by
  induction taken generalizing c with
  | nil => simp
  | cons ci taken ih =>
    rw [List.foldl_cons, ih, List.map_cons, List.diff_cons]
    simp [finish]

theorem Kept.processSifted (kept : c.Kept rs) {f : CameraImage → CameraImage ⊕ CameraImage}
    (same : ∀ ci, ((f ci).elim id id).image = ci.image ∧ ((f ci).elim id id).dataWriten = ci.dataWriten ∧
      ((f ci).elim id id).exEnd = ci.exEnd)
    (left : ∀ ci ∈ c.images.values, ∀ told, f ci = .inl told → told.dataWriten = true → told.waitForMetaData = true)
    (taken : ∀ ci told, f ci = .inr told → told.canDelete = true) : (c.processSifted f).Kept rs := by
  unfold DevClientCameraImage.processSifted
  rw [foldl_finish]
  refine kept.taken _ none (c.images.sift_perm CameraImage.image fun ci => (same ci).1) ?_ ?_ ?_
  · intro p mem
    obtain ⟨ci, there, told⟩ := c.images.mem_sift.mp mem
    have kind := same ci
    rw [told] at kind
    obtain ⟨image, data, ended⟩ := kind
    refine ⟨⟨ci, there, image.symm, data.symm⟩, fun written => ⟨?_, ?_⟩⟩
    · exact left ci (List.mem_map_of_mem there) p.2 told written
    · exact ended ▸ (kept.lacking _ there (data.symm.trans written)).2
  · intro told mem
    obtain ⟨ci, _, took⟩ := c.images.mem_sifted.mp mem
    obtain ⟨_, data, complete⟩ := CameraImage.canDelete_iff.mp (taken ci told took)
    refine ⟨data, fun waits => ?_⟩
    rw [complete] at waits
    cases waits
  · exact (List.diff_sublist _ _).trans kept.timed

theorem Kept.renewActual (kept : c.Kept rs) {ci : CameraImage} (number : ci.image = c.created)
    (bare : ci.dataWriten = false) (prematurelyReceived : List Nat) : Kept rs
      { c.deleteAll c.actualImage.toList .replaced with
        actualImage := some ci
        prematurelyReceived := prematurelyReceived
        created := c.created + 1 } where
  once := by
    refine range_next kept.once fun i => ?_
    unfold places deleteAll
    dsimp only
    have ids : (c.actualImage.toList.map (·, Deletion.replaced)).map (·.1.image) =
        c.actualImage.toList.map CameraImage.image := by simp
    rw [List.map_append, ids, Option.toList_some, List.map_singleton, number]
    simp only [List.count_append]
    omega
  processed := kept.processed
  deleted p mem data := by
    rcases List.mem_append.mp mem with before | now
    · exact kept.deleted p before data
    · obtain ⟨old, there, rfl⟩ := List.mem_map.mp now
      rw [kept.bare old (Option.mem_toList.mp there)] at data
      cases data
  bare other mem := by
    cases mem
    exact bare
  expected := kept.expected
  lacking := kept.lacking
  checked := kept.checked
  timed := kept.timed
  distinct := kept.distinct

theorem createActual_images (creation : Creation) : (c.createActual creation).images = c.images := by
  cases creation <;> rfl

theorem Kept.createActual (kept : c.Kept rs) {creation : Creation} (holds : creation.Kept) :
    (c.createActual creation).Kept rs := by
  cases creation with
  | refused => exact kept
  | broken => exact absurd holds id
  | unwritten => exact kept.renewActual rfl rfl []
  | written ws =>
    obtain ⟨image, data, _⟩ := CameraImage.postMaster_image ws (.new c.created c.prematurelyReceived)
    exact kept.renewActual image data []

theorem Kept.deleteActual (kept : c.Kept rs) (reason : Deletion) : (c.deleteActual reason).Kept rs where
  once := by
    refine range_same kept.once fun i => ?_
    unfold places DevClientCameraImage.deleteActual deleteAll
    dsimp only
    have ids : (c.actualImage.toList.map (·, reason)).map (·.1.image) = c.actualImage.toList.map CameraImage.image := by
      simp
    rw [List.map_append, ids, Option.toList_none, List.map_nil, List.append_nil]
    simp only [List.count_append]
    omega
  processed := kept.processed
  deleted p mem data := by
    rcases List.mem_append.mp mem with before | now
    · exact kept.deleted p before data
    · obtain ⟨old, there, rfl⟩ := List.mem_map.mp now
      rw [kept.bare old (Option.mem_toList.mp there)] at data
      cases data
  bare _ mem := nomatch mem
  expected := kept.expected
  lacking := kept.lacking
  checked := kept.checked
  timed := kept.timed
  distinct := kept.distinct

theorem Kept.touchActual (kept : c.Kept rs) (f : CameraImage → CameraImage)
    (same : ∀ ci, (f ci).image = ci.image ∧ (f ci).dataWriten = ci.dataWriten) (prematurelyReceived : List Nat) :
    Kept rs { c with actualImage := c.actualImage.map f, prematurelyReceived := prematurelyReceived } where
  once := by
    refine range_same kept.once fun i => ?_
    unfold places
    cases c.actualImage with
    | none => rfl
    | some ci => simp [(same ci).1]
  processed := kept.processed
  deleted := kept.deleted
  bare ci mem := by
    obtain ⟨old, there, rfl⟩ := Option.map_eq_some_iff.mp mem
    exact (same old).2.trans (kept.bare old there)
  expected := kept.expected
  lacking := kept.lacking
  checked := kept.checked
  timed := kept.timed
  distinct := kept.distinct

theorem Kept.store (kept : c.Kept rs) {ci : CameraImage} (current : c.actualImage = some ci) {data_conn : Int}
    (coming : data_conn ∈ rs) (free : data_conn ∉ c.images.keys) :
    Kept rs { c with images := c.images.insert data_conn ci, actualImage := none } := by
  have entries := c.images.insert_perm ci free
  have bare := kept.bare ci current
  refine ⟨?_, kept.processed, kept.deleted, nofun, ?_, ?_, fun i => ?_, kept.timed, kept.distinct⟩
  · refine range_same kept.once fun i => ?_
    have ids := (List.perm_iff_count.mp ((entries.map Prod.snd).map CameraImage.image)) i
    unfold places SortedMap.values
    rw [current]
    simp only [List.map_cons, List.count_cons, List.count_append, Option.toList_some, Option.toList_none,
      List.map_nil, List.count_nil] at ids ⊢
    omega
  · intro p mem data
    cases List.mem_cons.mp (entries.mem_iff.mp mem) with
    | inl new => exact new ▸ coming
    | inr before => exact kept.expected p before data
  · intro p mem data
    cases List.mem_cons.mp (entries.mem_iff.mp mem) with
    | inl new =>
      rw [new, bare] at data
      cases data
    | inr before => exact kept.lacking p before data
  · rw [kept.checked i]
    constructor
    · rintro ⟨p, mem, named, data⟩
      exact ⟨p, entries.mem_iff.mpr (List.mem_cons_of_mem _ mem), named, data⟩
    · rintro ⟨p, mem, named, data⟩
      cases List.mem_cons.mp (entries.mem_iff.mp mem) with
      | inl new =>
        rw [new, bare] at data
        cases data
      | inr before => exact ⟨p, before, named, data⟩

theorem Kept.newDataConn (kept : c.Kept rs) {data_conn : Int} {creation : Creation} (coming : data_conn ∈ rs)
    (holds : c.NewDataHolds data_conn creation) : (c.newDataConn data_conn creation).Kept rs := by
  unfold DevClientCameraImage.newDataConn
  split
  · rename_i ci current
    exact kept.store current coming (holds.2 (.inl (by rw [current]; rfl)))
  · rename_i ws none
    have created : Creation.Kept (.written ws) := trivial
    exact (kept.createActual created).store rfl coming (holds.2 (.inr trivial))
  · rename_i none _
    exact kept.createActual (holds.1 none)

theorem Kept.deleteOld (kept : c.Kept rs) : c.deleteOld = c := by
  have left : ∀ p ∈ c.images.entries, (if p.2.canDelete then Sum.inr p.2 else .inl p.2) = (.inl p.2 : _ ⊕ CameraImage) := by
    intro p mem
    refine if_neg fun complete => ?_
    obtain ⟨_, data, done⟩ := CameraImage.canDelete_iff.mp complete
    have waits := (kept.lacking p mem data).1
    rw [done] at waits
    cases waits
  unfold DevClientCameraImage.deleteOld deleteAll
  dsimp only
  rw [c.images.sift_inl left, c.images.sifted_inl left]
  simp

theorem Kept.writeImage (kept : c.Kept rs) {data_conn : Int} {noImage : Bool} {now : Int}
    (ended : ∀ ci ∈ c.images.find data_conn, ci.dataWriten = false ∧ (ci.exEnd.isSome ∨ noImage = true)) :
    (c.writeImage data_conn noImage now).Kept rs ∧ ∀ p ∈ (c.writeImage data_conn noImage now).images.entries,
      p.2.dataWriten = false → p.1 ≠ data_conn := by
  unfold DevClientCameraImage.writeImage
  cases found : c.images.find data_conn with
  | none =>
    refine ⟨kept, fun p mem _ here => ?_⟩
    exact c.images.find_none.mp found (here ▸ c.images.mem_keys mem)
  | some ci =>
    obtain ⟨bare, over_⟩ := ended ci found
    have there := c.images.find_mem found
    have before := c.images.erase_perm there
    have ids := ((before.map Prod.snd).map CameraImage.image)
    have alone : ∀ p ∈ (c.images.erase data_conn).entries, p.2.image ≠ ci.image := by
      intro p mem same
      obtain ⟨was, other⟩ := c.images.mem_erase.mp mem
      exact other (congrArg Prod.fst (kept.same_image was there same))
    have unchecked : ci.image ∉ c.checkImages := by
      rw [kept.checked]
      rintro ⟨p, mem, same, data⟩
      rw [kept.same_image mem there same, bare] at data
      cases data
    generalize full : { ci with dataWriten := true, exEnd := if noImage then some now else ci.exEnd } = cj
    have image : cj.image = ci.image := by rw [← full]
    have data : cj.dataWriten = true := by rw [← full]
    have ends : cj.exEnd.isSome := by
      rw [← full]
      cases noImage with
      | true => rfl
      | false => exact over_.resolve_right (by decide)
    have after := c.images.insert_erase_perm data_conn cj
    dsimp only
    rw [full]
    split
    · rename_i complete
      have gone : ((c.images.insert data_conn cj).erase data_conn).entries.Perm (c.images.erase data_conn).entries :=
        (((c.images.insert data_conn cj).erase_perm (c.images.mem_insert.mpr (.inl rfl))).symm.trans after).cons_inv
      have unwaiting := (CameraImage.canDelete_iff.mp complete).2.2
      have processed : Kept rs { c with
          images := (c.images.insert data_conn cj).erase data_conn
          checkImages := c.checkImages.diff [cj.image]
          processed := c.processed ++ [(cj, none)]
          timers := c.timers } := by
        refine kept.taken [cj] none ?_ ?_ ?_ ((List.diff_sublist _ _).trans kept.timed)
        · rw [List.map_singleton, image]
          exact ids.trans ((((gone.map Prod.snd).map CameraImage.image).symm).cons _)
        · intro p mem
          have was := (c.images.mem_erase.mp (gone.mem_iff.mp mem)).1
          exact ⟨⟨p.2, was, rfl, rfl⟩, kept.lacking p was⟩
        · intro other mem
          rw [List.mem_singleton.mp mem]
          refine ⟨data, fun waits => ?_⟩
          rw [unwaiting] at waits
          cases waits
      rw [List.diff_cons, List.diff_nil] at processed
      refine ⟨processed, fun p mem _ => ?_⟩
      exact ((SortedMap.mem_erase _).mp mem).2
    · rename_i incomplete
      have waits : cj.waitForMetaData = true := by
        by_contra unwaiting
        exact incomplete (CameraImage.canDelete_iff.mpr ⟨ends, data, Bool.eq_false_of_not_eq_true unwaiting⟩)
      refine ⟨⟨?_, kept.processed, kept.deleted, kept.bare, ?_, ?_, fun i => ?_, ?_, ?_⟩, ?_⟩
      · refine range_same kept.once fun i => ?_
        have old := (List.perm_iff_count.mp ids) i
        have new := (List.perm_iff_count.mp ((after.map Prod.snd).map CameraImage.image)) i
        unfold places SortedMap.values
        simp only [List.map_cons, List.count_cons, List.count_append, image] at old new ⊢
        omega
      · intro p mem bare
        cases List.mem_cons.mp (after.mem_iff.mp mem) with
        | inl new =>
          rw [new, data] at bare
          cases bare
        | inr other => exact kept.expected p (c.images.mem_erase.mp other).1 bare
      · intro p mem written
        cases List.mem_cons.mp (after.mem_iff.mp mem) with
        | inl new =>
          rw [new]
          exact ⟨waits, ends⟩
        | inr other => exact kept.lacking p (c.images.mem_erase.mp other).1 written
      · rw [List.mem_append, List.mem_singleton, kept.checked i]
        constructor
        · rintro (⟨p, mem, named, written⟩ | rfl)
          · refine ⟨p, after.mem_iff.mpr (List.mem_cons_of_mem _ (c.images.mem_erase.mpr ⟨mem, fun same => ?_⟩)), named,
              written⟩
            rw [c.images.unique mem there same, bare] at written
            cases written
          · exact ⟨(data_conn, cj), after.mem_iff.mpr (List.mem_cons_self ..), image, data⟩
        · rintro ⟨p, mem, named, written⟩
          cases List.mem_cons.mp (after.mem_iff.mp mem) with
          | inl new =>
            rw [new] at named
            exact .inr (named.symm.trans image)
          | inr other => exact .inl ⟨p, (c.images.mem_erase.mp other).1, named, written⟩
      · exact kept.timed.append (.refl _)
      · refine List.nodup_append.mpr ⟨kept.distinct, List.nodup_singleton _, fun i mem j last same => ?_⟩
        rw [List.mem_singleton.mp last] at same
        exact unchecked (same ▸ mem)
      · intro p mem bare
        cases List.mem_cons.mp (after.mem_iff.mp mem) with
        | inl new =>
          rw [new, data] at bare
          cases bare
        | inr other => exact (c.images.mem_erase.mp other).2

theorem Kept.allImageDataReceived (kept : c.Kept rs) {data_conn : Int} {noImage : Bool} (now : Int)
    {creation : Creation} (coming : data_conn ∈ rs) (holds : c.DataHolds data_conn noImage creation) :
    (c.allImageDataReceived data_conn noImage now creation).Kept rs ∧
      ∀ p ∈ (c.allImageDataReceived data_conn noImage now creation).images.entries,
        p.2.dataWriten = false → p.1 ≠ data_conn := by
  unfold DevClientCameraImage.allImageDataReceived
  dsimp only
  by_cases shared : data_conn = -1 ∧ (c.images.find data_conn).isNone
  · rw [if_pos shared]
    have none := Option.isNone_iff_eq_none.mp shared.2
    obtain ⟨current, created⟩ := holds.2 ⟨shared.1, none⟩
    have free := c.images.find_none.mp none
    have next := kept.newDataConn coming ⟨fun idle => (created idle).1, fun _ => free⟩
    rw [next.deleteOld]
    refine next.writeImage fun ci found => ?_
    have there := SortedMap.find_mem _ found
    unfold DevClientCameraImage.newDataConn at there
    split at there
    · rename_i actual is_actual
      cases (c.images.mem_insert.mp there) with
      | inl new =>
        cases new
        exact ⟨kept.bare _ is_actual, current _ is_actual⟩
      | inr before => exact absurd rfl before.2
    · rename_i ws idle
      cases (c.images.mem_insert.mp there) with
      | inl new =>
        cases new
        obtain ⟨_, data, _⟩ := CameraImage.postMaster_image ws (.new c.created c.prematurelyReceived)
        exact ⟨data, .inr ((created idle).2 trivial)⟩
      | inr before => exact absurd rfl before.2
    · rw [createActual_images] at there
      exact absurd (c.images.mem_keys there) free
  · rw [if_neg shared, kept.deleteOld]
    exact kept.writeImage holds.1

theorem Kept.clearImages (kept : c.Kept rs) (unchecked : c.checkImages = []) {reason : Deletion}
    (cleared : reason = .failed ∨ reason = .killed) : (c.clearImages reason).Kept rs where
  once := by
    refine range_same kept.once fun i => ?_
    unfold places DevClientCameraImage.clearImages deleteAll
    dsimp only
    have ids : (c.images.values.map (·, reason)).map (·.1.image) = c.images.values.map CameraImage.image := by simp
    rw [List.map_append, ids]
    simp only [SortedMap.values, SortedMap.empty, List.map_nil, List.append_nil, List.count_append]
    omega
  processed := kept.processed
  deleted p mem data := by
    rcases List.mem_append.mp mem with before | now
    · exact kept.deleted p before data
    · obtain ⟨_, _, rfl⟩ := List.mem_map.mp now
      exact cleared
  bare := kept.bare
  expected _ mem := (List.not_mem_nil mem).elim
  lacking _ mem := (List.not_mem_nil mem).elim
  checked i := by
    change i ∈ c.checkImages ↔ _
    rw [unchecked]
    refine iff_of_false List.not_mem_nil ?_
    rintro ⟨_, mem, _⟩
    exact List.not_mem_nil mem
  timed := kept.timed
  distinct := kept.distinct

theorem Kept.exposureFailed (kept : c.Kept rs) (holds : c.FailureHolds) : c.exposureFailed.Kept rs ∧
    ∀ data_conn ∈ c.exposureFailed.images.keys, c.clears = false ∧ data_conn ∈ c.images.keys := by
  unfold DevClientCameraImage.exposureFailed
  split
  · rename_i clears
    exact ⟨kept.clearImages (holds clears) (.inl rfl), fun _ mem => nomatch mem⟩
  · rename_i leaves
    exact ⟨kept, fun _ mem => ⟨Bool.eq_false_of_not_eq_true leaves, mem⟩⟩

theorem erase_absent {m : SortedMap Int CameraImage} {data_conn : Int} (absent : data_conn ∉ m.keys) :
    m.erase data_conn = m := by
  obtain ⟨entries, sorted⟩ := m
  have same : entries.filter (·.1 ≠ data_conn) = entries := by
    refine List.filter_eq_self.mpr fun p mem => decide_eq_true fun here => absent ?_
    exact here ▸ List.mem_map_of_mem mem
  unfold SortedMap.erase
  simp only [same]

theorem Kept.eraseZero (kept : c.Kept rs) (absent : 0 ∉ c.images.keys) :
    Kept rs { c.deleteActual .replaced with images := c.images.erase 0 } := by
  rw [erase_absent absent]
  exact kept.deleteActual .replaced

theorem Kept.metadataTimeout (kept : c.Kept rs) (holds : c.checkImages = [] ∨ c.checkImages.head? = c.timers.head?) :
    c.metadataTimeout.Kept rs := by
  unfold DevClientCameraImage.metadataTimeout
  dsimp only
  split
  · rename_i none
    have unchecked := List.head?_eq_none_iff.mp none
    refine ⟨kept.once, kept.processed, kept.deleted, kept.bare, kept.expected, kept.lacking, kept.checked, ?_,
      kept.distinct⟩
    change c.checkImages.Sublist _
    rw [unchecked]
    exact List.nil_sublist _
  · rename_i image first
    obtain ⟨rest, checks⟩ := List.head?_eq_some_iff.mp first
    have own : c.timers.head? = some image := by
      rcases holds with none | same
      · rw [checks] at none
        cases none
      · exact same.symm.trans first
    obtain ⟨r, waits, named, data⟩ := (kept.checked image).mp (by rw [checks]; exact List.mem_cons_self ..)
    split
    · rename_i none
      exact absurd (decide_eq_true named) (List.find?_eq_none.mp none r waits)
    · rename_i p found
      have mem := List.mem_of_find?_eq_some found
      have same : p.2.image = image := by
        have kind := List.find?_some found
        exact of_decide_eq_true kind
      have one := kept.same_image mem waits (same.trans named.symm)
      have ids := ((c.images.erase_perm mem).map Prod.snd).map CameraImage.image
      have processed : Kept rs { c with
          images := c.images.erase p.1
          checkImages := c.checkImages.diff [p.2.image]
          processed := c.processed ++ [(p.2, some image)]
          timers := c.timers.tail } := by
        refine kept.taken [p.2] (some image) ids ?_ ?_ ?_
        · intro q there
          have was := (c.images.mem_erase.mp there).1
          exact ⟨⟨q.2, was, rfl, rfl⟩, kept.lacking q was⟩
        · intro ci there
          rw [List.mem_singleton.mp there, one]
          exact ⟨data, fun _ => congrArg some named.symm⟩
        · obtain ⟨later, timers⟩ := List.head?_eq_some_iff.mp own
          have timed := kept.timed
          rw [checks, timers] at timed
          rw [List.map_singleton, List.diff_cons, List.diff_nil, same, checks, timers, List.erase_cons_head]
          exact List.cons_sublist_cons.mp timed
      rw [List.diff_cons, List.diff_nil] at processed
      rw [own]
      exact processed

theorem postMaster_unwaiting {ws : List DevClientWriteImage} (ci : CameraImage)
    (unwaiting : ∀ w ∈ ws, ¬ w.Waits ci.prematurelyReceived) : ci.postMaster ws = ci := by
  unfold CameraImage.postMaster
  induction ws with
  | nil => rfl
  | cons w ws ih =>
    have first : ci.writeToImage w = ci := by
      have away := unwaiting w (List.mem_cons_self ..)
      unfold DevClientWriteImage.Waits at away
      unfold CameraImage.writeToImage CameraImage.waitForDevice CameraImage.waitForTrigger
      by_cases premature : w.devClient ∈ ci.prematurelyReceived
      · simp [premature]
      · simp only [premature, not_false_eq_true, true_and, not_or, not_and, Bool.not_eq_true] at away
        cases triggered : w.triggered with
        | false => simp [away.1]
        | true => simp [away.1, away.2 triggered]
    rw [List.foldl_cons, first]
    exact ih fun other mem => unwaiting other (List.mem_cons_of_mem _ mem)

theorem Kept.widen {rs' : List Int} (kept : c.Kept rs) (wider : rs ⊆ rs') : c.Kept rs' :=
  { kept with expected := fun p mem bare => wider (kept.expected p mem bare) }

theorem Kept.narrow {rs' : List Int} (kept : c.Kept rs')
    (expected : ∀ p ∈ c.images.entries, p.2.dataWriten = false → p.1 ∈ rs) : c.Kept rs :=
  { kept with expected := expected }

theorem Kept.fitsImage (kept : c.Kept rs) (idle : c.actualImage = none) (free : 0 ∉ c.images.keys) (now : Int)
    (ws : List DevClientWriteImage) : (c.fitsImage now ws).Kept (0 :: rs) := by
  obtain ⟨image, data, _⟩ := CameraImage.postMaster_image ws
    { CameraImage.new c.created c.prematurelyReceived with exEnd := some now }
  have stored := ((kept.widen (List.subset_cons_self 0 rs)).renewActual image data []).store rfl
    (List.mem_cons_self ..) free
  unfold deleteAll at stored
  simp only [idle, Option.toList_none, List.map_nil, List.append_nil] at stored
  unfold DevClientCameraImage.fitsImage
  simp only [idle]
  exact stored

theorem writeImage_complete {data_conn : Int} {ci : CameraImage} {noImage : Bool} {now : Int}
    (found : c.images.find data_conn = some ci) (ended : ci.exEnd.isSome) (unwaiting : ci.waitForMetaData = false) :
    data_conn ∉ (c.writeImage data_conn noImage now).images.keys := by
  unfold DevClientCameraImage.writeImage
  rw [found]
  dsimp only
  rw [if_pos]
  · intro there
    obtain ⟨p, mem, same⟩ := List.mem_map.mp there
    exact ((SortedMap.mem_erase _).mp mem).2 same
  · refine CameraImage.canDelete_iff.mpr ⟨?_, rfl, unwaiting⟩
    cases noImage with
    | true => rfl
    | false => exact ended

theorem find_insert (m : SortedMap Int CameraImage) (data_conn : Int) (ci : CameraImage) :
    (m.insert data_conn ci).find data_conn = some ci := by
  cases search : (m.insert data_conn ci).find data_conn with
  | none =>
    have absent := ((m.insert data_conn ci).find_none).mp search
    exact absurd ((m.insert_keys data_conn ci).mpr (.inl rfl)) absent
  | some other =>
    cases m.mem_insert.mp (SortedMap.find_mem _ search) with
    | inl new => rw [(Prod.mk.inj new).2]
    | inr before => exact absurd rfl before.2

theorem Kept.fitsData (kept : c.Kept rs) {now : Int} {file : FitsFile} (holds : c.FitsHolds file) :
    (c.fitsData now file).Kept rs := by
  have absent {d : DevClientCameraImage} (same : d.images = c.images ∧ d.clears = c.clears) (failed : d.FailureHolds)
      (keptd : d.Kept rs) (free : c.clears = false → 0 ∉ c.images.keys) :
      Kept rs { d.exposureFailed.deleteActual .replaced with images := d.exposureFailed.images.erase 0 } := by
    obtain ⟨after, keys⟩ := keptd.exposureFailed failed
    refine after.eraseZero fun there => ?_
    obtain ⟨leaves, before⟩ := keys 0 there
    rw [same.2] at leaves
    rw [same.1] at before
    exact free leaves before
  unfold DevClientCameraImage.fitsData
  dsimp only
  split
  · exact absent ⟨rfl, rfl⟩ holds.1 kept holds.2
  · exact kept
  · rename_i current
    obtain ⟨failed, free⟩ := holds (by rw [current]; rfl)
    exact absent ⟨rfl, rfl⟩ failed (kept.deleteActual .replaced) free
  · rename_i ws _ current
    obtain ⟨clears, unchecked, free⟩ := holds (by rw [current]; rfl)
    have image := (kept.deleteActual .replaced).fitsImage rfl free now ws
    obtain ⟨after, keys⟩ := image.exposureFailed fun _ => unchecked
    have left (data_conn : Int) : data_conn ∉ ((c.deleteActual .replaced).fitsImage now ws).exposureFailed.images.keys :=
      fun there => nomatch clears.symm.trans (keys data_conn there).1
    refine (after.narrow fun p mem _ => ?_).eraseZero (left 0)
    exact absurd (SortedMap.mem_keys _ mem) (left p.1)
  · rename_i ws _ current
    obtain ⟨free, unwaiting⟩ := holds (by rw [current]; rfl)
    have image := (kept.deleteActual .replaced).fitsImage rfl free now ws
    have found : ((c.deleteActual .replaced).fitsImage now ws).images.find 0 = some
        { CameraImage.new c.created c.prematurelyReceived with exEnd := some now } := by
      have same := postMaster_unwaiting { CameraImage.new c.created c.prematurelyReceived with exEnd := some now } unwaiting
      refine (find_insert _ 0 _).trans (congrArg some ?_)
      exact same
    have data : ((c.deleteActual .replaced).fitsImage now ws).DataHolds 0 false .refused := by
      refine ⟨fun ci mem => ?_, fun shared => absurd shared.1 (by decide)⟩
      rw [found] at mem
      cases mem
      exact ⟨rfl, .inl rfl⟩
    obtain ⟨after, bare⟩ := image.allImageDataReceived now (List.mem_cons_self ..) data
    have gone : 0 ∉ (((c.deleteActual .replaced).fitsImage now ws).allImageDataReceived 0 false now .refused).images.keys := by
      unfold DevClientCameraImage.allImageDataReceived
      dsimp only
      rw [if_neg fun shared => absurd shared.1 (by decide), image.deleteOld]
      exact writeImage_complete found rfl rfl
    refine (after.narrow fun p mem none => ?_).eraseZero gone
    exact (List.mem_cons.mp (after.expected p mem none)).resolve_left (bare p mem none)

theorem Kept.told (kept : c.Kept rs) {f : CameraImage → CameraImage} {asks : CameraImage → Bool}
    (same : ∀ ci, (f ci).image = ci.image ∧ (f ci).dataWriten = ci.dataWriten ∧ (f ci).exEnd = ci.exEnd)
    (unasked : ∀ ci, asks ci = false → f ci = ci) :
    (c.processSifted fun ci => if asks ci && (f ci).canDelete then .inr (f ci) else .inl (f ci)).Kept rs := by
  refine kept.processSifted ?_ ?_ ?_
  · intro ci
    split
    · exact same ci
    · exact same ci
  · intro ci mem told left data
    obtain ⟨p, there, rfl⟩ := List.mem_map.mp mem
    split at left
    · cases left
    · rename_i incomplete
      cases left
      obtain ⟨waits, ended⟩ := kept.lacking p there ((same p.2).2.1.symm.trans data)
      cases asked : asks p.2 with
      | false =>
        rw [unasked p.2 asked]
        exact waits
      | true =>
        by_contra unwaiting
        refine incomplete ?_
        rw [asked, Bool.true_and]
        exact CameraImage.canDelete_iff.mpr ⟨(same p.2).2.2.symm ▸ ended, data, Bool.eq_false_of_not_eq_true unwaiting⟩
  · intro ci told taken
    split at taken
    · rename_i complete
      cases taken
      exact (Bool.and_eq_true_iff.mp complete).2
    · cases taken

theorem Kept.infoOK (kept : c.Kept rs) (client : Nat) (infoTime : Option Int) : (c.infoOK client infoTime).Kept rs := by
  have unasked (ci : CameraImage) (none : ci.awaits client infoTime = false) : ci.waitingFor client infoTime = ci := by
    unfold CameraImage.awaits at none
    unfold CameraImage.waitingFor
    rw [List.filter_eq_self.mpr]
    intro idw mem
    rw [List.any_eq_false.mp none idw mem |> Bool.eq_false_of_not_eq_true]
    rfl
  have swept : (c.imagesInfoOK client infoTime).Kept rs := kept.told (fun _ => ⟨rfl, rfl, rfl⟩) unasked
  exact swept.touchActual (·.waitingFor client infoTime) (fun _ => ⟨rfl, rfl⟩) _

theorem Kept.eventTriggered (kept : c.Kept rs) (client : Nat) : (c.eventTriggered client).Kept rs := by
  have unasked (ci : CameraImage) (none : decide (client ∈ ci.triggerWaits) = false) : ci.wasTriggered client = ci := by
    unfold CameraImage.wasTriggered
    rw [List.erase_of_not_mem (of_decide_eq_false none)]
  have swept : (c.imagesWasTriggered client).Kept rs := kept.told (fun _ => ⟨rfl, rfl, rfl⟩) unasked
  exact swept.touchActual (·.wasTriggered client) (fun _ => ⟨rfl, rfl⟩) _

@[simp] theorem createActual_readChannels (creation : Creation) :
    (c.createActual creation).readChannels = c.readChannels := by
  cases creation <;> rfl

@[simp] theorem newDataConn_readChannels (data_conn : Int) (creation : Creation) :
    (c.newDataConn data_conn creation).readChannels = c.readChannels := by
  unfold newDataConn
  split
  · rfl
  · rfl
  · exact createActual_readChannels _

@[simp] theorem writeImage_readChannels (data_conn : Int) (noImage : Bool) (now : Int) :
    (c.writeImage data_conn noImage now).readChannels = c.readChannels := by
  unfold writeImage
  split
  · rfl
  · dsimp only
    rw [apply_ite DevClientCameraImage.readChannels]
    exact ite_self _

@[simp] theorem exposureFailed_readChannels : c.exposureFailed.readChannels = c.readChannels := by
  unfold exposureFailed
  split <;> rfl

@[simp] theorem allImageDataReceived_readChannels (data_conn : Int) (noImage : Bool) (now : Int) (creation : Creation) :
    (c.allImageDataReceived data_conn noImage now creation).readChannels = c.readChannels := by
  unfold allImageDataReceived
  dsimp only
  rw [writeImage_readChannels]
  change (if _ then _ else _ : DevClientCameraImage).readChannels = _
  split
  · exact newDataConn_readChannels _ _
  · rfl

@[simp] theorem processSifted_readChannels (f : CameraImage → CameraImage ⊕ CameraImage) :
    (c.processSifted f).readChannels = c.readChannels := by
  unfold processSifted
  rw [foldl_finish]

@[simp] theorem fitsData_readChannels (now : Int) (file : FitsFile) : (c.fitsData now file).readChannels = c.readChannels := by
  unfold fitsData
  dsimp only
  split
  · exact exposureFailed_readChannels
  · rfl
  · exact exposureFailed_readChannels
  · exact exposureFailed_readChannels
  · exact allImageDataReceived_readChannels _ _ _ _

@[simp] theorem metadataTimeout_readChannels : c.metadataTimeout.readChannels = c.readChannels := by
  unfold metadataTimeout
  dsimp only
  split
  · rfl
  · split <;> rfl

theorem step_kept (c : DevClientCameraImage) (e : ImageEvent) (kept : c.Kept c.readChannels) (enabled : c.Enabled e)
    (holds : c.Holds e) : (c.step e).Kept (c.step e).readChannels := by
  cases e with
  | exposureStarted expectImage creation =>
    cases expectImage with
    | false => exact kept
    | true =>
      change Kept (c.createActual creation).readChannels (c.createActual creation)
      rw [createActual_readChannels]
      exact kept.createActual (holds rfl)
  | exposureEnd now => exact kept.touchActual (fun ci => { ci with exEnd := some now }) (fun _ => ⟨rfl, rfl⟩) _
  | newDataConn data_conn creation =>
    unfold step
    dsimp only
    rw [newDataConn_readChannels]
    have opened : Kept (c.readChannels.insert data_conn) { c with readChannels := c.readChannels.insert data_conn } := by
      have wider := kept.widen (List.subset_insert data_conn c.readChannels)
      exact ⟨wider.once, wider.processed, wider.deleted, wider.bare, wider.expected, wider.lacking, wider.checked,
        wider.timed, wider.distinct⟩
    exact opened.newDataConn (List.mem_insert_self ..) holds
  | fullDataReceived data_conn restSize noImage now creation =>
    unfold step
    dsimp only
    have closed : Kept c.readChannels { c with readChannels := c.readChannels.filter (· ≠ data_conn) } :=
      ⟨kept.once, kept.processed, kept.deleted, kept.bare, kept.expected, kept.lacking, kept.checked, kept.timed,
        kept.distinct⟩
    unfold DevClientCameraImage.fullDataReceived
    change (if restSize > 0 then _ else _) at holds
    by_cases killed : restSize > 0
    · rw [if_pos killed] at holds ⊢
      rw [exposureFailed_readChannels]
      obtain ⟨after, keys⟩ := closed.exposureFailed holds.1
      refine after.narrow fun p mem bare => ?_
      refine List.mem_filter.mpr ⟨after.expected p mem bare, decide_eq_true fun same => ?_⟩
      obtain ⟨leaves, there⟩ := keys p.1 (SortedMap.mem_keys _ mem)
      exact holds.2 leaves (same ▸ there)
    · rw [if_neg killed] at holds ⊢
      rw [allImageDataReceived_readChannels]
      obtain ⟨after, bare⟩ := closed.allImageDataReceived now enabled holds
      refine after.narrow fun p mem none => ?_
      exact List.mem_filter.mpr ⟨after.expected p mem none, decide_eq_true (bare p mem none)⟩
  | fitsData now file =>
    unfold step
    rw [fitsData_readChannels]
    exact kept.fitsData holds
  | infoOK client infoTime =>
    have same : (c.infoOK client infoTime).readChannels = c.readChannels := processSifted_readChannels _
    unfold step
    rw [same]
    exact kept.infoOK client infoTime
  | infoFailed client infoTime =>
    have same : (c.infoOK client infoTime).readChannels = c.readChannels := processSifted_readChannels _
    unfold step
    rw [same]
    exact kept.infoOK client infoTime
  | triggered client =>
    have same : (c.eventTriggered client).readChannels = c.readChannels := processSifted_readChannels _
    unfold step
    rw [same]
    exact kept.eventTriggered client
  | metadataTimeout =>
    unfold step
    rw [metadataTimeout_readChannels]
    exact kept.metadataTimeout holds
  | exposureFailed =>
    unfold step
    rw [exposureFailed_readChannels]
    exact (kept.exposureFailed holds).1
  | killAll => exact (kept.clearImages holds (.inr rfl)).deleteActual .killed

theorem fresh_kept (clears : Bool) : (fresh clears).Kept [] where
  once := .refl []
  processed _ mem := nomatch mem
  deleted _ mem := nomatch mem
  bare _ mem := nomatch mem
  expected _ mem := nomatch mem
  lacking _ mem := nomatch mem
  checked _ := iff_of_false (List.not_mem_nil) fun ⟨_, mem, _⟩ => nomatch mem
  timed := .refl []
  distinct := .nil

/-- In every run whose steps leave no image behind, each image is finished once. -/
theorem images_finished (clears : Bool) (es : List ImageEvent) (runs : Guarded step Enabled (fresh clears) es)
    (holds : Guarded step Holds (fresh clears) es) : (run step (fresh clears) es).Finished :=
  (run_invariant step (fun c e => c.Enabled e ∧ c.Holds e) (fun c => c.Kept c.readChannels)
    (fun c e kept guard => step_kept c e kept guard.1 guard.2) _ es (fresh_kept clears)
    (guarded_and.mpr ⟨runs, holds⟩)).finished

def imageWriters : List DevClientWriteImage := [⟨1, true, false, false, 10⟩, ⟨2, false, true, false, 10⟩]

def twoExposures : List ImageEvent :=
  [.exposureStarted true (.written imageWriters), .exposureEnd 12, .newDataConn 5 .refused,
    .fullDataReceived 5 0 false 14 .refused, .triggered 2, .infoOK 1 (some 15), .metadataTimeout,
    .exposureStarted true (.written imageWriters), .exposureEnd 22, .newDataConn 6 .refused,
    .fullDataReceived 6 0 false 24 .refused, .triggered 2, .metadataTimeout]

theorem images_finished_two : (run step (fresh true) twoExposures).Finished :=
  images_finished true twoExposures (by decide) (by decide)

/-- An image that waits for its metadata is deleted by a kill, and stays in the queue of the timers. -/
theorem check_left : ¬ ∀ es : List ImageEvent, Guarded step Enabled (fresh true) es → (run step (fresh true) es).Finished := by
  intro law
  have finished := law [.exposureStarted true (.written imageWriters), .exposureEnd 12, .newDataConn 5 .refused,
    .fullDataReceived 5 0 false 14 .refused, .killAll] (by decide)
  obtain ⟨ci, mem, _⟩ := (finished.checked 0).mp (by decide)
  have empty : (run step (fresh true) [.exposureStarted true (.written imageWriters), .exposureEnd 12,
      .newDataConn 5 .refused, .fullDataReceived 5 0 false 14 .refused, .killAll]).images.values = [] := by decide
  rw [empty] at mem
  cases mem

end DevClientCameraImage

end Rts2.Kernel
