import Rts2.Camd.Images

/-! The camera writes inside the segments of its image: where the image fits after its header, no byte
gets to the next segment, and no client reads a segment that is written for another one. -/
namespace Rts2.Camd

open Lib Kernel

def Write.Inside (numseg segsize : Nat) (w : Write) : Prop :=
  ∃ i s, w.segment = some (i, s) ∧ i < numseg ∧ DataSharedWrite.base numseg segsize i ≤ w.start ∧
    w.start + w.bytes ≤ DataSharedWrite.base numseg segsize i + segsize

def Write.Own (w : Write) : Prop := ∀ i s, w.segment = some (i, s) → ∀ c, s.Reads c → c = w.client

namespace Camera

variable {numseg segsize : Nat}

/-- While the transfer is a shared one each channel of the image has its segment, with space for it. -/
structure Kept (numseg segsize : Nat) (s : Camera) : Prop where
  laid : s.sharedData.Laid numseg segsize
  fits : s.currentImageTransfer = .SHARED → sizeofImghdr + s.imageBytes ≤ segsize
  maps : s.currentImageTransfer = .SHARED → ∀ chan < s.imageChannels, s.sharedData.Maps s.imageConn chan
  positive : ∀ conn, s.exposureConn = some conn → 0 < conn
  writes : ∀ w ∈ s.writes, w.Inside numseg segsize ∧ w.Own

/-- What the camera's callers see to: the centrald numbers its clients from one, and the driver sends the
image. -/
def Enabled (s : Camera) : Event → Prop
  | .camExpose conn => 0 < conn
  | .sendReadoutData chan bytes => chan < s.imageChannels ∧ s.dataWritten chan + bytes ≤ s.imageBytes
  | _ => True

/-- An image that goes to segments fits into them after its header; an image that is only looked at goes
to segments of its own client; the exposure that starts with the readout has no more channels. -/
def Careful (segsize : Nat) (s : Camera) : Event → Prop
  | .camReadout next _ _ =>
    ∀ conn, s.exposureConn = some conn →
      (s.statisticOnly = false → s.currentImageTransfer ≠ .FITS →
        s.dataChannels ≤ s.sharedData.freeSegments → sizeofImghdr + s.lastExposureBytes ≤ segsize) ∧
      (s.statisticOnly = true → s.currentImageTransfer = .SHARED →
        sizeofImghdr + s.lastExposureBytes ≤ segsize ∧
          ∀ chan < s.dataChannels, s.sharedData.Maps conn chan) ∧
      (∀ bytes channels, next = some (bytes, channels) → channels ≤ s.dataChannels)
  | _ => True

theorem addClients_laid (chansize : Nat) (client : Int) (chans : List Nat) {d : DataSharedWrite}
    (laid : d.Laid numseg segsize) : (addClients chansize client chans d).2.Laid numseg segsize := by
  induction chans generalizing d with
  | nil => exact laid
  | cons chan chans ih =>
    unfold addClients
    cases added : d.addClient chansize chan client with
    | none => exact laid
    | some taken => exact ih (DataSharedWrite.addClient_laid added laid)

theorem addClients_keeps {chansize other : Nat} {client : Int} {chans : List Nat} {d : DataSharedWrite}
    (maps : d.Maps client other) : (addClients chansize client chans d).2.Maps client other := by
  induction chans generalizing d with
  | nil => exact maps
  | cons chan chans ih =>
    unfold addClients
    cases added : d.addClient chansize chan client with
    | none => exact maps
    | some taken => exact ih (DataSharedWrite.addClient_keeps added maps)

theorem addClients_maps {chansize : Nat} {client : Int} (chans : List Nat) {d : DataSharedWrite}
    (all : ¬ (addClients chansize client chans d).1.length < chans.length) :
    ∀ chan ∈ chans, (addClients chansize client chans d).2.Maps client chan := by
  induction chans generalizing d with
  | nil => simp
  | cons chan chans ih =>
    unfold addClients at all ⊢
    cases added : d.addClient chansize chan client with
    | none => simp [added] at all
    | some taken =>
      simp only [added, List.length_cons, Nat.add_lt_add_iff_right] at all
      intro c there
      obtain rfl | later := List.mem_cons.mp there
      · exact addClients_keeps (DataSharedWrite.addClient_maps added)
      · exact ih all c later

theorem addClients_free {chansize : Nat} {client : Int} (positive : 0 < client) {chans : List Nat}
    {d : DataSharedWrite} : (addClients chansize client chans d).1.length ≤ d.freeSegments := by
  induction chans generalizing d with
  | nil => simp [addClients]
  | cons chan chans ih =>
    unfold addClients
    cases added : d.addClient chansize chan client with
    | none => simp
    | some taken =>
      have fewer := DataSharedWrite.addClient_takes positive added
      have rest := ih (d := taken.2)
      simp only [List.length_cons]
      omega

theorem removeClients_shrinks (conn : Int) (locks : Nat → Bool) (segments : List Nat)
    (d : DataSharedWrite) : d.Shrinks (segments.foldl (fun d seg => d.removeClient seg conn (locks seg)) d) := by
  induction segments generalizing d with
  | nil => exact .refl d
  | cons seg segments ih => exact (DataSharedWrite.removeClient_shrinks seg conn (locks seg) d).trans (ih _)

theorem Kept.shrinks {s : Camera} (kept : s.Kept numseg segsize) {d : DataSharedWrite}
    (shrinks : s.sharedData.Shrinks d) : { s with sharedData := d }.Kept numseg segsize where
  laid := shrinks.laid kept.laid
  fits := kept.fits
  maps shared chan inside := shrinks.maps (kept.maps shared chan inside)
  positive := kept.positive
  writes := kept.writes

theorem write_kept {s : Camera} (kept : s.Kept numseg segsize) (shared : s.currentImageTransfer = .SHARED)
    {chan : Nat} (inside : chan < s.imageChannels) (place bytes : Nat)
    (fits : place + bytes ≤ sizeofImghdr + s.imageBytes) : (s.write chan place bytes).Kept numseg segsize := by
  obtain ⟨i, seg, mapped, own⟩ := kept.maps shared chan inside
  have room := kept.fits shared
  have there : s.sharedData.segments[i]? = some seg := by
    unfold DataSharedWrite.channel at mapped
    cases at_chan : s.sharedData.chan2seg chan with
    | none => simp [at_chan] at mapped
    | some k =>
      simp only [at_chan, Option.map_eq_some_iff, Prod.mk.injEq] at mapped
      obtain ⟨_, there, rfl, rfl⟩ := mapped
      exact there
  obtain ⟨in_memory, offset⟩ := kept.laid.at there
  refine ⟨kept.laid, kept.fits, kept.maps, kept.positive, ?_⟩
  intro w written
  simp only [write, mapped, List.mem_append, List.mem_singleton] at written
  obtain earlier | rfl := written
  · exact kept.writes w earlier
  · constructor
    · refine ⟨i, seg, rfl, in_memory, ?_, ?_⟩
      · simp [offset]
      · simp only [offset]
        omega
    · rintro _ _ ⟨⟩ c reads
      exact own c reads

theorem sendFirstLine_kept {s : Camera} (kept : s.Kept numseg segsize) {chan : Nat}
    (inside : chan < s.imageChannels) : (s.sendFirstLine chan).Kept numseg segsize := by
  unfold sendFirstLine
  cases transfer : s.currentImageTransfer with
  | SHARED =>
    have written := write_kept kept transfer inside 0 sizeofImghdr (by omega)
    exact written.shrinks (DataSharedWrite.dataWritten_shrinks chan sizeofImghdr _)
  | TCPIP => exact kept
  | FITS => exact kept

theorem sendFirstLine_imageChannels (s : Camera) (chan : Nat) :
    (s.sendFirstLine chan).imageChannels = s.imageChannels := by
  unfold sendFirstLine
  cases s.currentImageTransfer <;> rfl

theorem sendFirstLines_kept {s : Camera} (kept : s.Kept numseg segsize) {chans : List Nat}
    (inside : ∀ chan ∈ chans, chan < s.imageChannels) : (chans.foldl sendFirstLine s).Kept numseg segsize := by
  induction chans generalizing s with
  | nil => exact kept
  | cons chan chans ih =>
    apply ih (sendFirstLine_kept kept (inside chan List.mem_cons_self))
    intro c there
    rw [sendFirstLine_imageChannels]
    exact inside c (List.mem_cons_of_mem _ there)

theorem startImageData_kept {s : Camera} {conn : Int} {dataConn : Option Nat} {locks : Nat → Bool}
    (laid : s.sharedData.Laid numseg segsize) (positive : 0 < conn)
    (writes : ∀ w ∈ s.writes, w.Inside numseg segsize ∧ w.Own)
    (exposed : s.exposureConn = some conn) (image : s.imageBytes = s.lastExposureBytes)
    (channels : s.imageChannels = s.dataChannels) (of_conn : s.imageConn = conn)
    (fits : s.currentImageTransfer ≠ .FITS → s.dataChannels ≤ s.sharedData.freeSegments →
      sizeofImghdr + s.lastExposureBytes ≤ segsize) :
    (s.startImageData conn dataConn locks).Kept numseg segsize := by
  have client : ∀ c, some conn = some c → 0 < c := by
    rintro c ⟨⟩
    exact positive
  unfold startImageData
  by_cases transfer : s.currentImageTransfer = .FITS
  · simp only [if_pos transfer]
    refine ⟨laid, ?_, ?_, ?_, writes⟩
    · simp [transfer]
    · simp [transfer]
    · rw [exposed]
      exact client
  · simp only [if_neg transfer]
    have cleared : s.sharedData.clearChan2Seg.Laid numseg segsize := laid
    have registered := addClients_laid (s.lastExposureBytes + sizeofImghdr) conn (List.range s.dataChannels) cleared
    split
    case isTrue =>
      refine ⟨?_, by simp, by simp, client, writes⟩
      exact (removeClients_shrinks conn locks _ _).laid registered
    case isFalse all =>
      have enough : s.dataChannels ≤ s.sharedData.freeSegments :=
        (Nat.le_of_not_lt all).trans (addClients_free positive (d := s.sharedData.clearChan2Seg))
      have maps := addClients_maps (List.range s.dataChannels) (by simpa using all)
      refine ⟨registered, ?_, ?_, client, writes⟩
      · intro _
        rw [image]
        exact fits transfer enough
      · intro _ chan inside
        rw [of_conn]
        exact maps chan (List.mem_range.mpr (channels ▸ inside))

theorem startImageData_dataChannels (conn : Int) (dataConn : Option Nat) (locks : Nat → Bool) (s : Camera) :
    (s.startImageData conn dataConn locks).dataChannels = s.dataChannels ∧
      (s.startImageData conn dataConn locks).imageChannels = s.imageChannels := by
  unfold startImageData
  by_cases transfer : s.currentImageTransfer = .FITS
  · simp only [if_pos transfer]
    trivial
  · simp only [if_neg transfer]
    split <;> trivial

theorem openImage_kept {s : Camera} (kept : s.Kept numseg segsize) {conn : Int}
    {next : Option (Nat × Nat)} {dataConn : Option Nat} {locks : Nat → Bool}
    (exposed : s.exposureConn = some conn) (careful : s.Careful segsize (.camReadout next dataConn locks)) :
    ((s.beginImage conn).openImage conn dataConn locks).Kept numseg segsize ∧
      ((s.beginImage conn).openImage conn dataConn locks).dataChannels = s.dataChannels ∧
      ((s.beginImage conn).openImage conn dataConn locks).imageChannels = s.dataChannels := by
  obtain ⟨to_client, looked_at, _⟩ := careful conn exposed
  have positive := kept.positive conn exposed
  unfold openImage
  by_cases only : s.statisticOnly = true
  · rw [if_pos (by exact only)]
    refine ⟨⟨kept.laid, ?_, ?_, kept.positive, kept.writes⟩, rfl, rfl⟩
    · exact fun shared => (looked_at only shared).1
    · exact fun shared => (looked_at only shared).2
  · rw [if_neg (by exact only)]
    constructor
    · exact startImageData_kept (s := s.beginImage conn) kept.laid positive kept.writes exposed rfl rfl rfl
        (to_client (by simpa using only))
    · exact startImageData_dataChannels conn dataConn locks (s.beginImage conn)

theorem camReadout_kept {s : Camera} (kept : s.Kept numseg segsize) {conn : Int}
    {next : Option (Nat × Nat)} {dataConn : Option Nat} {locks : Nat → Bool}
    (exposed : s.exposureConn = some conn) (careful : s.Careful segsize (.camReadout next dataConn locks)) :
    (s.camReadout conn next dataConn locks).Kept numseg segsize := by
  obtain ⟨opened, dataChannels, imageChannels⟩ := openImage_kept kept exposed careful
  obtain ⟨_, _, fewer⟩ := careful conn exposed
  unfold camReadout
  generalize (s.beginImage conn).openImage conn dataConn locks = image at opened dataChannels imageChannels
  have begun : { image.startNext next with dataWritten := fun _ => 0 }.Kept numseg segsize ∧
      (image.startNext next).dataChannels ≤ (image.startNext next).imageChannels := by
    cases next with
    | none =>
      refine ⟨⟨opened.laid, opened.fits, opened.maps, opened.positive, opened.writes⟩, ?_⟩
      simp [startNext, dataChannels, imageChannels]
    | some exposure =>
      refine ⟨⟨opened.laid, opened.fits, opened.maps, opened.positive, opened.writes⟩, ?_⟩
      have no_more := fewer exposure.1 exposure.2 rfl
      simpa [startNext, startExposure, imageChannels] using no_more
  obtain ⟨begun, no_more⟩ := begun
  simp only
  split
  · apply sendFirstLines_kept begun
    intro chan there
    exact (List.mem_range.mp there).trans_le no_more
  · exact begun

theorem step_kept {s : Camera} (kept : s.Kept numseg segsize) (event : Event) (enabled : s.Enabled event)
    (careful : s.Careful segsize event) : (s.step event).Kept numseg segsize := by
  cases event with
  | camExpose conn =>
    refine ⟨kept.laid, kept.fits, kept.maps, ?_, kept.writes⟩
    rintro c ⟨⟩
    exact enabled
  | startExposure bytes channels => exact ⟨kept.laid, kept.fits, kept.maps, kept.positive, kept.writes⟩
  | setStatisticOnly only => exact ⟨kept.laid, kept.fits, kept.maps, kept.positive, kept.writes⟩
  | camReadout next dataConn locks =>
    unfold step
    cases exposed : s.exposureConn with
    | none => exact kept
    | some conn => exact camReadout_kept kept exposed careful
  | sendReadoutData chan bytes =>
    obtain ⟨inside, of_image⟩ := enabled
    simp only [step, sendReadoutData]
    by_cases shared : s.currentImageTransfer = .SHARED
    · rw [if_pos shared]
      have written := write_kept kept shared inside (sizeofImghdr + s.dataWritten chan) bytes (by omega)
      have counted := written.shrinks (DataSharedWrite.dataWritten_shrinks chan bytes _)
      exact ⟨counted.laid, counted.fits, counted.maps, counted.positive, counted.writes⟩
    · rw [if_neg shared]
      exact ⟨kept.laid, kept.fits, kept.maps, kept.positive, kept.writes⟩
  | endReadout =>
    simp only [step, endReadout]
    split
    · exact ⟨kept.laid, kept.fits, kept.maps, kept.positive, kept.writes⟩
    · exact kept
  | killAll =>
    simp only [step, killAll]
    split
    · cases s.currentImageTransfer with
      | SHARED =>
        have ended := (DataSharedWrite.endChannels_shrinks s.imageChannels s.sharedData).laid kept.laid
        exact ⟨ended, by simp, by simp, kept.positive, kept.writes⟩
      | TCPIP => exact ⟨kept.laid, by simp, by simp, kept.positive, kept.writes⟩
      | FITS => exact ⟨kept.laid, by simp, by simp, kept.positive, kept.writes⟩
    · exact kept
  | removeClient segnum client_id locks =>
    exact kept.shrinks (DataSharedWrite.removeClient_shrinks segnum client_id locks _)
  | deleteConnection conn locks =>
    have left : (if s.exposureConn = some conn then { s with exposureConn := none } else s).Kept
        numseg segsize := by
      split
      · exact ⟨kept.laid, kept.fits, kept.maps, by simp, kept.writes⟩
      · exact kept
    exact left.shrinks (removeClients_shrinks conn locks _ _)
  | setFitsTransfer => exact ⟨kept.laid, by simp [step], by simp [step], kept.positive, kept.writes⟩

theorem start_kept (numseg segsize : Nat) : (start numseg segsize).Kept numseg segsize where
  laid := DataSharedWrite.create_laid numseg segsize
  fits := by simp [start]
  maps := by simp [start]
  positive := by simp [start]
  writes := by simp [start]

/-- The segments lie apart inside the memory and are given to a client only when no one reads them; where
images fit after their headers, every byte is written inside the segment of its image, and no one else
reads that. -/
theorem images_inside (numseg segsize : Nat) (events : List Event)
    (enabled : Guarded step Enabled (start numseg segsize) events)
    (careful : Guarded step (Careful segsize) (start numseg segsize) events) :
    (∀ i < numseg, DataSharedWrite.base numseg segsize i + segsize = DataSharedWrite.base numseg segsize (i + 1) ∧
      DataSharedWrite.base numseg segsize i + segsize ≤ DataSharedWrite.total numseg segsize) ∧
    (∀ size chan client i after,
      (run step (start numseg segsize) events).sharedData.addClient size chan client = some (i, after) →
        ∃ s, (run step (start numseg segsize) events).sharedData.segments[i]? = some s ∧ ∀ c, ¬ s.Reads c) ∧
    ∀ w ∈ (run step (start numseg segsize) events).writes, w.Inside numseg segsize ∧ w.Own := by
  refine ⟨?_, ?_, ?_⟩
  · intro i inside
    obtain ⟨next, last⟩ := DataSharedWrite.base_next numseg segsize i inside
    exact ⟨next, next ▸ last⟩
  · intro size chan client i after added
    obtain ⟨s, here, free, _⟩ := DataSharedWrite.addClient_spec added
    exact ⟨s, here, SharedDataSegment.free_iff.mp free⟩
  · have kept : (run step (start numseg segsize) events).Kept numseg segsize :=
      run_invariant step (fun s event => s.Enabled event ∧ s.Careful segsize event) (Kept numseg segsize)
        (fun s event kept ok => step_kept kept event ok.1 ok.2) _ events (start_kept numseg segsize)
        (guarded_and.mpr ⟨enabled, careful⟩)
    exact kept.writes

def window : List Event :=
  [.camExpose 1, .startExposure (chipByteSize 4 4 RTS2_DATA_USHORT) 1, .camReadout none (some 1) (fun _ => true),
    .sendReadoutData 0 32, .endReadout, .removeClient 0 1 true]

theorem window_inside :
    (Guarded step Enabled (start 2 (dataBufferSize 8 8 [RTS2_DATA_USHORT])) window ∧
      Guarded step (Careful (dataBufferSize 8 8 [RTS2_DATA_USHORT]))
        (start 2 (dataBufferSize 8 8 [RTS2_DATA_USHORT])) window) ∧
      ∀ w ∈ (run step (start 2 (dataBufferSize 8 8 [RTS2_DATA_USHORT])) window).writes,
        w.Inside 2 (dataBufferSize 8 8 [RTS2_DATA_USHORT]) ∧ w.Own := by
  have enabled : Guarded step Enabled (start 2 (dataBufferSize 8 8 [RTS2_DATA_USHORT])) window :=
    ⟨(by decide : (0 : Int) < 1), trivial, trivial, ⟨by decide, by decide⟩, trivial, trivial, trivial⟩
  have careful : Guarded step (Careful (dataBufferSize 8 8 [RTS2_DATA_USHORT]))
      (start 2 (dataBufferSize 8 8 [RTS2_DATA_USHORT])) window := by
    refine ⟨trivial, trivial, ?_, trivial, trivial, trivial, trivial⟩
    intro _ _
    refine ⟨fun _ _ _ => by decide, fun only => absurd only (by decide), by simp⟩
  exact ⟨⟨enabled, careful⟩, (images_inside _ _ window enabled careful).2.2⟩

/-- The whole chip, which leaves no space for the header; pixels of a type whose size was not asked for;
and an image to be looked at only, written over the one that another client reads. -/
theorem full_frame_outside :
    (∃ w ∈ (run step (start 1 (dataBufferSize 4 4 [RTS2_DATA_USHORT]))
        [.camExpose 1, .startExposure (chipByteSize 4 4 RTS2_DATA_USHORT) 1,
          .camReadout none (some 1) (fun _ => true), .sendReadoutData 0 32]).writes,
      DataSharedWrite.total 1 (dataBufferSize 4 4 [RTS2_DATA_USHORT]) < w.start + w.bytes) ∧
    (∃ w ∈ (run step (start 2 (dataBufferSize 8 8 [RTS2_DATA_USHORT, RTS2_DATA_FLOAT]))
        [.camExpose 1, .startExposure (chipByteSize 8 8 RTS2_DATA_FLOAT) 1,
          .camReadout none (some 1) (fun _ => true), .sendReadoutData 0 256]).writes,
      w.start < DataSharedWrite.base 2 (dataBufferSize 8 8 [RTS2_DATA_USHORT, RTS2_DATA_FLOAT]) 1 ∧
        DataSharedWrite.base 2 (dataBufferSize 8 8 [RTS2_DATA_USHORT, RTS2_DATA_FLOAT]) 1 < w.start + w.bytes) ∧
    (∃ w ∈ (run step (start 2 1000)
        [.camExpose 1, .startExposure 100 1, .camReadout none (some 1) (fun _ => true), .sendReadoutData 0 100,
          .endReadout, .setStatisticOnly true, .camExpose 2, .startExposure 100 1,
          .camReadout none none (fun _ => true)]).writes, ¬ w.Own) := by
  refine ⟨by decide, by decide, ?_⟩
  have looked_at : ∃ w ∈ (run step (start 2 1000)
        [.camExpose 1, .startExposure 100 1, .camReadout none (some 1) (fun _ => true), .sendReadoutData 0 100,
          .endReadout, .setStatisticOnly true, .camExpose 2, .startExposure 100 1,
          .camReadout none none (fun _ => true)]).writes,
      w.client = 2 ∧ (w.segment.map fun segment => segment.2.client_ids 0) = some 1 := by
    decide
  obtain ⟨w, written, client, reader⟩ := looked_at
  refine ⟨w, written, fun own => ?_⟩
  obtain ⟨⟨i, s⟩, there, first⟩ := Option.map_eq_some_iff.mp reader
  have same := own i s there 1 ⟨by decide, 0, first⟩
  rw [client] at same
  exact absurd same (by decide)

end Camera

end Rts2.Camd
