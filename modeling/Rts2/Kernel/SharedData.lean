import Rts2.Lib.Run

/-! Shared memory for images: the headers of the segments and then the segments, one after the other. A
segment with no reader is given to a client. -/
namespace Rts2.Kernel

abbrev MAX_SHARED_CLIENTS : Nat := 10

def sizeofSharedDataHeader : Nat := 8
def sizeofSharedDataSegment : Nat := 64

structure SharedDataSegment where
  client_ids : Fin MAX_SHARED_CLIENTS → Int
  size : Nat
  bytesSoFar : Nat
  offset : Nat

namespace SharedDataSegment

def Reads (c : Int) (s : SharedDataSegment) : Prop := 0 < c ∧ ∃ place, s.client_ids place = c

def free (s : SharedDataSegment) : Bool := (List.finRange MAX_SHARED_CLIENTS).all fun place => ¬ 0 < s.client_ids place

def removeClient (client_id : Int) (s : SharedDataSegment) : SharedDataSegment :=
  match (List.finRange MAX_SHARED_CLIENTS).find? fun place => s.client_ids place = client_id with
  | none => s
  | some place => { s with client_ids := Function.update s.client_ids place 0 }

theorem first_place : 0 < MAX_SHARED_CLIENTS := by decide

def give (segsize : Nat) (client : Int) (s : SharedDataSegment) : SharedDataSegment :=
  { s with bytesSoFar := 0, size := segsize, client_ids := Function.update s.client_ids ⟨0, first_place⟩ client }

theorem free_iff {s : SharedDataSegment} : s.free = true ↔ ∀ c, ¬ s.Reads c := by
  simp only [free, List.all_eq_true, List.mem_finRange, true_imp_iff, decide_eq_true_eq]
  constructor
  · rintro none_reads c ⟨positive, place, here⟩
    exact none_reads place (here ▸ positive)
  · intro none_reads place positive
    exact none_reads _ ⟨positive, place, rfl⟩

theorem removeClient_offset (client_id : Int) (s : SharedDataSegment) :
    (s.removeClient client_id).offset = s.offset := by
  unfold removeClient
  split <;> rfl

theorem reads_removeClient {client_id c : Int} {s : SharedDataSegment}
    (reads : (s.removeClient client_id).Reads c) : s.Reads c := by
  unfold removeClient at reads
  split at reads
  · exact reads
  · obtain ⟨positive, place, here⟩ := reads
    refine ⟨positive, place, ?_⟩
    simp only [Function.update_apply] at here
    split at here
    · omega
    · exact here

theorem reads_give {segsize : Nat} {client c : Int} {s : SharedDataSegment} (free : s.free = true)
    (reads : (s.give segsize client).Reads c) : c = client := by
  obtain ⟨positive, place, here⟩ := reads
  simp only [give, Function.update_apply] at here
  split at here
  · exact here.symm
  · exact absurd ⟨positive, place, here⟩ (free_iff.mp free c)

theorem give_free {segsize : Nat} {client : Int} (positive : 0 < client) (s : SharedDataSegment) :
    (s.give segsize client).free = false := by
  have reads : (s.give segsize client).Reads client := ⟨positive, ⟨0, first_place⟩, by simp [give]⟩
  cases free : (s.give segsize client).free with
  | false => rfl
  | true => exact absurd reads (free_iff.mp free client)

end SharedDataSegment

/-- The segments in the memory, and those the channels of the last image are written to. -/
structure DataSharedWrite where
  segments : List SharedDataSegment
  chan2seg : Nat → Option Nat

namespace DataSharedWrite

def base (numseg segsize i : Nat) : Nat :=
  sizeofSharedDataHeader + sizeofSharedDataSegment * numseg + i * segsize

def total (numseg segsize : Nat) : Nat :=
  sizeofSharedDataHeader + numseg * (sizeofSharedDataSegment + segsize)

def create (numseg segsize : Nat) : DataSharedWrite where
  segments := (List.range numseg).map fun i =>
    { client_ids := fun _ => 0, size := segsize, bytesSoFar := 0
      offset := base numseg segsize i }
  chan2seg := fun _ => none

def reserve (segsize : Nat) (client : Int) :
    List SharedDataSegment → Option (Nat × List SharedDataSegment)
  | [] => none
  | s :: ss =>
    if s.free then
      some (0, s.give segsize client :: ss)
    else (reserve segsize client ss).map fun (i, ss) => (i + 1, s :: ss)

def addClient (segsize chan : Nat) (client : Int) (d : DataSharedWrite) : Option (Nat × DataSharedWrite) :=
  (reserve segsize client d.segments).map fun (i, segments) =>
    (i, { segments := segments, chan2seg := Function.update d.chan2seg chan (some i) })

def removeClient (segnum : Nat) (client_id : Int) (locks : Bool) (d : DataSharedWrite) : DataSharedWrite :=
  if locks then { d with segments := d.segments.modify segnum (·.removeClient client_id) } else d

def clearChan2Seg (d : DataSharedWrite) : DataSharedWrite := { d with chan2seg := fun _ => none }

def channel (chan : Nat) (d : DataSharedWrite) : Option (Nat × SharedDataSegment) :=
  match d.chan2seg chan with
  | none => none
  | some i => d.segments[i]?.map (i, ·)

def dataWritten (chan size : Nat) (d : DataSharedWrite) : DataSharedWrite :=
  match d.chan2seg chan with
  | none => d
  | some i => { d with segments := d.segments.modify i fun s => { s with bytesSoFar := s.bytesSoFar + size } }

def endChannel (d : DataSharedWrite) (chan : Nat) : DataSharedWrite :=
  match d.chan2seg chan with
  | none => d
  | some i => { d with segments := d.segments.modify i fun s => { s with bytesSoFar := s.size } }

def endChannels (channels : Nat) (d : DataSharedWrite) : DataSharedWrite :=
  (List.range channels).foldl endChannel d

def Laid (numseg segsize : Nat) (d : DataSharedWrite) : Prop :=
  d.segments.map (·.offset) = (List.range numseg).map (base numseg segsize)

def Maps (client : Int) (chan : Nat) (d : DataSharedWrite) : Prop :=
  ∃ i s, d.channel chan = some (i, s) ∧ ∀ c, s.Reads c → c = client

def freeSegments (d : DataSharedWrite) : Nat := d.segments.countP (·.free)

theorem base_next (numseg segsize i : Nat) (inside : i < numseg) :
    base numseg segsize i + segsize = base numseg segsize (i + 1) ∧
      base numseg segsize (i + 1) ≤ total numseg segsize := by
  have next : (i + 1) * segsize = i * segsize + segsize := Nat.succ_mul i segsize
  have last : (i + 1) * segsize ≤ numseg * segsize := Nat.mul_le_mul_right segsize inside
  have whole : numseg * (sizeofSharedDataSegment + segsize) =
      sizeofSharedDataSegment * numseg + numseg * segsize := by
    rw [Nat.mul_add, Nat.mul_comm numseg sizeofSharedDataSegment]
  unfold base total
  omega

theorem create_laid (numseg segsize : Nat) : (create numseg segsize).Laid numseg segsize := by
  simp [Laid, create, Function.comp_def]

theorem Laid.at {numseg segsize i : Nat} {d : DataSharedWrite} (laid : d.Laid numseg segsize)
    {s : SharedDataSegment} (there : d.segments[i]? = some s) :
    i < numseg ∧ s.offset = base numseg segsize i := by
  have same := congrArg (·[i]?) laid
  simp only [List.getElem?_map, there, Option.map_some] at same
  by_cases inside : i < numseg
  · simp [inside] at same
    exact ⟨inside, same⟩
  · simp [inside] at same

theorem reserve_spec {segsize : Nat} {client : Int} {ss after : List SharedDataSegment} {i : Nat}
    (found : reserve segsize client ss = some (i, after)) :
    ∃ s, ss[i]? = some s ∧ s.free = true ∧ after = ss.set i (s.give segsize client) := by
  induction ss generalizing i after with
  | nil => cases found
  | cons s ss ih =>
    by_cases free : s.free
    · simp only [reserve, if_pos free, Option.some.injEq, Prod.mk.injEq] at found
      obtain ⟨rfl, rfl⟩ := found
      exact ⟨s, rfl, free, rfl⟩
    · simp only [reserve, if_neg free] at found
      obtain ⟨⟨k, rest⟩, later, same⟩ := Option.map_eq_some_iff.mp found
      injection same with at_i at_rest
      subst at_i at_rest
      obtain ⟨s', here, free', rfl⟩ := ih later
      exact ⟨s', by simpa using here, free', rfl⟩

theorem addClient_spec {segsize chan : Nat} {client : Int} {d after : DataSharedWrite} {i : Nat}
    (added : d.addClient segsize chan client = some (i, after)) :
    ∃ s, d.segments[i]? = some s ∧ s.free = true ∧
      after = { segments := d.segments.set i (s.give segsize client)
                chan2seg := Function.update d.chan2seg chan (some i) } := by
  obtain ⟨⟨k, segments⟩, found, same⟩ := Option.map_eq_some_iff.mp added
  injection same with at_i at_after
  subst at_i at_after
  obtain ⟨s, here, free, rfl⟩ := reserve_spec found
  exact ⟨s, here, free, rfl⟩

theorem addClient_laid {numseg segsize size chan : Nat} {client : Int} {d after : DataSharedWrite} {i : Nat}
    (added : d.addClient size chan client = some (i, after)) (laid : d.Laid numseg segsize) :
    after.Laid numseg segsize := by
  obtain ⟨s, here, _, rfl⟩ := addClient_spec added
  unfold Laid
  rw [← laid]
  apply List.ext_getElem?
  intro j
  simp only [List.getElem?_map, List.getElem?_set]
  by_cases same : i = j
  · subst same
    obtain ⟨inside, at_i⟩ := List.getElem?_eq_some_iff.mp here
    simp [inside, at_i, SharedDataSegment.give]
  · simp [same]

theorem addClient_maps {size chan : Nat} {client : Int} {d after : DataSharedWrite} {i : Nat}
    (added : d.addClient size chan client = some (i, after)) : after.Maps client chan := by
  obtain ⟨s, here, free, rfl⟩ := addClient_spec added
  obtain ⟨inside, _⟩ := List.getElem?_eq_some_iff.mp here
  refine ⟨i, s.give size client, ?_, fun c => SharedDataSegment.reads_give free⟩
  simp [channel, inside]

theorem addClient_keeps {size chan other : Nat} {client : Int} {d after : DataSharedWrite} {i : Nat}
    (added : d.addClient size chan client = some (i, after)) (maps : d.Maps client other) :
    after.Maps client other := by
  by_cases same : other = chan
  · rw [same]
    exact addClient_maps added
  · obtain ⟨s, here, free, rfl⟩ := addClient_spec added
    obtain ⟨j, s', mapped, own⟩ := maps
    unfold channel at mapped
    cases at_other : d.chan2seg other with
    | none => simp [at_other] at mapped
    | some k =>
      simp only [at_other, Option.map_eq_some_iff, Prod.mk.injEq] at mapped
      obtain ⟨_, there, rfl, rfl⟩ := mapped
      obtain ⟨inside, _⟩ := List.getElem?_eq_some_iff.mp here
      by_cases taken : i = k
      · subst taken
        refine ⟨i, s.give size client, ?_, fun c => SharedDataSegment.reads_give free⟩
        simp [channel, same, at_other, inside]
      · refine ⟨k, _, ?_, own⟩
        simp [channel, same, at_other, taken, there]

theorem countP_set_free {ss : List SharedDataSegment} {i : Nat} {s s' : SharedDataSegment}
    (here : ss[i]? = some s) (free : s.free = true) (taken : s'.free = false) :
    ss.countP (·.free) = (ss.set i s').countP (·.free) + 1 := by
  induction ss generalizing i with
  | nil => simp at here
  | cons first ss ih =>
    cases i with
    | zero =>
      simp only [List.getElem?_cons_zero, Option.some.injEq] at here
      subst here
      simp [free, taken]
    | succ i =>
      have rest := ih (by simpa using here)
      simp only [List.set_cons_succ, List.countP_cons]
      omega

theorem addClient_takes {size chan : Nat} {client : Int} (positive : 0 < client) {d after : DataSharedWrite}
    {i : Nat} (added : d.addClient size chan client = some (i, after)) :
    d.freeSegments = after.freeSegments + 1 := by
  obtain ⟨s, here, free, rfl⟩ := addClient_spec added
  exact countP_set_free here free (SharedDataSegment.give_free positive s)

/-- Only headers of the segments change, and no one is registered. -/
structure Shrinks (d after : DataSharedWrite) : Prop where
  chan2seg : after.chan2seg = d.chan2seg
  offsets : after.segments.map (·.offset) = d.segments.map (·.offset)
  reads : ∀ (i : Nat) (s : SharedDataSegment), after.segments[i]? = some s →
    ∃ s' : SharedDataSegment, d.segments[i]? = some s' ∧ ∀ c, s.Reads c → s'.Reads c

theorem Shrinks.refl (d : DataSharedWrite) : d.Shrinks d := ⟨rfl, rfl, fun _ s here => ⟨s, here, fun _ => id⟩⟩

theorem Shrinks.trans {d e f : DataSharedWrite} (first : d.Shrinks e) (then_ : e.Shrinks f) :
    d.Shrinks f := by
  refine ⟨then_.chan2seg.trans first.chan2seg, then_.offsets.trans first.offsets, ?_⟩
  intro i s here
  obtain ⟨s', there, fewer⟩ := then_.reads i s here
  obtain ⟨s'', before, fewer'⟩ := first.reads i s' there
  exact ⟨s'', before, fun c reads => fewer' c (fewer c reads)⟩

theorem shrinks_modify (d : DataSharedWrite) (i : Nat) {f : SharedDataSegment → SharedDataSegment}
    (stays : ∀ s, (f s).offset = s.offset) (fewer : ∀ s c, (f s).Reads c → s.Reads c) :
    d.Shrinks { d with segments := d.segments.modify i f } := by
  refine ⟨rfl, ?_, ?_⟩
  · apply List.ext_getElem?
    intro j
    simp only [List.getElem?_map, List.getElem?_modify]
    cases d.segments[j]? with
    | none => rfl
    | some s =>
      by_cases same : i = j
      · simp [same, stays]
      · simp [same]
  · intro j s here
    simp only [List.getElem?_modify, Option.map_eq_map, Option.map_eq_some_iff] at here
    obtain ⟨s', there, rfl⟩ := here
    refine ⟨s', there, fun c reads => ?_⟩
    split at reads
    · exact fewer s' c reads
    · exact reads

theorem removeClient_shrinks (segnum : Nat) (client_id : Int) (locks : Bool) (d : DataSharedWrite) :
    d.Shrinks (d.removeClient segnum client_id locks) := by
  unfold removeClient
  split
  · apply shrinks_modify
    · exact SharedDataSegment.removeClient_offset client_id
    · exact fun s c reads => SharedDataSegment.reads_removeClient reads
  · exact .refl d

theorem dataWritten_shrinks (chan size : Nat) (d : DataSharedWrite) : d.Shrinks (d.dataWritten chan size) := by
  unfold dataWritten
  split
  · exact .refl d
  · exact shrinks_modify d _ (fun _ => rfl) (fun _ _ reads => reads)

theorem endChannels_shrinks (channels : Nat) (d : DataSharedWrite) : d.Shrinks (d.endChannels channels) := by
  unfold endChannels
  generalize List.range channels = chans
  induction chans generalizing d with
  | nil => exact .refl d
  | cons chan chans ih =>
    have first : d.Shrinks (d.endChannel chan) := by
      unfold endChannel
      split
      · exact .refl d
      · exact shrinks_modify d _ (fun _ => rfl) (fun _ _ reads => reads)
    exact first.trans (ih _)

theorem Shrinks.laid {numseg segsize : Nat} {d after : DataSharedWrite} (shrinks : d.Shrinks after)
    (laid : d.Laid numseg segsize) : after.Laid numseg segsize :=
  shrinks.offsets.trans laid

theorem Shrinks.maps {client : Int} {chan : Nat} {d after : DataSharedWrite} (shrinks : d.Shrinks after)
    (maps : d.Maps client chan) : after.Maps client chan := by
  obtain ⟨i, s, mapped, own⟩ := maps
  unfold channel at mapped
  cases at_chan : d.chan2seg chan with
  | none => simp [at_chan] at mapped
  | some k =>
    simp only [at_chan, Option.map_eq_some_iff, Prod.mk.injEq] at mapped
    obtain ⟨_, there, rfl, rfl⟩ := mapped
    have as_long : after.segments.length = d.segments.length := by
      simpa using congrArg List.length shrinks.offsets
    obtain ⟨inside, _⟩ := List.getElem?_eq_some_iff.mp there
    have here : after.segments[k]? = some (after.segments.get ⟨k, by omega⟩) := List.getElem?_eq_getElem _
    obtain ⟨s', before, fewer⟩ := shrinks.reads k _ here
    rw [there] at before
    injection before with same
    subst same
    refine ⟨k, _, ?_, fun c reads => own c (fewer c reads)⟩
    simp [channel, shrinks.chan2seg, at_chan, here]

end DataSharedWrite

end Rts2.Kernel
