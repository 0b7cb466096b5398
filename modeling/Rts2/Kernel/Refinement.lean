import Rts2.Kernel.Demux

/-! Connection::receive refines the one-byte machine, read by read. -/
namespace Rts2.Kernel

open Lib

universe u

variable {σ : Type u}

def Event.isVisible : Event → Bool
  | .dataReceived _ _ _ => false
  | .line _ | .named _ _ _ | .header _ _ _ _ | .stored _ _ _ | .newDataConn _ | .fullDataReceived _ _ => true

namespace Core

def visible (c : Core σ) : Core σ := { c with log := c.log.filter Event.isVisible }

section
variable (c : Core σ) (sub : Subclass σ)

@[simp] theorem visible_activeReadData : c.visible.activeReadData = c.activeReadData := rfl
@[simp] theorem visible_activeReadChannel : c.visible.activeReadChannel = c.activeReadChannel := rfl
@[simp] theorem visible_readChannels : c.visible.readChannels = c.readChannels := rfl
@[simp] theorem visible_outer : c.visible.outer = c.outer := rfl

@[simp] theorem visible_emit {e : Event} (seen : e.isVisible = true) :
    (c.emit e).visible = c.visible.emit e := by
  simp [visible, emit, seen]

@[simp] theorem visible_dataReceived (id chan : Int) (count : Nat) :
    (c.emit (.dataReceived id chan count)).visible = c.visible := by
  simp [visible, emit, Event.isVisible]

@[simp] theorem visible_dropConnection : (c.dropConnection sub).visible = c.visible.dropConnection sub := by
  unfold dropConnection connectionError
  split
  · rfl
  · by_cases broken : c.connState = .broken <;> simp [visible, broken]

@[simp] theorem visible_setActiveReadData (id : Int) :
    (c.setActiveReadData id).visible = c.visible.setActiveReadData id := rfl

@[simp] theorem visible_setActiveReadChannel (chan : Int) :
    (c.setActiveReadChannel chan).visible = c.visible.setActiveReadChannel chan := rfl

@[simp] theorem visible_setChannels (id : Int) (channels : Option DataChannels) :
    (c.setChannels id channels).visible = c.visible.setChannels id channels := rfl

@[simp] theorem visible_refuse : (c.refuse sub).visible = c.visible.refuse sub :=
  visible_dropConnection _ sub

@[simp] theorem visible_react (result : σ × Effect) :
    (c.react sub result).visible = c.visible.react sub result := by
  unfold react
  split
  · rfl
  · rfl
  · exact visible_dropConnection _ sub

@[simp] theorem visible_newDataConn (id : Int) :
    (c.newDataConn sub id).visible = c.visible.newDataConn sub id := by
  unfold newDataConn
  by_cases told : sub.otherDevice c.outer = true
  · simp only [told, if_true, visible_outer, visible_react]
    rw [visible_emit c rfl]
  · simp only [told, visible_outer, if_false, Bool.false_eq_true]

@[simp] theorem visible_fullDataReceived (id : Int) (channels : DataChannels) :
    (c.fullDataReceived sub id channels).visible = c.visible.fullDataReceived sub id channels := by
  unfold fullDataReceived
  by_cases told : sub.otherDevice c.outer = true
  · simp only [told, if_true, visible_outer, visible_react]
    rw [visible_emit c rfl]
  · simp only [told, visible_outer, if_false, Bool.false_eq_true]

@[simp] theorem visible_stored (channels : DataChannels) (d : DataRead) (data : List UInt8) :
    (c.stored channels d data).visible = c.visible.stored channels d data := by
  simp [visible, stored, emitStored, setChannels, Event.isVisible, List.filter_append,
    List.filter_map, Function.comp_def]

theorem activeChannel_visible {channels : DataChannels} {d : DataRead} :
    c.visible.activeChannel = .ok (channels, d) ↔ c.activeChannel = .ok (channels, d) := by
  unfold activeChannel
  simp only [visible_activeReadData, visible_activeReadChannel, visible_readChannels]
  split
  · simp
  · split <;> simp

theorem activeChannel_error {crash : Crash σ} (unnamed : c.activeChannel = .error crash) :
    ∃ other, c.visible.activeChannel = .error other := by
  cases seen : c.visible.activeChannel with
  | error other => exact ⟨other, rfl⟩
  | ok target =>
    have named := (activeChannel_visible c).mp seen
    rw [unnamed] at named
    contradiction

end

end Core

def Same (a b : Except (Crash σ) (Core σ)) : Prop := a.toOption = b.toOption.map Core.visible

theorem settle_visible (sub : Subclass σ) (c : Core σ) :
    Same (settle sub c.visible) (settle sub c) := by
  unfold settle finishData
  simp only [Core.visible_activeReadData, Core.visible_activeReadChannel, Core.visible_readChannels]
  cases c.readChannels c.activeReadData with
  | none => rfl
  | some channels =>
    dsimp only
    split
    · simp only [Same, Except.toOption, Option.map_some, Option.some.injEq]
      rw [← Core.visible_fullDataReceived]
      rfl
    · cases channels.at? c.activeReadChannel with
      | none => rfl
      | some d =>
        dsimp only
        split <;> rfl

theorem dataReceived_visible (sub : Subclass σ) (c : Core σ) {channels : DataChannels} {d : DataRead}
    (known : c.readChannels c.activeReadData = some channels)
    (inside : channels.at? c.activeReadChannel = some d) :
    Same (settle sub c.visible) (dataReceived sub c) := by
  have plain := settle_visible sub c
  unfold dataReceived
  simp only [known, inside, Option.isNone_some, Bool.false_eq_true, if_false]
  split
  · have told := settle_visible sub
      (c.emit (.dataReceived c.activeReadData c.activeReadChannel channels.length))
    rw [Core.visible_dataReceived] at told
    simpa only [settle, Core.visible_activeReadData, Core.visible_readChannels,
      Core.emit_activeReadData, Core.emit_readChannels, known] using told
  · simpa [settle, known] using plain

theorem same_ok {a b : Core σ} (h : a = b.visible) : Same (.ok a) (.ok b) := by
  simp [Same, Except.toOption, h]

section
variable (sub : Subclass σ) (c : Core σ) (params : List UInt8)

theorem binaryCommand_visible :
    Same (binaryCommand sub c.visible params) (binaryCommand sub c params) := by
  unfold binaryCommand
  split
  · exact same_ok (by simp)
  · split
    · rfl
    · exact same_ok (by simp)

theorem readChannel_visible :
    Same (readChannel sub c.visible params) (readChannel sub c params) := by
  unfold readChannel
  cases named : c.activeChannel with
  | error crash =>
    obtain ⟨other, unnamed⟩ := Core.activeChannel_error c named
    rw [unnamed]
    rfl
  | ok target =>
    obtain ⟨channels, d⟩ := target
    rw [(Core.activeChannel_visible c).mpr named]
    dsimp only
    split
    · exact same_ok (by simp)
    · apply same_ok
      rw [Core.visible_emit _ rfl]
      simp

theorem dataCommand_visible :
    Same (dataCommand sub c.visible params) (dataCommand sub c params) := by
  unfold dataCommand
  simp only [Core.visible_activeReadData, Core.visible_activeReadChannel]
  split
  · exact same_ok (by simp)
  · split
    · exact same_ok (by simp)
    · simp only [← Core.visible_setActiveReadData, ← Core.visible_setActiveReadChannel,
        Core.visible_readChannels]
      rw [← Core.visible_emit _ rfl]
      exact readChannel_visible sub _ _

theorem binaryKilledCommand_visible :
    Same (.ok (binaryKilledCommand sub c.visible params))
      (.ok (binaryKilledCommand sub c params)) := by
  unfold binaryKilledCommand
  simp only [Core.visible_readChannels]
  split
  · exact same_ok (by simp)
  · split
    · exact same_ok rfl
    · exact same_ok (by simp)

theorem sharedEndCommand_visible :
    Same (sharedEndCommand sub c.visible params) (sharedEndCommand sub c params) := by
  unfold sharedEndCommand
  simp only [Core.visible_readChannels]
  split
  · exact same_ok (by simp)
  · split
    · exact same_ok (by simp)
    · split
      · exact same_ok rfl
      · split
        · exact same_ok (by simp)
        · rfl

theorem processLine_visible (text : List UInt8) :
    Same (processLine sub c.visible text) (processLine sub c text) := by
  have read : c.visible.emit (.line text) = (c.emit (.line text)).visible := by
    rw [Core.visible_emit c rfl]
  unfold processLine
  rw [read]
  dsimp only [Core.visible_outer]
  split_ifs
  · exact binaryCommand_visible sub _ _
  · exact dataCommand_visible sub _ _
  · exact binaryKilledCommand_visible sub _ _
  · exact same_ok (by simp [sharedCommand])
  · exact sharedEndCommand_visible sub _ _
  · exact same_ok (by simp)

end

theorem announced_visible {c : Core σ} {channels : DataChannels} {d : DataRead}
    (a : Announced c channels d) : Announced c.visible channels d :=
  ⟨a.named, a.inside, a.positive, a.fits, a.size⟩

theorem beginChunk_some {sub : Subclass σ} {c c' : Core σ} (begun : beginChunk sub c = some c') :
    ∃ channels d, Announced c channels d := by
  unfold beginChunk at begun
  split at begun
  · contradiction
  · rename_i channels d target
    obtain ⟨named, inside⟩ := activeChannel_ok.mp target
    split at begun
    · rename_i bounds
      exact ⟨channels, d, named, inside, bounds.1, bounds.2.1, bounds.2.2⟩
    · contradiction

theorem beginChunk_eq {sub : Subclass σ} {c : Core σ} {channels : DataChannels} {d : DataRead}
    (a : Announced c channels d) :
    beginChunk sub c =
      if d.binaryReadChunkSize = 0 then (settle sub c).toOption else some c := by
  simp only [beginChunk, a.active, a.positive, a.fits, a.size, and_self, if_true]

theorem consume_chunk (sub : Subclass σ) (data : List UInt8) (c : Core σ)
    (channels : DataChannels) (d : DataRead) (a : Announced c channels d)
    (active : 0 ≤ c.activeReadData) (nonempty : data ≠ [])
    (within : data.length ≤ d.binaryReadChunkSize) :
    consume (Demux.step sub) ⟨c, []⟩ data =
      (settle sub (c.stored channels (d.store data) data)).toOption.map (⟨·, []⟩) := by
  induction data generalizing c channels d with
  | nil => contradiction
  | cons b data ih =>
    have first : Demux.step sub ⟨c, []⟩ b =
        (settle sub (c.stored channels (d.store [b]) [b])).toOption.map (⟨·, []⟩) := by
      simp only [Demux.step, active, if_true, storeByte, a.active]
    rw [consume_cons, first]
    by_cases last : data = []
    · subst last
      cases settle sub (c.stored channels (d.store [b]) [b]) <;> rfl
    · have more : 0 < data.length := List.length_pos_iff.mpr last
      simp only [List.length_cons] at within
      have first : (([b] : List UInt8).length : Int) ≤ d.binaryReadChunkSize := by
        simp only [List.length_singleton]
        omega
      have one := a.store first
      rw [one.settle_open sub (by simp only [DataRead.store_chunk, List.length_singleton]; omega)]
      have rest := ih _ _ _ one active last
        (by simp only [DataRead.store_chunk, List.length_singleton]; omega)
      simp only [Except.toOption, Option.map_some, Option.bind_some]
      rw [rest]
      have joined := Core.stored_append c channels d [b] data
      exact congrArg (fun c => (settle sub c).toOption.map (Demux.mk · [])) joined

theorem begin_consume (sub : Subclass σ) (data : List UInt8) (c : Core σ)
    (channels : DataChannels) (d : DataRead) (a : Announced c channels d)
    (active : 0 ≤ c.activeReadData) (within : data.length ≤ d.binaryReadChunkSize) :
    (beginChunk sub c).bind (fun c => consume (Demux.step sub) ⟨c, []⟩ data) =
      (settle sub (c.stored channels (d.store data) data)).toOption.map (⟨·, []⟩) := by
  have positive := a.positive
  rw [beginChunk_eq a]
  by_cases empty : data = []
  · subst empty
    rw [a.stored_nil]
    by_cases ended : d.binaryReadChunkSize = 0
    · rw [if_pos ended]
      cases settle sub c <;> rfl
    · rw [if_neg ended, a.settle_open sub (by omega)]
      rfl
  · have some_data : 0 < data.length := List.length_pos_iff.mpr empty
    rw [if_neg (by omega)]
    exact consume_chunk sub data c channels d a active empty within

theorem same_some {a b : Except (Crash σ) (Core σ)} (same : Same a b) {c : Core σ}
    (ok : a = .ok c) : ∃ c', b = .ok c' ∧ c'.visible = c := by
  cases b with
  | error crash => simp [Same, ok, Except.toOption] at same
  | ok c' =>
    simp only [Same, ok, Except.toOption, Option.map_some, Option.some.injEq] at same
    exact ⟨c', rfl, same.symm⟩

theorem toOption_some {ε α : Type*} {r : Except ε α} {a : α} (h : r.toOption = some a) :
    r = .ok a := by
  cases r with
  | error e => simp [Except.toOption] at h
  | ok b => simpa [Except.toOption] using h

structure Related (c : Core σ) (buf : List UInt8) (m : Demux σ) : Prop where
  core : c.visible = m.core
  text : c.activeReadData < 0 → buf = m.pending ∧ Pending m.pending
  chunk : 0 ≤ c.activeReadData → buf = [] ∧ m.pending = [] ∧
    ∃ channels d, Announced c channels d ∧ 0 < d.binaryReadChunkSize

theorem chunk_refines (sub : Subclass σ) (c : Core σ) (data : List UInt8)
    (channels : DataChannels) (d : DataRead) (a : Announced c channels d)
    (active : 0 ≤ c.activeReadData) (within : data.length ≤ d.binaryReadChunkSize)
    (m : Demux σ)
    (taken : (settle sub (c.visible.stored channels (d.store data) data)).toOption.map (⟨·, []⟩) =
      some m) :
    ∃ c', dataReceived sub (c.stored channels (d.store data) data) = .ok c' ∧
      Related c' [] m ∧ (0 ≤ c'.activeReadData → (data.length : Int) < d.binaryReadChunkSize) := by
  obtain ⟨core, settled, rfl⟩ := Option.map_eq_some_iff.mp taken
  replace settled := toOption_some settled
  have after := a.store within
  rw [← Core.visible_stored] at settled
  obtain ⟨c', told, seen⟩ :=
    same_some (dataReceived_visible sub _ after.named after.inside) settled
  refine ⟨c', told, ?_⟩
  by_cases ended : data.length = d.binaryReadChunkSize
  · obtain ⟨closed, settles, text⟩ :=
      (announced_visible after).settle_closed sub (by simp only [DataRead.store_chunk]; omega)
    rw [settled] at settles
    cases settles
    have negative : c'.activeReadData = -1 := by rw [← text, ← seen]; rfl
    exact ⟨⟨seen, fun _ => ⟨rfl, .none⟩, fun h => by omega⟩, fun h => by omega⟩
  · have waits : 0 < (d.store data).binaryReadChunkSize := by
      simp only [DataRead.store_chunk]; omega
    rw [(announced_visible after).settle_open sub waits] at settled
    cases settled
    have more : Announced c' (channels.put c.activeReadChannel (d.store data)) (d.store data) := by
      have kept := announced_visible after
      rw [← seen] at kept
      exact ⟨kept.named, kept.inside, kept.positive, kept.fits, kept.size⟩
    have still : c'.activeReadData = c.activeReadData := by
      rw [← Core.visible_activeReadData c', seen]
      rfl
    exact ⟨⟨seen, fun h => by omega, fun _ => ⟨rfl, rfl, _, _, more, waits⟩⟩, fun _ => by omega⟩

theorem binaryStart_refines (sub : Subclass σ) (c : Core σ) (rest more : List UInt8) (m : Demux σ)
    (active : 0 ≤ c.activeReadData) (core : Core σ) (begun : beginChunk sub c.visible = some core)
    (taken : consume (Demux.step sub) ⟨core, []⟩ rest = some m)
    (text : 0 ≤ m.core.activeReadData → more = []) :
    ∃ c' readSize m', binaryStart sub c (rest ++ more) = .ok (c', readSize) ∧
      (rest ++ more).drop readSize = rest.drop readSize ++ more ∧ Related c' [] m' ∧
      consume (Demux.step sub) m' (rest.drop readSize) = some m ∧
      (0 ≤ c'.activeReadData → rest.drop readSize = []) := by
  obtain ⟨channels, d, seen⟩ := beginChunk_some begun
  have a : Announced c channels d := ⟨seen.named, seen.inside, seen.positive, seen.fits, seen.size⟩
  have positive := a.positive
  generalize size : (min (rest.length : Int) d.binaryReadChunkSize).toNat = readSize
  have length : (rest.take readSize).length = readSize := by
    rw [List.length_take]; omega
  have within : (rest.take readSize).length ≤ d.binaryReadChunkSize := by rw [length]; omega
  rw [← List.take_append_drop readSize rest, consume_append, Option.bind_eq_some_iff] at taken
  obtain ⟨m', head, tail⟩ := taken
  have whole := begin_consume sub (rest.take readSize) c.visible channels d seen active within
  rw [begun, Option.bind_some, head] at whole
  obtain ⟨c', told, related, open_⟩ :=
    chunk_refines sub c (rest.take readSize) channels d a active within m' whole.symm
  have ended : 0 ≤ c'.activeReadData → rest.drop readSize = [] := by
    intro still
    have short := open_ still
    rw [length] at short
    exact List.drop_eq_nil_of_le (by omega)
  have noMore : (rest.length : Int) < d.binaryReadChunkSize → more = [] := by
    intro short
    have all : rest.drop readSize = [] := List.drop_eq_nil_of_le (by omega)
    rw [all] at tail
    cases Option.some.inj tail
    apply text
    obtain ⟨core', settled, rfl⟩ := Option.map_eq_some_iff.mp whole.symm
    rw [(seen.store within).settle_open sub
      (by simp only [DataRead.store_chunk, length]; omega)] at settled
    cases settled
    exact active
  have added : d.addData (rest ++ more) = .ok (d.store (rest.take readSize), readSize) := by
    have legal : ¬ min ((rest ++ more).length : Int) d.binaryReadChunkSize < 0 := by omega
    by_cases short : (rest.length : Int) < d.binaryReadChunkSize
    · rw [noMore short, List.append_nil] at legal ⊢
      simp only [DataRead.addData, legal, if_false, size]
    · have same : (min ((rest ++ more).length : Int) d.binaryReadChunkSize).toNat = readSize := by
        simp only [List.length_append]; omega
      simp only [DataRead.addData, legal, if_false, same]
      rw [List.take_append_of_le_length (by omega)]
  have taken : (rest ++ more).take readSize = rest.take readSize :=
    List.take_append_of_le_length (by omega)
  refine ⟨c', readSize, m', ?_, List.drop_append_of_le_length (by omega), related, tail, ended⟩
  simp only [binaryStart, a.active, added, taken, told]

theorem lineStep_refines (sub : Subclass σ) (c : Core σ) (line rest more : List UInt8)
    (m : Demux σ) (full : line ≠ []) (core : Core σ)
    (took : takeLine sub c.visible line = some core)
    (taken : consume (Demux.step sub) ⟨core, []⟩ rest = some m)
    (text : 0 ≤ m.core.activeReadData → more = []) :
    ∃ c' left m', lineStep sub c line (rest ++ more) = .ok (c', left ++ more) ∧
      left.length ≤ rest.length ∧ Related c' [] m' ∧
      consume (Demux.step sub) m' left = some m ∧ (0 ≤ c'.activeReadData → left = []) := by
  unfold takeLine at took
  rw [if_neg full] at took
  split at took
  · contradiction
  rename_i processed
  obtain ⟨c', ran, rfl⟩ := same_some (processLine_visible sub c line) processed
  rw [Core.visible_activeReadData] at took
  by_cases negative : c'.activeReadData < 0
  · have stays : ¬ 0 ≤ c'.activeReadData := by omega
    rw [if_pos negative] at took
    cases took
    refine ⟨c', rest, ⟨c'.visible, []⟩, ?_, Nat.le_refl _, ?_, taken, fun h => absurd h stays⟩
    · simp only [lineStep, ran, stays, if_false]
    · exact ⟨rfl, fun _ => ⟨rfl, .none⟩, fun h => absurd h stays⟩
  · have active : 0 ≤ c'.activeReadData := by omega
    rw [if_neg negative] at took
    obtain ⟨c'', readSize, m', started, left, related, tail, whole⟩ :=
      binaryStart_refines sub c' rest more m active core took taken text
    refine ⟨c'', rest.drop readSize, m', ?_, by simp, related, tail, whole⟩
    simp only [lineStep, ran, active, if_true, started, left]

theorem processLoop_refines (sub : Subclass σ) (bytes more : List UInt8) (c : Core σ)
    (p : List UInt8) (m : Demux σ) (negative : c.activeReadData < 0) (pending : Pending p)
    (taken : consume (Demux.step sub) ⟨c.visible, p⟩ bytes = some m)
    (text : 0 ≤ m.core.activeReadData → more = []) :
    ∃ c' kept, processLoop sub c (p ++ (bytes ++ more)) = processLoop sub c' (kept ++ more) ∧
      Related c' kept m := by
  generalize size : bytes.length = n
  induction n using Nat.strong_induction_on generalizing bytes c p with
  | _ n ih =>
  subst size
  cases bytes with
  | nil =>
    have same := Option.some.inj taken
    subst same
    exact ⟨c, p, rfl, rfl, fun _ => ⟨rfl, pending⟩, fun h => by omega⟩
  | cons b rest =>
    have shorter : rest.length < (b :: rest).length := by simp
    rw [consume_cons, Option.bind_eq_some_iff] at taken
    obtain ⟨next, stepped, taken⟩ := taken
    have reading : ¬ 0 ≤ c.activeReadData := by omega
    simp only [Demux.step, Core.visible_activeReadData, reading, if_false] at stepped
    split at stepped
    · contradiction
    rename_i nul
    rw [List.cons_append]
    split at stepped
    · -- the end of a line
      rename_i lf
      subst lf
      obtain ⟨core, took, rfl⟩ := Option.map_eq_some_iff.mp stepped
      have found := scan_lf pending (rest ++ more)
      by_cases blank : lineText p = []
      · rw [if_pos blank] at found
        rw [takeLine, if_pos blank] at took
        cases took
        rw [processLoop_congr sub c found]
        exact ih _ shorter rest c [] negative .none taken rfl
      · rw [if_neg blank] at found
        obtain ⟨c', left, m', stepped, length, related, tail, whole⟩ :=
          lineStep_refines sub c _ rest more m blank core took taken text
        have less : left.length < (10 :: rest).length := Nat.lt_of_le_of_lt length shorter
        rw [processLoop_line sub c found, stepped]
        by_cases negative : c'.activeReadData < 0
        · obtain ⟨noText, _⟩ := related.text negative
          have state : m' = ⟨c'.visible, []⟩ := by rw [related.core, noText]
          rw [state] at tail
          exact ih _ less left c' [] negative .none tail rfl
        · rw [whole (by omega)] at tail ⊢
          cases Option.some.inj tail
          exact ⟨c', [], rfl, related⟩
    · -- a byte of the text
      rename_i inner
      cases stepped
      rw [processLoop_extend sub c pending nul inner]
      exact ih _ shorter rest c _ negative (extend_pending pending nul inner) taken rfl

theorem related_kept {sub : Subclass σ} {c : Core σ} {buf : List UInt8} {m : Demux σ}
    (related : Related c buf m) : processLoop sub c buf = .ok (c, buf) := by
  apply processLoop_kept
  by_cases negative : c.activeReadData < 0
  · obtain ⟨same, pending⟩ := related.text negative
    exact same ▸ scan_pending pending
  · rw [(related.chunk (by omega)).1]
    exact scan_pending .none

theorem receive_refines (sub : Subclass σ) (r : Reader σ) (data : List UInt8) (m m' : Demux σ)
    (related : Related r.core r.buf m) (ready : r.core.readable ∧ ReadOf r (.data data))
    (taken : consume (Demux.step sub) m data = some m') :
    ∃ r', receive sub r (.data data) = .ok r' ∧ Related r'.core r'.buf m' := by
  obtain ⟨readable, nonempty, within⟩ := ready
  by_cases active : 0 ≤ r.core.activeReadData
  · obtain ⟨noText, noPending, channels, d, a, waits⟩ := related.chunk active
    simp only [requested, active, if_true, a.active] at within
    have state : m = ⟨r.core.visible, []⟩ := by rw [related.core, ← noPending]
    rw [state, consume_chunk sub data _ channels d (announced_visible a) active nonempty within]
      at taken
    obtain ⟨c', told, next, _⟩ :=
      chunk_refines sub r.core data channels d a active within m' taken
    refine ⟨{ r with core := c' }, ?_, noText ▸ next⟩
    simp only [receive, readable, not_true_eq_false, if_false, active, if_true, receiveBinary,
      a.active, DataRead.getData, told]
  · obtain ⟨same, pending⟩ := related.text (by omega)
    have state : m = ⟨r.core.visible, r.buf⟩ := by rw [related.core, same]
    rw [state] at taken
    obtain ⟨c', kept, ran, next⟩ :=
      processLoop_refines sub data [] r.core r.buf m' (by omega) (same ▸ pending) taken
        (fun _ => rfl)
    rw [List.append_nil, List.append_nil, related_kept next] at ran
    refine ⟨{ checkBufferSize r with core := c', buf := kept }, ?_, next⟩
    simp only [receive, readable, not_true_eq_false, if_false, active, receiveText, processBuffer,
      checkBufferSize_core, checkBufferSize_buf, ran]

theorem receive_crash (sub : Subclass σ) (r : Reader σ) (before after : List UInt8)
    (m m' : Demux σ) (crash : Crash σ) (related : Related r.core r.buf m)
    (ready : r.core.readable ∧ ReadOf r (.data (before ++ 10 :: after)))
    (taken : consume (Demux.step sub) m before = some m') (negative : m'.core.activeReadData < 0)
    (full : lineText m'.pending ≠ [])
    (ends : processLine sub m'.core (lineText m'.pending) = .error crash) :
    ∃ crash, receive sub r (.data (before ++ 10 :: after)) = .error crash := by
  obtain ⟨readable, _, within⟩ := ready
  have textMode : ¬ 0 ≤ r.core.activeReadData := by
    intro active
    obtain ⟨noText, noPending, channels, d, a, waits⟩ := related.chunk active
    simp only [requested, active, if_true, a.active, List.length_append, List.length_cons] at within
    have state : m = ⟨r.core.visible, []⟩ := by rw [related.core, ← noPending]
    have seen := announced_visible a
    by_cases empty : before = []
    · subst empty
      cases Option.some.inj taken
      rw [state] at negative
      exact absurd active (by simpa using negative)
    · rw [state, consume_chunk sub before _ channels d seen active empty (by omega),
        (seen.store (by omega)).settle_open sub (by simp only [DataRead.store_chunk]; omega)] at taken
      cases taken
      exact absurd active (by simpa [Core.stored, Core.emitStored] using negative)
  obtain ⟨same, pending⟩ := related.text (by omega)
  have state : m = ⟨r.core.visible, r.buf⟩ := by rw [related.core, same]
  rw [state] at taken
  obtain ⟨c', kept, ran, next⟩ := processLoop_refines sub before (10 :: after) r.core r.buf m'
    (by omega) (same ▸ pending) taken (fun h => by omega)
  have negative' : c'.activeReadData < 0 := by
    rw [← Core.visible_activeReadData, next.core]
    exact negative
  obtain ⟨same', pending'⟩ := next.text negative'
  have found := scan_lf pending' after
  rw [if_neg full] at found
  have stops := processLine_visible sub c' (lineText m'.pending)
  rw [next.core, Same, ends] at stops
  cases stopped : processLine sub c' (lineText m'.pending) with
  | ok core => simp [stopped, Except.toOption] at stops
  | error crash' =>
    refine ⟨crash', ?_⟩
    simp only [receive, readable, not_true_eq_false, if_false, textMode, receiveText,
      processBuffer, checkBufferSize_core, checkBufferSize_buf, ran, same',
      processLoop_line sub c' found, lineStep, stopped]

end Rts2.Kernel
