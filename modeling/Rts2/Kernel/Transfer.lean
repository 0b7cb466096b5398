import Rts2.Kernel.Chunking
import Rts2.Kernel.Messages

/-! A binary transfer from startBinaryData and sendBinaryData of one side to dataReceived of the
other, whatever send and read cut it into. -/
namespace Rts2.Kernel

open Lib

universe u

variable {σ : Type u}

def sentOn (calls : List SendCall) (chan : Nat) : List UInt8 :=
  (calls.filter (·.chan = chan)).flatMap (·.data)

def NoFull (id : Int) (log : List Event) : Prop := ∀ channels, Event.fullDataReceived id channels ∉ log

def Delivered (id : Int) (chansize : List Nat) (calls : List SendCall) (c : Core σ) : Prop :=
  ∃ before channels,
    c.log.filter Event.isVisible = before ++ [.fullDataReceived id channels] ∧ NoFull id before ∧
      channels.length = chansize.length ∧
      ∀ chan d, channels[chan]? = some d → d.stored = sentOn calls chan

def Completes : Nat → List SendCall → Prop
  | _, [] => False
  | total, call :: calls =>
    if total - call.data.length = 0 then calls = [] else Completes (total - call.data.length) calls

theorem fits_sum {rest : List Nat} {calls : List SendCall} (fits : Fits rest calls) :
    rest.sum = (calls.map (·.data.length)).sum := by
  induction calls generalizing rest with
  | nil => exact List.sum_eq_zero_iff.mpr fits
  | cons call calls ih =>
    obtain ⟨size, here, within, tail⟩ := fits
    have left := sum_set here (size - call.data.length)
    rw [ih tail] at left
    simp only [List.map_cons, List.sum_cons]
    omega

theorem completes_iff (calls : List SendCall) :
    Completes (calls.map (·.data.length)).sum calls ↔
      calls.length = 1 ∨ ∃ call, calls.getLast? = some call ∧ call.data ≠ [] := by
  induction calls with
  | nil => simp [Completes]
  | cons call calls ih =>
    have left : ((call :: calls).map (·.data.length)).sum - call.data.length =
        (calls.map (·.data.length)).sum := by simp
    rw [Completes, left]
    split
    · rename_i ended
      have empty : ∀ other ∈ calls, other.data = [] := by
        intro other mem
        exact List.length_eq_zero_iff.mp
          (List.sum_eq_zero_iff.mp ended _ (List.mem_map_of_mem mem))
      cases calls with
      | nil => simp
      | cons next calls =>
        have last : ∀ last, (next :: calls).getLast? = some last → last.data = [] :=
          fun last h => empty last (List.mem_of_getLast? h)
        constructor
        · intro h
          contradiction
        · rintro (h | ⟨final, h, full⟩)
          · simp at h
          · exact absurd (last final (by rwa [List.getLast?_cons_cons] at h)) full
    · rename_i more
      rw [ih]
      cases calls with
      | nil => simp at more
      | cons next calls =>
        rw [List.getLast?_cons_cons]
        constructor
        · rintro (single | full)
          · obtain rfl : calls = [] := by simpa using single
            exact Or.inr ⟨next, rfl, by rintro h; simp [h] at more⟩
          · exact Or.inr full
        · rintro (single | full)
          · simp at single
          · exact Or.inr full

/-- The data connection is open and its channels hold `stored`. -/
structure Receiving (c : Core σ) (id : Int) (channels : DataChannels) (rest : List Nat)
    (stored : Nat → List UInt8) : Prop where
  negative : c.activeReadData < 0
  known : c.readChannels id = some channels
  sizes : channels.map DataRead.getRestSize = rest
  contents : ∀ chan d, channels[chan]? = some d → d.stored = stored chan

theorem lineOf_word {w : List UInt8} (word : Word w) : lineOf w = w := by
  rw [lineOf, foldl_extend_word word, lineText_word word]

theorem dataMessage_word (id : Int) (chan size : Nat) : Word (dataMessage id chan size) :=
  message_word 68 _ (by decide) (by decide)

theorem binaryMessage_word (id dataType : Int) (sizes : List Nat) :
    Word (binaryMessage id dataType sizes) :=
  message_word 67 _ (by decide) (by decide)

section
variable {sub : Subclass σ} {c : Core σ} {id : Int} {channels : DataChannels} {rest : List Nat}
  {stored : Nat → List UInt8} {call : SendCall} {size : Nat}

theorem Receiving.channel (r : Receiving c id channels rest stored)
    (here : rest[call.chan]? = some size) :
    ∃ d, channels[call.chan]? = some d ∧ channels.at? call.chan = some d ∧
      d.binaryReadDataSize = size := by
  rw [← r.sizes, List.getElem?_map, Option.map_eq_some_iff] at here
  obtain ⟨d, here, left⟩ := here
  exact ⟨d, here, by simpa [DataChannels.at?] using here, left⟩

theorem Receiving.total (r : Receiving c id channels rest stored) : channels.total = rest.sum := by
  rw [DataChannels.total, r.sizes]

def callStored (c : Core σ) (id : Int) (call : SendCall) (channels : DataChannels) (d : DataRead) :
    Core σ :=
  let sized := { d with binaryReadChunkSize := (call.data.length : Int) }
  (headerTaken c id call.chan call.data.length channels d).stored (channels.put call.chan sized)
    (sized.store call.data) call.data

theorem call_consumed (sub : Subclass σ) (r : Receiving c id channels rest stored)
    (conn : IsInt id) (nonneg : 0 ≤ id) (index : IsInt call.chan)
    (here : rest[call.chan]? = some size) (within : call.data.length ≤ size)
    (long : (rest.sum : Int) ≤ longMax) {d : DataRead} (inside : channels.at? call.chan = some d)
    (left : d.binaryReadDataSize = size) :
    consume (Demux.step sub) ⟨c, []⟩ (callBytes id call) =
      (settle sub (callStored c id call channels d)).toOption.map (⟨·, []⟩) := by
  have bound := le_sum here
  simp only [longMax] at long
  have word := dataMessage_word id call.chan call.data.length
  have line := processLine_dataMessage_open sub c id call.chan call.data.length conn index
    (by simp only [longMax]; omega) r.known inside
  generalize sizedDef : { d with binaryReadChunkSize := (call.data.length : Int) } = sized
  have fields : sized.binaryReadChunkSize = call.data.length ∧ sized.binaryReadDataSize = size := by
    rw [← sizedDef]
    exact ⟨rfl, left⟩
  have total := DataChannels.total_put inside sized
  have whole := r.total
  have announced : Announced (headerTaken c id call.chan call.data.length channels d)
      (channels.put call.chan sized) sized := {
    named := by
      rw [← sizedDef]
      simp [headerTaken, Core.setActiveReadChannel, Core.setActiveReadData]
    inside := DataChannels.at?_put inside _
    positive := by omega
    fits := by omega
    size := by simp only [sizeModulus]; omega }
  have begun := begin_consume sub call.data _ _ _ announced nonneg (by omega)
  have active : ¬ (headerTaken c id call.chan call.data.length channels d).activeReadData < 0 :=
    Int.not_lt.mpr nonneg
  rw [callBytes, consume_line sub c _ _ r.negative (word_plain word), lineOf_word word, takeLine,
    if_neg word.nonempty, line]
  simp only [active, if_false]
  rw [begun, callStored, sizedDef]

theorem callStored_channels (r : Receiving c id channels rest stored)
    (here : rest[call.chan]? = some size) (within : call.data.length ≤ size)
    (long : (rest.sum : Int) ≤ longMax) {d : DataRead} (place : channels[call.chan]? = some d)
    (left : d.binaryReadDataSize = size) :
    ∃ next, (callStored c id call channels d).readChannels id = some next ∧
      next.map DataRead.getRestSize = rest.set call.chan (size - call.data.length) ∧
      (∀ chan d, next[chan]? = some d →
        d.stored = stored chan ++ if call.chan = chan then call.data else []) ∧
      ∃ d, next.at? call.chan = some d ∧ d.binaryReadChunkSize = 0 := by
  have bound := le_sum here
  simp only [longMax] at long
  have at? : channels.at? call.chan = some d := by simpa [DataChannels.at?] using place
  generalize sizedDef : { d with binaryReadChunkSize := (call.data.length : Int) } = sized
  have old : sized.binaryReadChunkSize = call.data.length ∧ sized.binaryReadDataSize = size ∧
      sized.stored = d.stored := by
    rw [← sizedDef]
    exact ⟨rfl, left, rfl⟩
  have lowered : (sized.store call.data).getRestSize = size - call.data.length := by
    rw [DataRead.getRestSize, DataRead.store_rest (by omega) (by simp only [sizeModulus]; omega),
      old.2.1]
  refine ⟨channels.put call.chan (sized.store call.data), ?_, ?_, ?_, sized.store call.data, ?_, ?_⟩
  · simp [callStored, sizedDef, Core.stored, Core.emitStored, headerTaken,
      Core.setActiveReadChannel, Core.setActiveReadData, DataChannels.put_put]
  · rw [DataChannels.put, List.map_set, lowered, r.sizes, Int.toNat_natCast]
  · intro chan e found
    by_cases same : call.chan = chan
    · subst same
      have inside : call.chan < channels.length := (List.getElem?_eq_some_iff.mp place).1
      have e_eq : sized.store call.data = e := by
        simpa [DataChannels.put, inside] using found
      rw [← e_eq, if_pos rfl, DataRead.store_stored, old.2.2, r.contents call.chan d place]
    · rw [if_neg same, List.append_nil]
      apply r.contents chan e
      simpa [DataChannels.put, same] using found
  · exact DataChannels.at?_put at? _
  · rw [DataRead.store_chunk, old.1]
    omega

theorem callStored_log (c : Core σ) (id : Int) (call : SendCall) (channels : DataChannels)
    (d : DataRead) :
    ∃ added, (callStored c id call channels d).log = c.log ++ added ∧ NoFull id added := by
  refine ⟨[.line (dataMessage id call.chan call.data.length),
    .named id call.chan (some channels.length), .header id call.chan call.data.length d.binaryReadDataSize] ++
      call.data.map (.stored id call.chan), ?_, ?_⟩
  · simp [callStored, Core.stored, Core.emitStored, headerTaken, Core.setActiveReadChannel,
      Core.setActiveReadData, Core.setChannels, Core.emit, List.append_assoc]
  · intro other mem
    simp at mem

theorem call_continues (sub : Subclass σ) (r : Receiving c id channels rest stored)
    (conn : IsInt id) (nonneg : 0 ≤ id) (index : IsInt call.chan)
    (here : rest[call.chan]? = some size) (within : call.data.length ≤ size)
    (long : (rest.sum : Int) ≤ longMax) (more : rest.sum - call.data.length ≠ 0) :
    ∃ core next added, consume (Demux.step sub) ⟨c, []⟩ (callBytes id call) = some ⟨core, []⟩ ∧
      Receiving core id next (rest.set call.chan (size - call.data.length))
        (fun chan => stored chan ++ if call.chan = chan then call.data else []) ∧
      core.log = c.log ++ added ∧ NoFull id added := by
  obtain ⟨d, place, inside, left⟩ := r.channel here
  obtain ⟨next, known, sizes, contents, e, target, ended⟩ :=
    callStored_channels r here within long place left
  obtain ⟨added, log, quiet⟩ := callStored_log c id call channels d
  have sum := sum_set here (size - call.data.length)
  have open_ : next.getRestSize ≠ 0 := by
    simp only [longMax] at long
    rw [DataChannels.getRestSize, DataChannels.total, sizes,
      Nat.mod_eq_of_lt (by simp only [sizeModulus]; omega)]
    omega
  have settles : settle sub (callStored c id call channels d) =
      .ok ((callStored c id call channels d).setActiveReadData (-1)) := by
    have active : (callStored c id call channels d).activeReadData = id := rfl
    have chan : (callStored c id call channels d).activeReadChannel = call.chan := rfl
    simp only [settle, active, known, finishData, open_, if_false, chan, target, ended, if_true]
  refine ⟨(callStored c id call channels d).setActiveReadData (-1), next, added, ?_,
    ⟨?_, known, sizes, contents⟩, log, quiet⟩
  · rw [call_consumed sub r conn nonneg index here within long inside left, settles]
    rfl
  · simp [Core.setActiveReadData]

theorem call_completes (sub : Subclass σ) (device : ∀ s, sub.otherDevice s = true)
    (r : Receiving c id channels rest stored) (conn : IsInt id) (nonneg : 0 ≤ id)
    (index : IsInt call.chan) (here : rest[call.chan]? = some size)
    (within : call.data.length ≤ size) (long : (rest.sum : Int) ≤ longMax)
    (ended : rest.sum - call.data.length = 0) :
    ∃ core next added, consume (Demux.step sub) ⟨c, []⟩ (callBytes id call) = some ⟨core, []⟩ ∧
      core.activeReadData < 0 ∧ core.readChannels id = none ∧
      core.log = c.log ++ added ++ [.fullDataReceived id next] ∧ NoFull id added ∧
      next.length = rest.length ∧
      ∀ chan d, next[chan]? = some d →
        d.stored = stored chan ++ if call.chan = chan then call.data else [] := by
  obtain ⟨d, place, inside, left⟩ := r.channel here
  obtain ⟨next, known, sizes, contents, e, target, _⟩ :=
    callStored_channels r here within long place left
  obtain ⟨added, log, quiet⟩ := callStored_log c id call channels d
  have sum := sum_set here (size - call.data.length)
  have nothing : next.getRestSize = 0 := by
    have bound := le_sum here
    rw [DataChannels.getRestSize, DataChannels.total, sizes]
    have zero : (rest.set call.chan (size - call.data.length)).sum = 0 := by omega
    rw [zero]
    rfl
  have length : next.length = rest.length := by
    have h := congrArg List.length sizes
    simpa using h
  generalize callDef : callStored c id call channels d = k at known log
  have active : k.activeReadData = id := by rw [← callDef]; rfl
  have settles : settle sub k =
      .ok (((k.fullDataReceived sub id next).setChannels id none).setActiveReadData (-1)) := by
    simp only [settle, active, known, finishData, nothing, if_true]
  refine ⟨((k.fullDataReceived sub id next).setChannels id none).setActiveReadData (-1), next,
    added, ?_, ?_, ?_, ?_, quiet, length, contents⟩
  · rw [call_consumed sub r conn nonneg index here within long inside left, callDef, settles]
    rfl
  · simp [Core.setActiveReadData]
  · simp [Core.setActiveReadData]
  · rw [← log]
    exact Core.fullDataReceived_log sub k id next (device _)

end

theorem sentOn_cons (call : SendCall) (calls : List SendCall) (chan : Nat) :
    sentOn (call :: calls) chan = (if call.chan = chan then call.data else []) ++ sentOn calls chan := by
  by_cases same : call.chan = chan <;> simp [sentOn, same]

theorem noFull_append {id : Int} {log more : List Event} (h : NoFull id log) (h' : NoFull id more) :
    NoFull id (log ++ more) := by
  intro channels mem
  rcases List.mem_append.mp mem with mem | mem
  · exact h channels mem
  · exact h' channels mem

theorem index_int {rest : List Nat} {chan size : Nat} (count : IsInt rest.length)
    (here : rest[chan]? = some size) : IsInt chan := by
  have inside := (List.getElem?_eq_some_iff.mp here).1
  unfold IsInt at *
  omega

section
variable {c : Core σ} {id : Int} {channels : DataChannels} {rest : List Nat}
  {stored : Nat → List UInt8}

theorem calls_delivered (sub : Subclass σ) (device : ∀ s, sub.otherDevice s = true)
    (calls : List SendCall) (r : Receiving c id channels rest stored) (conn : IsInt id)
    (nonneg : 0 ≤ id) (count : IsInt rest.length) (long : (rest.sum : Int) ≤ longMax)
    (fits : Fits rest calls) (completes : Completes rest.sum calls) :
    ∃ core next added,
      consume (Demux.step sub) ⟨c, []⟩ (calls.flatMap (callBytes id)) = some ⟨core, []⟩ ∧
      core.log = c.log ++ added ++ [.fullDataReceived id next] ∧ NoFull id added ∧
      next.length = rest.length ∧
      ∀ chan d, next[chan]? = some d → d.stored = stored chan ++ sentOn calls chan := by
  induction calls generalizing c channels rest stored with
  | nil => exact absurd completes (by simp [Completes])
  | cons call calls ih =>
    obtain ⟨size, here, within, tail⟩ := fits
    have index := index_int count here
    have left := sum_set here (size - call.data.length)
    have bound := le_sum here
    unfold Completes at completes
    split at completes
    · rename_i ended
      subst completes
      obtain ⟨core, next, added, taken, _, _, log, quiet, length, contents⟩ :=
        call_completes sub device r conn nonneg index here within long ended
      refine ⟨core, next, added, by simpa using taken, log, quiet, length, ?_⟩
      intro chan d found
      rw [contents chan d found, sentOn_cons]
      simp [sentOn]
    · rename_i more
      obtain ⟨core, next, added, taken, receiving, log, quiet⟩ :=
        call_continues sub r conn nonneg index here within long more
      have sum : (rest.set call.chan (size - call.data.length)).sum =
          rest.sum - call.data.length := by omega
      obtain ⟨core', next', added', taken', log', quiet', length, contents⟩ :=
        ih receiving (by simpa using count) (by omega) tail (by rwa [sum])
      refine ⟨core', next', added ++ added', ?_, ?_, noFull_append quiet quiet', ?_, ?_⟩
      · rw [List.flatMap_cons, consume_append, taken]
        exact taken'
      · rw [log', log]
        simp only [List.append_assoc]
      · simpa using length
      · intro chan d found
        rw [contents chan d found, sentOn_cons, List.append_assoc]

theorem calls_crash (sub : Subclass σ) (device : ∀ s, sub.otherDevice s = true)
    (calls : List SendCall) (r : Receiving c id channels rest stored) (conn : IsInt id)
    (nonneg : 0 ≤ id) (count : IsInt rest.length) (long : (rest.sum : Int) ≤ longMax)
    (fits : Fits rest calls) (late : ¬ Completes rest.sum calls) (some_call : calls ≠ []) :
    ∃ before after m crash, calls.flatMap (callBytes id) = before ++ 10 :: after ∧
      consume (Demux.step sub) ⟨c, []⟩ before = some m ∧ m.core.activeReadData < 0 ∧
      lineText m.pending ≠ [] ∧ processLine sub m.core (lineText m.pending) = .error crash := by
  induction calls generalizing c channels rest stored with
  | nil => contradiction
  | cons call calls ih =>
    obtain ⟨size, here, within, tail⟩ := fits
    have index := index_int count here
    have left := sum_set here (size - call.data.length)
    have bound := le_sum here
    unfold Completes at late
    split at late
    · rename_i ended
      obtain ⟨core, next, added, taken, negative, closed, _⟩ :=
        call_completes sub device r conn nonneg index here within long ended
      cases calls with
      | nil => exact absurd rfl late
      | cons more calls =>
        obtain ⟨size', here', _, _⟩ := tail
        have index' := index_int (by simpa using count) here'
        have word := dataMessage_word id more.chan more.data.length
        obtain ⟨crash, ends⟩ := processLine_dataMessage_unknown sub core id more.chan
          more.data.length conn index' closed
        refine ⟨callBytes id call ++ dataMessage id more.chan more.data.length,
          more.data ++ calls.flatMap (callBytes id),
          ⟨core, dataMessage id more.chan more.data.length⟩, crash, ?_, ?_, negative, ?_, ?_⟩
        · simp [callBytes, List.append_assoc]
        · rw [consume_append, taken, Option.bind_some,
            consume_text sub core _ [] negative (word_plain word), foldl_extend_word word]
        · rw [lineText_word word]
          exact word.nonempty
        · rw [lineText_word word]
          exact ends
    · rename_i more
      obtain ⟨core, next, added, taken, receiving, _, _⟩ :=
        call_continues sub r conn nonneg index here within long more
      have sum : (rest.set call.chan (size - call.data.length)).sum =
          rest.sum - call.data.length := by omega
      have further : calls ≠ [] := by
        rintro rfl
        have nothing := fits_sum tail
        rw [sum] at nothing
        exact more nothing
      obtain ⟨before, after, m, crash, split, taken', rest'⟩ :=
        ih receiving (by simpa using count) (by omega) tail (by rwa [sum]) further
      refine ⟨callBytes id call ++ before, after, m, crash, ?_, ?_, rest'⟩
      · rw [List.flatMap_cons, split, List.append_assoc]
      · rw [consume_append, taken]
        exact taken'

end

theorem header_consumed (sub : Subclass σ) (device : ∀ s, sub.otherDevice s = true) (c : Core σ)
    (negative : c.activeReadData < 0) (id dataType : Int) (chansize : List Nat) (conn : IsInt id)
    (type : IsInt dataType) (count : IsInt chansize.length) (long : (chansize.sum : Int) ≤ longMax) :
    ∃ core, consume (Demux.step sub) ⟨c, []⟩ (binaryMessage id dataType chansize ++ [10]) =
        some ⟨core, []⟩ ∧
      Receiving core id (chansize.map DataRead.new) chansize (fun _ => []) ∧
      core.log = c.log ++ [.line (binaryMessage id dataType chansize), .newDataConn id] := by
  have word := binaryMessage_word id dataType chansize
  have small : ∀ size ∈ chansize, (size : Int) ≤ longMax := by
    intro size mem
    obtain ⟨n, _, here⟩ := List.mem_iff_getElem.mp mem
    have bound := le_sum (List.getElem?_eq_some_iff.mpr ⟨_, here⟩)
    omega
  have line := processLine_binaryMessage sub c id dataType chansize conn type count small
  generalize opened : (c.emit (.line (binaryMessage id dataType chansize))).setChannels id
    (some (chansize.map DataRead.new)) = o at line
  have before : o.activeReadData < 0 := by rw [← opened]; exact negative
  have after := Core.newDataConn_negative sub o id before
  refine ⟨o.newDataConn sub id, ?_, ⟨after, ?_, ?_, ?_⟩, ?_⟩
  · rw [consume_line sub c _ [] negative (word_plain word), lineOf_word word, takeLine,
      if_neg word.nonempty, line]
    simp only [after, if_true, Option.bind_some, consume_nil]
  · rw [Core.newDataConn_readChannels, ← opened]
    simp
  · rw [List.map_map]
    exact List.map_id _
  · intro chan d found
    rw [List.getElem?_map, Option.map_eq_some_iff] at found
    obtain ⟨size, _, rfl⟩ := found
    rfl
  · rw [Core.newDataConn, if_pos (device _), Core.react_log, ← opened]
    simp

theorem noFull_suffix {id : Int} {before : List Event} {channels : DataChannels}
    {text : List UInt8} {conn : Int}
    (same : [.line text, .newDataConn conn] = before ++ [.fullDataReceived id channels]) : False := by
  have last := congrArg List.getLast? same
  simp at last

/-- The transfer is delivered if and only if no call comes after the one that completes it, and
one does complete it: there is one call, or the last one is not empty. -/
theorem transfer_delivered_iff (sub : Subclass σ) (device : ∀ s, sub.otherDevice s = true)
    (r : Reader σ) (empty : r.buf = []) (negative : r.core.activeReadData < 0)
    (started : r.core.log = []) (w w' : Writer) (dataType : Int) (chansize : List Nat)
    (calls : List SendCall) (type : IsInt dataType) (counted : 0 ≤ w.dataConn)
    (conn : IsInt (w.dataConn + 1)) (count : IsInt chansize.length)
    (long : (chansize.sum : Int) ≤ longMax) (fits : Fits chansize calls)
    (done : (w.startBinaryData dataType chansize).1.sendCalls (w.dataConn + 1) calls = some w')
    (pieces : List (List UInt8)) (stream : w'.sent = w.sent ++ pieces.flatten)
    (ready : Ready (readData sub) readyFor r pieces) :
    (∃ r', feedAll (readData sub) r pieces = .ok r' ∧
      Delivered (w.dataConn + 1) chansize calls r'.core) ↔
      calls.length = 1 ∨ ∃ call, calls.getLast? = some call ∧ call.data ≠ [] := by
  have bytes : pieces.flatten = transferBytes (w.dataConn + 1) dataType chansize calls :=
    List.append_cancel_left (stream.symm.trans (transfer_sent done))
  have nonneg : 0 ≤ w.dataConn + 1 := by omega
  generalize w.dataConn + 1 = id at *
  rw [← completes_iff, ← fits_sum fits]
  obtain ⟨core, header, receiving, log⟩ := header_consumed sub device r.core.visible negative id
    dataType chansize conn type count long
  have split : pieces.flatten =
      (binaryMessage id dataType chansize ++ [10]) ++ calls.flatMap (callBytes id) := by
    rw [bytes, transferBytes]
    simp
  have quiet : r.core.visible.log = [] := by simp [Core.visible, started]
  rw [quiet, List.nil_append] at log
  constructor
  · rintro ⟨r', fed, before, channels, delivered, _⟩
    by_contra late
    by_cases none : calls = []
    · subst none
      rw [List.flatMap_nil, List.append_nil] at split
      obtain ⟨r'', fed', related⟩ :=
        reads_refine sub r pieces _ empty negative (split ▸ header) ready
      cases fed.symm.trans fed'
      have seen : r'.core.log.filter Event.isVisible = core.log := congrArg Core.log related.core
      rw [seen, log] at delivered
      exact noFull_suffix delivered
    · obtain ⟨head, after, m, crash, place, taken, text, full, ends⟩ :=
        calls_crash sub device calls receiving conn nonneg count long fits late none
      obtain ⟨crash, stops⟩ := stream_crash sub pieces r
        ((binaryMessage id dataType chansize ++ [10]) ++ head) after ⟨r.core.visible, []⟩ m crash
        ⟨rfl, fun _ => ⟨empty, .none⟩, fun h => by omega⟩ ready
        (by rw [split, place]; simp) (by rw [consume_append, header]; exact taken) text full ends
      rw [stops] at fed
      contradiction
  · intro completes
    obtain ⟨last, next, added, taken, lastLog, without, length, contents⟩ :=
      calls_delivered sub device calls receiving conn nonneg count long fits completes
    obtain ⟨r', fed, related⟩ := reads_refine sub r pieces ⟨last, []⟩ empty negative
      (by rw [split, consume_append, header]; exact taken) ready
    have seen : r'.core.log.filter Event.isVisible = last.log := congrArg Core.log related.core
    refine ⟨r', fed, core.log ++ added, next, by rw [seen, lastLog], ?_, length, ?_⟩
    · apply noFull_append _ without
      rw [log]
      intro channels mem
      simp at mem
    · intro chan d found
      simpa using contents chan d found

def Writer.fresh : Writer := ⟨0, fun _ => none, []⟩

def sampleBytes (chansize : List Nat) (calls : List SendCall) : List UInt8 :=
  match (Writer.fresh.startBinaryData (-32) chansize).1.sendCalls 1 calls with
  | some w => w.sent
  | none => []

/-- Two channels, interleaved, an empty call among them, `send ()` interrupted and cut short, and
the bytes read in three pieces. -/
def sampleCalls : List SendCall :=
  [⟨1, [10, 0], [.interrupted, .sent 1, .sent 1]⟩, ⟨0, [], []⟩, ⟨0, [13], [.sent 1]⟩]

theorem transfer_delivered_sample :
    let bytes := sampleBytes [1, 2] sampleCalls
    (∃ r', feedAll (readData Subclass.passive) (Reader.fresh ())
        [bytes.take 25, (bytes.drop 25).take 1, bytes.drop 26] = .ok r' ∧
      Delivered 1 [1, 2] sampleCalls r'.core) ↔
      sampleCalls.length = 1 ∨ ∃ call, sampleCalls.getLast? = some call ∧ call.data ≠ [] := by
  intro bytes
  have sent : ((Writer.fresh.startBinaryData (-32) [1, 2]).1.sendCalls 1 sampleCalls).isSome = true := by
    decide
  obtain ⟨w', done⟩ := Option.isSome_iff_exists.mp sent
  have all : w'.sent = bytes := by simp only [bytes, sampleBytes, done]
  exact transfer_delivered_iff Subclass.passive (fun _ => rfl) (Reader.fresh ()) rfl (by decide) rfl
    Writer.fresh w' (-32) [1, 2] sampleCalls (by decide) (by decide) (by decide) (by decide)
    (by decide) ⟨2, rfl, by decide, 1, rfl, by decide, 1, rfl, by decide, by simp [Fits]⟩
    done _
    (by rw [all]; decide +kernel) (by decide +kernel)

/-- An empty call after the last byte: the calls fit and return, and the receiver ends on the
line that names the closed data connection. -/
theorem transfer_late_empty :
    let calls : List SendCall := [⟨0, [7], [.sent 1]⟩, ⟨0, [], []⟩]
    let pieces := [sampleBytes [1] calls]
    Fits [1] calls ∧
      ((Writer.fresh.startBinaryData (-32) [1]).1.sendCalls 1 calls).isSome = true ∧
      Ready (readData Subclass.passive) readyFor (Reader.fresh ()) pieces ∧
      ¬ ∃ r', feedAll (readData Subclass.passive) (Reader.fresh ()) pieces = .ok r' ∧
        Delivered 1 [1] calls r'.core := by
  refine ⟨⟨1, rfl, by decide, 0, rfl, by decide, by simp [Fits]⟩, by decide,
    by decide +kernel, ?_⟩
  rintro ⟨r', fed, _⟩
  have ends : (feedAll (readData Subclass.passive) (Reader.fresh ())
      [sampleBytes [1] [⟨0, [7], [.sent 1]⟩, ⟨0, [], []⟩]]).toOption.isNone = true := by
    decide +kernel
  rw [fed] at ends
  contradiction

end Rts2.Kernel
