import Rts2.Kernel.Refinement

/-! How a stream was cut into reads cannot be seen in the lines, the stored bytes and the
notifications of complete data. -/
namespace Rts2.Kernel

open Lib

universe u

variable {σ : Type u}

def lineOf (text : List UInt8) : List UInt8 := lineText (text.foldl extend [])

/-- What a peer sends to a connection between two lines: lines of text with no NUL in them, that
the connection survives, and chunks of binary data. A chunk follows the PROTO_DATA line that
gives its size, the channel it names has room for it, and its bytes are any. -/
inductive PeerStream (sub : Subclass σ) : Core σ → List UInt8 → Prop where
  | done (c : Core σ) : PeerStream sub c []
  | blank (c : Core σ) (text rest : List UInt8) (plain : ∀ b ∈ text, b ≠ 0 ∧ b ≠ 10)
      (empty : lineOf text = []) (tail : PeerStream sub c rest) :
      PeerStream sub c (text ++ 10 :: rest)
  | line (c c' : Core σ) (text rest : List UInt8) (plain : ∀ b ∈ text, b ≠ 0 ∧ b ≠ 10)
      (full : lineOf text ≠ []) (processed : processLine sub c (lineOf text) = .ok c')
      (negative : c'.activeReadData < 0) (tail : PeerStream sub c' rest) :
      PeerStream sub c (text ++ 10 :: rest)
  | chunk (c begun c' : Core σ) (text payload rest : List UInt8) (channels : DataChannels)
      (d : DataRead) (plain : ∀ b ∈ text, b ≠ 0 ∧ b ≠ 10) (full : lineOf text ≠ [])
      (processed : processLine sub c (lineOf text) = .ok begun)
      (active : 0 ≤ begun.activeReadData) (announced : Announced begun channels d)
      (whole : (payload.length : Int) = d.binaryReadChunkSize)
      (settled : settle sub (begun.stored channels (d.store payload) payload) = .ok c')
      (tail : PeerStream sub c' rest) :
      PeerStream sub c (text ++ 10 :: (payload ++ rest))

theorem consume_text (sub : Subclass σ) (c : Core σ) (text p : List UInt8)
    (negative : c.activeReadData < 0) (plain : ∀ b ∈ text, b ≠ 0 ∧ b ≠ 10) :
    consume (Demux.step sub) ⟨c, p⟩ text = some ⟨c, text.foldl extend p⟩ := by
  induction text generalizing p with
  | nil => rfl
  | cons b text ih =>
    have here := plain b List.mem_cons_self
    have reading : ¬ 0 ≤ c.activeReadData := by omega
    have stepped : Demux.step sub ⟨c, p⟩ b = some ⟨c, extend p b⟩ := by
      simp only [Demux.step, reading, here.1, here.2, if_false]
    rw [consume_cons, stepped]
    exact ih _ (fun b mem => plain b (List.mem_cons_of_mem _ mem))

theorem consume_line (sub : Subclass σ) (c : Core σ) (text rest : List UInt8)
    (negative : c.activeReadData < 0) (plain : ∀ b ∈ text, b ≠ 0 ∧ b ≠ 10) :
    consume (Demux.step sub) ⟨c, []⟩ (text ++ 10 :: rest) =
      (takeLine sub c (lineOf text)).bind (fun c => consume (Demux.step sub) ⟨c, []⟩ rest) := by
  have reading : ¬ 0 ≤ c.activeReadData := by omega
  have ended : Demux.step sub ⟨c, text.foldl extend []⟩ 10 =
      (takeLine sub c (lineOf text)).map (⟨·, []⟩) := by
    simp only [Demux.step, reading, if_false, lineOf]
    rfl
  rw [consume_append, consume_text sub c text [] negative plain, Option.bind_some, consume_cons,
    ended]
  cases takeLine sub c (lineOf text) <;> rfl

theorem takeLine_eq {sub : Subclass σ} {c c' : Core σ} {text : List UInt8} (full : text ≠ [])
    (processed : processLine sub c text = .ok c') :
    takeLine sub c.visible text =
      if c'.activeReadData < 0 then some c'.visible else beginChunk sub c'.visible := by
  have seen := processLine_visible sub c text
  rw [Same, processed] at seen
  rw [takeLine, if_neg full, toOption_some seen]
  rfl

theorem peer_accepted (sub : Subclass σ) (c : Core σ) (stream : List UInt8)
    (peer : PeerStream sub c stream) (negative : c.activeReadData < 0) :
    ∃ m, consume (Demux.step sub) ⟨c.visible, []⟩ stream = some m := by
  induction peer with
  | done c => exact ⟨_, rfl⟩
  | blank c text rest plain empty tail ih =>
    rw [consume_line sub c.visible text rest negative plain, takeLine, if_pos empty]
    exact ih negative
  | line c c' text rest plain full processed text' tail ih =>
    rw [consume_line sub c.visible text rest negative plain, takeLine_eq full processed,
      if_pos text']
    exact ih text'
  | chunk c begun c' text payload rest channels d plain full processed active a whole settled
      tail ih =>
    have seen := announced_visible a
    have stored := begin_consume sub payload begun.visible channels d seen active (by omega)
    have settles := settle_visible sub (begun.stored channels (d.store payload) payload)
    rw [Same, settled, Core.visible_stored] at settles
    rw [settles] at stored
    have text' : ¬ begun.activeReadData < 0 := by omega
    rw [consume_line sub c.visible text _ negative plain, takeLine_eq full processed, if_neg text']
    obtain ⟨core, first, chunk⟩ := Option.bind_eq_some_iff.mp stored
    have within : (payload.length : Int) ≤ d.binaryReadChunkSize := by omega
    obtain ⟨closed, settles, text'⟩ := (a.store within).settle_closed sub
      (by simp only [DataRead.store_chunk]; omega)
    cases settled.symm.trans settles
    obtain ⟨m, last⟩ := ih (by omega)
    refine ⟨m, ?_⟩
    rw [first, Option.bind_some, consume_append, chunk]
    exact last

def readData (sub : Subclass σ) (r : Reader σ) (data : List UInt8) : Except (Crash σ) (Reader σ) :=
  receive sub r (.data data)

def readyFor (r : Reader σ) (data : List UInt8) : Prop :=
  r.core.readable ∧ ReadOf r (.data data)

instance (r : Reader σ) (data : List UInt8) : Decidable (readyFor r data) :=
  inferInstanceAs (Decidable (_ ∧ _))

theorem reads_refine (sub : Subclass σ) (r : Reader σ) (pieces : List (List UInt8)) (m : Demux σ)
    (empty : r.buf = []) (negative : r.core.activeReadData < 0)
    (taken : consume (Demux.step sub) ⟨r.core.visible, []⟩ pieces.flatten = some m)
    (ready : Ready (readData sub) readyFor r pieces) :
    ∃ r', feedAll (readData sub) r pieces = .ok r' ∧ Related r'.core r'.buf m :=
  feedAll_simulates (Demux.step sub) (readData sub) readyFor (fun r m => Related r.core r.buf m)
    (fun r m data m' related ready taken => receive_refines sub r data m m' related ready taken)
    pieces r _ m ⟨rfl, fun _ => ⟨empty, .none⟩, fun h => by omega⟩ ready taken

theorem stream_refines (sub : Subclass σ) (r : Reader σ) (tail : List UInt8)
    (pieces : List (List UInt8)) (empty : r.buf = []) (negative : r.core.activeReadData < 0)
    (peer : PeerStream sub r.core (pieces.flatten ++ tail))
    (ready : Ready (readData sub) readyFor r pieces) :
    ∃ r' m, feedAll (readData sub) r pieces = .ok r' ∧
      consume (Demux.step sub) ⟨r.core.visible, []⟩ pieces.flatten = some m ∧
      Related r'.core r'.buf m := by
  obtain ⟨last, whole⟩ := peer_accepted sub r.core _ peer negative
  rw [consume_append, Option.bind_eq_some_iff] at whole
  obtain ⟨m, taken, _⟩ := whole
  obtain ⟨r', fed, related⟩ := reads_refine sub r pieces m empty negative taken ready
  exact ⟨r', m, fed, taken, related⟩

theorem stream_crash (sub : Subclass σ) (pieces : List (List UInt8)) (r : Reader σ)
    (before after : List UInt8) (m m' : Demux σ) (crash : Crash σ)
    (related : Related r.core r.buf m) (ready : Ready (readData sub) readyFor r pieces)
    (stream : pieces.flatten = before ++ 10 :: after)
    (taken : consume (Demux.step sub) m before = some m') (negative : m'.core.activeReadData < 0)
    (full : lineText m'.pending ≠ [])
    (ends : processLine sub m'.core (lineText m'.pending) = .error crash) :
    ∃ crash, feedAll (readData sub) r pieces = .error crash := by
  induction pieces generalizing r before m with
  | nil => simp at stream
  | cons piece pieces ih =>
    rw [List.flatten_cons] at stream
    have place : (∃ rest, before = piece ++ rest ∧ pieces.flatten = rest ++ 10 :: after) ∨
        ∃ rest, piece = before ++ 10 :: rest := by
      rcases List.append_eq_append_iff.mp stream with ⟨rest, split, tail⟩ | ⟨rest, split, tail⟩
      · exact Or.inl ⟨rest, split, tail⟩
      · cases rest with
        | nil => exact Or.inl ⟨[], by simpa using split.symm, tail.symm⟩
        | cons b rest =>
          rw [List.cons_append, List.cons.injEq] at tail
          exact Or.inr ⟨rest, tail.1 ▸ split⟩
    rcases place with ⟨rest, split, tail⟩ | ⟨rest, split⟩
    · rw [split, consume_append, Option.bind_eq_some_iff] at taken
      obtain ⟨next, head, taken⟩ := taken
      obtain ⟨r', fed, related'⟩ := receive_refines sub r piece m next related ready.1 head
      have later := ready.2
      have first : readData sub r piece = .ok r' := fed
      rw [first] at later
      obtain ⟨crash, ended⟩ := ih r' rest next related' later tail taken
      refine ⟨crash, ?_⟩
      rw [feedAll_cons, first]
      exact ended
    · have now := ready.1
      rw [split] at now
      obtain ⟨crash, ended⟩ :=
        receive_crash sub r before rest m m' crash related now taken negative full ends
      refine ⟨crash, ?_⟩
      rw [feedAll_cons, readData, split, ended]

theorem receive_chunking (sub : Subclass σ) (r : Reader σ) (tail : List UInt8)
    (pieces others : List (List UInt8)) (empty : r.buf = []) (negative : r.core.activeReadData < 0)
    (peer : PeerStream sub r.core (pieces.flatten ++ tail))
    (same : pieces.flatten = others.flatten)
    (ready : Ready (readData sub) readyFor r pieces)
    (readyOthers : Ready (readData sub) readyFor r others) :
    ∃ r₁ r₂, feedAll (readData sub) r pieces = .ok r₁ ∧ feedAll (readData sub) r others = .ok r₂ ∧
      r₁.core.log.filter Event.isVisible = r₂.core.log.filter Event.isVisible ∧
      r₁.core.readChannels = r₂.core.readChannels ∧ r₁.core.visible = r₂.core.visible ∧
      r₁.buf = r₂.buf := by
  obtain ⟨r₁, m, fed, taken, related⟩ :=
    stream_refines sub r tail pieces empty negative peer ready
  obtain ⟨r₂, m', fedOthers, takenOthers, relatedOthers⟩ :=
    stream_refines sub r tail others empty negative (same ▸ peer) readyOthers
  rw [same, takenOthers] at taken
  cases taken
  have core : r₁.core.visible = r₂.core.visible := by rw [related.core, relatedOthers.core]
  have channels : r₁.core.readChannels = r₂.core.readChannels := by
    rw [← Core.visible_readChannels r₁.core, core]
    rfl
  have active : r₁.core.activeReadData = r₂.core.activeReadData := by
    rw [← Core.visible_activeReadData r₁.core, core]
    rfl
  refine ⟨r₁, r₂, fed, fedOthers, congrArg Core.log core, channels, core, ?_⟩
  by_cases text : r₁.core.activeReadData < 0
  · rw [(related.text text).1, (relatedOthers.text (active ▸ text)).1]
  · rw [(related.chunk (by omega)).1, (relatedOthers.chunk (by omega)).1]

def sampleStream : List UInt8 :=
  [86, 32, 120, 13, 10, 67, 32, 49, 32, 48, 32, 49, 32, 51, 10, 68, 32, 49, 32, 48, 32, 51, 10,
    0, 10, 13]

theorem sampleStream_peer : PeerStream Subclass.passive (Core.fresh ()) sampleStream := by
  refine .line _ _ [86, 32, 120, 13] _ (by simp) (by decide) rfl (by decide) ?_
  refine .line _ _ [67, 32, 49, 32, 48, 32, 49, 32, 51] _ (by simp) (by decide) rfl (by decide) ?_
  exact .chunk _ _ _ [68, 32, 49, 32, 48, 32, 51] [0, 10, 13] [] _ _ (by simp) (by decide) rfl
    (by decide) ⟨rfl, rfl, by decide, by decide, by decide⟩ rfl rfl (.done _)

/-- Read at once, and with the CR cut from its LF, the chunk cut in two and a header in pieces. -/
theorem receive_chunking_sample :
    let pieces := [sampleStream]
    let others := [[86, 32, 120, 13], [10, 67, 32, 49, 32, 48, 32, 49, 32, 51, 10, 68, 32],
      [49, 32, 48, 32, 51, 10, 0], [10, 13]]
    ∃ r₁ r₂ : Reader Unit,
      feedAll (readData Subclass.passive) (Reader.fresh ()) pieces = .ok r₁ ∧
      feedAll (readData Subclass.passive) (Reader.fresh ()) others = .ok r₂ ∧
      r₁.core.log.filter Event.isVisible = r₂.core.log.filter Event.isVisible ∧
      r₁.core.readChannels = r₂.core.readChannels ∧ r₁.core.visible = r₂.core.visible ∧
      r₁.buf = r₂.buf :=
  receive_chunking Subclass.passive (Reader.fresh ()) [] _ _ rfl (by decide)
    sampleStream_peer (by decide) (by decide +kernel) (by decide +kernel)

end Rts2.Kernel
