import Rts2.Kernel.Reader
import Rts2.Lib.Chunks

/-! The stream as it is meant to be read: one byte at a time, with no buffer but the text of
the line that has not ended yet. Connection::receive refines this machine, whatever pieces
the socket gives. -/
namespace Rts2.Kernel

open Lib

universe u

variable {σ : Type u}

def settle (sub : Subclass σ) (c : Core σ) : Except (Crash σ) (Core σ) :=
  match c.readChannels c.activeReadData with
  | none => .error ⟨.endIterator, c⟩
  | some channels => finishData sub c channels

structure Demux (σ : Type u) where
  core : Core σ
  pending : List UInt8

def lineText (pending : List UInt8) : List UInt8 :=
  if pending.getLast? = some 13 then pending.dropLast else pending

def extend (pending : List UInt8) (b : UInt8) : List UInt8 :=
  if pending = [] ∨ pending.getLast? = some 13 then
    if isSpace b then [] else [b]
  else pending ++ [b]

/-- A PROTO_DATA line has been taken. Its chunk has to fit in its channel, and the sizes of the
data connection in a size_t; an empty chunk is over at once. -/
def beginChunk (sub : Subclass σ) (c : Core σ) : Option (Core σ) :=
  match c.activeChannel with
  | .error _ => none
  | .ok (channels, d) =>
    if 0 ≤ d.binaryReadChunkSize ∧ d.binaryReadChunkSize ≤ d.binaryReadDataSize ∧
        channels.total < sizeModulus then
      if d.binaryReadChunkSize = 0 then (settle sub c).toOption else some c
    else none

def storeByte (sub : Subclass σ) (c : Core σ) (b : UInt8) : Option (Core σ) :=
  match c.activeChannel with
  | .error _ => none
  | .ok (channels, d) => (settle sub (c.stored channels (d.store [b]) [b])).toOption

def takeLine (sub : Subclass σ) (c : Core σ) (text : List UInt8) : Option (Core σ) :=
  if text = [] then some c
  else
    match processLine sub c text with
    | .error _ => none
    | .ok c => if c.activeReadData < 0 then some c else beginChunk sub c

def Demux.step (sub : Subclass σ) (m : Demux σ) (b : UInt8) : Option (Demux σ) :=
  if 0 ≤ m.core.activeReadData then (storeByte sub m.core b).map (⟨·, []⟩)
  else if b = 0 then none
  else if b = 10 then (takeLine sub m.core (lineText m.pending)).map (⟨·, []⟩)
  else some { m with pending := extend m.pending b }

structure Announced (c : Core σ) (channels : DataChannels) (d : DataRead) : Prop where
  named : c.readChannels c.activeReadData = some channels
  inside : channels.at? c.activeReadChannel = some d
  positive : 0 ≤ d.binaryReadChunkSize
  fits : d.binaryReadChunkSize ≤ d.binaryReadDataSize
  size : channels.total < sizeModulus

theorem activeChannel_ok {c : Core σ} {channels : DataChannels} {d : DataRead} :
    c.activeChannel = .ok (channels, d) ↔
      c.readChannels c.activeReadData = some channels ∧
        channels.at? c.activeReadChannel = some d := by
  unfold Core.activeChannel
  cases c.readChannels c.activeReadData with
  | none => simp
  | some known =>
    cases inside : known.at? c.activeReadChannel with
    | none =>
      simp only [inside, reduceCtorEq, Option.some.injEq, false_iff, not_and]
      rintro rfl
      simp [inside]
    | some e =>
      simp only [inside, Except.ok.injEq, Prod.mk.injEq, Option.some.injEq]
      constructor
      · rintro ⟨rfl, rfl⟩
        exact ⟨rfl, inside⟩
      · rintro ⟨rfl, here⟩
        exact ⟨rfl, Option.some.inj (inside.symm.trans here)⟩

theorem Core.stored_append (c : Core σ) (channels : DataChannels) (d : DataRead)
    (data more : List UInt8) :
    (c.stored channels (d.store data) data).stored
      (channels.put c.activeReadChannel (d.store data)) ((d.store data).store more) more =
      c.stored channels (d.store (data ++ more)) (data ++ more) := by
  rw [DataRead.store_append]
  simp [Core.stored, Core.emitStored, Core.setChannels, DataChannels.put_put]

namespace Announced

variable {c : Core σ} {channels : DataChannels} {d : DataRead}

theorem active (a : Announced c channels d) : c.activeChannel = .ok (channels, d) :=
  activeChannel_ok.mpr ⟨a.named, a.inside⟩

theorem rest_size (a : Announced c channels d) : d.binaryReadDataSize < sizeModulus :=
  Nat.lt_of_le_of_lt (DataChannels.rest_le_total a.inside) a.size

theorem store_rest (a : Announced c channels d) {data : List UInt8}
    (within : data.length ≤ d.binaryReadChunkSize) :
    (d.store data).binaryReadDataSize = d.binaryReadDataSize - data.length := by
  have fits := a.fits
  exact DataRead.store_rest (by omega) a.rest_size

theorem store (a : Announced c channels d) {data : List UInt8}
    (within : data.length ≤ d.binaryReadChunkSize) :
    Announced (c.stored channels (d.store data) data)
      (channels.put c.activeReadChannel (d.store data)) (d.store data) := by
  have fits := a.fits
  have size := a.size
  have left := a.store_rest within
  have total := DataChannels.total_put a.inside (d.store data)
  exact {
    named := by simp [Core.stored, Core.emitStored]
    inside := DataChannels.at?_put a.inside _
    positive := by simp only [DataRead.store_chunk]; omega
    fits := by rw [left, DataRead.store_chunk]; omega
    size := by omega }

theorem stored_nil (a : Announced c channels d) : c.stored channels (d.store []) [] = c := by
  have same : d.store [] = d := by
    have none : (([] : List UInt8).length : Int) ≤ d.binaryReadChunkSize := by simpa using a.positive
    have left := a.store_rest none
    simp only [DataRead.store, List.append_nil, List.length_nil] at left ⊢
    cases d
    simp_all
  have unchanged : channels.put c.activeReadChannel d = channels := by
    obtain ⟨n, chan, inside, here⟩ := DataChannels.at?_some a.inside
    obtain ⟨_, here⟩ := List.getElem?_eq_some_iff.mp here
    rw [DataChannels.put, chan, Int.toNat_natCast, ← here, List.set_getElem_self]
  rw [same, Core.stored, unchanged, ← a.named]
  simp [Core.setChannels, Core.emitStored]

theorem settle_open (a : Announced c channels d) (sub : Subclass σ)
    (waits : 0 < d.binaryReadChunkSize) : settle sub c = .ok c := by
  have fits := a.fits
  have size := a.size
  have some_left := DataChannels.rest_le_total a.inside
  have rest : channels.getRestSize ≠ 0 := by
    rw [DataChannels.getRestSize, Nat.mod_eq_of_lt size]
    omega
  have chunk : d.binaryReadChunkSize ≠ 0 := by omega
  simp only [settle, a.named, finishData, rest, a.inside, chunk, if_false]

theorem settle_closed (a : Announced c channels d) (sub : Subclass σ)
    (ended : d.binaryReadChunkSize = 0) :
    ∃ c', settle sub c = .ok c' ∧ c'.activeReadData = -1 := by
  simp only [settle, a.named, finishData, a.inside, ended, if_true]
  split
  · exact ⟨_, rfl, rfl⟩
  · exact ⟨_, rfl, rfl⟩

end Announced

structure Word (w : List UInt8) : Prop where
  nonempty : w ≠ []
  start : ∀ c ∈ w.head?, isSpace c = false
  inside : ∀ c ∈ w, inLine c = true

inductive Pending : List UInt8 → Prop where
  | none : Pending []
  | text {w : List UInt8} (word : Word w) : Pending w
  | cr {w : List UInt8} (word : Word w) : Pending (w ++ [13])

theorem scan_space {b : UInt8} (space : isSpace b = true) (tail : List UInt8) :
    scan (b :: tail) = scan tail := by
  simp [scan, space]

theorem scan_word {w : List UInt8} (word : Word w) (tail : List UInt8)
    (boundary : ∀ c ∈ tail.head?, inLine c = false) : scan (w ++ tail) = endOfLine w tail := by
  obtain ⟨c, rest, rfl⟩ := List.exists_cons_of_ne_nil word.nonempty
  have start := word.start c rfl
  have ends := takeWhile_boundary inLine (c :: rest) tail word.inside boundary
  have blank : (c :: rest ++ tail).dropWhile isSpace = c :: rest ++ tail := by simp [start]
  simp only [scan, blank, ends.1, ends.2]

theorem Word.no_cr {w : List UInt8} (word : Word w) : w.getLast? ≠ some 13 := by
  intro last
  exact absurd (word.inside 13 (List.mem_of_getLast? last)) (by decide)

theorem lineText_word {w : List UInt8} (word : Word w) : lineText w = w := by
  simp [lineText, word.no_cr]

theorem lineText_cr (w : List UInt8) : lineText (w ++ [13]) = w := by
  simp [lineText]

theorem Pending.full {p : List UInt8} (pending : Pending p) (left : p ≠ []) : lineText p ≠ [] := by
  cases pending with
  | none => contradiction
  | text word =>
    rw [lineText_word word]
    exact word.nonempty
  | cr word =>
    rw [lineText_cr]
    exact word.nonempty

theorem extend_pending {p : List UInt8} (pending : Pending p) {b : UInt8} (text : b ≠ 0)
    (inner : b ≠ 10) : Pending (extend p b) := by
  have single : isSpace b = false → Pending [b] := by
    intro start
    have cr : b ≠ 13 := by rintro rfl; exact absurd start (by decide)
    exact .text ⟨by simp, by simpa using start, by simp [inLine, text, inner, cr]⟩
  have restart : Pending (if isSpace b then [] else [b]) := by
    split
    · exact .none
    · rename_i start
      exact single (by simpa using start)
  cases pending with
  | none => simpa [extend] using restart
  | cr word => simpa [extend] using restart
  | text word =>
    have grown : extend p b = p ++ [b] := by simp [extend, word.nonempty, word.no_cr]
    rw [grown]
    by_cases cr : b = 13
    · exact cr ▸ .cr word
    · refine .text ⟨by simp, ?_, ?_⟩
      · obtain ⟨c, rest, rfl⟩ := List.exists_cons_of_ne_nil word.nonempty
        simpa using word.start c rfl
      · intro c mem
        rcases List.mem_append.mp mem with mem | mem
        · exact word.inside c mem
        · simp only [List.mem_singleton] at mem
          simp [inLine, mem, text, inner, cr]

theorem scan_pending {p : List UInt8} (pending : Pending p) : scan p = .kept p := by
  cases pending with
  | none => rfl
  | text word => simpa [endOfLine] using scan_word word [] (by simp)
  | cr word => simpa [endOfLine] using scan_word word [13] (by simp [inLine])

theorem endOfLine_kept {w tail text : List UInt8} (kept : endOfLine w tail = .kept text) :
    text = w ∨ ∃ c rest, tail = c :: rest ∧ c ≠ 0 ∧ c ≠ 10 ∧ text = w ++ [13] := by
  rcases tail with _ | ⟨c, _ | ⟨d, rest⟩⟩
  · exact .inl (by simpa [endOfLine] using kept.symm)
  · simp only [endOfLine] at kept
    split_ifs at kept <;> simp_all
  · simp only [endOfLine] at kept
    split_ifs at kept <;> simp_all

theorem scan_kept {bytes text : List UInt8} (found : scan bytes = .kept text) :
    Pending text ∧ text.length ≤ bytes.length := by
  unfold scan at found
  dsimp only at found
  have shorter := (List.dropWhile_sublist isSpace (l := bytes)).length_le
  have blank := List.head?_dropWhile_not isSpace bytes
  generalize bytes.dropWhile isSpace = start at found shorter blank
  have split := List.takeWhile_append_dropWhile (p := inLine) (l := start)
  have stops := List.head?_dropWhile_not inLine start
  have inside : ∀ c ∈ start.takeWhile inLine, inLine c = true := fun c => List.mem_takeWhile_imp
  generalize start.takeWhile inLine = w at found split inside
  generalize start.dropWhile inLine = tail at found split stops
  subst split
  have whole : (w ++ tail).length = w.length + tail.length := List.length_append
  have word (nonempty : w ≠ []) : Word w := by
    obtain ⟨c, rest, rfl⟩ := List.exists_cons_of_ne_nil nonempty
    exact ⟨nonempty, by simpa using blank, inside⟩
  rcases endOfLine_kept found with rfl | ⟨c, rest, rfl, text, line, rfl⟩
  · refine ⟨?_, by omega⟩
    by_cases empty : text = []
    · exact empty ▸ .none
    · exact .text (word empty)
  · have nonempty : w ≠ [] := by
      rintro rfl
      have cr : c = 13 := by
        simp only [List.head?_cons, inLine] at stops
        simpa [text, line] using stops
      simp [cr, isSpace] at blank
    refine ⟨.cr (word nonempty), ?_⟩
    simp only [List.length_append, List.length_cons, List.length_nil] at whole shorter ⊢
    omega

theorem scan_lf {p : List UInt8} (pending : Pending p) (rest : List UInt8) :
    scan (p ++ 10 :: rest) = if lineText p = [] then scan rest else .line (lineText p) rest := by
  cases pending with
  | none => simpa [lineText] using scan_space (b := 10) (by decide) rest
  | text word =>
    rw [scan_word word _ (by simp [inLine]), lineText_word word]
    simp [endOfLine, word.nonempty]
  | cr word =>
    rw [List.append_assoc, scan_word word _ (by simp [inLine]), lineText_cr]
    simp [endOfLine, word.nonempty]

section
variable (sub : Subclass σ) (c : Core σ)

theorem processLoop_congr {a b : List UInt8} (same : scan a = scan b) :
    processLoop sub c a = processLoop sub c b := by
  cases found : scan b with
  | kept text => rw [processLoop_kept sub c found, processLoop_kept sub c (same.trans found)]
  | lost rest => rw [processLoop_lost sub c found, processLoop_lost sub c (same.trans found)]
  | line text rest => rw [processLoop_line sub c found, processLoop_line sub c (same.trans found)]

theorem processLoop_extend {p : List UInt8} (pending : Pending p) {b : UInt8} (text : b ≠ 0)
    (inner : b ≠ 10) (tail : List UInt8) :
    processLoop sub c (p ++ b :: tail) = processLoop sub c (extend p b ++ tail) := by
  have restart : processLoop sub c (b :: tail) =
      processLoop sub c ((if isSpace b then [] else [b]) ++ tail) := by
    split
    · exact processLoop_congr sub c (scan_space ‹_› tail)
    · rfl
  cases pending with
  | none => simpa [extend] using restart
  | text word => simp [extend, word.nonempty, word.no_cr]
  | @cr w word =>
    have lost : scan (w ++ [13] ++ b :: tail) = .lost (b :: tail) := by
      rw [List.append_assoc, scan_word word _ (by simp [inLine])]
      simp [endOfLine, text, inner]
    rw [processLoop_lost sub c lost, restart]
    simp [extend]

end

end Rts2.Kernel
