import Rts2.Kernel.Writer
import Rts2.Kernel.Demux

/-! The lines of a transfer as processLine reads them. -/
namespace Rts2.Kernel

open Lib

universe u

variable {σ : Type u}

theorem foldl_extend_word {w : List UInt8} (word : Word w) : w.foldl extend [] = w := by
  have start := word.start
  have inside := word.inside
  clear word
  induction w using List.reverseRecOn with
  | nil => rfl
  | append_singleton w b ih =>
    have here : w.foldl extend [] = w := by
      apply ih
      · intro c mem
        cases w with
        | nil => simp at mem
        | cons d w => exact start c (by simpa using mem)
      · exact fun c mem => inside c (List.mem_append_left _ mem)
    rw [List.foldl_append, here, List.foldl_cons, List.foldl_nil]
    cases w with
    | nil =>
      have first := start b (by simp)
      simp [extend, first]
    | cons d w =>
      have last : (d :: w).getLast? ≠ some 13 := by
        intro cr
        exact absurd (inside 13 (List.mem_append_left _ (List.mem_of_getLast? cr))) (by decide)
      simp [extend, last]

theorem word_plain {w : List UInt8} (word : Word w) : ∀ b ∈ w, b ≠ 0 ∧ b ≠ 10 := by
  intro b mem
  have text := word.inside b mem
  simp only [inLine, ne_eq, Bool.and_eq_true, decide_eq_true_eq] at text
  exact text.1

theorem fields_cons (n : Int) (ns : List Int) :
    fields (n :: ns) = 32 :: (decimalInt n ++ fields ns) := by
  simp [fields, field]

theorem fields_atBlank (ns : List Int) : AtBlank (fields ns) := by
  cases ns with
  | nil => simp [AtBlank, fields]
  | cons n ns => simp [AtBlank, fields_cons]

theorem fields_inLine {ns : List Int} {c : UInt8} (mem : c ∈ fields ns) : inLine c = true := by
  obtain ⟨n, _, mem⟩ := List.mem_flatMap.mp mem
  have digit {c : UInt8} (h : isDigit c = true) : inLine c = true := by
    have no (b : UInt8) (other : isDigit b = false) : c ≠ b := by
      rintro rfl
      rw [other] at h
      contradiction
    simp [inLine, no 0 (by decide), no 10 (by decide), no 13 (by decide)]
  rcases List.mem_cons.mp mem with rfl | mem
  · decide
  · rcases decimalInt_bytes mem with rfl | h
    · decide
    · exact digit h

theorem message_word (command : UInt8) (ns : List Int) (letter : isSpace command = false)
    (plain : inLine command = true) : Word (command :: fields ns) where
  nonempty := by simp
  start := by simpa using letter
  inside := by
    intro c mem
    rcases List.mem_cons.mp mem with rfl | mem
    · exact plain
    · exact fields_inLine mem

theorem message_split (command : UInt8) (n : Int) (ns : List Int) (letter : isSpace command = false) :
    (command :: fields (n :: ns)).takeWhile (!isSpace ·) = [command] ∧
      ((command :: fields (n :: ns)).dropWhile (!isSpace ·)).tail = decimalInt n ++ fields ns := by
  have blank : isSpace 32 = true := by decide
  rw [fields_cons]
  simp [letter, blank]

theorem readSizes_fields (sizes : List Nat) (long : ∀ size ∈ sizes, (size : Int) ≤ longMax) :
    DataChannels.readSizes sizes.length (fields (sizes.map Int.ofNat)).tail =
      .ok (sizes.map DataRead.new, []) := by
  induction sizes with
  | nil => rfl
  | cons size sizes ih =>
    have here := long size List.mem_cons_self
    have rest := ih (fun n mem => long n (List.mem_cons_of_mem _ mem))
    have read : paramNextLong 0 (decimalInt (Int.ofNat size) ++ fields (sizes.map Int.ofNat)) =
        (Int.ofNat size, true, (fields (sizes.map Int.ofNat)).tail) :=
      paramNextNumber_decimalInt _ _ 0 _ _ (by simp only [longMin, Int.ofNat_eq_natCast]; omega)
        here (by simp [isDigit]) (fields_atBlank _)
    have positive : ¬ Int.ofNat size < 0 := by simp
    simp only [List.map_cons, fields_cons, List.tail_cons, List.length_cons,
      DataChannels.readSizes, read, positive, if_false, rest]
    rfl

theorem initFromConnection_fields (dataType : Int) (sizes : List Nat) (type : IsInt dataType)
    (count : IsInt sizes.length) (long : ∀ size ∈ sizes, (size : Int) ≤ longMax) :
    DataChannels.initFromConnection
      (fields (dataType :: (sizes.length : Int) :: sizes.map Int.ofNat)).tail =
      .ok (sizes.map DataRead.new) := by
  have blank := fields_atBlank
  simp only [DataChannels.initFromConnection, fields_cons, List.tail_cons]
  rw [paramNextInteger_decimalInt 0 _ type (by simp [AtBlank])]
  simp only [List.tail_cons]
  rw [paramNextInteger_decimalInt 0 _ count (blank _)]
  simp only [Int.toNat_natCast, readSizes_fields sizes long]
  rfl

section
variable (sub : Subclass σ) (c : Core σ)

theorem processLine_binaryMessage (data_conn dataType : Int) (sizes : List Nat)
    (conn : IsInt data_conn) (type : IsInt dataType) (count : IsInt sizes.length)
    (long : ∀ size ∈ sizes, (size : Int) ≤ longMax) :
    processLine sub c (binaryMessage data_conn dataType sizes) =
      .ok (((c.emit (.line (binaryMessage data_conn dataType sizes))).setChannels data_conn
        (some (sizes.map DataRead.new))).newDataConn sub data_conn) := by
  obtain ⟨command, params⟩ := message_split 67 data_conn
    (dataType :: (sizes.length : Int) :: sizes.map Int.ofNat) (by decide)
  have text : binaryMessage data_conn dataType sizes =
      67 :: fields (data_conn :: dataType :: (sizes.length : Int) :: sizes.map Int.ofNat) := rfl
  rw [← text] at command params
  simp only [processLine, command, params, protoBinary, if_true, binaryCommand]
  rw [paramNextInteger_decimalInt 0 _ conn (fields_atBlank _)]
  simp only [initFromConnection_fields dataType sizes type count long]

def headerTaken (data_conn : Int) (chan size : Nat) (channels : DataChannels) (d : DataRead) : Core σ :=
  ((((c.emit (.line (dataMessage data_conn chan size))).setActiveReadData data_conn
    ).setActiveReadChannel chan).emit (.named data_conn chan (some channels.length))
    |>.setChannels data_conn (some (channels.put chan { d with binaryReadChunkSize := size }))).emit
    (.header data_conn chan size d.binaryReadDataSize)

theorem dataMessage_split (data_conn : Int) (chan size : Nat) :
    (dataMessage data_conn chan size).takeWhile (!isSpace ·) = protoData ∧
      ((dataMessage data_conn chan size).dropWhile (!isSpace ·)).tail =
        decimalInt data_conn ++ fields [(chan : Int), (size : Int)] :=
  message_split 68 data_conn [(chan : Int), (size : Int)] (by decide)

theorem processLine_dataMessage (data_conn : Int) (chan size : Nat) (conn : IsInt data_conn)
    (index : IsInt chan) :
    processLine sub c (dataMessage data_conn chan size) =
      readChannel sub ((((c.emit (.line (dataMessage data_conn chan size))).setActiveReadData
        data_conn).setActiveReadChannel chan).emit
          (.named data_conn chan ((c.readChannels data_conn).map List.length)))
        (decimalInt size) := by
  obtain ⟨command, params⟩ := dataMessage_split data_conn chan size
  have other : protoData ≠ protoBinary := by decide
  simp only [processLine, command, params, other, if_false, if_true, dataCommand]
  rw [paramNextInteger_decimalInt _ _ conn (fields_atBlank _)]
  simp only [fields_cons, List.tail_cons]
  rw [paramNextInteger_decimalInt _ _ index (by simp [AtBlank])]
  simp [fields]

theorem processLine_dataMessage_open (data_conn : Int) (chan size : Nat) (conn : IsInt data_conn)
    (index : IsInt chan) (long : (size : Int) ≤ longMax) {channels : DataChannels} {d : DataRead}
    (known : c.readChannels data_conn = some channels) (inside : channels.at? chan = some d) :
    processLine sub c (dataMessage data_conn chan size) =
      .ok (headerTaken c data_conn chan size channels d) := by
  have read : paramNextSSizeT d.binaryReadChunkSize (decimalInt size) = ((size : Int), true, []) := by
    have h := paramNextNumber_decimalInt id [] d.binaryReadChunkSize size []
      (by simp only [longMin]; omega) long (by simp) (by simp [AtBlank])
    simpa [paramNextSSizeT] using h
  have ended : paramEnd [] = true := rfl
  have target : ((((c.emit (.line (dataMessage data_conn chan size))).setActiveReadData
      data_conn).setActiveReadChannel chan).emit
        (.named data_conn chan (some channels.length))).activeChannel = .ok (channels, d) :=
    activeChannel_ok.mpr ⟨known, inside⟩
  rw [processLine_dataMessage sub c data_conn chan size conn index, known, Option.map_some]
  simp only [readChannel, target, read, ended, reduceCtorEq, or_self, if_false]
  rfl

theorem processLine_dataMessage_unknown (data_conn : Int) (chan size : Nat)
    (conn : IsInt data_conn) (index : IsInt chan) (unknown : c.readChannels data_conn = none) :
    ∃ crash, processLine sub c (dataMessage data_conn chan size) = .error crash := by
  rw [processLine_dataMessage sub c data_conn chan size conn index]
  generalize header : (((c.emit (.line (dataMessage data_conn chan size))).setActiveReadData
    data_conn).setActiveReadChannel chan).emit _ = h
  have missing : h.activeChannel = .error ⟨.nullChannels, h⟩ := by
    subst header
    simp [Core.activeChannel, Core.setActiveReadChannel, Core.setActiveReadData, unknown]
  exact ⟨_, by rw [readChannel, missing]⟩

end

end Rts2.Kernel
