import Rts2.Kernel.Writer

/-! Binary data of any size given to a data connection. A call of sendBinaryData is right when it ends, no
channel wraps, and the record is freed with the last byte of the last channel. -/
namespace Rts2.Kernel

open Writer

structure Sending where
  chan : Nat
  data : List UInt8
  size : data.length < sizeModulus

def Answers (data_conn : Int) (chan : Nat) : List SendResult → Writer → List UInt8 → Nat → Prop
  | [], _, _, _ => True
  | result :: results, w, top, dataSize =>
    top ≠ [] →
      let dataSize := min dataSize (w.getWriteBinaryDataSize data_conn)
      match result with
      | .interrupted => Answers data_conn chan results w top dataSize
      | .failed => True
      | .sent ret =>
        ret ≤ dataSize ∧ (0 < dataSize → 0 < ret) ∧
          Answers data_conn chan results (w.dataWritten data_conn chan (top.take ret)) (top.drop ret) (dataSize - ret)

def NoWrap (data_conn : Int) (chan : Nat) : List SendResult → Writer → List UInt8 → Nat → Prop
  | [], _, _, _ => True
  | result :: results, w, top, dataSize =>
    top ≠ [] →
      let dataSize := min dataSize (w.getWriteBinaryDataSize data_conn)
      match result with
      | .interrupted => NoWrap data_conn chan results w top dataSize
      | .failed => True
      | .sent ret =>
        (∀ channels, w.writeChannels data_conn = some channels → ∃ rest, channels[chan]? = some rest ∧ ret ≤ rest) ∧
          NoWrap data_conn chan results (w.dataWritten data_conn chan (top.take ret)) (top.drop ret) (dataSize - ret)

def attempts (results : List SendResult) : Nat := results.countP (· ≠ .interrupted)

def Ends (data_conn : Int) (w : Writer) (s : Sending) : Prop :=
  ∃ n, ∀ results, Answers data_conn s.chan results (w.sendMsg (dataMessage data_conn s.chan s.data.length)) s.data
      s.data.length → n ≤ attempts results → w.sendBinaryData data_conn s.chan s.data results ≠ none

def FreedWhenComplete (data_conn : Int) (rest : List Nat) (w : Writer) : Prop :=
  w.writeChannels data_conn = none ↔ ∀ size ∈ rest, size = 0

def takeOff (rest : List Nat) (s : Sending) : List Nat := rest.modify s.chan (· - s.data.length)

/-- The calls are right, for all that send () can return in them; -1 is returned where the connection is dropped. -/
def SendsRight (data_conn : Int) : List Nat → Writer → List Sending → Prop
  | rest, w, [] => FreedWhenComplete data_conn rest w
  | rest, w, s :: calls =>
    FreedWhenComplete data_conn rest w ∧ Ends data_conn w s ∧
      ∀ results, Answers data_conn s.chan results (w.sendMsg (dataMessage data_conn s.chan s.data.length)) s.data
          s.data.length →
        NoWrap data_conn s.chan results (w.sendMsg (dataMessage data_conn s.chan s.data.length)) s.data s.data.length ∧
        ∀ w' code, w.sendBinaryData data_conn s.chan s.data results = some (w', code) →
          code = -1 ∨ (code = 0 ∧ w'.sent = w.sent ++ callBytes data_conn ⟨s.chan, s.data, results⟩ ∧
            SendsRight data_conn (takeOff rest s) w' calls)

def Room (rest : List Nat) (chan size : Nat) : Prop :=
  ∃ left, rest[chan]? = some left ∧ size ≤ left ∧ (rest.sum < sizeModulus ∨ size < rest.sum % sizeModulus)

def WithinChannels : List Nat → List Sending → Prop
  | _, [] => True
  | rest, s :: calls => (s.data ≠ [] → Room rest s.chan s.data.length) ∧ WithinChannels (takeOff rest s) calls

theorem sum_modify (f : Nat → Nat) {rest : List Nat} {chan left : Nat} (at_ : rest[chan]? = some left) :
    (rest.modify chan f).sum + left = rest.sum + f left := by
  induction rest generalizing chan with
  | nil => simp at at_
  | cons size rest ih =>
    cases chan with
    | zero =>
      obtain rfl : size = left := by simpa using at_
      simp only [List.modify_zero_cons, List.sum_cons]
      omega
    | succ chan =>
      have step := ih (by simpa using at_)
      simp only [List.modify_succ_cons, List.sum_cons]
      omega

theorem left_le_sum {rest : List Nat} {chan left : Nat} (at_ : rest[chan]? = some left) : left ≤ rest.sum :=
  List.le_sum_of_mem (List.mem_of_getElem? at_)

theorem sum_eq_zero_iff (rest : List Nat) : rest.sum = 0 ↔ ∀ size ∈ rest, size = 0 := by
  induction rest with
  | nil => simp
  | cons size rest ih => simp [ih]

theorem modify_bounded {rest : List Nat} (bounded : ∀ size ∈ rest, size < sizeModulus) (chan n : Nat) :
    ∀ size ∈ rest.modify chan (· - n), size < sizeModulus := by
  intro size hsize
  obtain ⟨i, hi⟩ := List.mem_iff_getElem?.mp hsize
  rw [List.getElem?_modify] at hi
  obtain ⟨size', at_, rfl⟩ := Option.map_eq_some_iff.mp hi
  have := bounded size' (List.mem_of_getElem? at_)
  split <;> omega

theorem dataWritten_modify {rest : List Nat} (bounded : ∀ size ∈ rest, size < sizeModulus) {chan left n : Nat}
    (at_ : rest[chan]? = some left) (fits : n ≤ left) :
    DataWrite.dataWritten rest chan n = rest.modify chan (· - n) := by
  apply List.ext_getElem?
  intro i
  rw [DataWrite.dataWritten, List.getElem?_modify, List.getElem?_modify]
  by_cases here : chan = i
  · subst here
    have small := bounded left (List.mem_of_getElem? at_)
    rw [at_]
    refine congrArg some ?_
    simp only [if_true]
    unfold sizeModulus at *
    omega
  · simp [here]

def Record (data_conn : Int) (rest : List Nat) (w : Writer) : Prop :=
  w.writeChannels data_conn = if rest.sum = 0 then none else some rest

theorem Record.freed {data_conn : Int} {rest : List Nat} {w : Writer} (record : Record data_conn rest w) :
    FreedWhenComplete data_conn rest w := by
  rw [FreedWhenComplete, record, ← sum_eq_zero_iff]
  split <;> simp_all

theorem Record.sizeLeft {data_conn : Int} {rest : List Nat} {w : Writer} (record : Record data_conn rest w) :
    w.getWriteBinaryDataSize data_conn = rest.sum % sizeModulus := by
  rw [getWriteBinaryDataSize, record]
  by_cases complete : rest.sum = 0
  · simp [complete]
  · simp [complete, DataWrite.getDataSize]

theorem dataWritten_channels {data_conn : Int} {rest : List Nat} {w : Writer}
    (record : w.writeChannels data_conn = some rest) (chan : Nat) (data : List UInt8) :
    (w.dataWritten data_conn chan data).writeChannels data_conn =
      if (DataWrite.dataWritten rest chan data.length).getDataSize ≤ 0 then none
      else some (DataWrite.dataWritten rest chan data.length) := by
  simp [Writer.dataWritten, record]

theorem modify_zero (rest : List Nat) (chan : Nat) : rest.modify chan (· - 0) = rest := by
  apply List.ext_getElem?
  intro i
  rw [List.getElem?_modify]
  cases rest[i]? <;> simp

theorem Record.dataWritten {data_conn : Int} {rest : List Nat} {w : Writer} (record : Record data_conn rest w)
    (bounded : ∀ size ∈ rest, size < sizeModulus) {chan size : Nat} (room : Room rest chan size) {data : List UInt8}
    (some_ : data ≠ []) (fits : data.length ≤ size) :
    Record data_conn (rest.modify chan (· - data.length)) (w.dataWritten data_conn chan data) ∧
      (size - data.length ≠ 0 → Room (rest.modify chan (· - data.length)) chan (size - data.length)) := by
  obtain ⟨left, at_, le, counted⟩ := room
  have positive : 0 < data.length := List.length_pos_iff.mpr some_
  have le_all := left_le_sum at_
  have sum_eq := sum_modify (· - data.length) at_
  have not_complete : rest.sum ≠ 0 := by omega
  have sum_eq : (rest.modify chan (· - data.length)).sum = rest.sum - data.length := by omega
  have le_mod : size ≤ rest.sum % sizeModulus := by
    rcases counted with small | less
    · rw [Nat.mod_eq_of_lt small]
      omega
    · omega
  have rest_mod : (rest.sum - data.length) % sizeModulus = rest.sum % sizeModulus - data.length := by
    have whole := Nat.div_add_mod rest.sum sizeModulus
    have below := Nat.mod_lt rest.sum (show 0 < sizeModulus by decide)
    have apart : rest.sum - data.length =
        sizeModulus * (rest.sum / sizeModulus) + (rest.sum % sizeModulus - data.length) := by omega
    rw [apart, Nat.mul_add_mod, Nat.mod_eq_of_lt (by omega)]
  constructor
  · have written := dataWritten_modify bounded at_ (fits.trans le)
    have left_over : DataWrite.getDataSize (rest.modify chan (· - data.length)) =
        rest.sum % sizeModulus - data.length := by
      rw [DataWrite.getDataSize, sum_eq, rest_mod]
    have same : rest.sum % sizeModulus - data.length ≤ 0 ↔ rest.sum - data.length = 0 := by
      rcases counted with small | less
      · rw [Nat.mod_eq_of_lt small]
        omega
      · have := Nat.mod_le rest.sum sizeModulus
        omega
    have held : w.writeChannels data_conn = some rest := by rw [record, if_neg not_complete]
    rw [Record, dataWritten_channels held, written, left_over, sum_eq]
    by_cases complete : rest.sum - data.length = 0
    · rw [if_pos complete, if_pos (same.mpr complete)]
    · rw [if_neg complete, if_neg (mt same.mp complete)]
  · intro more
    refine ⟨left - data.length, ?_, by omega, ?_⟩
    · rw [List.getElem?_modify, at_]
      simp
    · rw [sum_eq, rest_mod]
      rcases counted with small | less
      · exact .inl (by omega)
      · exact .inr (by omega)

theorem modify_modify (rest : List Nat) (chan m n : Nat) :
    (rest.modify chan (· - m)).modify chan (· - n) = rest.modify chan (· - (m + n)) := by
  rw [List.modify_modify_eq]
  congr 1
  funext x
  exact Nat.sub_sub x m n

theorem sendLoop_room {data_conn : Int} {chan : Nat} (results : List SendResult) :
    ∀ {rest : List Nat} {w : Writer} {top : List UInt8}, Record data_conn rest w →
      (∀ size ∈ rest, size < sizeModulus) → (top ≠ [] → Room rest chan top.length) →
      Answers data_conn chan results w top top.length →
      NoWrap data_conn chan results w top top.length ∧
      (top.length ≤ attempts results → sendLoop data_conn chan results w top top.length ≠ none) ∧
      ∀ w' code, sendLoop data_conn chan results w top top.length = some (w', code) →
        code = -1 ∨ (code = 0 ∧ Record data_conn (rest.modify chan (· - top.length)) w') := by
  induction results with
  | nil =>
    intro rest w top record bounded room answers
    refine ⟨trivial, ?_, ?_⟩
    · intro enough
      have empty : top = [] := by simpa [attempts] using enough
      simp [sendLoop, empty]
    · intro w' code done
      by_cases empty : top = []
      · simp only [sendLoop, empty, if_true, Option.some.injEq, Prod.mk.injEq] at done
        obtain ⟨rfl, rfl⟩ := done
        exact .inr ⟨rfl, by rwa [empty, List.length_nil, modify_zero]⟩
      · simp [sendLoop, empty] at done
  | cons result results ih =>
    intro rest w top record bounded room answers
    by_cases empty : top = []
    · subst empty
      refine ⟨fun h => (h rfl).elim, by simp [sendLoop], ?_⟩
      intro w' code done
      simp only [sendLoop, if_true, Option.some.injEq, Prod.mk.injEq] at done
      obtain ⟨rfl, rfl⟩ := done
      exact .inr ⟨rfl, by rwa [List.length_nil, modify_zero]⟩
    · have has_room := room empty
      obtain ⟨left, at_, le, counted⟩ := has_room
      have sized : min top.length (w.getWriteBinaryDataSize data_conn) = top.length := by
        rw [record.sizeLeft]
        have := left_le_sum at_
        rcases counted with small | less
        · rw [Nat.mod_eq_of_lt small]
          omega
        · omega
      have answers := answers empty
      simp only [sized] at answers
      simp only [NoWrap, sendLoop, if_neg empty, sized]
      cases result with
      | interrupted =>
        obtain ⟨keeps, ends, done⟩ := ih record bounded room answers
        refine ⟨fun _ => keeps, ?_, done⟩
        intro enough
        apply ends
        simpa [attempts] using enough
      | failed =>
        refine ⟨fun _ => trivial, by simp, ?_⟩
        intro w' code done
        exact .inl (Prod.mk.inj (Option.some.inj done)).2.symm
      | sent ret =>
        obtain ⟨fits, takes, answers⟩ := answers
        have positive := takes (List.length_pos_iff.mpr empty)
        have length_eq : (top.take ret).length = ret := by
          rw [List.length_take]
          omega
        have some_ : top.take ret ≠ [] := by
          apply List.ne_nil_of_length_pos
          omega
        obtain ⟨record', room'⟩ := record.dataWritten bounded (room empty) some_ (length_eq.trans_le fits)
        rw [length_eq] at record' room'
        have dropped : (top.drop ret).length = top.length - ret := List.length_drop
        simp only [if_pos fits]
        rw [← dropped] at answers room' ⊢
        obtain ⟨keeps, ends, done⟩ := ih record' (modify_bounded bounded chan ret)
          (fun more => room' (mt List.length_eq_zero_iff.mp more)) answers
        refine ⟨fun _ => ⟨?_, keeps⟩, ?_, ?_⟩
        · intro channels held
          rw [record, if_neg (by have := left_le_sum at_; omega)] at held
          obtain rfl := Option.some.inj held
          exact ⟨left, at_, fits.trans le⟩
        · intro enough
          apply ends
          have more : attempts (.sent ret :: results) = attempts results + 1 := List.countP_cons_of_pos (by simp)
          omega
        · intro w' code loop
          rcases done w' code loop with dropped_ | ⟨zero, record''⟩
          · exact .inl dropped_
          · refine .inr ⟨zero, ?_⟩
            rw [modify_modify, dropped, Nat.add_sub_cancel' fits] at record''
            exact record''

theorem sendLoop_stuck {data_conn : Int} {chan : Nat} (n : Nat) :
    ∀ {w : Writer} {top : List UInt8} (dataSize : Nat),
      (∀ rest, w.writeChannels data_conn = some rest → (∀ size ∈ rest, size < sizeModulus) ∧ rest.sum % sizeModulus = 0) →
      top ≠ [] → Answers data_conn chan (List.replicate n (.sent 0)) w top dataSize ∧
        sendLoop data_conn chan (List.replicate n (.sent 0)) w top dataSize = none := by
  induction n with
  | zero =>
    intro w top dataSize _ more
    exact ⟨trivial, by simp [sendLoop, more]⟩
  | succ n ih =>
    intro w top dataSize nothing more
    have zero : w.getWriteBinaryDataSize data_conn = 0 := by
      rw [getWriteBinaryDataSize]
      cases held : w.writeChannels data_conn with
      | none => rfl
      | some rest => exact (nothing rest held).2
    have nothing' : ∀ rest, (w.dataWritten data_conn chan (top.take 0)).writeChannels data_conn = some rest →
        (∀ size ∈ rest, size < sizeModulus) ∧ rest.sum % sizeModulus = 0 := by
      intro rest after
      cases held : w.writeChannels data_conn with
      | none => simp [Writer.dataWritten, held] at after
      | some rest' =>
        obtain ⟨bounded, empty⟩ := nothing rest' held
        have same : DataWrite.dataWritten rest' chan 0 = rest' := by
          cases at_ : rest'[chan]? with
          | none => exact List.modify_eq_self (List.getElem?_eq_none_iff.mp at_)
          | some left => rw [dataWritten_modify bounded at_ (Nat.zero_le left), modify_zero]
        rw [dataWritten_channels held, List.take_zero, List.length_nil, same, DataWrite.getDataSize, empty] at after
        simp at after
    obtain ⟨answers, stuck⟩ := ih 0 nothing' more
    rw [List.replicate_succ]
    constructor
    · intro _
      simp only [zero, Nat.min_zero]
      exact ⟨le_rfl, fun h => h, by simpa using answers⟩
    · rw [sendLoop, if_neg more]
      simp only [zero, Nat.min_zero, le_refl, if_true, List.drop_zero]
      simpa using stuck

theorem dataWritten_counted {data_conn : Int} {rest : List Nat} {w : Writer}
    (held : w.writeChannels data_conn = some rest) (bounded : ∀ size ∈ rest, size < sizeModulus) {chan left : Nat}
    (at_ : rest[chan]? = some left) {data : List UInt8} (fits : data.length ≤ left)
    (counted : data.length = rest.sum % sizeModulus) :
    (w.dataWritten data_conn chan data).writeChannels data_conn = none := by
  have sum_eq := sum_modify (· - data.length) at_
  have whole := Nat.div_add_mod rest.sum sizeModulus
  have apart : (rest.modify chan (· - data.length)).sum = sizeModulus * (rest.sum / sizeModulus) := by omega
  rw [dataWritten_channels held, dataWritten_modify bounded at_ fits, DataWrite.getDataSize, apart, Nat.mul_mod_right]
  rfl

theorem attempts_replicate (n : Nat) : attempts (List.replicate n (.sent 0)) = n := by
  simp [attempts, List.countP_replicate]

theorem SendsRight.freed {data_conn : Int} {rest : List Nat} {w : Writer} {calls : List Sending}
    (right : SendsRight data_conn rest w calls) : FreedWhenComplete data_conn rest w := by
  cases calls with
  | nil => exact right
  | cons s calls => exact right.1

theorem record_sendMsg {data_conn : Int} {rest : List Nat} {w : Writer} (record : Record data_conn rest w)
    (msg : List UInt8) : Record data_conn rest (w.sendMsg msg) := record

theorem right_of_within {data_conn : Int} (calls : List Sending) :
    ∀ {rest : List Nat} {w : Writer}, Record data_conn rest w → (∀ size ∈ rest, size < sizeModulus) →
      WithinChannels rest calls → SendsRight data_conn rest w calls := by
  induction calls with
  | nil =>
    intro rest w record _ _
    exact record.freed
  | cons s calls ih =>
    intro rest w record bounded within
    have loop := fun results answers => sendLoop_room results
      (record_sendMsg record (dataMessage data_conn s.chan s.data.length)) bounded within.1 answers
    refine ⟨record.freed, ⟨s.data.length, fun results answers => (loop results answers).2.1⟩, ?_⟩
    intro results answers
    obtain ⟨keeps, -, done⟩ := loop results answers
    refine ⟨keeps, ?_⟩
    intro w' code sent
    rcases done w' code sent with dropped | ⟨rfl, record'⟩
    · exact .inl dropped
    · refine .inr ⟨rfl, ?_, ih record' (modify_bounded bounded _ _) within.2⟩
      rw [sendLoop_sent results sent]
      simp [Writer.sendMsg, callBytes, List.append_assoc]

theorem within_of_right {data_conn : Int} (calls : List Sending) :
    ∀ {rest : List Nat} {w : Writer}, Record data_conn rest w → (∀ size ∈ rest, size < sizeModulus) →
      SendsRight data_conn rest w calls → WithinChannels rest calls := by
  induction calls with
  | nil => exact fun _ _ _ => trivial
  | cons s calls ih =>
    intro rest w record bounded right
    obtain ⟨-, ⟨n, ends⟩, each⟩ := right
    have record₁ := record_sendMsg record (dataMessage data_conn s.chan s.data.length)
    have start : (∀ size ∈ rest, size < sizeModulus) := bounded
    have tail : ∀ results, (s.data ≠ [] → Room rest s.chan s.data.length) →
        Answers data_conn s.chan results (w.sendMsg (dataMessage data_conn s.chan s.data.length)) s.data s.data.length →
        ∀ w', w.sendBinaryData data_conn s.chan s.data results = some (w', 0) →
          WithinChannels (takeOff rest s) calls := by
      intro results room answers w' sent
      obtain ⟨-, -, done⟩ := sendLoop_room results record₁ bounded room answers
      have record' := (done w' 0 sent).resolve_left (by decide)
      have right' := ((each results answers).2 w' 0 sent).resolve_left (by decide)
      exact ih record'.2 (modify_bounded bounded _ _) right'.2.2
    by_cases empty : s.data = []
    · refine ⟨fun more => (more empty).elim, ?_⟩
      apply tail [] (fun more => (more empty).elim) trivial
      · rw [sendBinaryData, sendLoop, if_pos empty]
    · -- what send () can take at once, and whether the loop then gets to the end
      have positive : 0 < s.data.length := List.length_pos_iff.mpr empty
      have size_left := record₁.sizeLeft
      have not_stuck : rest.sum % sizeModulus ≠ 0 := by
        intro zero
        have nothing : ∀ rest', (w.sendMsg (dataMessage data_conn s.chan s.data.length)).writeChannels data_conn =
            some rest' → (∀ size ∈ rest', size < sizeModulus) ∧ rest'.sum % sizeModulus = 0 := by
          intro rest' held
          rw [record₁] at held
          split at held
          · cases held
          · obtain rfl := Option.some.inj held
            exact ⟨bounded, zero⟩
        obtain ⟨answers, stuck⟩ := sendLoop_stuck n s.data.length nothing empty
        exact ends _ answers (attempts_replicate n).ge stuck
      have held : (w.sendMsg (dataMessage data_conn s.chan s.data.length)).writeChannels data_conn = some rest := by
        rw [record₁, if_neg]
        intro zero
        rw [zero] at not_stuck
        exact not_stuck rfl
      have taken : ∀ m results, 0 < m → m ≤ s.data.length → m ≤ rest.sum % sizeModulus →
          Answers data_conn s.chan results ((w.sendMsg (dataMessage data_conn s.chan s.data.length)).dataWritten
            data_conn s.chan (s.data.take m)) (s.data.drop m) (min s.data.length (rest.sum % sizeModulus) - m) →
          Answers data_conn s.chan (.sent m :: results) (w.sendMsg (dataMessage data_conn s.chan s.data.length)) s.data
            s.data.length := by
        intro m results pos le le_sum answers _
        rw [size_left]
        exact ⟨le_min le le_sum, fun _ => pos, answers⟩
      have loop_eq : ∀ m results, m ≤ s.data.length → m ≤ rest.sum % sizeModulus →
          w.sendBinaryData data_conn s.chan s.data (.sent m :: results) =
            sendLoop data_conn s.chan results ((w.sendMsg (dataMessage data_conn s.chan s.data.length)).dataWritten
              data_conn s.chan (s.data.take m)) (s.data.drop m) (min s.data.length (rest.sum % sizeModulus) - m) := by
        intro m results le le_sum
        rw [sendBinaryData, sendLoop, if_neg empty, size_left]
        simp only [if_pos (le_min le le_sum)]
      have on_channel : ∀ m, 0 < m → m ≤ s.data.length → m ≤ rest.sum % sizeModulus →
          ∃ left, rest[s.chan]? = some left ∧ m ≤ left := by
        intro m pos le le_sum
        have keeps := (each _ (taken m [] pos le le_sum trivial)).1 empty
        exact keeps.1 rest held
      have take_length : ∀ m, m ≤ s.data.length → (s.data.take m).length = m := by
        intro m le
        rw [List.length_take]
        omega
      -- a clamped call sends what is counted and is stuck
      have fits : s.data.length ≤ rest.sum % sizeModulus := by
        by_contra over_
        have le : rest.sum % sizeModulus ≤ s.data.length := by omega
        obtain ⟨left, at_, le_left⟩ := on_channel _ (Nat.pos_of_ne_zero not_stuck) le le_rfl
        have gone := dataWritten_counted held bounded at_
          (by rw [take_length _ le]; exact le_left) (take_length _ le)
        have more : s.data.drop (rest.sum % sizeModulus) ≠ [] := by
          apply List.ne_nil_of_length_pos
          rw [List.length_drop]
          omega
        obtain ⟨answers, stuck⟩ := sendLoop_stuck n
          (min s.data.length (rest.sum % sizeModulus) - rest.sum % sizeModulus)
          (by rw [gone]; exact fun _ none_ => by cases none_) more
        apply ends _ (taken _ _ (Nat.pos_of_ne_zero not_stuck) le le_rfl answers)
        · have more_attempts : attempts (.sent (rest.sum % sizeModulus) :: List.replicate n (.sent 0)) = n + 1 := by
            rw [attempts, List.countP_cons_of_pos (by simp)]
            exact congrArg (· + 1) (attempts_replicate n)
          omega
        · rw [loop_eq _ _ le le_rfl, stuck]
      obtain ⟨left, at_, le_left⟩ := on_channel _ positive le_rfl fits
      have answers := taken s.data.length [] positive le_rfl fits trivial
      have sent := loop_eq s.data.length [] le_rfl fits
      rw [sendLoop, if_pos List.drop_length] at sent
      have room : Room rest s.chan s.data.length := by
        refine ⟨left, at_, le_left, ?_⟩
        by_contra neither
        rw [not_or, Nat.not_lt, Nat.not_lt] at neither
        have gone := dataWritten_counted held bounded at_
          (by rw [take_length _ le_rfl]; exact le_left) (by rw [take_length _ le_rfl]; omega)
        have right' := ((each _ answers).2 _ _ sent).resolve_left (by decide)
        have complete := right'.2.2.freed.mp gone
        have sum_eq := sum_modify (· - s.data.length) at_
        have zero := (sum_eq_zero_iff _).mpr complete
        rw [takeOff] at zero
        have small := s.size
        omega
      exact ⟨fun _ => room, tail _ (fun _ => room) answers _ sent⟩

/-- The calls of a data connection are right when there is something to send and each has room for its data. -/
theorem sendBinaryData_right (w : Writer) (dataType : Int) (chansize : List (Fin sizeModulus)) (calls : List Sending) :
    SendsRight (w.dataConn + 1) (chansize.map (·.val)) (w.startBinaryData dataType (chansize.map (·.val))).1 calls ↔
      (∃ size ∈ chansize, size.val ≠ 0) ∧ WithinChannels (chansize.map (·.val)) calls := by
  have bounded : ∀ size ∈ chansize.map (·.val), size < sizeModulus := by
    intro size hsize
    obtain ⟨size', -, rfl⟩ := List.mem_map.mp hsize
    exact size'.isLt
  have held : (w.startBinaryData dataType (chansize.map (·.val))).1.writeChannels (w.dataConn + 1) =
      some (chansize.map (·.val)) := by
    simp [startBinaryData]
  have record : (∃ size ∈ chansize, size.val ≠ 0) →
      Record (w.dataConn + 1) (chansize.map (·.val)) (w.startBinaryData dataType (chansize.map (·.val))).1 := by
    rintro ⟨size, hsize, ne⟩
    rw [Record, held, if_neg]
    intro zero
    exact ne ((sum_eq_zero_iff _).mp zero _ (List.mem_map.mpr ⟨size, hsize, rfl⟩))
  constructor
  · intro right
    have some_ : ∃ size ∈ chansize, size.val ≠ 0 := by
      by_contra none_
      push Not at none_
      have gone := right.freed.mpr (by
        intro size hsize
        obtain ⟨size', h, rfl⟩ := List.mem_map.mp hsize
        exact none_ size' h)
      rw [held] at gone
      cases gone
    exact ⟨some_, within_of_right calls (record some_) bounded right⟩
  · rintro ⟨some_, within⟩
    exact right_of_within calls (record some_) bounded within

/-- Three bytes on a channel of two. -/
theorem oversized_send_stuck : ¬ ∀ (w : Writer) (dataType : Int) (chansize : List (Fin sizeModulus))
    (calls : List Sending),
    SendsRight (w.dataConn + 1) (chansize.map (·.val)) (w.startBinaryData dataType (chansize.map (·.val))).1 calls := by
  intro all
  have right := all ⟨0, fun _ => none, []⟩ 1 [⟨2, by decide⟩] [⟨0, [1, 2, 3], by decide⟩]
  have record : Record 1 [2] (startBinaryData ⟨0, fun _ => none, []⟩ 1 [2]).1 := by
    simp [Record, startBinaryData, sendMsg]
  have bounded : ∀ size ∈ [2], size < sizeModulus := by
    simp [sizeModulus]
  obtain ⟨left, at_, le, -⟩ := (within_of_right _ record bounded right).1 (by simp)
  obtain rfl : 2 = left := by simpa using at_
  simp at le

end Rts2.Kernel
