import Rts2.External.Execute
import Rts2.Lib.Run

/-! Questions of an external script and their replies. Questions are numbered as they are asked,
and each final line that is written is counted to the question it was written for. -/
namespace Rts2.External

open Lib Kernel

def isNote (line : List UInt8) : Bool := line.head? = some 38 || line.head? = some 33

def finals (c c' : ConnExecute) : List (List UInt8) :=
  (c'.written.drop c.written.length).filter (fun line => !isNote line)

namespace Word

def isQuestion : Word → Bool
  | image _ => true
  | value => true
  | device_by_type => true
  | wait_target_move => true
  | loopcount => true
  | run_device => true
  | requeue => true
  | G => true
  | get_own => true
  | S => true
  | waitidle => true
  | waitmask => true
  | exec_device => true
  | _ => false

end Word

namespace ConnExecute

def Plain (text : List UInt8) : Prop := isNote text = false

instance (text : List UInt8) : Decidable (Plain text) := inferInstanceAs (Decidable (_ = _))

def waiting (c : ConnExecute) (w : World) (type : WaitType) (rest : List UInt8) :
    Option (ConnExecute × Device) :=
  match readWait type rest with
  | none => none
  | some (device, mask, timeout) =>
    match getConnectionForScript w device with
    | some (some conn) =>
      some ({ c with
        waitType := type
        waitDevice := device
        waitMask := BitVec.ofInt 32 mask
        waitEnd := w.now + timeout }, conn)
    | _ => none

def takesSlot (c : ConnExecute) (w : World) (word : Word) (rest : List UInt8) : Bool :=
  match word with
  | .waitidle => (c.waiting w .idle rest).isSome
  | .waitmask => (c.waiting w .mask rest).isSome
  | _ => false

def delays (c : ConnExecute) (w : World) (word : Word) (rest : List UInt8) : Option Bool :=
  let timed (type : WaitType) : Option Bool :=
    match c.waiting w type rest with
    | some (start, conn) => if (start.waitReply w (some conn)).isNone then some false else none
    | none => none
  match word with
  | .wait_target_move =>
    if c.masterElement = true ∧ w.target.any (fun target => !target.wasMoved) = true then some true
    else none
  | .waitidle => timed .idle
  | .waitmask => timed .mask
  | _ => none

def ReadsWait (w : World) (type : WaitType) (rest : List UInt8) : Prop :=
  (readWait type rest).any (fun read => (getConnectionForScript w read.1).isSome) = true

/-- The parameters of a question are all there, what it asks about is known, and a text that is
passed on does not look like a note. -/
def Answers (c : ConnExecute) (w : World) (rest : List UInt8) : Word → Prop
  | .image command => ∃ read ∈ readImage command rest, read.1 ∈ c.images ∧
      match w.moveImage command read.1 read.2 with
      | .error _ => command = .rename
      | .ok path => Plain (if command = .copy then read.1 else path)
  | .value => ∃ read ∈ paramNextString [] rest, ∃ conn ∈ c.element w.connection,
      ∀ text ∈ conn.getValue read.1, Plain text
  | .device_by_type => ∃ read ∈ paramNextString [] rest, ∃ type ∈ getDeviceType read.1,
      ∃ conn ∈ w.getOpenConnectionType type, Plain conn.name
  | .wait_target_move => c.masterElement = true
  | .loopcount => True
  | .run_device => ∃ conn ∈ c.element w.connection, Plain conn.name
  | .requeue => ∃ read ∈ paramNextString [] rest, (skipDouble w read.2).isSome ∧
      c.masterElement = true ∧ w.target.isSome ∧
      ∃ conn ∈ w.getOpenConnectionType deviceTypeSelector, Plain conn.name
  | .G => ∃ read ∈ paramNextString [] rest, ∃ value ∈ paramNextString [] read.2,
      ∃ conn ∈ getConnectionForScript w read.1,
        ∀ text ∈ conn.bind (fun d => d.getValue value.1), Plain text
  | .get_own => ∃ read ∈ paramNextString [] rest, ∀ text ∈ w.getOwnValue read.1, Plain text
  | .S => ∃ read ∈ paramNextString [] rest, (getConnectionForScript w read.1).isSome
  | .waitidle => ReadsWait w .idle rest
  | .waitmask => ReadsWait w .mask rest
  | .exec_device => ∀ name ∈ w.deviceName, Plain name
  | _ => True

def crashes (c : ConnExecute) (word : Word) (rest : List UInt8) : Bool :=
  match word with
  | .end_script => !c.masterElement
  | .target_disable => !c.masterElement
  | .target_tempdisable => (paramNextInteger 0 rest).2.1 && !c.masterElement
  | _ => false

end ConnExecute

/-- A question whose reply comes later: from the end of a move, or from the timed wait. -/
structure Pending where
  question : Nat
  moves : Bool
  deriving DecidableEq, Repr

/-- `pending` are the questions that wait, in the order they were asked; `answered` the questions
of the final lines, none for a line nothing asked for. -/
structure Dialogue where
  conn : ConnExecute
  asked : Nat
  pending : List Pending
  answered : List (Option Nat)

inductive DialogueEvent where
  | line (w : World) (text : List UInt8)
  | move (moved : Bool)
  | idle (w : World)
  | notActive
  | nextCommand

namespace Dialogue

def fresh : Dialogue where
  conn := .fresh
  asked := 0
  pending := []
  answered := []

def late (s : Dialogue) (conn : ConnExecute) (moves : Bool) : Dialogue :=
  if finals s.conn conn = [] then { s with conn := conn }
  else
    { s with
      conn := conn
      pending := s.pending.eraseP (fun p => p.moves = moves)
      answered := s.answered ++ (finals s.conn conn).map (fun _ =>
        (s.pending.find? (fun p => p.moves = moves)).map (fun p => p.question)) }

def line (s : Dialogue) (w : World) (word : Word) (rest : List UInt8) : Dialogue :=
  let conn := s.conn.processCommand w word rest
  if word.isQuestion then
    { conn := conn
      asked := s.asked + 1
      pending :=
        (if s.conn.takesSlot w word rest then s.pending.filter (fun p => p.moves) else s.pending) ++
          ((s.conn.delays w word rest).map (fun moves => ⟨s.asked, moves⟩)).toList
      answered := s.answered ++ (finals s.conn conn).map (fun _ => some s.asked) }
  else
    { s with
      conn := conn
      answered := s.answered ++ (finals s.conn conn).map (fun _ => none) }

def step (s : Dialogue) (e : DialogueEvent) : Dialogue :=
  if s.conn.crashed then
    match e with
    | .line _ text => { s with asked := s.asked + if (readLine text).1.isQuestion then 1 else 0 }
    | _ => s
  else
    match e with
    | .line w text => s.line w (readLine text).1 (readLine text).2
    | .move moved => s.late (s.conn.postEvent moved) true
    | .idle w => s.late (s.conn.idle w) false
    | .notActive => { s with conn := s.conn.notActive }
    | .nextCommand => { s with conn := s.conn.nextCommand }

/-- The reply to a question that waits comes with the next end of a move, or with the first idle
call from its end time on. -/
def Due (c : ConnExecute) (p : Pending) : Prop :=
  c.crashed = false ∧
    if p.moves then ∀ moved, (finals c (c.postEvent moved)).length = 1
    else ∀ w : World, c.waitEnd ≤ w.now →
      (ConnExecute.getConnectionForScript w c.waitDevice).isSome → (finals c (c.idle w)).length = 1

/-- Each question has its one reply or waits for it, the replies came in the order of the
questions, and no line was written without one. -/
structure InStep (s : Dialogue) : Prop where
  ordered : s.answered ++ s.pending.map (fun p => some p.question) = (List.range s.asked).map some
  due : ∀ p ∈ s.pending, Due s.conn p

/-- A question that is answered at once is asked while none waits, a timed wait while there is no
other, a question that can be answered; and a reply that comes later is for the oldest
question that waits. -/
def InTime (s : Dialogue) : DialogueEvent → Prop
  | .line w text =>
    let word := (readLine text).1
    let rest := (readLine text).2
    if word.isQuestion then
      s.conn.crashed = false ∧ s.conn.Answers w rest word ∧
        (s.conn.delays w word rest = none → s.pending = []) ∧
        (s.conn.takesSlot w word rest = true → s.conn.waitType = .none)
    else s.conn.crashed = false → s.conn.crashes word rest = true → s.pending = []
  | .move _ => s.conn.crashed = false → s.conn.waitTargetMove = true →
      ∃ p ∈ s.pending.head?, p.moves = true
  | .idle w => s.conn.crashed = false → s.conn.waitType ≠ .none →
      ∃ conn ∈ ConnExecute.getConnectionForScript w s.conn.waitDevice,
        (s.conn.waitReply w conn).isSome → ∃ p ∈ s.pending.head?, p.moves = false
  | _ => True

end Dialogue

section Writing

variable {c c' : ConnExecute} {good good' : Prop}

theorem finals_same (same : c'.written = c.written) : finals c c' = [] := by
  simp [finals, same]

theorem finals_write {m : List UInt8} (wrote : c'.written = c.written ++ [m]) :
    finals c c' = if isNote m then [] else [m] := by
  simp only [finals, wrote, List.drop_left]
  cases note : isNote m <;> simp [note]

theorem finals_noted {m n : List UInt8} (note : isNote m = true)
    (wrote : c'.written = c.written ++ [m] ++ [n]) :
    finals c c' = if isNote n then [] else [n] := by
  simp only [finals, wrote, List.append_assoc, List.drop_left, List.singleton_append]
  cases noted : isNote n <;> simp [note, noted]

structure AtOnce (c c' : ConnExecute) : Prop where
  one : (finals c c').length = 1
  crashed : c'.crashed = c.crashed
  waitTargetMove : c'.waitTargetMove = c.waitTargetMove
  waitType : c'.waitType = c.waitType

structure Told (good : Prop) (c c' : ConnExecute) : Prop where
  told : good → AtOnce c c'
  silent : ¬ good → finals c c' = []

namespace Told

theorem congr (told : Told good c c') (same : good' ↔ good) : Told good' c c' where
  told := fun h => told.told (same.mp h)
  silent := fun h => told.silent (fun g => h (same.mpr g))

theorem never (bad : ¬ good) (same : c'.written = c.written) : Told good c c' where
  told := fun h => absurd h bad
  silent := fun _ => finals_same same

theorem wrote {m : List UInt8} (wrote : c'.written = c.written ++ [m])
    (crashed : c'.crashed = c.crashed) (waitTargetMove : c'.waitTargetMove = c.waitTargetMove)
    (waitType : c'.waitType = c.waitType) : Told (ConnExecute.Plain m) c c' where
  told := by
    intro plain
    refine ⟨?_, crashed, waitTargetMove, waitType⟩
    rw [finals_write wrote, if_neg (by rw [plain]; decide)]
    rfl
  silent := by
    intro note
    rw [finals_write wrote, if_pos (by simpa [ConnExecute.Plain] using note)]

theorem write (c : ConnExecute) (m : List UInt8) :
    Told (ConnExecute.Plain m) c (c.writeToProcess m) := wrote rfl rfl rfl rfl

theorem always {m : List UInt8} (plain : ConnExecute.Plain m) (holds : good) :
    Told good c (c.writeToProcess m) :=
  (write c m).congr (iff_of_true holds plain)

theorem note {m : List UInt8} (note : isNote m = true) (bad : ¬ good) :
    Told good c (c.writeToProcess m) :=
  (write c m).congr (iff_of_false bad (by simp [ConnExecute.Plain, note]))

theorem reply (c : ConnExecute) (answer : Option (List UInt8)) :
    Told (∀ text ∈ answer, ConnExecute.Plain text) c (c.reply answer) := by
  cases answer with
  | none => exact always (by decide) (by simp)
  | some text => exact (write c text).congr (by simp)

end Told

structure Effect (c c' : ConnExecute) (delays : Option Bool) (takesSlot : Bool) : Prop where
  crashed : c'.crashed = c.crashed
  told : (finals c c').length = if delays = none then 1 else 0
  moves : c'.waitTargetMove = true ↔ c.waitTargetMove = true ∨ delays = some true
  slot : c'.waitType = .none ↔ if takesSlot then delays = none else c.waitType = .none

theorem AtOnce.effect {c c' : ConnExecute} (told : AtOnce c c') : Effect c c' none false where
  crashed := told.crashed
  told := told.one
  moves := by simp [told.waitTargetMove]
  slot := by simp [told.waitType]

end Writing

namespace ConnExecute

variable (c : ConnExecute) (w : World)

theorem plain_decimal (n : Int) : Plain (decimalInt n) := by
  obtain ⟨b, rest, shape⟩ := List.exists_cons_of_ne_nil (decimalInt_ne_nil n)
  have first := decimalInt_bytes (shape ▸ List.mem_cons_self : b ∈ decimalInt n)
  simp only [Plain, isNote, shape, List.head?_cons, Option.some.injEq, Bool.or_eq_false_iff,
    decide_eq_false_iff_not]
  rcases first with rfl | digit
  · decide
  · exact ⟨by rintro rfl; exact absurd digit (by decide), by rintro rfl; exact absurd digit (by decide)⟩

theorem image_told (command : ImageCommand) (rest : List UInt8) :
    Told (c.Answers w rest (.image command)) c (c.imageCommand w command rest) := by
  simp only [imageCommand, Answers]
  cases read : readImage command rest with
  | none => exact .never (by simp) rfl
  | some found =>
    obtain ⟨name, path⟩ := found
    by_cases known : name ∈ c.images
    · simp only [if_pos known]
      cases moved : w.moveImage command name path with
      | error what =>
        by_cases rename : command = .rename
        · simp only [if_pos rename]
          exact .always rfl ⟨_, rfl, known, by rw [moved]; exact rename⟩
        · simp only [if_neg rename]
          exact .never (by simp [moved, rename]) rfl
      | ok moved_ =>
        by_cases copy : command = .copy
        · simp only [if_pos copy]
          exact (Told.write c name).congr (by simp [known, moved])
        · simp only [if_neg copy]
          have told : Told (Plain moved_) c
              { c.writeToProcess moved_ with images := c.images.erase name } :=
            .wrote rfl rfl rfl rfl
          exact told.congr (by simp [known, moved])
    · simp only [if_neg known]
      exact .never (by simp [known]) rfl

theorem requeue_told (rest : List UInt8) :
    Told (c.Answers w rest .requeue) c (c.requeue w rest) := by
  unfold requeue
  simp only [Answers]
  split
  · rename_i unread
    exact .never (by simp [unread]) rfl
  · rename_i name rest read
    rw [read]
    split
    · rename_i bad
      exact .never (by simp_all) rfl
    · rename_i delay
      split
      · rename_i unlinked
        exact .never (by simp [unlinked]) rfl
      · rename_i linked
        split
        · rename_i none_
          exact .note (by decide) (by simp_all)
        · rename_i target
          cases found : w.getOpenConnectionType deviceTypeSelector with
          | none => exact .note (by decide) (by simp)
          | some conn =>
            refine (Told.write c conn.name).congr ?_
            simp_all [Option.isSome_iff_ne_none]

theorem getValue_told (rest : List UInt8) : Told (c.Answers w rest .G) c (c.getValue w rest) := by
  unfold getValue
  simp only [Answers]
  split
  · rename_i unread
    exact .never (by simp [unread]) rfl
  · rename_i device rest read
    rw [read]
    split
    · rename_i unread
      exact .never (by simp [unread]) rfl
    · rename_i value rest value_read
      split
      · rename_i gone
        exact .never (by simp [gone]) rfl
      · rename_i conn found
        exact (Told.reply c _).congr (by simp [value_read, found])

theorem question_told (word : Word) (rest : List UInt8) (question : word.isQuestion = true)
    (moves : word ≠ .wait_target_move) (idles : word ≠ .waitidle) (masks : word ≠ .waitmask) :
    Told (c.Answers w rest word) c (c.processCommand w word rest) := by
  cases word with
  | image command => exact image_told c w command rest
  | value =>
    simp only [processCommand, Answers]
    split
    · rename_i value rest conn read element
      exact (Told.reply c _).congr (by simp [read, element])
    · rename_i missing
      refine .never ?_ rfl
      rintro ⟨⟨value, rest'⟩, read, conn, element, -⟩
      exact missing value rest' conn read element
  | device_by_type =>
    simp only [processCommand, Answers]
    cases read : paramNextString [] rest with
    | none => exact .never (by simp) rfl
    | some found =>
      cases type : getDeviceType found.1 with
      | none => exact .never (by simp [type]) (by simp [type])
      | some type_ =>
        simp only [Option.bind_some, type]
        cases conn : w.getOpenConnectionType type_ with
        | none => exact .note (by decide) (by simp [type, conn])
        | some conn_ => exact (Told.write c conn_.name).congr (by simp [type, conn])
  | wait_target_move => contradiction
  | loopcount => exact .always (plain_decimal _) trivial
  | run_device =>
    simp only [processCommand, Answers]
    cases c.element w.connection with
    | none => exact .note (by decide) (by simp)
    | some conn => exact (Told.write c conn.name).congr (by simp)
  | requeue => exact requeue_told c w rest
  | G => exact getValue_told c w rest
  | get_own =>
    simp only [processCommand, Answers]
    cases read : paramNextString [] rest with
    | none => exact .never (by simp) rfl
    | some found => exact (Told.reply c _).congr (by simp)
  | S =>
    simp only [processCommand, Answers]
    cases read : paramNextString [] rest with
    | none => exact .never (by simp) rfl
    | some found =>
      cases conn : getConnectionForScript w found.1 with
      | none => exact .never (by simp [conn]) (by simp [conn, crash])
      | some conn_ =>
        simp only [conn]
        refine (Told.reply c _).congr (iff_of_true (by simp [conn]) ?_)
        intro text mem
        obtain ⟨d, -, rfl⟩ := Option.mem_map.mp mem
        exact plain_decimal _
  | waitidle => contradiction
  | waitmask => contradiction
  | exec_device =>
    simp only [processCommand, Answers]
    cases w.deviceName with
    | none => exact .always (by decide) (by simp)
    | some name => exact (Told.write c name).congr (by simp)
  | _ => contradiction

theorem waitReply_plain {conn : Option Device} {msg : List UInt8}
    (reply : c.waitReply w conn = some msg) : Plain msg := by
  unfold waitReply at reply
  repeat' split at reply
  all_goals first | contradiction | (obtain rfl := Option.some.inj reply; decide)

theorem checkWait_effect {conn : Option Device}
    (found : getConnectionForScript w c.waitDevice = some conn) :
    (c.waitReply w conn = none ∧ c.checkWait w = c) ∨
      ∃ msg, c.waitReply w conn = some msg ∧ Plain msg ∧
        c.checkWait w = { c with waitType := .none }.writeToProcess msg := by
  simp only [checkWait, found]
  cases reply : c.waitReply w conn with
  | none => exact .inl ⟨rfl, rfl⟩
  | some msg => exact .inr ⟨msg, rfl, waitReply_plain c w reply, rfl⟩

theorem wait_target_move_effect :
    (c.masterElement = true → Effect c (c.wait_target_move w) (c.delays w .wait_target_move []) false) ∧
      (¬ c.masterElement = true → finals c (c.wait_target_move w) = [] ∧
        c.delays w .wait_target_move [] = none) := by
  constructor
  · intro linked
    simp only [wait_target_move, delays, linked, Bool.true_eq_false, if_false, true_and]
    cases target : w.target with
    | none =>
      simp only [Option.any_none, Bool.false_eq_true, if_false]
      refine ⟨rfl, ?_, by simp [writeToProcess], by simp [writeToProcess]⟩
      rw [finals_noted (c := c) (by decide) rfl]
      rfl
    | some t =>
      simp only [Option.any_some]
      by_cases moved : t.wasMoved = true
      · rw [if_pos moved, if_neg (by simp [moved])]
        exact ((Told.write c (bytes "0")).told (by decide)).effect
      · rw [if_neg moved, if_pos (by simp [moved])]
        exact ⟨rfl, by simp [finals_same], by simp, by simp⟩
  · intro unlinked
    have off : c.masterElement = false := by simpa using unlinked
    simp only [wait_target_move, delays, off, if_true, Bool.false_eq_true, false_and, if_false]
    exact ⟨finals_same rfl, trivial⟩

def timed (w : World) (type : WaitType) (rest : List UInt8) : Option Bool :=
  match c.waiting w type rest with
  | some (start, conn) => if (start.waitReply w (some conn)).isNone then some false else none
  | none => none

theorem wait_effect {type : WaitType} (rest : List UInt8) (some_ : type ≠ .none) :
    (ReadsWait w type rest → Effect c (c.wait w type rest) (c.timed w type rest)
      (c.waiting w type rest).isSome) ∧
      (¬ ReadsWait w type rest → finals c (c.wait w type rest) = [] ∧
        c.timed w type rest = none) := by
  unfold ReadsWait timed waiting wait startWait
  cases read : readWait type rest with
  | none => exact ⟨by simp, fun _ => ⟨finals_same rfl, rfl⟩⟩
  | some found =>
    obtain ⟨device, mask, timeout⟩ := found
    simp only [Option.any_some]
    cases conn : getConnectionForScript w device with
    | none => exact ⟨by simp, fun _ => ⟨finals_same rfl, rfl⟩⟩
    | some conn_ =>
      refine ⟨fun _ => ?_, fun bad => absurd rfl bad⟩
      cases conn_ with
      | none => exact ((Told.write c (bytes "ERR")).told (by decide)).effect
      | some d =>
        simp only [Option.isSome_some]
        rcases checkWait_effect { c with
            waitType := type
            waitDevice := device
            waitMask := BitVec.ofInt 32 mask
            waitEnd := w.now + timeout } w conn with ⟨none_, same⟩ | ⟨msg, reply, plain, done⟩
        · rw [none_, same]
          exact ⟨rfl, by simp [finals_same], by simp, by simp [some_]⟩
        · rw [reply, done]
          refine ⟨rfl, ?_, by simp [writeToProcess], by simp [writeToProcess]⟩
          rw [finals_write (c := c) rfl, plain]
          rfl

theorem question_effect (word : Word) (rest : List UInt8) (question : word.isQuestion = true) :
    (c.Answers w rest word →
      Effect c (c.processCommand w word rest) (c.delays w word rest) (c.takesSlot w word rest)) ∧
      (¬ c.Answers w rest word →
        finals c (c.processCommand w word rest) = [] ∧ c.delays w word rest = none) := by
  by_cases moves : word = .wait_target_move
  · subst moves
    exact wait_target_move_effect c w
  by_cases idles : word = .waitidle
  · subst idles
    exact wait_effect c w rest (by decide)
  by_cases masks : word = .waitmask
  · subst masks
    exact wait_effect c w rest (by decide)
  have told := question_told c w word rest question moves idles masks
  have delays : c.delays w word rest = none := by
    cases word <;> first | rfl | contradiction
  have takesSlot : c.takesSlot w word rest = false := by
    cases word <;> first | rfl | contradiction
  rw [delays, takesSlot]
  exact ⟨fun good => (told.told good).effect, fun bad => ⟨told.silent bad, rfl⟩⟩

theorem delays_takesSlot {word : Word} {rest : List UInt8} {moves : Bool}
    (delays : c.delays w word rest = some moves) : c.takesSlot w word rest = !moves := by
  have timed {type : WaitType} (delays : c.timed w type rest = some moves) :
      (c.waiting w type rest).isSome = !moves := by
    unfold timed at delays
    split at delays
    · rename_i found
      split at delays
      · obtain rfl := Option.some.inj delays
        rw [found]
        rfl
      · contradiction
    · contradiction
  cases word with
  | waitidle => exact timed delays
  | waitmask => exact timed delays
  | wait_target_move =>
    simp only [ConnExecute.delays] at delays
    split at delays
    · obtain rfl := Option.some.inj delays
      rfl
    · contradiction
  | _ => contradiction

theorem statement_effect (word : Word) (rest : List UInt8) (statement : word.isQuestion = false) :
    finals c (c.processCommand w word rest) = [] ∧
      (c.processCommand w word rest).waitTargetMove = c.waitTargetMove ∧
      (c.processCommand w word rest).waitType = c.waitType ∧
      (c.processCommand w word rest).crashed = (c.crashed || c.crashes word rest) := by
  have still {c' : ConnExecute} (wrote : finals c c' = [])
      (waitTargetMove : c'.waitTargetMove = c.waitTargetMove) (waitType : c'.waitType = c.waitType)
      (crashed : c'.crashed = c.crashed) (stays : c.crashes word rest = false) :
      finals c c' = [] ∧ c'.waitTargetMove = c.waitTargetMove ∧ c'.waitType = c.waitType ∧
        c'.crashed = (c.crashed || c.crashes word rest) :=
    ⟨wrote, waitTargetMove, waitType, by rw [stays, Bool.or_false, crashed]⟩
  have same (stays : c.crashes word rest = false) := still (finals_same rfl) rfl rfl rfl stays
  have crashed (crashes : c.crashes word rest = true) : finals c c.crash = [] ∧
      c.crash.waitTargetMove = c.waitTargetMove ∧ c.crash.waitType = c.waitType ∧
      c.crash.crashed = (c.crashed || c.crashes word rest) :=
    ⟨finals_same rfl, rfl, rfl, by rw [crashes, Bool.or_true]; rfl⟩
  have stopped (c₀ : ConnExecute) (written : c₀.written = c.written)
      (waitTargetMove : c₀.waitTargetMove = c.waitTargetMove) (waitType : c₀.waitType = c.waitType)
      (crashed : c₀.crashed = c.crashed) (stays : c.crashes word rest = false) :
      finals c c₀.notActive = [] ∧ c₀.notActive.waitTargetMove = c.waitTargetMove ∧
        c₀.notActive.waitType = c.waitType ∧
        c₀.notActive.crashed = (c.crashed || c.crashes word rest) := by
    unfold notActive
    split
    · exact still ((finals_write (by rw [← written]; rfl)).trans rfl) waitTargetMove waitType
        crashed stays
    · exact still ((finals_write (by rw [← written]; rfl)).trans rfl) waitTargetMove waitType
        crashed stays
    · exact still (finals_same written) waitTargetMove waitType crashed stays
  cases word with
  | exposure noblock form =>
    have queued (expandPath : Option (List UInt8)) :
        finals c (c.queExposure w noblock expandPath form) = [] ∧
          (c.queExposure w noblock expandPath form).waitTargetMove = c.waitTargetMove ∧
          (c.queExposure w noblock expandPath form).waitType = c.waitType ∧
          (c.queExposure w noblock expandPath form).crashed =
            (c.crashed || c.crashes (.exposure noblock form) rest) := by
      unfold queExposure
      split
      · exact same rfl
      · exact still (finals_same rfl) rfl rfl rfl rfl
    simp only [processCommand, exposure]
    split
    · exact still ((finals_write rfl).trans rfl) rfl rfl rfl rfl
    · cases form with
      | plain => exact queued none
      | wfn =>
        cases paramNextString [] rest with
        | none => exact same rfl
        | some found => exact queued _
      | overwrite =>
        cases paramNextString [] rest with
        | none => exact same rfl
        | some found => exact queued _
  | delete =>
    simp only [processCommand]
    split
    · exact same rfl
    · exact still (finals_same rfl) rfl rfl rfl rfl
  | process =>
    simp only [processCommand]
    split
    · exact same rfl
    · split
      · exact same rfl
      · exact still (finals_same rfl) rfl rfl rfl rfl
  | end_script =>
    simp only [processCommand]
    split
    · rename_i unlinked
      exact crashed (by simp [crashes, unlinked])
    · rename_i linked
      exact stopped { c with endScript := true } rfl rfl rfl rfl (by simpa [crashes] using linked)
  | end_target => exact stopped c rfl rfl rfl rfl rfl
  | stop_target => exact stopped c rfl rfl rfl rfl rfl
  | target_disable =>
    simp only [processCommand]
    split
    · rename_i unlinked
      exact crashed (by simp [crashes, unlinked])
    · rename_i linked
      exact same (by simpa [crashes] using linked)
  | target_tempdisable =>
    simp only [processCommand]
    split
    · rename_i unlinked
      exact crashed (by simp [crashes, unlinked])
    · rename_i linked
      exact same (by simpa [crashes] using linked)
  | other => exact same rfl
  | _ => contradiction

end ConnExecute

namespace Dialogue

variable {s : Dialogue}

theorem postEvent_effect (c : ConnExecute) (moved : Bool) :
    ((finals c (c.postEvent moved)).length = if c.waitTargetMove then 1 else 0) ∧
      (c.postEvent moved).crashed = c.crashed ∧
      (c.postEvent moved).waitTargetMove = c.waitTargetMove ∧
      (c.postEvent moved).waitType = c.waitType := by
  unfold ConnExecute.postEvent
  split
  · rename_i off
    exact ⟨by rw [finals_same rfl, off]; rfl, rfl, rfl, rfl⟩
  · rename_i on
    have waits : c.waitTargetMove = true := by simpa using on
    rw [if_pos waits]
    split
    · exact ⟨by rw [finals_write (c := c) rfl]; rfl, rfl, rfl, rfl⟩
    · have note : isNote (bytes "! move failed") = true := by decide
      exact ⟨by rw [finals_noted (c := c) note rfl]; rfl, rfl, rfl, rfl⟩

theorem idle_effect (c : ConnExecute) (w : World) {conn : Option Device}
    (found : ConnExecute.getConnectionForScript w c.waitDevice = some conn) :
    if c.waitType ≠ .none ∧ (c.waitReply w conn).isSome then
      (finals c (c.idle w)).length = 1 ∧ (c.idle w).crashed = c.crashed ∧
        (c.idle w).waitTargetMove = c.waitTargetMove ∧ (c.idle w).waitType = .none
    else c.idle w = c := by
  unfold ConnExecute.idle
  by_cases none_ : c.waitType = .none
  · simp [none_]
  · rw [if_neg none_]
    rcases c.checkWait_effect w found with ⟨goes, same⟩ | ⟨msg, reply, plain, done⟩
    · rw [if_neg (by simp [goes]), same]
    · rw [if_pos ⟨none_, by simp [reply]⟩, done]
      refine ⟨?_, rfl, rfl, rfl⟩
      rw [finals_write (c := c) rfl, plain]
      rfl

theorem waitReply_late (c : ConnExecute) (w : World) (conn : Option Device)
    (late : c.waitEnd ≤ w.now) : (c.waitReply w conn).isSome := by
  cases conn with
  | none => rfl
  | some d => simp [ConnExecute.waitReply, late]

def worldAt (now : Int) : World where
  now := now
  connections := []
  centraldConns := [⟨[], 0, 0, fun _ => none⟩]
  getOwnValue := fun _ => none
  deviceName := none
  connection := none
  client := false
  target := none
  loopCount := none
  moveImage := fun _ path _ => .ok path
  scansDouble := fun _ => false

theorem due_iff (c : ConnExecute) (p : Pending) : Due c p ↔ c.crashed = false ∧
    if p.moves then c.waitTargetMove = true else c.waitType ≠ .none := by
  unfold Due
  refine and_congr_right (fun _ => ?_)
  cases p.moves with
  | true =>
    simp only [if_true, (postEvent_effect c _).1]
    cases c.waitTargetMove <;> simp
  | false =>
    simp only [Bool.false_eq_true, if_false]
    constructor
    · intro due none_
      have connected :
          (ConnExecute.getConnectionForScript (worldAt c.waitEnd) c.waitDevice).isSome := by
        unfold ConnExecute.getConnectionForScript
        split <;> rfl
      have told := due (worldAt c.waitEnd) (Int.le_refl _) connected
      rw [ConnExecute.idle, if_pos none_, finals_same rfl] at told
      contradiction
    · intro waits w late connected
      obtain ⟨conn, found⟩ := Option.isSome_iff_exists.mp connected
      have effect := idle_effect c w found
      rw [if_pos ⟨waits, waitReply_late c w conn late⟩] at effect
      exact effect.1

structure Kept (s : Dialogue) : Prop extends InStep s where
  slot : (s.pending.filter (fun p => !p.moves)).length = if s.conn.waitType = .none then 0 else 1

theorem fresh_kept : fresh.Kept where
  ordered := rfl
  due := by simp [fresh]
  slot := rfl

theorem Kept.conn (kept : s.Kept) {conn : ConnExecute} (crashed : conn.crashed = s.conn.crashed)
    (waitTargetMove : conn.waitTargetMove = s.conn.waitTargetMove)
    (waitType : conn.waitType = s.conn.waitType) : Kept { s with conn := conn } where
  ordered := kept.ordered
  due := by
    intro p mem
    have due := (due_iff s.conn p).mp (kept.due p mem)
    change Due conn p
    rw [due_iff, crashed, waitTargetMove, waitType]
    exact due
  slot := by
    change _ = if conn.waitType = .none then 0 else 1
    rw [waitType]
    exact kept.slot

theorem late_quiet (s : Dialogue) {conn : ConnExecute} (moves : Bool)
    (silent : finals s.conn conn = []) : s.late conn moves = { s with conn := conn } :=
  if_pos silent

theorem late_told (s : Dialogue) {conn : ConnExecute} (moves : Bool)
    (told : (finals s.conn conn).length = 1) : s.late conn moves = { s with
      conn := conn
      pending := s.pending.eraseP (fun p => p.moves = moves)
      answered := s.answered ++
        [(s.pending.find? (fun p => p.moves = moves)).map (fun p => p.question)] } := by
  obtain ⟨line, shape⟩ := List.length_eq_one_iff.mp told
  unfold late
  rw [shape, if_neg (by simp)]
  rfl

theorem late_ordered (kept : s.Kept) {conn : ConnExecute} (moves : Bool)
    (told : (finals s.conn conn).length = 1) :
    ((s.late conn moves).answered ++ (s.late conn moves).pending.map (fun p => some p.question) =
      (List.range (s.late conn moves).asked).map some) ↔
      ∃ p ∈ s.pending.head?, p.moves = moves := by
  rw [late_told s moves told]
  have ordered := kept.ordered
  have distinct : ((List.range s.asked).map some).Nodup :=
    List.nodup_range.map (Option.some_injective _)
  rw [← ordered] at distinct
  simp only [← ordered, List.append_assoc, List.append_cancel_left_eq]
  cases pending : s.pending with
  | nil => simp
  | cons p rest =>
    by_cases here : p.moves = moves
    · simp [here]
    · refine iff_of_false ?_ (by simp [here])
      intro same
      rw [List.find?_cons_of_neg (by simpa using here), List.eraseP_cons_of_neg (by simpa using here),
        List.map_cons, List.map_cons, List.singleton_append, List.cons.injEq] at same
      obtain ⟨q, found, question⟩ := Option.map_eq_some_iff.mp same.1
      have later : q ∈ rest := List.mem_of_find?_eq_some found
      rw [pending, List.map_cons] at distinct
      have fresh := (List.nodup_cons.mp (List.nodup_append.mp distinct).2.1).1
      exact fresh (List.mem_map.mpr ⟨q, later, congrArg some question⟩)

theorem late_kept (kept : s.Kept) {conn : ConnExecute} (moves : Bool)
    (told : (finals s.conn conn).length = 1) (crashed : conn.crashed = s.conn.crashed)
    (waitTargetMove : conn.waitTargetMove = s.conn.waitTargetMove)
    (waitType : conn.waitType = if moves then s.conn.waitType else .none)
    (head : ∃ p ∈ s.pending.head?, p.moves = moves) : (s.late conn moves).Kept := by
  have ordered := (late_ordered kept moves told).mpr head
  have slot := kept.slot
  obtain ⟨p, first, here⟩ := head
  obtain ⟨rest, pending⟩ := List.head?_eq_some_iff.mp first
  have erased : s.pending.eraseP (fun p => p.moves = moves) = rest := by
    rw [pending, List.eraseP_cons_of_pos (by simpa using here)]
  rw [late_told s moves told] at ordered ⊢
  rw [pending] at slot
  refine ⟨⟨ordered, ?_⟩, ?_⟩
  · intro q mem
    simp only [erased] at mem
    have due := (due_iff s.conn q).mp (kept.due q (pending ▸ List.mem_cons_of_mem p mem))
    change Due conn q
    rw [due_iff, crashed, waitTargetMove, waitType]
    refine ⟨due.1, ?_⟩
    cases moves with
    | true => exact due.2
    | false =>
      have none_ : rest.filter (fun q => !q.moves) = [] := by
        rw [List.filter_cons_of_pos (by simp [here])] at slot
        rw [← List.length_eq_zero_iff]
        split at slot <;> simp at slot ⊢
        exact slot
      have gone : q.moves = true := by
        by_contra stays
        have inside : q ∈ rest.filter (fun q => !q.moves) :=
          List.mem_filter.mpr ⟨mem, by simpa using stays⟩
        rw [none_] at inside
        contradiction
      rw [if_pos gone]
      have due := due.2
      rw [if_pos gone] at due
      exact due
  · change (List.filter _ (s.pending.eraseP _)).length = if conn.waitType = .none then 0 else 1
    rw [erased, waitType]
    cases moves with
    | true =>
      rw [List.filter_cons_of_neg (by simp [here])] at slot
      exact slot
    | false =>
      rw [List.filter_cons_of_pos (by simp [here]), List.length_cons] at slot
      simp only [Bool.false_eq_true, if_false, if_true]
      split at slot <;> omega

theorem line_question (s : Dialogue) (w : World) {word : Word} (rest : List UInt8)
    (question : word.isQuestion = true) : s.line w word rest =
      { conn := s.conn.processCommand w word rest
        asked := s.asked + 1
        pending :=
          (if s.conn.takesSlot w word rest then s.pending.filter (fun p => p.moves)
            else s.pending) ++
            ((s.conn.delays w word rest).map (fun moves => ⟨s.asked, moves⟩)).toList
        answered := s.answered ++
          (finals s.conn (s.conn.processCommand w word rest)).map (fun _ => some s.asked) } :=
  if_pos question

theorem Kept.free (kept : s.Kept) (none_ : s.conn.waitType = .none) :
    s.pending.filter (fun p => p.moves) = s.pending := by
  have slot := kept.slot
  rw [if_pos none_, List.length_eq_zero_iff, List.filter_eq_nil_iff] at slot
  exact List.filter_eq_self.mpr (fun p mem => by simpa using slot p mem)

theorem question_kept (kept : s.Kept) (w : World) {word : Word} (rest : List UInt8)
    (question : word.isQuestion = true) (up : s.conn.crashed = false)
    (answers : s.conn.Answers w rest word)
    (alone : s.conn.delays w word rest = none → s.pending = [])
    (free : s.conn.takesSlot w word rest = true → s.conn.waitType = .none) :
    (s.line w word rest).Kept := by
  obtain ⟨crashed, told, moves, slot⟩ := (s.conn.question_effect w word rest question).1 answers
  have ordered := kept.ordered
  have slots := kept.slot
  have same : (if s.conn.takesSlot w word rest = true then s.pending.filter (fun p => p.moves)
      else s.pending) = s.pending := by
    split
    · rename_i takes
      exact kept.free (free takes)
    · rfl
  rw [line_question s w rest question, same]
  cases delays : s.conn.delays w word rest with
  | none =>
    have empty := alone delays
    rw [delays, if_pos rfl] at told
    obtain ⟨line, shape⟩ := List.length_eq_one_iff.mp told
    simp only [empty, shape, Option.map_none, Option.toList_none, List.append_nil, List.map_cons,
      List.map_nil] at ordered slots ⊢
    refine ⟨⟨?_, by simp⟩, ?_⟩
    · simp [ordered, List.range_succ]
    · simp only [List.filter_nil, List.length_nil] at slots ⊢
      have none_ : s.conn.waitType = .none := by
        by_contra taken
        rw [if_neg taken] at slots
        contradiction
      rw [if_pos (slot.mpr (by split <;> first | exact delays | exact none_))]
  | some waits =>
    rw [delays, if_neg (by simp)] at told
    have silent : finals s.conn (s.conn.processCommand w word rest) = [] :=
      List.length_eq_zero_iff.mp told
    have takes := ConnExecute.delays_takesSlot s.conn w delays
    rw [silent]
    refine ⟨⟨?_, ?_⟩, ?_⟩
    · simp only [List.map_nil, List.append_nil, Option.map_some, Option.toList_some,
        List.map_append, List.map_cons, ← List.append_assoc, ordered, List.range_succ]
    · intro p mem
      change Due (s.conn.processCommand w word rest) p
      rw [due_iff, crashed]
      refine ⟨up, ?_⟩
      rw [moves]
      rcases List.mem_append.mp mem with old | new
      · have due := ((due_iff s.conn p).mp (kept.due p old)).2
        split
        · rename_i on
          rw [if_pos on] at due
          exact .inl due
        · rename_i off
          rw [if_neg off] at due
          have stays : s.conn.takesSlot w word rest ≠ true := fun h => due (free h)
          intro gone
          rw [slot, if_neg stays] at gone
          exact due gone
      · obtain rfl : p = ⟨s.asked, waits⟩ := by simpa using new
        cases waits with
        | true => exact .inr delays
        | false =>
          simp only [Bool.false_eq_true, if_false, ne_eq]
          rw [slot, if_pos (by simpa using takes), delays]
          simp
    · simp only [Option.map_some, Option.toList_some, List.filter_append, List.length_append]
      change _ = if (s.conn.processCommand w word rest).waitType = .none then 0 else 1
      rw [slots]
      cases waits with
      | true =>
        have stays : ¬ s.conn.takesSlot w word rest = true := by simp [takes]
        simp only [slot, if_neg stays, List.filter_cons, Bool.not_true, Bool.false_eq_true,
          if_false, List.filter_nil, List.length_nil, Nat.add_zero]
      | false =>
        have takes : s.conn.takesSlot w word rest = true := by simpa using takes
        rw [if_pos (free takes)]
        simp [slot, takes, delays]

theorem question_inTime (kept : s.Kept) (w : World) {word : Word} (rest : List UInt8)
    (question : word.isQuestion = true) (next : (s.line w word rest).InStep) :
    s.conn.Answers w rest word ∧ (s.conn.delays w word rest = none → s.pending = []) ∧
      (s.conn.takesSlot w word rest = true → s.conn.waitType = .none) := by
  have after := next.ordered
  rw [line_question s w rest question] at after
  simp only [List.range_succ, List.map_append, List.map_cons, List.map_nil, ← kept.ordered,
    List.append_assoc, List.append_cancel_left_eq] at after
  have lengths := congrArg List.length after
  have fewer : (s.pending.filter (fun p => p.moves)).length ≤ s.pending.length :=
    List.length_filter_le _ _
  have effect := s.conn.question_effect w word rest question
  have answers : s.conn.Answers w rest word := by
    by_contra bad
    obtain ⟨silent, none_⟩ := effect.2 bad
    rw [silent, none_] at lengths
    split at lengths
    · simp at lengths
      omega
    · simp at lengths
  obtain ⟨crashed, told, moves, slot⟩ := effect.1 answers
  have counted : ((s.conn.delays w word rest).map
      (fun moves => (⟨s.asked, moves⟩ : Pending))).toList.length =
        if s.conn.delays w word rest = none then 0 else 1 := by
    cases s.conn.delays w word rest <;> rfl
  have same : (if s.conn.takesSlot w word rest = true then s.pending.filter (fun p => p.moves)
      else s.pending).length = s.pending.length := by
    simp only [List.length_append, List.length_map, List.length_singleton, counted, told] at lengths
    split at lengths <;> omega
  have whole : (if s.conn.takesSlot w word rest = true then s.pending.filter (fun p => p.moves)
      else s.pending) = s.pending := by
    split at same
    · rename_i takes
      rw [if_pos takes]
      exact List.filter_sublist.eq_of_length same
    · rename_i stays
      rw [if_neg stays]
  refine ⟨answers, fun none_ => ?_, fun takes => ?_⟩
  · rw [whole, none_] at after
    rw [none_, if_pos rfl] at told
    obtain ⟨line, shape⟩ := List.length_eq_one_iff.mp told
    rw [shape] at after
    cases pending : s.pending with
    | nil => rfl
    | cons p rest =>
      rw [pending] at after
      have here : some s.asked = some p.question := (List.cons.inj after).1
      have mem : some p.question ∈ (List.range s.asked).map some := by
        rw [← kept.ordered, pending]
        simp
      rw [← here] at mem
      simp at mem
  · rw [if_pos takes] at whole
    by_contra taken
    have slots := kept.slot
    rw [if_neg taken] at slots
    obtain ⟨p, mem⟩ := List.exists_mem_of_length_pos (l := s.pending.filter (fun p => !p.moves))
      (by omega)
    obtain ⟨inside, timed⟩ := List.mem_filter.mp mem
    rw [← whole] at inside
    have moving := (List.mem_filter.mp inside).2
    simp [moving] at timed

theorem statement_line (s : Dialogue) (w : World) {word : Word} (rest : List UInt8)
    (statement : word.isQuestion = false) :
    s.line w word rest = { s with conn := s.conn.processCommand w word rest } := by
  unfold line
  rw [if_neg (by simp [statement]), (s.conn.statement_effect w word rest statement).1]
  simp

theorem statement_kept (kept : s.Kept) (w : World) {word : Word} (rest : List UInt8)
    (statement : word.isQuestion = false)
    (stays : s.conn.crashes word rest = true → s.pending = []) : (s.line w word rest).Kept := by
  obtain ⟨-, waitTargetMove, waitType, crashed⟩ := s.conn.statement_effect w word rest statement
  rw [statement_line s w rest statement]
  cases crashes : s.conn.crashes word rest with
  | false => exact kept.conn (by rw [crashed, crashes, Bool.or_false]) waitTargetMove waitType
  | true =>
    have empty := stays crashes
    refine ⟨⟨kept.ordered, by simp [empty]⟩, ?_⟩
    change _ = if (s.conn.processCommand w word rest).waitType = .none then 0 else 1
    rw [waitType]
    exact kept.slot

theorem notActive_conn (c : ConnExecute) : c.notActive.crashed = c.crashed ∧
    c.notActive.waitTargetMove = c.waitTargetMove ∧ c.notActive.waitType = c.waitType := by
  unfold ConnExecute.notActive
  split <;> exact ⟨rfl, rfl, rfl⟩

theorem nextCommand_conn (c : ConnExecute) : c.nextCommand.crashed = c.crashed ∧
    c.nextCommand.waitTargetMove = c.waitTargetMove ∧ c.nextCommand.waitType = c.waitType := by
  unfold ConnExecute.nextCommand
  split <;> exact ⟨rfl, rfl, rfl⟩

theorem step_up (up : s.conn.crashed = false) (e : DialogueEvent) : s.step e =
    match e with
    | .line w text => s.line w (readLine text).1 (readLine text).2
    | .move moved => s.late (s.conn.postEvent moved) true
    | .idle w => s.late (s.conn.idle w) false
    | .notActive => { s with conn := s.conn.notActive }
    | .nextCommand => { s with conn := s.conn.nextCommand } :=
  if_neg (by simp [up])

theorem step_down (down : s.conn.crashed = true) (e : DialogueEvent) : s.step e =
    match e with
    | .line _ text => { s with asked := s.asked + if (readLine text).1.isQuestion then 1 else 0 }
    | _ => s :=
  if_pos down

theorem move_kept (kept : s.Kept) (moved : Bool) (first : s.conn.waitTargetMove = true →
    ∃ p ∈ s.pending.head?, p.moves = true) : (s.late (s.conn.postEvent moved) true).Kept := by
  obtain ⟨told, crashed, waitTargetMove, waitType⟩ := postEvent_effect s.conn moved
  by_cases waits : s.conn.waitTargetMove = true
  · rw [if_pos waits] at told
    exact late_kept kept true told crashed waitTargetMove waitType (first waits)
  · rw [if_neg waits] at told
    rw [late_quiet s true (List.length_eq_zero_iff.mp told)]
    exact kept.conn crashed waitTargetMove waitType

theorem idle_kept (kept : s.Kept) (w : World) (first : s.conn.waitType ≠ .none →
    ∃ conn ∈ ConnExecute.getConnectionForScript w s.conn.waitDevice,
      (s.conn.waitReply w conn).isSome → ∃ p ∈ s.pending.head?, p.moves = false) :
    (s.late (s.conn.idle w) false).Kept := by
  have same (idle : s.conn.idle w = s.conn) : (s.late (s.conn.idle w) false).Kept := by
    rw [idle, late_quiet s false (finals_same rfl)]
    exact kept
  by_cases none_ : s.conn.waitType = .none
  · exact same (if_pos none_)
  · obtain ⟨conn, found, first⟩ := first none_
    have effect := idle_effect s.conn w found
    by_cases over_ : (s.conn.waitReply w conn).isSome
    · rw [if_pos ⟨none_, over_⟩] at effect
      obtain ⟨told, crashed, waitTargetMove, waitType⟩ := effect
      exact late_kept kept false told crashed waitTargetMove waitType (first over_)
    · rw [if_neg (fun h => over_ h.2)] at effect
      exact same effect

theorem step_kept (s : Dialogue) (e : DialogueEvent) (kept : s.Kept) (inTime : s.InTime e) :
    (s.step e).Kept := by
  cases crashed : s.conn.crashed with
  | true =>
    rw [step_down crashed]
    cases e with
    | line w text =>
      cases question : (readLine text).1.isQuestion with
      | true =>
        simp only [InTime, question, if_true, crashed, Bool.true_eq_false, false_and] at inTime
      | false =>
        simp only [question, Bool.false_eq_true, if_false, Nat.add_zero]
        exact kept
    | _ => exact kept
  | false =>
    rw [step_up crashed]
    cases e with
    | line w text =>
      cases question : (readLine text).1.isQuestion with
      | true =>
        simp only [InTime, question, if_true] at inTime
        obtain ⟨up, answers, alone, free⟩ := inTime
        exact question_kept kept w _ question up answers alone free
      | false =>
        simp only [InTime, question, Bool.false_eq_true, if_false] at inTime
        exact statement_kept kept w _ question (inTime crashed)
    | move moved => exact move_kept kept moved (inTime crashed)
    | idle w => exact idle_kept kept w (inTime crashed)
    | notActive =>
      obtain ⟨crashed, waitTargetMove, waitType⟩ := notActive_conn s.conn
      exact kept.conn crashed waitTargetMove waitType
    | nextCommand =>
      obtain ⟨crashed, waitTargetMove, waitType⟩ := nextCommand_conn s.conn
      exact kept.conn crashed waitTargetMove waitType

theorem step_inTime (s : Dialogue) (e : DialogueEvent) (kept : s.Kept) (next : (s.step e).InStep) :
    s.InTime e := by
  cases crashed : s.conn.crashed with
  | true =>
    rw [step_down crashed] at next
    cases e with
    | line w text =>
      simp only [InTime]
      cases question : (readLine text).1.isQuestion with
      | true =>
        have after := congrArg List.length next.ordered
        have before := congrArg List.length kept.ordered
        simp only [question, if_true, List.length_append, List.length_map,
          List.length_range] at after before
        omega
      | false => simp [crashed]
    | move moved => exact fun up => absurd up (by simp [crashed])
    | idle w => exact fun up => absurd up (by simp [crashed])
    | _ => trivial
  | false =>
    rw [step_up crashed] at next
    cases e with
    | line w text =>
      simp only [InTime]
      cases question : (readLine text).1.isQuestion with
      | true =>
        rw [if_pos rfl]
        exact ⟨crashed, question_inTime kept w _ question next⟩
      | false =>
        rw [if_neg (by simp)]
        intro _ crashes
        obtain ⟨-, -, -, gone⟩ := s.conn.statement_effect w _ (readLine text).2 question
        by_contra some_
        obtain ⟨p, mem⟩ := List.exists_mem_of_ne_nil _ some_
        simp only [statement_line s w _ question] at next
        have up := (next.due p mem).1
        rw [gone, crashes, Bool.or_true] at up
        contradiction
    | move moved =>
      intro _ waits
      obtain ⟨told, -⟩ := postEvent_effect s.conn moved
      rw [if_pos waits] at told
      exact (late_ordered kept true told).mp next.ordered
    | idle w =>
      intro _ waits
      have slots := kept.slot
      rw [if_neg waits] at slots
      cases found : ConnExecute.getConnectionForScript w s.conn.waitDevice with
      | none =>
        obtain ⟨p, mem⟩ := List.exists_mem_of_length_pos (l := s.pending.filter (fun p => !p.moves))
          (by omega)
        have gone : s.conn.idle w = s.conn.crash := by
          rw [ConnExecute.idle, if_neg waits, ConnExecute.checkWait, found]
        have no_final : finals s.conn s.conn.crash = [] := finals_same rfl
        simp only [gone, late_quiet s false no_final] at next
        exact absurd (next.due p (List.mem_filter.mp mem).1).1 (by simp [ConnExecute.crash])
      | some conn =>
        refine ⟨conn, rfl, fun over_ => ?_⟩
        have effect := idle_effect s.conn w found
        rw [if_pos ⟨waits, over_⟩] at effect
        exact (late_ordered kept false effect.1).mp next.ordered
    | _ => trivial

/-- In every run of a script each question has its one reply or waits for it, in the order of the
questions, and no reply is written without one, just when every step is in time. -/
theorem questions_answered_iff (es : List DialogueEvent) :
    (∀ done, done <+: es → (run step fresh done).InStep) ↔ Guarded step InTime fresh es :=
  prefixes_iff_guarded_enabled (fun _ kept => kept.toInStep)
    (fun s e kept _ => step_kept s e kept) (fun s e kept _ => step_inTime s e kept) fresh_kept
    (guarded_true step fresh es)

/-- The flag of wait_target_move stays on, and the end of the next move is answered once more. -/
theorem move_answered_twice : ¬ ∀ es : List DialogueEvent, ∀ done, done <+: es →
    (run step fresh done).InStep := by
  intro law
  have inStep := law [.line { worldAt 0 with target := some ⟨false, 1⟩ } (bytes "wait_target_move"),
    .move true, .move true] _ (List.prefix_refl _)
  exact absurd (congrArg List.length inStep.ordered) (by decide)

end Dialogue

end Rts2.External
