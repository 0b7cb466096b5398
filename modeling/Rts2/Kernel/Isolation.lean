import Rts2.Kernel.Sizes
import Rts2.Kernel.Messages

/-! The link to centrald, made again on the object of the old one. DevConnectionMaster has a
connectionError and an init of its own, and neither touches what the reader has kept. -/
namespace Rts2.Kernel

open Lib

universe u

variable {σ : Type u}

namespace Core

def idle (c : Core σ) (data chan : Int) : Core σ :=
  { c with activeReadData := data, activeReadChannel := chan }

section
variable (c : Core σ) (data chan : Int) {sub : Subclass σ}

@[simp] theorem idle_activeReadData : (c.idle data chan).activeReadData = data := rfl
@[simp] theorem idle_activeReadChannel : (c.idle data chan).activeReadChannel = chan := rfl
@[simp] theorem idle_readChannels : (c.idle data chan).readChannels = c.readChannels := rfl
@[simp] theorem idle_outer : (c.idle data chan).outer = c.outer := rfl
@[simp] theorem idle_log : (c.idle data chan).log = c.log := rfl

theorem idle_emit (e : Event) : (c.idle data chan).emit e = (c.emit e).idle data chan := rfl

theorem idle_setChannels (id : Int) (channels : Option DataChannels) :
    (c.idle data chan).setChannels id channels = (c.setChannels id channels).idle data chan := rfl

variable (link : sub.connClass = .devConnectionMaster)
include link

theorem idle_dropConnection :
    (c.idle data chan).dropConnection sub = (c.dropConnection sub).idle data chan := by
  simp only [dropConnection, connectionError, link]
  change (if c.connState = .broken then _ else _) = _
  split <;> rfl

theorem idle_refuse : (c.idle data chan).refuse sub = (c.refuse sub).idle (-1) chan := by
  have whole : (c.idle data chan).setActiveReadData (-1) =
    (c.setActiveReadData (-1)).idle (-1) chan := rfl
  rw [refuse, whole, idle_dropConnection _ _ _ link]
  rfl

theorem idle_react (result : σ × Effect) :
    (c.idle data chan).react sub result = (c.react sub result).idle data chan := by
  unfold react
  split
  · rfl
  · rfl
  · exact idle_dropConnection { c with outer := result.1 } data chan link

theorem idle_newDataConn (id : Int) :
    (c.idle data chan).newDataConn sub id = (c.newDataConn sub id).idle data chan := by
  simp only [newDataConn, idle_outer, idle_emit, idle_react _ _ _ link]
  split <;> rfl

theorem idle_fullDataReceived (id : Int) (channels : DataChannels) :
    (c.idle data chan).fullDataReceived sub id channels =
      (c.fullDataReceived sub id channels).idle data chan := by
  simp only [fullDataReceived, idle_outer, idle_emit, idle_react _ _ _ link]
  split <;> rfl

end

end Core

/-- Two readers that tell each other apart by the ids of a chunk none of them reads. -/
inductive Alike (c : Core σ) : Core σ → Prop
  | same : Alike c c
  | idle {data chan : Int} (waits : c.activeReadData < 0) (waits' : data < 0) :
    Alike c (c.idle data chan)

def CrashAlike (crash crash' : Crash σ) : Prop :=
  crash.fault = crash'.fault ∧ Alike crash.core crash'.core

abbrev EndAlike : Except (Crash σ) (Core σ) → Except (Crash σ) (Core σ) → Prop :=
  Both Alike CrashAlike

theorem endAlike_refl (result : Except (Crash σ) (Core σ)) : EndAlike result result :=
  both_refl (fun _ => .same) (fun _ => ⟨rfl, .same⟩) result

theorem paramNextNumber_default (convert : Int → Int) (enddelim : List UInt8) (num num' : Int)
    (text : List UInt8) :
    (∃ value known rest, paramNextNumber convert enddelim num text = (value, known, rest) ∧
      paramNextNumber convert enddelim num' text = (value, known, rest)) ∨
    (paramNextNumber convert enddelim num text = (num, false, text) ∧
      paramNextNumber convert enddelim num' text = (num', false, text)) := by
  unfold paramNextNumber
  split
  · exact .inr ⟨rfl, rfl⟩
  · exact .inl ⟨_, _, _, rfl, rfl⟩

section
variable (sub : Subclass σ) (link : sub.connClass = .devConnectionMaster) {c : Core σ}
  (waits : c.activeReadData < 0) {data : Int} (waits' : data < 0) (chan : Int)
  (params : List UInt8)
include link waits waits'

theorem binaryCommand_idle :
    EndAlike (binaryCommand sub c params) (binaryCommand sub (c.idle data chan) params) := by
  unfold binaryCommand
  split
  · rw [Core.idle_refuse _ _ _ link]
    exact .idle (Core.refuse_negative sub c) (by decide)
  · split
    · exact ⟨rfl, .idle waits waits'⟩
    · rw [Core.idle_setChannels, Core.idle_newDataConn _ _ _ link]
      exact .idle (Core.newDataConn_negative sub _ _ waits) waits'

omit waits waits' in
theorem dataCommand_idle :
    EndAlike (dataCommand sub c params) (dataCommand sub (c.idle data chan) params) := by
  have refused (chan' : Int) : Alike (c.refuse sub) ((c.idle data chan').refuse sub) := by
    rw [Core.idle_refuse _ _ _ link]
    exact .idle (Core.refuse_negative sub c) (by decide)
  unfold dataCommand
  rcases paramNextNumber_default intOfLong [44] c.activeReadData data params with
    ⟨id, known, rest, read, read'⟩ | ⟨read, read'⟩
  · simp only [paramNextInteger, Core.idle_activeReadData, read, read']
    cases known with
    | false => exact refused chan
    | true =>
      rcases paramNextNumber_default intOfLong [44] c.activeReadChannel chan rest with
        ⟨chan', known, rest, read, read'⟩ | ⟨read, read'⟩
      · simp only [Core.idle_activeReadChannel, read, read']
        -- both ids are new, and the states the same
        cases known with
        | false => exact .same
        | true => exact endAlike_refl _
      · simp only [Core.idle_activeReadChannel, read, read']
        exact refused chan
  · simp only [paramNextInteger, Core.idle_activeReadData, read, read']
    exact refused chan

theorem binaryKilledCommand_idle :
    Alike (binaryKilledCommand sub c params) (binaryKilledCommand sub (c.idle data chan) params) := by
  unfold binaryKilledCommand
  split
  · rw [Core.idle_dropConnection _ _ _ link]
    exact .idle (Core.connectionError_negative sub c waits) waits'
  · simp only [Core.idle_readChannels]
    split
    · exact .idle waits waits'
    · rw [Core.idle_fullDataReceived _ _ _ link, Core.idle_setChannels]
      exact .idle (Core.fullDataReceived_negative sub _ _ _ waits) waits'

theorem sharedEndCommand_idle :
    EndAlike (sharedEndCommand sub c params) (sharedEndCommand sub (c.idle data chan) params) := by
  have dropped : Alike (c.dropConnection sub) ((c.idle data chan).dropConnection sub) := by
    rw [Core.idle_dropConnection _ _ _ link]
    exact .idle (Core.connectionError_negative sub c waits) waits'
  unfold sharedEndCommand
  split
  · exact dropped
  · split
    · exact dropped
    · simp only [Core.idle_readChannels, Core.idle_fullDataReceived _ _ _ link, Core.idle_setChannels]
      split
      · exact .idle waits waits'
      · have told (id : Int) (channels : DataChannels) :
            (c.fullDataReceived sub id channels).activeReadData < 0 :=
          Core.fullDataReceived_negative sub _ _ _ waits
        split
        · exact .idle (told _ _) waits'
        · exact ⟨rfl, .idle (told _ _) waits'⟩

theorem processLine_idle (text : List UInt8) :
    EndAlike (processLine sub c text) (processLine sub (c.idle data chan) text) := by
  have waits : (c.emit (.line text)).activeReadData < 0 := waits
  unfold processLine
  simp only [Core.idle_emit, Core.idle_outer]
  split_ifs
  · exact binaryCommand_idle sub link waits waits' chan _
  · exact dataCommand_idle sub link chan _
  · exact binaryKilledCommand_idle sub link waits waits' chan _
  · simp only [sharedCommand, Core.idle_dropConnection _ _ _ link]
    exact .idle (Core.connectionError_negative sub _ waits) waits'
  · exact sharedEndCommand_idle sub link waits waits' chan _
  · rw [Core.idle_react _ _ _ link]
    exact .idle (Core.react_negative sub _ _ waits) waits'

end

section
variable (sub : Subclass σ) (link : sub.connClass = .devConnectionMaster) {c c' : Core σ}
  (alike : Alike c c')
include link alike

theorem dropConnection_alike : Alike (c.dropConnection sub) (c'.dropConnection sub) := by
  cases alike with
  | same => exact .same
  | idle waits waits' =>
    rw [Core.idle_dropConnection _ _ _ link]
    exact .idle (Core.connectionError_negative sub c waits) waits'

theorem processLine_alike (text : List UInt8) :
    EndAlike (processLine sub c text) (processLine sub c' text) := by
  cases alike with
  | same => exact endAlike_refl _
  | idle waits waits' => exact processLine_idle sub link waits waits' _ text

theorem lineStep_alike (text rest : List UInt8) :
    Both (fun a b => Alike a.1 b.1 ∧ a.2 = b.2) CrashAlike (lineStep sub c text rest)
      (lineStep sub c' text rest) := by
  have line := processLine_alike sub link alike text
  unfold lineStep
  cases ran : processLine sub c text <;> cases ran' : processLine sub c' text <;>
    rw [ran, ran'] at line
  · exact line
  · contradiction
  · contradiction
  · cases line with
    | same => exact both_refl (fun _ => ⟨.same, rfl⟩) (fun _ => ⟨rfl, .same⟩) _
    | idle waits waits' =>
      simp only [Core.idle_activeReadData, not_le.mpr waits, not_le.mpr waits', if_false]
      exact ⟨.idle waits waits', rfl⟩

theorem processLoop_alike (bytes : List UInt8) :
    Both (fun a b => Alike a.1 b.1 ∧ a.2 = b.2) CrashAlike (processLoop sub c bytes)
      (processLoop sub c' bytes) := by
  generalize size : bytes.length = n
  induction n using Nat.strong_induction_on generalizing bytes c c' with
  | _ n ih =>
  subst size
  cases found : scan bytes with
  | kept text =>
    rw [processLoop_kept sub c found, processLoop_kept sub c' found]
    exact ⟨alike, rfl⟩
  | lost rest =>
    rw [processLoop_lost sub c found, processLoop_lost sub c' found]
    exact ih _ ((scan_length bytes).1 rest found) alike rest rfl
  | line text rest =>
    have line := lineStep_alike sub link alike text rest
    have shorter := (scan_length bytes).2 text rest found
    rw [processLoop_line sub c found, processLoop_line sub c' found]
    cases ran : lineStep sub c text rest <;> cases ran' : lineStep sub c' text rest <;>
      rw [ran, ran'] at line
    · exact line
    · contradiction
    · contradiction
    · rename_i ended ended'
      obtain ⟨core, left⟩ := ended
      obtain ⟨core', left'⟩ := ended'
      obtain ⟨next, rfl⟩ : Alike core core' ∧ left = left' := line
      have length := lineStep_length ran
      exact ih _ (by omega) next _ rfl

end

/-- Readers with the same text and channels; the buffers may be of different sizes. -/
structure ReaderAlike (r r' : Reader σ) : Prop where
  core : Alike r.core r'.core
  buf : r.buf = r'.buf

theorem receiveText_alike (sub : Subclass σ) (link : sub.connClass = .devConnectionMaster)
    {r r' : Reader σ} (alike : ReaderAlike r r') (result : ReadResult) :
    Both ReaderAlike CrashAlike (receiveText sub r result) (receiveText sub r' result) := by
  unfold receiveText
  cases result with
  | data bytes =>
    have loop := processLoop_alike sub link alike.core (r'.buf ++ bytes)
    simp only [processBuffer, checkBufferSize_core, checkBufferSize_buf, alike.buf]
    cases ran : processLoop sub r.core (r'.buf ++ bytes) <;>
      cases ran' : processLoop sub r'.core (r'.buf ++ bytes) <;> rw [ran, ran'] at loop
    · exact loop
    · contradiction
    · contradiction
    · exact ⟨loop.1, loop.2⟩
  | eof | failed =>
    refine ⟨?_, by simpa using alike.buf⟩
    simpa using dropConnection_alike sub link alike.core
  | interrupted => exact ⟨by simpa using alike.core, by simpa using alike.buf⟩

theorem receive_alike (sub : Subclass σ) (link : sub.connClass = .devConnectionMaster)
    {r r' : Reader σ} (alike : ReaderAlike r r') (result : ReadResult) :
    Both ReaderAlike CrashAlike (receive sub r result) (receive sub r' result) := by
  have text := receiveText_alike sub link alike result
  obtain ⟨core, buf⟩ := alike
  obtain ⟨c', _, _⟩ := r'
  unfold receive
  dsimp only at core buf ⊢
  cases core with
  | same =>
    split
    · exact ⟨.same, buf⟩
    · split
      · cases receiveBinary sub r.core result with
        | ok c => exact ⟨.same, buf⟩
        | error crash => exact ⟨rfl, .same⟩
      · exact text
  | @idle data chan waits waits' =>
    have readable : (r.core.idle data chan).readable ↔ r.core.readable := Iff.rfl
    simp only [readable, Core.idle_activeReadData, not_le.mpr waits, not_le.mpr waits', if_false]
    split
    · exact ⟨.idle waits waits', buf⟩
    · exact text

/-- DevConnectionMaster::init has a new socket. -/
def Reader.init (r : Reader σ) : Reader σ :=
  { r with core := { r.core with connState := .inprogress, sock := true } }

/-- DevConnectionMaster::connConnected, as the reader sees it. -/
def Reader.connConnected (r : Reader σ) : Reader σ :=
  { r with core := { r.core with connState := .authPending } }

def relink (sub : Subclass σ) (r : Reader σ) (outer : σ) : Reader σ :=
  { r with core := { r.core.connectionError sub with outer := outer } }.init.connConnected

inductive LinkEvent (σ : Type u) where
  | read (result : ReadResult)
  | relink (outer : σ)

def linkStep (sub : Subclass σ) (r : Reader σ) : LinkEvent σ → Except (Crash σ) (Reader σ)
  | .read result => receive sub r result
  | .relink outer => .ok (relink sub r outer)

def linkReady (r : Reader σ) : LinkEvent σ → Prop
  | .read result => ReadOf r result
  | .relink _ => True

instance (r : Reader σ) : ∀ event : LinkEvent σ, Decidable (linkReady r event)
  | .read result => inferInstanceAs (Decidable (ReadOf r result))
  | .relink _ => isTrue trivial

def Reader.unlinked (outer : σ) : Reader σ :=
  { Reader.fresh outer with core := { Core.fresh outer with connState := .broken, sock := false } }

def anew (r : Reader σ) (outer : σ) : Reader σ :=
  { Reader.fresh outer with
    core := { Core.fresh outer with connState := .authPending, log := r.core.log } }

def Event.acts : Event → Bool
  | .named .. | .header .. => false
  | .line _ | .stored .. | .newDataConn _ | .dataReceived .. | .fullDataReceived .. => true

def actions (result : Except (Crash σ) (Reader σ)) : List Event :=
  (lastCore result).log.filter Event.acts

def Drained (r : Reader σ) : Prop :=
  r.buf = [] ∧ r.core.activeReadData < 0 ∧ ∀ id, r.core.readChannels id = none

structure Linked (r : Reader σ) : Prop where
  held : Held (fun _ => True) (fun _ => True) r.core
  pending : Pending r.buf
  size : r.buf.length ≤ r.bufSize
  room : maxData ≤ r.bufSize

theorem any_discipline : Discipline (fun _ => True) (fun _ => True) (fun _ => True) where
  earlier := fun _ _ => trivial
  new := fun _ _ => trivial
  closed := fun _ _ _ => trivial
  chosen := fun _ _ _ => trivial
  store := fun _ _ _ => ⟨trivial, trivial⟩

theorem processLoop_pending (sub : Subclass σ) {c c' : Core σ} {bytes kept : List UInt8}
    (ran : processLoop sub c bytes = .ok (c', kept)) :
    Pending kept ∧ kept.length ≤ bytes.length := by
  generalize size : bytes.length = n
  induction n using Nat.strong_induction_on generalizing bytes c with
  | _ n ih =>
  subst size
  cases found : scan bytes with
  | kept text =>
    rw [processLoop_kept sub c found] at ran
    cases ran
    exact scan_kept found
  | lost rest =>
    have shorter := (scan_length bytes).1 rest found
    rw [processLoop_lost sub c found] at ran
    obtain ⟨pending, length⟩ := ih _ shorter ran rfl
    exact ⟨pending, by omega⟩
  | line text rest =>
    have shorter := (scan_length bytes).2 text rest found
    rw [processLoop_line sub c found] at ran
    split at ran
    · contradiction
    · rename_i done
      have left := lineStep_length done
      obtain ⟨pending, length⟩ := ih _ (by omega) ran rfl
      exact ⟨pending, by omega⟩

theorem receiveText_pending (sub : Subclass σ) {r r' : Reader σ} {result : ReadResult}
    (linked : Linked r) (idle : r.core.activeReadData < 0) (wellRead : ReadOf r result)
    (ran : receiveText sub r result = .ok r') :
    Pending r'.buf ∧ r'.buf.length ≤ r'.bufSize ∧ maxData ≤ r'.bufSize := by
  obtain ⟨some_room, grown⟩ := checkBufferSize_room linked.size
  have room := linked.room
  have same : Pending (checkBufferSize r).buf ∧
      (checkBufferSize r).buf.length ≤ (checkBufferSize r).bufSize ∧
      maxData ≤ (checkBufferSize r).bufSize := by
    rw [checkBufferSize_buf]
    exact ⟨linked.pending, by omega, by omega⟩
  unfold receiveText at ran
  cases result with
  | data bytes =>
    have within := wellRead.2
    simp only [requested, not_le.mpr idle, if_false] at within
    simp only [processBuffer, checkBufferSize_core, checkBufferSize_buf] at ran
    split at ran
    · contradiction
    · rename_i kept loop
      cases ran
      obtain ⟨pending, length⟩ := processLoop_pending sub loop
      rw [List.length_append] at length
      exact ⟨pending, by dsimp only; omega, by dsimp only; omega⟩
  | eof | failed =>
    cases ran
    exact same
  | interrupted =>
    cases ran
    exact same

theorem receive_linked (sub : Subclass σ) {r : Reader σ} {result : ReadResult} (linked : Linked r)
    (wellRead : ReadOf r result) :
    Ends Linked (fun _ => True) (receive sub r result) := by
  have kept := receive_kept sub any_discipline linked.held wellRead
  cases ran : receive sub r result with
  | error crash => exact trivial
  | ok r' =>
    rw [ran] at kept
    have held := kept trivial
    unfold receive at ran
    split at ran
    · cases ran
      exact linked
    · split at ran
      · split at ran
        · contradiction
        · cases ran
          exact ⟨held, linked.pending, linked.size, linked.room⟩
      · obtain ⟨pending, size, room⟩ := receiveText_pending sub linked (by omega) wellRead ran
        exact ⟨held, pending, size, room⟩

section
variable (sub : Subclass σ) (link : sub.connClass = .devConnectionMaster) (r : Reader σ) (outer : σ)
include link

theorem relink_eq : relink sub r outer =
    { r with core := { r.core with connState := .authPending, sock := true, outer := outer } } := by
  simp only [relink, Reader.init, Reader.connConnected, Core.connectionError, link]
  split <;> rfl

theorem relink_linked (linked : Linked r) : Linked (relink sub r outer) := by
  rw [relink_eq sub link]
  refine ⟨⟨linked.held.all, fun active => ?_⟩, linked.pending, linked.size, linked.room⟩
  obtain ⟨channels, d, found, rest⟩ := linked.held.active active
  have present := activeChannel_ok.mp found
  exact ⟨channels, d, activeChannel_ok.mpr present, rest⟩

theorem relink_readable : (relink sub r outer).core.readable := by
  rw [relink_eq sub link]
  exact ⟨by simp, rfl, by simp⟩

theorem relink_alike (drained : Drained r) : ReaderAlike (anew r outer) (relink sub r outer) := by
  obtain ⟨empty, waits, closed⟩ := drained
  have channels : r.core.readChannels = fun _ => none := funext closed
  rw [relink_eq sub link]
  constructor
  · have same : ({ r.core with connState := .authPending, sock := true, outer := outer } : Core σ) =
        (anew r outer).core.idle r.core.activeReadData r.core.activeReadChannel := by
      simp only [anew, Core.fresh, Core.idle, channels]
    dsimp only
    rw [same]
    exact .idle (by simp [anew, Core.fresh]) waits
  · exact empty.symm

end

theorem filter_longer {K : Event → Prop} {log log' : List Event} {e : Event} (acts : e.acts = true)
    (grown : Grows K (log ++ [e]) log') :
    (log.filter Event.acts).length < (log'.filter Event.acts).length := by
  obtain ⟨more, rfl, _⟩ := grown
  simp only [List.filter_append, List.filter_cons, acts, if_true, List.filter_nil,
    List.length_append, List.length_cons, List.length_nil]
  omega

def Shows (sub : Subclass σ) (r : Reader σ) (outer : σ) : Prop :=
  ∃ result, ReadOf (relink sub r outer) result ∧
    actions (receive sub (relink sub r outer) result) ≠ actions (receive sub (anew r outer) result)

section
variable (sub : Subclass σ) (r : Reader σ) (outer : σ)

theorem anew_readable : (anew r outer).core.readable := ⟨by simp [anew], rfl, by simp [anew]⟩

theorem anew_text (result : ReadResult) :
    receive sub (anew r outer) result = receiveText sub (anew r outer) result := by
  have readable := anew_readable r outer
  have waits : ¬ 0 ≤ (anew r outer).core.activeReadData := by simp [anew, Core.fresh]
  simp only [receive, readable, not_true_eq_false, waits, if_false]

theorem anew_kept {bytes text : List UInt8} (kept : scan bytes = .kept text) :
    actions (receive sub (anew r outer) (.data bytes)) = r.core.log.filter Event.acts := by
  have loop := processLoop_kept sub (anew r outer).core kept
  rw [anew_text, receiveText, processBuffer]
  simp only [checkBufferSize_core, checkBufferSize_buf]
  have empty : (anew r outer).buf = [] := rfl
  rw [empty, List.nil_append, loop]
  rfl

variable (link : sub.connClass = .devConnectionMaster) (linked : Linked r)
include link linked

theorem chunk_shows (active : 0 ≤ r.core.activeReadData) : Shows sub r outer := by
  have readable := relink_readable sub link r outer
  have again := relink_linked sub link r outer linked
  have active : 0 ≤ (relink sub r outer).core.activeReadData := by
    rw [relink_eq sub link]
    exact active
  obtain ⟨channels, d, found, _, positive⟩ := again.held.active active
  refine ⟨.data [97], ⟨by simp, ?_⟩, ?_⟩
  · simp only [requested, active, if_true, found, List.length_singleton]
    omega
  · obtain ⟨c', told, _⟩ := stored_continues (Q := fun _ => True) (e := d.getData [97]) sub
      again.held.all found trivial [97]
    have ran : receive sub (relink sub r outer) (.data [97]) =
        .ok { relink sub r outer with core := c' } := by
      simp only [receive, readable, not_true_eq_false, if_false, active, if_true, receiveBinary,
        found, told]
    have log := dataReceived_told sub ((relink sub r outer).core.stored channels (d.getData [97])
      [97]) active
    rw [told] at log
    have past : (relink sub r outer).core.log = r.core.log := by rw [relink_eq sub link]
    have grown : Grows Event.Told (r.core.log ++ [.stored (relink sub r outer).core.activeReadData
        (relink sub r outer).core.activeReadChannel 97]) c'.log := past ▸ log
    rw [ran, anew_kept sub r outer (show scan [97] = .kept [97] by decide)]
    intro same
    have longer := filter_longer rfl grown
    rw [← same] at longer
    exact absurd longer (lt_irrefl _)

omit linked in
theorem relink_line (waits : r.core.activeReadData < 0) {bytes text rest : List UInt8}
    (found : scan (r.buf ++ bytes) = .line text rest) :
    receive sub (relink sub r outer) (.data bytes) =
      match lineStep sub (relink sub r outer).core text rest with
      | .error crash => .error crash
      | .ok (c, left) => processBuffer sub
          { checkBufferSize (relink sub r outer) with core := c, buf := left } := by
  have readable := relink_readable sub link r outer
  have waits : ¬ 0 ≤ (relink sub r outer).core.activeReadData := by
    rw [relink_eq sub link]
    exact not_le.mpr waits
  have kept : (relink sub r outer).buf = r.buf := by rw [relink_eq sub link]
  simp only [receive, readable, not_true_eq_false, if_false, waits, receiveText, processBuffer,
    checkBufferSize_core, checkBufferSize_buf, kept, processLoop_line sub _ found]
  cases lineStep sub (relink sub r outer).core text rest with
  | error crash => rfl
  | ok result => rfl

omit linked in
theorem relink_line_log (waits : r.core.activeReadData < 0) {bytes text rest : List UInt8}
    (found : scan (r.buf ++ bytes) = .line text rest) :
    Grows Event.Told (r.core.log ++ [.line text])
      (lastCore (receive sub (relink sub r outer) (.data bytes))).log := by
  have past : (relink sub r outer).core.log = r.core.log := by rw [relink_eq sub link]
  have line := lineStep_log sub (relink sub r outer).core text rest
  rw [Core.emit_log, past] at line
  rw [relink_line sub r outer link waits found]
  cases ran : lineStep sub (relink sub r outer).core text rest with
  | error crash =>
    rw [ran] at line
    exact line
  | ok result =>
    rw [ran] at line
    have loop := Extends.trans line (processLoop_log sub result.1 result.2)
    unfold processBuffer
    dsimp only
    cases ended : processLoop sub result.1 result.2 <;> rw [ended] at loop <;> exact loop

theorem text_shows (waits : r.core.activeReadData < 0) (left : r.buf ≠ []) :
    Shows sub r outer := by
  have again := relink_linked sub link r outer linked
  have kept : (relink sub r outer).buf = r.buf := by rw [relink_eq sub link]
  have closed : ¬ 0 ≤ (relink sub r outer).core.activeReadData := by
    rw [relink_eq sub link]
    exact not_le.mpr waits
  have full := linked.pending.full left
  have found : scan (r.buf ++ [10]) = .line (lineText r.buf) [] := by
    rw [scan_lf linked.pending, if_neg full]
  refine ⟨.data [10], ⟨by simp, ?_⟩, ?_⟩
  · have room := (checkBufferSize_room again.size).1
    simp only [requested, closed, if_false, List.length_singleton]
    omega
  · intro same
    have longer := filter_longer rfl (relink_line_log sub r outer link waits found)
    have fresh := anew_kept sub r outer (show scan [10] = .kept [] by decide)
    rw [← fresh, ← same] at longer
    exact absurd longer (lt_irrefl _)

def killedMessage (id : Int) : List UInt8 := protoBinaryKilled ++ fields [id]

omit link linked in
theorem processLine_killed (c : Core σ) {id : Int} (int : IsInt id) :
    processLine sub c (killedMessage id) = .ok
      (match c.readChannels id with
      | none => c.emit (.line (killedMessage id))
      | some channels => ((c.emit (.line (killedMessage id))).fullDataReceived sub id channels
          ).setChannels id none) := by
  obtain ⟨command, params⟩ : (killedMessage id).takeWhile (!isSpace ·) = protoBinaryKilled ∧
      ((killedMessage id).dropWhile (!isSpace ·)).tail = decimalInt id ++ fields [] :=
    message_split 72 id [] (by decide)
  have number := paramNextInteger_decimalInt 0 (fields []) int (fields_atBlank [])
  have other : protoBinaryKilled ≠ protoBinary ∧ protoBinaryKilled ≠ protoData := by decide
  cases known : c.readChannels id with
  | none =>
    simp only [processLine, command, params, other, if_false, if_true, binaryKilledCommand, number,
      Core.emit_readChannels, known]
  | some channels =>
    simp only [processLine, command, params, other, if_false, if_true, binaryKilledCommand, number,
      Core.emit_readChannels, known]

omit link linked in
theorem killedMessage_line (id : Int) :
    scan (killedMessage id ++ [10]) = .line (killedMessage id) [] := by
  have word := message_word 72 [id] (by decide) (by decide)
  have found := scan_lf (.text word) []
  rw [lineText_word word, if_neg word.nonempty] at found
  exact found

omit link linked in
theorem lineStep_killed {c : Core σ} {id : Int} (int : IsInt id) (waits : c.activeReadData < 0) :
    lineStep sub c (killedMessage id) [] = .ok
      (match c.readChannels id with
      | none => c.emit (.line (killedMessage id))
      | some channels => ((c.emit (.line (killedMessage id))).fullDataReceived sub id channels
          ).setChannels id none, []) := by
  rw [lineStep, processLine_killed sub c int]
  cases c.readChannels id with
  | none =>
    have closed : ¬ 0 ≤ (c.emit (.line (killedMessage id))).activeReadData := not_le.mpr waits
    simp only [closed, if_false]
  | some channels =>
    have negative := Core.fullDataReceived_negative sub (c.emit (.line (killedMessage id))) id
      channels waits
    simp only [Core.setChannels_activeReadData, not_le.mpr negative, if_false]

theorem channels_show (told : ∀ s, sub.otherDevice s = true) (waits : r.core.activeReadData < 0)
    (empty : r.buf = []) {id : Int} {channels : DataChannels}
    (known : r.core.readChannels id = some channels) : Shows sub r outer := by
  have again := relink_linked sub link r outer linked
  have int : IsInt id := (linked.held.all id channels known).1
  have line := killedMessage_line id
  have kept : (relink sub r outer).core.readChannels id = some channels ∧
      (relink sub r outer).core.activeReadData < 0 ∧ (relink sub r outer).core.log = r.core.log ∧
      (relink sub r outer).buf = [] := by
    rw [relink_eq sub link]
    exact ⟨known, waits, rfl, empty⟩
  obtain ⟨known, negative, past, blank⟩ := kept
  refine ⟨.data (killedMessage id ++ [10]), ⟨by simp, ?_⟩, ?_⟩
  · obtain ⟨_, grown⟩ := checkBufferSize_room again.size
    have room := again.room
    have short : (killedMessage id ++ [10]).length ≤ maxData := by
      have digits : (decimalInt id).length ≤ 11 := decimalInt_length (k := 10) (by decide) (by
        unfold IsInt at int
        omega)
      simp only [killedMessage, protoBinaryKilled, fields_cons, List.length_append,
        List.length_cons, List.length_nil, maxData, show fields [] = [] from rfl]
      omega
    simp only [requested, not_le.mpr negative, if_false, blank, List.length_nil]
    omega
  · have first : actions (receive sub (relink sub r outer) (.data (killedMessage id ++ [10]))) =
        (r.core.log ++ [Event.line (killedMessage id), Event.fullDataReceived id channels]).filter
          Event.acts := by
      rw [relink_line sub r outer link waits (by rw [empty]; exact line),
        lineStep_killed sub int negative, known]
      dsimp only
      rw [processBuffer, processLoop_kept sub _ rfl]
      simp only [actions, lastCore, Core.setChannels_log,
        Core.fullDataReceived_log sub _ id channels (told _), Core.emit_log, past,
        List.append_assoc, List.singleton_append]
    have second : actions (receive sub (anew r outer) (.data (killedMessage id ++ [10]))) =
        (r.core.log ++ [Event.line (killedMessage id)]).filter Event.acts := by
      have closed : (anew r outer).core.readChannels id = none := rfl
      rw [anew_text, receiveText, processBuffer]
      simp only [checkBufferSize_core, checkBufferSize_buf]
      rw [show (anew r outer).buf = [] from rfl, List.nil_append, processLoop_line sub _ line,
        lineStep_killed sub int (by simp [anew, Core.fresh]), closed]
      dsimp only
      rw [processLoop_kept sub _ rfl]
      rfl
    rw [first, second]
    intro same
    have lengths := congrArg List.length same
    simp [List.filter_append, List.filter_cons, Event.acts] at lengths

end

theorem run_linked (sub : Subclass σ) (link : sub.connClass = .devConnectionMaster) {start : σ}
    {events : List (LinkEvent σ)} {r : Reader σ}
    (ready : Ready (linkStep sub) linkReady (Reader.unlinked start) events)
    (reached : feedAll (linkStep sub) (Reader.unlinked start) events = .ok r) : Linked r := by
  have initial : Linked (Reader.unlinked start) := by
    refine ⟨⟨by simp [AllChannels, Reader.unlinked, Core.fresh], ?_⟩, .none, ?_, le_refl _⟩
    · simp [Reader.unlinked, Core.fresh]
    · simp [Reader.unlinked, Reader.fresh]
  have kept (r : Reader σ) (event : LinkEvent σ) (linked : Linked r) (ready : linkReady r event) :
      Ends Linked (fun _ => True) (linkStep sub r event) := by
    cases event with
    | read result => exact receive_linked sub linked ready
    | relink outer => exact relink_linked sub link r outer linked
  have run := feedAll_invariant (linkStep sub) linkReady Linked (fun _ => True) kept events
    (Reader.unlinked start) initial ready
  rw [reached] at run
  exact run

theorem feedAll_one {r : Reader σ} (sub : Subclass σ) (result : ReadResult) :
    feedAll (receive sub) r [result] = receive sub r result := by
  simp [feedAll]

/-- The new socket is read as a new connection would read it if and only if the old one left
nothing behind, whatever it has sent and however often the link was made before. -/
theorem relink_isolated_iff (sub : Subclass σ) (link : sub.connClass = .devConnectionMaster)
    (told : ∀ s, sub.otherDevice s = true) (start outer : σ) (events : List (LinkEvent σ))
    (r : Reader σ) (ready : Ready (linkStep sub) linkReady (Reader.unlinked start) events)
    (reached : feedAll (linkStep sub) (Reader.unlinked start) events = .ok r) :
    (∀ reads, Ready (receive sub) ReadOf (relink sub r outer) reads →
      actions (feedAll (receive sub) (relink sub r outer) reads) =
        actions (feedAll (receive sub) (anew r outer) reads)) ↔ Drained r := by
  have linked := run_linked sub link ready reached
  constructor
  · intro isolated
    by_contra stale
    have shows : Shows sub r outer := by
      by_cases active : 0 ≤ r.core.activeReadData
      · exact chunk_shows sub r outer link linked active
      · by_cases empty : r.buf = []
        · have opened : ∃ id channels, r.core.readChannels id = some channels := by
            by_contra none
            simp only [not_exists] at none
            refine stale ⟨empty, by omega, fun id => ?_⟩
            exact Option.eq_none_iff_forall_ne_some.mpr (none id)
          obtain ⟨id, channels, known⟩ := opened
          exact channels_show sub r outer link linked told (by omega) empty known
        · exact text_shows sub r outer link linked (by omega) empty
    obtain ⟨result, wellRead, differs⟩ := shows
    have same := isolated [result] ⟨wellRead, by split <;> trivial⟩
    rw [feedAll_one, feedAll_one] at same
    exact differs same
  · intro drained reads _
    have both := feedAll_both (receive sub) ReaderAlike CrashAlike
      (fun r r' result alike => receive_alike sub link alike result) reads _ _
      (relink_alike sub link r outer drained)
    have past {c c' : Core σ} (alike : Alike c c') : c'.log = c.log := by
      cases alike <;> rfl
    unfold actions
    cases ended : feedAll (receive sub) (anew r outer) reads <;>
      cases ended' : feedAll (receive sub) (relink sub r outer) reads <;>
      rw [ended, ended'] at both
    · simp only [lastCore, past both.2]
    · contradiction
    · contradiction
    · simp only [lastCore, past both.core]

def Subclass.link : Subclass Unit := { Subclass.passive with connClass := .devConnectionMaster }

/-- A socket that is closed before it sent anything. -/
theorem relink_isolated_sample :
    ∃ r, feedAll (linkStep Subclass.link) (Reader.unlinked ()) [.relink (), .read .eof] = .ok r ∧
      ∀ reads, Ready (receive Subclass.link) ReadOf (relink Subclass.link r ()) reads →
        actions (feedAll (receive Subclass.link) (relink Subclass.link r ()) reads) =
          actions (feedAll (receive Subclass.link) (anew r ()) reads) :=
  ⟨_, rfl, (relink_isolated_iff Subclass.link rfl (fun _ => rfl) () () [.relink (), .read .eof] _
    ⟨trivial, trivial, trivial⟩ rfl).mpr ⟨rfl, by decide, fun _ => rfl⟩⟩

/-- The line "ab" has not ended when the link breaks: it goes on with the bytes of the new
socket. -/
theorem relink_half_line :
    ¬ ∀ (events : List (LinkEvent Unit)) (r : Reader Unit) (reads : List ReadResult),
      Ready (linkStep Subclass.link) linkReady (Reader.unlinked ()) events →
      feedAll (linkStep Subclass.link) (Reader.unlinked ()) events = .ok r →
      Ready (receive Subclass.link) ReadOf (relink Subclass.link r ()) reads →
      actions (feedAll (receive Subclass.link) (relink Subclass.link r ()) reads) =
        actions (feedAll (receive Subclass.link) (anew r ()) reads) := by
  intro isolated
  have left : (feedAll (linkStep Subclass.link) (Reader.unlinked ())
      [.relink (), .read (.data [97, 98])]).toOption.map
        (fun r => (r.buf, r.core.activeReadData)) = some ([97, 98], -1) := by
    decide +kernel
  have ready : Ready (linkStep Subclass.link) linkReady (Reader.unlinked ())
      [.relink (), .read (.data [97, 98])] := by
    decide +kernel
  cases reached : feedAll (linkStep Subclass.link) (Reader.unlinked ())
      [.relink (), .read (.data [97, 98])] with
  | error crash => simp [reached, Except.toOption] at left
  | ok r =>
    obtain ⟨buf, waits⟩ : r.buf = [97, 98] ∧ r.core.activeReadData = -1 := by
      simpa [reached, Except.toOption] using left
    have linked := run_linked Subclass.link rfl ready reached
    obtain ⟨result, wellRead, differs⟩ :=
      text_shows Subclass.link r () rfl linked (by omega) (by simp [buf])
    have same := isolated _ r [result] ready reached ⟨wellRead, by split <;> trivial⟩
    rw [feedAll_one, feedAll_one] at same
    exact differs same

end Rts2.Kernel
