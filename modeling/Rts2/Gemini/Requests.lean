import Rts2.Lib.Run

/-! What one thread asks of the thread that talks to a Gemini mount: a goto or a query, each through one slot that all calls
share. Every section under the mutex is one step. -/
namespace Rts2.Gemini

open Lib

inductive GotoSideMode where
  | anySide | keepSide | flip
  deriving DecidableEq

/-- `X` are coordinates. -/
structure Goto (X : Type) where
  ra : X
  dec : X
  sideMode : GotoSideMode
  deriving DecidableEq

inductive SideOutcome where
  | unknown | stay | flip | refuse
  deriving DecidableEq

/-- Which side of the pier a goto ends on, and whether it is too close to tell. -/
structure SidePrediction where
  outcome : SideOutcome
  ambiguous : Bool
  deriving DecidableEq

def SidePrediction.unknown : SidePrediction := ⟨.unknown, false⟩

inductive GotoMessage where
  | none | startup | badTarget | keepSide | flip | gaveUp | notAtRest | noResponse | targetRejected | refused (code : Char)
  deriving DecidableEq

structure GotoAnswer where
  accepted : Bool
  message : GotoMessage
  prediction : SidePrediction
  deriving DecidableEq

/-- What comes of sending the slew: the RA axis does not come to rest, and it is not sent; no response; or its parts. -/
inductive Slew where
  | notAtRest | noResponse | targetRejected | code (c : Char)
  deriving DecidableEq

structure Call (α : Type) where
  number : Nat
  asked : α
  deriving DecidableEq

/-- A call that returned with an answer, and the call that the answer was made for. -/
structure Return (α β : Type) where
  call : Call α
  served : Call α
  answer : β
  deriving DecidableEq

inductive DriverThread (X C : Type) where
  | free
  | goto (call : Call (Goto X))
  | sync (call : Call C)
  deriving DecidableEq

/-- Between the sections of `handleGoto` and of `handleSyncQuery`. -/
inductive LoopThread (X C : Type) where
  | free
  | taken (call : Call (Goto X)) (started : Bool)
  | passed (call : Call (Goto X)) (prediction : SidePrediction)
  | decided (call : Call (Goto X)) (answer : GotoAnswer)
  | asks (call : Call C)
  deriving DecidableEq

/-- The fields from `calls` on are read by no function: how many calls were made, which gotos timed out, what returned, and
the slews that were sent, each with whether its goto had timed out by then. -/
structure Requests (X C R : Type) where
  gotoTarget : Option (Call (Goto X))
  gotoRequested : Bool
  gotoCancelled : Bool
  gotoDone : Bool
  gotoAnswer : Option (Call (Goto X) × GotoAnswer)
  syncQueryCommand : Option (Call C)
  syncQueryRequested : Bool
  syncQueryDone : Bool
  syncQueryResponse : Option (Call C × Option R)
  driver : DriverThread X C
  loop : LoopThread X C
  calls : Nat
  timedOut : List (Call (Goto X))
  gotos : List (Return (Goto X) GotoAnswer)
  responses : List (Return C (Option R))
  slews : List (Call (Goto X) × Bool)
  deriving DecidableEq

/-- The steps of the driver's thread, then those of the loop. -/
inductive RequestEvent (X C R : Type) where
  | gotoRaDec (connected : Bool) (goto : Goto X)
  | gotoReturns
  | gotoTimesOut
  | sendRawSync (command : C)
  | syncReturns
  | syncTimesOut
  | handleGoto (started : Bool)
  | testCancelled (targetOk : Bool) (prediction : SidePrediction)
  | slew (slew : Slew)
  | endGoto
  | handleSyncQuery
  | endSyncQuery (reply : Option R)

def refusal (goto : Goto X) (started targetOk : Bool) (prediction : SidePrediction) (cancelled : Bool) : Option GotoMessage :=
  if started = false then some .startup
  else if targetOk = false then some .badTarget
  else if goto.sideMode = .keepSide ∧ (prediction.outcome ≠ .stay ∨ prediction.ambiguous = true) then some .keepSide
  else if goto.sideMode = .flip ∧ (prediction.outcome ≠ .flip ∨ prediction.ambiguous = true) then some .flip
  else if cancelled then some .gaveUp
  else none

theorem refusal_cancelled (goto : Goto X) (started targetOk : Bool) (prediction : SidePrediction) :
    refusal goto started targetOk prediction true ≠ none := by
  unfold refusal
  repeat' split
  all_goals exact fun passes => by contradiction

def Slew.answer (prediction : SidePrediction) : Slew → GotoAnswer
  | .notAtRest => ⟨false, .notAtRest, prediction⟩
  | .noResponse => ⟨false, .noResponse, prediction⟩
  | .targetRejected => ⟨false, .targetRejected, prediction⟩
  | .code c => if c = '0' ∨ c = '3' then ⟨true, .none, prediction⟩ else ⟨false, .refused c, prediction⟩

namespace Requests

variable {X C R : Type} [DecidableEq X] (m : Requests X C R)

def fresh : Requests X C R where
  gotoTarget := none
  gotoRequested := false
  gotoCancelled := false
  gotoDone := false
  gotoAnswer := none
  syncQueryCommand := none
  syncQueryRequested := false
  syncQueryDone := false
  syncQueryResponse := none
  driver := .free
  loop := .free
  calls := 0
  timedOut := []
  gotos := []
  responses := []
  slews := []

def gotoRaDec (connected : Bool) (goto : Goto X) : Requests X C R :=
  if connected = false then m
  else
    { m with
      gotoTarget := some ⟨m.calls, goto⟩
      gotoDone := false
      gotoCancelled := false
      gotoRequested := true
      driver := .goto ⟨m.calls, goto⟩
      calls := m.calls + 1 }

def gotoReturns (call : Call (Goto X)) : Requests X C R :=
  match m.gotoAnswer with
  | none => m
  | some (served, answer) => { m with driver := .free, gotos := m.gotos ++ [⟨call, served, answer⟩] }

def gotoTimesOut (call : Call (Goto X)) : Requests X C R :=
  if m.gotoDone then m.gotoReturns call
  else { m with gotoCancelled := true, driver := .free, timedOut := m.timedOut ++ [call] }

def sendRawSync (command : C) : Requests X C R :=
  { m with
    syncQueryCommand := some ⟨m.calls, command⟩
    syncQueryDone := false
    syncQueryRequested := true
    driver := .sync ⟨m.calls, command⟩
    calls := m.calls + 1 }

def syncReturns (call : Call C) : Requests X C R :=
  match m.syncQueryResponse with
  | none => m
  | some (served, response) => { m with driver := .free, responses := m.responses ++ [⟨call, served, response⟩] }

def syncTimesOut (call : Call C) : Requests X C R :=
  if m.syncQueryDone then m.syncReturns call else { m with driver := .free }

/-- The first section of `handleGoto`. -/
def handleGoto (started : Bool) : Requests X C R :=
  if m.gotoRequested = false then m
  else
    match m.gotoTarget with
    | none => m
    | some call => { m with gotoRequested := false, loop := .taken call started }

def testCancelled (call : Call (Goto X)) (started targetOk : Bool) (prediction : SidePrediction) : Requests X C R :=
  let prediction := if started && targetOk then prediction else .unknown
  match refusal call.asked started targetOk prediction m.gotoCancelled with
  | some message => { m with loop := .decided call ⟨false, message, prediction⟩ }
  | none => { m with loop := .passed call prediction }

def slew (call : Call (Goto X)) (prediction : SidePrediction) (slew : Slew) : Requests X C R :=
  let m := { m with loop := .decided call (slew.answer prediction) }
  if slew = .notAtRest then m else { m with slews := m.slews ++ [(call, decide (call ∈ m.timedOut))] }

/-- The last section of `handleGoto`. -/
def endGoto (call : Call (Goto X)) (answer : GotoAnswer) : Requests X C R :=
  { m with gotoAnswer := some (call, answer), gotoDone := true, loop := .free }

def handleSyncQuery : Requests X C R :=
  if m.syncQueryRequested = false then m
  else
    match m.syncQueryCommand with
    | none => m
    | some call => { m with syncQueryRequested := false, loop := .asks call }

def endSyncQuery (call : Call C) (reply : Option R) : Requests X C R :=
  { m with syncQueryResponse := some (call, reply), syncQueryDone := true, loop := .free }

def step (m : Requests X C R) (e : RequestEvent X C R) : Requests X C R :=
  match e, m.driver, m.loop with
  | .gotoRaDec connected goto, .free, _ => m.gotoRaDec connected goto
  | .gotoReturns, .goto call, _ => if m.gotoDone then m.gotoReturns call else m
  | .gotoTimesOut, .goto call, _ => m.gotoTimesOut call
  | .sendRawSync command, .free, _ => m.sendRawSync command
  | .syncReturns, .sync call, _ => if m.syncQueryDone then m.syncReturns call else m
  | .syncTimesOut, .sync call, _ => m.syncTimesOut call
  | .handleGoto started, _, .free => m.handleGoto started
  | .testCancelled targetOk prediction, _, .taken call started => m.testCancelled call started targetOk prediction
  | .slew slew, _, .passed call prediction => m.slew call prediction slew
  | .endGoto, _, .decided call answer => m.endGoto call answer
  | .handleSyncQuery, _, .free => m.handleSyncQuery
  | .endSyncQuery reply, _, .asks call => m.endSyncQuery call reply
  | _, _, _ => m

/-- What returned is the answer to the call itself, and no slew was sent for a call that had timed out. -/
def Belong : Prop :=
  (∀ r ∈ m.gotos, r.served = r.call) ∧ (∀ r ∈ m.responses, r.served = r.call) ∧ ∀ s ∈ m.slews, s.2 = false

/-- No goto is called between the first section of `handleGoto` and its test, none times out between the test that it passed
and its slew, and an answer comes while no later call of its kind waits. -/
def Timely (m : Requests X C R) : RequestEvent X C R → Prop
  | .gotoRaDec connected _ => connected = true → m.driver = .free → ∀ call started, m.loop ≠ .taken call started
  | .gotoTimesOut =>
    m.gotoDone = false → ∀ call prediction, m.driver = .goto call → m.loop ≠ .passed call prediction
  | .endGoto => ∀ call answer waiting, m.loop = .decided call answer → m.driver = .goto waiting → waiting = call
  | .endSyncQuery _ => ∀ call waiting, m.loop = .asks call → m.driver = .sync waiting → waiting = call
  | _ => True

/-- A goto that is waited for has its own request, and its own answer once there is one; one that timed out has its mark until
it is tested. A query likewise. -/
structure Served (m : Requests X C R) : Prop where
  numbered : ∀ call ∈ m.timedOut, call.number < m.calls
  waiting : ∀ call, m.driver = .goto call → call ∉ m.timedOut ∧ call.number < m.calls
  requested : m.gotoRequested = true → ∀ call, m.gotoTarget = some call →
    (call ∈ m.timedOut → m.gotoCancelled = true)
  taken : ∀ call started, m.loop = .taken call started → call ∈ m.timedOut → m.gotoCancelled = true
  passed : ∀ call prediction, m.loop = .passed call prediction → call ∉ m.timedOut
  answered : m.gotoDone = true → ∀ call, m.driver = .goto call → ∃ answer, m.gotoAnswer = some (call, answer)
  responded : m.syncQueryDone = true → ∀ call, m.driver = .sync call → ∃ reply, m.syncQueryResponse = some (call, reply)
  belong : m.Belong

variable {m}

theorem Served.gotoRaDec (served : m.Served) (free : m.driver = .free) {connected : Bool} (goto : Goto X)
    (untaken : connected = true → ∀ call started, m.loop ≠ .taken call started) : (m.gotoRaDec connected goto).Served := by
  unfold Requests.gotoRaDec
  split
  · exact served
  · rename_i answers
    have new : (⟨m.calls, goto⟩ : Call (Goto X)) ∉ m.timedOut := fun mem => (served.numbered _ mem).false
    constructor
    · exact fun call mem => (served.numbered call mem).trans (Nat.lt_succ_self _)
    · intro call waits
      cases waits
      exact ⟨new, Nat.lt_succ_self _⟩
    · intro _ call asked late
      cases asked
      exact absurd late new
    · exact fun call started at_ => absurd at_ (untaken (Bool.not_eq_false _ ▸ answers) call started)
    · exact served.passed
    · exact nofun
    · exact nofun
    · exact served.belong

theorem Served.sendRawSync (served : m.Served) (free : m.driver = .free) (command : C) : (m.sendRawSync command).Served where
  numbered call mem := (served.numbered call mem).trans (Nat.lt_succ_self _)
  waiting := nofun
  requested := served.requested
  taken := served.taken
  passed := served.passed
  answered := nofun
  responded := nofun
  belong := served.belong

theorem Served.gotoReturns (served : m.Served) {call : Call (Goto X)} (waits : m.driver = .goto call) (done : m.gotoDone = true) :
    (m.gotoReturns call).Served := by
  obtain ⟨answer, answered⟩ := served.answered done call waits
  unfold Requests.gotoReturns
  rw [answered]
  obtain ⟨gotos, rest⟩ := served.belong
  constructor
  · exact served.numbered
  · exact nofun
  · exact served.requested
  · exact served.taken
  · exact served.passed
  · exact nofun
  · exact nofun
  · refine ⟨fun r mem => ?_, rest⟩
    rcases List.mem_append.mp mem with before | now
    · exact gotos r before
    · rw [List.mem_singleton.mp now]

theorem Served.syncReturns (served : m.Served) {call : Call C} (waits : m.driver = .sync call) (done : m.syncQueryDone = true) :
    (m.syncReturns call).Served := by
  obtain ⟨reply, responded⟩ := served.responded done call waits
  unfold Requests.syncReturns
  rw [responded]
  obtain ⟨gotos, responses, slews⟩ := served.belong
  constructor
  · exact served.numbered
  · exact nofun
  · exact served.requested
  · exact served.taken
  · exact served.passed
  · exact nofun
  · exact nofun
  · refine ⟨gotos, fun r mem => ?_, slews⟩
    rcases List.mem_append.mp mem with before | now
    · exact responses r before
    · rw [List.mem_singleton.mp now]

theorem Served.gotoTimesOut (served : m.Served) {call : Call (Goto X)} (waits : m.driver = .goto call)
    (unsent : m.gotoDone = false → ∀ prediction, m.loop ≠ .passed call prediction) : (m.gotoTimesOut call).Served := by
  unfold Requests.gotoTimesOut
  split
  · rename_i done
    exact served.gotoReturns waits done
  · rename_i undone
    constructor
    · intro c mem
      rcases List.mem_append.mp mem with before | now
      · exact served.numbered c before
      · rw [List.mem_singleton.mp now]
        exact (served.waiting call waits).2
    · exact nofun
    · exact fun _ _ _ _ => rfl
    · exact fun _ _ _ _ => rfl
    · intro c prediction passed late
      rcases List.mem_append.mp late with before | now
      · exact served.passed c prediction passed before
      · rw [List.mem_singleton.mp now] at passed
        exact unsent (Bool.eq_false_of_not_eq_true undone) prediction passed
    · exact nofun
    · exact nofun
    · exact served.belong

theorem Served.syncTimesOut (served : m.Served) {call : Call C} (waits : m.driver = .sync call) :
    (m.syncTimesOut call).Served := by
  unfold Requests.syncTimesOut
  split
  · rename_i done
    exact served.syncReturns waits done
  · exact ⟨served.numbered, nofun, served.requested, served.taken, served.passed, nofun, nofun, served.belong⟩

theorem Served.handleGoto (served : m.Served) (started : Bool) : (m.handleGoto started).Served := by
  unfold Requests.handleGoto
  split
  · exact served
  · rename_i requested
    rw [Bool.not_eq_false] at requested
    cases target : m.gotoTarget with
    | none => exact served
    | some call =>
      refine ⟨served.numbered, served.waiting, nofun, ?_, nofun, served.answered, served.responded, served.belong⟩
      intro c _ taken
      cases taken
      exact served.requested requested call target

theorem Served.handleSyncQuery (served : m.Served) : m.handleSyncQuery.Served := by
  unfold Requests.handleSyncQuery
  split
  · exact served
  · cases m.syncQueryCommand with
    | none => exact served
    | some call =>
      exact ⟨served.numbered, served.waiting, served.requested, nofun, nofun, served.answered, served.responded, served.belong⟩

theorem Served.testCancelled (served : m.Served) {call : Call (Goto X)} {started : Bool} (taken : m.loop = .taken call started)
    (targetOk : Bool) (prediction : SidePrediction) : (m.testCancelled call started targetOk prediction).Served := by
  unfold Requests.testCancelled
  dsimp only
  split
  · exact ⟨served.numbered, served.waiting, served.requested, nofun, nofun, served.answered, served.responded, served.belong⟩
  · rename_i passes
    refine ⟨served.numbered, served.waiting, served.requested, nofun, ?_, served.answered, served.responded, served.belong⟩
    intro c _ passed late
    cases passed
    rw [served.taken call started taken late] at passes
    exact absurd passes (refusal_cancelled _ _ _ _)

theorem Served.slew (served : m.Served) {call : Call (Goto X)} {prediction : SidePrediction}
    (passed : m.loop = .passed call prediction) (slew : Slew) : (m.slew call prediction slew).Served := by
  unfold Requests.slew
  dsimp only
  split
  · exact ⟨served.numbered, served.waiting, served.requested, nofun, nofun, served.answered, served.responded, served.belong⟩
  · obtain ⟨gotos, responses, slews⟩ := served.belong
    refine ⟨served.numbered, served.waiting, served.requested, nofun, nofun, served.answered, served.responded, gotos, responses,
      fun s mem => ?_⟩
    rcases List.mem_append.mp mem with before | now
    · exact slews s before
    · rw [List.mem_singleton.mp now]
      exact decide_eq_false (served.passed call prediction passed)

theorem Served.endGoto (served : m.Served) {call : Call (Goto X)} (answer : GotoAnswer)
    (own : ∀ waiting, m.driver = .goto waiting → waiting = call) : (m.endGoto call answer).Served := by
  refine ⟨served.numbered, served.waiting, served.requested, nofun, nofun, ?_, served.responded, served.belong⟩
  intro _ waiting waits
  rw [own waiting waits]
  exact ⟨answer, rfl⟩

theorem Served.endSyncQuery (served : m.Served) {call : Call C} (reply : Option R)
    (own : ∀ waiting, m.driver = .sync waiting → waiting = call) : (m.endSyncQuery call reply).Served := by
  refine ⟨served.numbered, served.waiting, served.requested, nofun, nofun, served.answered, ?_, served.belong⟩
  intro _ waiting waits
  rw [own waiting waits]
  exact ⟨reply, rfl⟩

theorem step_served (served : m.Served) (e : RequestEvent X C R) (timely : m.Timely e) : (m.step e).Served := by
  unfold step
  split
  · rename_i free
    exact served.gotoRaDec free _ (fun connected => timely connected free)
  · rename_i call waits
    split
    · rename_i done
      exact served.gotoReturns waits done
    · exact served
  · rename_i call waits
    exact served.gotoTimesOut waits (fun undone prediction => timely undone call prediction waits)
  · rename_i free
    exact served.sendRawSync free _
  · rename_i call waits
    split
    · rename_i done
      exact served.syncReturns waits done
    · exact served
  · rename_i waits
    exact served.syncTimesOut waits
  · exact served.handleGoto _
  · rename_i taken
    exact served.testCancelled taken _ _
  · rename_i passed
    exact served.slew passed _
  · rename_i call answer decided
    exact served.endGoto answer (fun waiting => timely call answer waiting decided)
  · exact served.handleSyncQuery
  · rename_i call asks
    exact served.endSyncQuery _ (fun waiting => timely call waiting asks)
  · exact served

/-- In every timely run the answers belong to their calls, and no goto that timed out is sent. -/
theorem answers_belong (es : List (RequestEvent X C R)) (timely : Guarded step Timely (fresh : Requests X C R) es) :
    ∀ done, done <+: es → (run step (fresh : Requests X C R) done).Belong := by
  rintro done ⟨rest, rfl⟩
  have before := ((guarded_append step Timely _ done rest).mp timely).1
  have initial : (fresh : Requests X C R).Served :=
    ⟨fun _ mem => (List.not_mem_nil mem).elim, nofun, nofun, nofun, nofun, nofun, nofun, fun _ mem => (List.not_mem_nil mem).elim,
      fun _ mem => (List.not_mem_nil mem).elim, fun _ mem => (List.not_mem_nil mem).elim⟩
  exact (run_invariant step Timely Served (fun _ e served timely => step_served served e timely) _ done initial before).belong

def answeredInTime : List (RequestEvent Nat Nat Nat) :=
  [.gotoRaDec true ⟨10, 20, .anySide⟩, .handleGoto true, .testCancelled true ⟨.stay, false⟩, .slew (.code '0'), .endGoto, .gotoReturns,
    .sendRawSync 239, .handleSyncQuery, .endSyncQuery (some 7), .syncReturns]

theorem answered_in_time : (run step (fresh : Requests Nat Nat Nat) answeredInTime).Belong := by
  refine answers_belong answeredInTime ⟨nofun, trivial, trivial, trivial, ?_, trivial, trivial, trivial, ?_, trivial, trivial⟩
    answeredInTime (List.prefix_refl _)
  · rintro _ _ _ ⟨⟩ ⟨⟩
    rfl
  · rintro _ _ ⟨⟩ ⟨⟩
    rfl

/-- The slew of the first goto takes long, and its call times out; the second call comes before `handleGoto` is done. -/
def lateAnswer : List (RequestEvent Nat Nat Nat) :=
  [.gotoRaDec true ⟨10, 20, .anySide⟩, .handleGoto true, .testCancelled true ⟨.stay, false⟩, .slew (.code '0'), .gotoTimesOut,
    .gotoRaDec true ⟨50, 60, .keepSide⟩, .endGoto, .gotoReturns]

/-- The second call returns that the first target was accepted. -/
theorem late_answer_returned : ¬∀ done, done <+: lateAnswer → (run step (fresh : Requests Nat Nat Nat) done).Belong := by
  intro belong
  obtain ⟨own, -, -⟩ := belong lateAnswer (List.prefix_refl _)
  revert own
  decide

end Requests
end Rts2.Gemini
