import Rts2.Gemini.Datagrams

/-! The thread that talks to a Gemini mount. What comes from the network is any sequence of datagrams and silences; a
pass of the thread makes the exchanges of one request, one after the other. -/
namespace Rts2.Gemini

open Lib

/-- What is left of a pass; each exchange may depend on what those before it returned. -/
inductive Handler (P R : Type) where
  | done
  | sendAndReceive (payload : P) (maxResyncAttempts : Nat) (next : Option R → Handler P R)

inductive Pass where
  | reboot | abort | goto | park | syncQuery | rawCommand | command | poll
  deriving DecidableEq

structure Asked where
  stopFlag : Bool
  rebootRequested : Bool
  abortRequested : Bool
  gotoRequested : Bool
  parkRequested : Bool
  syncQueryRequested : Bool
  rawCommandQueue : Nat
  commandQueue : Nat

namespace Asked

def ask (r : Asked) : Pass → Asked
  | .reboot => { r with rebootRequested := true }
  | .abort => { r with abortRequested := true }
  | .goto => { r with gotoRequested := true }
  | .park => { r with parkRequested := true }
  | .syncQuery => { r with syncQueryRequested := true }
  | .rawCommand => { r with rawCommandQueue := r.rawCommandQueue + 1 }
  | .command => { r with commandQueue := r.commandQueue + 1 }
  | .poll => r

def next (r : Asked) : Option Pass :=
  if r.stopFlag then none
  else if r.rebootRequested then some .reboot
  else if r.abortRequested then some .abort
  else if r.gotoRequested then some .goto
  else if r.parkRequested then some .park
  else if r.syncQueryRequested then some .syncQuery
  else if r.rawCommandQueue ≠ 0 then some .rawCommand
  else if r.commandQueue ≠ 0 then some .command
  else some .poll

def take (r : Asked) : Pass → Asked
  | .reboot => { r with rebootRequested := false }
  | .abort => { r with abortRequested := false }
  | .goto => { r with gotoRequested := false }
  | .park => { r with parkRequested := false }
  | .syncQuery => { r with syncQueryRequested := false }
  | .rawCommand => { r with rawCommandQueue := r.rawCommandQueue - 1 }
  | .command => { r with commandQueue := r.commandQueue - 1 }
  | .poll => r

end Asked

/-- The passes that were begun are listed; what was sent is on the way to the mount. -/
structure Thread (P R : Type) where
  requests : Asked
  passes : List Pass
  handler : Handler P R
  link : Link P R

/-- Another thread asks for something, the thread goes on, or a wait of it ends. -/
inductive ThreadEvent (P R : Type) where
  | stop
  | ask (pass : Pass)
  | next (handlers : Pass → Handler P R)
  | exchange
  | receive (reply : Option (Reply R))

variable {P R : Type}

def Link.Told (m : Link P R) (reply : Option (Reply R)) : Bool :=
  match m.wait, reply with
  | .nack _ cmdNum nackNum _, some reply => reply.number = nackNum && reply.lastNumber ≠ cmdNum
  | _, _ => false

def Link.told (m : Link P R) : List (Option (Reply R)) → Nat
  | [] => 0
  | reply :: replies => (if m.Told reply then 1 else 0) + (m.received reply).told replies

def Wait.limit : Wait P → Nat
  | .free => 0
  | .reply exchange _ _ => exchange.maxResyncAttempts
  | .nack exchange _ _ _ => exchange.maxResyncAttempts

namespace Thread

variable (t : Thread P R)

def goOn (next : Option R → Handler P R) (link : Link P R) : Thread P R :=
  match link.wait with
  | .free => { t with handler := next (link.returned.getLast?.bind Prod.snd), link }
  | .reply .. | .nack .. => { t with link }

def step : ThreadEvent P R → Thread P R
  | .stop => { t with requests := { t.requests with stopFlag := true } }
  | .ask pass => { t with requests := t.requests.ask pass }
  | .next handlers =>
    match t.handler, t.requests.next with
    | .done, some pass =>
      { t with requests := t.requests.take pass, passes := t.passes ++ [pass], handler := handlers pass }
    | _, _ => t
  | .exchange =>
    match t.handler, t.link.wait with
    | .sendAndReceive payload maxResyncAttempts next, .free =>
      t.goOn next (t.link.sendAndReceive payload maxResyncAttempts)
    | _, _ => t
  | .receive reply =>
    match t.handler, t.link.wait with
    | _, .free => t
    | .sendAndReceive _ _ next, _ => t.goOn next (t.link.received reply)
    | .done, _ => t

/-- The transmissions an event is good for: those of an exchange that begins, or begins anew for a NACK answered so. -/
def allowed : ThreadEvent P R → Nat
  | .exchange =>
    match t.handler, t.link.wait with
    | .sendAndReceive _ maxResyncAttempts _, .free => maxResyncAttempts + 1
    | _, _ => 0
  | .receive reply => if t.link.Told reply then t.link.wait.limit + 1 else 0
  | .stop | .ask _ | .next _ => 0

def allowedOver : Thread P R → List (ThreadEvent P R) → Nat
  | _, [] => 0
  | t, e :: es => t.allowed e + (t.step e).allowedOver es

end Thread

namespace Wait

def nacks : Wait P → Nat
  | .free => 0
  | .reply exchange _ attempt => exchange.maxResyncAttempts - attempt
  | .nack exchange _ _ attempt => exchange.maxResyncAttempts - attempt - 1

def waits : Wait P → Nat
  | .free => 0
  | .reply exchange _ attempt => 2 * (exchange.maxResyncAttempts - attempt)
  | .nack exchange _ _ attempt => 2 * (exchange.maxResyncAttempts - attempt) - 1

def Inside : Wait P → Prop
  | .free => True
  | .reply exchange _ attempt => attempt < exchange.maxResyncAttempts
  | .nack exchange _ _ attempt => attempt < exchange.maxResyncAttempts

theorem waits_pos {wait : Wait P} (inside : wait.Inside) (waiting : wait ≠ .free) : 0 < wait.waits := by
  cases wait with
  | free => exact absurd rfl waiting
  | reply exchange cmdNum attempt =>
    simp only [Inside, waits] at inside ⊢
    omega
  | nack exchange cmdNum nackNum attempt =>
    simp only [Inside, waits] at inside ⊢
    omega

end Wait

namespace Link

variable {m : Link P R}

structure Progress (m m' : Link P R) (told : Bool) : Prop where
  inside : m'.wait.Inside
  sent : m'.toMount.length + m'.wait.nacks ≤ m.toMount.length + m.wait.nacks + if told then m.wait.limit + 1 else 0
  waits : 1 + m'.wait.waits ≤ m.wait.waits + if told then 2 * m.wait.limit else 0
  limit : m'.wait ≠ .free → m'.wait.limit = m.wait.limit

theorem received_reply {exchange : Exchange P} {cmdNum attempt : Nat} (wait : m.wait = .reply exchange cmdNum attempt)
    (reply : Option (Reply R)) : (∃ response, m.received reply = m.returns exchange response) ∨
      m.received reply = m.sendNack exchange cmdNum attempt := by
  unfold received
  rw [wait]
  dsimp only
  split
  · exact Or.inl ⟨_, rfl⟩
  · exact Or.inr rfl

theorem received_nack {exchange : Exchange P} {cmdNum nackNum attempt : Nat}
    (wait : m.wait = .nack exchange cmdNum nackNum attempt) (reply : Option (Reply R)) :
    m.Told reply = true ∧ m.received reply = m.sendCommand exchange ∨
      m.Told reply = false ∧ ((∃ response, m.received reply = m.returns exchange response) ∨
        attempt + 1 < exchange.maxResyncAttempts ∧
          m.received reply = { m with wait := .reply exchange cmdNum (attempt + 1) }) := by
  have late : m.received none = (if attempt + 1 < exchange.maxResyncAttempts then
      { m with wait := .reply exchange cmdNum (attempt + 1) } else m.returns exchange none) := by
    simp only [received, wait, Option.filter_none]
  have other : (∃ response, m.received none = m.returns exchange response) ∨ attempt + 1 < exchange.maxResyncAttempts ∧
      m.received none = { m with wait := .reply exchange cmdNum (attempt + 1) } := by
    rw [late]
    split
    · rename_i again
      exact Or.inr ⟨again, rfl⟩
    · exact Or.inl ⟨none, rfl⟩
  cases reply with
  | none => exact Or.inr ⟨by simp [Told, wait], other⟩
  | some reply =>
    by_cases mine : reply.number = nackNum
    · by_cases same : reply.lastNumber = cmdNum
      · exact Or.inr ⟨by simp [Told, wait, same], Or.inl ⟨some reply.payload, by simp [received, wait, Option.filter_some, mine, same]⟩⟩
      · exact Or.inl ⟨by simp [Told, wait, mine, same], by simp [received, wait, Option.filter_some, mine, same]⟩
    · have stale : m.received (some reply) = m.received none := by simp [received, wait, Option.filter_some, mine]
      rw [stale]
      exact Or.inr ⟨by simp [Told, wait, mine], other⟩

theorem received_progress (inside : m.wait.Inside) (waiting : m.wait ≠ .free) (reply : Option (Reply R)) :
    Progress m (m.received reply) (m.Told reply) := by
  have some_ := Wait.waits_pos inside waiting
  cases wait : m.wait with
  | free => exact absurd wait waiting
  | reply exchange cmdNum attempt =>
    have silent : m.Told reply = false := by simp [Told, wait]
    rw [wait] at inside some_
    rw [silent]
    rcases received_reply wait reply with ⟨response, ended⟩ | asked
    · rw [ended]
      refine ⟨trivial, by simp [returns, Wait.nacks], ?_, fun going => absurd rfl going⟩
      simp only [returns, wait, Wait.waits] at some_ ⊢
      omega
    · rw [asked]
      simp only [Wait.Inside, Wait.waits] at inside some_
      refine ⟨inside, ?_, ?_, fun _ => by rw [wait]; rfl⟩
      · simp only [sendNack, transmit, wait, Wait.nacks, List.length_append, List.length_singleton]
        omega
      · simp only [sendNack, wait, Wait.waits]
        omega
  | nack exchange cmdNum nackNum attempt =>
    rw [wait] at inside some_
    simp only [Wait.Inside, Wait.waits] at inside some_
    rcases received_nack wait reply with ⟨told, anew⟩ | ⟨silent, ⟨response, ended⟩ | ⟨again, next⟩⟩
    · rw [told, anew]
      refine ⟨Nat.zero_lt_of_lt inside, ?_, ?_, fun _ => by rw [wait]; rfl⟩
      · simp only [sendCommand, transmit, wait, Wait.nacks, Wait.limit, List.length_append, List.length_singleton, if_true]
        omega
      · simp only [sendCommand, wait, Wait.waits, Wait.limit, if_true]
        omega
    · rw [silent, ended]
      refine ⟨trivial, by simp [returns, Wait.nacks], ?_, fun going => absurd rfl going⟩
      simp only [returns, wait, Wait.waits]
      omega
    · rw [silent, next]
      refine ⟨again, ?_, ?_, fun _ => by rw [wait]; rfl⟩
      · simp only [wait, Wait.nacks]
        omega
      · simp only [wait, Wait.waits]
        omega

theorem received_free (free : m.wait = .free) (reply : Option (Reply R)) : m.received reply = m := by
  simp only [received, free]

def heard (m : Link P R) (replies : List (Option (Reply R))) : Link P R := run received m replies

theorem heard_free (free : m.wait = .free) (replies : List (Option (Reply R))) : m.heard replies = m := by
  induction replies with
  | nil => rfl
  | cons reply replies ih =>
    rw [heard, run_cons, received_free free]
    exact ih

theorem heard_progress {M : Nat} (replies : List (Option (Reply R))) : ∀ m : Link P R, m.wait.Inside →
    (m.wait ≠ .free → m.wait.limit = M) →
    (m.heard replies).toMount.length + (m.heard replies).wait.nacks ≤
        m.toMount.length + m.wait.nacks + m.told replies * (M + 1) ∧
      ((m.heard replies).wait = .free ∨
        replies.length + 1 ≤ m.wait.waits + m.told replies * (2 * M)) := by
  induction replies with
  | nil =>
    intro m inside _
    refine ⟨by simp [heard, told, run_nil], ?_⟩
    by_cases waiting : m.wait = .free
    · exact Or.inl waiting
    · have some_ := Wait.waits_pos inside waiting
      exact Or.inr (by simp [told]; omega)
  | cons reply replies ih =>
    intro m inside limit
    by_cases waiting : m.wait = .free
    · rw [heard_free waiting]
      exact ⟨by omega, Or.inl waiting⟩
    · have progress := received_progress inside waiting reply
      have limited := limit waiting
      have limit' : (m.received reply).wait ≠ .free → (m.received reply).wait.limit = M :=
        fun going => (progress.limit going).trans limited
      obtain ⟨sent, waits⟩ := ih (m.received reply) progress.inside limit'
      have first := progress.sent
      have wait := progress.waits
      rw [limited] at first wait
      have same : m.heard (reply :: replies) = (m.received reply).heard replies := rfl
      rw [same, told]
      split at first
      · rename_i told
        rw [if_pos told] at wait ⊢
        refine ⟨by linarith, waits.imp_right fun waits => ?_⟩
        rw [List.length_cons]
        linarith
      · rename_i silent
        rw [if_neg silent] at wait ⊢
        refine ⟨by linarith, waits.imp_right fun waits => ?_⟩
        rw [List.length_cons]
        linarith

theorem sendAndReceive_begins (m : Link P R) (payload : P) (maxResyncAttempts : Nat) :
    let m' := m.sendAndReceive payload maxResyncAttempts
    m'.wait.Inside ∧ m'.toMount.length + m'.wait.nacks ≤ m.toMount.length + (maxResyncAttempts + 1) ∧
      (m'.wait ≠ .free → m'.wait.limit = maxResyncAttempts ∧ m'.wait.waits = 2 * maxResyncAttempts) := by
  unfold sendAndReceive
  dsimp only
  split
  · exact ⟨trivial, by simp [sendCommand, transmit, returns, Wait.nacks], fun going => absurd rfl going⟩
  · rename_i some_
    refine ⟨Nat.pos_of_ne_zero some_, ?_, fun _ => ⟨rfl, rfl⟩⟩
    simp only [sendCommand, transmit, Wait.nacks, List.length_append, List.length_singleton]
    omega

end Link

namespace Thread

def Inside (t : Thread P R) : Prop := t.link.wait.Inside

theorem goOn_link (t : Thread P R) (next : Option R → Handler P R) (link : Link P R) :
    (t.goOn next link).link = link ∧ (t.goOn next link).passes = t.passes ∧
      (t.goOn next link).requests = t.requests := by
  unfold goOn
  split <;> exact ⟨rfl, rfl, rfl⟩

theorem step_sent {t : Thread P R} (inside : t.Inside) (e : ThreadEvent P R) : (t.step e).Inside ∧
    (t.step e).link.toMount.length + (t.step e).link.wait.nacks ≤
      t.link.toMount.length + t.link.wait.nacks + t.allowed e := by
  cases e with
  | stop => exact ⟨inside, le_rfl⟩
  | ask pass => exact ⟨inside, le_rfl⟩
  | next handlers =>
    simp only [step, allowed]
    split
    · exact ⟨inside, le_rfl⟩
    · exact ⟨inside, le_rfl⟩
  | exchange =>
    simp only [step, allowed]
    split
    · rename_i payload maxResyncAttempts next _ free
      obtain ⟨begins, sent, -⟩ := t.link.sendAndReceive_begins payload maxResyncAttempts
      simp only [Inside, goOn_link, free]
      exact ⟨begins, by simpa [Wait.nacks] using sent⟩
    · exact ⟨inside, le_rfl⟩
  | receive reply =>
    simp only [step, allowed]
    split
    · exact ⟨inside, Nat.le_add_right _ _⟩
    · have waiting : t.link.wait ≠ .free := by assumption
      obtain ⟨begins, sent, -⟩ := Link.received_progress inside waiting reply
      simp only [Inside, goOn_link]
      exact ⟨begins, sent⟩
    · exact ⟨inside, Nat.le_add_right _ _⟩

theorem run_sent (es : List (ThreadEvent P R)) : ∀ t : Thread P R, t.Inside →
    (run step t es).link.toMount.length ≤ t.link.toMount.length + t.link.wait.nacks + t.allowedOver es := by
  induction es with
  | nil =>
    intro t _
    exact (Nat.le_add_right _ _).trans (Nat.le_add_right _ _)
  | cons e es ih =>
    intro t inside
    obtain ⟨inside', sent⟩ := step_sent inside e
    have rest := ih (t.step e) inside'
    rw [run_cons, allowedOver]
    omega

theorem step_stop {t : Thread P R} (stop : t.requests.stopFlag = true) (e : ThreadEvent P R) :
    (t.step e).requests.stopFlag = true ∧ (t.step e).passes = t.passes := by
  have ended : t.requests.next = none := by simp [Asked.next, stop]
  cases e with
  | stop => exact ⟨rfl, rfl⟩
  | ask pass => exact ⟨by cases pass <;> exact stop, rfl⟩
  | next handlers =>
    simp only [step, ended]
    cases t.handler <;> exact ⟨stop, rfl⟩
  | exchange =>
    simp only [step]
    split
    · simp only [goOn_link]
      exact ⟨stop, trivial⟩
    · exact ⟨stop, rfl⟩
  | receive reply =>
    simp only [step]
    split
    · exact ⟨stop, rfl⟩
    · simp only [goOn_link]
      exact ⟨stop, trivial⟩
    · exact ⟨stop, rfl⟩

theorem run_stop (es : List (ThreadEvent P R)) : ∀ t : Thread P R, t.requests.stopFlag = true →
    (run step t es).passes = t.passes := by
  induction es with
  | nil => exact fun _ _ => rfl
  | cons e es ih =>
    intro t stop
    obtain ⟨stop', same⟩ := step_stop stop e
    rw [run_cons, ih _ stop', same]

theorem step_reboot {t : Thread P R} (reboot : t.requests.rebootRequested = true) (e : ThreadEvent P R) :
    (t.step e).requests.rebootRequested = true ∧ (t.step e).passes = t.passes ∨
      (t.step e).passes = t.passes ++ [.reboot] := by
  cases e with
  | stop => exact Or.inl ⟨reboot, rfl⟩
  | ask pass => exact Or.inl ⟨by cases pass <;> simp [step, Asked.ask, reboot], rfl⟩
  | next handlers =>
    have first : t.requests.next = none ∨ t.requests.next = some .reboot := by
      cases stop : t.requests.stopFlag <;> simp [Asked.next, stop, reboot]
    simp only [step]
    split
    · rename_i pass _ found
      rcases first with ended | first
      · exact nomatch ended.symm.trans found
      · obtain rfl := Option.some.inj (first.symm.trans found)
        exact Or.inr rfl
    · exact Or.inl ⟨reboot, rfl⟩
  | exchange =>
    simp only [step]
    split
    · simp only [goOn_link]
      exact Or.inl ⟨reboot, trivial⟩
    · exact Or.inl ⟨reboot, rfl⟩
  | receive reply =>
    simp only [step]
    split
    · exact Or.inl ⟨reboot, rfl⟩
    · simp only [goOn_link]
      exact Or.inl ⟨reboot, trivial⟩
    · exact Or.inl ⟨reboot, rfl⟩

theorem step_passes (t : Thread P R) (e : ThreadEvent P R) : t.passes <+: (t.step e).passes := by
  cases e with
  | stop => exact List.prefix_rfl
  | ask pass => exact List.prefix_rfl
  | next handlers =>
    simp only [step]
    split
    · exact List.prefix_append _ _
    · exact List.prefix_rfl
  | exchange =>
    simp only [step]
    split
    · simp only [goOn_link]
      exact List.prefix_rfl
    · exact List.prefix_rfl
  | receive reply =>
    simp only [step]
    split
    · exact List.prefix_rfl
    · simp only [goOn_link]
      exact List.prefix_rfl
    · exact List.prefix_rfl

theorem run_passes (es : List (ThreadEvent P R)) : ∀ t : Thread P R, t.passes <+: (run step t es).passes := by
  induction es with
  | nil => exact fun _ => List.prefix_rfl
  | cons e es ih => exact fun t => (step_passes t e).trans (ih (t.step e))

theorem run_reboot (es : List (ThreadEvent P R)) : ∀ t : Thread P R, t.requests.rebootRequested = true →
    (run step t es).passes = t.passes ∨ t.passes ++ [.reboot] <+: (run step t es).passes := by
  induction es with
  | nil => exact fun _ _ => Or.inl rfl
  | cons e es ih =>
    intro t reboot
    rcases step_reboot reboot e with ⟨reboot', same⟩ | taken
    · have rest := ih (t.step e) reboot'
      rwa [same] at rest
    · have rest := run_passes es (t.step e)
      rw [taken] at rest
      exact Or.inr rest

/-- What is asked for waits for the pass under way, which sends no more than its exchanges are good for. -/
structure Served (t : Thread P R) (es : List (ThreadEvent P R)) : Prop where
  stop : t.requests.stopFlag = true → (run step t es).passes = t.passes
  reboot : t.requests.rebootRequested = true →
    (run step t es).passes = t.passes ∨ t.passes ++ [.reboot] <+: (run step t es).passes
  sent : t.Inside →
    (run step t es).link.toMount.length ≤ t.link.toMount.length + t.link.wait.nacks + t.allowedOver es

end Thread

/-- An exchange is bounded by its attempts and the NACKs that were answered with another number; what is asked of the
thread waits for one pass. -/
theorem sendAndReceive_bounded (m : Link P R) (payload : P) (maxResyncAttempts : Nat)
    (replies : List (Option (Reply R))) (t : Thread P R) (es : List (ThreadEvent P R)) :
    let begun := m.sendAndReceive payload maxResyncAttempts
    (begun.heard replies).toMount.length ≤
        m.toMount.length + (begun.told replies + 1) * (maxResyncAttempts + 1) ∧
      ((begun.heard replies).wait = .free ∨
        replies.length < (begun.told replies + 1) * (2 * maxResyncAttempts)) ∧
      t.Served es := by
  obtain ⟨inside, begins, limit⟩ := m.sendAndReceive_begins payload maxResyncAttempts
  obtain ⟨sent, waits⟩ := Link.heard_progress replies _ inside fun going => (limit going).1
  refine ⟨by linarith, ?_, Thread.run_stop es t, Thread.run_reboot es t, Thread.run_sent es t⟩
  by_cases going : (m.sendAndReceive payload maxResyncAttempts).wait = .free
  · exact Or.inl (by rw [Link.heard_free going, going])
  · refine waits.imp_right fun waits => ?_
    rw [(limit going).2] at waits
    linarith

def Link.answers (m : Link P R) (response : R) : List (Option (Reply R)) :=
  [none, some ⟨m.nextDatagramNumber, m.nextDatagramNumber, response⟩]

structure Stuck (m : Link ℕ ℕ) (n : ℕ) : Prop where
  waits : ∃ exchange cmdNum, m.wait = .reply exchange cmdNum 0 ∧ exchange.maxResyncAttempts = 1 ∧
    cmdNum ≠ m.nextDatagramNumber
  sent : n ≤ m.toMount.length

theorem stuck_answers {m : Link ℕ ℕ} {n : ℕ} (stuck : Stuck m n) : Stuck (m.heard (m.answers 0)) (n + 1) := by
  obtain ⟨⟨exchange, cmdNum, wait, one, other⟩, sent⟩ := stuck
  have asked : m.received none = m.sendNack exchange cmdNum 0 := by simp [Link.received, wait]
  have anew : m.heard (m.answers 0) = (m.sendNack exchange cmdNum 0).sendCommand exchange := by
    rw [Link.heard, Link.answers, run_cons, run_cons, run_nil, asked]
    simp [Link.received, Link.sendNack, Option.filter_some, other.symm]
  rw [anew]
  refine ⟨⟨exchange, _, rfl, one, ?_⟩, ?_⟩
  · simp only [Link.sendCommand, Link.sendNack, Link.transmit]
    omega
  · simp only [Link.sendCommand, Link.sendNack, Link.transmit, List.length_append, List.length_singleton]
    omega

theorem stuck_run (n : ℕ) : ∃ replies, Stuck (((Link.fresh (0, 0)).sendAndReceive 0 1).heard replies) n := by
  induction n with
  | zero => exact ⟨[], ⟨⟨0, 0, 1⟩, 0, rfl, rfl, by decide⟩, Nat.zero_le _⟩
  | succ n ih =>
    obtain ⟨replies, stuck⟩ := ih
    refine ⟨replies ++ (((Link.fresh (0, 0)).sendAndReceive 0 1).heard replies).answers 0, ?_⟩
    rw [Link.heard, run_append]
    exact stuck_answers stuck

/-- A mount that answers so keeps the exchange going for ever. -/
theorem no_bound : ¬∃ bound : ℕ → ℕ, ∀ (m : Link ℕ ℕ) (payload maxResyncAttempts : ℕ)
    (replies : List (Option (Reply ℕ))),
    ((m.sendAndReceive payload maxResyncAttempts).heard replies).toMount.length ≤
      m.toMount.length + bound maxResyncAttempts := by
  rintro ⟨bound, holds⟩
  obtain ⟨replies, stuck⟩ := stuck_run (bound 1 + 1)
  have most := holds (Link.fresh (0, 0)) 0 1 replies
  have least := stuck.sent
  have empty : (Link.fresh (P := ℕ) ((0, 0) : ℕ × ℕ)).toMount.length = 0 := rfl
  omega

end Rts2.Gemini
