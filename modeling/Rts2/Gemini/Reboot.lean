import Rts2.Gemini.Startup

/-! A reboot of a Gemini mount that one thread asks for while the other polls its startup, answers its boot menu, or reads what
a startup has to read; each exchange with the mount and each section under the mutex is a step. -/
namespace Rts2.Gemini

open Lib

inductive Handshake where
  | up | menu | starting
  deriving DecidableEq

/-- Where the loop is: before the check for a reboot, with its command, before the check for a goto, at a poll; after a handshake,
with an answer to the menu, or in the sequence after a startup. The number is that of the boot that was under way at the
handshake. -/
inductive Poll where
  | reboot | reboots | goto | rest
  | heard (said : Handshake) (boot : Nat)
  | answers (selection : StartupMode)
  | postStartup (boot : Nat)
  deriving DecidableEq

/-- The fields from `mount` on are read by no function of the driver: what the mount would say, its boots, the mode given for
the present one and the mode of the last request; whether a reboot was asked for whose startup was not seen yet, whether a goto
was let through until then, and whether a menu was answered by what was not meant for it. -/
structure Reboots where
  startupComplete : Bool
  startupSelections : Nat
  startupMode : StartupMode
  forcedSelection : StartupMode
  rebootRequested : Bool
  poll : Poll
  mount : Handshake
  boots : Nat
  given : StartupMode
  asked : StartupMode
  awaited : Bool
  letThrough : Bool
  misled : Bool
  deriving DecidableEq

inductive RebootEvent where
  | requestReboot (selection : StartupMode)
  | look
  | sendReboot
  | handleGoto
  | handshake
  | section
  | answer
  | endPostStartup
  | menuShows
  | mountStarts
  | powerCycle
  deriving DecidableEq

namespace Reboots

variable (m : Reboots)

def fresh (startupMode : StartupMode) (mount : Handshake) : Reboots where
  startupComplete := false
  startupSelections := 0
  startupMode := startupMode
  forcedSelection := .none
  rebootRequested := false
  poll := .reboot
  mount := mount
  boots := 0
  given := .none
  asked := .none
  awaited := false
  letThrough := false
  misled := false

def requestReboot (selection : StartupMode) : Reboots :=
  { m with
    startupComplete := false
    startupSelections := 0
    forcedSelection := if selection = .none then m.forcedSelection else selection
    rebootRequested := true
    asked := selection
    awaited := true }

def look : Reboots :=
  match m.poll with
  | .reboot => if m.rebootRequested then { m with rebootRequested := false, poll := .reboots } else { m with poll := .goto }
  | .goto => { m with poll := .rest }
  | .rest => { m with poll := .reboot }
  | .reboots | .heard .. | .answers _ | .postStartup _ => m

def boot (given : StartupMode) : Reboots := { m with mount := .starting, boots := m.boots + 1, given := given }

def sendReboot : Reboots := { m.boot m.asked with poll := .reboot }

/-- The first section of `handleGoto` reads `startupComplete`. -/
def handleGoto : Reboots :=
  { m with letThrough := m.letThrough || m.awaited && m.startupComplete, poll := .reboot }

def selection : StartupMode := if m.forcedSelection ≠ .none then m.forcedSelection else m.startupMode

/-- The section after the handshake in `pollStartupState`. -/
def hears (said : Handshake) (boot : Nat) : Reboots :=
  match said with
  | .up => if m.startupComplete then { m with poll := .rest } else { m with poll := .postStartup boot }
  | .menu =>
    let m := { m with startupComplete := false }
    if m.selection ≠ .none ∧ m.startupSelections < maxStartupSelections then
      { m with startupSelections := m.startupSelections + 1, poll := .answers m.selection }
    else { m with poll := .rest }
  | .starting => { m with startupComplete := false, poll := .rest }

/-- The answer is meant for the menu: the mode that was given for its boot, else the standing one or that of a reboot still to
be sent. -/
def Meant (selection : StartupMode) : Prop :=
  if m.given ≠ .none then selection = m.given
  else selection = m.startupMode ∨ m.rebootRequested = true ∧ selection = m.asked

instance (selection : StartupMode) : Decidable (m.Meant selection) := by
  unfold Meant
  infer_instance

def answer (selection : StartupMode) : Reboots :=
  { m with misled := m.misled || decide (m.mount = .menu) && !decide (m.Meant selection), poll := .rest }

/-- The last section of `runPostStartupSequence`. -/
def endPostStartup (boot : Nat) : Reboots :=
  { m with
    startupComplete := true
    startupSelections := 0
    forcedSelection := .none
    poll := .rest
    awaited := m.awaited && (m.rebootRequested || decide (boot ≠ m.boots)) }

def step (m : Reboots) (e : RebootEvent) : Reboots :=
  match e, m.poll, m.mount with
  | .requestReboot selection, _, _ => m.requestReboot selection
  | .look, _, _ => m.look
  | .sendReboot, .reboots, _ => m.sendReboot
  | .handleGoto, .goto, _ => m.handleGoto
  | .handshake, .rest, said => { m with poll := .heard said m.boots }
  | .section, .heard said boot, _ => m.hears said boot
  | .answer, .answers selection, _ => m.answer selection
  | .endPostStartup, .postStartup boot, _ => m.endPostStartup boot
  | .menuShows, _, .starting => { m with mount := .menu }
  | .mountStarts, _, .starting | .mountStarts, _, .menu => { m with mount := .up }
  | .powerCycle, _, _ => m.boot .none
  | _, _, _ => m

/-- No goto was let through before the startup after a reboot was seen, and every answer was meant for its menu. -/
def Undisturbed : Prop := m.letThrough = false ∧ m.misled = false

/-- A reboot is asked for only once the startup after the one before was seen, and not between a handshake of a mount that is
up and the end of what follows it; no such handshake comes while it is still to be sent; and the mount boots by itself only when
none is awaited. -/
def Calm (m : Reboots) : RebootEvent → Prop
  | .requestReboot _ => m.awaited = false ∧ (∀ boot, m.poll ≠ .heard .up boot) ∧ ∀ boot, m.poll ≠ .postStartup boot
  | .handshake => m.poll = .rest → m.rebootRequested = true → m.mount ≠ .up
  | .powerCycle => m.awaited = false
  | _ => True

def Unsent : Prop := m.rebootRequested = true ∨ m.poll = .reboots

def HeardUp (boot : Nat) : Prop := m.poll = .heard .up boot ∨ m.poll = .postStartup boot

/-- A reboot that is awaited has its mode as the one-shot and `startupComplete` cleared, with no earlier handshake left to set
it; without one there is no one-shot, and a boot under way was given no mode. -/
structure Settled (m : Reboots) : Prop where
  unsent : m.Unsent → m.awaited = true
  once : m.poll = .reboots → m.rebootRequested = false
  incomplete : m.awaited = true → m.startupComplete = false ∧ m.forcedSelection = m.asked
  sent : m.awaited = true → ¬m.Unsent → m.given = m.asked
  earlier : m.Unsent → m.mount ≠ .up → m.given = .none
  heard : ∀ boot, m.HeardUp boot → m.awaited = true → ¬m.Unsent ∧ boot = m.boots ∧ m.mount = .up
  free : m.awaited = false → m.forcedSelection = .none ∧ (m.mount ≠ .up → m.given = .none)
  answers : ∀ selection, m.poll = .answers selection →
    (m.awaited = false → selection = m.startupMode) ∧ (m.awaited = true → m.mount ≠ .up → m.Meant selection)
  undisturbed : m.Undisturbed

variable {m}

theorem meant_standing {selection : StartupMode} (ungiven : m.given = .none) (standing : selection = m.startupMode) :
    m.Meant selection := by
  unfold Meant
  rw [ungiven, if_neg (fun given => given rfl)]
  exact .inl standing

theorem Settled.requestReboot (settled : m.Settled) {selection : StartupMode} (calm : m.Calm (.requestReboot selection)) :
    (m.requestReboot selection).Settled := by
  obtain ⟨unawaited, unheard, unread⟩ := calm
  obtain ⟨unforced, ungiven⟩ := settled.free unawaited
  constructor
  · exact fun _ => rfl
  · intro sends
    have awaited := settled.unsent (.inr sends)
    rw [unawaited] at awaited
    contradiction
  · refine fun _ => ⟨rfl, ?_⟩
    unfold Reboots.requestReboot
    dsimp only
    split
    · rename_i none
      rw [unforced, none]
    · rfl
  · exact fun _ sent => absurd (.inl rfl) sent
  · exact fun _ => ungiven
  · rintro boot (heard | read)
    · exact absurd heard (unheard boot)
    · exact absurd read (unread boot)
  · exact nofun
  · intro selection answering
    refine ⟨nofun, fun _ down => ?_⟩
    exact meant_standing (ungiven down) ((settled.answers selection answering).1 unawaited)
  · exact settled.undisturbed

theorem Settled.goesOn (settled : m.Settled) (poll : Poll) (here : m.poll ≠ .reboots) (elsewhere : poll ≠ .reboots)
    (unheard : ∀ said boot, poll ≠ .heard said boot) (unread : ∀ boot, poll ≠ .postStartup boot)
    (quiet : ∀ selection, poll ≠ .answers selection) : { m with poll := poll }.Settled where
  unsent waits := settled.unsent (.inl (waits.resolve_right elsewhere))
  once sends := absurd sends elsewhere
  incomplete := settled.incomplete
  sent awaited gone := settled.sent awaited (fun waits => gone (.inl (waits.resolve_right here)))
  earlier waits := settled.earlier (.inl (waits.resolve_right elsewhere))
  heard boot heard := heard.elim (fun heard => absurd heard (unheard .up boot)) (fun read => absurd read (unread boot))
  free := settled.free
  answers selection answering := absurd answering (quiet selection)
  undisturbed := settled.undisturbed

theorem Settled.look (settled : m.Settled) : m.look.Settled := by
  unfold Reboots.look
  split
  · rename_i here
    split
    · rename_i requested
      have awaited := settled.unsent (.inl requested)
      refine ⟨fun _ => awaited, fun _ => rfl, settled.incomplete, fun _ sent => absurd (.inr rfl) sent,
        fun _ => settled.earlier (.inl requested), ?_, settled.free, nofun, settled.undisturbed⟩
      rintro boot (heard | read) <;> contradiction
    · exact settled.goesOn .goto (by rw [here]; exact nofun) nofun nofun nofun nofun
  · rename_i here
    exact settled.goesOn .rest (by rw [here]; exact nofun) nofun nofun nofun nofun
  · rename_i here
    exact settled.goesOn .reboot (by rw [here]; exact nofun) nofun nofun nofun nofun
  all_goals exact settled

theorem Settled.sendReboot (settled : m.Settled) (here : m.poll = .reboots) : m.sendReboot.Settled := by
  have awaited := settled.unsent (.inr here)
  have again : ¬m.sendReboot.Unsent := by
    rintro (requested | sends)
    · exact absurd ((settled.once here).symm.trans requested) (by decide)
    · contradiction
  refine ⟨fun _ => awaited, nofun, settled.incomplete, fun _ _ => rfl, fun waits => absurd waits again, ?_, ?_, nofun,
    settled.undisturbed⟩
  · rintro boot (heard | read) <;> contradiction
  · exact fun unawaited => absurd (unawaited.symm.trans awaited) (by decide)

theorem Settled.handleGoto (settled : m.Settled) (here : m.poll = .goto) : m.handleGoto.Settled := by
  obtain ⟨letThrough, misled⟩ := settled.undisturbed
  have goesOn := settled.goesOn .reboot (by rw [here]; exact nofun) nofun nofun nofun nofun
  refine ⟨goesOn.unsent, goesOn.once, goesOn.incomplete, goesOn.sent, goesOn.earlier, goesOn.heard, goesOn.free, goesOn.answers,
    ?_, misled⟩
  unfold Reboots.handleGoto
  dsimp only
  cases awaited : m.awaited with
  | false => rw [letThrough]; rfl
  | true => rw [letThrough, (settled.incomplete awaited).1]; rfl

theorem Settled.handshake (settled : m.Settled) (here : m.poll = .rest) (calm : m.Calm .handshake) :
    { m with poll := .heard m.mount m.boots }.Settled := by
  have rests : m.poll ≠ .reboots := by rw [here]; exact nofun
  refine ⟨fun waits => settled.unsent (.inl (waits.resolve_right nofun)), nofun, settled.incomplete,
    fun awaited gone => settled.sent awaited (fun waits => gone (.inl (waits.resolve_right rests))),
    fun waits => settled.earlier (.inl (waits.resolve_right nofun)), ?_, settled.free, nofun, settled.undisturbed⟩
  rintro boot (heard | read) awaited
  · have parts := Poll.heard.inj heard
    refine ⟨?_, parts.2.symm, parts.1⟩
    rintro (requested | sends)
    · exact calm here requested parts.1
    · contradiction
  · contradiction

theorem Settled.selection (settled : m.Settled) (here : m.poll ≠ .reboots) :
    (m.awaited = false → m.selection = m.startupMode) ∧ (m.awaited = true → m.mount ≠ .up → m.Meant m.selection) := by
  constructor
  · intro unawaited
    unfold Reboots.selection
    rw [(settled.free unawaited).1, if_neg (fun forced => forced rfl)]
  · intro awaited down
    have forced := (settled.incomplete awaited).2
    unfold Reboots.selection Meant
    rw [forced]
    by_cases unsent : m.Unsent
    · rw [settled.earlier unsent down, if_neg (fun given => given rfl)]
      split
      · exact .inr ⟨unsent.resolve_right here, rfl⟩
      · exact .inl rfl
    · rw [settled.sent awaited unsent]
      split
      · rfl
      · exact .inl rfl

theorem Settled.hears (settled : m.Settled) {said : Handshake} {boot : Nat} (here : m.poll = .heard said boot) :
    (m.hears said boot).Settled := by
  have heard : m.poll ≠ .reboots := by rw [here]; exact nofun
  have cleared : { m with startupComplete := false }.Settled :=
    ⟨settled.unsent, settled.once, fun awaited => ⟨rfl, (settled.incomplete awaited).2⟩, settled.sent, settled.earlier, settled.heard,
      settled.free, settled.answers, settled.undisturbed⟩
  unfold Reboots.hears
  split
  · split
    · exact settled.goesOn .rest heard nofun nofun nofun nofun
    · refine ⟨fun waits => settled.unsent (.inl (waits.resolve_right nofun)), nofun, settled.incomplete,
        fun awaited gone => settled.sent awaited (fun waits => gone (.inl (waits.resolve_right heard))),
        fun waits => settled.earlier (.inl (waits.resolve_right nofun)), ?_, settled.free, nofun, settled.undisturbed⟩
      rintro boot' (heard' | read) awaited
      · contradiction
      · have same : boot = boot' := Poll.postStartup.inj read
        obtain ⟨sent, boots, up⟩ := settled.heard boot (.inl here) awaited
        refine ⟨?_, same ▸ boots, up⟩
        rintro (requested | sends)
        · exact sent (.inl requested)
        · contradiction
  · dsimp only
    split
    · refine ⟨fun waits => cleared.unsent (.inl (waits.resolve_right nofun)), nofun, cleared.incomplete,
        fun awaited gone => cleared.sent awaited (fun waits => gone (.inl (waits.resolve_right heard))),
        fun waits => cleared.earlier (.inl (waits.resolve_right nofun)), ?_, cleared.free, ?_, cleared.undisturbed⟩
      · rintro boot' (heard' | read) <;> contradiction
      · rintro _ ⟨⟩
        exact cleared.selection heard
    · exact cleared.goesOn .rest heard nofun nofun nofun nofun
  · exact cleared.goesOn .rest heard nofun nofun nofun nofun

theorem Settled.answer (settled : m.Settled) {selection : StartupMode} (here : m.poll = .answers selection) :
    (m.answer selection).Settled := by
  obtain ⟨letThrough, misled⟩ := settled.undisturbed
  have goesOn := settled.goesOn .rest (by rw [here]; exact nofun) nofun nofun nofun nofun
  refine ⟨goesOn.unsent, goesOn.once, goesOn.incomplete, goesOn.sent, goesOn.earlier, goesOn.heard, goesOn.free, goesOn.answers,
    letThrough, ?_⟩
  have meant (menu : m.mount = .menu) : m.Meant selection := by
    have down : m.mount ≠ .up := by rw [menu]; exact nofun
    cases awaited : m.awaited with
    | false => exact meant_standing ((settled.free awaited).2 down) ((settled.answers selection here).1 awaited)
    | true => exact (settled.answers selection here).2 awaited down
  unfold Reboots.answer
  dsimp only
  rw [misled, Bool.false_or, Bool.and_eq_false_iff]
  by_cases menu : m.mount = .menu
  · exact .inr (by rw [decide_eq_true (meant menu)]; rfl)
  · exact .inl (decide_eq_false menu)

theorem Settled.endPostStartup (settled : m.Settled) {boot : Nat} (here : m.poll = .postStartup boot) :
    (m.endPostStartup boot).Settled := by
  have seen : (m.endPostStartup boot).awaited = false := by
    unfold Reboots.endPostStartup
    dsimp only
    cases awaited : m.awaited with
    | false => rfl
    | true =>
      obtain ⟨sent, boots, -⟩ := settled.heard boot (.inr here) awaited
      rw [Bool.eq_false_of_not_eq_true fun requested => sent (.inl requested), boots]
      simp
  have gone : ¬(m.endPostStartup boot).Unsent := by
    rintro (requested | sends)
    · exact (settled.heard boot (.inr here) (settled.unsent (.inl requested))).1 (.inl requested)
    · contradiction
  refine ⟨fun waits => absurd waits gone, nofun, fun awaited => absurd (seen.symm.trans awaited) (by decide),
    fun awaited => absurd (seen.symm.trans awaited) (by decide), fun waits => absurd waits gone, ?_, ?_, nofun,
    settled.undisturbed⟩
  · rintro _ (heard | read) <;> contradiction
  · refine fun _ => ⟨rfl, fun down => ?_⟩
    cases awaited : m.awaited with
    | false => exact (settled.free awaited).2 down
    | true => exact absurd (settled.heard boot (.inr here) awaited).2.2 down

theorem Settled.mounts (settled : m.Settled) {said : Handshake} (down : m.mount ≠ .up) :
    { m with mount := said }.Settled where
  unsent := settled.unsent
  once := settled.once
  incomplete := settled.incomplete
  sent := settled.sent
  earlier waits _ := settled.earlier waits down
  heard boot heard awaited := absurd (settled.heard boot heard awaited).2.2 down
  free unawaited := ⟨(settled.free unawaited).1, fun _ => (settled.free unawaited).2 down⟩
  answers selection answering := ⟨(settled.answers selection answering).1,
    fun awaited _ => (settled.answers selection answering).2 awaited down⟩
  undisturbed := settled.undisturbed

theorem Settled.powerCycle (settled : m.Settled) (unawaited : m.awaited = false) : (m.boot .none).Settled where
  unsent := settled.unsent
  once := settled.once
  incomplete := settled.incomplete
  sent awaited := absurd (unawaited.symm.trans awaited) (by decide)
  earlier _ _ := rfl
  heard _ _ awaited := absurd (unawaited.symm.trans awaited) (by decide)
  free _ := ⟨(settled.free unawaited).1, fun _ => rfl⟩
  answers selection answering := ⟨(settled.answers selection answering).1,
    fun awaited => absurd (unawaited.symm.trans awaited) (by decide)⟩
  undisturbed := settled.undisturbed

theorem step_settled (settled : m.Settled) (e : RebootEvent) (calm : m.Calm e) : (m.step e).Settled := by
  unfold step
  split
  · exact settled.requestReboot calm
  · exact settled.look
  · rename_i here
    exact settled.sendReboot here
  · rename_i here
    exact settled.handleGoto here
  · rename_i here
    exact settled.handshake here calm
  · rename_i here
    exact settled.hears here
  · rename_i here
    exact settled.answer here
  · rename_i here
    exact settled.endPostStartup here
  · rename_i starting
    exact settled.mounts (by rw [starting]; exact nofun)
  · rename_i starting
    exact settled.mounts (by rw [starting]; exact nofun)
  · rename_i menu
    exact settled.mounts (by rw [menu]; exact nofun)
  · exact settled.powerCycle calm
  · exact settled

/-- In every calm run no goto is let through to a mount whose reboot is awaited, and its menu has the answer meant for it. -/
theorem reboots_undisturbed (startupMode : StartupMode) (mount : Handshake) (es : List RebootEvent)
    (calm : Guarded step Calm (fresh startupMode mount) es) :
    ∀ done, done <+: es → (run step (fresh startupMode mount) done).Undisturbed := by
  rintro done ⟨rest, rfl⟩
  have before := ((guarded_append step Calm _ done rest).mp calm).1
  have initial : (fresh startupMode mount).Settled := by
    refine ⟨?_, nofun, nofun, nofun, ?_, ?_, fun _ => ⟨rfl, fun _ => rfl⟩, nofun, rfl, rfl⟩
    · rintro (requested | sends) <;> contradiction
    · rintro (requested | sends) <;> contradiction
    · rintro boot (heard | read) <;> contradiction
  exact (run_invariant step Calm Settled (fun _ e settled calm => step_settled settled e calm) _ done initial before).undisturbed

def answered : List RebootEvent :=
  [.look, .look, .handshake, .section, .endPostStartup, .look, .requestReboot .cold, .look, .sendReboot, .look, .handleGoto, .menuShows,
    .look, .look, .handshake, .section, .answer, .mountStarts, .handshake, .section, .endPostStartup]

theorem answered_undisturbed : (run step (fresh .none .up) answered).Undisturbed := by
  refine reboots_undisturbed .none .up answered ?_ answered (List.prefix_refl _)
  refine ⟨trivial, trivial, fun _ => nofun, trivial, trivial, trivial, ⟨rfl, nofun, nofun⟩, trivial, trivial, trivial, trivial, trivial,
    trivial, trivial, fun _ => nofun, trivial, trivial, trivial, fun _ => nofun, trivial, trivial, trivial⟩

def overwritten : List RebootEvent :=
  [.look, .look, .handshake, .section, .requestReboot .cold, .endPostStartup, .look, .look, .sendReboot, .look, .handleGoto]

/-- The end of the sequence says that the mount is up, and a goto goes to the mount that reboots. -/
theorem goto_let_through : ¬∀ done, done <+: overwritten → (run step (fresh .none .up) done).Undisturbed := by
  intro undisturbed
  have last := (undisturbed overwritten (List.prefix_refl _)).1
  revert last
  decide

end Reboots
end Rts2.Gemini
