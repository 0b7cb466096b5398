import Rts2.Lib.Run
import Rts2.Scripts.Elements

/-! Signals between the scripts of one master. The signal of a wait carries a flag that it was
consumed, which no branch of the code reads. -/
namespace Rts2.Scripts.Signals

open Lib

structure Wait where
  sig : Int
  consumed : Bool

/-- A block_waitsig is the block with a wait; of an ifacq without else the second block is empty. -/
inductive Element where
  | other
  | sendSignal (sig : Int) (askedFor : Bool)
  | waitSignal (wait : Wait)
  | block (end_wait : Option Wait) (blockElements : List Element) (curr : Nat)
  | acquired (state : AcquireState) (blockElements : List Element) (curr : Nat)
      (elseElements : List Element) (elseCurr : Nat)

def Wait.take (in_sig : Int) (wait : Wait) : Option Wait :=
  if wait.sig = in_sig then some ⟨-1, true⟩ else none

namespace Element

mutual

def waitForSignal (in_sig : Int) : Element → Option (Element × Wait)
  | other => none
  | sendSignal _ _ => none
  | waitSignal wait => (wait.take in_sig).map fun taken => (waitSignal taken, wait)
  | block none els curr =>
    (currWaitForSignal in_sig curr els).map fun r => (block none r.1 curr, r.2)
  | block (some wait) els curr =>
    match wait.take in_sig with
    | some taken => some (block (some taken) els curr, wait)
    | none => (currWaitForSignal in_sig curr els).map fun r => (block (some wait) r.1 curr, r.2)
  | acquired .NOT_CALLED _ _ _ _ => none
  | acquired .ACQ_OK els curr elses elseCurr =>
    (currWaitForSignal in_sig curr els).map fun r =>
      (acquired .ACQ_OK r.1 curr elses elseCurr, r.2)
  | acquired .ACQ_FAILED els curr elses elseCurr =>
    (currWaitForSignal in_sig elseCurr elses).map fun r =>
      (acquired .ACQ_FAILED els curr r.1 elseCurr, r.2)

def currWaitForSignal (in_sig : Int) : Nat → List Element → Option (List Element × Wait)
  | _, [] => none
  | 0, e :: els => (waitForSignal in_sig e).map fun r => (r.1 :: els, r.2)
  | curr + 1, e :: els => (currWaitForSignal in_sig curr els).map fun r => (e :: r.1, r.2)

end

mutual

def sends : Element → Option Int
  | other => none
  | sendSignal sig _ => some sig
  | waitSignal _ => none
  | block _ els curr => currSends curr els
  | acquired .NOT_CALLED _ _ _ _ => none
  | acquired .ACQ_OK els curr _ _ => currSends curr els
  | acquired .ACQ_FAILED _ _ elses elseCurr => currSends elseCurr elses

def currSends : Nat → List Element → Option Int
  | _, [] => none
  | 0, e :: _ => sends e
  | curr + 1, _ :: els => currSends curr els

end

mutual

def owes (sig : Int) : Element → Bool
  | other => false
  | sendSignal s askedFor => s == sig && askedFor
  | waitSignal _ => false
  | block _ els _ => anyOwes sig els
  | acquired _ els _ elses _ => anyOwes sig els || anyOwes sig elses

def anyOwes (sig : Int) : List Element → Bool
  | [] => false
  | e :: els => owes sig e || anyOwes sig els

end

mutual

def fresh : Element → Bool
  | other => true
  | sendSignal _ askedFor => !askedFor
  | waitSignal wait => !wait.consumed
  | block none els curr => curr == 0 && allFresh els
  | block (some wait) els curr => !wait.consumed && curr == 0 && allFresh els
  | acquired state els curr elses elseCurr =>
    state == .NOT_CALLED && curr == 0 && elseCurr == 0 && allFresh els && allFresh elses

def allFresh : List Element → Bool
  | [] => true
  | e :: els => fresh e && allFresh els

end

def sameWait (wait wait' : Wait) : Bool := wait.sig == wait'.sig && wait.consumed == wait'.consumed

mutual

/-- What calls of nextCommand leave of an element: its signals; they move the current elements,
decide an ifacq and answer who asks for a signal. -/
def alike : Element → Element → Bool
  | other, other => true
  | sendSignal sig _, sendSignal sig' _ => sig == sig'
  | waitSignal wait, waitSignal wait' => sameWait wait wait'
  | block none els _, block none els' _ => allAlike els els'
  | block (some wait) els _, block (some wait') els' _ => sameWait wait wait' && allAlike els els'
  | acquired state els _ elses _, acquired state' els' _ elses' _ =>
    (state == .NOT_CALLED || state == state') && allAlike els els' && allAlike elses elses'
  | _, _ => false

def allAlike : List Element → List Element → Bool
  | [], [] => true
  | e :: els, e' :: els' => alike e e' && allAlike els els'
  | _, _ => false

end

def waiting (in_sig : Int) (e : Element) : Option Wait := (e.waitForSignal in_sig).map Prod.snd

def waits (in_sig : Int) (e : Element) : Bool := (e.waiting in_sig).isSome

mutual

def Sound : Element → Prop
  | other => True
  | sendSignal _ _ => True
  | waitSignal wait => wait.consumed = true → wait.sig = -1
  | block none els _ => AllSound els
  | block (some wait) els _ => (wait.consumed = true → wait.sig = -1) ∧ AllSound els
  | acquired _ els _ elses _ => AllSound els ∧ AllSound elses

def AllSound : List Element → Prop
  | [] => True
  | e :: els => Sound e ∧ AllSound els

end

end Element

structure Script where
  elements : List Element
  el_iter : Nat

namespace Script

/-- The scan of postEvent over the elements that are left, and the waits it consumed with their
positions: after the first one the signal of the event is -1. -/
def scan (in_sig : Int) (pos : Nat) : List Element → List Element × List (Nat × Wait)
  | [] => ([], [])
  | e :: els =>
    match e.waitForSignal in_sig with
    | none => (e :: (scan in_sig (pos + 1) els).1, (scan in_sig (pos + 1) els).2)
    | some (e', wait) => (e' :: (scan (-1) (pos + 1) els).1, (pos, wait) :: (scan (-1) (pos + 1) els).2)

def left (s : Script) : List Element := s.elements.drop s.el_iter

def consumes (s : Script) (in_sig : Int) : List (Nat × Wait) := (scan in_sig s.el_iter s.left).2

def postEvent (s : Script) (in_sig : Int) : Script where
  elements := s.elements.take s.el_iter ++ (scan in_sig s.el_iter s.left).1
  el_iter := ((s.consumes in_sig).getLast?.map Prod.fst).getD s.el_iter

def fresh (s : Script) : Bool := s.el_iter == 0 && Element.allFresh s.elements

def sends (s : Script) : Option Int := s.left.head?.bind Element.sends

end Script

/-- An EVENT_SIGNAL of the master: of a send that was executed, or of one that was deleted. -/
structure Broadcast where
  sig : Int
  executed : Bool

structure Delivery where
  broadcast : Broadcast
  number : Nat
  device : Nat
  script : Script

structure World where
  scripts : List Script
  broadcasts : List Broadcast
  deliveries : List Delivery

inductive Event where
  | start (device : Nat) (script : Script)
  | goes (device : Nat) (script : Script)
  | post (device : Nat) (broadcast : Broadcast)
  | deliver (number device : Nat)

namespace World

def idle (devices : Nat) : World := ⟨List.replicate devices ⟨[], 0⟩, [], []⟩

def deliver (w : World) (number device : Nat) : World :=
  match w.broadcasts[number]?, w.scripts[device]? with
  | some b, some s =>
    { w with
      scripts := w.scripts.set device (s.postEvent b.sig)
      deliveries := w.deliveries ++ [⟨b, number, device, s⟩] }
  | _, _ => w

def step (w : World) : Event → World
  | .start device s => { w with scripts := w.scripts.set device s }
  | .goes device s => { w with scripts := w.scripts.set device s }
  | .post _ b => { w with broadcasts := w.broadcasts ++ [b] }
  | .deliver number device => w.deliver number device

/-- The steps a master and its scripts can take: a script ends and another one starts, a script
goes on, one sends a signal, and the signal reaches each script once. -/
def Enabled (w : World) : Event → Prop
  | .start device s => device < w.scripts.length ∧ s.fresh = true
  | .goes device s' =>
    ∃ s ∈ w.scripts[device]?, s.el_iter ≤ s'.el_iter ∧ Element.allAlike s.elements s'.elements = true
  | .post device b =>
    ∃ s ∈ w.scripts[device]?,
      if b.executed then s.sends = some b.sig else Element.anyOwes b.sig s.elements = true
  | .deliver number device =>
    number < w.broadcasts.length ∧ device < w.scripts.length ∧
      ∀ d ∈ w.deliveries, ¬ (d.number = number ∧ d.device = device)

instance (w : World) : (e : Event) → Decidable (w.Enabled e)
  | .start _ _ => inferInstanceAs (Decidable (_ ∧ _))
  | .goes _ _ => inferInstanceAs (Decidable (∃ _ ∈ (_ : Option Script), _))
  | .post _ _ => inferInstanceAs (Decidable (∃ _ ∈ (_ : Option Script), _))
  | .deliver _ _ => inferInstanceAs (Decidable (_ ∧ _))

end World

namespace Element

theorem take_spec {in_sig : Int} {wait taken : Wait} (took : wait.take in_sig = some taken) :
    wait.sig = in_sig ∧ taken = ⟨-1, true⟩ := by
  unfold Wait.take at took
  by_cases same : wait.sig = in_sig
  · rw [if_pos same] at took
    exact ⟨same, (Option.some.inj took).symm⟩
  · rw [if_neg same] at took
    cases took

mutual

theorem waitForSignal_sound {in_sig : Int} {e : Element} {r : Element × Wait} (sound : Sound e)
    (took : waitForSignal in_sig e = some r) :
    Sound r.1 ∧ (r.2.consumed = true → in_sig = -1) := by
  cases e with
  | other => simp [waitForSignal] at took
  | sendSignal sig askedFor => simp [waitForSignal] at took
  | waitSignal wait =>
    simp only [waitForSignal, Option.map_eq_some_iff] at took
    obtain ⟨taken, took, same⟩ := took
    obtain ⟨met, rfl⟩ := take_spec took
    subst same
    refine ⟨fun _ => rfl, fun consumed => ?_⟩
    rw [← met]
    exact sound consumed
  | block end_wait els curr =>
    cases end_wait with
    | none =>
      simp only [waitForSignal, Option.map_eq_some_iff] at took
      obtain ⟨r', took, rfl⟩ := took
      exact currWaitForSignal_sound sound took
    | some wait =>
      simp only [waitForSignal] at took
      cases taken : wait.take in_sig with
      | some w =>
        rw [taken] at took
        obtain ⟨met, rfl⟩ := take_spec taken
        cases took
        refine ⟨⟨fun _ => rfl, sound.2⟩, fun consumed => ?_⟩
        rw [← met]
        exact sound.1 consumed
      | none =>
        rw [taken] at took
        simp only [Option.map_eq_some_iff] at took
        obtain ⟨r', took, rfl⟩ := took
        obtain ⟨kept, minus⟩ := currWaitForSignal_sound sound.2 took
        exact ⟨⟨sound.1, kept⟩, minus⟩
  | acquired state els curr elses elseCurr =>
    cases state with
    | NOT_CALLED => simp [waitForSignal] at took
    | ACQ_OK =>
      simp only [waitForSignal, Option.map_eq_some_iff] at took
      obtain ⟨r', took, rfl⟩ := took
      obtain ⟨kept, minus⟩ := currWaitForSignal_sound sound.1 took
      exact ⟨⟨kept, sound.2⟩, minus⟩
    | ACQ_FAILED =>
      simp only [waitForSignal, Option.map_eq_some_iff] at took
      obtain ⟨r', took, rfl⟩ := took
      obtain ⟨kept, minus⟩ := currWaitForSignal_sound sound.2 took
      exact ⟨⟨sound.1, kept⟩, minus⟩

theorem currWaitForSignal_sound {in_sig : Int} {curr : Nat} {els : List Element}
    {r : List Element × Wait} (sound : AllSound els)
    (took : currWaitForSignal in_sig curr els = some r) :
    AllSound r.1 ∧ (r.2.consumed = true → in_sig = -1) := by
  cases els with
  | nil => cases curr <;> simp [currWaitForSignal] at took
  | cons e els =>
    cases curr with
    | zero =>
      simp only [currWaitForSignal, Option.map_eq_some_iff] at took
      obtain ⟨r', took, rfl⟩ := took
      obtain ⟨kept, minus⟩ := waitForSignal_sound sound.1 took
      exact ⟨⟨kept, sound.2⟩, minus⟩
    | succ curr =>
      simp only [currWaitForSignal, Option.map_eq_some_iff] at took
      obtain ⟨r', took, rfl⟩ := took
      obtain ⟨kept, minus⟩ := currWaitForSignal_sound sound.2 took
      exact ⟨⟨sound.1, kept⟩, minus⟩

end

mutual

theorem sound_of_fresh {e : Element} (new : e.fresh = true) : Sound e := by
  cases e with
  | other => trivial
  | sendSignal sig askedFor => trivial
  | waitSignal wait =>
    intro consumed
    simp [fresh, consumed] at new
  | block end_wait els curr =>
    cases end_wait with
    | none =>
      simp only [fresh, Bool.and_eq_true] at new
      exact allSound_of_fresh new.2
    | some wait =>
      simp only [fresh, Bool.and_eq_true, Bool.not_eq_true'] at new
      refine ⟨fun consumed => ?_, allSound_of_fresh new.2⟩
      rw [new.1.1] at consumed
      cases consumed
  | acquired state els curr elses elseCurr =>
    simp only [fresh, Bool.and_eq_true] at new
    exact ⟨allSound_of_fresh new.1.2, allSound_of_fresh new.2⟩

theorem allSound_of_fresh {els : List Element} (new : allFresh els = true) : AllSound els := by
  cases els with
  | nil => trivial
  | cons e els =>
    simp only [allFresh, Bool.and_eq_true] at new
    exact ⟨sound_of_fresh new.1, allSound_of_fresh new.2⟩

end

theorem sameWait_spec {wait wait' : Wait} (same : sameWait wait wait' = true) : wait' = wait := by
  cases wait
  cases wait'
  simp_all [sameWait]

mutual

theorem sound_of_alike {e e' : Element} (like : alike e e' = true) (sound : Sound e) :
    Sound e' := by
  cases e with
  | other => cases e' <;> simp_all [alike, Sound]
  | sendSignal sig askedFor => cases e' <;> simp_all [alike, Sound]
  | waitSignal wait =>
    cases e' with
    | waitSignal wait' =>
      rw [sameWait_spec like]
      exact sound
    | _ => simp [alike] at like
  | block end_wait els curr =>
    cases e' with
    | block end_wait' els' curr' =>
      cases end_wait with
      | none =>
        cases end_wait' with
        | none => exact allSound_of_alike like sound
        | some wait' => simp [alike] at like
      | some wait =>
        cases end_wait' with
        | none => simp [alike] at like
        | some wait' =>
          simp only [alike, Bool.and_eq_true] at like
          rw [sameWait_spec like.1]
          exact ⟨sound.1, allSound_of_alike like.2 sound.2⟩
    | _ => cases end_wait <;> simp [alike] at like
  | acquired state els curr elses elseCurr =>
    cases e' with
    | acquired state' els' curr' elses' elseCurr' =>
      simp only [alike, Bool.and_eq_true] at like
      exact ⟨allSound_of_alike like.1.2 sound.1, allSound_of_alike like.2 sound.2⟩
    | _ => simp [alike] at like

theorem allSound_of_alike {els els' : List Element} (like : allAlike els els' = true)
    (sound : AllSound els) : AllSound els' := by
  cases els with
  | nil =>
    cases els' with
    | nil => trivial
    | cons e' els' => simp [allAlike] at like
  | cons e els =>
    cases els' with
    | nil => simp [allAlike] at like
    | cons e' els' =>
      simp only [allAlike, Bool.and_eq_true] at like
      exact ⟨sound_of_alike like.1 sound.1, allSound_of_alike like.2 sound.2⟩

end

theorem allSound_iff {els : List Element} : AllSound els ↔ ∀ e ∈ els, Sound e := by
  induction els with
  | nil => simp [AllSound]
  | cons e els ih => simp [AllSound, ih]

theorem waiting_unused {in_sig : Int} {e : Element} {wait : Wait} (sound : Sound e)
    (met : e.waiting in_sig = some wait) : wait.consumed = true → in_sig = -1 := by
  simp only [waiting, Option.map_eq_some_iff] at met
  obtain ⟨r, took, rfl⟩ := met
  exact (waitForSignal_sound sound took).2

end Element

namespace Script

theorem scan_waiting {in_sig : Int} {pos : Nat} {e : Element} {els : List Element} {wait : Wait}
    (met : e.waiting in_sig = some wait) :
    (scan in_sig pos (e :: els)).2 = (pos, wait) :: (scan (-1) (pos + 1) els).2 := by
  simp only [Element.waiting, Option.map_eq_some_iff] at met
  obtain ⟨r, took, rfl⟩ := met
  simp [scan, took]

theorem scan_passing {in_sig : Int} {pos : Nat} {e : Element} {els : List Element}
    (met : e.waiting in_sig = none) :
    (scan in_sig pos (e :: els)).2 = (scan in_sig (pos + 1) els).2 := by
  simp only [Element.waiting, Option.map_eq_none_iff] at met
  simp [scan, met]

theorem scan_eq_nil {in_sig : Int} {pos : Nat} {els : List Element} :
    (scan in_sig pos els).2 = [] ↔ ∀ e ∈ els, e.waits in_sig = false := by
  induction els generalizing pos with
  | nil => simp [scan]
  | cons e els ih =>
    cases met : e.waiting in_sig with
    | none => simp [scan_passing met, ih, Element.waits, met]
    | some wait => simp [scan_waiting met, Element.waits, met]

theorem scan_after {in_sig : Int} {pos : Nat} {els : List Element} {r : Nat × Wait}
    (consumed : r ∈ (scan in_sig pos els).2) : pos ≤ r.1 := by
  induction els generalizing in_sig pos with
  | nil => simp [scan] at consumed
  | cons e els ih =>
    cases met : e.waiting in_sig with
    | none =>
      rw [scan_passing met] at consumed
      exact (Nat.le_succ pos).trans (ih consumed)
    | some wait =>
      rw [scan_waiting met] at consumed
      cases consumed with
      | head => exact le_rfl
      | tail _ later => exact (Nat.le_succ pos).trans (ih later)

theorem scan_sound {in_sig : Int} {pos : Nat} {els : List Element} (sound : Element.AllSound els) :
    Element.AllSound (scan in_sig pos els).1 := by
  induction els generalizing in_sig pos with
  | nil => trivial
  | cons e els ih =>
    cases took : e.waitForSignal in_sig with
    | none =>
      simp only [scan, took]
      exact ⟨sound.1, ih sound.2⟩
    | some r =>
      simp only [scan, took]
      exact ⟨(Element.waitForSignal_sound sound.1 took).1, ih sound.2⟩

theorem postEvent_sound {s : Script} (in_sig : Int) (sound : Element.AllSound s.elements) :
    Element.AllSound (s.postEvent in_sig).elements := by
  rw [Element.allSound_iff] at sound ⊢
  intro e mem
  rcases List.mem_append.mp mem with mem | mem
  · exact sound e (List.mem_of_mem_take mem)
  · have rest : Element.AllSound s.left :=
      Element.allSound_iff.mpr fun e mem => sound e (List.mem_of_mem_drop mem)
    exact Element.allSound_iff.mp (scan_sound rest) e mem

def Unmoved (s : Script) (in_sig : Int) : Prop := ∀ e ∈ s.left, e.waits in_sig = false

def Released (s : Script) (in_sig : Int) (wait : Wait) : Prop :=
  s.left.head?.bind (Element.waiting in_sig) = some wait ∧
    ∀ e ∈ s.left.tail, e.waits (-1) = false

theorem consumes_unmoved {s : Script} {in_sig : Int} :
    s.consumes in_sig = [] ↔ s.Unmoved in_sig := scan_eq_nil

theorem consumes_released {s : Script} {in_sig : Int} {wait : Wait}
    (released : s.Released in_sig wait) : s.consumes in_sig = [(s.el_iter, wait)] := by
  obtain ⟨met, later⟩ := released
  unfold consumes
  cases left : s.left with
  | nil => simp [left] at met
  | cons e els =>
    rw [left] at met later
    rw [scan_waiting met]
    simpa [scan_eq_nil] using later

theorem last_stays {pos : Nat} {consumed : List (Nat × Wait)}
    (after : ∀ r ∈ consumed, pos < r.1) :
    (consumed.getLast?.map Prod.fst).getD pos = pos ↔ consumed = [] := by
  cases last : consumed.getLast? with
  | none => simp [List.getLast?_eq_none_iff.mp last]
  | some r =>
    have behind := after r (List.mem_of_getLast? last)
    have some_consumed : consumed ≠ [] := by
      rintro rfl
      cases last
    simp [behind.ne', some_consumed]

theorem postEvent_stays {s : Script} {in_sig : Int} :
    (s.postEvent in_sig).el_iter = s.el_iter ↔
      s.Unmoved in_sig ∨ ∃ wait, s.Released in_sig wait := by
  unfold postEvent consumes Unmoved Released
  cases s.left with
  | nil => simp [scan]
  | cons e els =>
    cases met : e.waiting in_sig with
    | none =>
      rw [scan_passing met, last_stays (fun r consumed => scan_after consumed), scan_eq_nil]
      simp [met, Element.waits]
    | some wait =>
      rw [scan_waiting met]
      have later : (((s.el_iter, wait) :: (scan (-1) (s.el_iter + 1) els).2).getLast?.map
          Prod.fst).getD s.el_iter = s.el_iter ↔ (scan (-1) (s.el_iter + 1) els).2 = [] := by
        rw [← last_stays (fun r consumed => scan_after consumed)]
        cases (scan (-1) (s.el_iter + 1) els).2 <;> simp
      rw [later, scan_eq_nil]
      simp [met, Element.waits]

end Script

def Delivery.consumed (d : Delivery) : List (Nat × Wait) := d.script.consumes d.broadcast.sig

namespace World

def released (w : World) (number : Nat) : List (Nat × Wait) :=
  (w.deliveries.filter fun d => d.number = number ∧ d.broadcast.executed = true).flatMap
    Delivery.consumed

structure Fair (w : World) : Prop where
  /-- An executed send releases one wait at most. -/
  one_released : ∀ number, (w.released number).length ≤ 1
  /-- A script that gets a signal stays at its element. -/
  none_skipped : ∀ d ∈ w.deliveries,
    (d.script.postEvent d.broadcast.sig).el_iter = d.script.el_iter
  /-- No wait takes a second signal. -/
  none_again : ∀ d ∈ w.deliveries, ∀ r ∈ d.consumed, r.2.consumed = false

/-- A signal comes to a script that does not wait for it, or to one that waits for it where it is
and where nothing later waits for -1, when the signal met no wait before; and a signal -1 to no
wait that was consumed. -/
def Orderly (w : World) : Event → Prop
  | .deliver number device =>
    ∀ b ∈ w.broadcasts[number]?, ∀ s ∈ w.scripts[device]?,
      s.Unmoved b.sig ∨ ∃ wait, s.Released b.sig wait ∧ (b.sig = -1 → wait.consumed = false) ∧
        (b.executed = true → ∀ d ∈ w.deliveries, d.number = number → d.script.Unmoved b.sig)
  | _ => True

structure Known (w : World) : Prop where
  named : ∀ d ∈ w.deliveries, w.broadcasts[d.number]? = some d.broadcast
  sound : ∀ s ∈ w.scripts, Element.AllSound s.elements

theorem known_idle (devices : Nat) : (idle devices).Known where
  named d mem := by cases mem
  sound s mem := by
    rw [List.eq_of_mem_replicate mem]
    trivial

theorem fair_idle (devices : Nat) : (idle devices).Fair where
  one_released number := Nat.zero_le 1
  none_skipped d mem := by cases mem
  none_again d mem := by cases mem

theorem Known.set {w : World} (known : w.Known) {device : Nat} {s : Script}
    (sound : Element.AllSound s.elements) :
    Known { w with scripts := w.scripts.set device s } where
  named := known.named
  sound t mem := by
    rcases List.mem_or_eq_of_mem_set mem with mem | rfl
    · exact known.sound t mem
    · exact sound

theorem step_known {w : World} {event : Event} (known : w.Known) (enabled : w.Enabled event) :
    (w.step event).Known := by
  cases event with
  | start device s =>
    simp only [Enabled, Script.fresh, Bool.and_eq_true] at enabled
    exact known.set (Element.allSound_of_fresh enabled.2.2)
  | goes device s' =>
    obtain ⟨s, here, -, like⟩ := enabled
    exact known.set (Element.allSound_of_alike like (known.sound s (List.mem_of_getElem? here)))
  | post device b =>
    refine ⟨fun d mem => ?_, known.sound⟩
    have old := known.named d mem
    obtain ⟨short, -⟩ := List.getElem?_eq_some_iff.mp old
    simpa [step, List.getElem?_append_left short] using old
  | deliver number device =>
    simp only [step, deliver]
    cases sent : w.broadcasts[number]? with
    | none => exact known
    | some b =>
      cases here : w.scripts[device]? with
      | none => exact known
      | some s =>
        have sound := known.sound s (List.mem_of_getElem? here)
        refine ⟨fun d mem => ?_, (known.set (s.postEvent_sound b.sig sound)).sound⟩
        rcases List.mem_append.mp mem with mem | mem
        · exact known.named d mem
        · rw [List.mem_singleton.mp mem]
          exact sent

structure Delivered (w w' : World) (d : Delivery) : Prop where
  deliveries : w'.deliveries = w.deliveries ++ [d]
  sent : w.broadcasts[d.number]? = some d.broadcast
  here : w.scripts[d.device]? = some d.script

theorem deliver_spec {w : World} {number device : Nat} (enabled : w.Enabled (.deliver number device)) :
    ∃ d : Delivery, d.number = number ∧ d.device = device ∧
      Delivered w (w.step (.deliver number device)) d := by
  obtain ⟨sent, here, -⟩ := enabled
  refine ⟨⟨w.broadcasts[number], number, device, w.scripts[device]⟩, rfl, rfl, ?_⟩
  exact ⟨by simp [step, deliver, sent, here], by simp [sent], by simp [here]⟩

theorem released_append {w w' : World} {d : Delivery} (delivered : Delivered w w' d) (number : Nat) :
    w'.released number = w.released number ++
      if d.number = number ∧ d.broadcast.executed = true then d.consumed else [] := by
  unfold released
  rw [delivered.deliveries, List.filter_append, List.flatMap_append]
  by_cases counted : d.number = number ∧ d.broadcast.executed = true <;> simp [counted]

theorem fair_of_same {w w' : World} (same : w'.deliveries = w.deliveries) (fair : w.Fair) :
    w'.Fair := by
  refine ⟨fun number => ?_, ?_, ?_⟩
  · unfold released
    rw [same]
    exact fair.one_released number
  · rw [same]
    exact fair.none_skipped
  · rw [same]
    exact fair.none_again

theorem released_nil {w : World} (known : w.Known) {number : Nat} {b : Broadcast}
    (sent : w.broadcasts[number]? = some b) (executed : b.executed = true) :
    w.released number = [] ↔ ∀ d ∈ w.deliveries, d.number = number → d.script.Unmoved b.sig := by
  have same : ∀ d ∈ w.deliveries, d.number = number → d.broadcast = b := by
    rintro d mem rfl
    exact Option.some.inj ((known.named d mem).symm.trans sent)
  unfold released
  simp only [List.flatMap_eq_nil_iff, List.mem_filter, decide_eq_true_eq, Delivery.consumed,
    Script.consumes_unmoved]
  constructor
  · intro none d mem at_number
    have unmoved := none d ⟨mem, at_number, by rw [same d mem at_number, executed]⟩
    rwa [same d mem at_number] at unmoved
  · rintro none d ⟨mem, at_number, -⟩
    rw [same d mem at_number]
    exact none d mem at_number

def InOrder (w : World) (d : Delivery) : Prop :=
  d.script.Unmoved d.broadcast.sig ∨ ∃ wait, d.script.Released d.broadcast.sig wait ∧
    (d.broadcast.sig = -1 → wait.consumed = false) ∧
    (d.broadcast.executed = true → ∀ e ∈ w.deliveries, e.number = d.number →
      e.script.Unmoved d.broadcast.sig)

theorem orderly_deliver {w w' : World} {d : Delivery} (delivered : Delivered w w' d) :
    w.Orderly (.deliver d.number d.device) ↔ w.InOrder d := by
  simp [Orderly, InOrder, delivered.sent, delivered.here]

theorem Delivered.wait_unused {w w' : World} {d : Delivery} (delivered : Delivered w w' d)
    (known : w.Known) {wait : Wait} (released : d.script.Released d.broadcast.sig wait) :
    wait.consumed = true → d.broadcast.sig = -1 := by
  have sound := known.sound d.script (List.mem_of_getElem? delivered.here)
  obtain ⟨met, -⟩ := released
  obtain ⟨e, first, met⟩ := Option.bind_eq_some_iff.mp met
  have mem : e ∈ d.script.elements := List.mem_of_mem_drop (List.mem_of_head? first)
  exact Element.waiting_unused (Element.allSound_iff.mp sound e mem) met

theorem inOrder_of_fair {w w' : World} {d : Delivery} (known : w.Known)
    (delivered : Delivered w w' d) (fair : w'.Fair) : w.InOrder d := by
  have mem : d ∈ w'.deliveries := by simp [delivered.deliveries]
  rcases Script.postEvent_stays.mp (fair.none_skipped d mem) with unmoved | ⟨wait, released⟩
  · exact .inl unmoved
  have consumed : d.consumed = [(d.script.el_iter, wait)] := Script.consumes_released released
  refine .inr ⟨wait, released, fun _ => ?_, fun executed => ?_⟩
  · exact fair.none_again d mem (d.script.el_iter, wait) (by simp [consumed])
  · have once := fair.one_released d.number
    rw [released_append delivered, if_pos ⟨rfl, executed⟩, consumed] at once
    have before : (w.released d.number).length = 0 := by
      simpa using once
    exact (released_nil known delivered.sent executed).mp (List.length_eq_zero_iff.mp before)

theorem fair_of_inOrder {w w' : World} {d : Delivery} (known : w.Known) (fair : w.Fair)
    (delivered : Delivered w w' d) (order : w.InOrder d) : w'.Fair := by
  have stays : (d.script.postEvent d.broadcast.sig).el_iter = d.script.el_iter := by
    apply Script.postEvent_stays.mpr
    rcases order with unmoved | ⟨wait, released, -⟩
    · exact .inl unmoved
    · exact .inr ⟨wait, released⟩
  refine ⟨fun number => ?_, fun e mem => ?_, fun e mem => ?_⟩
  · rw [released_append delivered]
    by_cases counted : d.number = number ∧ d.broadcast.executed = true
    · rw [if_pos counted]
      obtain ⟨rfl, executed⟩ := counted
      rcases order with unmoved | ⟨wait, released, -, others⟩
      · have nothing : d.consumed = [] := Script.consumes_unmoved.mpr unmoved
        simpa [nothing] using fair.one_released d.number
      · have one : d.consumed = [(d.script.el_iter, wait)] := Script.consumes_released released
        have before := (released_nil known delivered.sent executed).mpr (others executed)
        simp [one, before]
    · simpa [if_neg counted] using fair.one_released number
  · rw [delivered.deliveries] at mem
    rcases List.mem_append.mp mem with mem | mem
    · exact fair.none_skipped e mem
    · rwa [List.mem_singleton.mp mem]
  · rw [delivered.deliveries] at mem
    rcases List.mem_append.mp mem with mem | mem
    · exact fair.none_again e mem
    · rw [List.mem_singleton.mp mem]
      rcases order with unmoved | ⟨wait, released, unused, -⟩
      · have nothing : d.consumed = [] := Script.consumes_unmoved.mpr unmoved
        simp [nothing]
      · have one : d.consumed = [(d.script.el_iter, wait)] := Script.consumes_released released
        cases flag : wait.consumed with
        | false => simp [one, flag]
        | true =>
          rw [unused (delivered.wait_unused known released flag)] at flag
          cases flag

theorem step_fair {w : World} {event : Event} (known : w.Known) (fair : w.Fair)
    (enabled : w.Enabled event) : (w.step event).Fair ↔ w.Orderly event := by
  cases event with
  | start device s => exact iff_of_true (fair_of_same (w := w) rfl fair) trivial
  | goes device s => exact iff_of_true (fair_of_same (w := w) rfl fair) trivial
  | post device b => exact iff_of_true (fair_of_same (w := w) rfl fair) trivial
  | deliver number device =>
    obtain ⟨d, rfl, rfl, delivered⟩ := deliver_spec enabled
    rw [orderly_deliver delivered]
    exact ⟨inOrder_of_fair known delivered, fair_of_inOrder known fair delivered⟩

/-- Over every order of the steps of any scripts: each signal that is sent releases one wait at
most, skips no element and takes no wait a second time just when every signal comes to a script
that does not wait for it or waits where it is, before the signal met another wait. -/
theorem signals_fair_iff (devices : Nat) (events : List Event)
    (runs : Guarded step Enabled (idle devices) events) :
    (∀ done, done <+: events → (run step (idle devices) done).Fair) ↔
      Guarded step Orderly (idle devices) events := by
  have kept : ∀ w event, Known w ∧ Fair w → w.Enabled event → w.Orderly event →
      Known (w.step event) ∧ Fair (w.step event) := by
    intro w event good enabled order
    exact ⟨step_known good.1 enabled, (step_fair good.1 good.2 enabled).mpr order⟩
  have exact_order : ∀ w event, Known w ∧ Fair w → w.Enabled event → Fair (w.step event) →
      w.Orderly event := by
    intro w event good enabled
    exact (step_fair good.1 good.2 enabled).mp
  exact prefixes_iff_guarded_enabled (fun w good => good.2) kept exact_order
    ⟨known_idle devices, fair_idle devices⟩ runs

def handshake : List Event :=
  [.start 0 ⟨[.waitSignal ⟨1, false⟩, .other], 0⟩,
    .start 1 ⟨[.other, .sendSignal 1 false], 0⟩,
    .goes 1 ⟨[.other, .sendSignal 1 false], 1⟩,
    .post 1 ⟨1, true⟩,
    .deliver 0 0,
    .deliver 0 1]

theorem handshake_fair :
    (∀ done, done <+: handshake → (run step (idle 2) done).Fair) ↔
      Guarded step Orderly (idle 2) handshake :=
  signals_fair_iff 2 handshake (by decide)

def two_waits : List Event :=
  [.start 0 ⟨[.waitSignal ⟨1, false⟩], 0⟩,
    .start 1 ⟨[.waitSignal ⟨1, false⟩], 0⟩,
    .start 2 ⟨[.sendSignal 1 false], 0⟩,
    .post 2 ⟨1, true⟩,
    .deliver 0 0,
    .deliver 0 1]

theorem two_waits_released :
    Guarded step Enabled (idle 3) two_waits ∧ ¬ (run step (idle 3) two_waits).Fair := by
  refine ⟨by decide, fun fair => ?_⟩
  have once := fair.one_released 0
  revert once
  decide

end World

end Rts2.Scripts.Signals
