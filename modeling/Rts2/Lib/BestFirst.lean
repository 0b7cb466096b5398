import Rts2.Lib.Fuel

/-! Best-first search with lazy deletion: a node can be in the queue several times, and is closed when
it comes out first. Times need no laws. -/
namespace Rts2.Lib

variable {V K : Type}

/-- Steps that can be taken, with their times, from each node to those that are tried from it; `bound`
is what the rest of the way is guessed to take. -/
structure Network (V K : Type) where
  start : V
  target : V
  nexts : V → List V
  time : V → V → Option K
  bound : V → K

structure Search (V K : Type) where
  g : V → Option K
  parent : V → Option V
  closed : V → Bool
  queue : List (K ×ₗ V)

namespace Search

section

variable (G : Network V K)

def Step (u v : V) : Prop := v ∈ G.nexts u ∧ (G.time u v).isSome

inductive Trail (parent : V → Option V) (start : V) : V → List V → Prop
  | start : Trail parent start start [start]
  | next {u v : V} {path : List V} (trail : Trail parent start u path) (link : parent v = some u)
      (fresh : v ∉ path) : Trail parent start v (v :: path)

def Tried (s : Search V K) (u : V) : Prop := ∀ v, Step G u v → (s.g v).isSome

structure Sound (nodes : Finset V) (s : Search V K) : Prop where
  trail : ∀ u, s.closed u → ∃ path, Trail s.parent G.start u path ∧ ∀ x ∈ path, s.closed x
  parent : ∀ v u, s.parent v = some u → s.closed u ∧ Step G u v
  reached : ∀ v, (s.g v).isSome ↔ v = G.start ∨ (s.parent v).isSome
  waiting : ∀ v, (s.g v).isSome → s.closed v = false → ∃ k, toLex (k, v) ∈ s.queue
  queued : ∀ k v, toLex (k, v) ∈ s.queue → (s.g v).isSome ∧ v ∈ nodes

structure Ended (G : Network V K) (nodes : Finset V) (s : Search V K) : Prop where
  sound : s.Sound G nodes
  tried : ∀ u, s.closed u → u ≠ G.target → s.Tried G u
  ends : s.closed G.target ∨ s.queue = []

end

variable {G : Network V K} {nodes : Finset V} {s : Search V K}

theorem Trail.congr {parent parent' : V → Option V} {start v : V} {path : List V}
    (trail : Trail parent start v path) (same : ∀ x ∈ path, parent' x = parent x) :
    Trail parent' start v path := by
  induction trail with
  | start => exact .start
  | next _ link fresh ih =>
    exact .next (ih fun x mem => same x (List.mem_cons_of_mem _ mem))
      ((same _ List.mem_cons_self).trans link) fresh

theorem Trail.nodup {parent : V → Option V} {start v : V} {path : List V}
    (trail : Trail parent start v path) : path.Nodup := by
  induction trail with
  | start => exact List.nodup_singleton _
  | next _ _ fresh ih => exact List.nodup_cons.mpr ⟨fresh, ih⟩

theorem Trail.reverse {parent : V → Option V} {start v : V} {path : List V}
    (trail : Trail parent start v path) : ∃ rest, path.reverse = start :: rest ∧
      (∀ x ∈ rest, (parent x).isSome) ∧ (∀ w ∈ rest.head?, parent w = some start) ∧
        (start :: rest).getLast? = some v := by
  induction trail with
  | start => exact ⟨[], rfl, fun _ mem => absurd mem List.not_mem_nil, by simp, rfl⟩
  | @next u v path trail link fresh ih =>
    obtain ⟨rest, same, linked, first, last⟩ := ih
    refine ⟨rest ++ [v], by rw [List.reverse_cons, same, List.cons_append], fun x mem => ?_,
      fun w mem => ?_, by rw [← List.cons_append, List.getLast?_concat]⟩
    · rcases List.mem_append.mp mem with mem | mem
      · exact linked x mem
      · rw [List.mem_singleton.mp mem, link]
        rfl
    · cases rest with
      | nil =>
        have here : u = start := (Option.some.inj last).symm
        cases mem
        exact here ▸ link
      | cons y ys => exact first w mem

theorem Sound.closed_reached (sound : s.Sound G nodes) {u : V} (closed : s.closed u) :
    (s.g u).isSome := by
  obtain ⟨path, trail, _⟩ := sound.trail u closed
  rw [sound.reached]
  cases trail with
  | start => exact .inl rfl
  | next _ link _ => exact .inr (Option.isSome_iff_exists.mpr ⟨_, link⟩)

namespace Ended

theorem trail (ended : s.Ended G nodes) {v : V} (reached : v = G.start ∨ (s.parent v).isSome) :
    ∃ path, Trail s.parent G.start v path := by
  by_cases closed : s.closed v
  · obtain ⟨path, trail, _⟩ := ended.sound.trail v closed
    exact ⟨path, trail⟩
  · rcases reached with rfl | linked
    · exact ⟨_, .start⟩
    · obtain ⟨u, link⟩ := Option.isSome_iff_exists.mp linked
      obtain ⟨path, trail, all⟩ := ended.sound.trail u (ended.sound.parent v u link).1
      exact ⟨v :: path, .next trail link fun mem => closed (all v mem)⟩

theorem steps (ended : s.Ended G nodes) {v : V} {path : List V}
    (trail : Trail s.parent G.start v path) : Relation.ReflTransGen (Step G) G.start v := by
  induction trail with
  | start => exact .refl
  | next _ link _ ih => exact ih.tail (ended.sound.parent _ _ link).2

theorem target_iff (ended : s.Ended G nodes) (away : G.target ≠ G.start) :
    (s.parent G.target).isSome ↔ Relation.ReflTransGen (Step G) G.start G.target := by
  constructor
  · intro linked
    obtain ⟨path, trail⟩ := ended.trail (.inr linked)
    exact ended.steps trail
  · intro steps
    have found : (s.g G.target).isSome := by
      by_cases closed : s.closed G.target
      · exact ended.sound.closed_reached closed
      · have all_closed {v : V} (reached : (s.g v).isSome) : s.closed v := by
          by_contra unclosed
          obtain ⟨k, mem⟩ := ended.sound.waiting v reached (by simpa using unclosed)
          rw [ended.ends.resolve_left closed] at mem
          cases mem
        have all {v : V} (steps : Relation.ReflTransGen (Step G) G.start v) : (s.g v).isSome := by
          induction steps with
          | refl => exact (ended.sound.reached _).mpr (.inl rfl)
          | @tail u v _ step ih =>
            have closed' := all_closed ih
            refine ended.tried u closed' ?_ v step
            rintro rfl
            exact closed closed'
        exact all steps
    exact ((ended.sound.reached _).mp found).resolve_left away

end Ended

section

variable [LinearOrder V] [LinearOrder K] [Add K] (G : Network V K)

def improve (u v : V) (gv : K) (s : Search V K) : Search V K :=
  { s with
    g := Function.update s.g v (some gv)
    parent := Function.update s.parent v (some u)
    queue := s.queue.orderedInsert (· ≤ ·) (toLex (gv + G.bound v, v)) }

def relax (u : V) (s : Search V K) (v : V) : Search V K :=
  match s.g u, G.time u v with
  | some gu, some t =>
    if s.closed v ∨ (s.g v).any (· ≤ gu + t) then s else s.improve G u v (gu + t)
  | _, _ => s

def start [Zero K] : Search V K where
  g := Function.update (fun _ => none) G.start (some 0)
  parent := fun _ => none
  closed := fun _ => false
  queue := [toLex (G.bound G.start, G.start)]

def close (s : Search V K) (u : V) : Search V K :=
  { s with closed := Function.update s.closed u true }

def expand (u : V) (s : Search V K) : Search V K := (G.nexts u).foldl (relax G u) s

def run : Nat → Search V K → Option (Search V K)
  | 0, _ => none
  | fuel + 1, s =>
    match s.queue with
    | [] => some s
    | top :: queue =>
      let u := (ofLex top).2
      let s := { s with queue := queue }
      if s.closed u then run fuel s
      else if u = G.target then some (s.close u)
      else run fuel (expand G u (s.close u))

end

variable [LinearOrder V] [LinearOrder K] [Add K]

theorem relax_cases (u : V) (s : Search V K) (v : V) :
    s.relax G u v = s ∧ ((s.g u).isSome → (G.time u v).isSome → s.closed v ∨ (s.g v).isSome) ∨
      ∃ gv, s.closed v = false ∧ (G.time u v).isSome ∧ s.relax G u v = s.improve G u v gv := by
  unfold relax
  split
  · rename_i gu t from_ step
    split
    · rename_i passed
      refine .inl ⟨rfl, fun _ _ => passed.imp_right fun less => ?_⟩
      cases h : s.g v with
      | none => simp [h] at less
      | some _ => rfl
    · rename_i free
      exact .inr ⟨gu + t, by simpa using (not_or.mp free).1, by rw [step]; rfl, rfl⟩
  · rename_i none_
    refine .inl ⟨rfl, fun from_ step => ?_⟩
    obtain ⟨gu, from_⟩ := Option.isSome_iff_exists.mp from_
    obtain ⟨t, step⟩ := Option.isSome_iff_exists.mp step
    exact absurd step (none_ gu t from_)

theorem improve_g (u v : V) (gv : K) (s : Search V K) (x : V) :
    (s.improve G u v gv).g x = if x = v then some gv else s.g x :=
  Function.update_apply ..

theorem improve_parent (u v : V) (gv : K) (s : Search V K) (x : V) :
    (s.improve G u v gv).parent x = if x = v then some u else s.parent x :=
  Function.update_apply ..

theorem mem_improve_queue {u v : V} {gv : K} {s : Search V K} {top : K ×ₗ V} :
    top ∈ (s.improve G u v gv).queue ↔ top = toLex (gv + G.bound v, v) ∨ top ∈ s.queue :=
  List.mem_orderedInsert _

theorem improve_keeps (u v : V) (gv : K) {s : Search V K} {x : V} (reached : (s.g x).isSome) :
    ((s.improve G u v gv).g x).isSome := by
  rw [improve_g]
  split
  · rfl
  · exact reached

theorem relax_closed (u : V) (s : Search V K) (v : V) : (s.relax G u v).closed = s.closed := by
  rcases relax_cases (G := G) u s v with ⟨same, _⟩ | ⟨gv, _, _, same⟩
  · rw [same]
  · rw [same]
    rfl

theorem relax_keeps (u : V) (s : Search V K) (v : V) {x : V} (reached : (s.g x).isSome) :
    ((s.relax G u v).g x).isSome := by
  rcases relax_cases (G := G) u s v with ⟨same, _⟩ | ⟨gv, _, _, same⟩
  · rw [same]
    exact reached
  · rw [same]
    exact improve_keeps u v gv reached

theorem Sound.relax (sound : s.Sound G nodes) {u v : V} (closed : s.closed u) (next : v ∈ G.nexts u)
    (inside : v ∈ nodes) :
    (s.relax G u v).Sound G nodes ∧ ((G.time u v).isSome → ((s.relax G u v).g v).isSome) := by
  rcases relax_cases (G := G) u s v with ⟨same, passed⟩ | ⟨gv, unclosed, step, same⟩
  · rw [same]
    refine ⟨sound, fun step => ?_⟩
    exact (passed (sound.closed_reached closed) step).elim sound.closed_reached id
  · rw [same]
    refine ⟨⟨fun x closed' => ?_, fun x y link => ?_, fun x => ?_, fun x reached unclosed' => ?_,
      fun k x mem => ?_⟩, fun _ => by rw [improve_g, if_pos rfl]; rfl⟩
    · obtain ⟨path, trail, all⟩ := sound.trail x closed'
      refine ⟨path, trail.congr fun y mem => ?_, all⟩
      rw [improve_parent, if_neg]
      rintro rfl
      rw [all y mem] at unclosed
      cases unclosed
    · rw [improve_parent] at link
      split at link
      · rename_i here
        cases link
        exact ⟨closed, here ▸ ⟨next, step⟩⟩
      · exact sound.parent x y link
    · rw [improve_g, improve_parent]
      split
      · simp only [Option.isSome_some, or_true]
      · exact sound.reached x
    · rw [improve_g] at reached
      split at reached
      · rename_i here
        rw [here]
        exact ⟨_, mem_improve_queue.mpr (.inl rfl)⟩
      · obtain ⟨k, mem⟩ := sound.waiting x reached unclosed'
        exact ⟨k, mem_improve_queue.mpr (.inr mem)⟩
    · rcases mem_improve_queue.mp mem with same | mem
      · cases toLex.injective same
        rw [improve_g, if_pos rfl]
        exact ⟨rfl, inside⟩
      · obtain ⟨reached, inside'⟩ := sound.queued k x mem
        exact ⟨improve_keeps u v gv reached, inside'⟩

theorem expand_closed (u : V) (s : Search V K) : (s.expand G u).closed = s.closed := by
  unfold expand
  induction G.nexts u generalizing s with
  | nil => rfl
  | cons v vs ih => rw [List.foldl_cons, ih, relax_closed]

theorem foldl_keeps (u : V) (vs : List V) (s : Search V K) {x : V} (reached : (s.g x).isSome) :
    ((vs.foldl (relax G u) s).g x).isSome := by
  induction vs generalizing s with
  | nil => exact reached
  | cons v vs ih =>
    rw [List.foldl_cons]
    exact ih _ (relax_keeps u s v reached)

theorem Sound.expand (sound : s.Sound G nodes) {u : V} (closed : s.closed u)
    (inside : ∀ v ∈ G.nexts u, v ∈ nodes) : (s.expand G u).Sound G nodes ∧ (s.expand G u).Tried G u := by
  have all (vs : List V) (some_ : ∀ v ∈ vs, v ∈ G.nexts u) (s : Search V K) (sound : s.Sound G nodes)
      (closed : s.closed u) : (vs.foldl (Search.relax G u) s).Sound G nodes ∧
        ∀ v ∈ vs, (G.time u v).isSome → ((vs.foldl (Search.relax G u) s).g v).isSome := by
    induction vs generalizing s with
    | nil => exact ⟨sound, fun _ mem => absurd mem List.not_mem_nil⟩
    | cons v vs ih =>
      obtain ⟨first, rest⟩ := List.forall_mem_cons.mp some_
      obtain ⟨sound', reached⟩ := sound.relax closed first (inside v first)
      obtain ⟨sound'', reached'⟩ := ih rest _ sound' (by rw [relax_closed]; exact closed)
      refine ⟨sound'', fun x mem step => ?_⟩
      rcases List.mem_cons.mp mem with rfl | mem
      · exact foldl_keeps u vs _ (reached step)
      · exact reached' x mem step
  obtain ⟨sound', tried⟩ := all (G.nexts u) (fun _ mem => mem) s sound closed
  exact ⟨sound', fun v step => tried v step.1 step.2⟩

omit [LinearOrder K] [Add K] in
theorem Sound.pop (sound : s.Sound G nodes) {k : K} {u : V} {queue : List (K ×ₗ V)}
    (first : s.queue = toLex (k, u) :: queue) : (close { s with queue := queue } u).Sound G nodes := by
  have reached := (sound.queued k u (first ▸ List.mem_cons_self)).1
  have closes (x : V) : (close { s with queue := queue } u).closed x = (x = u || s.closed x) := by
    by_cases here : x = u <;> simp [close, here]
  refine ⟨fun x closed => ?_, fun x y link => ?_, sound.reached, fun x reached' unclosed => ?_,
    fun k x mem => sound.queued k x (first ▸ List.mem_cons_of_mem _ mem)⟩
  · have later {x : V} (closed : s.closed x) : ∃ path, Trail s.parent G.start x path ∧
        ∀ y ∈ path, (close { s with queue := queue } u).closed y := by
      obtain ⟨path, trail, all⟩ := sound.trail x closed
      exact ⟨path, trail, fun y mem => by rw [closes, all y mem, Bool.or_true]⟩
    by_cases before : s.closed x
    · exact later before
    · have here : x = u := by
        rw [closes] at closed
        simpa [before] using closed
      subst here
      rcases (sound.reached x).mp reached with rfl | linked
      · exact ⟨[G.start], .start, fun y mem => by
          rw [List.mem_singleton.mp mem, closes, decide_eq_true rfl, Bool.true_or]⟩
      · obtain ⟨p, link⟩ := Option.isSome_iff_exists.mp linked
        obtain ⟨path, trail, all⟩ := sound.trail p (sound.parent x p link).1
        refine ⟨x :: path, .next trail link fun mem => before (all x mem), fun y mem => ?_⟩
        rcases List.mem_cons.mp mem with rfl | mem
        · exact closed
        · rw [closes, all y mem, Bool.or_true]
  · obtain ⟨closed, step⟩ := sound.parent x y link
    exact ⟨by rw [closes, closed, Bool.or_true], step⟩
  · rw [closes] at unclosed
    obtain ⟨other, unclosed⟩ := Bool.or_eq_false_iff.mp unclosed
    obtain ⟨k', mem⟩ := sound.waiting x reached' unclosed
    rw [first] at mem
    rcases List.mem_cons.mp mem with same | mem
    · cases toLex.injective same
      simp at other
    · exact ⟨k', mem⟩

omit [LinearOrder K] [Add K] in
theorem close_closed {u : V} (closed : s.closed u) (queue : List (K ×ₗ V)) :
    close { s with queue := queue } u = { s with queue := queue } := by
  rw [close]
  have same : Function.update s.closed u true = s.closed := by
    rw [← closed, Function.update_eq_self]
  exact congrArg (fun closed => Search.mk s.g s.parent closed queue) same

def left (nodes : Finset V) (s : Search V K) : Nat := (nodes.filter fun u => s.closed u = false).card

theorem run_ends (inside : ∀ u, ∀ v ∈ G.nexts u, v ∈ nodes) (s : Search V K) (sound : s.Sound G nodes)
    (tried : ∀ u, s.closed u → s.Tried G u) :
    ∃ s', Gives (fun fuel => s.run G fuel) s' ∧ s'.Ended G nodes := by
  cases first : s.queue with
  | nil =>
    refine ⟨s, .next (fun fuel => ?_) (.now s), sound, fun u closed _ => tried u closed, .inr first⟩
    rw [run, first]
  | cons top queue =>
    obtain ⟨⟨k, u⟩, rfl⟩ := toLex.surjective top
    have popped := sound.pop first
    obtain ⟨_, mem⟩ := sound.queued k u (first ▸ List.mem_cons_self)
    by_cases closed : s.closed u
    · rw [close_closed closed] at popped
      have step : ∀ fuel, s.run G (fuel + 1) = run G fuel { s with queue := queue } := by
        intro fuel
        rw [run, first]
        simp only [ofLex_toLex, closed, if_true]
      obtain ⟨s', gives, ended⟩ := run_ends inside { s with queue := queue } popped tried
      exact ⟨s', .next step gives, ended⟩
    · have closed' : s.closed u = false := by simpa using closed
      let s₁ := close { s with queue := queue } u
      have tried' (x : V) (closed : s₁.closed x) (other : x ≠ u) : s₁.Tried G x := by
        have before : s.closed x := by
          have kept : s₁.closed x = s.closed x := Function.update_of_ne other _ _
          exact kept ▸ closed
        exact tried x before
      have now : s₁.closed u := Function.update_self ..
      by_cases found : u = G.target
      · have step : ∀ fuel, s.run G (fuel + 1) = some s₁ := by
          intro fuel
          rw [run, first]
          simp [s₁, found ▸ closed', found]
        exact ⟨s₁, .next step (.now s₁), popped, fun x closed other => tried' x closed (found ▸ other),
          .inl (found ▸ now)⟩
      · obtain ⟨sound', triedu⟩ := popped.expand now (inside u)
        have fewer : left nodes (s₁.expand G u) < left nodes s := by
          refine Finset.card_lt_card (Finset.ssubset_iff_of_subset (fun x mem => ?_) |>.mpr
            ⟨u, Finset.mem_filter.mpr ⟨mem, closed'⟩, fun mem' => ?_⟩)
          · rw [expand_closed, Finset.mem_filter] at mem
            refine Finset.mem_filter.mpr ⟨mem.1, ?_⟩
            have other : x ≠ u := by
              rintro rfl
              rw [now] at mem
              cases mem.2
            have kept : s₁.closed x = s.closed x := Function.update_of_ne other _ _
            exact kept ▸ mem.2
          · rw [expand_closed, Finset.mem_filter, now] at mem'
            cases mem'.2
        have step : ∀ fuel, s.run G (fuel + 1) = run G fuel (s₁.expand G u) := by
          intro fuel
          rw [run, first]
          simp [s₁, closed', found]
        obtain ⟨s', gives, ended⟩ := run_ends inside (s₁.expand G u) sound' fun x closed => by
          rw [expand_closed] at closed
          by_cases here : x = u
          · subst here
            exact triedu
          · intro v step
            exact foldl_keeps u _ s₁ (tried' x closed here v step)
        exact ⟨s', .next step gives, ended⟩
termination_by (left nodes s, s.queue.length)
decreasing_by
  · rw [first]
    exact .right _ (Nat.lt_succ_self _)
  · exact .left _ _ fewer

omit [LinearOrder K] [Add K] in
theorem start_sound [Zero K] (inside : G.start ∈ nodes) : (start G : Search V K).Sound G nodes := by
  have g (v : V) : ((start G : Search V K).g v).isSome ↔ v = G.start := by
    have value : (start G : Search V K).g v = if v = G.start then some 0 else none :=
      Function.update_apply (fun _ => none) G.start (some (0 : K)) v
    rw [value]
    split <;> simp_all
  refine ⟨fun _ closed => absurd closed Bool.false_ne_true,
    fun _ _ link => absurd link.symm (Option.some_ne_none _), fun v => ?_, fun v reached _ => ?_,
    fun k v mem => ?_⟩
  · rw [g]
    simp [start]
  · rw [g] at reached
    rw [reached]
    exact ⟨_, List.mem_singleton_self _⟩
  · obtain ⟨rfl, rfl⟩ := Prod.mk.inj (toLex.injective (List.mem_singleton.mp mem))
    exact ⟨(g _).mpr rfl, inside⟩

theorem run_more (G : Network V K) (fuel : Nat) (s s' : Search V K) (ended : run G fuel s = some s') :
    run G (fuel + 1) s = some s' := by
  induction fuel generalizing s with
  | zero => cases ended
  | succ fuel ih =>
    rw [run] at ended ⊢
    split
    · rename_i none_left
      simpa [none_left] using ended
    · rename_i top queue first
      simp only [first] at ended
      dsimp only
      split
      · rename_i closed
        rw [if_pos closed] at ended
        exact ih _ ended
      · rename_i unclosed
        rw [if_neg unclosed] at ended
        split
        · rename_i found
          rwa [if_pos found] at ended
        · rename_i other
          rw [if_neg other] at ended
          exact ih _ ended

theorem search_ends [Zero K] (start_inside : G.start ∈ nodes)
    (inside : ∀ u, ∀ v ∈ G.nexts u, v ∈ nodes) :
    ∃ s, Gives (fun fuel => run G fuel (start G)) s ∧ s.Ended G nodes :=
  run_ends inside (start G) (start_sound start_inside) fun u closed => by cases closed

end Search

end Rts2.Lib
