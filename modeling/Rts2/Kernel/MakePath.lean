import Mathlib

/-! The creation of the directories of a path. What the last slash leaves behind it is the path's last component,
which is empty where the path ends in a slash. -/
namespace Rts2.Kernel.MakePath

abbrev Text := List Char

inductive MkdirResult where
  | made | EEXIST | other
  deriving DecidableEq

/-- What a text names: names from the root or from where the process is. -/
structure Dir where
  absolute : Bool
  names : List Text
  deriving DecidableEq

def components (t : Text) : List Text := (t.splitOn '/').filter (!·.isEmpty)

def Dir.of (t : Text) : Dir := ⟨t.head? = some '/', components t⟩

/-- The root, where the process is, and what was asked for already are there; the file system answers for the others. -/
def mkdir (fs : Dir → MkdirResult) (calls : List Text) (t : Text) : MkdirResult :=
  if components t = [] ∨ Dir.of t ∈ calls.map Dir.of then .EEXIST else fs (Dir.of t)

inductive Phase where
  | start | scan
  deriving DecidableEq

/-- The loop behind the text that was passed, with the texts mkdir () was called with. None where the end of the
path is passed; otherwise what is returned. -/
def walk (fs : Dir → MkdirResult) : Phase → List Text → Text → Text → Option (Int × List Text)
  | .start, _, _, [] => none
  | .start, calls, passed, c :: rest => walk fs .scan calls (passed ++ [c]) rest
  | .scan, calls, _, [] => some (0, calls)
  | .scan, calls, passed, c :: rest =>
    if c = '/' then
      match mkdir fs calls passed with
      | .other => some (-1, calls ++ [passed])
      | _ => walk fs .start (calls ++ [passed]) (passed ++ [c]) rest
    else walk fs .scan calls (passed ++ [c]) rest

def mkpath (fs : Dir → MkdirResult) (path : Text) : Option (Int × List Text) := walk fs .start [] [] path

def Ancestor (path : Text) (d : Dir) : Prop :=
  ∃ p q, path = p ++ '/' :: q ∧ components p ≠ [] ∧ d = Dir.of p

def Above (d' d : Dir) : Prop := d'.absolute = d.absolute ∧ d'.names <+: d.names ∧ d' ≠ d

def Called (fs : Dir → MkdirResult) (path : Text) (calls : List Text) : Prop :=
  ∀ d, Ancestor path d → (∀ d', Ancestor path d' → Above d' d → fs d' ≠ .other) → d ∈ calls.map Dir.of

def Ordered (calls : List Text) : Prop :=
  ∀ before t after, calls = before ++ t :: after → ∀ d, d.names ≠ [] → Above d (Dir.of t) →
    d ∈ before.map Dir.of

/-- The path is not read past its end, all ancestors are asked for in their order, and the failure of one of them is
returned. -/
def Right (fs : Dir → MkdirResult) (path : Text) : Prop :=
  ∃ ret calls, mkpath fs path = some (ret, calls) ∧ Called fs path calls ∧ Ordered calls ∧
    (ret ≠ 0 ↔ ∃ d, Ancestor path d ∧ fs d = .other)

def trailing (path : Text) : Nat := (path.reverse.takeWhile (· = '/')).length

theorem components_slash (p q : Text) : components (p ++ '/' :: q) = components p ++ components q := by
  rw [components, List.splitOn_append_cons_self, List.filter_append]
  rfl

theorem components_nil : components [] = [] := rfl

theorem components_behind (p : Text) : components (p ++ ['/']) = components p := by
  rw [components_slash, components_nil, List.append_nil]

theorem components_single {t : Text} (word : '/' ∉ t) (some_ : t ≠ []) : components t = [t] := by
  rw [components, List.splitOn_eq_singleton word]
  simp [some_]

theorem head_slash {p : Text} (some_ : components p ≠ []) (q : Text) : (p ++ q).head? = p.head? := by
  cases p with
  | nil => exact absurd components_nil some_
  | cons c p => rfl

theorem of_behind {p : Text} (some_ : components p ≠ []) : Dir.of (p ++ ['/']) = Dir.of p := by
  rw [Dir.of, Dir.of, components_behind, head_slash some_]

theorem last_slash {t : Text} (slash : '/' ∈ t) : ∃ p q, t = p ++ '/' :: q ∧ '/' ∉ q := by
  obtain ⟨q, p, same, word⟩ := List.eq_append_cons_of_mem (List.mem_reverse.mpr slash)
  refine ⟨p.reverse, q.reverse, ?_, fun mem => word (List.mem_reverse.mp mem)⟩
  rw [← List.reverse_reverse t, same]
  simp

theorem above_ancestor (t : Text) {d : Dir} (some_ : d.names ≠ []) (above : Above d (Dir.of t)) : Ancestor t d := by
  induction hn : t.length using Nat.strong_induction_on generalizing t with
  | h n ih =>
    obtain ⟨root, inits, other⟩ := above
    by_cases slash : '/' ∈ t
    · obtain ⟨p, q, rfl, word⟩ := last_slash slash
      have shorter : p.length < n := by
        rw [← hn, List.length_append, List.length_cons]
        omega
      have before (part : d.names <+: components p) : Ancestor (p ++ '/' :: q) d := by
        have named : components p ≠ [] := by
          rintro none_
          rw [none_] at part
          exact some_ (List.prefix_nil.mp part)
        have root' : d.absolute = (Dir.of p).absolute := by
          rw [root, Dir.of, Dir.of]
          simp only [head_slash named]
        by_cases here : d = Dir.of p
        · exact ⟨p, q, rfl, named, here⟩
        · obtain ⟨p', q', rfl, named', same⟩ := ih p.length shorter p ⟨root', part, here⟩ rfl
          exact ⟨p', q' ++ '/' :: q, by simp, named', same⟩
      apply before
      have whole : (Dir.of (p ++ '/' :: q)).names = components p ++ components q := components_slash p q
      rw [whole] at inits
      rcases List.eq_nil_or_concat q with rfl | ⟨_, _, rfl⟩
      · rw [components_nil, List.append_nil] at inits
        exact inits
      · rw [components_single word (by simp)] at inits whole
        rcases List.prefix_concat_iff.mp inits with all | part
        · refine absurd ?_ other
          cases d
          simp only [Dir.of] at root all
          rw [Dir.of, components_slash, components_single word (by simp)]
          simp only [root, all]
        · exact part
    · exfalso
      by_cases empty : t = []
      · subst empty
        exact some_ (List.prefix_nil.mp inits)
      · have whole : (Dir.of t).names = [t] := components_single slash empty
        rw [whole] at inits
        rcases List.prefix_cons_iff.mp inits with none_ | ⟨_, all, rest⟩
        · exact some_ none_
        · rw [List.prefix_nil.mp rest] at all
          apply other
          cases d
          simp only at root all
          rw [Dir.of, components_single slash empty] at root ⊢
          simp only at root
          rw [root, all]

theorem ancestor_append {t u : Text} {d : Dir} (ancestor : Ancestor (t ++ u) d) :
    Ancestor t d ∨ ∃ r q, u = r ++ '/' :: q ∧ components (t ++ r) ≠ [] ∧ d = Dir.of (t ++ r) := by
  obtain ⟨p, q, same, named, rfl⟩ := ancestor
  rcases List.append_eq_append_iff.mp same with ⟨r, rfl, behind⟩ | ⟨r, rfl, behind⟩
  · exact .inr ⟨r, q, behind, named, rfl⟩
  · cases r with
    | nil => exact .inr ⟨[], q, behind.symm, by rwa [List.append_nil, List.append_nil], by simp only [List.append_nil]⟩
    | cons c r =>
      rw [List.cons_append, List.cons.injEq] at behind
      obtain ⟨rfl, -⟩ := behind
      exact .inl ⟨p, r, rfl, named, rfl⟩

theorem ancestor_next {t : Text} {c : Char} {d : Dir} (ancestor : Ancestor (t ++ [c]) d) :
    Ancestor t d ∨ c = '/' ∧ components t ≠ [] ∧ d = Dir.of t := by
  rcases ancestor_append ancestor with before | ⟨r, q, here, named, same⟩
  · exact .inl before
  · cases r with
    | nil =>
      obtain ⟨rfl, -⟩ := List.cons.inj here
      rw [List.append_nil] at named same
      exact .inr ⟨rfl, named, same⟩
    | cons c' r => exact (by simpa using congrArg List.length here)

theorem ancestor_here {t : Text} (named : components t ≠ []) (q : Text) : Ancestor (t ++ '/' :: q) (Dir.of t) :=
  ⟨t, q, rfl, named, rfl⟩

/-- What holds in front of a character: the ancestors that were passed are there. -/
structure Inv (fs : Dir → MkdirResult) (phase : Phase) (calls : List Text) (passed : Text) : Prop where
  called : ∀ d, Ancestor passed d → d ∈ calls.map Dir.of
  -- start is behind a slash, or at the begin of the path
  behind : phase = .start → ∀ d, Ancestor (passed ++ ['/']) d → d ∈ calls.map Dir.of
  fine : ∀ d ∈ calls.map Dir.of, d.names ≠ [] → fs d ≠ .other
  ordered : Ordered calls

variable {fs : Dir → MkdirResult} {phase : Phase} {calls : List Text} {passed : Text}

theorem Inv.init : Inv fs .start [] [] where
  called d ancestor := by
    obtain ⟨p, q, same, _⟩ := ancestor
    exact (by simpa using congrArg List.length same)
  behind _ d ancestor := by
    rcases ancestor_next ancestor with ⟨p, q, same, _⟩ | ⟨_, named, _⟩
    · exact (by simpa using congrArg List.length same)
    · exact absurd components_nil named
  fine d mem := nomatch mem
  ordered before t after same := by exact (by simpa using congrArg List.length same)

theorem Inv.no_failure (inv : Inv fs phase calls passed) (d : Dir) (ancestor : Ancestor passed d) : fs d ≠ .other := by
  have mem := inv.called d ancestor
  obtain ⟨p, q, _, named, rfl⟩ := ancestor
  exact inv.fine _ mem named

theorem Inv.skip (inv : Inv fs phase calls passed) (c : Char) (moved : phase = .start ∨ c ≠ '/') :
    Inv fs .scan calls (passed ++ [c]) where
  called d ancestor := by
    rcases ancestor_next ancestor with before | ⟨rfl, named, rfl⟩
    · exact inv.called d before
    · rcases moved with start | other
      · exact inv.behind start _ (ancestor_here named [])
      · exact absurd rfl other
  behind start := nomatch start
  fine := inv.fine
  ordered := inv.ordered

theorem Inv.call_fine (inv : Inv fs phase calls passed) (made : mkdir fs calls passed ≠ .other)
    (named : components passed ≠ []) : fs (Dir.of passed) ≠ .other := by
  by_cases asked : Dir.of passed ∈ calls.map Dir.of
  · exact inv.fine _ asked named
  · rw [mkdir, if_neg (not_or.mpr ⟨named, asked⟩)] at made
    exact made

theorem ordered_concat (ordered : Ordered calls)
    (earlier : ∀ d, d.names ≠ [] → Above d (Dir.of passed) → d ∈ calls.map Dir.of) : Ordered (calls ++ [passed]) := by
  intro before t after same
  rcases List.eq_nil_or_concat after with rfl | ⟨after, last, rfl⟩
  · obtain ⟨rfl, one⟩ := List.append_inj' same rfl
    obtain ⟨rfl, -⟩ := List.cons.inj one
    exact earlier
  · have inner : calls ++ [passed] = (before ++ t :: after) ++ [last] := by simpa using same
    exact ordered before t after (List.append_inj' inner rfl).1

theorem Inv.call (inv : Inv fs .scan calls passed) (made : mkdir fs calls passed ≠ .other) :
    Inv fs .start (calls ++ [passed]) (passed ++ ['/']) := by
  have here : Dir.of passed ∈ (calls ++ [passed]).map Dir.of := by simp
  have before (d : Dir) (ancestor : Ancestor (passed ++ ['/']) d) : d ∈ (calls ++ [passed]).map Dir.of := by
    rcases ancestor_next ancestor with before | ⟨-, -, rfl⟩
    · rw [List.map_append]
      exact List.mem_append_left _ (inv.called d before)
    · exact here
  constructor
  · exact before
  · intro _ d ancestor
    rcases ancestor_next ancestor with ancestor | ⟨-, named, rfl⟩
    · exact before d ancestor
    · rw [components_behind] at named
      rw [of_behind named]
      exact here
  · intro d mem named
    rw [List.map_append, List.mem_append] at mem
    rcases mem with mem | mem
    · exact inv.fine d mem named
    · obtain rfl := List.mem_singleton.mp mem
      exact inv.call_fine made named
  · exact ordered_concat inv.ordered fun d some_ above => inv.called d (above_ancestor passed some_ above)

theorem Inv.failed (inv : Inv fs .scan calls passed) (failed : mkdir fs calls passed = .other) (rest : Text) :
    Called fs (passed ++ '/' :: rest) (calls ++ [passed]) ∧ Ordered (calls ++ [passed]) ∧
      ∃ d, Ancestor (passed ++ '/' :: rest) d ∧ fs d = .other := by
  have named : components passed ≠ [] ∧ fs (Dir.of passed) = .other := by
    rw [mkdir] at failed
    split at failed
    · exact nomatch failed
    · rename_i new
      exact ⟨(not_or.mp new).1, failed⟩
  refine ⟨?_, ordered_concat inv.ordered fun d some_ above => inv.called d (above_ancestor passed some_ above),
    Dir.of passed, ancestor_here named.1 rest, named.2⟩
  intro d ancestor fine
  rcases ancestor_append ancestor with before | ⟨r, q, split, _, rfl⟩
  · rw [List.map_append]
    exact List.mem_append_left _ (inv.called d before)
  · cases r with
    | nil => simp
    | cons c r =>
      obtain ⟨rfl, -⟩ := List.cons.inj split
      by_cases same : Dir.of passed = Dir.of (passed ++ '/' :: r)
      · rw [← same]
        simp
      · have above : Above (Dir.of passed) (Dir.of (passed ++ '/' :: r)) := by
          refine ⟨?_, ?_, same⟩
          · simp only [Dir.of, head_slash named.1]
          · simp only [Dir.of, components_slash]
            exact List.prefix_append _ _
        exact absurd named.2 (fine _ (ancestor_here named.1 rest) above)

def next : Phase → Char → Phase
  | .start, _ => .scan
  | .scan, c => if c = '/' then .start else .scan

theorem walk_result (inv : Inv fs phase calls passed) (rest : Text) :
    (walk fs phase calls passed rest = none ∧ rest.foldl next phase = .start ∧
      ∀ d, Ancestor (passed ++ rest) d → fs d ≠ .other) ∨
    ∃ ret calls', walk fs phase calls passed rest = some (ret, calls') ∧ Called fs (passed ++ rest) calls' ∧
      Ordered calls' ∧
      (ret = 0 ∧ rest.foldl next phase = .scan ∧ (∀ d, Ancestor (passed ++ rest) d → fs d ≠ .other) ∨
        ret = -1 ∧ ∃ d, Ancestor (passed ++ rest) d ∧ fs d = .other) := by
  induction rest generalizing phase calls passed with
  | nil =>
    rw [List.append_nil]
    cases phase with
    | start => exact .inl ⟨rfl, rfl, inv.no_failure⟩
    | scan =>
      exact .inr ⟨0, calls, rfl, fun d ancestor _ => inv.called d ancestor, inv.ordered, .inl ⟨rfl, rfl, inv.no_failure⟩⟩
  | cons c rest ih =>
    have whole : passed ++ c :: rest = (passed ++ [c]) ++ rest := by simp
    rw [whole, List.foldl_cons]
    cases phase with
    | start => exact ih (inv.skip c (.inl rfl))
    | scan =>
      by_cases slash : c = '/'
      · subst slash
        have phase : next .scan '/' = .start := rfl
        rw [phase]
        cases answer : mkdir fs calls passed with
        | other =>
          obtain ⟨called, ordered, failing⟩ := inv.failed answer rest
          rw [← whole]
          refine .inr ⟨-1, calls ++ [passed], ?_, called, ordered, .inr ⟨rfl, failing⟩⟩
          simp only [walk, if_true, answer]
        | made =>
          have step : walk fs .scan calls passed ('/' :: rest) =
              walk fs .start (calls ++ [passed]) (passed ++ ['/']) rest := by simp only [walk, if_true, answer]
          rw [step]
          exact ih (inv.call (by rw [answer]; decide))
        | EEXIST =>
          have step : walk fs .scan calls passed ('/' :: rest) =
              walk fs .start (calls ++ [passed]) (passed ++ ['/']) rest := by simp only [walk, if_true, answer]
          rw [step]
          exact ih (inv.call (by rw [answer]; decide))
      · have phase : next .scan c = .scan := if_neg slash
        have step : walk fs .scan calls passed (c :: rest) = walk fs .scan calls (passed ++ [c]) rest := if_neg slash
        rw [phase, step]
        exact ih (inv.skip c (.inr slash))

theorem trailing_concat (t : Text) (c : Char) : trailing (t ++ [c]) = if c = '/' then trailing t + 1 else 0 := by
  rw [trailing, List.reverse_append, List.reverse_singleton, List.singleton_append, List.takeWhile_cons]
  by_cases slash : c = '/' <;> simp [slash, trailing]

theorem ends_start (t : Text) :
    t.foldl next .start = .start ↔ ¬((∃ c ∈ t, c ≠ '/') ↔ Even (trailing t)) := by
  induction t using List.reverseRecOn with
  | nil => simp [trailing]
  | append_singleton t c ih =>
    rw [List.foldl_append, List.foldl_cons, List.foldl_nil, trailing_concat]
    by_cases slash : c = '/'
    · subst slash
      have others : (∃ c ∈ t ++ ['/'], c ≠ '/') ↔ ∃ c ∈ t, c ≠ '/' := by simp
      rw [if_pos rfl, others, Nat.even_add_one]
      cases phase : t.foldl next .start with
      | start =>
        have ended := ih.mp phase
        simp only [next, reduceCtorEq, false_iff]
        tauto
      | scan =>
        have ended : ((∃ c ∈ t, c ≠ '/') ↔ Even (trailing t)) := by
          by_contra odd
          exact nomatch phase.symm.trans (ih.mpr odd)
        simp only [next, if_true, true_iff, ended]
        exact iff_not_self
    · have others : ∃ c' ∈ t ++ [c], c' ≠ '/' := ⟨c, by simp, slash⟩
      have scans : next (t.foldl next .start) c = .scan := by
        cases t.foldl next .start with
        | start => rfl
        | scan => exact if_neg slash
      rw [if_neg slash, scans]
      exact iff_of_false (by decide) (not_not.mpr (iff_of_true others ⟨0, rfl⟩))

theorem right_iff (fs : Dir → MkdirResult) (path : Text) :
    Right fs path ↔ ((∃ c ∈ path, c ≠ '/') ↔ Even (trailing path)) ∨ ∃ d, Ancestor path d ∧ fs d = .other := by
  have result := walk_result (@Inv.init fs) path
  rw [List.nil_append] at result
  rcases result with ⟨beyond, phase, fine⟩ | ⟨ret, calls, returned, called, ordered, result⟩
  · constructor
    · rintro ⟨ret, calls, returned, -⟩
      exact nomatch returned.symm.trans beyond
    · rintro (even | ⟨d, ancestor, failed⟩)
      · exact absurd even ((ends_start path).mp phase)
      · exact absurd failed (fine d ancestor)
  · rcases result with ⟨rfl, phase, fine⟩ | ⟨rfl, failing⟩
    · refine iff_of_true ⟨0, calls, returned, called, ordered, ?_⟩ (.inl ?_)
      · exact iff_of_false (fun nonzero => nonzero rfl) fun ⟨d, ancestor, failed⟩ => fine d ancestor failed
      · by_contra odd
        exact nomatch phase.symm.trans ((ends_start path).mpr odd)
    · exact iff_of_true ⟨-1, calls, returned, called, ordered, iff_of_true (by decide) failing⟩ (.inr failing)

/-- mkpath is right for exactly the paths with an even number of slashes at the end, an odd one when there is nothing
else, and for those where an ancestor can not be created. -/
theorem mkpath_right (fs : Dir → MkdirResult) (path : Text) :
    Right fs path ↔ ((∃ c ∈ path, c ≠ '/') ↔ Even (trailing path)) ∨ ∃ d, Ancestor path d ∧ fs d = .other :=
  right_iff fs path

/-- A directory written with its slash is read past the end. -/
theorem one_slash : ¬Right (fun _ => .made) ['a', '/'] := by
  rw [right_iff]
  have ends : trailing ['a', '/'] = 1 := by decide
  rintro (even | ⟨_, _, failed⟩)
  · rw [ends] at even
    exact absurd (even.mp ⟨'a', by simp, by decide⟩) (by decide)
  · exact nomatch failed

end Rts2.Kernel.MakePath
