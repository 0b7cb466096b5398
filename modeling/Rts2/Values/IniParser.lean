import Rts2.Scripts.Reparsing

/-! Configuration files: sections of values with a name, a suffix, the written value and a comment. An iterator
into a line is what is left of the line; the terminator of a line may be read, nothing behind it. -/
namespace Rts2.Values.Ini

open Scripts.Parsing (Text isspace skip)

structure IniValue where
  valueName : Text
  valueSuffix : Text
  value : Text
  comment : Text
deriving DecidableEq

structure IniSection where
  sectName : Text
  values : List IniValue
deriving DecidableEq

inductive PState where
  | NAME
  | SUFF
  | VAL
  | VAL_QUT
  | VAL_END
  | LINE_END
deriving DecidableEq

structure LineState where
  pstate : PState
  valName : Text
  valSuffix : Text
  val : Text
  comment : Text
  top : Text

def upTo (top es : Text) : Text := top.take (top.length - es.length)

/-- The state when the name has ended: es is at the '=' or at a blank. None is a read behind the line. -/
def startValue (s : LineState) (es : Text) : Option (LineState × Text) :=
  match es.dropWhile (· ≠ '=') with
  | [] => none
  | _ :: es =>
    match skip es with
    | '"' :: after => some ({ s with pstate := .VAL_QUT, top := after }, '"' :: after)
    | es => some ({ s with pstate := .VAL, top := es }, es)

def turn (parseFullLine : Bool) (s : LineState) (c : Char) (rest : Text) : Option (LineState × Text) :=
  match s.pstate with
  | .NAME =>
    if c = '.' then
      some ({ s with valName := s.valName ++ upTo s.top (c :: rest), pstate := .SUFF, top := rest }, c :: rest)
    else if c = '=' ∨ isspace c then startValue { s with valName := upTo s.top (c :: rest) } (c :: rest)
    else some (s, c :: rest)
  | .SUFF =>
    if c = '.' then
      some ({ s with valName := s.valName ++ '.' :: upTo s.top (c :: rest), pstate := .SUFF, top := rest }, c :: rest)
    else if c = '=' ∨ isspace c then startValue { s with valSuffix := upTo s.top (c :: rest) } (c :: rest)
    else some (s, c :: rest)
  | .VAL =>
    if isspace c then
      -- the end of the line is its terminator, which is no blank
      let es := if parseFullLine then [] else c :: rest
      some ({ s with pstate := .VAL_END, val := upTo s.top es }, es)
    else some (s, c :: rest)
  | .VAL_QUT =>
    if c = '"' then some ({ s with pstate := .VAL_END, val := upTo s.top (c :: rest) }, c :: rest)
    else some (s, c :: rest)
  | .VAL_END =>
    if c = ';' ∨ c = '#' then
      some ({ s with comment := if skip rest = [] then s.comment else skip rest, pstate := .LINE_END }, [])
    else some (s, c :: rest)
  | .LINE_END => some (s, c :: rest)

theorem startValue_length {s s' : LineState} {es es' : Text} (h : startValue s es = some (s', es')) :
    es'.length ≤ es.length := by
  have dropped := List.length_dropWhile_le (· ≠ '=') es
  unfold startValue at h
  split at h
  · cases h
  · rename_i c es₁ eq
    rw [eq] at dropped
    have skipped : (skip es₁).length ≤ es₁.length := List.length_dropWhile_le ..
    simp only [List.length_cons] at dropped
    split at h
    · rename_i after eq'
      rw [eq'] at skipped
      obtain ⟨-, rfl⟩ := Prod.mk.inj (Option.some.inj h)
      omega
    · obtain ⟨-, rfl⟩ := Prod.mk.inj (Option.some.inj h)
      omega

theorem turn_length {full : Bool} {s s' : LineState} {c : Char} {rest es : Text}
    (h : turn full s c rest = some (s', es)) : es.length ≤ rest.length + 1 := by
  have kept : ∀ {x : LineState}, some (x, c :: rest) = some (s', es) → es.length ≤ rest.length + 1 := by
    intro x h
    obtain ⟨-, rfl⟩ := Prod.mk.inj (Option.some.inj h)
    rfl
  unfold turn at h
  split at h
  · split at h
    · exact kept h
    · split at h
      · exact startValue_length h
      · exact kept h
  · split at h
    · exact kept h
    · split at h
      · exact startValue_length h
      · exact kept h
  · split at h
    · obtain ⟨-, rfl⟩ := Prod.mk.inj (Option.some.inj h)
      split <;> simp
    · exact kept h
  · split at h <;> exact kept h
  · split at h
    · obtain ⟨-, rfl⟩ := Prod.mk.inj (Option.some.inj h)
      simp
    · exact kept h
  · exact kept h

def loop (parseFullLine : Bool) (s : LineState) : Text → Option (LineState × Text)
  | [] => some (s, [])
  | c :: rest =>
    if s.pstate = .LINE_END then some (s, c :: rest)
    else
      match _h : turn parseFullLine s c rest with
      | none => none
      | some (s', es) => loop parseFullLine s' es.tail
termination_by es => es.length
decreasing_by
  have := turn_length _h
  simp only [List.length_tail, List.length_cons]
  omega

inductive LineResult where
  | undefined
  | missingQuote
  | invalid
  | value (v : IniValue)

def parseValue (parseFullLine : Bool) (top : Text) : LineResult :=
  match loop parseFullLine ⟨.NAME, [], [], [], [], top⟩ top with
  | none => .undefined
  | some (s, es) =>
    if s.pstate = .VAL_QUT then .missingQuote
    else
      let s := if s.pstate = .VAL then { s with val := upTo s.top es, pstate := .VAL_END } else s
      if s.pstate = .VAL_END ∨ s.pstate = .LINE_END then .value ⟨s.valName, s.valSuffix, s.val, s.comment⟩
      else .invalid

inductive Reading (α : Type) where
  | undefined
  | failed
  | ok (a : α)

structure IniParser where
  sections : List IniSection
  sect : Option IniSection

def IniParser.pushed (p : IniParser) : List IniSection := p.sections ++ p.sect.toList

def parseConfigLine (addDefaultSection parseFullLine : Bool) (p : IniParser) (line : Text) : Reading IniParser :=
  match skip line with
  | [] => .ok p
  | c :: top =>
    if c = ';' ∨ c = '#' then .ok p
    else if c = '[' then
      match line.findIdx? (· = ']') with
      | none => .failed
      | some el =>
        .ok { sections := p.pushed
              sect := some ⟨(line.drop (line.length - top.length)).take (el - 1), []⟩ }
    else
      match p.sect, addDefaultSection with
      | none, false => .failed
      | sect, _ =>
        let sect := sect.getD ⟨[], []⟩
        match parseValue parseFullLine (c :: top) with
        | .undefined => .undefined
        | .missingQuote => .failed
        | .invalid => .failed
        | .value v => .ok { p with sect := some { sect with values := sect.values ++ [v] } }

def parseLines (addDefaultSection parseFullLine : Bool) : IniParser → List Text → Reading IniParser
  | p, [] => .ok p
  | p, line :: lines =>
    match parseConfigLine addDefaultSection parseFullLine p line with
    | .ok p => parseLines addDefaultSection parseFullLine p lines
    | .failed => .failed
    | .undefined => .undefined

def getlines (line : Text) : Text → List Text
  | [] => if line = [] then [] else [line]
  | c :: content => if c = '\n' then line :: getlines [] content else getlines (line ++ [c]) content

def parseConfigFile (addDefaultSection parseFullLine : Bool) (content : Text) : Reading (List IniSection) :=
  match parseLines addDefaultSection parseFullLine ⟨[], none⟩ (getlines [] content) with
  | .ok p => .ok p.pushed
  | .failed => .failed
  | .undefined => .undefined

theorem loop_nil (full : Bool) (s : LineState) : loop full s [] = some (s, []) := by
  rw [loop]

theorem loop_cons {full : Bool} {s s' : LineState} {c : Char} {rest es : Text} (more : s.pstate ≠ .LINE_END)
    (h : turn full s c rest = some (s', es)) : loop full s (c :: rest) = loop full s' es.tail := by
  rw [loop, if_neg more]
  split
  · rename_i none_
    rw [h] at none_
    cases none_
  · rename_i some_
    rw [h] at some_
    obtain ⟨rfl, rfl⟩ := Prod.mk.inj (Option.some.inj some_)
    rfl

theorem loop_none {full : Bool} {s : LineState} {c : Char} {rest : Text} (more : s.pstate ≠ .LINE_END)
    (h : turn full s c rest = none) : loop full s (c :: rest) = none := by
  rw [loop, if_neg more]
  split
  · rfl
  · rename_i some_
    rw [h] at some_
    cases some_

def Plain (w : Text) : Prop := ∀ c ∈ w, c ≠ '=' ∧ isspace c = false

def Blank (t : Text) : Prop := ∀ c ∈ t, isspace c = true

def Naming (s : LineState) : Prop := s.pstate = .NAME ∨ s.pstate = .SUFF

theorem loop_word (full : Bool) (w rest : Text) (plain : Plain w) :
    ∀ s, Naming s → ∃ s', Naming s' ∧ loop full s (w ++ rest) = loop full s' rest := by
  induction w with
  | nil => exact fun s naming => ⟨s, naming, rfl⟩
  | cons c w ih =>
    intro s naming
    obtain ⟨not_eq, inked⟩ := plain c (by simp)
    have ih := ih fun d hd => plain d (by simp [hd])
    have more : s.pstate ≠ .LINE_END := by rcases naming with h | h <;> simp [h]
    rw [List.cons_append]
    by_cases dot : c = '.'
    · subst dot
      obtain ⟨s₁, step, naming₁⟩ : ∃ s₁, turn full s '.' (w ++ rest) = some (s₁, '.' :: (w ++ rest)) ∧
          Naming s₁ := by
        rcases naming with name | suff
        · exact ⟨{ s with valName := s.valName ++ upTo s.top ('.' :: (w ++ rest)), pstate := .SUFF, top := w ++ rest },
            by simp [turn, name], .inr rfl⟩
        · exact ⟨{ s with
              valName := s.valName ++ '.' :: upTo s.top ('.' :: (w ++ rest)), pstate := .SUFF, top := w ++ rest },
            by simp [turn, suff], .inr rfl⟩
      obtain ⟨s', naming', eq⟩ := ih s₁ naming₁
      exact ⟨s', naming', by rw [loop_cons more step, List.tail_cons, eq]⟩
    · obtain ⟨s', naming', eq⟩ := ih s naming
      have stays : turn full s c (w ++ rest) = some (s, c :: (w ++ rest)) := by
        rcases naming with h | h <;> simp [turn, h, dot, not_eq, inked]
      exact ⟨s', naming', by rw [loop_cons more stays, List.tail_cons, eq]⟩

theorem loop_part (full : Bool) (w rest : Text) (plain : Plain w) (no_dot : '.' ∉ w) {s : LineState} (naming : Naming s) :
    loop full s (w ++ rest) = loop full s rest := by
  induction w with
  | nil => rfl
  | cons c w ih =>
    obtain ⟨not_eq, inked⟩ := plain c (by simp)
    have more : s.pstate ≠ .LINE_END := by rcases naming with h | h <;> simp [h]
    have dot : c ≠ '.' := fun h => no_dot (by simp [h])
    have stays : turn full s c (w ++ rest) = some (s, c :: (w ++ rest)) := by
      rcases naming with h | h <;> simp [turn, h, dot, not_eq, inked]
    rw [List.cons_append, loop_cons more stays, List.tail_cons]
    exact ih (fun d hd => plain d (by simp [hd])) (fun h => no_dot (by simp [h]))

theorem loop_value (full : Bool) (w rest : Text) (inked : ∀ c ∈ w, isspace c = false) {s : LineState}
    (value : s.pstate = .VAL) : loop full s (w ++ rest) = loop full s rest := by
  induction w with
  | nil => rfl
  | cons c w ih =>
    have stays : turn full s c (w ++ rest) = some (s, c :: (w ++ rest)) := by
      simp [turn, value, inked c (by simp)]
    rw [List.cons_append, loop_cons (by simp [value]) stays, List.tail_cons]
    exact ih fun d hd => inked d (by simp [hd])

theorem loop_quoted (full : Bool) (w rest : Text) (no_quote : '"' ∉ w) {s : LineState} (quoted : s.pstate = .VAL_QUT) :
    loop full s (w ++ rest) = loop full s rest := by
  induction w with
  | nil => rfl
  | cons c w ih =>
    have quote : c ≠ '"' := fun h => no_quote (by simp [h])
    have stays : turn full s c (w ++ rest) = some (s, c :: (w ++ rest)) := by
      simp [turn, quoted, quote]
    rw [List.cons_append, loop_cons (by simp [quoted]) stays, List.tail_cons]
    exact ih fun h => no_quote (by simp [h])

theorem loop_blanks (full : Bool) (w rest : Text) (blank : Blank w) {s : LineState} (ended : s.pstate = .VAL_END) :
    loop full s (w ++ rest) = loop full s rest := by
  induction w with
  | nil => rfl
  | cons c w ih =>
    have space := blank c (by simp)
    have no_sign : ¬ (c = ';' ∨ c = '#') := by
      rintro (rfl | rfl) <;> exact absurd space (by decide)
    have stays : turn full s c (w ++ rest) = some (s, c :: (w ++ rest)) := by
      simp [turn, ended, no_sign]
    rw [List.cons_append, loop_cons (by simp [ended]) stays, List.tail_cons]
    exact ih fun d hd => blank d (by simp [hd])

def Ended (s : LineState) : Prop := s.pstate = .VAL ∨ s.pstate = .VAL_END ∨ s.pstate = .LINE_END

theorem loop_ended (full : Bool) : ∀ (n : Nat) (es : Text) (s : LineState), es.length ≤ n → Ended s →
    ∃ s' es', loop full s es = some (s', es') ∧ Ended s' := by
  intro n
  induction n with
  | zero =>
    intro es s len ended
    obtain rfl : es = [] := List.length_eq_zero_iff.mp (by omega)
    exact ⟨s, [], loop_nil full s, ended⟩
  | succ n ih =>
    intro es s len ended
    cases es with
    | nil => exact ⟨s, [], loop_nil full s, ended⟩
    | cons c rest =>
      simp only [List.length_cons] at len
      by_cases last : s.pstate = .LINE_END
      · exact ⟨s, c :: rest, by rw [loop, if_pos last], ended⟩
      · suffices one : ∃ s' es, turn full s c rest = some (s', es) ∧ Ended s' by
          obtain ⟨s', es, eq, ended'⟩ := one
          have shorter := turn_length eq
          rw [loop_cons last eq]
          exact ih es.tail s' (by simp only [List.length_tail]; omega) ended'
        rcases ended with value | ended | line
        · by_cases space : isspace c = true
          · have eq : turn full s c rest =
                some ({ s with pstate := .VAL_END, val := upTo s.top (if full then [] else c :: rest) },
                  if full then [] else c :: rest) := by
              simp [turn, value, space]
            exact ⟨_, _, eq, .inr (.inl rfl)⟩
          · exact ⟨s, c :: rest, by simp [turn, value, space], .inl value⟩
        · by_cases sign : c = ';' ∨ c = '#'
          · have eq : turn full s c rest =
                some ({ s with comment := if skip rest = [] then s.comment else skip rest, pstate := .LINE_END }, []) := by
              simp [turn, ended, sign]
            exact ⟨_, _, eq, .inr (.inr rfl)⟩
          · exact ⟨s, c :: rest, by simp [turn, ended, sign], .inr (.inl ended)⟩
        · exact (last line).elim

@[simp] theorem upTo_append (u es : Text) : upTo (u ++ es) es = u := by
  simp [upTo]

def opened (s : LineState) (written : Text) : LineState :=
  match written with
  | '"' :: after => { s with pstate := .VAL_QUT, top := after }
  | es => { s with pstate := .VAL, top := es }

def named (s : LineState) (es : Text) : LineState :=
  if s.pstate = .SUFF then { s with valSuffix := upTo s.top es } else { s with valName := upTo s.top es }

theorem dropWhile_eq {gap : Text} (no_eq : '=' ∉ gap) (t : Text) :
    (gap ++ '=' :: t).dropWhile (· ≠ '=') = '=' :: t := by
  have pass : ∀ c ∈ gap, decide (c ≠ '=') = true := by
    intro c hc
    have other : c ≠ '=' := by
      rintro rfl
      exact no_eq hc
    simpa using other
  rw [List.dropWhile_append_of_pos pass]
  simp

theorem startValue_eq (s : LineState) {gap : Text} (no_eq : '=' ∉ gap) (t : Text) :
    startValue s (gap ++ '=' :: t) = some (opened s (skip t), skip t) := by
  unfold startValue
  rw [dropWhile_eq no_eq]
  simp only [opened]
  split <;> simp_all

def Gap (gap : Text) : Prop := ∀ c, gap.head? = some c → isspace c = true

theorem loop_named (full : Bool) {s : LineState} (naming : Naming s) {gap : Text} (at_blank : Gap gap)
    (no_eq : '=' ∉ gap) (t : Text) :
    loop full s (gap ++ '=' :: t) =
      loop full (opened (named s (gap ++ '=' :: t)) (skip t)) (skip t).tail := by
  obtain ⟨c, rest, eq, ends⟩ : ∃ c rest, gap ++ '=' :: t = c :: rest ∧ (c = '=' ∨ isspace c = true) := by
    cases gap with
    | nil => exact ⟨'=', t, rfl, .inl rfl⟩
    | cons c gap => exact ⟨c, gap ++ '=' :: t, rfl, .inr (at_blank c rfl)⟩
  have not_dot : c ≠ '.' := by
    rintro rfl
    rcases ends with h | h <;> exact absurd h (by decide)
  have more : s.pstate ≠ .LINE_END := by rcases naming with h | h <;> simp [h]
  have started := startValue_eq (named s (gap ++ '=' :: t)) no_eq t
  rw [eq] at started ⊢
  apply loop_cons more
  rw [← started]
  rcases naming with h | h <;> simp [turn, h, not_dot, ends, named]

def lineStart (top : Text) : LineState := ⟨.NAME, [], [], [], [], top⟩

theorem naming_start (top : Text) : Naming (lineStart top) := .inl rfl

theorem split_plain (t : Text) : ∃ w rest, t = w ++ rest ∧ Plain w ∧
    ∀ c, rest.head? = some c → c = '=' ∨ isspace c = true := by
  refine ⟨t.takeWhile fun c => c ≠ '=' && !isspace c, t.dropWhile fun c => c ≠ '=' && !isspace c,
    List.takeWhile_append_dropWhile.symm, ?_, ?_⟩
  · intro c hc
    simpa using List.mem_takeWhile_imp hc
  · intro c hc
    have ends := List.head?_dropWhile_not (fun c => c ≠ '=' && !isspace c) t
    rw [hc] at ends
    by_contra neither
    rw [not_or, Bool.not_eq_true] at neither
    simp [neither] at ends

theorem parseValue_word {full : Bool} {top : Text} (plain : Plain top) : parseValue full top = .invalid := by
  obtain ⟨s', naming, eq⟩ := loop_word full top [] plain (lineStart top) (naming_start top)
  rw [List.append_nil, loop_nil] at eq
  unfold parseValue
  rw [show loop full ⟨.NAME, [], [], [], [], top⟩ top = some (s', []) from eq]
  rcases naming with h | h <;> simp [h]

theorem parseValue_blank {full : Bool} {top : Text} (no_eq : '=' ∉ top) (blank : ∃ c ∈ top, isspace c = true) :
    parseValue full top = .undefined := by
  obtain ⟨w, rest, split, plain, ends⟩ := split_plain top
  obtain ⟨s', naming, eq⟩ := loop_word full w rest plain (lineStart top) (naming_start top)
  cases rest with
  | nil =>
    obtain ⟨c, hc, space⟩ := blank
    rw [split, List.append_nil] at hc
    rw [(plain c hc).2] at space
    cases space
  | cons c rest =>
    have no_eq' : '=' ∉ c :: rest := fun h => no_eq (by rw [split]; simp [List.mem_append, h])
    have space : isspace c = true := by
      refine (ends c rfl).resolve_left ?_
      rintro rfl
      simp at no_eq'
    have none_ : ∀ s, startValue s (c :: rest) = none := by
      intro s
      unfold startValue
      rw [List.dropWhile_eq_nil_iff.mpr]
      intro d hd
      have other : d ≠ '=' := by
        rintro rfl
        exact no_eq' hd
      simpa using other
    have not_dot : c ≠ '.' := by
      rintro rfl
      exact absurd space (by decide)
    have more : s'.pstate ≠ .LINE_END := by rcases naming with h | h <;> simp [h]
    have turned : turn full s' c rest = none := by
      rcases naming with h | h <;> simp [turn, h, not_dot, space, none_]
    unfold parseValue
    rw [show loop full ⟨.NAME, [], [], [], [], top⟩ top = none by
      rw [← loop_none more turned, ← eq, ← split]
      rfl]

theorem loop_start (full : Bool) {top pre t : Text} (split : top = pre ++ '=' :: t) (no_eq : '=' ∉ pre) :
    ∃ s, loop full (lineStart top) top = loop full (opened s (skip t)) (skip t).tail := by
  obtain ⟨w, rest, split', plain, ends⟩ := split_plain pre
  obtain ⟨s', naming, eq⟩ := loop_word full w (rest ++ '=' :: t) plain (lineStart top) (naming_start top)
  have no_eq' : '=' ∉ rest := fun h => no_eq (by rw [split']; simp [h])
  have at_blank : Gap rest := by
    intro c hc
    refine (ends c hc).resolve_left ?_
    rintro rfl
    exact no_eq' (List.mem_of_head? hc)
  refine ⟨named s' (rest ++ '=' :: t), ?_⟩
  rw [← loop_named full naming at_blank no_eq', ← eq, split, split', List.append_assoc]

def finished (s : LineState) (es : Text) : IniValue :=
  ⟨s.valName, s.valSuffix, if s.pstate = .VAL then upTo s.top es else s.val, s.comment⟩

theorem parseValue_of_loop {full : Bool} {top es : Text} {s : LineState} (eq : loop full (lineStart top) top = some (s, es))
    (ended : Ended s) : parseValue full top = .value (finished s es) := by
  unfold parseValue
  rw [show loop full ⟨.NAME, [], [], [], [], top⟩ top = some (s, es) from eq]
  rcases ended with h | h | h <;> simp [h, finished]

theorem parseValue_missing {full : Bool} {top pre t r : Text} (split : top = pre ++ '=' :: t) (no_eq : '=' ∉ pre)
    (quote : skip t = '"' :: r) (open_ : '"' ∉ r) : parseValue full top = .missingQuote := by
  obtain ⟨s, eq⟩ := loop_start full split no_eq
  have rest := loop_quoted full r [] open_ (s := opened s ('"' :: r)) rfl
  rw [List.append_nil, loop_nil] at rest
  rw [quote, List.tail_cons, rest] at eq
  unfold parseValue
  rw [show loop full ⟨.NAME, [], [], [], [], top⟩ top = some (opened s ('"' :: r), []) from eq]
  simp [opened]

theorem loop_closed (full : Bool) {s : LineState} (quoted : s.pstate = .VAL_QUT) (value tail : Text)
    (top : s.top = value ++ '"' :: tail) :
    loop full s ('"' :: tail) = loop full { s with pstate := .VAL_END, val := value } tail := by
  have turned : turn full s '"' tail = some ({ s with pstate := .VAL_END, val := value }, '"' :: tail) := by
    simp only [turn, quoted, if_true, top, upTo_append]
  rw [loop_cons (by simp [quoted]) turned, List.tail_cons]

theorem parseValue_value {full : Bool} {top pre t : Text} (split : top = pre ++ '=' :: t) (no_eq : '=' ∉ pre)
    (closed : ∀ r, skip t = '"' :: r → '"' ∈ r) : ∃ v, parseValue full top = .value v := by
  obtain ⟨s, eq⟩ := loop_start full split no_eq
  suffices ends : ∃ s' es', loop full (opened s (skip t)) (skip t).tail = some (s', es') ∧ Ended s' by
    obtain ⟨s', es', eq', ended⟩ := ends
    exact ⟨_, parseValue_of_loop (eq.trans eq') ended⟩
  by_cases quote : ∃ r, skip t = '"' :: r
  · obtain ⟨r, quote⟩ := quote
    obtain ⟨value, tail, rfl, no_quote⟩ := List.eq_append_cons_of_mem (closed r quote)
    rw [quote, List.tail_cons, loop_quoted full value _ no_quote (s := opened s ('"' :: (value ++ '"' :: tail))) rfl,
      loop_closed full (s := opened s ('"' :: (value ++ '"' :: tail))) rfl value tail rfl]
    exact loop_ended full _ _ _ le_rfl (.inr (.inl rfl))
  · have plain : (opened s (skip t)).pstate = .VAL := by
      unfold opened
      split
      · rename_i after eq'
        exact (quote ⟨after, eq'⟩).elim
      · rfl
    exact loop_ended full _ _ _ le_rfl (.inl plain)

def Comment (tail comment : Text) : Prop :=
  (Blank tail ∧ comment = []) ∨
    ∃ b sign b', tail = b ++ sign :: (b' ++ comment) ∧ Blank b ∧ (sign = ';' ∨ sign = '#') ∧ Blank b' ∧
      ∀ c, comment.head? = some c → isspace c = false

/-- What stands behind the '=': the value, the comment, and blanks behind a value that is the full line. -/
inductive Written (parseFullLine : Bool) : Text → Text → Text → Text → Prop where
  | quoted (value tail comment : Text) : '"' ∉ value → Comment tail comment →
      Written parseFullLine ('"' :: (value ++ '"' :: tail)) value comment []
  | empty : Written parseFullLine [] [] [] []
  | word (c : Char) (value : Text) : (∀ d ∈ c :: value, isspace d = false) → c ≠ '"' →
      Written parseFullLine (c :: value) (c :: value) [] []
  | commented (c : Char) (value : Text) (d : Char) (tail comment : Text) : parseFullLine = false →
      (∀ d ∈ c :: value, isspace d = false) → c ≠ '"' → isspace d = true → Comment tail comment →
      Written parseFullLine (c :: (value ++ d :: tail)) (c :: value) comment []
  | whole (c : Char) (value padding : Text) : parseFullLine = true → isspace c = false → c ≠ '"' →
      (∀ d, (c :: value).getLast? = some d → isspace d = false) → Blank padding →
      Written parseFullLine (c :: (value ++ padding)) (c :: value) [] padding

def dotted (name suffix : Text) : Text := if suffix = [] then name else name ++ '.' :: suffix

def ValueLine (parseFullLine : Bool) (line : Text) (v : IniValue) (padding : Text) : Prop :=
  ∃ before gap blanks written,
    line = before ++ (dotted v.valueName v.valueSuffix ++ (gap ++ '=' :: (blanks ++ written))) ∧
    Blank before ∧ Blank gap ∧ Blank blanks ∧ Plain v.valueName ∧ Plain v.valueSuffix ∧ '.' ∉ v.valueSuffix ∧
    (v.valueSuffix = [] → '.' ∉ v.valueName) ∧
    (∃ c, v.valueName.head? = some c ∧ c ≠ '[' ∧ c ≠ ';' ∧ c ≠ '#') ∧
    Written parseFullLine written v.value v.comment padding

theorem skip_written {full : Bool} {written value comment padding : Text} (h : Written full written value comment padding)
    {blanks : Text} (blank : Blank blanks) : skip (blanks ++ written) = written := by
  have first : ∀ c t, isspace c = false → skip (c :: t) = c :: t := by
    intro c t inked
    simp [skip, inked]
  rw [skip, List.dropWhile_append_of_pos blank, ← skip]
  cases h with
  | quoted value tail comment no_quote _ => exact first _ _ (by decide)
  | empty => rfl
  | word c value inked _ => exact first _ _ (inked c (by simp))
  | commented c value d tail comment _ inked _ _ _ => exact first _ _ (inked c (by simp))
  | whole c value padding _ inked _ _ _ => exact first _ _ inked

theorem loop_comment (full : Bool) {tail comment : Text} (h : Comment tail comment) {s : LineState}
    (ended : s.pstate = .VAL_END) (none_ : s.comment = []) :
    ∃ s' es, loop full s tail = some (s', es) ∧ Ended s' ∧ finished s' es = { finished s [] with comment := comment } := by
  rcases h with ⟨blank, rfl⟩ | ⟨b, sign, b', rfl, blank, is_sign, blank', first⟩
  · refine ⟨s, [], ?_, .inr (.inl ended), ?_⟩
    · have := loop_blanks full tail [] blank ended
      rw [List.append_nil, loop_nil] at this
      exact this
    · simp [finished, none_]
  · have skipped : skip (b' ++ comment) = comment := by
      rw [skip, List.dropWhile_append_of_pos blank']
      cases comment with
      | nil => rfl
      | cons c comment => simp [first c rfl]
    have turned : turn full s sign (b' ++ comment) = some ({ s with comment := comment, pstate := .LINE_END }, []) := by
      simp only [turn, ended, if_pos is_sign, skipped]
      by_cases empty : comment = []
      · simp [empty, none_]
      · simp [empty]
    refine ⟨{ s with comment := comment, pstate := .LINE_END }, [], ?_, .inr (.inr rfl), ?_⟩
    · rw [loop_blanks full b _ blank ended, loop_cons (by simp [ended]) turned, List.tail_nil, loop_nil]
    · simp [finished, ended]

theorem loop_full {s : LineState} (value : s.pstate = .VAL) (rest : Text) :
    ∃ s', loop true s rest = some (s', []) ∧ Ended s' ∧ finished s' [] = { finished s [] with value := s.top } := by
  have kept : upTo s.top [] = s.top := by simp [upTo]
  induction rest with
  | nil => exact ⟨s, loop_nil true s, .inl value, by simp [finished, value, kept]⟩
  | cons c rest ih =>
    by_cases space : isspace c = true
    · have turned : turn true s c rest = some ({ s with pstate := .VAL_END, val := s.top }, []) := by
        simp [turn, value, space, kept]
      refine ⟨{ s with pstate := .VAL_END, val := s.top }, ?_, .inr (.inl rfl), ?_⟩
      · rw [loop_cons (by simp [value]) turned, List.tail_nil, loop_nil]
      · simp [finished]
    · have turned : turn true s c rest = some (s, c :: rest) := by
        simp [turn, value, space]
      rw [loop_cons (by simp [value]) turned, List.tail_cons]
      exact ih

theorem loop_written {full : Bool} {written value comment padding : Text} (h : Written full written value comment padding)
    {s : LineState} (none_ : s.comment = []) :
    ∃ s' es, loop full (opened s written) written.tail = some (s', es) ∧ Ended s' ∧
      finished s' es = ⟨s.valName, s.valSuffix, value ++ padding, comment⟩ := by
  have plain : ∀ c t, c ≠ '"' → opened s (c :: t) = { s with pstate := .VAL, top := c :: t } := by
    intro c t not_quote
    unfold opened
    split
    · rename_i after eq
      exact (not_quote (List.cons.inj eq).1).elim
    · rfl
  cases h with
  | quoted value tail comment no_quote commented =>
    obtain ⟨s', es, eq, ended, result⟩ := loop_comment full commented
      (s := { opened s ('"' :: (value ++ '"' :: tail)) with pstate := .VAL_END, val := value }) rfl none_
    refine ⟨s', es, ?_, ended, ?_⟩
    · rw [List.tail_cons, loop_quoted full value _ no_quote (s := opened s ('"' :: (value ++ '"' :: tail))) rfl,
        loop_closed full (s := opened s ('"' :: (value ++ '"' :: tail))) rfl value tail rfl, eq]
    · rw [result]
      simp [finished, opened]
  | empty =>
    refine ⟨opened s [], [], loop_nil full _, .inl rfl, ?_⟩
    simp [finished, opened, none_, upTo]
  | word c value inked not_quote =>
    have read := loop_value full value [] (fun d hd => inked d (by simp [hd]))
      (s := { s with pstate := .VAL, top := c :: value }) rfl
    rw [List.append_nil, loop_nil] at read
    refine ⟨_, _, by rw [plain c value not_quote, List.tail_cons, read], .inl rfl, ?_⟩
    simp [finished, none_, upTo]
  | commented c value d tail comment not_full inked not_quote space commented =>
    subst not_full
    have turned : turn false { s with pstate := .VAL, top := c :: (value ++ d :: tail) } d tail =
        some ({ s with pstate := .VAL_END, top := c :: (value ++ d :: tail), val := c :: value }, d :: tail) := by
      have kept := upTo_append (c :: value) (d :: tail)
      rw [List.cons_append] at kept
      simp [turn, space, kept]
    obtain ⟨s', es, eq, ended, result⟩ := loop_comment false commented
      (s := { s with pstate := .VAL_END, top := c :: (value ++ d :: tail), val := c :: value }) rfl none_
    refine ⟨s', es, ?_, ended, ?_⟩
    · rw [plain c _ not_quote, List.tail_cons, loop_value false value _ (fun d hd => inked d (by simp [hd])) rfl,
        loop_cons (by simp) turned, List.tail_cons, eq]
    · rw [result]
      simp [finished]
  | whole c value padding is_full inked not_quote last blank =>
    subst is_full
    rw [plain c _ not_quote, List.tail_cons]
    obtain ⟨s', eq, ended, result⟩ := loop_full (s := { s with pstate := .VAL, top := c :: (value ++ padding) }) rfl
      (value ++ padding)
    refine ⟨s', [], eq, ended, ?_⟩
    rw [result]
    simp [finished, none_]

def soFar (s : LineState) (es : Text) : Text :=
  (if s.pstate = .SUFF then s.valName ++ ['.'] else s.valName) ++ upTo s.top es

theorem loop_dot (full : Bool) (w rest : Text) (plain : Plain w) :
    ∀ s u, Naming s → s.top = u ++ (w ++ '.' :: rest) →
      loop full s (w ++ '.' :: rest) =
        loop full { s with pstate := .SUFF, valName := soFar s (w ++ '.' :: rest) ++ w, top := rest } rest := by
  induction w with
  | nil =>
    intro s u naming top
    have more : s.pstate ≠ .LINE_END := by rcases naming with h | h <;> simp [h]
    have turned : turn full s '.' rest =
        some ({ s with pstate := .SUFF, valName := soFar s ('.' :: rest), top := rest }, '.' :: rest) := by
      rcases naming with h | h <;> simp [turn, h, soFar]
    rw [List.nil_append, loop_cons more turned, List.tail_cons, List.append_nil]
  | cons c w ih =>
    intro s u naming top
    obtain ⟨not_eq, inked⟩ := plain c (by simp)
    have ih := ih fun d hd => plain d (by simp [hd])
    have more : s.pstate ≠ .LINE_END := by rcases naming with h | h <;> simp [h]
    rw [List.cons_append] at top ⊢
    by_cases dot : c = '.'
    · subst dot
      have turned : turn full s '.' (w ++ '.' :: rest) = some ({ s with
          pstate := .SUFF, valName := soFar s ('.' :: (w ++ '.' :: rest)), top := w ++ '.' :: rest },
          '.' :: (w ++ '.' :: rest)) := by
        rcases naming with h | h <;> simp [turn, h, soFar]
      rw [loop_cons more turned, List.tail_cons, ih _ [] (.inr rfl) rfl]
      congr 1
      simp [soFar, upTo]
    · have stays : turn full s c (w ++ '.' :: rest) = some (s, c :: (w ++ '.' :: rest)) := by
        rcases naming with h | h <;> simp [turn, h, dot, not_eq, inked]
      have longer : s.top = (u ++ [c]) ++ (w ++ '.' :: rest) := by simp [top]
      rw [loop_cons more stays, List.tail_cons, ih s (u ++ [c]) naming longer]
      congr 1
      have one : soFar s (c :: (w ++ '.' :: rest)) ++ c :: w = soFar s (w ++ '.' :: rest) ++ w := by
        have before := upTo_append u (c :: (w ++ '.' :: rest))
        have behind := upTo_append (u ++ [c]) (w ++ '.' :: rest)
        unfold soFar
        rw [top, before, ← top, longer, behind]
        simp
      rw [one]

theorem loop_head (full : Bool) {name suffix gap t : Text} (plain : Plain name) (plain' : Plain suffix)
    (no_dot : '.' ∉ suffix) (no_dot' : suffix = [] → '.' ∉ name) (blank : Blank gap) :
    ∃ s, s.valName = name ∧ s.valSuffix = suffix ∧ s.comment = [] ∧
      loop full (lineStart (dotted name suffix ++ (gap ++ '=' :: t))) (dotted name suffix ++ (gap ++ '=' :: t)) =
        loop full (opened s (skip t)) (skip t).tail := by
  have at_blank : Gap gap := fun c hc => blank c (List.mem_of_head? hc)
  have no_eq : '=' ∉ gap := by
    intro h
    exact absurd (blank _ h) (by decide)
  by_cases empty : suffix = []
  · subst empty
    refine ⟨named (lineStart (name ++ (gap ++ '=' :: t))) (gap ++ '=' :: t), ?_, rfl, rfl, ?_⟩
    · simp [named, lineStart]
    · rw [dotted, if_pos rfl, loop_part full name _ plain (no_dot' rfl) (naming_start _),
        loop_named full (naming_start _) at_blank no_eq]
  · have line : dotted name suffix ++ (gap ++ '=' :: t) = name ++ '.' :: (suffix ++ (gap ++ '=' :: t)) := by
      simp [dotted, empty]
    have dot := loop_dot full name (suffix ++ (gap ++ '=' :: t)) plain
      (lineStart (name ++ '.' :: (suffix ++ (gap ++ '=' :: t)))) [] (naming_start _) rfl
    rw [line, dot]
    generalize hs : ({ lineStart (name ++ '.' :: (suffix ++ (gap ++ '=' :: t))) with
      pstate := .SUFF
      valName := soFar (lineStart (name ++ '.' :: (suffix ++ (gap ++ '=' :: t))))
        (name ++ '.' :: (suffix ++ (gap ++ '=' :: t))) ++ name
      top := suffix ++ (gap ++ '=' :: t) } : LineState) = s
    have naming : Naming s := by
      rw [← hs]
      exact .inr rfl
    refine ⟨named s (gap ++ '=' :: t), ?_, ?_, ?_, ?_⟩
    · rw [← hs]
      simp [named, soFar, lineStart, upTo]
    · rw [← hs]
      simp [named]
    · rw [← hs]
      rfl
    · rw [loop_part full suffix _ plain' no_dot naming, loop_named full naming at_blank no_eq]

theorem parseValue_line {full : Bool} {line padding : Text} {v : IniValue} (h : ValueLine full line v padding) :
    ∃ c top, skip line = c :: top ∧ c ≠ '[' ∧ c ≠ ';' ∧ c ≠ '#' ∧
      parseValue full (c :: top) = .value { v with value := v.value ++ padding } := by
  obtain ⟨before, gap, blanks, written, rfl, blank, blank_gap, blank_value, plain, plain', no_dot, no_dot',
    ⟨c, head, not_section, not_comment, not_hash⟩, value⟩ := h
  obtain ⟨name, hname⟩ : ∃ name, v.valueName = c :: name := List.head?_eq_some_iff.mp head
  obtain ⟨s, name_eq, suffix_eq, none_, eq⟩ := loop_head full (t := blanks ++ written) plain plain' no_dot no_dot' blank_gap
  rw [skip_written value blank_value] at eq
  obtain ⟨s', es, read, ended, result⟩ := loop_written value none_ (s := s)
  obtain ⟨top, top_eq⟩ : ∃ top, dotted v.valueName v.valueSuffix ++ (gap ++ '=' :: (blanks ++ written)) = c :: top := by
    unfold dotted
    split <;> simp [hname]
  have inked : isspace c = false := (plain c (by simp [hname])).2
  refine ⟨c, top, ?_, not_section, not_comment, not_hash, ?_⟩
  · rw [skip, List.dropWhile_append_of_pos blank, top_eq]
    simp [inked]
  · rw [← top_eq, parseValue_of_loop (eq.trans read) ended, result, name_eq, suffix_eq]

def Begins (line : Text) (c : Char) : Prop := (skip line).head? = some c

def Significant (line : Text) : Prop := ∃ c, Begins line c ∧ c ≠ ';' ∧ c ≠ '#'

instance (line : Text) : Decidable (Significant line) :=
  match h : (skip line).head? with
  | none => isFalse fun ⟨c, begins, _⟩ => by simp [Begins, h] at begins
  | some c =>
    if sign : c ≠ ';' ∧ c ≠ '#' then isTrue ⟨c, h, sign⟩
    else isFalse fun ⟨d, begins, other⟩ => by
      obtain rfl : c = d := Option.some.inj (h.symm.trans begins)
      exact sign other

def Valued (line : Text) : Prop := Significant line ∧ ¬ Begins line '['

def SectionLine (line name : Text) : Prop :=
  ∃ before rest, line = before ++ '[' :: (name ++ ']' :: rest) ∧ Blank before ∧ ']' ∉ name

inductive Faulty (line : Text) : Prop where
  | section_ : Begins line '[' → ']' ∉ line → Faulty line
  | equals : Valued line → '=' ∉ skip line → Faulty line
  | quote (pre t r : Text) : Valued line → skip line = pre ++ '=' :: t → '=' ∉ pre → skip t = '"' :: r → '"' ∉ r →
      Faulty line

def Homeless (home : Bool) (lines : List Text) : Prop :=
  home = false ∧ ∃ before line after, lines = before ++ line :: after ∧ (∀ l ∈ before, ¬ Significant l) ∧ Valued line

inductive Item where
  | section_ (name : Text)
  | value (v : IniValue)

def IniSection.items (sect : IniSection) : List Item := .section_ sect.sectName :: sect.values.map .value

structure Means (parseFullLine : Bool) (line : Text) (item : Item) : Prop where
  section_ : Begins line '[' → ∃ name, item = .section_ name
  name : ∀ name, SectionLine line name → item = .section_ name
  valued : Valued line → ∃ v, item = .value v
  value : ∀ v padding, ValueLine parseFullLine line v padding → item = .value v

/-- The reading ends, within the lines: with a failure for a reason, or with what the lines say, in order. -/
def Right (addDefaultSection parseFullLine : Bool) (content : Text) : Reading (List IniSection) → Prop
  | .undefined => False
  | .failed => (∃ line ∈ getlines [] content, Faulty line) ∨ Homeless addDefaultSection (getlines [] content)
  | .ok sections =>
    ∃ default_ items, sections.flatMap IniSection.items = default_ ++ items ∧
      (default_ = [] ∨ addDefaultSection = true ∧ default_ = [.section_ []]) ∧
      List.Forall₂ (Means parseFullLine) ((getlines [] content).filter (Significant ·)) items

def Overruns (line : Text) : Prop := Valued line ∧ '=' ∉ skip line ∧ ∃ c ∈ skip line, isspace c = true

def Passed (home : Bool) (lines : List Text) : Prop := (∀ line ∈ lines, ¬ Faulty line) ∧ ¬ Homeless home lines

/-- No line is overrun before a failure; and without one, no section has leading blanks and no value that is the
full line has blanks behind it. -/
def Readable (addDefaultSection parseFullLine : Bool) (lines : List Text) : Prop :=
  (∀ before line after, lines = before ++ line :: after → Passed addDefaultSection before →
    ¬ Homeless addDefaultSection (before ++ [line]) → ¬ Overruns line) ∧
  (Passed addDefaultSection lines → ∀ line ∈ lines,
    (Begins line '[' → skip line = line) ∧ ∀ v padding, ValueLine parseFullLine line v padding → padding = [])

inductive Effect where
  | ignored
  | section_ (name : Text)
  | value (v : IniValue)
  | fails
  | overruns

def effect (full : Bool) (line : Text) : Effect :=
  match skip line with
  | [] => .ignored
  | c :: top =>
    if c = ';' ∨ c = '#' then .ignored
    else if c = '[' then
      match line.findIdx? (· = ']') with
      | none => .fails
      | some el => .section_ ((line.drop (line.length - top.length)).take (el - 1))
    else
      match parseValue full (c :: top) with
      | .undefined => .overruns
      | .missingQuote => .fails
      | .invalid => .fails
      | .value v => .value v

theorem effect_section (full : Bool) {line : Text} (begins : Begins line '[') :
    (']' ∉ line ∧ effect full line = .fails) ∨
      ∃ name', effect full line = .section_ name' ∧ (∃ name, SectionLine line name) ∧
        ∀ name, SectionLine line name → (name' = name ↔ skip line = line) := by
  obtain ⟨top, skipped⟩ : ∃ top, skip line = '[' :: top := List.head?_eq_some_iff.mp begins
  have split : line = line.takeWhile isspace ++ '[' :: top := by
    rw [← skipped, skip, List.takeWhile_append_dropWhile]
  generalize hb : line.takeWhile isspace = before at split
  have blank : Blank before := by
    rw [← hb]
    exact fun c hc => List.mem_takeWhile_imp hc
  have eff : effect full line = match line.findIdx? (· = ']') with
      | none => .fails
      | some el => .section_ ((line.drop (line.length - top.length)).take (el - 1)) := by
    unfold effect
    rw [skipped]
    simp
  have no_bracket : ']' ∉ before := by
    intro h
    exact absurd (blank _ h) (by decide)
  by_cases closed : ']' ∈ top
  · obtain ⟨name, rest, rfl, no_end⟩ := List.eq_append_cons_of_mem closed
    have found : line.findIdx? (· = ']') = some (before.length + 1 + name.length) := by
      have shape : line = (before ++ '[' :: name) ++ ']' :: rest := by simp [split]
      have none_ : (before ++ '[' :: name).findIdx? (· = ']') = none := by
        rw [List.findIdx?_eq_none_iff]
        intro c hc
        have other : c ≠ ']' := by
          rintro rfl
          simp [no_bracket, no_end] at hc
        simpa using other
      rw [shape, List.findIdx?_append, none_]
      simp [List.findIdx?_cons]
      omega
    have cut : line.drop (line.length - (name ++ ']' :: rest).length) = name ++ ']' :: rest := by
      have shape : line = (before ++ ['[']) ++ (name ++ ']' :: rest) := by simp [split]
      have length_eq : line.length - (name ++ ']' :: rest).length = (before ++ ['[']).length := by
        have := congrArg List.length shape
        rw [List.length_append] at this
        omega
      rw [length_eq, shape, List.drop_left]
    have same : skip line = line ↔ before = [] := by
      rw [skipped]
      constructor
      · intro h
        have := congrArg List.length (h.trans split)
        simp only [List.length_append] at this
        exact List.length_eq_zero_iff.mp (by omega)
      · rintro rfl
        exact split.symm
    right
    refine ⟨(name ++ ']' :: rest).take (before.length + name.length), ?_, ⟨name, before, rest, split, blank, no_end⟩, ?_⟩
    · rw [eff, found]
      simp only [cut, Effect.section_.injEq]
      congr 1
      omega
    · rintro name₂ ⟨before₂, rest₂, split₂, blank₂, no_end₂⟩
      have skipped₂ : skip line = '[' :: (name₂ ++ ']' :: rest₂) := by
        rw [split₂, skip, List.dropWhile_append_of_pos blank₂]
        rfl
      have tops := (List.cons.inj (skipped.symm.trans skipped₂)).2
      have word : ∀ {w r : Text}, ']' ∉ w → (w ++ ']' :: r).takeWhile (· ≠ ']') = w := by
        intro w r no
        rw [List.takeWhile_append_of_pos]
        · simp
        · intro c hc
          have other : c ≠ ']' := by
            rintro rfl
            exact no hc
          simpa using other
      have names : name = name₂ := by
        rw [← word no_end (r := rest), tops, word no_end₂]
      rw [same, ← names]
      constructor
      · intro h
        have := congrArg List.length h
        simp only [List.length_take, List.length_append, List.length_cons] at this
        exact List.length_eq_zero_iff.mp (by omega)
      · rintro rfl
        simp
  · left
    have none_ : ']' ∉ line := by
      rw [split]
      simp [no_bracket, closed]
    refine ⟨none_, ?_⟩
    have not_found : line.findIdx? (· = ']') = none := by
      rw [List.findIdx?_eq_none_iff]
      intro c hc
      have other : c ≠ ']' := by
        rintro rfl
        exact none_ hc
      simpa using other
    rw [eff, not_found]

theorem effect_valued (full : Bool) {line : Text} (valued : Valued line) :
    (Overruns line ∧ effect full line = .overruns) ∨
      (Faulty line ∧ ¬ Overruns line ∧ effect full line = .fails) ∨
      ∃ v', effect full line = .value v' ∧ ¬ Faulty line ∧
        ∀ v padding, ValueLine full line v padding → v' = { v with value := v.value ++ padding } := by
  obtain ⟨⟨c, begins, not_comment, not_hash⟩, not_section⟩ := id valued
  obtain ⟨top, skipped⟩ : ∃ top, skip line = c :: top := List.head?_eq_some_iff.mp begins
  have other : c ≠ '[' := by
    rintro rfl
    exact not_section begins
  have eff : effect full line = match parseValue full (c :: top) with
      | .undefined => .overruns
      | .missingQuote => .fails
      | .invalid => .fails
      | .value v => .value v := by
    unfold effect
    rw [skipped]
    simp [not_comment, not_hash, other]
  by_cases no_eq : '=' ∉ skip line
  · by_cases blank : ∃ d ∈ skip line, isspace d = true
    · exact .inl ⟨⟨valued, no_eq, blank⟩, by rw [eff, parseValue_blank (skipped ▸ no_eq) (skipped ▸ blank)]⟩
    · refine .inr (.inl ⟨.equals valued no_eq, fun h => blank h.2.2, ?_⟩)
      have plain : Plain (c :: top) := by
        intro d hd
        constructor
        · rintro rfl
          exact no_eq (skipped ▸ hd)
        · rw [← Bool.not_eq_true]
          exact fun space => blank ⟨d, skipped ▸ hd, space⟩
      rw [eff, parseValue_word plain]
  · have overrun : ¬ Overruns line := fun h => no_eq h.2.1
    obtain ⟨pre, t, split, first⟩ := List.eq_append_cons_of_mem (not_not.mp no_eq)
    by_cases open_ : ∃ r, skip t = '"' :: r ∧ '"' ∉ r
    · obtain ⟨r, quote, open_⟩ := open_
      exact .inr (.inl ⟨.quote pre t r valued split first quote open_, overrun, by
        rw [eff, parseValue_missing (skipped.symm.trans split) first quote open_]⟩)
    · right
      right
      obtain ⟨v', parsed⟩ := parseValue_value (skipped.symm.trans split) first (by
        intro r quote
        by_contra no_quote
        exact open_ ⟨r, quote, no_quote⟩)
      refine ⟨v', by rw [eff, parsed], ?_, ?_⟩
      · rintro (⟨begins', -⟩ | ⟨-, h⟩ | ⟨pre', t', r, -, split', first', quote, no_quote⟩)
        · exact not_section begins'
        · exact no_eq h
        · have behind : '=' :: t = '=' :: t' := by
            rw [← dropWhile_eq first t, ← dropWhile_eq first' t', ← split, ← split']
          obtain rfl := (List.cons.inj behind).2
          exact open_ ⟨r, quote, no_quote⟩
      · intro v padding line_
        obtain ⟨c', top', skipped', -, -, -, parsed'⟩ := parseValue_line line_
        rw [skipped] at skipped'
        rw [← skipped', parsed] at parsed'
        exact LineResult.value.inj parsed'

def Unread (home : Bool) (lines : List Text) : Prop :=
  ∃ before line after, lines = before ++ line :: after ∧ Passed home before ∧ ¬ Homeless home (before ++ [line]) ∧
    Overruns line

theorem homeless_nil (home : Bool) : ¬ Homeless home [] := by
  rintro ⟨-, before, line, after, split, -⟩
  cases before <;> cases split

theorem homeless_cons (home : Bool) (line : Text) (lines : List Text) :
    Homeless home (line :: lines) ↔
      (home = false ∧ Valued line) ∨ Homeless (home || decide (Significant line)) lines := by
  constructor
  · rintro ⟨rfl, before, line', after, split, unsigned, valued⟩
    cases before with
    | nil =>
      obtain ⟨rfl, rfl⟩ := List.cons.inj split
      exact .inl ⟨rfl, valued⟩
    | cons l before =>
      obtain ⟨rfl, rfl⟩ := List.cons.inj split
      refine .inr ⟨by simpa using unsigned line (by simp), before, line', after, rfl, ?_, valued⟩
      exact fun l hl => unsigned l (by simp [hl])
  · rintro (⟨rfl, valued⟩ | ⟨home_false, before, line', after, rfl, unsigned, valued⟩)
    · exact ⟨rfl, [], line, lines, rfl, by simp, valued⟩
    · simp only [Bool.or_eq_false_iff, decide_eq_false_iff_not] at home_false
      refine ⟨home_false.1, line :: before, line', after, rfl, ?_, valued⟩
      intro l hl
      rcases List.mem_cons.mp hl with rfl | hl
      · exact home_false.2
      · exact unsigned l hl

theorem passed_nil (home : Bool) : Passed home [] := ⟨by simp, homeless_nil home⟩

theorem passed_cons (home : Bool) (line : Text) (lines : List Text) :
    Passed home (line :: lines) ↔
      ¬ Faulty line ∧ ¬ (home = false ∧ Valued line) ∧ Passed (home || decide (Significant line)) lines := by
  simp only [Passed, homeless_cons, List.forall_mem_cons]
  tauto

theorem unread_cons (home : Bool) (line : Text) (lines : List Text) :
    Unread home (line :: lines) ↔
      ¬ (home = false ∧ Valued line) ∧
        (Overruns line ∨ ¬ Faulty line ∧ Unread (home || decide (Significant line)) lines) := by
  constructor
  · rintro ⟨before, line', after, split, passed, homed, overruns⟩
    cases before with
    | nil =>
      obtain ⟨rfl, rfl⟩ := List.cons.inj split
      rw [List.nil_append, homeless_cons] at homed
      exact ⟨fun h => homed (.inl h), .inl overruns⟩
    | cons l before =>
      obtain ⟨rfl, rfl⟩ := List.cons.inj split
      rw [passed_cons] at passed
      rw [List.cons_append, homeless_cons] at homed
      exact ⟨passed.2.1, .inr ⟨passed.1, before, line', after, rfl, passed.2.2, fun h => homed (.inr h), overruns⟩⟩
  · rintro ⟨homed, overruns | ⟨sound, before, line', after, rfl, passed, homed', overruns⟩⟩
    · refine ⟨[], line, lines, rfl, passed_nil home, ?_, overruns⟩
      rw [List.nil_append, homeless_cons]
      exact not_or.mpr ⟨homed, homeless_nil _⟩
    · refine ⟨line :: before, line', after, rfl, (passed_cons ..).mpr ⟨sound, homed, passed⟩, ?_, overruns⟩
      rw [List.cons_append, homeless_cons]
      exact not_or.mpr ⟨homed, homed'⟩

def Gives (full : Bool) (line : Text) (item : Item) : Prop :=
  match effect full line with
  | .section_ name => item = .section_ name
  | .value v => item = .value v
  | _ => False

def IniParser.items (p : IniParser) : List Item := p.pushed.flatMap IniSection.items

theorem not_significant {line : Text} (h : ¬ Significant line) : ¬ Valued line ∧ ¬ Begins line '[' := by
  constructor
  · exact fun valued => h valued.1
  · exact fun begins => h ⟨'[', begins, by decide, by decide⟩

theorem not_faulty {line : Text} (h : ¬ Significant line) : ¬ Faulty line := by
  obtain ⟨unvalued, unsectioned⟩ := not_significant h
  rintro (⟨begins, -⟩ | ⟨valued, -⟩ | ⟨pre, t, r, valued, -⟩)
  · exact unsectioned begins
  · exact unvalued valued
  · exact unvalued valued

theorem parseConfigLine_ignored (add full : Bool) (p : IniParser) {line : Text} (h : ¬ Significant line) :
    parseConfigLine add full p line = .ok p := by
  unfold parseConfigLine
  split
  · rfl
  · rename_i c top eq
    rw [if_pos]
    by_contra other
    rw [not_or] at other
    exact h ⟨c, by simp [Begins, eq], other⟩

theorem parseConfigLine_section (add full : Bool) (p : IniParser) {line : Text} (begins : Begins line '[') :
    parseConfigLine add full p line =
      match effect full line with
      | .section_ name => .ok ⟨p.pushed, some ⟨name, []⟩⟩
      | _ => .failed := by
  obtain ⟨top, skipped⟩ : ∃ top, skip line = '[' :: top := List.head?_eq_some_iff.mp begins
  unfold parseConfigLine effect
  rw [skipped]
  cases line.findIdx? (· = ']') <;> simp

def IniParser.put (p : IniParser) (v : IniValue) : IniParser :=
  { p with sect := some ⟨(p.sect.getD ⟨[], []⟩).sectName, (p.sect.getD ⟨[], []⟩).values ++ [v]⟩ }

theorem parseConfigLine_valued (add full : Bool) (p : IniParser) {line : Text} (valued : Valued line) :
    parseConfigLine add full p line =
      if (p.sect.isSome || add) = false then .failed
      else match effect full line with
        | .value v => .ok (p.put v)
        | .overruns => .undefined
        | _ => .failed := by
  obtain ⟨⟨c, begins, not_comment, not_hash⟩, not_section⟩ := valued
  obtain ⟨top, skipped⟩ : ∃ top, skip line = c :: top := List.head?_eq_some_iff.mp begins
  have other : c ≠ '[' := by
    rintro rfl
    exact not_section begins
  unfold parseConfigLine effect
  rw [skipped]
  simp only [not_comment, not_hash, other, or_self, if_false]
  cases hs : p.sect <;> cases add <;> cases parseValue full (c :: top) <;> simp [IniParser.put, hs]

theorem parseLines_outcome (add full : Bool) (lines : List Text) : ∀ p : IniParser,
    match parseLines add full p lines with
    | .undefined => Unread (p.sect.isSome || add) lines
    | .failed => ¬ Unread (p.sect.isSome || add) lines ∧ ¬ Passed (p.sect.isSome || add) lines
    | .ok p' => Passed (p.sect.isSome || add) lines ∧ ∃ default_ items, p'.items = p.items ++ (default_ ++ items) ∧
        (default_ = [] ∨ (p.sect = none ∧ add = true) ∧ default_ = [.section_ []]) ∧
        List.Forall₂ (Gives full) (lines.filter (Significant ·)) items := by
  induction lines with
  | nil =>
    intro p
    exact ⟨passed_nil _, [], [], by simp, .inl rfl, .nil⟩
  | cons line lines ih =>
    intro p
    simp only [unread_cons, passed_cons]
    by_cases significant : Significant line
    · have filtered : (line :: lines).filter (Significant ·) = line :: lines.filter (Significant ·) := by
        simp [significant]
      rw [filtered]
      by_cases begins : Begins line '['
      · have unvalued : ¬ Valued line := fun h => h.2 begins
        have inner : ¬ Overruns line := fun h => unvalued h.1
        simp only [parseLines, parseConfigLine_section add full p begins]
        rcases effect_section full begins with ⟨open_, fails⟩ | ⟨name', makes, ⟨name, section_⟩, -⟩
        · have faulty : Faulty line := .section_ begins open_
          simp [fails, inner, faulty]
        · have sound : ¬ Faulty line := by
            rintro (⟨-, open_⟩ | ⟨valued, -⟩ | ⟨pre, t, r, valued, -⟩)
            · obtain ⟨before, rest, rfl, -⟩ := section_
              simp at open_
            · exact unvalued valued
            · exact unvalued valued
          have ih := ih ⟨p.pushed, some ⟨name', []⟩⟩
          simp only [makes]
          simp only [Option.isSome_some, Bool.true_or] at ih
          simp only [inner, sound, unvalued, and_false, not_false_eq_true, true_and, false_or, significant, decide_true,
            Bool.or_true]
          cases result : parseLines add full ⟨p.pushed, some ⟨name', []⟩⟩ lines with
          | undefined => simpa [result] using ih
          | failed => simpa [result] using ih
          | ok p' =>
            rw [result] at ih
            obtain ⟨passed, default_, items, eq, no_default, gives⟩ := ih
            obtain rfl := no_default.resolve_right (by simp)
            refine ⟨passed, [], .section_ name' :: items, ?_, .inl rfl, .cons ?_ gives⟩
            · rw [eq]
              simp [IniParser.items, IniParser.pushed, IniSection.items]
            · simp [Gives, makes]
      · have valued : Valued line := ⟨significant, begins⟩
        simp only [parseLines, parseConfigLine_valued add full p valued]
        by_cases homeless : (p.sect.isSome || add) = false
        · simp [homeless, valued]
        · rw [if_neg homeless]
          simp only [homeless, valued, and_true, significant, decide_true, Bool.or_true]
          rcases effect_valued full valued with ⟨overruns, makes⟩ | ⟨faulty, inner, makes⟩ | ⟨v, makes, sound, -⟩
          · simp [makes, overruns]
          · simp [makes, faulty, inner]
          · have inner : ¬ Overruns line := fun h => sound (.equals h.1 h.2.1)
            have ih := ih (p.put v)
            have put_some : (p.put v).sect.isSome = true := rfl
            simp only [makes]
            rw [put_some, Bool.true_or] at ih
            simp only [inner, sound, not_false_eq_true, true_and, false_or]
            cases result : parseLines add full (p.put v) lines with
            | undefined => simpa [result] using ih
            | failed => simpa [result] using ih
            | ok p' =>
              rw [result] at ih
              obtain ⟨passed, default_, items, eq, no_default, gives⟩ := ih
              obtain rfl := no_default.resolve_right (by simp [IniParser.put])
              have gives_v : Gives full line (.value v) := by simp [Gives, makes]
              cases hs : p.sect with
              | none =>
                have added : add = true := by simpa [hs] using homeless
                refine ⟨⟨by decide, passed⟩, [.section_ []], .value v :: items, ?_, .inr ⟨⟨rfl, added⟩, rfl⟩, .cons gives_v gives⟩
                rw [eq]
                simp [IniParser.items, IniParser.pushed, IniSection.items, IniParser.put, hs]
              | some sect =>
                refine ⟨⟨by decide, passed⟩, [], .value v :: items, ?_, .inl rfl, .cons gives_v gives⟩
                rw [eq]
                simp [IniParser.items, IniParser.pushed, IniSection.items, IniParser.put, hs]
    · have unvalued := (not_significant significant).1
      have sound := not_faulty significant
      have inner : ¬ Overruns line := fun h => unvalued h.1
      have ih := ih p
      simp only [parseLines, parseConfigLine_ignored add full p significant]
      simpa [significant, unvalued, sound, inner] using ih

theorem SectionLine.begins {line name : Text} (h : SectionLine line name) : Begins line '[' := by
  obtain ⟨before, rest, rfl, blank, -⟩ := h
  rw [Begins, skip, List.dropWhile_append_of_pos blank]
  rfl

theorem ValueLine.begins {full : Bool} {line padding : Text} {v : IniValue} (h : ValueLine full line v padding) :
    ¬ Begins line '[' := by
  obtain ⟨c, top, skipped, not_section, -⟩ := parseValue_line h
  rw [Begins, skipped]
  simpa using not_section

theorem means_gives {full : Bool} {line : Text} {item : Item} (gives : Gives full line item) (sound : ¬ Faulty line)
    (significant : Significant line) :
    Means full line item ↔
      (Begins line '[' → skip line = line) ∧ ∀ v padding, ValueLine full line v padding → padding = [] := by
  unfold Gives at gives
  by_cases begins : Begins line '['
  · rcases effect_section full begins with ⟨open_, -⟩ | ⟨name', makes, ⟨name, section_⟩, names⟩
    · exact (sound (.section_ begins open_)).elim
    · rw [makes] at gives
      subst gives
      constructor
      · intro means
        refine ⟨fun _ => (names name section_).mp (Item.section_.inj (means.name name section_)), ?_⟩
        exact fun v padding line_ => (line_.begins begins).elim
      · rintro ⟨led, -⟩
        refine ⟨fun _ => ⟨name', rfl⟩, ?_, fun valued => (valued.2 begins).elim, ?_⟩
        · intro name₂ section₂
          rw [(names name₂ section₂).mpr (led begins)]
        · exact fun v padding line_ => (line_.begins begins).elim
  · have valued : Valued line := ⟨significant, begins⟩
    rcases effect_valued full valued with ⟨overruns, -⟩ | ⟨faulty, -⟩ | ⟨v', makes, -, reads⟩
    · exact (sound (.equals overruns.1 overruns.2.1)).elim
    · exact (sound faulty).elim
    · rw [makes] at gives
      subst gives
      constructor
      · intro means
        refine ⟨fun h => (begins h).elim, ?_⟩
        intro v padding line_
        have same := Item.value.inj (means.value v padding line_)
        have longer := congrArg IniValue.value ((reads v padding line_).symm.trans same)
        simpa using longer
      · rintro ⟨-, unpadded⟩
        refine ⟨fun h => (begins h).elim, fun name section_ => (begins section_.begins).elim, fun _ => ⟨v', rfl⟩, ?_⟩
        intro v padding line_
        rw [reads v padding line_, unpadded v padding line_, List.append_nil]

theorem forall₂_means {full : Bool} {lines : List Text} {items : List Item} (gives : List.Forall₂ (Gives full) lines items)
    (sound : ∀ line ∈ lines, ¬ Faulty line ∧ Significant line) :
    List.Forall₂ (Means full) lines items ↔ ∀ line ∈ lines,
      (Begins line '[' → skip line = line) ∧ ∀ v padding, ValueLine full line v padding → padding = [] := by
  induction gives with
  | nil => simp
  | cons first rest ih =>
    have here := sound _ List.mem_cons_self
    have behind := ih fun line hline => sound line (List.mem_cons_of_mem _ hline)
    rw [List.forall₂_cons, List.forall_mem_cons, means_gives first here.1 here.2, behind]

end Rts2.Values.Ini
