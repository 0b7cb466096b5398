import Rts2.Db.Copies

/-! Constraints printed as XML and loaded from it. The document is the tree its reader makes. -/
namespace Rts2.Db

open Lib

/-- The text of an element: numbers are printed exactly, and white space is no number. -/
inductive Content where
  | number (x : ℚ)
  | integer (n : Int)
  | blank
deriving DecidableEq

inductive XmlNode where
  | element (name : String) (children : List XmlNode)
  | text (content : Content)
  | comment

namespace XmlNode

def name : XmlNode → String
  | .element name _ => name
  | .text _ => "text"
  | .comment => "comment"

def children : XmlNode → List XmlNode
  | .element _ children => children
  | .text _ => []
  | .comment => []

def firstContent (node : XmlNode) : Option Content :=
  match node.children with
  | .text content :: _ => some content
  | _ => none

end XmlNode

def atof : Content → ℚ
  | .number x => x
  | .integer n => n
  | .blank => 0

def atoi : Content → Int
  | .number x => truncate x
  | .integer n => n
  | .blank => 0

def blank : XmlNode := .text .blank

def textElement (name : String) (content : Content) : XmlNode := .element name [.text content]

def bound (name : String) : Option ℚ → List XmlNode
  | none => []
  | some x => [blank, textElement name (.number x)]

def ConstraintDoubleInterval.printXML (i : ConstraintDoubleInterval) : XmlNode :=
  .element "interval" (bound "lower" i.lower ++ bound "upper" i.upper ++ [blank])

def Constraint.printXML : Constraint → List XmlNode
  | .interval kind intervals =>
    [.element kind.getName (blank :: intervals.flatMap fun i => [i.printXML, blank]), blank]
  | .maxRepeat n => if 0 < n then [textElement "maxRepeats" (.integer n), blank] else []

def printXML (cons : List Constraint) : XmlNode := .element "constraints" (blank :: cons.flatMap Constraint.printXML)

def XmlNode.isBlank : XmlNode → Bool
  | .text .blank => true
  | .text (.number _) => false
  | .text (.integer _) => false
  | .element _ _ => false
  | .comment => false

def onlyBlank : List XmlNode → Bool
  | [node] => node.isBlank
  | _ => false

mutual

def XmlNode.noBlanks (keptAlone : Bool) : XmlNode → XmlNode
  | .element name children =>
    .element name (if keptAlone && onlyBlank children then children else dropBlanks keptAlone children)
  | .text content => .text content
  | .comment => .comment

def dropBlanks (keptAlone : Bool) : List XmlNode → List XmlNode
  | [] => []
  | node :: rest => if node.isBlank then dropBlanks keptAlone rest else node.noBlanks keptAlone :: dropBlanks keptAlone rest

end

inductive LoadError where
  | unexpectedNode (node : XmlNode)
  | noContent

def loadBounds (first second : String) (read : Content → Option ℚ → Option ℚ) :
    List XmlNode → Option ℚ → Option ℚ → Except LoadError ConstraintDoubleInterval
  | [], lower, upper => .ok ⟨lower, upper⟩
  | par :: rest, lower, upper =>
    if par.name = first then
      match par.firstContent with
      | none => .error .noContent
      | some content => loadBounds first second read rest (read content lower) upper
    else if par.name = second then
      match par.firstContent with
      | none => .error .noContent
      | some content => loadBounds first second read rest lower (read content upper)
    else
      match par with
      | .comment => loadBounds first second read rest lower upper
      | .element _ _ => .error (.unexpectedNode par)
      | .text _ => .error (.unexpectedNode par)

def loadIntervals (first second : String) (read : Content → Option ℚ → Option ℚ) :
    List XmlNode → List ConstraintDoubleInterval → Except LoadError (List ConstraintDoubleInterval)
  | [], intervals => .ok intervals
  | inter :: rest, intervals =>
    if inter.name = "interval" then
      match loadBounds first second read inter.children none none with
      | .error e => .error e
      | .ok i => loadIntervals first second read rest (intervals ++ [i])
    else
      match inter with
      | .comment => loadIntervals first second read rest intervals
      | .element _ _ => .error (.unexpectedNode inter)
      | .text _ => .error (.unexpectedNode inter)

def ConstraintInterval.load (cons : XmlNode) : Except LoadError (List ConstraintDoubleInterval) :=
  loadIntervals "lower" "upper" (fun content _ => some (atof content)) cons.children []

def ConstraintTime.load (parseDate : Content → Option ℚ) (cons : XmlNode) :
    Except LoadError (List ConstraintDoubleInterval) :=
  loadIntervals "from" "to" (fun content JD => (parseDate content).or JD) cons.children []

def Constraint.load (parseDate : Content → Option ℚ) (cons : XmlNode) : Constraint → Except LoadError Constraint
  | .interval kind _ =>
    (if kind = .time then ConstraintTime.load parseDate cons else ConstraintInterval.load cons).map (.interval kind)
  | .maxRepeat _ =>
    match cons.firstContent with
    | none => .error (.unexpectedNode cons)
    | some content => .ok (.maxRepeat (atoi content))

def loadLoop (parseDate : Content → Option ℚ) (overwrite : Bool) :
    List XmlNode → List (String × Constraint) → Except LoadError (List (String × Constraint))
  | [], set => .ok set
  | cons :: rest, set =>
    match cons with
    | .comment => loadLoop parseDate overwrite rest set
    | .element _ _ | .text _ =>
      match set.lookup cons.name with
      | some con =>
        if overwrite then
          match con.load parseDate cons with
          | .error e => .error e
          | .ok con => loadLoop parseDate overwrite rest (set.map fun e => if e.1 = cons.name then (e.1, con) else e)
        else loadLoop parseDate overwrite rest set
      | none =>
        match createConstraint cons.name with
        | none => .error (.unexpectedNode cons)
        | some con =>
          match con.load parseDate cons with
          | .error e => .error e
          | .ok con => loadLoop parseDate overwrite rest (set ++ [(con.getName, con)])

def Constraints.load (parseDate : Content → Option ℚ) (overwrite : Bool) (node : XmlNode)
    (set : List (String × Constraint)) : Except LoadError (List (String × Constraint)) :=
  loadLoop parseDate overwrite node.children set

@[simp] theorem dropBlanks_blank (keptAlone : Bool) (rest : List XmlNode) :
    dropBlanks keptAlone (blank :: rest) = dropBlanks keptAlone rest := by
  simp [blank, dropBlanks, XmlNode.isBlank]

@[simp] theorem dropBlanks_element (keptAlone : Bool) (name : String) (children rest : List XmlNode) :
    dropBlanks keptAlone (.element name children :: rest) =
      (XmlNode.element name children).noBlanks keptAlone :: dropBlanks keptAlone rest := by
  simp [dropBlanks, XmlNode.isBlank]

theorem dropBlanks_append (keptAlone : Bool) (first second : List XmlNode) :
    dropBlanks keptAlone (first ++ second) = dropBlanks keptAlone first ++ dropBlanks keptAlone second := by
  induction first with
  | nil => simp [dropBlanks]
  | cons node rest ih =>
    rw [List.cons_append, dropBlanks, dropBlanks, ih]
    split
    · rfl
    · rfl

theorem noBlanks_textElement (keptAlone : Bool) (name : String) {content : Content} (not_blank : content ≠ .blank) :
    (textElement name content).noBlanks keptAlone = textElement name content := by
  cases content with
  | blank => exact absurd rfl not_blank
  | number x => simp [textElement, XmlNode.noBlanks, onlyBlank, dropBlanks, XmlNode.isBlank]
  | integer n => simp [textElement, XmlNode.noBlanks, onlyBlank, dropBlanks, XmlNode.isBlank]

def ConstraintDoubleInterval.Bounded (i : ConstraintDoubleInterval) : Prop := i.lower ≠ none ∨ i.upper ≠ none

def boundElement (name : String) : Option ℚ → List XmlNode
  | none => []
  | some x => [textElement name (.number x)]

theorem dropBlanks_bound (keptAlone : Bool) (name : String) (x : Option ℚ) :
    dropBlanks keptAlone (bound name x) = boundElement name x := by
  cases x with
  | none => rfl
  | some x =>
    have kept : (textElement name (.number x)).noBlanks keptAlone = textElement name (.number x) :=
      noBlanks_textElement keptAlone name Content.noConfusion
    rw [textElement] at kept
    rw [bound, boundElement, dropBlanks_blank, textElement, dropBlanks_element, kept]
    rfl

theorem printed_children {keptAlone : Bool} {i : ConstraintDoubleInterval} (kept : keptAlone = true → i.Bounded) :
    (i.printXML.noBlanks keptAlone).children = boundElement "lower" i.lower ++ boundElement "upper" i.upper := by
  have not_alone : (keptAlone && onlyBlank (bound "lower" i.lower ++ bound "upper" i.upper ++ [blank])) = false := by
    cases keptAlone with
    | false => rfl
    | true =>
      obtain ⟨lower, upper⟩ := i
      have bounded := kept rfl
      cases lower with
      | none =>
        cases upper with
        | none => simp [ConstraintDoubleInterval.Bounded] at bounded
        | some u => rfl
      | some l => cases upper with
        | none => rfl
        | some u => rfl
  rw [ConstraintDoubleInterval.printXML, XmlNode.noBlanks, not_alone, XmlNode.children, dropBlanks_append,
    dropBlanks_append, dropBlanks_bound, dropBlanks_bound, dropBlanks_blank]
  simp [dropBlanks]

theorem printed_blank {i : ConstraintDoubleInterval} (empty : ¬ i.Bounded) :
    (i.printXML.noBlanks true).children = [blank] := by
  obtain ⟨lower, upper⟩ := i
  simp only [ConstraintDoubleInterval.Bounded, not_or, not_not] at empty
  obtain ⟨rfl, rfl⟩ := empty
  rfl

section
variable {first second : String} {read : Content → Option ℚ → Option ℚ}

theorem loadBounds_first (content : Content) (rest : List XmlNode) (lower upper : Option ℚ) :
    loadBounds first second read (textElement first content :: rest) lower upper =
      loadBounds first second read rest (read content lower) upper := by
  conv => lhs; unfold loadBounds
  exact if_pos rfl

theorem loadBounds_second (other : second ≠ first) (content : Content) (rest : List XmlNode) (lower upper : Option ℚ) :
    loadBounds first second read (textElement second content :: rest) lower upper =
      loadBounds first second read rest lower (read content upper) := by
  conv => lhs; unfold loadBounds
  exact (if_neg other).trans (if_pos rfl)

theorem loadBounds_other {node : XmlNode} (not_first : node.name ≠ first) (not_second : node.name ≠ second)
    (not_comment : node ≠ .comment) (rest : List XmlNode) (lower upper : Option ℚ) :
    loadBounds first second read (node :: rest) lower upper = .error (.unexpectedNode node) := by
  unfold loadBounds
  simp only [if_neg not_first, if_neg not_second]
  cases node with
  | element name children => rfl
  | text content => rfl
  | comment => exact absurd rfl not_comment

end

theorem interval_read {keptAlone : Bool} {i : ConstraintDoubleInterval} (kept : keptAlone = true → i.Bounded) :
    loadBounds "lower" "upper" (fun content _ => some (atof content)) (i.printXML.noBlanks keptAlone).children none none =
      .ok i := by
  rw [printed_children kept]
  obtain ⟨lower, upper⟩ := i
  have reads_upper (lower : Option ℚ) : loadBounds "lower" "upper" (fun content _ => some (atof content))
      (boundElement "upper" upper) lower none = .ok ⟨lower, upper⟩ := by
    cases upper with
    | none => rfl
    | some u => exact loadBounds_second (by decide) _ _ _ _
  cases lower with
  | none => exact reads_upper none
  | some l =>
    exact (loadBounds_first (.number l) (boundElement "upper" upper) none none).trans (reads_upper (some l))

theorem empty_read {i : ConstraintDoubleInterval} (empty : ¬ i.Bounded) (first second : String)
    (read : Content → Option ℚ → Option ℚ) :
    loadBounds first second read (i.printXML.noBlanks false).children none none = .ok i := by
  rw [printed_children Bool.noConfusion]
  obtain ⟨lower, upper⟩ := i
  simp only [ConstraintDoubleInterval.Bounded, not_or, not_not] at empty
  obtain ⟨rfl, rfl⟩ := empty
  rfl

theorem blank_misread {i : ConstraintDoubleInterval} (empty : ¬ i.Bounded) {first second : String}
    (read : Content → Option ℚ → Option ℚ) (not_first : first ≠ "text") (not_second : second ≠ "text") :
    loadBounds first second read (i.printXML.noBlanks true).children none none = .error (.unexpectedNode blank) := by
  rw [printed_blank empty]
  exact loadBounds_other (Ne.symm not_first) (Ne.symm not_second) XmlNode.noConfusion [] none none

theorem bound_misread (keptAlone : Bool) {i : ConstraintDoubleInterval} (bounded : i.Bounded) {first second : String}
    (read : Content → Option ℚ → Option ℚ) (not_first : first ∉ ["lower", "upper"]) (not_second : second ∉ ["lower", "upper"]) :
    ∃ e, loadBounds first second read (i.printXML.noBlanks keptAlone).children none none = .error e := by
  rw [printed_children fun _ => bounded]
  simp only [List.mem_cons, List.not_mem_nil, or_false, not_or] at not_first not_second
  cases lower : i.lower with
  | some l =>
    refine ⟨_, loadBounds_other ?_ ?_ XmlNode.noConfusion _ none none⟩
    · exact Ne.symm not_first.1
    · exact Ne.symm not_second.1
  | none =>
    cases upper : i.upper with
    | some u =>
      refine ⟨_, loadBounds_other ?_ ?_ XmlNode.noConfusion _ none none⟩
      · exact Ne.symm not_first.2
      · exact Ne.symm not_second.2
    | none => simp [ConstraintDoubleInterval.Bounded, lower, upper] at bounded

section
variable {first second : String} {read : Content → Option ℚ → Option ℚ} {keptAlone : Bool}

theorem loadIntervals_interval (i : ConstraintDoubleInterval) (rest : List XmlNode) (acc : List ConstraintDoubleInterval) :
    loadIntervals first second read (i.printXML.noBlanks keptAlone :: rest) acc =
      match loadBounds first second read (i.printXML.noBlanks keptAlone).children none none with
      | .error e => .error e
      | .ok i => loadIntervals first second read rest (acc ++ [i]) := by
  conv => lhs; unfold loadIntervals
  exact if_pos rfl

theorem dropBlanks_interval (i : ConstraintDoubleInterval) (rest : List XmlNode) :
    dropBlanks keptAlone ([i.printXML, blank] ++ rest) = i.printXML.noBlanks keptAlone :: dropBlanks keptAlone rest := by
  rw [ConstraintDoubleInterval.printXML, List.cons_append, dropBlanks_element, List.cons_append, dropBlanks_blank]
  rfl

theorem intervals_read {intervals : List ConstraintDoubleInterval}
    (reads : ∀ i ∈ intervals, loadBounds first second read (i.printXML.noBlanks keptAlone).children none none = .ok i)
    (acc : List ConstraintDoubleInterval) :
    loadIntervals first second read (dropBlanks keptAlone (intervals.flatMap fun i => [i.printXML, blank])) acc =
      .ok (acc ++ intervals) := by
  induction intervals generalizing acc with
  | nil => rw [List.append_nil]; rfl
  | cons i rest ih =>
    obtain ⟨read_i, reads_rest⟩ := List.forall_mem_cons.mp reads
    rw [List.flatMap_cons, dropBlanks_interval, loadIntervals_interval, read_i]
    simp only
    rw [ih reads_rest, List.append_assoc]
    rfl

theorem intervals_misread {intervals : List ConstraintDoubleInterval}
    (misread : ∃ i ∈ intervals, ∃ e, loadBounds first second read (i.printXML.noBlanks keptAlone).children none none = .error e)
    (acc : List ConstraintDoubleInterval) :
    ∃ e, loadIntervals first second read (dropBlanks keptAlone (intervals.flatMap fun i => [i.printXML, blank])) acc =
      .error e := by
  induction intervals generalizing acc with
  | nil => obtain ⟨i, there, _⟩ := misread; cases there
  | cons i rest ih =>
    rw [List.flatMap_cons, dropBlanks_interval, loadIntervals_interval]
    obtain ⟨i', there, e, is_error⟩ := misread
    cases is_read : loadBounds first second read (i.printXML.noBlanks keptAlone).children none none with
    | error e' => exact ⟨e', rfl⟩
    | ok j =>
      obtain rfl | later := List.mem_cons.mp there
      · rw [is_error] at is_read
        cases is_read
      · exact ih ⟨i', later, e, is_error⟩ _

theorem intervals_blank (acc : List ConstraintDoubleInterval) :
    loadIntervals first second read [blank] acc = .error (.unexpectedNode blank) := by
  conv => lhs; unfold loadIntervals
  exact if_neg (by decide)

end

namespace Constraint

def fresh : Constraint → Constraint
  | .interval kind _ => .interval kind []
  | .maxRepeat _ => .maxRepeat (-1)

theorem createConstraint_getName (c : Constraint) : createConstraint c.getName = some c.fresh := by
  cases c with
  | interval kind intervals => exact createConstraint_interval kind
  | maxRepeat n => exact createConstraint_maxRepeats

/-- What is printed is read back: a time constraint has no bound, and what the reader keeps is not there. -/
def ReadBack (keptAlone : Bool) : Constraint → Prop
  | .interval kind intervals =>
    (kind = .time → ∀ i ∈ intervals, ¬ i.Bounded) ∧
    (keptAlone = true → intervals ≠ [] ∧ ∀ i ∈ intervals, i.Bounded)
  | .maxRepeat _ => True

def printed : Constraint → Bool
  | .interval _ _ => true
  | .maxRepeat n => 0 < n

theorem interval_children (keptAlone : Bool) (name : String) (intervals : List ConstraintDoubleInterval) :
    (XmlNode.element name (blank :: intervals.flatMap fun i => [i.printXML, blank])).noBlanks keptAlone =
      .element name (if keptAlone = true ∧ intervals = [] then [blank]
        else dropBlanks keptAlone (intervals.flatMap fun i => [i.printXML, blank])) := by
  rw [XmlNode.noBlanks]
  cases intervals with
  | nil =>
    cases keptAlone with
    | false => rfl
    | true => rfl
  | cons i rest =>
    have not_alone : (keptAlone && onlyBlank (blank :: (i :: rest).flatMap fun i => [i.printXML, blank])) = false := by
      cases keptAlone with
      | false => rfl
      | true => rfl
    rw [not_alone, if_neg Bool.false_ne_true, if_neg (by simp), dropBlanks_blank]

theorem load_interval (parseDate : Content → Option ℚ) (node : XmlNode) (kind : IntervalKind) :
    ∃ first second read, first ∉ ["text"] ∧ second ∉ ["text"] ∧
      (kind = .time → first ∉ ["lower", "upper"] ∧ second ∉ ["lower", "upper"]) ∧
      (kind ≠ .time → first = "lower" ∧ second = "upper" ∧ read = fun content _ => some (atof content)) ∧
      (Constraint.interval kind []).load parseDate node =
        (loadIntervals first second read node.children []).map (.interval kind) := by
  by_cases is_time : kind = .time
  · refine ⟨"from", "to", fun content JD => (parseDate content).or JD, by decide, by decide, fun _ => by decide,
      absurd is_time, ?_⟩
    rw [Constraint.load, if_pos is_time]
    rfl
  · refine ⟨"lower", "upper", fun content _ => some (atof content), by decide, by decide, fun time => absurd time is_time,
      fun _ => ⟨rfl, rfl, rfl⟩, ?_⟩
    rw [Constraint.load, if_neg is_time]
    rfl

theorem load_printed_interval (parseDate : Content → Option ℚ) (keptAlone : Bool) (kind : IntervalKind)
    (intervals : List ConstraintDoubleInterval) :
    let node := (XmlNode.element kind.getName (blank :: intervals.flatMap fun i => [i.printXML, blank])).noBlanks keptAlone
    (ReadBack keptAlone (.interval kind intervals) →
      (Constraint.interval kind []).load parseDate node = .ok (.interval kind intervals)) ∧
    (¬ ReadBack keptAlone (.interval kind intervals) →
      ∃ e, (Constraint.interval kind []).load parseDate node = .error e) := by
  intro node
  obtain ⟨first, second, read, first_text, second_text, of_time, sampled, loads⟩ := load_interval parseDate node kind
  have children : node.children = if keptAlone = true ∧ intervals = [] then [blank]
      else dropBlanks keptAlone (intervals.flatMap fun i => [i.printXML, blank]) := by
    simp only [node, interval_children]
    rfl
  rw [loads, children]
  constructor
  · rintro ⟨no_time, kept⟩
    have reads : ∀ i ∈ intervals,
        loadBounds first second read (i.printXML.noBlanks keptAlone).children none none = .ok i := by
      intro i there
      by_cases is_time : kind = .time
      · have empty := no_time is_time i there
        have not_kept : keptAlone = false := by
          by_contra is_kept
          exact empty ((kept (by simpa using is_kept)).2 i there)
        rw [not_kept]
        exact empty_read empty first second read
      · obtain ⟨rfl, rfl, rfl⟩ := sampled is_time
        exact interval_read fun is_kept => (kept is_kept).2 i there
    rw [if_neg fun alone => (kept alone.1).1 alone.2, intervals_read reads]
    rfl
  · intro not_read
    by_cases alone : keptAlone = true ∧ intervals = []
    · rw [if_pos alone, intervals_blank]
      exact ⟨_, rfl⟩
    · rw [if_neg alone]
      have misread : ∃ i ∈ intervals, ∃ e,
          loadBounds first second read (i.printXML.noBlanks keptAlone).children none none = .error e := by
        by_cases no_time : kind = .time → ∀ i ∈ intervals, ¬ i.Bounded
        · have kept : ¬ (keptAlone = true → intervals ≠ [] ∧ ∀ i ∈ intervals, i.Bounded) := fun kept =>
            not_read ⟨no_time, kept⟩
          push Not at kept
          obtain ⟨rfl, has_empty⟩ := kept
          obtain ⟨i, there, empty⟩ := has_empty fun none_left => alone ⟨rfl, none_left⟩
          refine ⟨i, there, _, blank_misread empty read ?_ ?_⟩
          · exact fun is_text => first_text (is_text ▸ List.mem_cons_self)
          · exact fun is_text => second_text (is_text ▸ List.mem_cons_self)
        · push Not at no_time
          obtain ⟨is_time, i, there, bounded⟩ := no_time
          exact ⟨i, there, bound_misread keptAlone bounded read (of_time is_time).1 (of_time is_time).2⟩
      obtain ⟨e, failed⟩ := intervals_misread misread []
      rw [failed]
      exact ⟨e, rfl⟩

theorem printed_node (parseDate : Content → Option ℚ) (keptAlone : Bool) {c : Constraint} (is_printed : c.printed = true) :
    ∃ children, dropBlanks keptAlone c.printXML = [.element c.getName children] ∧
      (ReadBack keptAlone c → c.fresh.load parseDate (.element c.getName children) = .ok c) ∧
      (¬ ReadBack keptAlone c → ∃ e, c.fresh.load parseDate (.element c.getName children) = .error e) := by
  cases c with
  | interval kind intervals =>
    have loads := load_printed_interval parseDate keptAlone kind intervals
    rw [interval_children] at loads
    refine ⟨_, ?_, loads⟩
    rw [printXML, dropBlanks_element, interval_children, dropBlanks_blank]
    rfl
  | maxRepeat n =>
    have limits : 0 < n := by simpa [printed] using is_printed
    have kept : (textElement "maxRepeats" (.integer n)).noBlanks keptAlone = textElement "maxRepeats" (.integer n) :=
      noBlanks_textElement keptAlone "maxRepeats" Content.noConfusion
    refine ⟨[.text (.integer n)], ?_, fun _ => rfl, fun not_read => absurd trivial not_read⟩
    rw [textElement] at kept
    rw [printXML, if_pos limits, textElement, dropBlanks_element, kept, dropBlanks_blank]
    rfl

theorem not_printed {c : Constraint} (hidden : c.printed = false) : c.printXML = [] := by
  cases c with
  | interval kind intervals => cases hidden
  | maxRepeat n => exact if_neg (by simpa [printed] using hidden)

theorem readBack_not_printed (keptAlone : Bool) {c : Constraint} (hidden : c.printed = false) : ReadBack keptAlone c := by
  cases c with
  | interval kind intervals => cases hidden
  | maxRepeat n => trivial

theorem satisfy_not_printed (sky : Sky) (tar : Target) (JD : ℚ) {c : Constraint} (hidden : c.printed = false) :
    (satisfy sky tar JD c).1 = true := by
  cases c with
  | interval kind intervals => cases hidden
  | maxRepeat n =>
    have no_limit : ¬ 0 < n := by simpa [printed] using hidden
    simp [satisfy, no_limit]

end Constraint

section
variable (parseDate : Content → Option ℚ) (overwrite : Bool)

theorem loadLoop_new {set : List (String × Constraint)} {c : Constraint} (absent : c.getName ∉ set.map (·.1))
    (children rest : List XmlNode) : loadLoop parseDate overwrite (.element c.getName children :: rest) set =
      match c.fresh.load parseDate (.element c.getName children) with
      | .error e => .error e
      | .ok con => loadLoop parseDate overwrite rest (set ++ [(con.getName, con)]) := by
  have no_candidate : set.lookup c.getName = none := by
    rw [List.lookup_eq_none_iff]
    intro e there
    have other : c.getName ≠ e.1 := fun same => absent (same ▸ List.mem_map_of_mem there)
    simpa using other
  conv => lhs; unfold loadLoop
  simp only [XmlNode.name, no_candidate, Constraint.createConstraint_getName]

theorem loadLoop_printed (keptAlone : Bool) {cons : List Constraint} {set : List (String × Constraint)}
    (names : (set.map (·.1) ++ cons.map Constraint.getName).Nodup) :
    ((∀ c ∈ cons, c.ReadBack keptAlone) →
      loadLoop parseDate overwrite (dropBlanks keptAlone (cons.flatMap Constraint.printXML)) set =
        .ok (set ++ (cons.filter Constraint.printed).map fun c => (c.getName, c))) ∧
    ((∃ c ∈ cons, ¬ c.ReadBack keptAlone) →
      ∃ e, loadLoop parseDate overwrite (dropBlanks keptAlone (cons.flatMap Constraint.printXML)) set = .error e) := by
  induction cons generalizing set with
  | nil => exact ⟨fun _ => by rw [List.filter_nil, List.map_nil, List.append_nil]; rfl, by simp⟩
  | cons c cons ih =>
    rw [List.flatMap_cons, dropBlanks_append]
    cases is_printed : c.printed with
    | false =>
      have read_c := Constraint.readBack_not_printed keptAlone is_printed
      have names' : (set.map (·.1) ++ cons.map Constraint.getName).Nodup := names.sublist (by simp)
      obtain ⟨loads, fails⟩ := ih names'
      rw [Constraint.not_printed is_printed, dropBlanks, List.nil_append, List.filter_cons_of_neg (by simp [is_printed])]
      refine ⟨fun reads => loads (List.forall_mem_cons.mp reads).2, ?_⟩
      rintro ⟨c', there, not_read⟩
      obtain rfl | later := List.mem_cons.mp there
      · exact absurd read_c not_read
      · exact fails ⟨c', later, not_read⟩
    | true =>
      obtain ⟨children, node, loads, fails⟩ := Constraint.printed_node parseDate keptAlone is_printed
      have absent : c.getName ∉ set.map (·.1) := fun there =>
        List.disjoint_of_nodup_append names there List.mem_cons_self
      rw [node, List.singleton_append, loadLoop_new parseDate overwrite absent]
      have names' : ((set ++ [(c.getName, c)]).map (·.1) ++ cons.map Constraint.getName).Nodup := by
        simpa using names
      obtain ⟨loads_rest, fails_rest⟩ := ih names'
      constructor
      · intro reads
        obtain ⟨read_c, read_rest⟩ := List.forall_mem_cons.mp reads
        rw [loads read_c]
        simp only
        rw [loads_rest read_rest, List.filter_cons_of_pos is_printed, List.map_cons, List.append_assoc]
        rfl
      · rintro ⟨c', there, not_read⟩
        by_cases read_c : c.ReadBack keptAlone
        · rw [loads read_c]
          obtain rfl | later := List.mem_cons.mp there
          · exact absurd read_c not_read
          · exact fails_rest ⟨c', later, not_read⟩
        · obtain ⟨e, failed⟩ := fails read_c
          exact ⟨e, by rw [failed]⟩

def LoadFaithful (keptAlone : Bool) (cons : List Constraint) : Prop :=
  ∃ loaded, Constraints.load parseDate overwrite ((printXML cons).noBlanks keptAlone) [] = .ok loaded ∧
    ∀ sky tar JD, Constraints.satisfy sky tar JD (loaded.map (·.2)) = Constraints.satisfy sky tar JD cons

theorem satisfy_printed (sky : Sky) (tar : Target) (JD : ℚ) (cons : List Constraint) :
    Constraints.satisfy sky tar JD (cons.filter Constraint.printed) = Constraints.satisfy sky tar JD cons := by
  induction cons with
  | nil => rfl
  | cons c cons ih =>
    unfold Constraints.satisfy at ih ⊢
    cases is_printed : c.printed with
    | false =>
      rw [List.filter_cons_of_neg (by simp [is_printed]), List.all_cons,
        Constraint.satisfy_not_printed sky tar JD is_printed, Bool.true_and]
      exact ih
    | true =>
      rw [List.filter_cons_of_pos is_printed, List.all_cons, List.all_cons, ih]

theorem printed_document (keptAlone : Bool) (cons : List Constraint) :
    ((printXML cons).noBlanks keptAlone).children =
      if keptAlone = true ∧ ∀ c ∈ cons, c.printed = false then [blank]
      else dropBlanks keptAlone (cons.flatMap Constraint.printXML) := by
  have nothing : cons.flatMap Constraint.printXML = [] ↔ ∀ c ∈ cons, c.printed = false := by
    rw [List.flatMap_eq_nil_iff]
    refine forall₂_congr fun c _ => ?_
    cases c with
    | interval kind intervals => simp [Constraint.printXML, Constraint.printed]
    | maxRepeat n => simp [Constraint.printXML, Constraint.printed]
  rw [printXML, XmlNode.noBlanks, XmlNode.children]
  simp only [← nothing]
  cases cons.flatMap Constraint.printXML with
  | nil =>
    cases keptAlone with
    | false => rfl
    | true => rfl
  | cons node rest =>
    have not_alone : (keptAlone && onlyBlank (blank :: node :: rest)) = false := by
      cases keptAlone with
      | false => rfl
      | true => rfl
    rw [not_alone, if_neg Bool.false_ne_true, if_neg (by simp), dropBlanks_blank]

theorem loadFaithful_iff (keptAlone : Bool) {cons : List Constraint} (names : (cons.map Constraint.getName).Nodup) :
    LoadFaithful parseDate overwrite keptAlone cons ↔
      (∀ c ∈ cons, c.ReadBack keptAlone) ∧ (keptAlone = true → ∃ c ∈ cons, c.printed = true) := by
  have loads := loadLoop_printed parseDate overwrite keptAlone
    (show (([] : List (String × Constraint)).map (·.1) ++ cons.map Constraint.getName).Nodup from names)
  unfold LoadFaithful Constraints.load
  rw [printed_document]
  by_cases alone : keptAlone = true ∧ ∀ c ∈ cons, c.printed = false
  · rw [if_pos alone]
    constructor
    · rintro ⟨loaded, got, _⟩
      cases got
    · rintro ⟨_, something⟩
      obtain ⟨c, there, is_printed⟩ := something alone.1
      rw [alone.2 c there] at is_printed
      cases is_printed
  · rw [if_neg alone]
    have something : keptAlone = true → ∃ c ∈ cons, c.printed = true := by
      simpa only [not_and, not_forall, Bool.not_eq_false, exists_prop] using alone
    constructor
    · rintro ⟨loaded, got, _⟩
      refine ⟨?_, something⟩
      by_contra not_read
      push Not at not_read
      obtain ⟨e, failed⟩ := loads.2 not_read
      rw [failed] at got
      cases got
    · rintro ⟨reads, _⟩
      refine ⟨_, loads.1 reads, ?_⟩
      intro sky tar JD
      have back (kept : List Constraint) : (kept.map fun c => (c.getName, c)).map (·.2) = kept := by
        rw [List.map_map]
        exact List.map_id kept
      rw [List.nil_append, back]
      exact satisfy_printed sky tar JD cons

end

theorem names_of_named {h : Counted Constraint} {cs : Pointers} (named : Named h cs) :
    (cs.constraints h).map Constraint.getName = cs.map (·.1) := by
  have each := named.named
  clear named
  unfold Pointers.constraints
  induction cs with
  | nil => rfl
  | cons e cs ih =>
    obtain ⟨⟨c, is_c, has_name⟩, rest⟩ := List.forall_mem_cons.mp each
    rw [List.filterMap_cons, is_c, List.map_cons, List.map_cons, has_name, ih rest]

/-- A set of constraints is copied faithfully just where no altitude and no azimuth is in it, and loaded faithfully
from what is printed of it just where it is read back. -/
theorem copies_faithful (parseDate : Content → Option ℚ) (overwrite keptAlone : Bool) {h : Counted Constraint}
    {cs : Pointers} {others : List Nat} (holds : h.Holds (cs.addresses ++ others)) (named : Named h cs) :
    (CopyFaithful h cs ↔ ∀ e ∈ cs, e.1 ≠ "altitude" ∧ e.1 ≠ "azimuth") ∧
    (LoadFaithful parseDate overwrite keptAlone (cs.constraints h) ↔
      (∀ c ∈ cs.constraints h, c.ReadBack keptAlone) ∧
      (keptAlone = true → ∃ c ∈ cs.constraints h, c.printed = true)) := by
  refine ⟨copyFaithful_iff holds named, ?_⟩
  refine loadFaithful_iff parseDate overwrite keptAlone ?_
  rw [names_of_named named]
  exact named.names

def single (c : Constraint) : Counted Constraint := Counted.new ⟨fun _ => none, fun _ => 0, 0⟩ c

theorem single_holds (c : Constraint) : (single c).Holds [0] := by
  have empty : (⟨fun _ => none, fun _ => 0, 0⟩ : Counted Constraint).Holds [] :=
    ⟨fun _ => rfl, fun _ there => absurd there List.not_mem_nil, fun _ there => absurd there List.not_mem_nil⟩
  exact empty.new c

/-- A limit of the airmass is copied, printed and loaded. -/
theorem airmass_faithful :
    CopyFaithful (single (.interval .airmass [⟨none, some 2⟩])) [("airmass", 0)] ∧
      LoadFaithful (fun _ => none) true true [.interval .airmass [⟨none, some 2⟩]] := by
  have named : Named (single (.interval .airmass [⟨none, some 2⟩])) [("airmass", 0)] :=
    ⟨by decide, by rw [List.forall_mem_singleton]; exact ⟨_, rfl, rfl⟩⟩
  have holds : (single (.interval .airmass [⟨none, some 2⟩])).Holds (Pointers.addresses [("airmass", 0)] ++ []) :=
    single_holds _
  obtain ⟨copies, loads⟩ := copies_faithful (fun _ => none) true true holds named
  refine ⟨copies.mpr (by decide), loads.mpr ⟨?_, fun _ => ⟨_, List.mem_singleton_self _, rfl⟩⟩⟩
  show ∀ c ∈ [Constraint.interval .airmass [⟨none, some 2⟩]], c.ReadBack true
  rw [List.forall_mem_singleton]
  refine ⟨fun is_time => IntervalKind.noConfusion is_time, fun _ => ⟨by simp, ?_⟩⟩
  rw [List.forall_mem_singleton]
  exact .inr (Option.some_ne_none 2)

/-- A limit of the altitude ends the process that copies it, and a time that is printed is not loaded. -/
theorem altitude_not_copied :
    ¬ CopyFaithful (single (.interval .altitude [⟨some 30, none⟩])) [("altitude", 0)] ∧
      ¬ LoadFaithful (fun _ => none) true true [.interval .time [⟨some 2460000, none⟩]] := by
  constructor
  · rintro ⟨h', copy, copied, _⟩
    have unknown : ∃ e ∈ [("altitude", 0)], e.1 = "altitude" ∨ e.1 = "azimuth" := ⟨_, List.mem_singleton_self _, .inl rfl⟩
    have ends := copyLoop_none unknown ((single (.interval .altitude [⟨some 30, none⟩])).acquireAll [0]) [("altitude", 0)]
    rw [copyConstraints] at copied
    have both := ends.symm.trans copied
    cases both
  · rintro ⟨loaded, got, _⟩
    cases got

end Rts2.Db
