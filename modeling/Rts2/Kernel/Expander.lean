import Mathlib

/-! Templates of names of files. A variable is a percent sign, digits and one character, or an at sign, digits and a
name. -/
namespace Rts2.Kernel.Expansions

abbrev Text := List Char

def isdigit (c : Char) : Bool := '0' ≤ c && c ≤ '9'

def isalnum (c : Char) : Bool := isdigit c || 'a' ≤ c && c ≤ 'z' || 'A' ≤ c && c ≤ 'Z'

def isspace (c : Char) : Bool := c = ' ' || 9 ≤ c.toNat && c.toNat ≤ 13

def isAlphaNum (c : Char) : Bool :=
  isalnum c || isspace c || "_+-.|(){}:='\",`|[]".toList.contains c || c.toNat = 0

def replaceNonAlpha (text : Text) (onlyAlphaNum : Bool) : Text :=
  if onlyAlphaNum then text.map fun c => if isAlphaNum c then c else '_' else text

def isName (c : Char) : Bool := isalnum c || c = '_' || c = '-' || c = '.' || c = ':'

structure OStream where
  text : Text
  fill : Char
  width : Nat

def pad (fill : Char) (width : Nat) (t : Text) : Text := List.replicate (width - t.length) fill ++ t

def OStream.write (t : Text) (ret : OStream) : OStream :=
  { ret with text := ret.text ++ pad ret.fill ret.width t, width := 0 }

def OStream.setw (width : Nat) (ret : OStream) : OStream := { ret with width := width }

structure Tm where
  tm_sec : Int
  tm_min : Int
  tm_hour : Int
  tm_mday : Int
  tm_mon : Int
  tm_year : Int
  tm_yday : Int
  tm_isdst : Int

inductive DateUsed where
  | localDate | utDate
  deriving DecidableEq

/-- An expander. A class can have variables of its own; own gives also whether their characters are replaced. -/
structure Expander where
  own : Char → Option (Text × Bool)
  ownLong : Text → Option Text
  localDate : Tm
  utDate : Tm
  nightDate : Tm
  tv_sec : Int
  tv_usec : Int
  epochId : Int
  getDateObs : Int → Int → Text
  julianDate : Int → Int → Text
  tzname : Bool → Text

/-- What a character stands for: a value, a change of the date, or the number of the file. -/
inductive Value where
  | text (t : Text) (rep : Bool)
  | date (used : DateUsed)
  | number

def number (n : Int) : Text := (toString n).toList

def zeros (width : Nat) (n : Int) : Text := pad '0' width (number n)

variable (e : Expander)

def expandDate : DateUsed → Tm
  | .localDate => e.localDate
  | .utDate => e.utDate

def getYearString (year : Int) : Text := zeros 4 year

def getShortYearString (year : Int) : Text := zeros 2 (year.tmod 100)

def getMonthString (month : Int) : Text := zeros 2 month

def getDayString (day : Int) : Text := zeros 2 day

def getNightString : Text :=
  zeros 4 (e.nightDate.tm_year + 1900) ++ zeros 2 (e.nightDate.tm_mon + 1) ++ zeros 2 e.nightDate.tm_mday

def expandVariable (used : DateUsed) (var : Char) (rep : Bool) : Value :=
  let date := expandDate e used
  match e.own var with
  | some (t, keeps) => .text t (rep && !keeps)
  | none =>
    match var with
    | '%' => .text ['%'] rep
    | 'y' => .text (getYearString (date.tm_year + 1900)) rep
    | 'x' => .text (getShortYearString (date.tm_year + 1900)) rep
    | 'A' => .text (e.getDateObs e.tv_sec e.tv_usec) rep
    | 'a' => .text (zeros 3 date.tm_yday) rep
    | 'C' => .text (number e.tv_sec) rep
    | 'J' => .text (e.julianDate e.tv_sec e.tv_usec) rep
    | 'N' => .text (getNightString e) rep
    | 'm' => .text (getMonthString (date.tm_mon + 1)) rep
    | 'd' => .text (getDayString date.tm_mday) rep
    | 'e' => .text (zeros 3 e.epochId) rep
    | 'H' => .text (zeros 2 date.tm_hour) rep
    | 'M' => .text (zeros 2 date.tm_min) rep
    | 'S' => .text (zeros 2 date.tm_sec) rep
    | 's' => .text (zeros 3 (e.tv_usec.tdiv 1000)) rep
    | 'U' => .date .utDate
    | 'L' => .date .localDate
    | 'Z' => .text (e.tzname (0 < date.tm_isdst)) rep
    | 'Y' => .text (getYearString (e.nightDate.tm_year + 1900)) rep
    | 'X' => .text (getShortYearString (e.nightDate.tm_year + 1900)) rep
    | 'O' => .text (getMonthString (e.nightDate.tm_mon + 1)) rep
    | 'D' => .text (getDayString e.nightDate.tm_mday) rep
    | 'u' => .number
    | var => .text ['%', var] rep

def expandLong (name : Text) : Text := (e.ownLong name).getD ('@' :: name)

abbrev INT_MAX : Nat := 2 ^ 31 - 1

def readLength : Nat → Text → Option (Nat × Text)
  | length, [] => some (length, [])
  | length, c :: rest =>
    if isdigit c then
      let length := length * 10 + (c.toNat - '0'.toNat)
      if length ≤ INT_MAX then readLength length rest else none
    else some (length, c :: rest)

/-- The length and the fill, the stream that has them, and what is left of the template. At its end the terminator
is read. -/
def getFormating (iter : Text) (ret : OStream) : Option (Nat × Char × OStream × Text) :=
  let fill := if iter.head? = some '0' then '0' else ' '
  let ret := { ret with fill := fill }
  match readLength 0 iter with
  | none => none
  | some (length, rest) => some (length, fill, if 0 < length then ret.setw length else ret, rest)

/-- Where the number of the file goes. -/
structure NumPos where
  num_pos : Nat
  num_lenght : Nat
  num_fill : Char

structure Expansion where
  ret : OStream
  used : DateUsed
  num : Option NumPos

/-- The text, an error, an overflow of the width, or a run past the end of the template. -/
inductive Outcome where
  | text (s : Expansion)
  | thrown
  | overflow
  | beyond

theorem readLength_length {length : Nat} {iter : Text} {read : Nat × Text}
    (done : readLength length iter = some read) : read.2.length ≤ iter.length := by
  induction iter generalizing length with
  | nil =>
    obtain rfl := Option.some.inj done
    exact Nat.le_refl _
  | cons c iter ih =>
    rw [readLength] at done
    split at done
    · dsimp only at done
      split at done
      · exact Nat.le_succ_of_le (ih done)
      · exact nomatch done
    · obtain rfl := Option.some.inj done
      exact Nat.le_refl _

theorem getFormating_length {iter rest : Text} {ret ret' : OStream} {length : Nat} {fill : Char}
    (done : getFormating iter ret = some (length, fill, ret', rest)) : rest.length ≤ iter.length := by
  unfold getFormating at done
  dsimp only at done
  split at done
  · exact nomatch done
  · rename_i length' rest' read
    obtain ⟨rfl, rfl, rfl, rfl⟩ := done
    exact readLength_length read

def expandLoop (onlyAlphaNum : Bool) (s : Expansion) : Text → Outcome
  | [] => .text s
  | c :: iter =>
    if c = '%' then
      match _form : getFormating iter s.ret with
      | none => .overflow
      -- the increment of the loop goes over the end
      | some (_, _, _, []) => .beyond
      | some (length, fill, ret, var :: rest) =>
        match expandVariable e s.used var onlyAlphaNum with
        | .text t rep =>
          let ret := if 0 < t.length then ret.write (replaceNonAlpha t rep) else ret.setw 0
          expandLoop onlyAlphaNum { s with ret := ret } rest
        | .date used => expandLoop onlyAlphaNum { s with ret := ret.setw 0, used := used } rest
        | .number =>
          if s.num.isSome then .thrown
          else expandLoop onlyAlphaNum { s with ret := ret.setw 0, num := some ⟨ret.text.length, length, fill⟩ } rest
    else if c = '@' then
      match _form : getFormating iter s.ret with
      | none => .overflow
      | some (_, _, ret, rest) =>
        let name := rest.takeWhile isName
        expandLoop onlyAlphaNum { s with ret := ret.write (replaceNonAlpha (expandLong e name) onlyAlphaNum) }
          (rest.dropWhile isName)
    else expandLoop onlyAlphaNum { s with ret := s.ret.write [c] } iter
termination_by iter => iter.length
decreasing_by
  all_goals
    first
    | (have le := getFormating_length _form
       simp only [List.length_cons] at le ⊢
       omega)
    | (have le := getFormating_length _form
       have drop := List.length_dropWhile_le isName rest
       simp only [List.length_cons]
       omega)
    | (simp only [List.length_cons]
       omega)

def expand (onlyAlphaNum : Bool) (used : DateUsed) (template : Text) : Outcome :=
  expandLoop e onlyAlphaNum ⟨⟨[], ' ', 0⟩, used, none⟩ template

inductive Stat where
  | found | ENOENT | other
  deriving DecidableEq

def tryNames (stat : Text → Stat) (ret : Text) (num : NumPos) : Nat → Nat → Option Text
  | 0, _ => none
  | left + 1, n =>
    let os := ret.take num.num_pos ++ pad num.num_fill num.num_lenght (number n) ++ ret.drop num.num_pos
    match stat os with
    | .found => tryNames stat ret num left (n + 1)
    | .ENOENT => some os
    | .other => none

def expandPath (stat : Text → Stat) (onlyAlNum : Bool) (used : DateUsed) (pathEx : Text) : Option Text :=
  match expand e onlyAlNum used pathEx with
  | .text s =>
    match s.num with
    | some num => tryNames stat s.ret.text num (INT_MAX - 1) 1
    | none => some s.ret.text
  | _ => none

inductive Item where
  | literal (c : Char)
  | short (digits : Text) (var : Char)
  | long (digits name : Text)

/-- The pieces a template is made of. A width has all digits and a name all characters that follow. -/
inductive Template : Text → List Item → Prop where
  | done : Template [] []
  | literal {c : Char} {t : Text} {items : List Item} (percent : c ≠ '%') (at_ : c ≠ '@') (rest : Template t items) :
      Template (c :: t) (.literal c :: items)
  | short {digits : Text} {var : Char} {t : Text} {items : List Item} (all : ∀ c ∈ digits, isdigit c = true)
      (other : isdigit var = false) (rest : Template t items) :
      Template ('%' :: (digits ++ var :: t)) (.short digits var :: items)
  | long {digits name : Text} {t : Text} {items : List Item} (all : ∀ c ∈ digits, isdigit c = true)
      (letters : ∀ c ∈ name, isName c = true) (other : ∀ c ∈ name.head?, isdigit c = false)
      (ends : ∀ c ∈ t.head?, isName c = false) (rest : Template t items) :
      Template ('@' :: (digits ++ (name ++ t))) (.long digits name :: items)

def lengthFrom (length : Nat) (digits : Text) : Nat :=
  digits.foldl (fun length c => length * 10 + (c.toNat - '0'.toNat)) length

def widthOf (digits : Text) : Nat := lengthFrom 0 digits

def fillOf (digits : Text) : Char := if digits.head? = some '0' then '0' else ' '

def padded (digits t : Text) : Text := pad (fillOf digits) (widthOf digits) t

/-- What a piece is replaced by, with the number of the file when it is known, and the date that is used behind it. -/
def piece (onlyAlphaNum : Bool) (n : Option Nat) (used : DateUsed) : Item → Text × DateUsed
  | .literal c => ([c], used)
  | .short digits var =>
    match expandVariable e used var onlyAlphaNum with
    | .text t rep => (padded digits (replaceNonAlpha t rep), used)
    | .date used => ([], used)
    | .number =>
      match n with
      | none => ([], used)
      | some n => (padded digits (number n), used)
  | .long digits name => (padded digits (replaceNonAlpha (expandLong e name) onlyAlphaNum), used)

def render (onlyAlphaNum : Bool) (n : Option Nat) : DateUsed → List Item → Text
  | _, [] => []
  | used, i :: items =>
    (piece e onlyAlphaNum n used i).1 ++ render onlyAlphaNum n (piece e onlyAlphaNum n used i).2 items

def IsNumber (onlyAlphaNum : Bool) (used : DateUsed) : Item → Prop
  | .short _ var => expandVariable e used var onlyAlphaNum = .number
  | _ => False

instance (onlyAlphaNum : Bool) (used : DateUsed) (i : Item) : Decidable (IsNumber e onlyAlphaNum used i) :=
  match i with
  | .literal _ => .isFalse id
  | .long _ _ => .isFalse id
  | .short _ var =>
    match value : expandVariable e used var onlyAlphaNum with
    | .number => .isTrue value
    | .text _ _ => .isFalse fun number => nomatch value.symm.trans number
    | .date _ => .isFalse fun number => nomatch value.symm.trans number

def numbers (onlyAlphaNum : Bool) : DateUsed → List Item → Nat
  | _, [] => 0
  | used, i :: items =>
    (if IsNumber e onlyAlphaNum used i then 1 else 0) + numbers onlyAlphaNum (piece e onlyAlphaNum none used i).2 items

def First (stat : Text → Stat) (name : Nat → Text) (n : Nat) : Prop :=
  0 < n ∧ stat (name n) = .ENOENT ∧ ∀ m, 0 < m → m < n → stat (name m) = .found

/-- The template is read to its end and not further, each variable has its value with its own width, and the name of
a path has the first number that is free. -/
def Right (stat : Text → Stat) (onlyAlphaNum : Bool) (used : DateUsed) (template : Text) : Prop :=
  ∃ items, Template template items ∧
    (∃ s, expand e onlyAlphaNum used template = .text s ∧ s.ret.text = render e onlyAlphaNum none used items) ∧
    (numbers e onlyAlphaNum used items = 0 →
      expandPath e stat onlyAlphaNum used template = some (render e onlyAlphaNum none used items)) ∧
    (numbers e onlyAlphaNum used items ≠ 0 →
      ∃ n, First stat (fun n => render e onlyAlphaNum (some n) used items) n ∧
        expandPath e stat onlyAlphaNum used template = some (render e onlyAlphaNum (some n) used items))

def FineItem (onlyAlphaNum : Bool) (used : DateUsed) : Item → Prop
  | .literal _ => True
  | .short digits var =>
    widthOf digits ≤ INT_MAX ∧
      ∀ t rep, expandVariable e used var onlyAlphaNum = .text t rep → t = [] → widthOf digits = 0
  | .long digits _ => widthOf digits ≤ INT_MAX

def Fine (onlyAlphaNum : Bool) : DateUsed → List Item → Prop
  | _, [] => True
  | used, i :: items =>
    FineItem e onlyAlphaNum used i ∧ Fine onlyAlphaNum (piece e onlyAlphaNum none used i).2 items

theorem lengthFrom_le (length : Nat) (digits : Text) : length ≤ lengthFrom length digits := by
  induction digits generalizing length with
  | nil => exact Nat.le_refl _
  | cons c digits ih =>
    have step := ih (length * 10 + (c.toNat - '0'.toNat))
    simp only [lengthFrom, List.foldl_cons] at step ⊢
    omega

theorem readLength_digits {digits t : Text} (all : ∀ c ∈ digits, isdigit c = true)
    (other : ∀ c ∈ t.head?, isdigit c = false) {length : Nat} (fits : length ≤ INT_MAX) :
    readLength length (digits ++ t) =
      if lengthFrom length digits ≤ INT_MAX then some (lengthFrom length digits, t) else none := by
  induction digits generalizing length with
  | nil =>
    rw [List.nil_append, lengthFrom, List.foldl_nil, if_pos fits]
    cases t with
    | nil => rfl
    | cons c t =>
      have stops := other c rfl
      simp only [readLength, stops, Bool.false_eq_true, if_false]
  | cons c digits ih =>
    obtain ⟨digit, all⟩ := List.forall_mem_cons.mp all
    have le := lengthFrom_le (length * 10 + (c.toNat - '0'.toNat)) digits
    simp only [List.cons_append, readLength, digit, if_true]
    by_cases fits' : length * 10 + (c.toNat - '0'.toNat) ≤ INT_MAX
    · rw [if_pos fits', ih all fits']
      rfl
    · rw [if_neg fits']
      symm
      apply if_neg
      intro whole
      exact fits' (le.trans whole)

theorem head_fill {digits t : Text} (other : ∀ c ∈ t.head?, isdigit c = false) :
    (if (digits ++ t).head? = some '0' then '0' else ' ') = fillOf digits := by
  cases digits with
  | cons c digits => rfl
  | nil =>
    have no_zero : t.head? ≠ some '0' := fun zero =>
      nomatch (other '0' zero).symm.trans (by decide : isdigit '0' = true)
    rw [List.nil_append, if_neg no_zero]
    rfl

theorem getFormating_digits {digits t : Text} (all : ∀ c ∈ digits, isdigit c = true)
    (other : ∀ c ∈ t.head?, isdigit c = false) {ret : OStream} (idle : ret.width = 0) :
    getFormating (digits ++ t) ret =
      if widthOf digits ≤ INT_MAX then
        some (widthOf digits, fillOf digits, ⟨ret.text, fillOf digits, widthOf digits⟩, t)
      else none := by
  have read : readLength 0 (digits ++ t) = if widthOf digits ≤ INT_MAX then some (widthOf digits, t) else none :=
    readLength_digits all other (Nat.zero_le _)
  unfold getFormating
  dsimp only
  rw [head_fill other, read]
  by_cases fits : widthOf digits ≤ INT_MAX
  · rw [if_pos fits, if_pos fits]
    by_cases zero : 0 < widthOf digits
    · simp only [if_pos zero, OStream.setw]
    · have none_ : widthOf digits = 0 := Nat.eq_zero_of_not_pos zero
      simp [idle, none_]
  · rw [if_neg fits, if_neg fits]

variable {e} {only : Bool} {s : Expansion}

theorem loop_literal {c : Char} (percent : c ≠ '%') (at_ : c ≠ '@') (t : Text) :
    expandLoop e only s (c :: t) = expandLoop e only { s with ret := s.ret.write [c] } t := by
  rw [expandLoop, if_neg percent, if_neg at_]

def shortStep (e : Expander) (only : Bool) (s : Expansion) (length : Nat) (fill : Char) (ret : OStream) (var : Char)
    (rest : Text) : Outcome :=
  match expandVariable e s.used var only with
  | .text t rep =>
    let ret := if 0 < t.length then ret.write (replaceNonAlpha t rep) else ret.setw 0
    expandLoop e only { s with ret := ret } rest
  | .date used => expandLoop e only { s with ret := ret.setw 0, used := used } rest
  | .number =>
    if s.num.isSome then .thrown
    else expandLoop e only { s with ret := ret.setw 0, num := some ⟨ret.text.length, length, fill⟩ } rest

theorem loop_short {iter rest : Text} {length : Nat} {fill var : Char} {ret : OStream}
    (form : getFormating iter s.ret = some (length, fill, ret, var :: rest)) :
    expandLoop e only s ('%' :: iter) = shortStep e only s length fill ret var rest := by
  rw [expandLoop, if_pos rfl]
  split
  · rename_i none_
    exact nomatch none_.symm.trans form
  · rename_i nothing
    exact nomatch nothing.symm.trans form
  · rename_i here
    obtain ⟨rfl, rfl, rfl, rfl, rfl⟩ := here.symm.trans form
    rfl

theorem loop_short_overflow {iter : Text} (form : getFormating iter s.ret = none) :
    expandLoop e only s ('%' :: iter) = .overflow := by
  rw [expandLoop, if_pos rfl]
  split
  · rfl
  · rename_i nothing
    exact nomatch nothing.symm.trans form
  · rename_i here
    exact nomatch here.symm.trans form

theorem loop_open {iter : Text} {length : Nat} {fill : Char} {ret : OStream}
    (form : getFormating iter s.ret = some (length, fill, ret, [])) :
    expandLoop e only s ('%' :: iter) = .beyond := by
  rw [expandLoop, if_pos rfl]
  split
  · rename_i none_
    exact nomatch none_.symm.trans form
  · rfl
  · rename_i here
    exact nomatch here.symm.trans form

theorem loop_long {iter rest : Text} {length : Nat} {fill : Char} {ret : OStream}
    (form : getFormating iter s.ret = some (length, fill, ret, rest)) :
    expandLoop e only s ('@' :: iter) =
      expandLoop e only { s with ret := ret.write (replaceNonAlpha (expandLong e (rest.takeWhile isName)) only) }
        (rest.dropWhile isName) := by
  rw [expandLoop, if_neg (by decide), if_pos rfl]
  split
  · rename_i none_
    exact nomatch none_.symm.trans form
  · rename_i here
    obtain ⟨rfl, rfl, rfl, rfl⟩ := here.symm.trans form
    rfl

theorem loop_long_overflow {iter : Text} (form : getFormating iter s.ret = none) :
    expandLoop e only s ('@' :: iter) = .overflow := by
  rw [expandLoop, if_neg (by decide), if_pos rfl]
  split
  · rfl
  · rename_i here
    exact nomatch here.symm.trans form

theorem write_idle {ret : OStream} (idle : ret.width = 0) (t : Text) :
    ret.write t = ⟨ret.text ++ t, ret.fill, 0⟩ := by
  simp [OStream.write, pad, idle]

theorem write_padded (text : Text) (digits t : Text) :
    OStream.write t ⟨text, fillOf digits, widthOf digits⟩ = ⟨text ++ padded digits t, fillOf digits, 0⟩ := rfl

theorem name_taken {name t : Text} (letters : ∀ c ∈ name, isName c = true) (ends : ∀ c ∈ t.head?, isName c = false) :
    (name ++ t).takeWhile isName = name ∧ (name ++ t).dropWhile isName = t := by
  have stops : t.takeWhile isName = [] ∧ t.dropWhile isName = t := by
    cases t with
    | nil => exact ⟨rfl, rfl⟩
    | cons c t => simp [ends c rfl]
  constructor
  · rw [List.takeWhile_append_of_pos letters, stops.1, List.append_nil]
  · rw [List.dropWhile_append_of_pos letters, stops.2]

theorem digit_name {c : Char} (other : isName c = false) : isdigit c = false := by
  simp only [isName, isalnum, Bool.or_eq_false_iff] at other
  exact other.1.1.1.1.1.1

theorem name_head {name t : Text} (other : ∀ c ∈ name.head?, isdigit c = false)
    (ends : ∀ c ∈ t.head?, isName c = false) : ∀ c ∈ (name ++ t).head?, isdigit c = false := by
  cases name with
  | nil => exact fun c head => digit_name (ends c head)
  | cons c name => exact other

def behind (e : Expander) (only : Bool) (s : Expansion) (i : Item) (fill : Char) : Expansion where
  ret := ⟨s.ret.text ++ (piece e only none s.used i).1, fill, 0⟩
  used := (piece e only none s.used i).2
  num := s.num

variable {i : Item} {items : List Item} {t : Text}

theorem short_head {var : Char} (other : isdigit var = false) (rest : Text) :
    ∀ c ∈ (var :: rest).head?, isdigit c = false := by
  intro c head
  obtain rfl := Option.some.inj head
  exact other

theorem loop_item (template : Template t (i :: items)) (idle : s.ret.width = 0) (fine : FineItem e only s.used i)
    (plain : ¬IsNumber e only s.used i) :
    ∃ t' fill, Template t' items ∧ expandLoop e only s t = expandLoop e only (behind e only s i fill) t' := by
  cases template with
  | literal percent at_ rest =>
    refine ⟨_, s.ret.fill, rest, ?_⟩
    rw [loop_literal percent at_, write_idle idle]
    rfl
  | short all other rest =>
    rename_i digits var t'
    have form := getFormating_digits all (short_head other t') idle
    rw [if_pos fine.1] at form
    refine ⟨t', fillOf digits, rest, ?_⟩
    rw [loop_short form, shortStep]
    cases value : expandVariable e s.used var only with
    | text v rep =>
      have here : piece e only none s.used (.short digits var) = (padded digits (replaceNonAlpha v rep), s.used) := by
        simp only [piece, value]
      dsimp only
      by_cases some_ : 0 < v.length
      · rw [if_pos some_, write_padded, behind, here]
      · have empty : v = [] := List.eq_nil_of_length_eq_zero (Nat.eq_zero_of_not_pos some_)
        have narrow := fine.2 v rep value empty
        have nothing : padded digits (replaceNonAlpha v rep) = [] := by
          rw [empty]
          cases rep <;> simp [padded, pad, narrow, replaceNonAlpha]
        rw [if_neg some_, behind, here, nothing, List.append_nil]
        rfl
    | date used =>
      have here : piece e only none s.used (.short digits var) = ([], used) := by simp only [piece, value]
      rw [behind, here, List.append_nil]
      rfl
    | number => exact absurd value plain
  | long all letters other ends rest =>
    rename_i digits name t'
    have form := getFormating_digits all (name_head other ends) idle
    rw [if_pos (show widthOf digits ≤ INT_MAX from fine)] at form
    obtain ⟨taken, dropped⟩ := name_taken letters ends
    refine ⟨t', fillOf digits, rest, ?_⟩
    rw [loop_long form, taken, dropped, write_padded]
    rfl

theorem loop_number (template : Template t (i :: items)) (idle : s.ret.width = 0) (fine : FineItem e only s.used i)
    (here : IsNumber e only s.used i) :
    ∃ t' digits, Template t' items ∧ (∀ n, (piece e only (some n) s.used i).1 = padded digits (number n)) ∧
      piece e only none s.used i = ([], s.used) ∧
      expandLoop e only s t =
        if s.num.isSome then .thrown
        else expandLoop e only ⟨⟨s.ret.text, fillOf digits, 0⟩, s.used,
          some ⟨s.ret.text.length, widthOf digits, fillOf digits⟩⟩ t' := by
  cases template with
  | literal _ _ _ => exact here.elim
  | long _ _ _ _ _ => exact here.elim
  | short all other rest =>
    rename_i digits var t'
    have value : expandVariable e s.used var only = .number := here
    have form := getFormating_digits all (short_head other t') idle
    rw [if_pos fine.1] at form
    refine ⟨t', digits, rest, fun n => by simp only [piece, value], by simp only [piece, value], ?_⟩
    rw [loop_short form, shortStep, value]
    rfl

theorem loop_unfine (template : Template t (i :: items)) (idle : s.ret.width = 0) (unfine : ¬FineItem e only s.used i) :
    expandLoop e only s t = .overflow ∨
      ∃ t' fill, Template t' items ∧ ¬IsNumber e only s.used i ∧ 0 < (piece e only none s.used i).1.length ∧
        (piece e only none s.used i).2 = s.used ∧
        expandLoop e only s t = expandLoop e only { s with ret := ⟨s.ret.text, fill, 0⟩ } t' := by
  cases template with
  | literal _ _ _ => exact absurd trivial unfine
  | long all letters other ends rest =>
    rename_i digits name t'
    have form := getFormating_digits all (name_head other ends) idle
    rw [if_neg (show ¬widthOf digits ≤ INT_MAX from unfine)] at form
    exact .inl (loop_long_overflow form)
  | short all other rest =>
    rename_i digits var t'
    have form := getFormating_digits all (short_head other t') idle
    by_cases fits : widthOf digits ≤ INT_MAX
    · rw [if_pos fits] at form
      have lost : ∃ rep, expandVariable e s.used var only = .text [] rep ∧ widthOf digits ≠ 0 := by
        by_contra none_
        refine unfine ⟨fits, fun v rep value empty => ?_⟩
        subst empty
        by_contra wide
        exact none_ ⟨rep, value, wide⟩
      obtain ⟨rep, value, wide⟩ := lost
      have here : piece e only none s.used (.short digits var) = (padded digits (replaceNonAlpha [] rep), s.used) := by
        simp only [piece, value]
      have size : (padded digits (replaceNonAlpha [] rep)).length = widthOf digits := by
        cases rep <;> simp [padded, pad, replaceNonAlpha]
      refine .inr ⟨t', fillOf digits, rest, ?_, ?_, by rw [here], ?_⟩
      · intro number
        exact nomatch value.symm.trans number
      · rw [here, size]
        exact Nat.pos_of_ne_zero wide
      · rw [loop_short form, shortStep, value]
        rfl
    · rw [if_neg fits] at form
      exact .inl (loop_short_overflow form)

theorem piece_plain {used : DateUsed} (plain : ¬IsNumber e only used i) (n : Option Nat) :
    piece e only n used i = piece e only none used i := by
  cases i with
  | literal c => rfl
  | long digits name => rfl
  | short digits var =>
    cases value : expandVariable e used var only with
    | text v rep => simp only [piece, value]
    | date used' => simp only [piece, value]
    | number => exact absurd value plain

theorem piece_date (used : DateUsed) (i : Item) (n : Option Nat) :
    (piece e only n used i).2 = (piece e only none used i).2 := by
  cases i with
  | literal c => rfl
  | long digits name => rfl
  | short digits var =>
    cases value : expandVariable e used var only with
    | text v rep => simp only [piece, value]
    | date used' => simp only [piece, value]
    | number => cases n <;> simp only [piece, value]

theorem render_unnumbered {used : DateUsed} (none_ : numbers e only used items = 0) (n : Option Nat) :
    render e only n used items = render e only none used items := by
  induction items generalizing used with
  | nil => rfl
  | cons i items ih =>
    simp only [numbers, Nat.add_eq_zero_iff] at none_
    have plain : ¬IsNumber e only used i := fun here => absurd none_.1 (by rw [if_pos here]; decide)
    rw [render, render, piece_plain plain n, ih none_.2]

def place (num : NumPos) (text : Text) (n : Nat) : Text :=
  text.take num.num_pos ++ pad num.num_fill num.num_lenght (number n) ++ text.drop num.num_pos

theorem loop_fine (template : Template t items) (idle : s.ret.width = 0) (fine : Fine e only s.used items)
    (once : numbers e only s.used items + (if s.num.isSome then 1 else 0) ≤ 1) :
    ∃ s', expandLoop e only s t = .text s' ∧ s'.ret.text = s.ret.text ++ render e only none s.used items ∧
      (numbers e only s.used items = 0 → s'.num = s.num) ∧
      (numbers e only s.used items ≠ 0 → ∃ num, s'.num = some num ∧
        ∀ n, place num s'.ret.text n = s.ret.text ++ render e only (some n) s.used items) := by
  induction items generalizing s t with
  | nil =>
    cases template
    rw [expandLoop]
    exact ⟨s, rfl, (List.append_nil _).symm, fun _ => rfl, fun some_ => absurd rfl some_⟩
  | cons i items ih =>
    obtain ⟨fine, fine_rest⟩ := fine
    by_cases here : IsNumber e only s.used i
    · obtain ⟨t', digits, rest, known, unknown, step⟩ := loop_number template idle fine here
      have first : numbers e only s.used (i :: items) = 1 + numbers e only s.used items := by
        rw [numbers, if_pos here, unknown]
      have new : s.num.isSome = false := by
        cases old : s.num.isSome with
        | false => rfl
        | true =>
          rw [first, old, if_pos rfl] at once
          omega
      have no_more : numbers e only s.used items = 0 := by
        rw [first] at once
        omega
      rw [new, if_neg (by decide)] at step
      rw [unknown] at fine_rest
      obtain ⟨s', done, text, kept, -⟩ := @ih ⟨⟨s.ret.text, fillOf digits, 0⟩, s.used,
        some ⟨s.ret.text.length, widthOf digits, fillOf digits⟩⟩ t' rest rfl fine_rest (by rw [no_more]; exact Nat.le_refl 1)
      have rendered : render e only none s.used (i :: items) = render e only none s.used items := by
        rw [render, unknown, List.nil_append]
      refine ⟨s', step.trans done, ?_, fun none_ => by omega, fun _ => ⟨_, kept no_more, fun n => ?_⟩⟩
      · rw [rendered]
        exact text
      · have numbered : render e only (some n) s.used (i :: items) =
            padded digits (number n) ++ render e only none s.used items := by
          rw [render, known, piece_date, unknown, render_unnumbered no_more]
        rw [place, text, numbered, List.take_left, List.drop_left, List.append_assoc]
        rfl
    · obtain ⟨t', fill, rest, step⟩ := loop_item template idle fine here
      have count : numbers e only s.used (i :: items) =
          numbers e only (piece e only none s.used i).2 items := by
        rw [numbers, if_neg here, Nat.zero_add]
      rw [count] at once ⊢
      obtain ⟨s', done, text, kept, placed⟩ := @ih (behind e only s i fill) t' rest rfl fine_rest once
      refine ⟨s', step.trans done, ?_, kept, fun some_ => ?_⟩
      · rw [text, behind, List.append_assoc]
        rfl
      · obtain ⟨num, at_, number⟩ := placed some_
        refine ⟨num, at_, fun n => ?_⟩
        rw [number, render, piece_plain here (some n), behind, List.append_assoc]

theorem loop_text (template : Template t items) (idle : s.ret.width = 0) {s' : Expansion}
    (done : expandLoop e only s t = .text s') :
    numbers e only s.used items + (if s.num.isSome then 1 else 0) ≤ 1 ∧
      s'.ret.text.length ≤ s.ret.text.length + (render e only none s.used items).length ∧
      (s'.ret.text.length = s.ret.text.length + (render e only none s.used items).length → Fine e only s.used items) := by
  induction items generalizing s t with
  | nil =>
    cases template
    rw [expandLoop] at done
    cases done
    refine ⟨?_, Nat.le_refl _, fun _ => trivial⟩
    rw [numbers, Nat.zero_add]
    split <;> decide
  | cons i items ih =>
    by_cases fine : FineItem e only s.used i
    · by_cases here : IsNumber e only s.used i
      · obtain ⟨t', digits, rest, -, unknown, step⟩ := loop_number template idle fine here
        rw [step] at done
        split at done
        · exact nomatch done
        · rename_i new
          obtain ⟨once, short, whole⟩ := ih rest rfl done
          have one : numbers e only s.used items + 1 ≤ 1 := once
          have rendered : render e only none s.used (i :: items) = render e only none s.used items := by
            rw [render, unknown, List.nil_append]
          rw [numbers, if_pos here, unknown, if_neg new, rendered]
          refine ⟨by dsimp only; omega, short, fun same => ⟨fine, ?_⟩⟩
          rw [unknown]
          exact whole same
      · obtain ⟨t', fill, rest, step⟩ := loop_item template idle fine here
        rw [step] at done
        obtain ⟨once, short, whole⟩ := ih rest rfl done
        rw [numbers, if_neg here, Nat.zero_add, render, List.length_append]
        simp only [behind, List.length_append] at short whole
        exact ⟨once, by omega, fun same => ⟨fine, whole (by omega)⟩⟩
    · rcases loop_unfine template idle fine with overflow | ⟨t', fill, rest, plain, lost, same_date, step⟩
      · exact nomatch overflow.symm.trans done
      · rw [step] at done
        obtain ⟨once, short, -⟩ := ih rest rfl done
        dsimp only at once short
        rw [numbers, if_neg plain, Nat.zero_add, render, List.length_append, same_date]
        exact ⟨once, by omega, fun same => by omega⟩

theorem tryNames_iff (stat : Text → Stat) (ret : Text) (num : NumPos) (left n : Nat) (found : Text) :
    tryNames stat ret num left n = some found ↔
      ∃ k, n ≤ k ∧ k < n + left ∧ stat (place num ret k) = .ENOENT ∧
        (∀ m, n ≤ m → m < k → stat (place num ret m) = .found) ∧ found = place num ret k := by
  induction left generalizing n with
  | zero =>
    refine iff_of_false (by simp [tryNames]) ?_
    rintro ⟨k, from_, until_, _⟩
    omega
  | succ left ih =>
    have name : ret.take num.num_pos ++ pad num.num_fill num.num_lenght (number n) ++ ret.drop num.num_pos =
        place num ret n := rfl
    unfold tryNames
    dsimp only
    rw [name]
    cases answer : stat (place num ret n) with
    | found =>
      dsimp only
      rw [ih]
      constructor
      · rintro ⟨k, from_, until_, free, before, same⟩
        refine ⟨k, by omega, by omega, free, fun m lower upper => ?_, same⟩
        rcases Nat.eq_or_lt_of_le lower with rfl | lower
        · exact answer
        · exact before m lower upper
      · rintro ⟨k, from_, until_, free, before, same⟩
        have other : n ≠ k := by
          rintro rfl
          exact nomatch answer.symm.trans free
        exact ⟨k, by omega, by omega, free, fun m lower upper => before m (by omega) upper, same⟩
    | ENOENT =>
      dsimp only
      rw [Option.some.injEq]
      constructor
      · rintro rfl
        exact ⟨n, Nat.le_refl n, by omega, answer, fun m lower upper => by omega, rfl⟩
      · rintro ⟨k, from_, until_, free, before, same⟩
        rcases Nat.eq_or_lt_of_le from_ with rfl | later
        · exact same.symm
        · exact nomatch answer.symm.trans (before n (Nat.le_refl n) later)
    | other =>
      refine iff_of_false (by simp) ?_
      rintro ⟨k, from_, until_, free, before, same⟩
      rcases Nat.eq_or_lt_of_le from_ with rfl | later
      · exact nomatch answer.symm.trans free
      · exact nomatch answer.symm.trans (before n (Nat.le_refl n) later)

theorem right_iff (e : Expander) (stat : Text → Stat) (only : Bool) (used : DateUsed) (template : Text) :
    Right e stat only used template ↔
      ∃ items, Template template items ∧ Fine e only used items ∧ numbers e only used items ≤ 1 ∧
        (numbers e only used items = 1 →
          ∃ n, n < INT_MAX ∧ First stat (fun n => render e only (some n) used items) n) := by
  constructor
  · rintro ⟨items, pieces, ⟨s, done, text⟩, -, numbered⟩
    obtain ⟨once, -, whole⟩ := loop_text pieces rfl done
    have fine : Fine e only used items := by
      apply whole
      rw [text]
      exact (Nat.zero_add _).symm
    have once : numbers e only used items ≤ 1 := once
    refine ⟨items, pieces, fine, once, fun one => ?_⟩
    obtain ⟨n, first, path⟩ := numbered (by omega)
    obtain ⟨s', done', text', -, placed⟩ := @loop_fine e only ⟨⟨[], ' ', 0⟩, used, none⟩ _ _ pieces rfl fine once
    obtain ⟨num, at_, number⟩ := placed (by dsimp only; omega)
    have tried : expandPath e stat only used template = tryNames stat s'.ret.text num (INT_MAX - 1) 1 := by
      have expanded : expand e only used template = .text s' := done'
      simp only [expandPath, expanded, at_]
    rw [tried, tryNames_iff] at path
    obtain ⟨k, from_, until_, free, before, same⟩ := path
    simp only [number, List.nil_append] at free before
    refine ⟨k, ?_, from_, free, fun m lower upper => before m lower upper⟩
    have bound : 1 + (INT_MAX - 1) = INT_MAX := by decide
    omega
  · rintro ⟨items, pieces, fine, once, free⟩
    obtain ⟨s, done, text, kept, placed⟩ := @loop_fine e only ⟨⟨[], ' ', 0⟩, used, none⟩ _ _ pieces rfl fine once
    have expanded : expand e only used template = .text s := done
    refine ⟨items, pieces, ⟨s, done, text⟩, fun none_ => ?_, fun some_ => ?_⟩
    · have unset : s.num = none := kept none_
      simp only [expandPath, expanded, unset]
      exact congrArg some text
    · obtain ⟨num, at_, number⟩ := placed some_
      obtain ⟨n, small, first⟩ := free (by omega)
      refine ⟨n, first, ?_⟩
      have tried : expandPath e stat only used template = tryNames stat s.ret.text num (INT_MAX - 1) 1 := by
        simp only [expandPath, expanded, at_]
      rw [tried, tryNames_iff]
      have bound : 1 + (INT_MAX - 1) = INT_MAX := by decide
      obtain ⟨positive, missing, before⟩ := first
      simp only [number, List.nil_append]
      exact ⟨n, positive, by omega, missing, fun m lower upper => before m lower upper, rfl⟩

/-- The expansion is right for exactly the templates that are made of complete pieces, whose widths are ints and whose
values with a width are not empty behind a percent sign, with at most one number, and then with a free name. -/
theorem expansion_right (e : Expander) (stat : Text → Stat) (only : Bool) (used : DateUsed) (template : Text) :
    Right e stat only used template ↔
      ∃ items, Template template items ∧ Fine e only used items ∧ numbers e only used items ≤ 1 ∧
        (numbers e only used items = 1 →
          ∃ n, n < INT_MAX ∧ First stat (fun n => render e only (some n) used items) n) :=
  right_iff e stat only used template

def bare : Expander where
  own _ := none
  ownLong _ := none
  localDate := ⟨0, 0, 0, 1, 0, 126, 0, 0⟩
  utDate := ⟨0, 0, 0, 1, 0, 126, 0, 0⟩
  nightDate := ⟨0, 0, 0, 31, 11, 125, 364, 0⟩
  tv_sec := 1767225600
  tv_usec := 0
  epochId := -1
  getDateObs _ _ := "2026-01-01T00:00:00.000".toList
  julianDate _ _ := "2461041.50000000".toList
  tzname _ := "UTC".toList

theorem percent_at_end :
    expand bare false .utDate ['%'] = .beyond ∧ ¬Right bare (fun _ => .ENOENT) false .utDate ['%'] := by
  have form : getFormating [] ⟨[], ' ', 0⟩ = some (0, ' ', ⟨[], ' ', 0⟩, []) := rfl
  refine ⟨loop_open form, ?_⟩
  rw [right_iff]
  rintro ⟨items, pieces, -⟩
  generalize whole : ['%'] = t at pieces
  cases pieces with
  | done => exact nomatch whole
  | literal percent at_ rest =>
    obtain ⟨rfl, -⟩ := List.cons.inj whole
    exact percent rfl
  | short all other rest => simp at whole
  | long all letters other ends rest => simp at whole

end Rts2.Kernel.Expansions
