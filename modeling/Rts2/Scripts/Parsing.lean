import Rts2.Lib.Decimal
import Rts2.Scripts.Elements

/-! The text of a script: how it is parsed to elements, and how elements print themselves. Texts end
where the buffer of the source has its zero. Floats are of any type with the functions of the
library that read and write them. -/
namespace Rts2.Scripts.Parsing

open Lib

abbrev Text := List Char

def isspace (c : Char) : Bool := c = ' ' || 9 ≤ c.toNat && c.toNat ≤ 13

def isdigit (c : Char) : Bool := '0' ≤ c && c ≤ '9'

def isalpha (c : Char) : Bool := 'a' ≤ c && c ≤ 'z' || 'A' ≤ c && c ≤ 'Z'

def isalnum (c : Char) : Bool := isalpha c || isdigit c

theorem nothing_blank : ∀ c ∈ ([] : Text), isspace c = true := by simp

def skip (t : Text) : Text := t.dropWhile isspace

def wordTo (ends : Char → Bool) (t : Text) : Text × Text :=
  (t.takeWhile (!ends ·), (t.dropWhile (!ends ·)).tail)

def nextElement (t : Text) : Text × Text :=
  match skip t with
  | '"' :: t => wordTo (· = '"') t
  | '\'' :: t => wordTo (· = '\'') t
  | t => wordTo isspace t

def isNext (element t : Text) : Bool × Text :=
  if element.isPrefixOf (skip t) then (true, ((skip t).drop element.length).tail) else (false, skip t)

def digitsValue (t : Text) : Nat := t.foldl (fun v c => v * 10 + (c.toNat - 48)) 0

def atoi (t : Text) : Int :=
  match skip t with
  | '-' :: t => -(digitsValue (t.takeWhile isdigit) : Int)
  | '+' :: t => digitsValue (t.takeWhile isdigit)
  | t => digitsValue (t.takeWhile isdigit)

def writeInt (n : Int) : Text := (decimalInt n).map fun b => Char.ofNat b.toNat

structure Floats (F : Type) where
  write : F → Text
  atof : Text → F
  /-- From double to float. -/
  narrow : F → F
  eq : F → F → Bool
  lt : F → F → Bool

variable {F : Type}

section

variable [NatCast F] [Add F] [Mul F] [Div F] [Neg F]

/-- Digits with one decimal point at most, and the text behind them; `mul` is the weight of the next
decimal. -/
def readDigits (cn : F) (mul : Option F) : Text → Option (F × Text)
  | [] => some (cn, [])
  | c :: t =>
    if c = '.' then
      match mul with
      | some _ => none
      | none => readDigits cn (some ((1 : ℕ) / (10 : ℕ))) t
    else if isdigit c then
      let digit : F := ((c.toNat - 48 : ℕ) : F)
      match mul with
      | some mul => readDigits (cn + digit * mul) (some (mul / (10 : ℕ))) t
      | none => readDigits (cn * (10 : ℕ) + digit) none t
    else some (cn, c :: t)

def unit (c : Char) : Option F :=
  if c = 'd' then some (1 : ℕ)
  else if c = 'h' then some (15 : ℕ)
  else if c = 'm' || c = '\'' then some ((1 : ℕ) / (60 : ℕ))
  else if c = 's' || c = '"' then some ((1 : ℕ) / (3600 : ℕ))
  else none

def readNumber : Nat → F → Text → Option F
  | 0, _, _ => none
  | turns + 1, op, t =>
    let (sign, t) : F × Text :=
      match t with
      | '-' :: t => (-((1 : ℕ) : F), t)
      | '+' :: t => (((1 : ℕ) : F), t)
      | t => (((1 : ℕ) : F), t)
    match readDigits ((0 : ℕ) : F) none t with
    | none => none
    | some (cn, []) => some (op + sign * cn * (1 : ℕ))
    | some (cn, c :: t) =>
      match unit c with
      | none => none
      | some mul => readNumber turns (op + sign * cn * mul) t

inductive Quotes where
  | NONE | SIMPLE | DOUBLE
  deriving DecidableEq

structure Split where
  bracked : Bool
  simple_braces : Nat
  curved_braces : Nat
  quotes : Quotes
  current : Text
  ops : List Text

/-- The loop of OperandsSet::parse; a closing brace without an opening one throws. -/
def splitStep (first : Bool) (s : Split) (c : Char) : Option Split :=
  if s.quotes ≠ .NONE then
    some { s with
      quotes :=
        if c = '\'' ∧ s.quotes = .SIMPLE ∨ c = '"' ∧ s.quotes = .DOUBLE then .NONE else s.quotes
      current := s.current ++ [c] }
  else if c = ')' ∧ s.simple_braces = 0 ∨ c = '}' ∧ s.curved_braces = 0 then none
  else
    let opens := c = '(' ∧ first
    let s := { s with
      bracked := s.bracked || opens
      simple_braces :=
        if c = '(' then s.simple_braces + 1
        else if c = ')' then s.simple_braces - 1
        else s.simple_braces
      curved_braces :=
        if c = '{' then s.curved_braces + 1
        else if c = '}' then s.curved_braces - 1
        else s.curved_braces
      quotes := if c = '\'' then .SIMPLE else if c = '"' then .DOUBLE else .NONE }
    if s.curved_braces = 0 ∧ s.quotes = .NONE ∧
        (c = ',' ∧ s.simple_braces = 1 ∨ s.simple_braces = 0 ∧ s.bracked) then
      some { s with current := [], ops := s.ops ++ [s.current] }
    else if opens then some s
    else some { s with current := s.current ++ [c] }

def splitOperands : Bool → Split → Text → Option Split
  | _, s, [] => some s
  | first, s, c :: t =>
    match splitStep first s c with
    | none => none
    | some s => splitOperands false s t

def isName (c : Char) : Bool := isalnum c || c = '_' || c = '+' || c = '-' || c = '.'

mutual

/-- OperandsSet::parseOperand; the first argument bounds the depth of random numbers. -/
def parseOperand : Nat → Text → Option (Operand F)
  | depth, str =>
    match skip str with
    | [] => none
    | c :: t =>
      if isdigit c || c = '-' || c = '+' || c = '.' then
        (readNumber (str.length + 1) ((0 : ℕ) : F) str).map .number
      else
        let name := (c :: t).takeWhile isName
        if name = "rand".toList then
          match depth with
          | 0 => none
          | depth + 1 =>
            match parseOperands depth ((c :: t).drop 4) with
            | some [_from, _to] => some (.randomNumber _from _to)
            | _ => none
        else if name.length < (c :: t).length then none
        else some (.string (String.ofList name))
  termination_by depth => (depth, 0)

/-- OperandsSet::parse. -/
def parseOperands : Nat → Text → Option (List (Operand F))
  | depth, str =>
    match splitOperands true ⟨false, 0, 0, .NONE, [], []⟩ str with
    | none => none
    | some s => (if s.bracked then s.ops else s.ops ++ [str]).mapM (parseOperand depth)
  termination_by depth => (depth, 1)

end

end

inductive Comparator where
  | CMP_EQUAL | CMP_LESS | CMP_LESS_EQU | CMP_GREAT_EQU | CMP_GREAT

inductive Condition (F : Type) where
  | number (val : F)
  | systemValue (device value : Text)
  | equation (l : Condition F) (cmp : Comparator) (r : Option (Condition F))

inductive Element (F : Type) where
  | sequence (filter : Text) (repeats : Int) (expTime : F)
  | image (expTime : F)
  | expose (expTime : F)
  | dark (expTime : F)
  | shiftStoreStart (expTime : F)
  | shiftStoreProgress (shift : Int) (expTime : F)
  | shiftStoreEnd (shift : Int) (expTime : F)
  | box (x y w h : Int)
  | center (w h : Int)
  | change (device : Text) (ra dec : F)
  | wait
  | waitAcquire
  | sendSignal (sig : Int)
  | waitSignal (sig : Int)
  | changeValue (device valName : Text) (op : Char) (operands : List (Operand F))
  | command (device cmd : Text) (args : List Text)
  | signalEnd (sig_num : Int) (blockElements : List (Element F))
  | acquired (blockElements elseElements : List (Element F))
  | elementFor (max : Int) (blockElements : List (Element F))
  | elementWhile (condition : Option (Condition F)) (max_cycles : Int)
      (blockElements : List (Element F))
  | elementDo (condition : Option (Condition F)) (max_cycles : Int)
      (blockElements : List (Element F))
  | once (blockElements : List (Element F))

inductive Kind where
  | string | integer | float | double

inductive Param (F : Type) where
  | string (val : Text)
  | integer (val : Int)
  | float (val : F)
  | double (val : F)

def getNextParam (fl : Floats F) (kind : Kind) (t : Text) : Option (Param F) × Text :=
  let (el, t) := nextElement t
  match kind with
  | .string => (some (.string el), t)
  | .integer => (if el = [] then none else some (.integer (atoi el)), t)
  | .float => (if el = [] then none else some (.float (fl.narrow (fl.atof el))), t)
  | .double => (if el = [] then none else some (.double (fl.atof el)), t)

def getNextParams (fl : Floats F) : List Kind → Text → Option (List (Param F)) × Text
  | [], t => (some [], t)
  | kind :: kinds, t =>
    match getNextParam fl kind t with
    | (none, t) => (none, t)
    | (some param, t) =>
      let (params, t) := getNextParams fl kinds t
      (params.map (param :: ·), t)

/-- What ends the parsing without a script of these elements: an exception, an element that is none
of them, or too few turns. -/
inductive Stop where
  | error
  | other
  | turns

abbrev Parse (α : Type) := Except Stop (Option α × Text)

inductive Keyword where
  | SEQUENCE | IMAGE | EXPOSURE | DARK | SHIFTSTART | SHIFTPROGRESS | SHIFTEND | BOX | CENTER
  | CHANGE | WAIT | WAIT_ACQUIRE | SEND_SIGNAL | WAIT_SIGNAL
  | BLOCK_WAITSIG | BLOCK_ACQ | BLOCK_END | BLOCK_FOR | BLOCK_WHILE | BLOCK_DO | BLOCK_ONCE
  | COMMAND | OTHER
  deriving DecidableEq

def keywords : List (Text × Keyword) :=
  [("SEQUENCE".toList, .SEQUENCE), ("I".toList, .IMAGE), ("E".toList, .EXPOSURE),
    ("D".toList, .DARK), ("STARTSHIFT".toList, .SHIFTSTART), ("DOSHIFT".toList, .SHIFTPROGRESS),
    ("ENDSHIFT".toList, .SHIFTEND), ("BOX".toList, .BOX), ("CENTER".toList, .CENTER),
    ("C".toList, .CHANGE), ("W".toList, .WAIT), ("Aw".toList, .WAIT_ACQUIRE),
    ("SS".toList, .SEND_SIGNAL), ("SW".toList, .WAIT_SIGNAL),
    ("block_waitsig".toList, .BLOCK_WAITSIG), ("ifacq".toList, .BLOCK_ACQ),
    ("\x7d".toList, .BLOCK_END), ("for".toList, .BLOCK_FOR), ("while".toList, .BLOCK_WHILE),
    ("do".toList, .BLOCK_DO), ("once".toList, .BLOCK_ONCE), ("cmd".toList, .COMMAND),
    ("P".toList, .OTHER), ("waitsod".toList, .OTHER), ("waitfor".toList, .OTHER),
    ("sleep".toList, .OTHER), ("wait_idle".toList, .OTHER), ("tardisable".toList, .OTHER),
    ("tempdisable".toList, .OTHER), ("tarboost".toList, .OTHER), ("loopdisable".toList, .OTHER),
    ("hex".toList, .OTHER), ("fxf".toList, .OTHER), ("spiral".toList, .OTHER),
    ("exe".toList, .OTHER)]

def keywordOf (word : Text) : Option Keyword :=
  (keywords.find? fun entry => entry.1 = word).map Prod.snd

def Keyword.kinds : Keyword → List Kind
  | .SEQUENCE => [.string, .integer, .float]
  | .IMAGE => [.float]
  | .EXPOSURE => [.float]
  | .DARK => [.float]
  | .SHIFTSTART => [.float]
  | .SHIFTPROGRESS => [.integer, .float]
  | .SHIFTEND => [.integer, .float]
  | .BOX => [.integer, .integer, .integer, .integer]
  | .CENTER => [.integer, .integer]
  | .CHANGE => [.double, .double]
  | .SEND_SIGNAL => [.integer]
  | .WAIT_SIGNAL => [.integer]
  | _ => []

def Keyword.make (device : Text) : Keyword → List (Param F) → Option (Element F)
  | .SEQUENCE, [.string filter, .integer repeats, .float expTime] =>
    some (.sequence filter repeats expTime)
  | .IMAGE, [.float expTime] => some (.image expTime)
  | .EXPOSURE, [.float expTime] => some (.expose expTime)
  | .DARK, [.float expTime] => some (.dark expTime)
  | .SHIFTSTART, [.float expTime] => some (.shiftStoreStart expTime)
  | .SHIFTPROGRESS, [.integer shift, .float expTime] => some (.shiftStoreProgress shift expTime)
  | .SHIFTEND, [.integer shift, .float expTime] => some (.shiftStoreEnd shift expTime)
  | .BOX, [.integer x, .integer y, .integer w, .integer h] => some (.box x y w h)
  | .CENTER, [.integer w, .integer h] => some (.center w h)
  | .CHANGE, [.double ra, .double dec] => some (.change device ra dec)
  | .WAIT, [] => some .wait
  | .WAIT_ACQUIRE, [] => some .waitAcquire
  | .SEND_SIGNAL, [.integer sig] => some (.sendSignal sig)
  | .WAIT_SIGNAL, [.integer sig] => if sig ≤ 0 then none else some (.waitSignal sig)
  | _, _ => none

def splitDevice (defaultDevice word : Text) : Text × Text :=
  let device := word.takeWhile (· ≠ '.')
  if device.length < word.length ∧ '=' ∉ device then
    (device.take 49, (word.dropWhile (· ≠ '.')).tail)
  else (defaultDevice, word)

def isOperator (c : Char) : Bool := c = '+' || c = '-' || c = '='

def splitStr (single : Bool) (field : Text) : Text → List Text
  | [] => [field]
  | c :: t =>
    if c = ',' then
      if field = [] then (if single then [] else splitStr single [] t)
      else field :: (if t = [] then [] else splitStr single [] t)
    else splitStr single (field ++ [c]) t

def parseCommand (device el : Text) : Option (Element F) :=
  if '(' ∈ el then
    if ')' ∈ el then
      let before := el.takeWhile (· ≠ '(')
      let behind := (el.dropWhile (· ≠ '(')).tail
      let inner := if ')' ∈ before then behind else behind.takeWhile (· ≠ ')')
      some (.command device (before.takeWhile (· ≠ ')'))
        (if inner = [] then [] else splitStr (inner.length = 1) [] inner))
    else none
  else if ')' ∈ el then none
  else some (.command device el [])

section

variable [NatCast F] [Add F] [Mul F] [Div F] [Neg F]

def parseChangeValue (device chng_str : Text) : Option (Element F) :=
  match chng_str.dropWhile (!isOperator ·) with
  | [] => none
  | op :: rest =>
    let rest := if (op = '+' ∨ op = '-') ∧ rest.head? = some '=' then rest.tail else rest
    (parseOperands rest.length rest).map fun operands =>
      .changeValue device (chng_str.takeWhile (!isOperator ·)) op operands

def comparator (cmp1 : Char) : Text → Option (Comparator × Text)
  | '=' :: t =>
    some (if cmp1 = '=' then .CMP_EQUAL else if cmp1 = '<' then .CMP_LESS_EQU else .CMP_GREAT_EQU, t)
  | t =>
    if cmp1 = '<' then some (.CMP_LESS, t)
    else if cmp1 = '>' then some (.CMP_GREAT, t)
    else none

def isVariable (c : Char) : Bool := isalnum c || c = '.' || c = '_'

/-- The loop of Script::parseOperand; a bracket forgets what was read before it. -/
def parseCondition (defaultDevice : Text) : Nat → Option (Condition F) → Text → Parse (Condition F)
  | 0, _, _ => .error .turns
  | turns + 1, op, t =>
    if t = [] then .ok (op, [])
    else
      match skip t with
      | [] => .error .error
      | ')' :: t =>
        match op with
        | none => .error .error
        | some op => .ok (some op, t)
      | '(' :: t => parseCondition defaultDevice turns none (skip t)
      | c :: t =>
        if c = '=' ∨ c = '>' ∨ c = '<' then
          match op, comparator c t with
          | some op, some (cmp, t) =>
            match parseCondition defaultDevice turns none (skip t) with
            | .ok (op2, t) => .ok (some (.equation op cmp op2), t)
            | .error stop => .error stop
          | _, _ => .error .error
        else if isdigit c ∨ c = '.' ∧ t.head?.any isdigit then
          let num := (c :: t).takeWhile (!isspace ·)
          match parseOperand 0 num with
          | some (.number val) =>
            parseCondition defaultDevice turns (some (.number val)) ((c :: t).dropWhile (!isspace ·))
          | _ => .error .error
        else if isalpha c ∨ c = '.' then
          let name := (c :: t).takeWhile isVariable
          let t := (c :: t).dropWhile isVariable
          if '.' ∈ name then
            let device := name.takeWhile (· ≠ '.')
            let value := (name.dropWhile (· ≠ '.')).tail
            parseCondition defaultDevice turns
              (some (.systemValue (if device = [] then defaultDevice else device) value)) t
          else parseCondition defaultDevice turns op t
        else .error .error

variable (fl : Floats F) (defaultDevice : Text)

def openBlock (parseBlock : Text → Except Stop (List (Element F) × Text)) (t : Text) :
    Parse (List (Element F)) :=
  let (el, t) := nextElement t
  if el.head? = some '{' then
    match parseBlock t with
    | .ok (blockElements, t) => .ok (some blockElements, t)
    | .error stop => .error stop
  else .ok (none, t)

def blockOf (make : List (Element F) → Element F) (block : Parse (List (Element F))) :
    Parse (Element F) :=
  match block with
  | .ok (blockElements, t) => .ok (blockElements.map make, t)
  | .error stop => .error stop

def parseKeyword (parseBlock : Text → Except Stop (List (Element F) × Text)) (device : Text)
    (keyword : Keyword) (t : Text) : Parse (Element F) :=
  match keyword with
  | .OTHER => .error .other
  | .BLOCK_END => .ok (none, t)
  | .BLOCK_WAITSIG =>
    match getNextParam fl .integer t with
    | (some (.integer waitSig), t) => blockOf (.signalEnd waitSig) (openBlock parseBlock t)
    | (_, t) => .ok (none, t)
  | .BLOCK_ACQ =>
    match openBlock parseBlock t with
    | .error stop => .error stop
    | .ok (none, t) => .ok (none, t)
    | .ok (some blockElements, t) =>
      match isNext "else".toList t with
      | (true, t) => blockOf (.acquired blockElements) (openBlock parseBlock t)
      | (false, t) => .ok (some (.acquired blockElements []), t)
  | .BLOCK_FOR =>
    match getNextParam fl .integer t with
    | (some (.integer max), t) => blockOf (.elementFor max) (openBlock parseBlock t)
    | (_, t) => .ok (none, t)
  | .BLOCK_WHILE =>
    match parseCondition defaultDevice (t.length + 1) none (skip t) with
    | .error stop => .error stop
    | .ok (condition, t) =>
      match getNextParam fl .integer t with
      | (some (.integer max), t) => blockOf (.elementWhile condition max) (openBlock parseBlock t)
      | (_, t) => .ok (none, t)
  | .BLOCK_DO =>
    match getNextParam fl .integer t with
    | (some (.integer max), t) =>
      match openBlock parseBlock t with
      | .error stop => .error stop
      | .ok (none, t) => .ok (none, t)
      | .ok (some blockElements, t) =>
        let (el, t) := nextElement t
        if el = "while".toList then
          match parseCondition defaultDevice (t.length + 1) none (skip t) with
          | .error stop => .error stop
          | .ok (condition, t) => .ok (some (.elementDo condition max blockElements), t)
        else .ok (none, t)
    | (_, t) => .ok (none, t)
  | .BLOCK_ONCE => blockOf .once (openBlock parseBlock t)
  | .COMMAND =>
    let (el, t) := nextElement t
    .ok (parseCommand device el, t)
  | keyword =>
    match getNextParams fl keyword.kinds t with
    | (none, t) => .ok (none, t)
    | (some params, t) => .ok (keyword.make device params, t)

def parseBuf (parseBlock : Text → Except Stop (List (Element F) × Text)) (t : Text) :
    Parse (Element F) :=
  let (word, t) := nextElement t
  let (device, commandStart) := splitDevice defaultDevice word
  if commandStart = [] then .ok (none, t)
  else
    match keywordOf commandStart with
    | some keyword => parseKeyword fl defaultDevice parseBlock device keyword t
    | none =>
      if '=' ∈ commandStart then
        match parseChangeValue device commandStart with
        | some element => .ok (some element, t)
        | none => .error .error
      else .ok (none, t)

/-- Elements up to the first one that cannot be parsed, which is how the brace of a block ends
it. -/
def parseBlock : Nat → Text → Except Stop (List (Element F) × Text)
  | 0, _ => .error .turns
  | turns + 1, t =>
    match parseBuf fl defaultDevice (parseBlock turns) t with
    | .error stop => .error stop
    | .ok (none, t) => .ok ([], t)
    | .ok (some element, t) =>
      match parseBlock turns t with
      | .error stop => .error stop
      | .ok (elements, t) => .ok (element :: elements, t)

def parseScript (cmdBuf : Text) : Except Stop (List (Element F)) :=
  let cmdBuf := cmdBuf.map fun c => if c = '\n' ∨ c = '\r' ∨ c = '\t' then ' ' else c
  if '#' ∈ cmdBuf then .error .other
  else (parseBlock fl defaultDevice (cmdBuf.length + 1) cmdBuf).map Prod.fst

end

/-- What elements ask for when they are written: a random number, and the value of a device. -/
structure Surroundings (F : Type) where
  random : Operand F → Operand F → Option F
  getValueDouble : Text → Text → Option F

def words (first : Text) (others : List Text) : Text := first ++ others.flatMap (' ' :: ·)

def braces (t : Text) : Text := " \x7b ".toList ++ t ++ " \x7d".toList

def Comparator.symbol : Comparator → Text
  | .CMP_EQUAL => "==".toList
  | .CMP_LESS => "<".toList
  | .CMP_LESS_EQU => "<=".toList
  | .CMP_GREAT_EQU => ">=".toList
  | .CMP_GREAT => ">".toList

def Comparator.holds (fl : Floats F) (lv rv : F) : Comparator → Bool
  | .CMP_EQUAL => fl.eq lv rv
  | .CMP_LESS => fl.lt lv rv
  | .CMP_LESS_EQU => fl.lt lv rv || fl.eq lv rv
  | .CMP_GREAT_EQU => fl.lt rv lv || fl.eq lv rv
  | .CMP_GREAT => fl.lt rv lv

section

variable [NatCast F] (fl : Floats F) (around : Surroundings F)

def Condition.getDouble : Condition F → Option F
  | .number val => some val
  | .systemValue device value => around.getValueDouble device value
  | .equation l cmp (some r) => do
    let lv ← l.getDouble
    let rv ← r.getDouble
    some (if cmp.holds fl lv rv then ((1 : ℕ) : F) else ((0 : ℕ) : F))
  | .equation _ _ none => none

def Condition.writeTo : Condition F → Option Text
  | .equation l cmp (some r) => do
    let lv ← l.getDouble fl around
    let rv ← r.getDouble fl around
    some (fl.write lv ++ cmp.symbol ++ fl.write rv)
  | condition => (condition.getDouble fl around).map fl.write

end

section

variable (fl : Floats F) (around : Surroundings F)

def writeOperand : Operand F → Option Text
  | .number val => some (fl.write val)
  | .string str => some str.toList
  | .randomNumber _from _to => (around.random _from _to).map fl.write

def writeOperands : List (Operand F) → Option Text
  | [] => some []
  | operand :: operands => do
    let text ← writeOperand fl around operand
    if operands.isEmpty then some text
    else
      let texts ← writeOperands operands
      some (text ++ ' ' :: texts)

end

section

variable [NatCast F] (fl : Floats F) (around : Surroundings F)

mutual

def printElement : Element F → Option Text
  | .sequence filter repeats expTime =>
    some (words "SEQUENCE".toList [filter, writeInt repeats, fl.write expTime])
  | .image expTime => some (words "I".toList [fl.write expTime])
  | .expose expTime => some (words "E".toList [fl.write expTime])
  | .dark expTime => some (words "D".toList [fl.write expTime])
  | .shiftStoreStart expTime => some (words "STARTSHIFT".toList [fl.write expTime])
  | .shiftStoreProgress shift expTime =>
    some (words "DOSHIFT".toList [writeInt shift, fl.write expTime])
  | .shiftStoreEnd shift expTime => some (words "ENDSHIFT".toList [writeInt shift, fl.write expTime])
  | .box _ y w h => some (words "BOX".toList [writeInt y, writeInt y, writeInt w, writeInt h])
  | .center _ _ => some (words "CENTER".toList [])
  | .change _ ra dec => some (words "C".toList [fl.write ra, fl.write dec])
  | .wait => some (words "W".toList [])
  | .waitAcquire => some (words "Aw".toList [])
  | .sendSignal sig => some (words "SS".toList [writeInt sig])
  | .waitSignal sig => some (words "SW".toList [writeInt sig])
  | .changeValue device valName op operands =>
    (writeOperands fl around operands).map fun text =>
      (if device.isEmpty then [] else device ++ ['.']) ++ valName ++ op :: text
  | .command _ cmd args => some (words "cmd".toList (cmd :: args))
  | .signalEnd sig_num els =>
    (printElements els).map fun t => words "block_waitsig".toList [writeInt sig_num] ++ braces t
  | .acquired els elses => do
    let t ← printElements els
    let otherwise ← printElements elses
    some ("ifacq".toList ++ braces t ++
      if elses.isEmpty then [] else " else ".toList ++ braces otherwise)
  | .elementFor max els =>
    (printElements els).map fun t => words "for".toList [writeInt max] ++ braces t
  | .elementWhile _ max_cycles els =>
    (printElements els).map fun t => words "while".toList [writeInt max_cycles] ++ braces t
  | .elementDo condition max_cycles els => do
    let condition ← condition
    let text ← condition.writeTo fl around
    let t ← printElements els
    some (words "do".toList [writeInt max_cycles] ++ text ++ braces t)
  | .once els => (printElements els).map fun t => "once".toList ++ braces t

def printElements : List (Element F) → Option Text
  | [] => some []
  | e :: es => do
    let text ← printElement e
    let texts ← printElements es
    some (if es.isEmpty then text else text ++ ' ' :: texts)

end

/-- Script::prettyPrint with PRINT_SCRIPT. -/
def printScript (elements : List (Element F)) : Option Text := printElements fl around elements

end

end Rts2.Scripts.Parsing
