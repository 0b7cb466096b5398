import Rts2.Kernel.ValueQue

/-! Values of numbers and the operations of clients on them. The operation is made in the operand, with the
old value as its argument; numbers are exact. -/
namespace Rts2.Kernel

universe u

/-- What the values of numbers hold; a limit that is not a number is none. -/
inductive Content where
  | integer (value : Int)
  | long (value : Int)
  | float (value : ℚ)
  | double (value : ℚ)
  | doubleMinMax (value : ℚ) (min max : Option ℚ)
  | integerMinMax (value min max : Int)
  | raDec (ra decl : ℚ)
  | altAz (alt az : ℚ)
  | pid (p i d : ℚ)

def ln_range_degrees (angle : ℚ) : ℚ := angle - 360 * ⌊angle / 360⌋

def setAngle (dist180 : Bool) (in_value : ℚ) : ℚ :=
  if dist180 then
    let value := ln_range_degrees in_value
    if 180 < value then value - 360 else value
  else in_value

namespace ValueDouble

def setValueDouble (dist180 : Bool) (value in_value : ℚ) : ℚ :=
  if value = in_value then value else setAngle dist180 in_value

end ValueDouble

def numberOp {α : Type u} [Add α] [Sub α] (op : Char) (old_value value : α) : Option α :=
  match op with
  | '+' => some (old_value + value)
  | '-' => some (old_value - value)
  | '=' => some value
  | _ => none

def ValueInteger.doOpValue (op : Char) (old_value value : Int) : Option Int := numberOp op old_value value

def ValueLong.doOpValue (op : Char) (old_value value : Int) : Option Int := numberOp op old_value value

def ValueFloat.doOpValue (op : Char) (old_value value : ℚ) : Option ℚ := numberOp op old_value value

def ValueDouble.doOpValue (dist180 : Bool) (op : Char) (old_value value : ℚ) : Option ℚ :=
  (numberOp op old_value value).map (setValueDouble dist180 value)

namespace ValueDoubleMinMax

def outside (min max : Option ℚ) (new_val : ℚ) : Bool := min.any (new_val < ·) || max.any (· < new_val)

def doOpValue (dist180 : Bool) (op : Char) (old_value value : ℚ) (min max : Option ℚ) : Option ℚ :=
  match numberOp op old_value value with
  | none => none
  | some new_val => if outside min max new_val then none else some (ValueDouble.setValueDouble dist180 value new_val)

end ValueDoubleMinMax

namespace ValueIntegerMinMax

def outside (min max new_val : Int) : Bool := new_val < min || max < new_val

def doOpValue (op : Char) (old_value value min max : Int) : Option Int :=
  match numberOp op old_value value with
  | none => none
  | some new_val => if outside min max new_val then none else some new_val

end ValueIntegerMinMax

namespace ValueRaDec

def setValueRaDec (dist180 : Bool) (in_ra in_dec : ℚ) : Content :=
  .raDec (setAngle dist180 in_ra) (setAngle dist180 in_dec)

def doOpValue (dist180 : Bool) (op : Char) (old_ra old_dec ra decl : ℚ) : Option Content :=
  match op with
  | '+' => some (setValueRaDec dist180 (ra + old_ra) (decl + old_dec))
  | '-' => some (setValueRaDec dist180 (ra - old_ra) (decl - old_dec))
  | '=' => some (.raDec ra decl)
  | _ => none

end ValueRaDec

def ValueAltAz.doOpValue (op : Char) (old_alt old_az alt az : ℚ) : Option Content :=
  match op with
  | '+' => some (.altAz (alt + old_alt) (az + old_az))
  | '-' => some (.altAz (alt - old_alt) (az - old_az))
  | '=' => some (.altAz alt az)
  | _ => none

namespace ValuePID

def factor : ℚ := 1000000

def get (k : ℚ) : Int := (k * factor).num.tdiv (k * factor).den

def setPID (p i d : Int) : Content := .pid (p / factor) (i / factor) (d / factor)

def doOpValue (op : Char) (old_p old_i old_d p i d : ℚ) : Option Content :=
  match op with
  | '+' => some (setPID (get p + get old_p) (get i + get old_i) (get d + get old_d))
  | '-' => some (setPID (get p - get old_p) (get i - get old_i) (get d - get old_d))
  | '=' => some (.pid p i d)
  | _ => none

end ValuePID

namespace Content

def doOpValue (dist180 : Bool) (op : Char) : Content → Content → Option Content
  | .integer old_value, .integer value => (ValueInteger.doOpValue op old_value value).map .integer
  | .long old_value, .long value => (ValueLong.doOpValue op old_value value).map .long
  | .float old_value, .float value => (ValueFloat.doOpValue op old_value value).map .float
  | .double old_value, .double value => (ValueDouble.doOpValue dist180 op old_value value).map .double
  | .doubleMinMax old_value _ _, .doubleMinMax value min max =>
    (ValueDoubleMinMax.doOpValue dist180 op old_value value min max).map fun value => .doubleMinMax value min max
  | .integerMinMax old_value _ _, .integerMinMax value min max =>
    (ValueIntegerMinMax.doOpValue op old_value value min max).map fun value => .integerMinMax value min max
  | .raDec old_ra old_dec, .raDec ra decl => ValueRaDec.doOpValue dist180 op old_ra old_dec ra decl
  | .altAz old_alt old_az, .altAz alt az => ValueAltAz.doOpValue op old_alt old_az alt az
  | .pid old_p old_i old_d, .pid p i d => ValuePID.doOpValue op old_p old_i old_d p i d
  | _, _ => none

def isEqual : Content → Content → Bool
  | .integer a, .integer b => a = b
  | .long a, .long b => a = b
  | .float a, .float b => a = b
  | .double a, .double b => a = b
  | .doubleMinMax a _ _, .doubleMinMax b _ _ => a = b
  | .integerMinMax a _ _, .integerMinMax b _ _ => a = b
  | .raDec ra decl, .raDec ra' decl' => ra = ra' && decl = decl'
  | .altAz alt az, .altAz alt' az' => alt = alt' && az = az'
  | .pid p i d, .pid p' i' d' =>
    ValuePID.get p = ValuePID.get p' && ValuePID.get i = ValuePID.get i' && ValuePID.get d = ValuePID.get d'
  | _, _ => false

def setFromValue (dist180 : Bool) : Content → Content → Content
  | .double value, .double newValue => .double (ValueDouble.setValueDouble dist180 value newValue)
  | .doubleMinMax value _ _, .doubleMinMax newValue min max =>
    .doubleMinMax (ValueDouble.setValueDouble dist180 value newValue) min max
  | .raDec _ _, .raDec ra decl => ValueRaDec.setValueRaDec dist180 ra decl
  | .pid _ _ _, .pid p i d => ValuePID.setPID (ValuePID.get p) (ValuePID.get i) (ValuePID.get d)
  | _, newValue => newValue

def paramNextInteger (word : ℚ) : Option Int := if word.den = 1 then some word.num else none

/-- The operand read from the connection into a duplicate of the old value, which has its limits. -/
def setValue (dist180 : Bool) : Content → List ℚ → Option Content
  | .integer _, [v] => (paramNextInteger v).map .integer
  | .long _, [v] => (paramNextInteger v).map .long
  | .float _, [v] => some (.float v)
  | .double _, [v] => some (.double v)
  | .doubleMinMax _ min max, [v] =>
    if ValueDoubleMinMax.outside min max v then none else some (.doubleMinMax (setAngle dist180 v) min max)
  | .doubleMinMax _ _ _, [v, min, max] =>
    if ValueDoubleMinMax.outside (some min) (some max) v then none
    else some (.doubleMinMax (setAngle dist180 v) (some min) (some max))
  | .integerMinMax _ min max, [v] => do
    let v ← paramNextInteger v
    if ValueIntegerMinMax.outside min max v then none else some (.integerMinMax v min max)
  | .integerMinMax _ _ _, [v, min, max] => do
    let v ← paramNextInteger v
    let min ← paramNextInteger min
    let max ← paramNextInteger max
    if ValueIntegerMinMax.outside min max v then none else some (.integerMinMax v min max)
  | .raDec _ _, [r] => some (ValueRaDec.setValueRaDec dist180 r r)
  | .raDec _ _, [r, d] => some (ValueRaDec.setValueRaDec dist180 r d)
  | .altAz _ _, [alt] => some (.altAz alt alt)
  | .altAz _ _, [alt, az] => some (.altAz alt az)
  | .pid _ _ _, [p, i, d] => do
    let p ← paramNextInteger p
    let i ← paramNextInteger i
    let d ← paramNextInteger d
    some (ValuePID.setPID p i d)
  | _, _ => none

end Content

def numeric {ι : Type u} (stateCondition : ι → Status) (dist180 : ι → Bool) : DeviceClass ι Content where
  stateCondition := stateCondition
  doOpValue value := Content.doOpValue (dist180 value)
  isEqual _ := Content.isEqual
  setFromValue value := Content.setFromValue (dist180 value)
  setValue _ _ new_value := { ret := 0, new_value := new_value, rewrites := [] }

end Rts2.Kernel
