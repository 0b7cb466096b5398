import Mathlib

/-! Cyclic redundancy checks bit by bit, in the form that catalogues of them give: the polynomial, the register's
start, the order of the bits in a byte, the order of the register's bits in the result and what is added to it. -/
namespace Rts2.Lib.Crc

variable {w : Nat}

def feed (poly r : BitVec w) (b : Bool) : BitVec w :=
  if r.msb ^^ b then (r <<< 1) ^^^ poly else r <<< 1

def feedReflected (poly r : BitVec w) (b : Bool) : BitVec w :=
  if r.getLsbD 0 ^^ b then (r >>> 1) ^^^ poly else r >>> 1

theorem reverse_xor (x y : BitVec w) : (x ^^^ y).reverse = x.reverse ^^^ y.reverse := by
  apply BitVec.eq_of_getLsbD_eq
  intro i _
  simp only [BitVec.getLsbD_reverse, BitVec.getLsbD_xor, BitVec.getMsbD_xor]

theorem reverse_shiftLeft_one (x : BitVec w) : (x <<< 1).reverse = x.reverse >>> 1 := by
  apply BitVec.eq_of_getLsbD_eq
  intro i hi
  simp only [BitVec.getLsbD_reverse, BitVec.getLsbD_ushiftRight, BitVec.getMsbD_shiftLeft]
  apply congrArg
  omega

theorem msb_reversed (x : BitVec w) : x.reverse.getLsbD 0 = x.msb := by
  simp only [BitVec.getLsbD_reverse, BitVec.msb]

theorem feed_reverse (poly r : BitVec w) (b : Bool) :
    (feed poly r b).reverse = feedReflected poly.reverse r.reverse b := by
  unfold feed feedReflected
  rw [msb_reversed]
  split
  · simp only [reverse_xor, reverse_shiftLeft_one]
  · exact reverse_shiftLeft_one r

theorem foldl_feed_reverse (poly r : BitVec w) (bits : List Bool) :
    (bits.foldl (feed poly) r).reverse = bits.foldl (feedReflected poly.reverse) r.reverse := by
  induction bits generalizing r with
  | nil => rfl
  | cons b bits ih =>
    simp only [List.foldl_cons]
    rw [ih, feed_reverse]

def lowBits (n : Nat) (r : BitVec w) : List Bool := (List.range n).map r.getLsbD

theorem lowBits_succ (n : Nat) (r : BitVec w) :
    lowBits (n + 1) r = r.getLsbD 0 :: lowBits n (r >>> 1) := by
  simp only [lowBits, List.range_succ_eq_map, List.map_cons, List.map_map]
  congr 1
  apply List.map_congr_left
  intro i _
  simp only [Function.comp_apply, BitVec.getLsbD_ushiftRight, Nat.add_comm 1 i, Nat.succ_eq_add_one]

theorem lowBits_add (m n : Nat) (r : BitVec w) :
    lowBits (m + n) r = lowBits m r ++ lowBits n (r >>> m) := by
  induction m generalizing r with
  | zero => simp only [lowBits, Nat.zero_add, List.range_zero, List.map_nil, List.nil_append, BitVec.ushiftRight_zero]
  | succ m ih =>
    have swap : m + 1 + n = m + n + 1 := by omega
    rw [swap, lowBits_succ, lowBits_succ, ih, ← BitVec.shiftRight_add, Nat.add_comm 1 m]
    rfl

theorem feed_own_bit (poly r : BitVec w) : feedReflected poly r (r.getLsbD 0) = r >>> 1 := by
  simp only [feedReflected, Bool.xor_self, Bool.false_eq_true, if_false]

theorem feed_own_bits (poly r : BitVec w) (n : Nat) :
    (lowBits n r).foldl (feedReflected poly) r = r >>> n := by
  induction n generalizing r with
  | zero => simp only [lowBits, List.range_zero, List.map_nil, List.foldl_nil, BitVec.ushiftRight_zero]
  | succ n ih =>
    rw [lowBits_succ, List.foldl_cons, feed_own_bit, ih, ← BitVec.shiftRight_add, Nat.add_comm 1 n]

theorem feed_all_own_bits (poly r : BitVec w) : (lowBits w r).foldl (feedReflected poly) r = 0#w := by
  rw [feed_own_bits]
  apply BitVec.eq_of_getLsbD_eq
  intro i _
  rw [BitVec.getLsbD_ushiftRight, BitVec.getLsbD_of_ge r (w + i) (by omega), BitVec.getLsbD_zero]

section Burst

variable {poly r r' : BitVec w} (top : poly.msb = true)
include top

theorem feed_peel {k : Nat} (own : k < w) {b b' : Bool}
    (same : feedReflected poly r b >>> k = feedReflected poly r' b' >>> k) :
    (r.getLsbD 0 ^^ b) = (r'.getLsbD 0 ^^ b') ∧ r >>> (k + 1) = r' >>> (k + 1) := by
  have fed (r : BitVec w) (b : Bool) :
      feedReflected poly r b >>> k = r >>> (k + 1) ^^^ if r.getLsbD 0 ^^ b then poly >>> k else 0#w := by
    unfold feedReflected
    split <;> simp [BitVec.ushiftRight_xor_distrib, BitVec.shiftRight_add, Nat.add_comm k]
  have last : k + (w - 1 - k) = w - 1 := by omega
  have bit (r : BitVec w) (b : Bool) : (feedReflected poly r b >>> k).getLsbD (w - 1 - k) = (r.getLsbD 0 ^^ b) := by
    rw [BitVec.msb_eq_getLsbD_last] at top
    cases h : r.getLsbD 0 ^^ b <;> simp [fed, h, last, top, BitVec.getLsbD_of_ge r (k + 1 + (w - 1 - k)) (by omega)]
  have bits : (r.getLsbD 0 ^^ b) = (r'.getLsbD 0 ^^ b') := by rw [← bit, same, bit]
  rw [fed, fed, bits] at same
  exact ⟨bits, by simpa using same⟩

theorem foldl_peel {bits bits' : List Bool} (lengths : bits.length = bits'.length) (own : bits.length ≤ w)
    (same : bits.foldl (feedReflected poly) r = bits'.foldl (feedReflected poly) r') :
    r >>> bits.length = r' >>> bits.length := by
  induction bits generalizing bits' r r' with
  | nil =>
    obtain rfl := List.length_eq_zero_iff.mp lengths.symm
    simpa using same
  | cons b bits ih =>
    cases bits' with
    | nil => cases lengths
    | cons b' bits' => exact (feed_peel top own (ih (Nat.succ.inj lengths) (Nat.le_of_succ_le own) same)).2

theorem foldl_bits {bits bits' : List Bool} (lengths : bits.length = bits'.length) (own : bits.length ≤ w)
    (same : bits.foldl (feedReflected poly) r = bits'.foldl (feedReflected poly) r) : bits = bits' := by
  induction bits generalizing bits' r with
  | nil => exact (List.length_eq_zero_iff.mp lengths.symm).symm
  | cons b bits ih =>
    cases bits' with
    | nil => cases lengths
    | cons b' bits' =>
      have rest := foldl_peel top (Nat.succ.inj lengths) (Nat.le_of_succ_le own) same
      obtain rfl : b = b' := by simpa using (feed_peel top own rest).1
      rw [ih (Nat.succ.inj lengths) (Nat.le_of_succ_le own) same]

theorem foldl_register (positive : 0 < w) {bits : List Bool}
    (same : bits.foldl (feedReflected poly) r = bits.foldl (feedReflected poly) r') : r = r' := by
  induction bits generalizing r r' with
  | nil => exact same
  | cons b bits ih =>
    obtain ⟨bit, shifted⟩ := feed_peel top positive (by simpa using ih same)
    apply BitVec.eq_of_getLsbD_eq
    rintro (_ | i) _
    · simpa using bit
    · simpa [Nat.add_comm] using congrArg (·.getLsbD i) shifted

end Burst

structure Params (w : Nat) where
  poly : BitVec w
  init : BitVec w
  refin : Bool
  refout : Bool
  xorout : BitVec w

def byteBits (refin : Bool) (byte : BitVec 8) : List Bool :=
  if refin then lowBits 8 byte else (lowBits 8 byte).reverse

def compute (p : Params w) (bytes : List (BitVec 8)) : BitVec w :=
  let r := (bytes.flatMap (byteBits p.refin)).foldl (feed p.poly) p.init
  (if p.refout then r.reverse else r) ^^^ p.xorout

theorem compute_reflected (p : Params w) (bytes : List (BitVec 8)) (refin : p.refin = true) (refout : p.refout = true) :
    compute p bytes =
      (bytes.flatMap (lowBits 8)).foldl (feedReflected p.poly.reverse) p.init.reverse ^^^ p.xorout := by
  have bits : byteBits p.refin = lowBits 8 := by
    funext byte
    rw [refin]
    rfl
  simp only [compute, refout, if_true, foldl_feed_reverse, bits]

end Rts2.Lib.Crc
