import Rts2.Lib.Crc

/-! The checksum of Modbus messages. A char is signed, so it is extended by its highest bit where the arithmetic
makes an int of it. -/
namespace Rts2.Kernel.Modbus

open Rts2.Lib.Crc

abbrev CRC_16 : BitVec 16 := 0xA001

def crcBits : Nat → BitVec 16 → BitVec 8 → BitVec 16
  | 0, ret, _ => ret
  | left + 1, ret, ch =>
    let ret := if (ret.setWidth 32 ^^^ ch.signExtend 32) &&& 0x01 ≠ 0 then (ret >>> 1) ^^^ CRC_16 else ret >>> 1
    crcBits left ret (ch.sshiftRight 1)

/-- The outer loop at its index, with the runs that are left; none where a byte is read past the buffer. -/
def crcBytes (msgBuf : List (BitVec 8)) : Nat → Nat → BitVec 16 → Option (BitVec 16)
  | 0, _, ret => some ret
  | left + 1, l, ret =>
    match msgBuf[l]? with
    | none => none
    | some ch => crcBytes msgBuf left (l + 1) (crcBits 8 ret ch)

def getMsgBufCRC16 (msgBuf : List (BitVec 8)) (msgLen : Nat) : Option (BitVec 16) := crcBytes msgBuf msgLen 0 0xffff

def transmitted (crc16 : BitVec 16) : List (BitVec 8) := [crc16.setWidth 8, (crc16 >>> 8).setWidth 8]

def modbus : Params 16 where
  poly := 0x8005
  init := 0xFFFF
  refin := true
  refout := true
  xorout := 0

theorem lowest_differs (ret : BitVec 16) (ch : BitVec 8) :
    ((ret.setWidth 32 ^^^ ch.signExtend 32) &&& 0x01 ≠ 0) ↔ (ret.getLsbD 0 ^^ ch.getLsbD 0) = true := by
  have low : (ret.setWidth 32 ^^^ ch.signExtend 32).getLsbD 0 = (ret.getLsbD 0 ^^ ch.getLsbD 0) := by
    rw [BitVec.getLsbD_xor, BitVec.getLsbD_setWidth, BitVec.getLsbD_signExtend]
    simp
  have masked := BitVec.and_one_eq_setWidth_ofBool_getLsbD (x := ret.setWidth 32 ^^^ ch.signExtend 32)
  rw [low] at masked
  change (_ &&& 1#32 ≠ 0#32) ↔ _
  rw [masked]
  cases ret.getLsbD 0 ^^ ch.getLsbD 0 <;> decide

theorem lowBits_sshiftRight (n : Nat) (ch : BitVec 8) (own : n < 8) :
    lowBits (n + 1) ch = ch.getLsbD 0 :: lowBits n (ch.sshiftRight 1) := by
  rw [lowBits_succ]
  congr 1
  apply List.map_congr_left
  intro i hi
  have inside : i < n := List.mem_range.mp hi
  rw [BitVec.getLsbD_sshiftRight, BitVec.getLsbD_ushiftRight, if_pos (by omega), decide_eq_false (by omega)]
  rfl

theorem crcBits_feed (n : Nat) (ret : BitVec 16) (ch : BitVec 8) (own : n ≤ 8) :
    crcBits n ret ch = (lowBits n ch).foldl (feedReflected CRC_16) ret := by
  induction n generalizing ret ch with
  | zero => rfl
  | succ n ih =>
    rw [lowBits_sshiftRight n ch (by omega), List.foldl_cons, crcBits, ih _ _ (by omega)]
    simp only [lowest_differs, feedReflected]

theorem crcBytes_feed (before rest : List (BitVec 8)) (ret : BitVec 16) :
    crcBytes (before ++ rest) rest.length before.length ret =
      some ((rest.flatMap (lowBits 8)).foldl (feedReflected CRC_16) ret) := by
  induction rest generalizing before ret with
  | nil => rfl
  | cons ch rest ih =>
    have next := ih (before ++ [ch]) (crcBits 8 ret ch)
    simp only [List.append_assoc, List.cons_append, List.nil_append, List.length_append, List.length_singleton] at next
    simp only [List.length_cons, crcBytes, List.getElem?_append_right (Nat.le_refl _), Nat.sub_self,
      List.getElem?_cons_zero, next, List.flatMap_cons, List.foldl_append]
    rw [crcBits_feed 8 ret ch (Nat.le_refl 8)]

theorem getMsgBufCRC16_feed (msgBuf : List (BitVec 8)) :
    getMsgBufCRC16 msgBuf msgBuf.length = some ((msgBuf.flatMap (lowBits 8)).foldl (feedReflected CRC_16) 0xffff) :=
  crcBytes_feed [] msgBuf 0xffff

theorem getMsgBufCRC16_compute (msgBuf : List (BitVec 8)) :
    getMsgBufCRC16 msgBuf msgBuf.length = some (compute modbus msgBuf) := by
  have poly : modbus.poly.reverse = CRC_16 := by decide
  have init : modbus.init.reverse = 0xffff := by decide
  rw [getMsgBufCRC16_feed, compute_reflected modbus msgBuf rfl rfl, poly, init]
  exact congrArg some (BitVec.xor_zero).symm

theorem transmitted_bits (crc16 : BitVec 16) : (transmitted crc16).flatMap (lowBits 8) = lowBits 16 crc16 := by
  have cut (r : BitVec 16) : lowBits 8 (r.setWidth 8) = lowBits 8 r := by
    apply List.map_congr_left
    intro i hi
    simp [List.mem_range.mp hi]
  simp only [transmitted, List.flatMap_cons, List.flatMap_nil, List.append_nil, cut]
  exact (lowBits_add 8 8 crc16).symm

/-- The code computes CRC-16/MODBUS of the bytes it is given, and a message with its checksum has the checksum 0. -/
theorem msgBuf_crc16 (msgBuf : List (BitVec 8)) :
    getMsgBufCRC16 msgBuf msgBuf.length = some (compute modbus msgBuf) ∧
      ∀ crc16, getMsgBufCRC16 msgBuf msgBuf.length = some crc16 →
        getMsgBufCRC16 (msgBuf ++ transmitted crc16) (msgBuf ++ transmitted crc16).length = some 0 := by
  refine ⟨getMsgBufCRC16_compute msgBuf, ?_⟩
  intro crc16 result
  rw [getMsgBufCRC16_feed] at result ⊢
  obtain rfl := Option.some.inj result
  rw [List.flatMap_append, List.foldl_append, transmitted_bits]
  exact congrArg some (feed_all_own_bits CRC_16 _)

set_option maxRecDepth 4000 in
example : getMsgBufCRC16 [0x31, 0x32, 0x33, 0x34, 0x35, 0x36, 0x37, 0x38, 0x39] 9 = some 0x4B37 := by decide

/-- Whatever happens to sixteen neighbouring bits of a message or fewer, its checksum shows it. -/
theorem burst_noticed {sent received : List (BitVec 8)} {before bits bits' after : List Bool}
    (was : sent.flatMap (lowBits 8) = before ++ bits ++ after)
    (came : received.flatMap (lowBits 8) = before ++ bits' ++ after) (lengths : bits.length = bits'.length)
    (short : bits.length ≤ 16) (changed : bits ≠ bits') :
    getMsgBufCRC16 sent sent.length ≠ getMsgBufCRC16 received received.length := by
  intro same
  have top : CRC_16.msb = true := by decide
  rw [getMsgBufCRC16_feed, getMsgBufCRC16_feed, was, came] at same
  simp only [List.foldl_append, Option.some.injEq] at same
  exact changed (foldl_bits top lengths short (foldl_register top (by decide) same))

theorem burst_seen : getMsgBufCRC16 [0x31, 0x32] 2 ≠ getMsgBufCRC16 [0x31, 0x72] 2 :=
  @burst_noticed [0x31, 0x32] [0x31, 0x72] (lowBits 8 (0x31 : BitVec 8)) (lowBits 8 (0x32 : BitVec 8))
    (lowBits 8 (0x72 : BitVec 8)) [] rfl rfl rfl (by decide) (by decide)

end Rts2.Kernel.Modbus
