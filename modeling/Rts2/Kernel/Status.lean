import Mathlib

/-! Words of device and master state: their fields and the values of the fields. -/
namespace Rts2.Kernel

abbrev Status := BitVec 32

def bopMask : Status := 0x3f000000
def weatherMask : Status := 0x80000000
def goodWeather : Status := 0
def badWeather : Status := 0x80000000
def serverdStatusMask : Status := 0x00f
def serverdEvening : Status := 0x001
def serverdDusk : Status := 0x002
def serverdNight : Status := 0x003
def serverdDawn : Status := 0x004
def serverdMorning : Status := 0x005
def serverdOnoffMask : Status := 0x030
def serverdOn : Status := 0x000
def serverdStandby : Status := 0x010
def serverdSoftOff : Status := 0x020
def serverdHardOff : Status := 0x030
def stopMask : Status := 0x40000000
def stopEverything : Status := 0x40000000
def deviceErrorMask : Status := 0x000f0000
def deviceNotReady : Status := 0x00040000
def deviceBlockClose : Status := 0x00002000
def deviceBlockOpen : Status := 0x00004000

theorem weather_cases (word : Status) :
    word &&& weatherMask = goodWeather ∨ word &&& weatherMask = badWeather := by
  have bit := BitVec.and_twoPow word 31
  have mask : BitVec.twoPow 32 31 = weatherMask := by decide
  rw [mask] at bit
  rw [bit]
  split
  · exact .inr rfl
  · exact .inl rfl

theorem onoff_cases (word : Status) :
    word &&& serverdOnoffMask = serverdOn ∨ word &&& serverdOnoffMask = serverdStandby ∨
      word &&& serverdOnoffMask = serverdSoftOff ∨ word &&& serverdOnoffMask = serverdHardOff := by
  have low := BitVec.and_twoPow word 4
  have high := BitVec.and_twoPow word 5
  have mask : serverdOnoffMask = BitVec.twoPow 32 4 ||| BitVec.twoPow 32 5 := by decide
  have both : word &&& (BitVec.twoPow 32 4 ||| BitVec.twoPow 32 5) =
      (word &&& BitVec.twoPow 32 4) ||| (word &&& BitVec.twoPow 32 5) := by
    ext i inside
    simp [Bool.and_or_distrib_left]
  rw [mask, both, low, high]
  split <;> split <;> decide

end Rts2.Kernel
