/-
kernel/spinlock.c on one processor: a lock is taken with interrupts off, and the flags register it
was taken with is put back when it is released.
-/
import SnakeOS.Lib.Byte
import SnakeOS.Lib.C

namespace SnakeOS.Kernel

open C

structure Spinlock where
  locked : Int
  irqFlags : UInt64
  deriving DecidableEq, Repr

/-- The interrupt flag in the flags register. -/
abbrev RFLAGS_IF : UInt64 := 0x200

/-- `pushfq; popq; cli`: the flags register, and its value with interrupts off. -/
def irqSave (rflags : UInt64) : UInt64 × UInt64 := (rflags, rflags &&& ~~~RFLAGS_IF)

/-- `pushq; popfq`. -/
def irqRestore (flags : UInt64) : UInt64 := flags

def spinlockInit : Spinlock := ⟨0, 0⟩

def doubleLock : List UInt8 := Byte.text "spin_lock: double lock"

def unlockWithoutLock : List UInt8 := Byte.text "spin_unlock: unlock without lock"

/-- The lock and the flags register after `spin_lock`. -/
def spinLock (lk : Spinlock) (rflags : UInt64) : Except Fault (Spinlock × UInt64) :=
  let (flags, rflags) := irqSave rflags
  if lk.locked ≠ 0 then .error (.halt doubleLock) else .ok (⟨1, flags⟩, rflags)

/-- The lock and the flags register after `spin_unlock`. -/
def spinUnlock (lk : Spinlock) : Except Fault (Spinlock × UInt64) :=
  if lk.locked = 0 then .error (.halt unlockWithoutLock)
  else .ok ({ lk with locked := 0 }, irqRestore lk.irqFlags)

theorem spinLock_ok {lk : Spinlock} (h : lk.locked = 0) (rflags : UInt64) :
    spinLock lk rflags = .ok (⟨1, rflags⟩, rflags &&& ~~~RFLAGS_IF) := if_neg (not_not_intro h)

theorem spinUnlock_ok {lk : Spinlock} (h : lk.locked ≠ 0) :
    spinUnlock lk = .ok ({ lk with locked := 0 }, lk.irqFlags) := if_neg h

end SnakeOS.Kernel
