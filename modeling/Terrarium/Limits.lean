import Mathlib.Algebra.Order.Ring.Nat

/-!
# Limits — the constants of `terra-limits`

The bounds that the runtime and the sandboxed components share.
-/

namespace Terrarium.Limits

def x86MaxDevices : Nat := 37
def armMaxDevices : Nat := 16
def maxDevices : Nat := if x86MaxDevices > armMaxDevices then x86MaxDevices else armMaxDevices
def x86IoapicPins : Nat := 24

def maxBootKernelSegments : Nat := 128
def maxBootWrites : Nat := 16
def maxBootWriteBytes : Nat := 2 * 1024 * 1024

def maxSingleGuestCopyBytes : Nat := 16 * 1024
def maxComponentHostcallBytes : Nat := 64 * 1024
def maxBatchGuestCopyBytes : Nat := maxComponentHostcallBytes
def maxBatchGuestCopyRanges : Nat := 32

end Terrarium.Limits
