import Mathlib.Data.Nat.Notation

/-!
# The dummy counter

The drivers of the demo measure their timeouts with the dummy counter of `OsIf_Timer.c`,
for which a tick passes whenever it is asked how many have.
-/

namespace S32K358.OsIf

/-- `OsIf_MicrosToTicks(micros, OSIF_COUNTER_DUMMY)`. -/
def microsToTicks (micros : ℕ) : ℕ := micros

/-- `OsIf_GetElapsed(&ticks, OSIF_COUNTER_DUMMY)`. -/
def getElapsed : ℕ := 1

end S32K358.OsIf
