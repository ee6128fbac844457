/-
What the sysmodule reads of its console at start (`FetchHardwareInfos` in `board.cpp`): fuses, chip revision, and the
globals that are filled from them in order. `SetGpuBracket` asks `GetSocType`, and is called before the SoC type is set.

- `fetchHardwareInfos_bracket`: the bracket stored is the one of the SoC type found before the call.
- `usesOwnBracket_iff`: it is the console's own bracket exactly on Erista and for the speedos both SoCs map alike.
- `mariko_bracket_lost`: a Mariko that gets another bracket, and with it a higher voltage floor.
-/
import RyazhaClk.Lib.WordBytes
import RyazhaClk.Sysmodule.Board

namespace RyazhaClk

open WordBytes

/-! ## Fuses -/

/-- a 16-bit register -/
def readU16 (m : ByteMemory) (address : ℕ) : ℕ := (m address).toNat + (m (address + 1)).toNat * 2 ^ 8

def readS16 (m : ByteMemory) (address : ℕ) : ℤ := (BitVec.ofNat 16 (readU16 m address)).toInt

def readU32 (m : ByteMemory) (address : ℕ) : ℕ := wordOf (m address) (m (address + 1)) (m (address + 2)) (m (address + 3))

structure FuseData where
  cpuSpeedo : ℕ
  gpuSpeedo : ℕ
  socSpeedo : ℕ
  cpuIDDQ : ℕ
  gpuIDDQ : ℕ
  socIDDQ : ℕ
  waferX : ℤ
  waferY : ℤ
deriving DecidableEq

def FUSE_OFFSET : ℕ := 0x800

/-- the fused GPU speedo, at `FUSE_CPU_SPEEDO_2_CALIB` -/
def fusedGpuSpeedo (fuse : ByteMemory) : ℕ := readU16 fuse (FUSE_OFFSET + 0x130)

/-- `ReadFuses`; the products are stored in 16 bits -/
def readFuses (fuse : ByteMemory) : FuseData where
  cpuSpeedo := readU16 fuse (FUSE_OFFSET + 0x114)
  gpuSpeedo := fusedGpuSpeedo fuse
  socSpeedo := readU16 fuse (FUSE_OFFSET + 0x134)
  cpuIDDQ := readU16 fuse (FUSE_OFFSET + 0x118) * 4 % 2 ^ 16
  gpuIDDQ := readU16 fuse (FUSE_OFFSET + 0x228) * 5 % 2 ^ 16
  socIDDQ := readU16 fuse (FUSE_OFFSET + 0x140) * 4 % 2 ^ 16
  waferX :=
    let waferX := readS16 fuse (FUSE_OFFSET + 0x214)
    if (readU16 fuse (FUSE_OFFSET + 0x214)).testBit 8 then ((waferX - 512 : ℤ)).bmod (2 ^ 16) else waferX
  waferY := readS16 fuse (FUSE_OFFSET + 0x218)

/-- `SetGpuBracket`, with the SoC type that `GetSocType` answers -/
def setGpuBracket (soc : HocClkSocType) (speedo : ℕ) : ℕ :=
  match soc with
  | .mariko =>
    if speedo ≤ 1624 then 0
    else if speedo ≤ 1689 then 1
    else if speedo ≤ 1753 then 2
    else 3
  | .erista =>
    if 1850 ≤ speedo ∧ speedo ≤ 1925 then 0
    else if 1926 ≤ speedo ∧ speedo ≤ 2025 then 1
    else if 2026 ≤ speedo ∧ speedo ≤ 2100 then 2
    else if 2101 ≤ speedo ∧ speedo ≤ 2200 then 3
    else 0

/-! ## The globals -/

structure HardwareInfo where
  gSocType : HocClkSocType
  gDramID : ℕ
  gConsoleType : HocClkConsoleType
  fuseData : FuseData
  speedoBracket : ℕ

/-- zero-initialised -/
def HardwareInfo.initial : HardwareInfo := ⟨.erista, 0, .icosa, ⟨0, 0, 0, 0, 0, 0, 0, 0⟩, 0⟩

/-- `APB_MISC_GP_HIDREV`: the major revision of the chip -/
def socTypeOf (apb : ByteMemory) : HocClkSocType :=
  if 2 ≤ readU32 apb 0x804 / 2 ^ 4 % 2 ^ 4 then .mariko else .erista

def consoleTypeOf (soc : HocClkSocType) (odm4 : ℕ) : HocClkConsoleType :=
  match soc with
  | .mariko =>
    match odm4 / 2 ^ 16 % 2 ^ 4 with
    | 2 => .hoag
    | 4 => .aula
    | _ => .iowa
  | .erista => .icosa

namespace HardwareInfo

/-- `FetchHardwareInfos`, statement by statement -/
def fetchHardwareInfos (fuse apb : ByteMemory) (g : HardwareInfo) : HardwareInfo :=
  let g := { g with fuseData := readFuses fuse }
  let g := { g with speedoBracket := setGpuBracket g.gSocType g.fuseData.gpuSpeedo }
  let g := { g with gSocType := socTypeOf apb }
  let odm4 := readU32 fuse (FUSE_OFFSET + (0x1C8 + 4 * 4))
  let g := { g with gConsoleType := consoleTypeOf g.gSocType odm4 }
  let g := { g with gDramID := odm4 / 2 ^ 3 % 2 ^ 5 }
  -- the extended DRAM id
  { g with gDramID := if g.gSocType = .mariko then g.gDramID ||| odm4 / 2 ^ 12 % 2 ^ 3 * 2 ^ 5 else g.gDramID }

/-- what `GetSocType`, `GetConsoleType` and `GetGpuSpeedoBracket` answer from then on: nothing else writes the globals -/
def platform (g : HardwareInfo) (hos9 : Bool) (gFreqTable : HocClkModule → FreqTable) : Platform where
  soc := g.gSocType
  console := g.gConsoleType
  hos9 := hos9
  bracket := g.speedoBracket
  gFreqTable := gFreqTable

variable (fuse apb : ByteMemory) (g : HardwareInfo)

theorem fetchHardwareInfos_socType : (g.fetchHardwareInfos fuse apb).gSocType = socTypeOf apb := rfl

/-- the bracket is chosen by the SoC type of before -/
theorem fetchHardwareInfos_bracket :
    (g.fetchHardwareInfos fuse apb).speedoBracket = setGpuBracket g.gSocType (fusedGpuSpeedo fuse) := rfl

end HardwareInfo

/-! ## The bracket of the voltage floor -/

/-- the two SoC types put a speedo into the same bracket -/
theorem setGpuBracket_eq_iff {speedo : ℕ} : setGpuBracket .erista speedo = setGpuBracket .mariko speedo ↔
    speedo ≤ 1624 ∨ 2101 ≤ speedo ∧ speedo ≤ 2200 := by
  unfold setGpuBracket
  dsimp only
  constructor
  · intro h
    split_ifs at h <;> omega
  · intro h
    split_ifs <;> omega

/-- the floor is taken from the bracket that `SetGpuBracket` gives the fused speedo on the console's SoC -/
structure UsesOwnBracket (P : Platform) (speedo : ℕ) : Prop where
  bracket : P.bracket = setGpuBracket P.soc speedo
  vmin : ∀ freqMhz, getMinimumGpuVmin P.soc freqMhz P.bracket = getMinimumGpuVmin P.soc freqMhz (setGpuBracket P.soc speedo)
  floor : ∀ c targetHz, gpuVminFor P c targetHz = gpuVminFor { P with bracket := setGpuBracket P.soc speedo } c targetHz

theorem usesOwnBracket_of_eq {P : Platform} {speedo : ℕ} (h : P.bracket = setGpuBracket P.soc speedo) :
    UsesOwnBracket P speedo := by
  refine ⟨h, fun freqMhz => by rw [h], fun c targetHz => ?_⟩
  rw [← h]

/-- **the console's own bracket**: always on Erista, on Mariko for the speedos that both SoCs map alike -/
theorem usesOwnBracket_iff (fuse apb : ByteMemory) (hos9 : Bool) (gFreqTable : HocClkModule → FreqTable) :
    UsesOwnBracket ((HardwareInfo.initial.fetchHardwareInfos fuse apb).platform hos9 gFreqTable) (fusedGpuSpeedo fuse) ↔
      readU32 apb 0x804 / 2 ^ 4 % 2 ^ 4 < 2 ∨ fusedGpuSpeedo fuse ≤ 1624 ∨
        2101 ≤ fusedGpuSpeedo fuse ∧ fusedGpuSpeedo fuse ≤ 2200 := by
  set P := (HardwareInfo.initial.fetchHardwareInfos fuse apb).platform hos9 gFreqTable with hP
  have hsoc : P.soc = socTypeOf apb := HardwareInfo.fetchHardwareInfos_socType fuse apb .initial
  have hbracket : P.bracket = setGpuBracket .erista (fusedGpuSpeedo fuse) :=
    HardwareInfo.fetchHardwareInfos_bracket fuse apb .initial
  have hown : UsesOwnBracket P (fusedGpuSpeedo fuse) ↔
      setGpuBracket .erista (fusedGpuSpeedo fuse) = setGpuBracket (socTypeOf apb) (fusedGpuSpeedo fuse) := by
    rw [← hbracket, ← hsoc]
    exact ⟨fun h => h.bracket, usesOwnBracket_of_eq⟩
  rw [hown]
  by_cases hmajor : readU32 apb 0x804 / 2 ^ 4 % 2 ^ 4 < 2
  · rw [socTypeOf, if_neg (not_le.2 hmajor)]
    exact iff_of_true rfl (Or.inl hmajor)
  · rw [socTypeOf, if_pos (not_lt.1 hmajor), or_iff_right hmajor]
    exact setGpuBracket_eq_iff

/-! A Mariko with a GPU speedo of 1700: `SetGpuBracket` gives it bracket 2, the sysmodule uses bracket 0. -/

def marikoApb : ByteMemory := fun a => if a = 0x804 then 0x20 else 0

/-- 1700 is 0x06A4 -/
def marikoFuse : ByteMemory := fun a => if a = 0x930 then 0xA4 else if a = 0x931 then 0x06 else 0

def marikoInfo : HardwareInfo := HardwareInfo.initial.fetchHardwareInfos marikoFuse marikoApb

theorem mariko_bracket_lost :
    fusedGpuSpeedo marikoFuse = 1700 ∧ marikoInfo.gSocType = .mariko ∧ setGpuBracket .mariko 1700 = 2 ∧
      getMinimumGpuVmin .mariko 2433 marikoInfo.speedoBracket = 650 ∧ getMinimumGpuVmin .mariko 2433 2 = 590 ∧
      ¬ UsesOwnBracket (marikoInfo.platform true fun _ => ⟨76800000, []⟩) (fusedGpuSpeedo marikoFuse) :=
  ⟨by decide, by decide, by decide, by decide, by decide, fun h => absurd h.bracket (by decide)⟩

end RyazhaClk
