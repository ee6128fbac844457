/-
The display module (`display_refresh_rate.cpp`): the rate of the built-in panel, set through the two PLLD registers or, on a
RETRO SUPER panel, through its mode timings, and the rate of a docked display, chosen from a table.

Results are optional: `none` stands for a division by zero or for a read outside a table, which the source leaves undefined.
The 32-bit `int` product of the panel's rate wraps. `GetRate` is called with a place for its result; its own result is that
place's value, `none` when it answers false. What the sink's mode list allows is a reading: the source scans it in floating
point. The link rate and the last active height that was set are stored and never used; the OLED gamma is another device's.

- `normalisedRate_bounds`, `normalisedRate_eq_max_iff`: the rate a request is brought to.
- `programPlld_divN`, `programPlld_pllProduct`: what the registers hold behind a request.
-/
import Mathlib.Tactic

namespace RyazhaClk.Display

/-! ## Registers, modes and tables -/

/-- `PLLD_BASE`: the divisors; the other bits are written back as read -/
structure PlldBase where
  plldDivM : BitVec 8
  plldDivN : BitVec 8
deriving DecidableEq

/-- `PLLD_MISC`: the signed 16-bit fraction; the other bits are written back as read -/
structure PlldMisc where
  plldSdmDin : BitVec 16
deriving DecidableEq

structure NvdcMode2 where
  hActive : UInt32
  vActive : UInt32
  hSyncWidth : UInt32
  vSyncWidth : UInt32
  hFrontPorch : UInt32
  vFrontPorch : UInt32
  hBackPorch : UInt32
  vBackPorch : UInt32
  pclkKHz : UInt32
  bitsPerPixel : UInt32
  vmode : UInt32
  sync : UInt32
  unk1 : UInt32
deriving DecidableEq

structure DockedTimings where
  hFrontPorch : UInt32
  hSyncWidth : UInt32
  hBackPorch : UInt32
  vFrontPorch : UInt32
  vSyncWidth : UInt32
  vBackPorch : UInt32
  pixelClock_kHz : UInt32

structure HandheldTimings where
  hSyncWidth : UInt32
  hFrontPorch : UInt32
  hBackPorch : UInt32
  vSyncWidth : UInt32
  vFrontPorch : UInt32
  vBackPorch : UInt32
  pixelClock_kHz : UInt32

def gDockedRefreshRates : List ℕ :=
  [40, 45, 50, 55, 60, 70, 72, 75, 80, 90, 95, 100, 110, 120, 130, 140, 144, 150, 160, 165, 170, 180, 190, 200, 210, 220, 230,
    240]

/-- the rows from 40 Hz to 240 Hz; the VIC column is not read -/
def gDockedTimings1080p : List DockedTimings :=
  [ ⟨8, 32, 40, 7, 8, 6, 88080⟩, ⟨8, 32, 40, 9, 8, 6, 99270⟩, ⟨528, 44, 148, 4, 5, 36, 148500⟩,
    ⟨8, 32, 40, 15, 8, 6, 121990⟩, ⟨88, 44, 148, 4, 5, 36, 148500⟩, ⟨8, 32, 40, 22, 8, 6, 156240⟩,
    ⟨8, 32, 40, 23, 8, 6, 160848⟩, ⟨8, 32, 40, 25, 8, 6, 167850⟩, ⟨8, 32, 40, 28, 8, 6, 179520⟩,
    ⟨8, 32, 40, 33, 8, 6, 202860⟩, ⟨8, 32, 40, 36, 8, 6, 214700⟩, ⟨528, 44, 148, 4, 5, 36, 297000⟩,
    ⟨8, 32, 40, 44, 8, 6, 250360⟩, ⟨88, 44, 148, 4, 5, 36, 297000⟩, ⟨8, 32, 40, 55, 8, 6, 298750⟩,
    ⟨8, 32, 40, 61, 8, 6, 323400⟩, ⟨8, 32, 40, 63, 8, 6, 333216⟩, ⟨8, 32, 40, 67, 8, 6, 348300⟩,
    ⟨8, 32, 40, 72, 8, 6, 373120⟩, ⟨8, 32, 40, 75, 8, 6, 385770⟩, ⟨8, 32, 40, 78, 8, 6, 398480⟩,
    ⟨8, 32, 40, 84, 8, 6, 424080⟩, ⟨8, 32, 40, 90, 8, 6, 449920⟩, ⟨8, 32, 40, 96, 8, 6, 476000⟩,
    ⟨8, 32, 40, 102, 8, 6, 502320⟩, ⟨8, 32, 40, 108, 8, 6, 528880⟩, ⟨8, 32, 40, 114, 8, 6, 555680⟩,
    ⟨8, 32, 40, 121, 8, 6, 583200⟩ ]

/-- the rows from 40 Hz to 60 Hz, one for each rate -/
def gHandheldTimingsRETRO : List HandheldTimings :=
  [ ⟨72, 136, 72, 1, 660, 9, 78000⟩, ⟨72, 136, 72, 1, 612, 9, 77982⟩, ⟨72, 136, 72, 1, 567, 9, 77994⟩,
    ⟨72, 136, 72, 1, 524, 9, 78002⟩, ⟨72, 136, 72, 1, 483, 9, 78012⟩, ⟨72, 136, 72, 1, 443, 9, 77985⟩,
    ⟨72, 136, 72, 1, 406, 9, 78016⟩, ⟨72, 136, 72, 1, 370, 9, 78020⟩, ⟨72, 136, 72, 1, 335, 9, 78000⟩,
    ⟨72, 136, 72, 1, 302, 9, 78008⟩, ⟨72, 136, 72, 1, 270, 9, 78000⟩, ⟨72, 136, 72, 1, 239, 9, 77979⟩,
    ⟨72, 136, 72, 1, 210, 9, 78000⟩, ⟨72, 136, 72, 1, 182, 9, 78016⟩, ⟨72, 136, 72, 1, 154, 9, 77976⟩,
    ⟨72, 136, 72, 1, 128, 9, 77990⟩, ⟨72, 136, 72, 1, 103, 9, 78008⟩, ⟨72, 136, 72, 1, 78, 9, 77976⟩,
    ⟨72, 136, 72, 1, 55, 9, 78010⟩, ⟨72, 136, 72, 1, 32, 9, 77998⟩, ⟨72, 136, 72, 1, 10, 9, 78000⟩ ]

def dsiClockHz : ℕ := 234000000

/-- `g_handheldModeRefreshRate` -/
def handheldMin : ℕ := 40

def handheldMax : ℕ := 80

/-- an integer division -/
def quotient (a b : ℕ) : Option ℕ := if b = 0 then none else some (a / b)

namespace NvdcMode2

def hTotal (m : NvdcMode2) : UInt32 := m.hActive + m.hFrontPorch + m.hSyncWidth + m.hBackPorch

def vTotal (m : NvdcMode2) : UInt32 := m.vActive + m.vFrontPorch + m.vSyncWidth + m.vBackPorch

/-- the rate as the setters compute it, in 32 bits -/
def refreshRateNow (m : NvdcMode2) : Option ℕ :=
  quotient (m.pclkKHz * 1000 + 999).toNat (m.hTotal * m.vTotal).toNat

/-- the rate as `GetRate` computes it: the totals are widened before they are multiplied -/
def rate (m : NvdcMode2) : Option ℕ :=
  quotient (m.pclkKHz * 1000 + 999).toNat (m.hTotal.toNat * m.vTotal.toNat)

/-- 480p, 720p or 1080p -/
def accepted (m : NvdcMode2) : Bool :=
  (m.vActive = 480 ∧ m.hActive = 720) ∨ (m.vActive = 720 ∧ m.hActive = 1280) ∨ (m.vActive = 1080 ∧ m.hActive = 1920)

/-- the mode submitted for a row of the docked tables -/
def withDocked (m : NvdcMode2) (itr selected : ℕ) : Option NvdcMode2 :=
  if m.vActive = 720 then
    some { m with pclkKHz := (m.hTotal * m.vTotal) * UInt32.ofNat selected / 1000 }
  else gDockedTimings1080p[itr]?.map fun t =>
    { m with
      hFrontPorch := t.hFrontPorch
      hSyncWidth := t.hSyncWidth
      hBackPorch := t.hBackPorch
      vFrontPorch := t.vFrontPorch
      vSyncWidth := t.vSyncWidth
      vBackPorch := t.vBackPorch
      pclkKHz := t.pixelClock_kHz
      vmode := if 100 ≤ selected then 0x400000 else 0x200000
      unk1 := if 100 ≤ selected then 0x80 else 0
      sync := 3
      bitsPerPixel := 24 }

def withHandheld (m : NvdcMode2) (t : HandheldTimings) : NvdcMode2 :=
  { m with
    hFrontPorch := t.hFrontPorch
    hSyncWidth := t.hSyncWidth
    hBackPorch := t.hBackPorch
    vFrontPorch := t.vFrontPorch
    vSyncWidth := t.vSyncWidth
    vBackPorch := t.vBackPorch
    pclkKHz := t.pixelClock_kHz }

end NvdcMode2

/-! ## The two rates of the PLLD registers -/

/-- the rate the divisors alone stand for: 0 and 80 are taken for a docked console -/
def PlldBase.value (base : PlldBase) : Option ℕ :=
  (quotient base.plldDivN.toNat base.plldDivM.toNat).map fun q => q * 10 / 4

def sdmSum (base : PlldBase) (misc : PlldMisc) : ℤ :=
  4096 * (2 * base.plldDivN.toNat + 1) + misc.plldSdmDin.toInt

/-- the product both rates start from, before it is cut to the width of its type -/
def pllProduct (base : PlldBase) (misc : PlldMisc) : ℤ := 9375 * sdmSum base misc

/-- the rate in `_setPLLDHandheldRefreshRate`: an `int` product, a 32-bit clock, a 16-bit rate -/
def refreshRateNow (base : PlldBase) (misc : PlldMisc) : Option ℕ :=
  if base.plldDivM = 0 then none
  else
    let product := (pllProduct base misc).bmod (2 ^ 32)
    let pixelClock := (product.tdiv (8 * base.plldDivM.toNat) % 2 ^ 32).toNat
    some (pixelClock / (dsiClockHz / 60) % 2 ^ 16)

/-- the rate in `GetRate`: a 64-bit product, a 32-bit clock -/
def handheldRate (base : PlldBase) (misc : PlldMisc) : Option ℕ :=
  if base.plldDivM = 0 then none
  else
    let product := pllProduct base misc % 2 ^ 64
    let pixelClock := (product / (8 * base.plldDivM.toNat) % 2 ^ 32).toNat
    some (pixelClock / (dsiClockHz / 60))

/-- the rate a request is brought to, with the multiples up to `last` tried for a rate below the range -/
def normalisedRate (last rate : ℕ) : ℕ :=
  if rate > handheldMax then handheldMax
  else if rate < handheldMin then
    if [2, 3, 4].any fun i => rate * i = 60 then 60
    else match (List.range' 2 (last - 1)).find? fun i => handheldMin ≤ rate * i ∧ rate * i ≤ handheldMax with
      | some i => rate * i
      | none => 60
  else rate

/-- the registers written for a normalised rate -/
def programPlld (rate : ℕ) : PlldBase × PlldMisc :=
  let baseRefreshRate := (rate - rate % 5) % 2 ^ 8
  let base : PlldBase := ⟨1, BitVec.ofNat 8 (4 * baseRefreshRate / 10)⟩
  let expectedPixelClock := dsiClockHz * rate / 60
  (base, ⟨BitVec.ofInt 16 ((8 * base.plldDivM.toNat * expectedPixelClock / 9375 : ℕ) - 4096 * (2 * base.plldDivN.toNat + 1))⟩)

/-! ## Normalised rates -/

theorem normalisedRate_of_mem {rate : ℕ} (last : ℕ) (hlo : 40 ≤ rate) (hhi : rate ≤ 80) : normalisedRate last rate = rate := by
  unfold normalisedRate handheldMin handheldMax
  rw [if_neg (by omega), if_neg (by omega)]

theorem normalisedRate_of_gt {rate : ℕ} (last : ℕ) (h : 80 < rate) : normalisedRate last rate = 80 := by
  unfold normalisedRate handheldMin handheldMax
  rw [if_pos h]

/-- a rate below the range becomes 60 or a multiple of itself in the range -/
theorem normalisedRate_of_lt {rate : ℕ} (last : ℕ) (h : rate < 40) : normalisedRate last rate = 60 ∨
    ∃ i, normalisedRate last rate = rate * i ∧ 40 ≤ rate * i ∧ rate * i ≤ 80 := by
  unfold normalisedRate handheldMin handheldMax
  rw [if_neg (by omega), if_pos h]
  split_ifs with hdivisor
  · exact Or.inl rfl
  · cases hfind : (List.range' 2 (last - 1)).find? fun i => decide (40 ≤ rate * i ∧ rate * i ≤ 80) with
    | none => exact Or.inl rfl
    | some i =>
      have hrange := List.find?_some hfind
      exact Or.inr ⟨i, rfl, of_decide_eq_true hrange⟩

theorem normalisedRate_bounds (last rate : ℕ) : 40 ≤ normalisedRate last rate ∧ normalisedRate last rate ≤ 80 := by
  rcases Nat.lt_or_ge rate 40 with hlo | hlo
  · rcases normalisedRate_of_lt last hlo with h | ⟨i, h, hi⟩
    · omega
    · rwa [h]
  · rcases Nat.lt_or_ge 80 rate with hhi | hhi
    · rw [normalisedRate_of_gt last hhi]
      omega
    · rw [normalisedRate_of_mem last hlo hhi]
      exact ⟨hlo, hhi⟩

/-- only the rates from 80 on are brought to 80 -/
theorem normalisedRate_eq_max_iff {rate : ℕ} : normalisedRate 4 rate = 80 ↔ 80 ≤ rate := by
  have hsmall : ∀ r < 40, normalisedRate 4 r ≠ 80 := by decide
  rcases Nat.lt_or_ge rate 40 with hlo | hlo
  · exact iff_of_false (hsmall rate hlo) (by omega)
  · rcases Nat.lt_or_ge 80 rate with hhi | hhi
    · exact iff_of_true (normalisedRate_of_gt 4 hhi) hhi.le
    · rw [normalisedRate_of_mem 4 hlo hhi]
      omega

/-! ## The registers behind a request -/

theorem pllProduct_bounds (base : PlldBase) (misc : PlldMisc) :
    -2 ^ 29 ≤ pllProduct base misc ∧ pllProduct base misc < 2 ^ 35 := by
  have hdivN := base.plldDivN.isLt
  have hlo := BitVec.le_toInt misc.plldSdmDin
  have hhi := BitVec.toInt_lt (x := misc.plldSdmDin)
  unfold pllProduct sdmSum
  omega

theorem programPlld_divM (rate : ℕ) : (programPlld rate).1.plldDivM = 1 := rfl

theorem programPlld_divN {rate : ℕ} (h : rate ≤ 80) : (programPlld rate).1.plldDivN.toNat = 2 * (rate / 5) := by
  have hbase : 4 * ((rate - rate % 5) % 2 ^ 8) / 10 = 2 * (rate / 5) := by omega
  calc (programPlld rate).1.plldDivN.toNat = 4 * ((rate - rate % 5) % 2 ^ 8) / 10 % 2 ^ 8 := BitVec.toNat_ofNat _ _
    _ = 2 * (rate / 5) := by omega

/-- the integer part and the fraction add up to the rate -/
theorem programPlld_pllProduct {rate : ℕ} (hlo : 40 ≤ rate) (hhi : rate ≤ 80) :
    pllProduct (programPlld rate).1 (programPlld rate).2 = 31200000 * rate := by
  have hdivN := programPlld_divN hhi
  have hclock : 8 * 1 * (dsiClockHz * rate / 60) / 9375 = 3328 * rate := by
    unfold dsiClockHz
    omega
  have hdin : (programPlld rate).2.plldSdmDin = BitVec.ofInt 16
      ((8 * 1 * (dsiClockHz * rate / 60) / 9375 : ℕ) - 4096 * (2 * (programPlld rate).1.plldDivN.toNat + 1)) := rfl
  have hint : (programPlld rate).2.plldSdmDin.toInt = 3328 * rate - 4096 * (2 * (2 * (rate / 5)) + 1) := by
    rw [hdin, hclock, hdivN, BitVec.toInt_ofInt]
    push_cast
    exact Int.bmod_eq_of_le_mul_two (by omega) (by omega)
  unfold pllProduct sdmSum
  rw [hint, hdivN]
  push_cast
  ring

/-! ## State -/

structure DisplayRefreshConfig where
  clkVirtAddr : ℕ
  isDocked : Bool
  isLite : Bool
  isRetroSUPER : Bool
  isPossiblySpoofedRetro : Bool
  matchLowestDocked : Bool

/-- what the driver answers on `/dev/nvdisp-disp0` or `/dev/nvdisp-disp1` during a call -/
structure NvHead where
  /-- `nvOpen` succeeds -/
  opens : Bool
  /-- the result of `NVDISP_GET_PANEL_DATA` at address 0 -/
  panelData : ℕ
  /-- `NVDISP_GET_MODE2` -/
  mode : Option NvdcMode2
  /-- `NVDISP_VALIDATE_MODE2` answers 0 -/
  validates : NvdcMode2 → Bool

structure Nv where
  disp0 : NvHead
  disp1 : NvHead
  /-- `NVDISP_GET_PANEL_DATA` at address 0x100 of `disp1` answers 0 -/
  linkAnswers : Bool
  /-- what `_getDockedHighestRefreshRate` finds in the sink's mode list -/
  dockedHighest : ℕ

structure DisplayState where
  gConfig : DisplayRefreshConfig
  gInitialized : Bool
  gDockedHighestRefreshRate : ℕ
  gWasRetroSuperTurnedOff : Bool
  gLastVActive : UInt32
  gCanChangeRefreshRateDocked : Bool
  /-- the static `value` of `GetRate` -/
  value : ℕ
  base : PlldBase
  misc : PlldMisc
  /-- the modes handed to `NVDISP_SET_MODE2` -/
  submitted0 : List NvdcMode2
  submitted1 : List NvdcMode2

namespace DisplayState

/-! ## `SetRate` -/

/-- both registers written for a normalised rate -/
def programmed (s : DisplayState) (rate : ℕ) : DisplayState :=
  { s with
    base := (programPlld rate).1
    misc := (programPlld rate).2 }

def setPLLDHandheldRefreshRate (s : DisplayState) (nv : Nv) (rate : ℕ) : Option (Bool × DisplayState) :=
  if s.gConfig.clkVirtAddr = 0 ∨ nv.disp0.opens = false ∨ nv.disp0.panelData ≠ 0x75c then some (false, s)
  else s.base.value.bind fun value =>
    if value = 0 ∨ value = 80 then some (false, s)
    else (refreshRateNow s.base s.misc).map fun now =>
      (true, if now = normalisedRate 4 rate then s else s.programmed (normalisedRate 4 rate))

/-- `_getDockedRefreshRateIterator`; the byte 0xFF, -1 in the signed index, is `none` -/
def getDockedRefreshRateIterator (rate : ℕ) : Option ℕ := gDockedRefreshRates.findIdx? (· = rate)

/-- the largest index up to `itr` whose rate is allowed, or `itr` itself -/
def clampToHighest (highest itr : ℕ) : ℕ :=
  ((List.range (itr + 1)).reverse.find? fun i => gDockedRefreshRates[i]?.any (· ≤ highest)).getD itr

/-- the index of the docked tables that a request selects -/
def dockedIndex (matchLowestDocked : Bool) (highest rate : ℕ) : Option ℕ :=
  let divisor := if rate ≤ 60 ∧ 60 % rate = 0 then getDockedRefreshRateIterator 60 else none
  let multiple := divisor.or (gDockedRefreshRates.findIdx? fun val => val % rate = 0)
  let lowest := multiple.or
    (if matchLowestDocked then gDockedRefreshRates.findIdx? (rate < ·) else getDockedRefreshRateIterator 60)
  (lowest.or (getDockedRefreshRateIterator 60)).map (clampToHighest highest)

def setNvDispDockedRefreshRate (s : DisplayState) (nv : Nv) (rate : ℕ) : Option (Bool × DisplayState) :=
  if s.gConfig.isLite = true ∨ s.gCanChangeRefreshRateDocked = false ∨ nv.disp1.opens = false then some (false, s)
  else match nv.disp1.mode with
    | none => some (false, s)
    | some mode =>
      if mode.pclkKHz = 0 ∨ mode.accepted = false then some (false, s)
      else mode.refreshRateNow.bind fun now =>
        (dockedIndex s.gConfig.matchLowestDocked s.gDockedHighestRefreshRate rate).bind fun itr =>
          gDockedRefreshRates[itr]?.bind fun selected =>
            if now = selected then some (true, s)
            else (mode.withDocked itr selected).map fun next =>
              (true, if nv.disp1.validates next then { s with submitted1 := s.submitted1 ++ [next] } else s)

/-- the RETRO SUPER panel, behind the sleeps; either branch at the start leaves `g_wasRetroSuperTurnedOff` false -/
def setNvDispHandheldRefreshRate (s : DisplayState) (nv : Nv) (rate : ℕ) : Option (Bool × DisplayState) :=
  if s.gConfig.isRetroSUPER = false then some (false, s)
  else
    let s := { s with gWasRetroSuperTurnedOff := false }
    if nv.disp0.opens = false then some (false, s)
    else match nv.disp0.mode with
      | none => some (false, s)
      | some mode =>
        if mode.pclkKHz = 0 ∨ ¬ (mode.vActive = 1280 ∧ mode.hActive = 720) then some (false, s)
        else mode.refreshRateNow.bind fun now =>
          let rate := normalisedRate gHandheldTimingsRETRO.length rate
          if rate = now then some (true, s)
          else gHandheldTimingsRETRO[(rate - 40) / 5]?.map fun t =>
            -- submitted five times
            (true, if nv.disp0.validates (mode.withHandheld t) then
              { s with submitted0 := s.submitted0 ++ List.replicate 5 (mode.withHandheld t) } else s)

def setRate (s : DisplayState) (nv : Nv) (rate : ℕ) : Option (Bool × DisplayState) :=
  if rate = 0 ∨ s.gInitialized = false then some (false, s)
  else if s.gConfig.isRetroSUPER = true ∧ s.gConfig.isDocked = false then s.setNvDispHandheldRefreshRate nv rate
  else if (s.gConfig.isRetroSUPER = false ∧ s.gConfig.isLite = true) ∨ nv.disp1.opens = false then
    -- success is not reported: this branch falls through to the `return false` at the end
    (s.setPLLDHandheldRefreshRate nv rate).map fun r => (false, r.2)
  else if nv.disp1.panelData ≠ 0 then
    if s.gConfig.isRetroSUPER = false then s.setPLLDHandheldRefreshRate nv rate
    else s.setNvDispHandheldRefreshRate nv rate
  else if s.gConfig.isDocked = true then s.setNvDispDockedRefreshRate nv rate
  else some (true, s)

/-! ## `GetRate` -/

/-- the rate of the docked display's current mode -/
def dockedModeRate (s : DisplayState) (nv : Nv) : Option (Option ℕ × DisplayState) :=
  if nv.disp1.opens = false then some (some 60, { s with value := 60 })
  else match nv.disp1.mode with
    | none => some (some 60, { s with value := 60 })
    | some mode =>
      if mode.pclkKHz = 0 then some (none, s)
      else
        let s := if s.gLastVActive = mode.vActive then s else { s with
          gLastVActive := mode.vActive
          gDockedHighestRefreshRate := nv.dockedHighest }
        mode.rate.map fun r => (some r, { s with value := r })

/-- the branch of `GetRate` for registers that read as docked -/
def getDockedRate (s : DisplayState) (nv : Nv) (internal : Bool) : Option (Option ℕ × DisplayState) :=
  if s.gConfig.isLite = true then some (none, s)
  else
    let s := { s with gConfig := { s.gConfig with isDocked := true } }
    if s.gCanChangeRefreshRateDocked = false ∧ (nv.disp1.opens = false ∨ nv.linkAnswers = false) then some (none, s)
    else
      let s := if s.gCanChangeRefreshRateDocked then s else { s with
        gDockedHighestRefreshRate := nv.dockedHighest
        gCanChangeRefreshRateDocked := true }
      if internal then some (some s.value, s) else s.dockedModeRate nv

/-- a rate has been read in handheld mode -/
def readHandheld (s : DisplayState) (hz : ℕ) : DisplayState :=
  { s with
    gConfig := { s.gConfig with isDocked := false }
    gCanChangeRefreshRateDocked := false
    value := hz }

/-- the branch of `GetRate` for registers that read as handheld, on a console without a RETRO SUPER panel -/
def getHandheldRate (s : DisplayState) : Option (Option ℕ × DisplayState) :=
  (handheldRate s.base s.misc).map fun hz => (some hz, s.readHandheld hz)

/-- the branch of `GetRate` for a RETRO SUPER panel -/
def getRetroRate (s : DisplayState) (nv : Nv) : Option (Option ℕ × DisplayState) :=
  s.base.value.bind fun value =>
    let s := { s with value := value }
    if value = 0 ∨ value = 80 then some (some value, { s with gWasRetroSuperTurnedOff := true })
    else if nv.disp0.opens = false then some (none, s)
    else match nv.disp0.mode with
      | none => some (some value, s)
      | some mode => mode.rate.map fun r => (some r, { s with value := r })

def getRate (s : DisplayState) (nv : Nv) (internal : Bool) : Option (Option ℕ × DisplayState) :=
  if s.gInitialized = false ∨ s.gConfig.clkVirtAddr = 0 then some (none, s)
  else if s.gConfig.isRetroSUPER = true ∧ s.gConfig.isDocked = false then s.getRetroRate nv
  else if s.gConfig.isPossiblySpoofedRetro = false ∨ s.gConfig.isRetroSUPER = false then
    s.base.value.bind fun value =>
      let s := { s with value := value }
      if value = 0 ∨ value = 80 then s.getDockedRate nv internal
      else if s.gConfig.isRetroSUPER = false then s.getHandheldRate
      else some (none, s)
  else some (some s.value, s)

end DisplayState

end RyazhaClk.Display
