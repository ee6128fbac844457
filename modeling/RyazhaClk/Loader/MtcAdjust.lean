/-
`MemMtcTableAutoAdjust` of Erista: the words of a memory table that follow from its new rate.

What the source computes in floating point is a parameter, a `Cycles` for each rate; the register arithmetic behind it is
spelled out.
- `adjustWrites_bounds`: every write lies in the table, behind its rate.
- `memMtcTableAutoAdjust_adjusts`: a table is adjusted from its own words only, and keeps its rate.
-/
import RyazhaClk.Lib.Records
import RyazhaClk.Loader.EristaPatchers

namespace RyazhaClk.Loader.Erista

open Records

/-! ## The words of a table -/

/-- the words of one memory table -/
abbrev TableWords := Fin mtcTableWords → BitVec 32

def rateField : Fin mtcTableWords := ⟨16, by decide⟩

theorem mtcTableWords_pos : 0 < mtcTableWords := by decide

def word (table : TableWords) (i : ℕ) : BitVec 32 := table ⟨i % mtcTableWords, Nat.mod_lt i mtcTableWords_pos⟩

/-- `MemMtcTableAutoAdjust` rewrites a table from the table's own words, but not its rate -/
structure AdjustsTable (adjust : ℤ → Words → Words) (adjusted : TableWords → TableWords) : Prop where
  table : ∀ start w, record mtcTableWords (adjust start w) start 0 = adjusted (record mtcTableWords w start 0)
  rate : ∀ table, adjusted table rateField = table rateField
  frame : ∀ start w, Frame start (start + mtcTableWords) w (adjust start w)

/-! ## What is written -/

/-- the numbers of a rate that come from floating point; where the source rounds a time up to cycles, the cycles -/
structure Cycles where
  (tRCD tRC tRAS tRRD tRFCpb tRFCab tRPpb tXSR tFAW tRPab tSR tXP : ℕ)
  (tCKE tPCHG2PDEN tAR2PDEN tPDEX2CKE tACT2PDEN tCKE2PDEN pdex2mrr : ℕ)
  (tCLKSTOP tR2P tR2W tW2P tW2R pdex2rw tWTPDEN : ℕ)
  /-- behind `CEIL(tREFpb / tCK_avg) - 0x40` -/
  refresh : ℕ
  /-- behind `7605.0 / tCK_avg` -/
  dynSelfRef : ℕ
  /-- `dram_timings`, in nanoseconds -/
  (t_rp t_rfc : ℕ)

variable (C : CustomizeTable) (v : Cycles) (table : TableWords)

def refreshRaw : ℕ := if C.t8_tREFI ≠ 6 then min v.refresh 0xFFFF else 0xFFFF

def rext (rateKhz : ℕ) : ℕ := if rateKhz > 3200000 then 30 else if rateKhz ≥ 2133001 then 28 else 26

/-- the registers of `WRITE_PARAM_ALL_REG`, as words of an `EristaTiming` -/
def emcRegs (rateKhz : ℕ) : List (ℕ × BitVec 32) :=
  let u32 := BitVec.ofNat 32
  [(148, if C.hpMode ≠ 0 then 0x13200000 else 0xF3200000),
    (14, u32 v.tRCD), (15, u32 v.tRCD), (0, u32 (min v.tRC 0xB9)), (5, u32 (min v.tRAS 0x7F)), (16, u32 v.tRRD),
    (2, u32 v.tRFCpb), (1, u32 v.tRFCab), (6, u32 v.tRPpb), (53, u32 (min v.tXSR 0x3fe)), (54, u32 (min v.tXSR 0x3fe)),
    (58, u32 v.tFAW), (59, u32 (min v.tRPab 0x3F)), (56, u32 v.tSR), (55, u32 (v.tCKE + 2)), (57, u32 v.tXP),
    (61, u32 v.tCLKSTOP), (9, u32 v.tR2P), (7, u32 v.tR2W), (10, u32 v.tW2P), (8, u32 v.tW2R), (17, u32 (rext rateKhz)),
    (18, if rateKhz ≥ 2533000 then 0x19 else 0x16), (41, u32 (refreshRaw C v)), (43, u32 (refreshRaw C v / 4)),
    (63, u32 (min (refreshRaw C v + 0x40) 0x3FFF)),
    (150, u32 (v.dynSelfRef + 260) ||| word table 221 &&& 0xffff0000),
    (44, u32 v.pdex2rw), (45, u32 v.pdex2rw), (46, u32 v.tPCHG2PDEN), (48, u32 v.tAR2PDEN), (51, u32 v.tPDEX2CKE),
    (47, u32 v.tACT2PDEN), (50, u32 v.tCKE2PDEN), (52, u32 v.pdex2mrr), (49, u32 v.tWTPDEN)]

/-- `burst_regs`, `shadow_regs_ca_train` and `shadow_regs_rdwr_train` each hold the registers -/
def writeParamAllReg (p : ℕ × BitVec 32) : List (ℕ × BitVec 32) := [(71 + p.1, p.2), (300 + p.1, p.2), (742 + p.1, p.2)]

/-- `CEIL(cycles / MC_ARB_DIV)` -/
def arb (cycles : ℕ) : ℕ := (cycles + 3) / 4

/-- `burst_mc_regs` -/
def mcRegs (rateKhz : ℕ) : List (ℕ × BitVec 32) :=
  let u32 := BitVec.ofInt 32
  let arbRcd := u32 (arb v.tRCD - 2)
  let arbRp := u32 (arb v.tRPpb - 1)
  let arbRc := u32 (arb v.tRC - 1)
  let arbRap2pre := u32 (arb v.tR2P)
  let arbWap2pre := u32 (arb v.tW2P + 2)
  let arbR2w := u32 (arb v.tR2W + 1)
  let arbW2r := u32 (arb v.tW2R + 1)
  let byte (x : BitVec 32) := x &&& 0xFF
  let rCover := byte ((arbRap2pre + arbRp + arbRcd) / 2)
  let wCover := byte ((arbWap2pre + arbRp + arbRcd) / 2)
  [(1152, u32 (rateKhz / 33300 / 4)), (1156, arbRcd), (1157, arbRp), (1158, arbRc), (1159, u32 (arb v.tRAS - 2)),
    (1160, u32 (arb v.tFAW - 1)), (1161, u32 (arb v.tRRD - 1)), (1169, u32 (arb v.tRFCpb - 1)), (1162, arbRap2pre),
    (1163, arbWap2pre),
    -- `r2r` is left as it is unless it is over 1
    (1164, if 1 < word table 1164 then u32 (rext rateKhz / 4 + 1) else word table 1164), (1166, arbR2w), (1168, arbW2r),
    (1170, byte (arbR2w / 2) <<< 16 ||| byte (arbW2r / 2) <<< 24), (1171, arbRc / 2 ||| rCover <<< 8 ||| wCover <<< 16),
    (1172, word table 1172 &&& 0xFFE08000 ||| arbRc + 1)]

/-- `la_scale_regs`; the allowances of most clients are in the third byte, of some in the first or in both -/
def laScaleRegs (rateKhz : ℕ) : List (ℕ × BitVec 32) :=
  let u32 := BitVec.ofNat 32
  let scale := rateKhz / 1600000
  let allowance (x : ℕ) := u32 (x / (rateKhz / 0x3E8)) &&& 0xFF
  let high (i : ℕ) := (i, word table i &&& 0xFF00FFFF ||| allowance 0x32000 <<< 16)
  let low (i x : ℕ) := (i, word table i &&& 0xFFFFFF00 ||| allowance x)
  let both (i x : ℕ) := (i, allowance x ||| word table i &&& 0xFF00FF00 ||| allowance 0x32000 <<< 16)
  [(1185, u32 (min 227 (scale * 208))), (1186, u32 (min 31 (scale * 24))), (1187, u32 (min 6143 (scale * 4611))),
    high 1188, high 1189, high 1190, high 1192, high 1194, high 1193, high 1191, high 1196, high 1204, high 1197, high 1200,
    both 1208 0x32000, both 1201 0x9C40, both 1202 0x9C40, both 1205 0xB540, both 1203 0x9600,
    low 1198 0x8980, low 1199 0x32000, low 1206 0x32000]

/-- the writes in their order, as words of the table -/
def adjustWrites (cycles : ℕ → Cycles) (table : TableWords) : List (ℕ × BitVec 32) :=
  let rateKhz := (table rateField).toNat
  let v := cycles rateKhz
  (emcRegs C v table rateKhz).flatMap writeParamAllReg ++ mcRegs v table rateKhz ++ laScaleRegs table rateKhz ++
    [(1115, BitVec.ofNat 32 v.t_rp), (1117, BitVec.ofNat 32 v.t_rfc), (1226, 0x11083D),
      (17, BitVec.ofInt 32 (max 900 (min 1050 (900 + C.emcDvbShift * 25))))]

def memMtcTableAutoAdjust (cycles : ℕ → Cycles) (start : ℤ) (w : Words) : Words :=
  writes w start (adjustWrites C cycles (record mtcTableWords w start 0))

/-- the same for the words of the table -/
def adjustedTable (cycles : ℕ → Cycles) (table : TableWords) : TableWords :=
  (adjustWrites C cycles table).foldl setCell table

/-! ## The writes stay in the table -/

theorem emcRegs_lt (rateKhz : ℕ) : ∀ p ∈ emcRegs C v table rateKhz, p.1 < 221 := by
  simp [emcRegs]

theorem adjustWrites_bounds (cycles : ℕ → Cycles) :
    ∀ p ∈ adjustWrites C cycles table, rateField < p.1 ∧ p.1 < mtcTableWords := by
  have hrate : (rateField : ℕ) = 16 := rfl
  have hsize : mtcTableWords = 1232 := rfl
  rw [hrate, hsize]
  unfold adjustWrites
  simp only [List.forall_mem_append]
  refine ⟨⟨⟨?_, ?_⟩, ?_⟩, ?_⟩
  · intro p hp
    obtain ⟨q, hq, hp⟩ := List.mem_flatMap.1 hp
    have hlt := emcRegs_lt C _ table _ q hq
    simp only [writeParamAllReg, List.mem_cons, List.not_mem_nil, or_false] at hp
    rcases hp with rfl | rfl | rfl <;> exact ⟨by dsimp only; omega, by dsimp only; omega⟩
  · simp [mcRegs]
  · simp [laScaleRegs]
  · simp

/-- **An adjustment stays in its table**, follows from the table's own words and keeps its rate. -/
theorem memMtcTableAutoAdjust_adjusts (cycles : ℕ → Cycles) :
    AdjustsTable (memMtcTableAutoAdjust C cycles) (adjustedTable C cycles) := by
  constructor
  case table =>
    intro start w
    exact record_writes w start _
  case rate =>
    intro table
    exact setCells_of_ne (fun p hp => (adjustWrites_bounds C table cycles p hp).1.ne) table
  case frame =>
    intro start w
    exact frame_writes (fun p hp => (adjustWrites_bounds C _ cycles p hp).2) w start

end RyazhaClk.Loader.Erista
