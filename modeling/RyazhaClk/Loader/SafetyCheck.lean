/-
`SafetyCheck`, the validation that runs before any word of PCV is patched: it reads the last frequency of the DVFS
tables it looks at, checks fourteen values against their ranges, and aborts with the failing value's panic code.

- `check_iff`: what one validator accepts.
- `safetyCheck_ok_iff`: it passes exactly when the four tables it looks at have an entry and every validator accepts.
- `runValidators_error`: a failure carries the panic code of a validator that rejects its value.
- `safetyCheck_tables`: after it passes, the last entries of the four tables it looks at are in range as 32-bit numbers.
-/
import RyazhaClk.Loader.CustomizeTable

namespace RyazhaClk.Loader

/-! ## Panic codes and aborts -/

namespace Panic

def packCode (r g b : ℕ) : ℕ := (r &&& 0xF) <<< 8 ||| (g &&& 0xF) <<< 4 ||| (b &&& 0xF) <<< 0

def gpu : ℕ := packCode 0xF 0x7 0x0
def cpu : ℕ := packCode 0xF 0x0 0x0
def emc : ℕ := packCode 0x0 0xF 0xF
def patch : ℕ := packCode 0x8 0x0 0xF

end Panic

/-- how the loader ends when it does not go on -/
inductive Abort where
  /-- `panic::SmcError` with the code, then `CRASH` -/
  | panic (code : ℕ) (msg : String)
  /-- `GetDvfsTableLastEntry` of an empty table is dereferenced -/
  | nullDereference
deriving DecidableEq

/-- the results a patcher function fails with -/
inductive LdrResult where
  | invalidMemPllmEntry
  | invalidMtcTable
  | invalidDvbTable
  | invalidCpuFreqVddEntry
  | invalidCpuVoltDfllEntry
  | invalidCpuDvfs
  | invalidCpuMinVolt
  | invalidGpuDvfs
  | invalidGpuFreqMaxPattern
  | invalidGpuPllEntry
  | invalidRegulatorEntry
  | unsuccessfulPatcher
  | invalidMtcTablePattern
  | invalidSocVoltPattern
  | invalidSocVoltLimit
  /-- a result of the I2C session or of a system call, passed on -/
  | system (rc : ℕ)
deriving DecidableEq

/-! ## Validators -/

structure Validator where
  value : ℕ
  min : ℕ
  max : ℕ
  panic : ℕ
  valueRequired : Bool := false

def Validator.check (v : Validator) : Bool :=
  if !v.valueRequired && v.value = 0 then true
  else if v.min ≠ 0 && v.value < v.min then false
  else if v.max ≠ 0 && v.value > v.max then false
  else true

/-- a bound of 0 is no bound, and an absent value passes where none is required -/
theorem Validator.check_iff (v : Validator) :
    v.check = true ↔ (v.valueRequired = false ∧ v.value = 0) ∨
      ((v.min = 0 ∨ v.min ≤ v.value) ∧ (v.max = 0 ∨ v.value ≤ v.max)) := by
  unfold Validator.check
  by_cases habsent : v.valueRequired = false ∧ v.value = 0
  · simp [habsent]
  · rw [if_neg (by simpa using habsent)]
    constructor
    · intro h
      right
      by_cases hmin : v.min ≠ 0 ∧ v.value < v.min
      · rw [if_pos (by simpa using hmin)] at h
        exact absurd h (by decide)
      · rw [if_neg (by simpa using hmin)] at h
        by_cases hmax : v.max ≠ 0 ∧ v.value > v.max
        · rw [if_pos (by simpa using hmax)] at h
          exact absurd h (by decide)
        · omega
    · rintro (h | ⟨hmin, hmax⟩)
      · exact absurd h habsent
      · rw [if_neg (by simp; omega), if_neg (by simp; omega)]

variable (C : CustomizeTable)

/-- `GetDvfsTableLastEntry(table)->freq` cast to `u32` -/
def dvfsMaxFreq (table : List CvbEntry) : Except Abort ℕ :=
  match getDvfsTableLastEntry table with
  | none => .error .nullDereference
  | some e => .ok (e.freq % 2 ^ 32)

theorem dvfsMaxFreq_eq_ok_iff {table : List CvbEntry} {f : ℕ} :
    dvfsMaxFreq table = .ok f ↔ ∃ e, (dvfsEntries table).getLast? = some e ∧ e.freq % 2 ^ 32 = f := by
  rw [dvfsMaxFreq, getDvfsTableLastEntry_eq]
  cases (dvfsEntries table).getLast? <;> simp

/-- the CPU table `SafetyCheck` looks at on Mariko -/
def CustomizeTable.marikoCheckedCpuTable : List CvbEntry :=
  if C.marikoCpuUVHigh ≠ 0 then C.marikoCpuDvfsTableSLT.toList else C.marikoCpuDvfsTable.toList

/-- `GET_MAX_OF_ARR(erista::maxEmcClocks)` -/
def CustomizeTable.eristaMaxEmcClock : ℕ :=
  max C.eristaEmcMaxClock2 (max C.eristaEmcMaxClock1 C.eristaEmcMaxClock)

def validators (eristaCpuDvfsMaxFreq marikoCpuDvfsMaxFreq eristaGpuDvfsMaxFreq marikoGpuDvfsMaxFreq : ℕ) :
    List Validator :=
  [ ⟨C.eristaCpuBoostClock, 1020000, 2397000, Panic.cpu, true⟩,
    ⟨C.marikoCpuBoostClock, 1020000, 2703000, Panic.cpu, true⟩,
    ⟨C.eristaCpuMaxVolt, 1000, 1260, Panic.cpu, false⟩,
    ⟨C.marikoCpuMaxVolt, 1000, 1200, Panic.cpu, false⟩,
    ⟨eristaCpuDvfsMaxFreq, 1785000, 2397000, Panic.cpu, false⟩,
    ⟨marikoCpuDvfsMaxFreq, 1785000, 2703000, Panic.cpu, false⟩,
    ⟨C.commonEmcMemVolt, 912500, 1350000, Panic.emc, false⟩,
    ⟨C.eristaMaxEmcClock, 1600000, 2600000, Panic.emc, false⟩,
    ⟨C.marikoEmcMaxClock, 1600000, 3500000, Panic.emc, false⟩,
    ⟨C.marikoEmcVddqVolt, 400000, 750000, Panic.emc, false⟩,
    ⟨C.marikoSocVmax, 1000, 1200, Panic.emc, false⟩,
    ⟨eristaGpuDvfsMaxFreq, 768000, 1152000, Panic.gpu, false⟩,
    ⟨marikoGpuDvfsMaxFreq, 768000, 1536000, Panic.gpu, false⟩,
    ⟨C.marikoGpuVmax, 800, 960, Panic.gpu, false⟩ ]

/-- the first validator that fails panics -/
def runValidators : List Validator → Except Abort Unit
  | [] => .ok ()
  | v :: vs => if v.check then runValidators vs else .error (.panic v.panic "Validation FAIL")

def safetyCheck : Except Abort Unit := do
  let eristaCpuDvfsMaxFreq ← dvfsMaxFreq C.eristaCpuDvfsTable.toList
  let marikoCpuDvfsMaxFreq ← dvfsMaxFreq C.marikoCheckedCpuTable
  let eristaGpuDvfsMaxFreq ← dvfsMaxFreq C.eristaGpuTable
  let marikoGpuDvfsMaxFreq ← dvfsMaxFreq C.marikoGpuTable
  runValidators (validators C eristaCpuDvfsMaxFreq marikoCpuDvfsMaxFreq eristaGpuDvfsMaxFreq marikoGpuDvfsMaxFreq)

/-! ## What passing says -/

theorem runValidators_ok_iff (vs : List Validator) :
    runValidators vs = .ok () ↔ ∀ v ∈ vs, v.check = true := by
  induction vs with
  | nil => simp [runValidators]
  | cons v vs ih =>
    rw [runValidators]
    by_cases hv : v.check = true
    · simp [hv, ih]
    · simp [hv]

/-- a failing check names the panic code of a validator of the list -/
theorem runValidators_error {vs : List Validator} {a : Abort} (h : runValidators vs = .error a) :
    ∃ v ∈ vs, v.check = false ∧ a = .panic v.panic "Validation FAIL" := by
  induction vs with
  | nil => cases h
  | cons v vs ih =>
    rw [runValidators] at h
    by_cases hv : v.check = true
    · rw [if_pos hv] at h
      obtain ⟨w, hw, hfail, ha⟩ := ih h
      exact ⟨w, List.mem_cons_of_mem v hw, hfail, ha⟩
    · rw [if_neg hv] at h
      cases h
      exact ⟨v, List.mem_cons_self, by simpa using hv, rfl⟩

theorem safetyCheck_ok_iff :
    safetyCheck C = .ok () ↔ ∃ ec mc eg mg,
      dvfsMaxFreq C.eristaCpuDvfsTable.toList = .ok ec ∧ dvfsMaxFreq C.marikoCheckedCpuTable = .ok mc ∧
      dvfsMaxFreq C.eristaGpuTable = .ok eg ∧ dvfsMaxFreq C.marikoGpuTable = .ok mg ∧
      ∀ v ∈ validators C ec mc eg mg, v.check = true := by
  unfold safetyCheck
  cases hec : dvfsMaxFreq C.eristaCpuDvfsTable.toList with
  | error a => simp [bind, Except.bind]
  | ok ec =>
    cases hmc : dvfsMaxFreq C.marikoCheckedCpuTable with
    | error a => simp [bind, Except.bind]
    | ok mc =>
      cases heg : dvfsMaxFreq C.eristaGpuTable with
      | error a => simp [bind, Except.bind]
      | ok eg =>
        cases hmg : dvfsMaxFreq C.marikoGpuTable with
        | error a => simp [bind, Except.bind]
        | ok mg => simp [bind, Except.bind, runValidators_ok_iff]

/-- the last frequency of `table`, where it has 32 bits, is absent or within `lo` and `hi` -/
def LastFreqChecked (table : List CvbEntry) (lo hi : ℕ) : Prop :=
  ∃ e, (dvfsEntries table).getLast? = some e ∧ (e.freq % 2 ^ 32 = 0 ∨ (lo ≤ e.freq % 2 ^ 32 ∧ e.freq % 2 ^ 32 ≤ hi))

variable {C}

/-- the four tables a passing check has looked at -/
structure TablesChecked (C : CustomizeTable) : Prop where
  eristaCpu : LastFreqChecked C.eristaCpuDvfsTable.toList 1785000 2397000
  marikoCpu : LastFreqChecked C.marikoCheckedCpuTable 1785000 2703000
  eristaGpu : LastFreqChecked C.eristaGpuTable 768000 1152000
  marikoGpu : LastFreqChecked C.marikoGpuTable 768000 1536000

/-- an optional value between two real bounds -/
theorem optional_of_check {value lo hi : ℕ} (code : ℕ) (hlo : lo ≠ 0) (hhi : hi ≠ 0)
    (hv : (Validator.mk value lo hi code false).check = true) : value = 0 ∨ (lo ≤ value ∧ value ≤ hi) := by
  rcases (Validator.check_iff _).1 hv with ⟨-, habsent⟩ | ⟨hmin, hmax⟩
  · exact Or.inl habsent
  · exact Or.inr ⟨hmin.resolve_left hlo, hmax.resolve_left hhi⟩

theorem lastFreqChecked_of_check {table : List CvbEntry} {f lo hi : ℕ} (code : ℕ)
    (hf : dvfsMaxFreq table = .ok f) (hlo : lo ≠ 0) (hhi : hi ≠ 0)
    (hv : (Validator.mk f lo hi code false).check = true) : LastFreqChecked table lo hi := by
  obtain ⟨e, he, rfl⟩ := dvfsMaxFreq_eq_ok_iff.1 hf
  exact ⟨e, he, optional_of_check code hlo hhi hv⟩

theorem safetyCheck_tables (h : safetyCheck C = .ok ()) : TablesChecked C := by
  obtain ⟨ec, mc, eg, mg, hec, hmc, heg, hmg, hall⟩ := (safetyCheck_ok_iff C).1 h
  have hcpu (f lo hi) (hv : (⟨f, lo, hi, Panic.cpu, false⟩ : Validator) ∈ validators C ec mc eg mg) := hall _ hv
  have hgpu (f lo hi) (hv : (⟨f, lo, hi, Panic.gpu, false⟩ : Validator) ∈ validators C ec mc eg mg) := hall _ hv
  exact
    { eristaCpu := lastFreqChecked_of_check _ hec (by decide) (by decide) (hcpu _ _ _ (by simp [validators]))
      marikoCpu := lastFreqChecked_of_check _ hmc (by decide) (by decide) (hcpu _ _ _ (by simp [validators]))
      eristaGpu := lastFreqChecked_of_check _ heg (by decide) (by decide) (hgpu _ _ _ (by simp [validators]))
      marikoGpu := lastFreqChecked_of_check _ hmg (by decide) (by decide) (hgpu _ _ _ (by simp [validators])) }

/-- the memory maximum a passing check leaves: none, or between 1600 and 3500 MHz -/
theorem safetyCheck_marikoEmcMaxClock (h : safetyCheck C = .ok ()) :
    C.marikoEmcMaxClock = 0 ∨ (1600000 ≤ C.marikoEmcMaxClock ∧ C.marikoEmcMaxClock ≤ 3500000) := by
  obtain ⟨ec, mc, eg, mg, -, -, -, -, hall⟩ := (safetyCheck_ok_iff C).1 h
  have hv := hall ⟨C.marikoEmcMaxClock, 1600000, 3500000, Panic.emc, false⟩ (by simp [validators])
  exact optional_of_check Panic.emc (by decide) (by decide) hv

end RyazhaClk.Loader
