/-
Atomicity of the two patches. Of the thirty-three entries all but two validate their match before their first write, so
their failures leave the image alone. `EmcVddqVolt` writes the voltage before it sends it over I2C, and `SocVoltAsm`
writes its first instruction before it asks for the SoC speedo: when the system refuses, they fail behind a write.

- `Mariko.clean_of_ne`, `Erista.call_unchanged`: the other functions.
- `Mariko.emcVddqVolt_iff`, `Mariko.socVoltAsm_iff`: when exactly the two leave the image as they found it.
- `patchAtomic_iff`: a patch is atomic exactly when at each of their calls the system complied, or was not asked.
- `vddq_written_before_failure`: a regulator entry keeps the new voltage after a failed I2C transfer.
-/
import RyazhaClk.Loader.MarikoPatchers
import RyazhaClk.Loader.EristaPatchers

namespace RyazhaClk.Loader

open Validated

/-- a function that fails cleanly leaves the image alone -/
theorem words_eq_of_clean {x : PatchM Unit} (hx : Clean Failed x) {s s' : PcvState} {r : LdrResult}
    (h : x.exec s = (.error (.result r), s')) : s'.words = s.words := by
  have hs := hx.state_eq s (.result r) (by rw [h]) trivial
  rw [h] at hs
  exact congrArg PcvState.words hs

/-- the call of an entry that did not find its word -/
theorem searchAndApply_of_not_ok {e : PatcherEntry} {ptr : ℤ} {s : PcvState} (h : e.searchOk s.words ptr = false) :
    (e.searchAndApply ptr).exec s = (.error (.result .unsuccessfulPatcher), s) := by
  simp [PatcherEntry.searchAndApply, exec_bind, h]

theorem searchAndApply_of_ok {e : PatcherEntry} {ptr : ℤ} {s : PcvState} (h : e.searchOk s.words ptr = true) :
    (e.searchAndApply ptr).exec s = (e.patcherFn ptr).exec s := by
  simp [PatcherEntry.searchAndApply, exec_bind, h]

/-- a failure of `x` from `s` has changed no word -/
def FailsUnchanged (x : PatchM Unit) (s : PcvState) : Prop :=
  ∀ r s', x.exec s = (.error (.result r), s') → s'.words = s.words

theorem failsUnchanged_of_clean {x : PatchM Unit} (hx : Clean Failed x) (s : PcvState) : FailsUnchanged x s :=
  fun _ _ h => words_eq_of_clean hx h

theorem failsUnchanged_searchAndApply_iff (e : PatcherEntry) (ptr : ℤ) (s : PcvState) :
    FailsUnchanged (e.searchAndApply ptr) s ↔ (e.searchOk s.words ptr = true → FailsUnchanged (e.patcherFn ptr) s) := by
  rcases hok : e.searchOk s.words ptr with _ | _
  · refine iff_of_true ?_ fun h => absurd h (by decide)
    intro r s' h
    rw [searchAndApply_of_not_ok hok] at h
    rw [← (Prod.mk.inj h).2]
  · unfold FailsUnchanged
    rw [searchAndApply_of_ok hok]
    simp

theorem call_unchanged_iff {entries : List PatcherEntry} {call : Call} (h : CallSpec entries call) :
    (call.Fails → call.Unchanged) ↔ FailsUnchanged (call.entry.searchAndApply call.ptr) call.before := by
  unfold FailsUnchanged
  rw [h.exec]
  constructor
  · intro hcall r s' heq
    obtain ⟨hout, hafter⟩ := Prod.mk.inj heq
    rw [← hafter]
    exact hcall ⟨r, hout⟩
  · rintro hcall ⟨r, hout⟩
    exact hcall r call.after (by rw [hout])

namespace Mariko

variable (C : CustomizeTable) (env : PcvEnv)

/-! ## The two functions that go on to the system -/

/-- the transfer went through, was not made, or the voltage is the stock one the word already holds -/
def VddqSafe (w : Words) (ptr : ℤ) : Prop :=
  validVddqRegulator w ptr = true → C.marikoEmcVddqVolt ≠ 0 → vddqI2c C env ptr ≠ none →
    w ptr = BitVec.ofNat 32 (roundVddq C.marikoEmcVddqVolt)

theorem emcVddqVolt_iff (ptr : ℤ) (s : PcvState) :
    FailsUnchanged (emcVddqVolt C env ptr) s ↔ VddqSafe C env s.words ptr := by
  unfold FailsUnchanged VddqSafe
  rcases hvalid : validVddqRegulator s.words ptr with _ | _
  · simp [emcVddqVolt, exec_bind, rUnless, hvalid]
  · by_cases hset : C.marikoEmcVddqVolt = 0
    · simp [emcVddqVolt, exec_bind, rUnless, hvalid, hset]
    · rcases hi2c : vddqI2c C env ptr with _ | rc
      · simp [emcVddqVolt, exec_bind, rUnless, hvalid, hset, hi2c]
      · have hexec : (emcVddqVolt C env ptr).exec s = (.error (.result (.system rc)),
            { s with words := Function.update s.words ptr (BitVec.ofNat 32 (roundVddq C.marikoEmcVddqVolt)) }) := by
          simp [emcVddqVolt, exec_bind, rUnless, hvalid, hset, hi2c]
        rw [hexec]
        constructor
        · intro h _ _ _
          have hword : Function.update s.words ptr _ ptr = s.words ptr := congrFun (h _ _ rfl) ptr
          rw [Function.update_self] at hword
          exact hword.symm
        · intro h r s' heq
          rw [← (Prod.mk.inj heq).2, Function.update_eq_self_iff, h rfl hset (by simp)]

/-- the comparison that is found compares with 1598, so raising it to 2200 changes it -/
theorem asmSubsSetImm12_ne {w : Words} {ptr : ℤ} (h : socVoltPatternFn w ptr = true) :
    asmSubsSetImm12 (w ptr) 2200 ≠ w ptr := by
  intro heq
  have hxor : (w ptr ^^^ socVoltCompareSpeedoAsm) >>> 5 = 0 := by
    simpa [socVoltPatternFn, asmCompareNoRd] using h
  have hbit := congrArg (fun b : BitVec 32 => b.getLsbD 16) hxor
  have hset := congrArg (fun b : BitVec 32 => b.getLsbD 21) heq
  simp only [asmSubsSetImm12, BitVec.getLsbD_or, BitVec.getLsbD_and, BitVec.getLsbD_ushiftRight, BitVec.getLsbD_xor]
    at hbit hset
  have hpattern : socVoltCompareSpeedoAsm.getLsbD (5 + 16) = false := by decide
  have hclear : (~~~(0xFFF#32 <<< 10)).getLsbD 21 = false := by decide
  have hnew : ((BitVec.setWidth 32 (2200 : BitVec 16) &&& 0xFFF#32) <<< 10).getLsbD 21 = true := by decide
  rw [hpattern] at hbit
  rw [hclear, hnew] at hset
  simp at hbit hset
  rw [hbit] at hset
  exact Bool.noConfusion hset

/-- the speedo was read, or nothing before asked for it -/
def SocSafe (s : PcvState) (compareSpeedos : ℤ) : Prop :=
  (∃ sites, (findSocVoltSites compareSpeedos).exec s = (.ok sites, s)) → 1000 < C.marikoSocVmax →
    ∃ virtualAddress, env.svcQueryMemoryMapping compareSpeedos = .ok virtualAddress

theorem socVoltAsm_iff {ptr : ℤ} {s : PcvState} (h : socVoltPatternFn s.words ptr = true) :
    FailsUnchanged (socVoltAsm C env ptr) s ↔ SocSafe C env s ptr := by
  unfold FailsUnchanged SocSafe
  rcases hfind : (findSocVoltSites ptr).exec s with ⟨found, s1⟩
  have hs1 : s1 = s := by
    have hread := (inferInstance : ReadOnly (findSocVoltSites ptr)).state_eq s
    rwa [hfind] at hread
  subst hs1
  cases found with
  | error e =>
    simp [socVoltAsm, exec_bind, hfind]
  | ok sites =>
    by_cases hvmax : C.marikoSocVmax = 0 ∨ C.marikoSocVmax ≤ 1000
    · have hexec : (socVoltAsm C env ptr).exec s1 = (.ok (), s1) := by
        simp only [socVoltAsm, exec_bind, exec_image, hfind, if_pos hvmax, exec_pure]
      rw [hexec]
      refine iff_of_true ?_ fun _ hlt => absurd hlt (by omega)
      intro r s' heq
      exact absurd (Prod.mk.inj heq).1 (by simp)
    · have hlt : 1000 < C.marikoSocVmax := by omega
      rcases hquery : env.svcQueryMemoryMapping ptr with rc | addr
      · have hexec : (socVoltAsm C env ptr).exec s1 = (.error (.result (.system rc)),
            { s1 with words := Function.update s1.words ptr (asmSubsSetImm12 (s1.words ptr) 2200) }) := by
          simp [socVoltAsm, exec_bind, hfind, hvmax, getSocSpeedo, hquery]
        rw [hexec]
        refine iff_of_false ?_ ?_
        · intro hclaim
          have hword : Function.update s1.words ptr _ ptr = s1.words ptr := congrFun (hclaim _ _ rfl) ptr
          rw [Function.update_self] at hword
          exact asmSubsSetImm12_ne h hword
        · intro hclaim
          obtain ⟨addr, haddr⟩ := hclaim ⟨sites, rfl⟩ hlt
          cases haddr
      · simp [socVoltAsm, exec_bind, hfind, hvmax, getSocSpeedo, hquery]

/-! ## All the others -/

theorem clean_of_ne {newEmcList : List ℕ} {e : PatcherEntry} (he : e ∈ entries C env newEmcList)
    (hvddq : e.description ≠ "MEM Vddq") (hsoc : e.description ≠ "SOC Volt Asm") (ptr : ℤ) :
    Clean Failed (e.patcherFn ptr) := by
  have hall : ∀ e ∈ entries C env newEmcList, e.description ≠ "MEM Vddq" → e.description ≠ "SOC Volt Asm" →
      ∀ ptr, Clean Failed (e.patcherFn ptr) := by
    simp only [entries, List.forall_mem_cons]
    refine ⟨?_, ?_, ?_, ?_, ?_, ?_, ?_, ?_, ?_, ?_, ?_, ?_, ?_, ?_, ?_, ?_, ?_, ?_, ?_, ?_, by simp⟩
    case refine_16 => exact fun h => absurd rfl h
    case refine_19 => exact fun _ h => absurd rfl h
    all_goals
      intro _ _ ptr
      infer_instance
  exact hall e he hvddq hsoc ptr

theorem entry_vddq {newEmcList : List ℕ} {e : PatcherEntry} (he : e ∈ entries C env newEmcList)
    (h : e.description = "MEM Vddq") : e.patcherFn = emcVddqVolt C env ∧ e.searchOk = fun w ptr => decide (600000 = w ptr) := by
  have hall : ∀ e ∈ entries C env newEmcList, e.description = "MEM Vddq" →
      e.patcherFn = emcVddqVolt C env ∧ e.searchOk = fun w ptr => decide (600000 = w ptr) := by
    simp [entries]
    rfl
  exact hall e he h

theorem entry_soc {newEmcList : List ℕ} {e : PatcherEntry} (he : e ∈ entries C env newEmcList)
    (h : e.description = "SOC Volt Asm") : e.patcherFn = socVoltAsm C env ∧ e.searchOk = socVoltPatternFn := by
  have hall : ∀ e ∈ entries C env newEmcList, e.description = "SOC Volt Asm" →
      e.patcherFn = socVoltAsm C env ∧ e.searchOk = socVoltPatternFn := by
    simp [entries]
    rfl
  exact hall e he h

/-- at a call that found its word, the system complied -/
structure DeviceSafe (call : Call) : Prop where
  vddq : call.entry.description = "MEM Vddq" → 600000 = call.before.words call.ptr →
    VddqSafe C env call.before.words call.ptr
  soc : call.entry.description = "SOC Volt Asm" → socVoltPatternFn call.before.words call.ptr = true →
    SocSafe C env call.before call.ptr

variable {C env}

theorem call_unchanged_iff {newEmcList : List ℕ} {call : Call} (h : CallSpec (entries C env newEmcList) call) :
    (call.Fails → call.Unchanged) ↔ DeviceSafe C env call := by
  obtain ⟨e, he, hfresh⟩ := List.mem_map.1 (List.mem_of_getElem? h.entry)
  have hdesc : e.description = call.entry.description := (congrArg PatcherEntry.description hfresh :)
  have hpatch : e.patcherFn = call.entry.patcherFn := (congrArg PatcherEntry.patcherFn hfresh :)
  have hsearch : e.searchOk = call.entry.searchOk := (congrArg PatcherEntry.searchOk hfresh :)
  rw [Loader.call_unchanged_iff h, failsUnchanged_searchAndApply_iff]
  by_cases hvddq : e.description = "MEM Vddq"
  · obtain ⟨hfn, hok⟩ := entry_vddq C env he hvddq
    rw [← hpatch, ← hsearch, hfn, hok, emcVddqVolt_iff, decide_eq_true_eq]
    constructor
    · intro hcall
      refine ⟨fun _ => hcall, fun hd => ?_⟩
      rw [← hdesc, hvddq] at hd
      exact absurd hd (by decide)
    · intro hsafe
      exact hsafe.vddq (hdesc ▸ hvddq)
  · by_cases hsoc : e.description = "SOC Volt Asm"
    · obtain ⟨hfn, hok⟩ := entry_soc C env he hsoc
      rw [← hpatch, ← hsearch, hfn, hok]
      constructor
      · intro hcall
        refine ⟨fun hd => absurd (hdesc.trans hd) hvddq, fun _ hpattern => ?_⟩
        exact (socVoltAsm_iff C env hpattern).1 (hcall hpattern)
      · intro hsafe hpattern
        exact (socVoltAsm_iff C env hpattern).2 (hsafe.soc (hdesc ▸ hsoc) hpattern)
    · refine iff_of_true ?_ ⟨fun hd => absurd (hdesc.trans hd) hvddq, fun hd => absurd (hdesc.trans hd) hsoc⟩
      rw [← hpatch]
      exact fun _ => failsUnchanged_of_clean (clean_of_ne C env he hvddq hsoc call.ptr) _

end Mariko

/-! ## Erista -/

namespace Erista

/-- the sorted maxima stay behind a failure, the image does not change -/
theorem memFreqMtcTable_unchanged (env : PcvEnv) (ptr : ℤ) (s : PcvState) :
    FailsUnchanged (memFreqMtcTable env ptr) s := by
  intro r s' h
  have hsorted : (memFreqMtcTable env ptr).exec s = (memFreqMtcTableSorted env ptr).exec
      { s with maxEmcClocks := s.maxEmcClocks.mergeSort (· ≤ ·) } := by
    simp [memFreqMtcTable, sortClocks, exec_bind]
  rw [hsorted] at h
  have hclean : Clean Failed (memFreqMtcTableSorted env ptr) := inferInstance
  exact (words_eq_of_clean hclean h :)

theorem call_unchanged {C : CustomizeTable} {env : PcvEnv} {call : Call} (h : CallSpec (entries C env) call) :
    call.Fails → call.Unchanged := by
  obtain ⟨e, he, hfresh⟩ := List.mem_map.1 (List.mem_of_getElem? h.entry)
  have hpatch : e.patcherFn = call.entry.patcherFn := (congrArg PatcherEntry.patcherFn hfresh :)
  have hall : ∀ e ∈ entries C env, ∀ ptr s, FailsUnchanged (e.patcherFn ptr) s := by
    simp only [entries, List.forall_mem_cons]
    refine ⟨?_, ?_, ?_, ?_, ?_, ?_, ?_, ?_, ?_, ?_, ?_, ?_, ?_, by simp⟩
    case refine_10 => exact memFreqMtcTable_unchanged env
    all_goals
      intro ptr s
      exact failsUnchanged_of_clean inferInstance s
  rw [Loader.call_unchanged_iff h, failsUnchanged_searchAndApply_iff, ← hpatch]
  exact fun _ => hall e he call.ptr call.before

end Erista

/-! ## Both patches -/

/-- `Patch` of the SoC; `none` when the frequency list is never finished -/
def patchOf (isMariko : Bool) (C : CustomizeTable) (env : PcvEnv) (nsoSize : ℕ) (s : PcvState) : Option Run :=
  if isMariko then Mariko.patch C env nsoSize s else some (Erista.patch C env nsoSize s)

variable {C : CustomizeTable} {env : PcvEnv} {nsoSize : ℕ} {s : PcvState} {run : Run}

/-- **a patch is atomic exactly when the system complied at every call of the two functions** -/
theorem patchAtomic_iff {isMariko : Bool} (h : patchOf isMariko C env nsoSize s = some run) :
    PatchAtomic run ↔ ∀ call ∈ run.calls, isMariko = true → Mariko.DeviceSafe C env call := by
  cases isMariko with
  | true =>
    rw [patchOf, if_pos rfl, Mariko.patch, Option.map_eq_some_iff] at h
    obtain ⟨newEmcList, -, rfl⟩ := h
    have hfresh : ∀ e ∈ Mariko.entries C env newEmcList, e.patchedCount = 0 := by simp [Mariko.entries]
    rw [patch_atomic_iff (scanPositions_nodup _ _) hfresh]
    simp only [forall_const]
    refine forall_congr' fun call => ?_
    constructor
    · intro hcall hmem
      exact (Mariko.call_unchanged_iff (call_spec hmem)).1 (hcall hmem)
    · intro hsafe hmem
      exact (Mariko.call_unchanged_iff (call_spec hmem)).2 (hsafe hmem)
  | false =>
    rw [patchOf, if_neg Bool.false_ne_true, Option.some.injEq] at h
    subst h
    have hfresh : ∀ e ∈ Erista.entries C env, e.patchedCount = 0 := by simp [Erista.entries]
    refine iff_of_true ?_ fun _ _ hm => absurd hm Bool.false_ne_true
    exact (patch_atomic_iff (scanPositions_nodup _ _) hfresh).2 fun call hmem => Erista.call_unchanged (call_spec hmem)

/-! ## A refused transfer -/

/-- the I2C session does not open and the fuses are not mapped -/
def refusingEnv : PcvEnv where
  dramId := 8
  i2cOpenSession := fun _ => some 1
  i2csessionSendAuto := fun _ _ _ => none
  svcQueryMemoryMapping := fun _ => .error 1
  readWord := fun _ => 0
  marikoAdjust := fun _ w => w
  eristaAdjust := fun _ w => w

/-- the regulator of the memory's second voltage at the start of the NSO, its stock voltage in word 11 -/
def vddqImage : Words := fun p =>
  if p = 0 then 2 else if p = 4 then 3 else if p = 6 then 5000 else if p = 8 then 250000 else if p = 11 then 600000 else 0

def vddqState : PcvState := ⟨vddqImage, []⟩

/-- with the stock voltages configured nothing is changed, whatever the system answers -/
theorem sampleCustomize_atomic :
    ∃ run, patchOf true sampleCustomize refusingEnv 4344 vddqState = some run ∧ PatchAtomic run := by
  have hrun : patchOf true sampleCustomize refusingEnv 4344 vddqState = some _ := rfl
  refine ⟨_, hrun, (patchAtomic_iff hrun).2 ?_⟩
  intro call _ _
  refine ⟨fun _ hfound _ _ _ => ?_, fun _ _ _ hvmax => absurd hvmax (by decide)⟩
  rw [← hfound]
  decide

/-- a failure that has changed the word at `ptr` -/
def Call.failedChanging (call : Call) (ptr : ℤ) : Bool :=
  match call.outcome with
  | .error (.result _) => call.after.words ptr ≠ call.before.words ptr
  | _ => false

theorem Call.not_unchanged {call : Call} {ptr : ℤ} (h : call.failedChanging ptr = true) :
    call.Fails ∧ ¬ call.Unchanged := by
  unfold Call.failedChanging at h
  split at h
  · rename_i r hr
    refine ⟨⟨r, hr⟩, fun hsame => ?_⟩
    rw [hsame] at h
    simp at h
  · cases h

/-- 650 mV is configured and cannot be sent: the function fails, the image keeps 650 mV -/
theorem vddq_written_before_failure :
    ¬ ∀ (isMariko : Bool) (C : CustomizeTable) (env : PcvEnv) (nsoSize : ℕ) (s : PcvState) (run : Run),
      patchOf isMariko C env nsoSize s = some run → PatchAtomic run := by
  intro hclaim
  have hany : (patchOf true { sampleCustomize with marikoEmcVddqVolt := 650000 } refusingEnv 4344 vddqState).any
      (fun run => run.calls.any fun call => call.failedChanging 11) = true := by
    decide +kernel
  rcases hrun : patchOf true { sampleCustomize with marikoEmcVddqVolt := 650000 } refusingEnv 4344 vddqState with _ | run
  · rw [hrun] at hany
    cases hany
  · rw [hrun, Option.any_some, List.any_eq_true] at hany
    obtain ⟨call, hcall, hchanged⟩ := hany
    obtain ⟨hfails, hne⟩ := Call.not_unchanged hchanged
    exact hne ((hclaim _ _ _ _ _ run hrun).failure_unchanged call hcall hfails)

end RyazhaClk.Loader
