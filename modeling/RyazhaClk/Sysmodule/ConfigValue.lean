/-
The configuration keys of the sysmodule, in the order of the source's enumeration: the keys of the clock manager first,
then the keys that mirror the fields of the loader's table (`custRev` to `t7_tWTR_fine_tune`), then its checksum.

- `hocclkFormatConfigValue`: the key's name in the configuration file.
- `hocclkDefaultConfigValue`, `hocclkValidConfigValue`: the default and the check of every value read or written.
- `hocclkDefaultConfigValue_valid`: every default passes its own check.
-/
import Mathlib.Tactic

namespace RyazhaClk

inductive HocClkConfigValue where
  | pollingIntervalMs
  | tempLogIntervalMs
  | freqLogIntervalMs
  | powerLogIntervalMs
  | csvWriteIntervalMs
  | uncappedClocks
  | overwriteBoostMode
  | eristaMaxCpuClock
  | marikoMaxCpuClock
  | thermalThrottle
  | thermalThrottleThreshold
  | handheldTDP
  | handheldTDPLimit
  | liteTDPLimit
  | batteryChargeCurrent
  | overwriteRefreshRate
  | maxDisplayClockH
  | dvfsMode
  | dvfsOffset
  | liveCpuUv
  | enableExperimentalSettings
  | gpuScheduling
  | gpuSchedulingMethod
  | ramVoltDisplayMode
  | cpuGovernorMinimumFreq
  | displayVoltage
  | memoryFrequencyMeasurementMode
  | ramDisplayUnit
  | isFirstLoad
  | aulaDisplayColorPreset
  | marikoMiddleFreqs
  | custRev
  | kipVersion
  | hpMode
  | commonEmcMemVolt
  | eristaEmcMaxClock
  | stepMode
  | marikoEmcMaxClock
  | marikoEmcVddqVolt
  | emcDvbShift
  | marikoSocVmax
  | t1_tRCD
  | t2_tRP
  | t3_tRAS
  | t4_tRRD
  | t5_tRFC
  | t6_tRTW
  | t7_tWTR
  | t8_tREFI
  | timingEmcTbreak
  | low_t6_tRTW
  | low_t7_tWTR
  | t2_tRP_cap
  | read_latency_1333
  | read_latency_1600
  | read_latency_1866
  | read_latency_2133
  | write_latency_1333
  | write_latency_1600
  | write_latency_1866
  | write_latency_2133
  | eristaCpuUV
  | eristaCpuVmin
  | eristaCpuMaxVolt
  | eristaCpuUnlock
  | marikoCpuUVLow
  | marikoCpuUVHigh
  | tableConf
  | marikoCpuLowVmin
  | marikoCpuHighVmin
  | marikoCpuMaxVolt
  | marikoCpuMaxClock
  | eristaCpuBoostClock
  | marikoCpuBoostClock
  | eristaGpuUV
  | eristaGpuVmin
  | marikoGpuUV
  | marikoGpuVmin
  | marikoGpuBootVolt
  | marikoGpuVmax
  | commonGpuVoltOffset
  | g_volt_76800
  | g_volt_153600
  | g_volt_230400
  | g_volt_307200
  | g_volt_384000
  | g_volt_460800
  | g_volt_537600
  | g_volt_614400
  | g_volt_691200
  | g_volt_768000
  | g_volt_844800
  | g_volt_921600
  | g_volt_998400
  | g_volt_1075200
  | g_volt_1152000
  | g_volt_1228800
  | g_volt_1267200
  | g_volt_1305600
  | g_volt_1344000
  | g_volt_1382400
  | g_volt_1420800
  | g_volt_1459200
  | g_volt_1497600
  | g_volt_1536000
  | g_volt_e_76800
  | g_volt_e_115200
  | g_volt_e_153600
  | g_volt_e_192000
  | g_volt_e_230400
  | g_volt_e_268800
  | g_volt_e_307200
  | g_volt_e_345600
  | g_volt_e_384000
  | g_volt_e_422400
  | g_volt_e_460800
  | g_volt_e_499200
  | g_volt_e_537600
  | g_volt_e_576000
  | g_volt_e_614400
  | g_volt_e_652800
  | g_volt_e_691200
  | g_volt_e_729600
  | g_volt_e_768000
  | g_volt_e_806400
  | g_volt_e_844800
  | g_volt_e_883200
  | g_volt_e_921600
  | g_volt_e_960000
  | g_volt_e_998400
  | g_volt_e_1036800
  | g_volt_e_1075200
  | t6_tRTW_fine_tune
  | t7_tWTR_fine_tune
  | kipCrc32
deriving DecidableEq

namespace HocClkConfigValue

/-- the keys in enumerator order -/
def all : List HocClkConfigValue :=
  [.pollingIntervalMs, .tempLogIntervalMs, .freqLogIntervalMs, .powerLogIntervalMs, .csvWriteIntervalMs,
   .uncappedClocks, .overwriteBoostMode, .eristaMaxCpuClock, .marikoMaxCpuClock, .thermalThrottle,
   .thermalThrottleThreshold, .handheldTDP, .handheldTDPLimit, .liteTDPLimit, .batteryChargeCurrent,
   .overwriteRefreshRate, .maxDisplayClockH, .dvfsMode, .dvfsOffset, .liveCpuUv, .enableExperimentalSettings,
   .gpuScheduling, .gpuSchedulingMethod, .ramVoltDisplayMode, .cpuGovernorMinimumFreq, .displayVoltage,
   .memoryFrequencyMeasurementMode, .ramDisplayUnit, .isFirstLoad, .aulaDisplayColorPreset, .marikoMiddleFreqs,
   .custRev, .kipVersion, .hpMode, .commonEmcMemVolt, .eristaEmcMaxClock, .stepMode, .marikoEmcMaxClock,
   .marikoEmcVddqVolt, .emcDvbShift, .marikoSocVmax, .t1_tRCD, .t2_tRP, .t3_tRAS, .t4_tRRD, .t5_tRFC, .t6_tRTW,
   .t7_tWTR, .t8_tREFI, .timingEmcTbreak, .low_t6_tRTW, .low_t7_tWTR, .t2_tRP_cap, .read_latency_1333,
   .read_latency_1600, .read_latency_1866, .read_latency_2133, .write_latency_1333, .write_latency_1600,
   .write_latency_1866, .write_latency_2133, .eristaCpuUV, .eristaCpuVmin, .eristaCpuMaxVolt, .eristaCpuUnlock,
   .marikoCpuUVLow, .marikoCpuUVHigh, .tableConf, .marikoCpuLowVmin, .marikoCpuHighVmin, .marikoCpuMaxVolt,
   .marikoCpuMaxClock, .eristaCpuBoostClock, .marikoCpuBoostClock, .eristaGpuUV, .eristaGpuVmin, .marikoGpuUV,
   .marikoGpuVmin, .marikoGpuBootVolt, .marikoGpuVmax, .commonGpuVoltOffset, .g_volt_76800, .g_volt_153600,
   .g_volt_230400, .g_volt_307200, .g_volt_384000, .g_volt_460800, .g_volt_537600, .g_volt_614400, .g_volt_691200,
   .g_volt_768000, .g_volt_844800, .g_volt_921600, .g_volt_998400, .g_volt_1075200, .g_volt_1152000, .g_volt_1228800,
   .g_volt_1267200, .g_volt_1305600, .g_volt_1344000, .g_volt_1382400, .g_volt_1420800, .g_volt_1459200,
   .g_volt_1497600, .g_volt_1536000, .g_volt_e_76800, .g_volt_e_115200, .g_volt_e_153600, .g_volt_e_192000,
   .g_volt_e_230400, .g_volt_e_268800, .g_volt_e_307200, .g_volt_e_345600, .g_volt_e_384000, .g_volt_e_422400,
   .g_volt_e_460800, .g_volt_e_499200, .g_volt_e_537600, .g_volt_e_576000, .g_volt_e_614400, .g_volt_e_652800,
   .g_volt_e_691200, .g_volt_e_729600, .g_volt_e_768000, .g_volt_e_806400, .g_volt_e_844800, .g_volt_e_883200,
   .g_volt_e_921600, .g_volt_e_960000, .g_volt_e_998400, .g_volt_e_1036800, .g_volt_e_1075200, .t6_tRTW_fine_tune,
   .t7_tWTR_fine_tune, .kipCrc32]

end HocClkConfigValue

/-- the name of a key in the configuration file (`hocclkFormatConfigValue` without the pretty names) -/
def hocclkFormatConfigValue : HocClkConfigValue → String
  | .pollingIntervalMs => "poll_interval_ms"
  | .tempLogIntervalMs => "temp_log_interval_ms"
  | .freqLogIntervalMs => "freq_log_interval_ms"
  | .powerLogIntervalMs => "power_log_interval_ms"
  | .csvWriteIntervalMs => "csv_write_interval_ms"
  | .uncappedClocks => "uncapped_clocks"
  | .overwriteBoostMode => "ow_boost"
  | .eristaMaxCpuClock => "cpu_max_e"
  | .marikoMaxCpuClock => "cpu_max_m"
  | .thermalThrottle => "thermal_throttle"
  | .thermalThrottleThreshold => "thermal_throttle_threshold"
  | .handheldTDP => "handheld_tdp"
  | .handheldTDPLimit => "tdp_limit"
  | .liteTDPLimit => "tdp_limit_l"
  | .batteryChargeCurrent => "bat_charge_current"
  | .overwriteRefreshRate => "drr_changing"
  | .maxDisplayClockH => "drr_max_clock"
  | .dvfsMode => "dvfs_mode"
  | .dvfsOffset => "dvfs_offset"
  | .liveCpuUv => "live_cpu_uv"
  | .enableExperimentalSettings => "enable_experimental_settings"
  | .gpuScheduling => "gpu_scheduling"
  | .gpuSchedulingMethod => "gpu_sched_method"
  | .ramVoltDisplayMode => "ram_volt_usage_display_mode"
  | .cpuGovernorMinimumFreq => "cpu_gov_min_freq"
  | .displayVoltage => "display_voltage"
  | .memoryFrequencyMeasurementMode => "mem_freq_measurement_mode"
  | .ramDisplayUnit => "RAM_display_unit"
  | .isFirstLoad => "is_first_load"
  | .aulaDisplayColorPreset => "aula_color_preset"
  | .marikoMiddleFreqs => "mariko_middle_freqs"
  | .custRev => "kip_cust_rev"
  | .kipVersion => "kip_version"
  | .hpMode => "kip_hp_mode"
  | .commonEmcMemVolt => "common_emc_mem_volt"
  | .eristaEmcMaxClock => "erista_emc_max_clock2"
  | .stepMode => "step_mode"
  | .marikoEmcMaxClock => "mariko_emc_max_clock"
  | .marikoEmcVddqVolt => "mariko_emc_vddq_volt"
  | .emcDvbShift => "emc_dvb_shift"
  | .marikoSocVmax => "soc_vmax"
  | .t1_tRCD => "t1_trcd"
  | .t2_tRP => "t2_trp"
  | .t3_tRAS => "t3_tras"
  | .t4_tRRD => "t4_trrd"
  | .t5_tRFC => "t5_trfc"
  | .t6_tRTW => "t6_trtw"
  | .t7_tWTR => "t7_twtr"
  | .t8_tREFI => "t8_trefi"
  | .timingEmcTbreak => "timingEmcTbreak"
  | .low_t6_tRTW => "low_t6_tRTW"
  | .low_t7_tWTR => "low_t7_tWTR"
  | .t2_tRP_cap => "t2_tRP_cap"
  | .read_latency_1333 => "read_latency_1333"
  | .read_latency_1600 => "read_latency_1600"
  | .read_latency_1866 => "read_latency_1866"
  | .read_latency_2133 => "read_latency_2133"
  | .write_latency_1333 => "write_latency_1333"
  | .write_latency_1600 => "write_latency_1600"
  | .write_latency_1866 => "write_latency_1866"
  | .write_latency_2133 => "write_latency_2133"
  | .eristaCpuUV => "erista_cpu_uv"
  | .eristaCpuVmin => "erista_cpu_vmin"
  | .eristaCpuMaxVolt => "erista_cpu_max_volt"
  | .eristaCpuUnlock => "erista_cpu_unlock"
  | .marikoCpuUVLow => "mariko_cpu_uv_low"
  | .marikoCpuUVHigh => "mariko_cpu_uv_high"
  | .tableConf => "kip_table_conf"
  | .marikoCpuLowVmin => "mariko_cpu_low_vmin"
  | .marikoCpuHighVmin => "mariko_cpu_high_vmin"
  | .marikoCpuMaxVolt => "mariko_cpu_max_volt"
  | .marikoCpuMaxClock => "mariko_cpu_max_clock"
  | .eristaCpuBoostClock => "erista_cpu_boost_clock"
  | .marikoCpuBoostClock => "mariko_cpu_boost_clock"
  | .eristaGpuUV => "erista_gpu_uv"
  | .eristaGpuVmin => "erista_gpu_vmin"
  | .marikoGpuUV => "mariko_gpu_uv"
  | .marikoGpuVmin => "mariko_gpu_vmin"
  | .marikoGpuBootVolt => "mariko_gpu_boot_volt"
  | .marikoGpuVmax => "mariko_gpu_vmax"
  | .commonGpuVoltOffset => "common_gpu_volt_offset"
  | .g_volt_76800 => "g_volt_76800"
  | .g_volt_153600 => "g_volt_153600"
  | .g_volt_230400 => "g_volt_230400"
  | .g_volt_307200 => "g_volt_307200"
  | .g_volt_384000 => "g_volt_384000"
  | .g_volt_460800 => "g_volt_460800"
  | .g_volt_537600 => "g_volt_537600"
  | .g_volt_614400 => "g_volt_614400"
  | .g_volt_691200 => "g_volt_691200"
  | .g_volt_768000 => "g_volt_768000"
  | .g_volt_844800 => "g_volt_844800"
  | .g_volt_921600 => "g_volt_921600"
  | .g_volt_998400 => "g_volt_998400"
  | .g_volt_1075200 => "g_volt_1075200"
  | .g_volt_1152000 => "g_volt_1152000"
  | .g_volt_1228800 => "g_volt_1228800"
  | .g_volt_1267200 => "g_volt_1267200"
  | .g_volt_1305600 => "g_volt_1305600"
  | .g_volt_1344000 => "g_volt_1344000"
  | .g_volt_1382400 => "g_volt_1382400"
  | .g_volt_1420800 => "g_volt_1420800"
  | .g_volt_1459200 => "g_volt_1459200"
  | .g_volt_1497600 => "g_volt_1497600"
  | .g_volt_1536000 => "g_volt_1536000"
  | .g_volt_e_76800 => "g_volt_e_76800"
  | .g_volt_e_115200 => "g_volt_e_115200"
  | .g_volt_e_153600 => "g_volt_e_153600"
  | .g_volt_e_192000 => "g_volt_e_192000"
  | .g_volt_e_230400 => "g_volt_e_230400"
  | .g_volt_e_268800 => "g_volt_e_268800"
  | .g_volt_e_307200 => "g_volt_e_307200"
  | .g_volt_e_345600 => "g_volt_e_345600"
  | .g_volt_e_384000 => "g_volt_e_384000"
  | .g_volt_e_422400 => "g_volt_e_422400"
  | .g_volt_e_460800 => "g_volt_e_460800"
  | .g_volt_e_499200 => "g_volt_e_499200"
  | .g_volt_e_537600 => "g_volt_e_537600"
  | .g_volt_e_576000 => "g_volt_e_576000"
  | .g_volt_e_614400 => "g_volt_e_614400"
  | .g_volt_e_652800 => "g_volt_e_652800"
  | .g_volt_e_691200 => "g_volt_e_691200"
  | .g_volt_e_729600 => "g_volt_e_729600"
  | .g_volt_e_768000 => "g_volt_e_768000"
  | .g_volt_e_806400 => "g_volt_e_806400"
  | .g_volt_e_844800 => "g_volt_e_844800"
  | .g_volt_e_883200 => "g_volt_e_883200"
  | .g_volt_e_921600 => "g_volt_e_921600"
  | .g_volt_e_960000 => "g_volt_e_960000"
  | .g_volt_e_998400 => "g_volt_e_998400"
  | .g_volt_e_1036800 => "g_volt_e_1036800"
  | .g_volt_e_1075200 => "g_volt_e_1075200"
  | .t6_tRTW_fine_tune => "t6_tRTW_fine_tune"
  | .t7_tWTR_fine_tune => "t7_tWTR_fine_tune"
  | .kipCrc32 => "crc32"

def hocclkDefaultConfigValue : HocClkConfigValue → ℕ
  | .pollingIntervalMs => 300
  | .eristaMaxCpuClock => 1785
  | .marikoMaxCpuClock => 1963
  | .thermalThrottle => 1
  | .handheldTDP => 1
  | .isFirstLoad => 1
  | .dvfsMode => 1
  | .thermalThrottleThreshold => 70
  | .handheldTDPLimit => 9600
  | .liteTDPLimit => 6400
  | .cpuGovernorMinimumFreq => 612000000
  | .maxDisplayClockH => 60
  | .displayVoltage => 1200
  | .aulaDisplayColorPreset => 255
  | _ => 0

def hocclkValidConfigValue (val : HocClkConfigValue) (input : ℕ) : Bool :=
  match val with
  | .eristaMaxCpuClock | .marikoMaxCpuClock | .thermalThrottleThreshold | .handheldTDPLimit | .liteTDPLimit
  | .pollingIntervalMs | .maxDisplayClockH => decide (0 < input)
  | .tempLogIntervalMs | .freqLogIntervalMs | .powerLogIntervalMs | .csvWriteIntervalMs | .uncappedClocks
  | .overwriteBoostMode | .thermalThrottle | .handheldTDP | .overwriteRefreshRate | .isFirstLoad
  | .enableExperimentalSettings | .liveCpuUv | .gpuSchedulingMethod | .marikoMiddleFreqs => input &&& 1 == input
  | .batteryChargeCurrent => decide (1024 ≤ input ∧ input ≤ 3072) || input == 0
  | .displayVoltage => decide (800 ≤ input ∧ input ≤ 1325)
  | _ => true

/-- every default passes its own check -/
theorem hocclkDefaultConfigValue_valid (val : HocClkConfigValue) :
    hocclkValidConfigValue val (hocclkDefaultConfigValue val) = true := by
  cases val <;> rfl

end RyazhaClk
