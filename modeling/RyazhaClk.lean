import RyazhaClk.Lib.Transition
import RyazhaClk.Lib.Layers
import RyazhaClk.Sysmodule.Throttle
import RyazhaClk.Sysmodule.ConfigWrite
import RyazhaClk.Sysmodule.Boost
import RyazhaClk.Sysmodule.GovernorMerge
import RyazhaClk.Sysmodule.Profiles
import RyazhaClk.Sysmodule.KipAgreement
import RyazhaClk.Sysmodule.KipUpdate
import RyazhaClk.Sysmodule.KipPending
import RyazhaClk.Sysmodule.KipChecksum
import RyazhaClk.Sysmodule.LostChange
import RyazhaClk.Sysmodule.Reassert
import RyazhaClk.Sysmodule.VoltageFloor
import RyazhaClk.Sysmodule.DisplayHandheld
import RyazhaClk.Loader.CvbTables
import RyazhaClk.Loader.Timings
import RyazhaClk.Loader.EmcSteps
import RyazhaClk.Loader.GpuVolts
import RyazhaClk.Lib.Validated
import RyazhaClk.Loader.PatchEngine
import RyazhaClk.Loader.PcvPatchers
import RyazhaClk.Loader.MarikoPatchers
import RyazhaClk.Loader.EristaPatchers
import RyazhaClk.Loader.PatchAtomicity
import RyazhaClk.Loader.InstalledTables
import RyazhaClk.Loader.DvbTable
import RyazhaClk.Loader.SocVolt
import RyazhaClk.Loader.CpuRail
import RyazhaClk.Lib.Handles
import RyazhaClk.Sysmodule.IpcServer
import RyazhaClk.Sysmodule.GpuVoltTable
import RyazhaClk.Sysmodule.DfllTunings
import RyazhaClk.Lib.Records
import RyazhaClk.Loader.MtcGroups
import RyazhaClk.Lib.A64
import RyazhaClk.Loader.AsmPatches
import RyazhaClk.Loader.Latency
import RyazhaClk.Sysmodule.FreqRow
import RyazhaClk.Lib.Hysteresis
import RyazhaClk.Sysmodule.Hysteresis
import RyazhaClk.Sysmodule.Vrr
import RyazhaClk.Sysmodule.VminRamp
import RyazhaClk.Sysmodule.HardwareInfo
import RyazhaClk.Sysmodule.SelectedClock
import RyazhaClk.Sysmodule.SaltyNX
import RyazhaClk.Sysmodule.FocusState
import RyazhaClk.Lib.Search
import RyazhaClk.Sysmodule.HeapScan
import RyazhaClk.Sysmodule.CpuUvRange
import RyazhaClk.Sysmodule.DisplayDocked
import RyazhaClk.Sysmodule.DisplayRetro
import RyazhaClk.Sysmodule.DisplayReadBack
import RyazhaClk.Sysmodule.Gm20b
import RyazhaClk.Sysmodule.GovernorChoice
import RyazhaClk.Loader.DvfsCount
import RyazhaClk.Sysmodule.BuckConverter
import RyazhaClk.Sysmodule.ChargeCurrent
import RyazhaClk.Lib.ShiftRegister
import RyazhaClk.Sysmodule.Checksum
import RyazhaClk.Sysmodule.KipFile
import RyazhaClk.Sysmodule.ConfigText
import RyazhaClk.MemTester.Verdict
import RyazhaClk.Sysmodule.IpcStore
import RyazhaClk.Loader.PtmPatcher
