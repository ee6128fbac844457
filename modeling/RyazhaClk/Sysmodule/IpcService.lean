/-
The service `hoc:clk` (`ipc_service.cpp`): the command of a message, its arguments and its buffers, what the handler of the
command reads and changes, and the answer. The message is arbitrary: any process that has a session may have sent it.

- `serviceCase_outcome`: a message is refused, answered, or one of six updates of the service.
- `messages_contained`: no message makes a handler read behind the data it is given or write out of bounds, an answer changes
  the front of the first buffer and nothing else of the sender's, it carries no byte of the server's stack, and a refusal
  leaves everything as it was.
- `stale_bytes_read`: the data can reach behind the words of the message, and a handler then reads what stands there.
-/
import Mathlib.Tactic
import RyazhaClk.Lib.Transition
import RyazhaClk.Lib.Wire
import RyazhaClk.Sysmodule.IpcServer
import RyazhaClk.Sysmodule.KipChecksum
import RyazhaClk.Sysmodule.Profiles

namespace RyazhaClk.IpcService

open Transition Wire

/-! ## The state -/

/-- `ini_putsection`: the file it leaves, none where it gives up -/
structure SectionWriter where
  putsection : String → List (String × String) → ConfigFile → Option ConfigFile
  replaces : ∀ {name kvs f f'}, putsection name kvs f = some f' → Replaced name kvs f f'

/-- on the value section -/
def SectionWriter.values (w : SectionWriter) : IniWriter := ⟨w.putsection CONFIG_VAL_SECTION, w.replaces⟩

/-- `HocClkContext`, of `0x500` bytes -/
abbrev HocClkContext := Fin 0x500 → UInt8

/-- what the requests read and change -/
structure Service where
  sys : KipState
  gEnabled : Bool
  gRunning : Bool

/-- what a request finds: the context and the rates of the clock manager, and how the files behave -/
structure Surroundings where
  gContext : HocClkContext
  gFreqTable : HocClkModule → List UInt32
  writer : SectionWriter
  io : KipIo

/-! ## The wire format -/

/-- the rates of a title, profile by profile -/
abbrev HocClkTitleProfileList := HocClkProfile × HocClkModule → UInt32

def HocClkTitleProfileList.table (list : HocClkTitleProfileList) : ProfileTable := fun p m => (list (p, m)).toNat

def titleProfileList : Codec HocClkTitleProfileList := Codec.u32.array profilePairs fun pm => mem_profilePairs pm.1 pm.2

def configValueList : Codec (HocClkConfigValue → UInt64) := Codec.u64.array HocClkConfigValue.all HocClkConfigValue.mem_all

def hocClkContext : Codec HocClkContext := Codec.u8.array (List.finRange 0x500) List.mem_finRange

/-- `HocClkIpc_SetProfiles_Args`; its size is a multiple of 8 -/
def setProfilesArgs (padding : UInt32) : Codec (UInt64 × HocClkTitleProfileList) :=
  (Codec.u64.pair titleProfileList).padded (Codec.u32.encode padding)

/-- `HocClkIpc_SetOverride_Args`: the module and the rate -/
def setOverrideArgs : Codec (UInt32 × UInt32) := Codec.u32.pair Codec.u32

/-- `HocClkIpc_GetFreqList_Args`: the module and the number of rates there is room for -/
def getFreqListArgs : Codec (UInt32 × UInt32) := Codec.u32.pair Codec.u32

/-! ## Handlers -/

inductive ServiceError where
  | generic
  | store (e : HocClkError)
deriving DecidableEq

/-- `HOCCLK_ERROR` -/
def hocclkError : ServiceError → IpcResult
  | .generic => .other 388
  | .store .configNotLoaded => .other (388 + 1 * 2 ^ 9)
  | .store .configSaveFailed => .other (388 + 2 * 2 ^ 9)

def HOCCLK_IPC_API_VERSION : UInt32 := 2

def TARGET_VERSION : List UInt8 := "2.4.0".toList.map fun c => UInt8.ofNat c.toNat

/-- C's `strncpy`: exactly `n` bytes are written -/
def strncpy (src : List UInt8) (n : ℕ) : List UInt8 := src.take n ++ List.replicate (n - src.length) 0

/-- `HOCCLK_ENUM_VALID(HocClkModule, module)` -/
def moduleOf (module : UInt32) : Option HocClkModule := HocClkModule.all[module.toNat]?

variable (x : Surroundings) (s : Service)

def exitHandler : Service := { s with gRunning := false }

def getProfileCount (tid : UInt64) : Except ServiceError UInt8 :=
  ((ipcGetProfileCount s.sys.config tid.toNat).mapError .store).map UInt8.ofNat

def getProfiles (tid : UInt64) : Except ServiceError HocClkTitleProfileList :=
  ((ipcGetProfiles s.sys.config tid.toNat).mapError .store).map fun table pm => UInt32.ofNat (table pm.1 pm.2)

def setProfiles (tid : UInt64) (list : HocClkTitleProfileList) : Except ServiceError Service :=
  if !s.sys.config.gLoaded then .error (.store .configNotLoaded)
  else
    match x.writer.putsection (formatTid tid.toNat) (profileKeys list.table) s.sys.ini with
    | none => .error (.store .configSaveFailed)
    | some ini =>
      .ok { s with sys := { s.sys with config := (s.sys.config.setProfiles true tid.toNat list.table true).2, ini } }

def setEnabled (enabled : UInt8) : Service := { s with gEnabled := enabled != 0 }

def setOverride (module hz : UInt32) : Except ServiceError Service :=
  match moduleOf module with
  | none => .error .generic
  | some m => .ok { s with sys := { s.sys with config := s.sys.config.setOverrideHz m hz.toNat } }

def getConfigValuesHandler : Except ServiceError (HocClkConfigValue → UInt64) :=
  if !s.sys.config.gLoaded then .error (.store .configNotLoaded)
  else .ok fun kval => UInt64.ofNat (s.sys.config.getConfigValue kval)

def setConfigValuesHandler (list : HocClkConfigValue → UInt64) : Except ServiceError Service :=
  if !s.sys.config.gLoaded then .error (.store .configNotLoaded)
  else
    let saved := s.sys.setConfigValues x.writer.values fun kval => (list kval).toNat
    if saved.1 then .ok { s with sys := saved.2 } else .error (.store .configSaveFailed)

/-- `size` is that of the buffer, in bytes -/
def getFreqList (module maxCount : UInt32) (size : ℕ) : Except ServiceError (List UInt32) :=
  match moduleOf module with
  | none => .error .generic
  | some m =>
    if maxCount.toNat ≠ size / 4 then .error .generic else .ok ((x.gFreqTable m).take maxCount.toNat)

def setKipData : Service := { s with sys := s.sys.setKipData x.writer.values x.io }

/-! ## Messages -/

/-- a message in the thread's buffer: what `hipcParseRequest` finds of it, how far the raw header is moved up to a multiple
of 16, the bytes behind that header, and the buffers the sender has mapped -/
structure IpcMessage where
  hipc : HipcParsedRequest
  padding : ℕ
  behindHeader : ℕ → UInt8
  sendBuffers : List (List UInt8)
  recvBuffers : List (List UInt8)

namespace IpcMessage

variable (m : IpcMessage)

/-- `data.ptr`, for `data.size` bytes: the padding is not taken off the size -/
def data : List UInt8 := (List.range (m.hipc.numDataWords * 4 - rawHeaderSize)).map m.behindHeader

/-- so many of them are words of the message -/
def ownSize : ℕ := m.hipc.numDataWords * 4 - rawHeaderSize - m.padding

theorem length_data : m.data.length = m.hipc.numDataWords * 4 - rawHeaderSize := by
  rw [data, List.length_map, List.length_range]

end IpcMessage

inductive HocClkIpcCmd where
  | getApiVersion
  | getVersionString
  | getCurrentContext
  | exit
  | getProfileCount
  | getProfiles
  | setProfiles
  | setEnabled
  | setOverride
  | getConfigValues
  | setConfigValues
  | getFreqList
  | setKipData
  | getKipData
deriving DecidableEq

/-- in the order of their numbers, from 0 -/
def HocClkIpcCmd.all : List HocClkIpcCmd :=
  [.getApiVersion, .getVersionString, .getCurrentContext, .exit, .getProfileCount, .getProfiles, .setProfiles, .setEnabled,
    .setOverride, .getConfigValues, .setConfigValues, .getFreqList, .setKipData, .getKipData]

/-- the bytes of the data that the handler of a command takes for its arguments -/
def HocClkIpcCmd.argsSize : HocClkIpcCmd → ℕ
  | .getProfileCount => Codec.u64.size
  | .getProfiles => Codec.u64.size
  | .setProfiles => (setProfilesArgs 0).size
  | .setEnabled => Codec.u8.size
  | .setOverride => setOverrideArgs.size
  | .getFreqList => getFreqListArgs.size
  | _ => 0

/-- what a handler that succeeds leaves: the service, and the bytes for the answer and for the buffer -/
structure Effect where
  service : Service
  out : List UInt8 := []
  buffer : List UInt8 := []

/-- the size of the answer, and the effect of the handler -/
abbrev Handled := ℕ × Except ServiceError Effect

/-- a handler that answers with a value -/
def answerOut {α : Type} (c : Codec α) (result : Except ServiceError α) : Handled :=
  (c.size, result.map fun a => { service := s, out := c.encode a })

/-- one that fills the buffer -/
def answerBuffer {α : Type} (c : Codec α) (result : Except ServiceError α) : Handled :=
  (0, result.map fun a => { service := s, buffer := c.encode a })

/-- one that changes the service -/
def answerService (result : Except ServiceError Service) : Handled := (0, result.map fun s => { service := s })

/-- the switch falls through to this -/
def unhandled : Handled := (0, .error .generic)

/-- the switch of `ServiceHandlerFunc`; `none` is a read behind the data it is given -/
def serviceCase (m : IpcMessage) (r : IpcServerRequest) : Option Handled :=
  match HocClkIpcCmd.all[r.cmdId]? with
  | some .getApiVersion => some (answerOut s Codec.u32 (.ok HOCCLK_IPC_API_VERSION))
  | some .getVersionString =>
    match m.recvBuffers with
    | [] => some unhandled
    | buf :: _ => some (0, .ok { service := s, buffer := strncpy TARGET_VERSION (buf.length - 1) })
  | some .getCurrentContext =>
    match m.recvBuffers with
    | [] => some unhandled
    | buf :: _ =>
      if 8 ≤ r.size ∧ hocClkContext.size ≤ buf.length then some (answerBuffer s hocClkContext (.ok x.gContext))
      else some unhandled
  | some .exit => some (answerService (.ok (exitHandler s)))
  | some .getProfileCount =>
    if 8 ≤ r.size then (Codec.u64.read m.data).map fun tid => answerOut s Codec.u8 (getProfileCount s tid)
    else some unhandled
  | some .getProfiles =>
    match m.recvBuffers with
    | [] => some unhandled
    | buf :: _ =>
      if 8 ≤ r.size ∧ titleProfileList.size ≤ buf.length then
        (Codec.u64.read m.data).map fun tid => answerBuffer s titleProfileList (getProfiles s tid)
      else some unhandled
  | some .setProfiles =>
    if (setProfilesArgs 0).size ≤ r.size then
      ((setProfilesArgs 0).read m.data).map fun args => answerService (setProfiles x s args.1 args.2)
    else some unhandled
  | some .setEnabled =>
    if 1 ≤ r.size then (Codec.u8.read m.data).map fun enabled => answerService (.ok (setEnabled s enabled))
    else some unhandled
  | some .setOverride =>
    if setOverrideArgs.size ≤ r.size then
      (setOverrideArgs.read m.data).map fun args => answerService (setOverride s args.1 args.2)
    else some unhandled
  | some .getConfigValues =>
    match m.recvBuffers with
    | [] => some unhandled
    | buf :: _ =>
      if configValueList.size ≤ buf.length then some (answerBuffer s configValueList (getConfigValuesHandler s))
      else some unhandled
  | some .setConfigValues =>
    match m.sendBuffers with
    | [] => some unhandled
    | buf :: _ =>
      if configValueList.size ≤ buf.length then
        (configValueList.read buf).map fun list => answerService (setConfigValuesHandler x s list)
      else some unhandled
  | some .getFreqList =>
    match m.recvBuffers with
    | [] => some unhandled
    | buf :: _ =>
      if getFreqListArgs.size ≤ r.size then
        (getFreqListArgs.read m.data).map fun args =>
          (4, (getFreqList x args.1 args.2 buf.length).map fun rates =>
            { service := s, out := Codec.u32.encode (UInt32.ofNat rates.length), buffer := rates.flatMap Codec.u32.encode })
      else some unhandled
  | some .setKipData => some (answerService (.ok (setKipData x s)))
  | some .getKipData => some unhandled
  | none => some unhandled

/-! ## Answers -/

/-- `SFCO` -/
def cmifOutHeaderMagic : ℕ := 0x4f434653

/-- a message the server answers with -/
structure Response where
  numDataWords : ℕ
  magic : ℕ
  result : IpcResult
  /-- behind the raw header -/
  data : List UInt8

/-- `_ipcServerPrepareResponse` -/
def prepareResponse (rc : IpcResult) (data : List UInt8) (dataSize : ℕ) : Response where
  numDataWords := (rawHeaderSize + dataSize + 0x10) / 4
  magic := cmifOutHeaderMagic
  result := rc
  data := if rc = .success then data.take dataSize else []

/-- what is left behind a message: the service, the answer if there is one, the sender's buffers, and whether its session
goes on -/
structure Answered where
  service : Service
  response : Option Response
  recvBuffers : List (List UInt8)
  close : Bool

/-- bytes written to the first buffer; `none` is a write behind its end -/
def writeFirst (bufs : List (List UInt8)) (bs : List UInt8) : Option (List (List UInt8)) :=
  match bufs with
  | [] => if bs = [] then some [] else none
  | buf :: rest => (overwrite buf bs).map (· :: rest)

/-- `IPC_SERVER_EXT_RESPONSE_MAX_DATA_SIZE` -/
def maxDataSize : ℕ := 0x100 - 0x10 - rawHeaderSize

/-- the effect of a handler; `stack` is `data` as the server finds it -/
def answer (stack : Vector UInt8 maxDataSize) (m : IpcMessage) (h : Handled) : Option Answered :=
  match h.2 with
  | .error e => some ⟨s, some (prepareResponse (hocclkError e) stack.toList h.1), m.recvBuffers, false⟩
  | .ok w =>
    (overwrite stack.toList w.out).bind fun data =>
      (writeFirst m.recvBuffers w.buffer).map fun recvBuffers =>
        ⟨w.service, some (prepareResponse .success data h.1), recvBuffers, false⟩

/-- one message of a session, behind its receipt; `none` is an access out of bounds -/
def processMessage (stack : Vector UInt8 maxDataSize) (m : IpcMessage) : Option Answered :=
  match ipcServerParseRequest m.hipc with
  | .error _ => some ⟨s, none, m.recvBuffers, true⟩
  | .ok r =>
    match r.hipc.type with
    | .request => (serviceCase x s m r).bind (answer s stack m)
    | .close => some ⟨s, some (prepareResponse .success [] 0), m.recvBuffers, true⟩
    | .other _ => some ⟨s, some (prepareResponse (.other (11 + 403 * 2 ^ 9)) [] 0), m.recvBuffers, false⟩

/-! ## What a message can do -/

/-- the requests that change the service -/
inductive Update where
  | exit
  | setProfiles (tid : UInt64) (list : HocClkTitleProfileList)
  | setEnabled (enabled : UInt8)
  | setOverride (module hz : UInt32)
  | setConfigValues (list : HocClkConfigValue → UInt64)
  | setKipData

def Update.apply (x : Surroundings) (s : Service) : Update → Except ServiceError Service
  | .exit => .ok (exitHandler s)
  | .setProfiles tid list => IpcService.setProfiles x s tid list
  | .setEnabled enabled => .ok (IpcService.setEnabled s enabled)
  | .setOverride module hz => IpcService.setOverride s module hz
  | .setConfigValues list => setConfigValuesHandler x s list
  | .setKipData => .ok (IpcService.setKipData x s)

/-- the update a command asks for, with the arguments of the message -/
def HocClkIpcCmd.update (m : IpcMessage) : HocClkIpcCmd → Option Update
  | .exit => some .exit
  | .setProfiles => ((setProfilesArgs 0).read m.data).map fun args => .setProfiles args.1 args.2
  | .setEnabled => (Codec.u8.read m.data).map .setEnabled
  | .setOverride => (setOverrideArgs.read m.data).map fun args => .setOverride args.1 args.2
  | .setConfigValues => m.sendBuffers.head?.bind fun buf => (configValueList.read buf).map .setConfigValues
  | .setKipData => some .setKipData
  | _ => none

/-- the handler refuses, answers, or makes the update it was asked for -/
inductive Outcome (x : Surroundings) (s : Service) (m : IpcMessage) (asked : Option Update) : Handled → Prop where
  | refused (size : ℕ) (e : ServiceError) (hsize : size ≤ 4) (hasked : ∀ u, asked = some u → u.apply x s = .error e) :
      Outcome x s m asked (size, .error e)
  | answered (out buffer : List UInt8) (hout : out.length ≤ 4) (hbuffer : buffer.length ≤ (m.recvBuffers.headD []).length)
      (hasked : asked = none) : Outcome x s m asked (out.length, .ok ⟨s, out, buffer⟩)
  | updated {s' : Service} (u : Update) (hasked : asked = some u) (hu : u.apply x s = .ok s') :
      Outcome x s m asked (0, .ok ⟨s', [], []⟩)

variable {x s} {m : IpcMessage} {r : IpcServerRequest} {h : Handled}

theorem outcome_refused {size : ℕ} (e : ServiceError) (hsize : size ≤ 4) : Outcome x s m none (size, .error e) :=
  .refused size e hsize (by simp)

theorem outcome_unhandled : Outcome x s m none unhandled := outcome_refused .generic (by decide)

theorem outcome_out {α : Type} (c : Codec α) (hc : c.size ≤ 4) (result : Except ServiceError α) :
    Outcome x s m none (answerOut s c result) := by
  cases result with
  | error e => exact outcome_refused e hc
  | ok a =>
    have hlen := c.length_encode a
    have h : Outcome x s m none ((c.encode a).length, .ok ⟨s, c.encode a, []⟩) :=
      .answered _ _ (by omega) (Nat.zero_le _) rfl
    rwa [hlen] at h

theorem outcome_buffer {α : Type} (c : Codec α) {buf : List UInt8} {rest : List (List UInt8)}
    (hm : m.recvBuffers = buf :: rest) (hc : c.size ≤ buf.length) (result : Except ServiceError α) :
    Outcome x s m none (answerBuffer s c result) := by
  cases result with
  | error e => exact outcome_refused e (by decide)
  | ok a =>
    refine .answered [] (c.encode a) (Nat.zero_le _) ?_ rfl
    rw [hm, c.length_encode]
    exact hc

theorem outcome_update (u : Update) : Outcome x s m (some u) (answerService (u.apply x s)) := by
  cases hu : u.apply x s with
  | error e =>
    refine .refused 0 e (by decide) ?_
    rintro _ ⟨⟩
    exact hu
  | ok s' => exact .updated u rfl hu

theorem length_strncpy (src : List UInt8) (n : ℕ) : (strncpy src n).length = n := by
  rw [strncpy, List.length_append, List.length_take, List.length_replicate]
  omega

theorem length_rates {module maxCount : UInt32} {size : ℕ} {rates : List UInt32}
    (hrates : getFreqList x module maxCount size = .ok rates) :
    rates.length ≤ maxCount.toNat ∧ 4 * rates.length ≤ size := by
  unfold getFreqList at hrates
  cases hmodule : moduleOf module with
  | none =>
    rw [hmodule] at hrates
    cases hrates
  | some m =>
    simp only [hmodule] at hrates
    split_ifs at hrates with hcount
    obtain rfl := Except.ok.inj hrates
    rw [ne_eq, not_not] at hcount
    rw [List.length_take]
    omega

theorem outcome_rates {module maxCount : UInt32} {buf : List UInt8} {rest : List (List UInt8)}
    (hm : m.recvBuffers = buf :: rest) : Outcome x s m none (4, (getFreqList x module maxCount buf.length).map fun rates =>
      { service := s, out := Codec.u32.encode (UInt32.ofNat rates.length), buffer := rates.flatMap Codec.u32.encode }) := by
  cases hrates : getFreqList x module maxCount buf.length with
  | error e => exact outcome_refused e le_rfl
  | ok rates =>
    refine .answered (Codec.u32.encode (UInt32.ofNat rates.length)) _ le_rfl ?_ rfl
    rw [hm, Codec.length_flatMap]
    exact (length_rates hrates).2

theorem exists_read {α : Type} {c : Codec α} {bs : List UInt8} {f : α → Handled} (hc : c.size ≤ bs.length)
    (hf : ∀ a, Outcome x s m none (f a)) : ∃ h, (c.read bs).map f = some h ∧ Outcome x s m none h :=
  ⟨_, by rw [Codec.read_of_le hc, Option.map_some], hf _⟩

theorem exists_update {α : Type} {c : Codec α} {bs : List UInt8} (g : α → Update) :
    ∃ h, (if c.size ≤ bs.length then (c.read bs).map fun a => answerService ((g a).apply x s) else some unhandled) =
      some h ∧ Outcome x s m ((c.read bs).map g) h := by
  unfold Codec.read
  split_ifs
  · exact ⟨_, rfl, outcome_update _⟩
  · exact ⟨_, rfl, outcome_unhandled⟩

/-- **Every message** is refused, answered, or one update, and its handler reads nothing behind its data. -/
theorem serviceCase_outcome (hr : r.size = m.data.length) :
    ∃ h, serviceCase x s m r = some h ∧
      Outcome x s m (HocClkIpcCmd.all[r.cmdId]?.bind fun cmd => cmd.update m) h := by
  have hunhandled : ∃ h, some unhandled = some h ∧ Outcome x s m none h := ⟨_, rfl, outcome_unhandled⟩
  unfold serviceCase
  rcases HocClkIpcCmd.all[r.cmdId]? with _ | cmd
  · exact hunhandled
  rw [Option.bind_some, hr]
  rcases cmd
  case getApiVersion => exact ⟨_, rfl, outcome_out Codec.u32 le_rfl _⟩
  case getVersionString =>
    rcases hbufs : m.recvBuffers with _ | ⟨buf, rest⟩
    · exact hunhandled
    · refine ⟨_, rfl, .answered [] (strncpy TARGET_VERSION (buf.length - 1)) (Nat.zero_le _) ?_ rfl⟩
      rw [hbufs, length_strncpy]
      exact Nat.sub_le _ _
  case getCurrentContext =>
    rcases hbufs : m.recvBuffers with _ | ⟨buf, rest⟩
    · exact hunhandled
    · dsimp only
      split_ifs with hsize
      · exact ⟨_, rfl, outcome_buffer _ hbufs hsize.2 _⟩
      · exact hunhandled
  case exit => exact ⟨_, rfl, outcome_update .exit⟩
  case getProfileCount =>
    dsimp only
    split_ifs with hsize
    · exact exists_read hsize fun tid => outcome_out Codec.u8 (by decide) _
    · exact hunhandled
  case getProfiles =>
    rcases hbufs : m.recvBuffers with _ | ⟨buf, rest⟩
    · exact hunhandled
    · dsimp only
      split_ifs with hsize
      · exact exists_read hsize.1 fun tid => outcome_buffer _ hbufs hsize.2 _
      · exact hunhandled
  case setProfiles => exact exists_update (c := setProfilesArgs 0) fun args => .setProfiles args.1 args.2
  case setEnabled => exact exists_update (c := Codec.u8) .setEnabled
  case setOverride => exact exists_update (c := setOverrideArgs) fun args => .setOverride args.1 args.2
  case getConfigValues =>
    rcases hbufs : m.recvBuffers with _ | ⟨buf, rest⟩
    · exact hunhandled
    · dsimp only
      split_ifs with hsize
      · exact ⟨_, rfl, outcome_buffer _ hbufs hsize _⟩
      · exact hunhandled
  case setConfigValues =>
    rcases hbufs : m.sendBuffers with _ | ⟨buf, rest⟩
    · unfold HocClkIpcCmd.update
      rw [hbufs]
      exact hunhandled
    · unfold HocClkIpcCmd.update
      rw [hbufs, List.head?_cons, Option.bind_some]
      exact exists_update (c := configValueList) .setConfigValues
  case getFreqList =>
    rcases hbufs : m.recvBuffers with _ | ⟨buf, rest⟩
    · exact hunhandled
    · dsimp only
      split_ifs with hsize
      · exact exists_read hsize fun args => outcome_rates hbufs
      · exact hunhandled
  case setKipData => exact ⟨_, rfl, outcome_update .setKipData⟩
  case getKipData => exact hunhandled

/-! ## What an answer leaves -/

/-- the data words hold the raw header, which is moved to a multiple of 16, and the data behind it -/
structure Response.Holds (response : Response) : Prop where
  data_le : response.data.length ≤ 4
  words : 0xC + rawHeaderSize + response.data.length ≤ 4 * response.numDataWords
  words_le : response.numDataWords ≤ 9

/-- the update a message asks for, if it is a request and begins as one -/
def IpcMessage.update (m : IpcMessage) : Option Update :=
  match ipcServerParseRequest m.hipc with
  | .error _ => none
  | .ok r => if r.hipc.type = .request then HocClkIpcCmd.all[r.cmdId]?.bind fun cmd => cmd.update m else none

/-- the service behind an update, if one is asked for -/
def Service.after (x : Surroundings) (s : Service) (asked : Option Update) : Service :=
  match asked with
  | none => s
  | some u =>
    match u.apply x s with
    | .ok s' => s'
    | .error _ => s

theorem Service.after_ok {s' : Service} {u : Update} (hu : u.apply x s = .ok s') : s.after x (some u) = s' := by
  rw [Service.after, hu]

theorem Service.after_error {e : ServiceError} {u : Update} (hu : u.apply x s = .error e) : s.after x (some u) = s := by
  rw [Service.after, hu]

/-- what a message may leave behind -/
structure Contained (x : Surroundings) (s : Service) (m : IpcMessage) (a : Answered) : Prop where
  /-- every buffer keeps its place -/
  lengths : a.recvBuffers.map List.length = m.recvBuffers.map List.length
  /-- and all but the first their contents -/
  others : a.recvBuffers.tail = m.recvBuffers.tail
  holds : ∀ response, a.response = some response → response.Holds
  /-- what is not answered with success carries no data and has no effect -/
  noData : ∀ response, a.response = some response → response.result ≠ .success → response.data = []
  noEffect : (∀ response, a.response = some response → response.result ≠ .success) →
    a.service = s ∧ a.recvBuffers = m.recvBuffers
  service : a.service = s.after x m.update

/-- an answer with this result and data -/
def responseOf (rc : IpcResult) (dataSize : ℕ) (data : List UInt8) : Response :=
  ⟨(rawHeaderSize + dataSize + 0x10) / 4, cmifOutHeaderMagic, rc, data⟩

theorem prepareResponse_error {rc : IpcResult} (hrc : rc ≠ .success) (data : List UInt8) (n : ℕ) :
    prepareResponse rc data n = responseOf rc n [] := by
  unfold prepareResponse
  rw [if_neg hrc]
  rfl

theorem hocclkError_ne (e : ServiceError) : hocclkError e ≠ .success := by
  rcases e with _ | _ | _ <;> exact nofun

theorem responseOf_holds {rc : IpcResult} {n : ℕ} {data : List UInt8} (hn : n ≤ 4) (hdata : data.length ≤ n) :
    (responseOf rc n data).Holds := by
  refine ⟨hdata.trans hn, ?_, ?_⟩ <;>
  · simp only [responseOf, rawHeaderSize]
    omega

/-- the buffers behind a write to the first -/
def written (bs : List UInt8) : List (List UInt8) → List (List UInt8)
  | [] => []
  | buf :: rest => (bs ++ buf.drop bs.length) :: rest

theorem writeFirst_of_le {bufs : List (List UInt8)} {bs : List UInt8} (hbs : bs.length ≤ (bufs.headD []).length) :
    writeFirst bufs bs = some (written bs bufs) := by
  cases bufs with
  | nil =>
    obtain rfl : bs = [] := List.length_eq_zero_iff.1 (Nat.le_zero.1 hbs)
    rfl
  | cons buf rest =>
    rw [List.headD_cons] at hbs
    rw [writeFirst, overwrite_of_le hbs]
    rfl

theorem written_nil (bufs : List (List UInt8)) : written [] bufs = bufs := by
  cases bufs <;> rfl

theorem lengths_written {bufs : List (List UInt8)} {bs : List UInt8} (hbs : bs.length ≤ (bufs.headD []).length) :
    (written bs bufs).map List.length = bufs.map List.length := by
  cases bufs with
  | nil => rfl
  | cons buf rest =>
    rw [List.headD_cons] at hbs
    rw [written, List.map_cons, List.map_cons, length_overwritten hbs]

/-- an effect that fits is answered with exactly the bytes the handler wrote -/
theorem answer_ok {s s' : Service} {out buffer : List UInt8} (stack : Vector UInt8 maxDataSize) (hout : out.length ≤ 4)
    (hbuffer : buffer.length ≤ (m.recvBuffers.headD []).length) :
    answer s stack m (out.length, .ok ⟨s', out, buffer⟩) =
      some ⟨s', some (responseOf .success out.length out), written buffer m.recvBuffers, false⟩ := by
  have hstack : out.length ≤ stack.toList.length := by
    rw [Vector.length_toList]
    exact hout.trans (by decide)
  unfold answer
  simp only [overwrite_of_le hstack, Option.bind_some, writeFirst_of_le hbuffer, Option.map_some]
  rw [prepareResponse, if_pos rfl, List.take_left]
  rfl

theorem answer_error {size : ℕ} {e : ServiceError} (stack : Vector UInt8 maxDataSize) :
    answer s stack m (size, .error e) = some ⟨s, some (responseOf (hocclkError e) size []), m.recvBuffers, false⟩ := by
  unfold answer
  dsimp only
  rw [prepareResponse_error (hocclkError_ne e)]

theorem answer_contained (hh : Outcome x s m m.update h) :
    ∃ a, (∀ stack, answer s stack m h = some a) ∧ Contained x s m a := by
  rcases hh with ⟨size, e, hsize, hasked⟩ | ⟨out, buffer, hout, hbuffer, hasked⟩ | ⟨u, hasked, hu⟩
  · refine ⟨_, answer_error, ⟨rfl, rfl, ?_, ?_, fun _ => ⟨rfl, rfl⟩, ?_⟩⟩
    · rintro _ ⟨⟩
      exact responseOf_holds hsize (Nat.zero_le _)
    · rintro _ ⟨⟩ _
      rfl
    · rcases hupdate : m.update with _ | u
      · rfl
      · exact (Service.after_error (hasked u hupdate)).symm
  · refine ⟨_, fun stack => answer_ok stack hout hbuffer, ⟨lengths_written hbuffer, ?_, ?_, ?_, ?_, ?_⟩⟩
    · cases m.recvBuffers <;> rfl
    · rintro _ ⟨⟩
      exact responseOf_holds hout le_rfl
    · rintro _ ⟨⟩ hrc
      exact absurd rfl hrc
    · intro hrc
      exact absurd rfl (hrc _ rfl)
    · rw [hasked]
      rfl
  · refine ⟨_, fun stack => answer_ok (m := m) stack (Nat.zero_le 4) (Nat.zero_le _), ?_⟩
    rw [written_nil]
    refine ⟨rfl, rfl, ?_, ?_, ?_, ?_⟩
    · rintro _ ⟨⟩
      exact responseOf_holds (Nat.zero_le _) le_rfl
    · rintro _ ⟨⟩ _
      rfl
    · intro hrc
      exact absurd rfl (hrc _ rfl)
    · rw [hasked, Service.after_ok hu]

theorem size_of_parse (hparse : ipcServerParseRequest m.hipc = .ok r) (htype : r.hipc.type = .request) :
    r.size = m.data.length := by
  unfold ipcServerParseRequest at hparse
  rw [m.length_data]
  split_ifs at hparse with hrequest
  · split at hparse
    · cases hparse
    · split_ifs at hparse
      obtain rfl := Except.ok.inj hparse
      rfl
  · obtain rfl := Except.ok.inj hparse
    exact absurd htype hrequest

/-- a message that asks for nothing, answered without data -/
theorem contained_of_kept {a : Answered} (hs : a.service = s) (hbufs : a.recvBuffers = m.recvBuffers)
    (hresponse : ∀ response, a.response = some response → response.Holds ∧ response.data = []) (hasked : m.update = none) :
    Contained x s m a := by
  constructor
  case lengths => rw [hbufs]
  case others => rw [hbufs]
  case holds => exact fun response h => (hresponse response h).1
  case noData => exact fun response h _ => (hresponse response h).2
  case noEffect => exact fun _ => ⟨hs, hbufs⟩
  case service =>
    rw [hs, hasked]
    rfl

/-- one answer, whatever stands on the stack -/
theorem message_answered (x : Surroundings) (s : Service) (m : IpcMessage) :
    ∃ a, (∀ stack, processMessage x s stack m = some a) ∧ Contained x s m a := by
  have hempty : ∀ rc response, some (prepareResponse rc [] 0) = some response → response.Holds ∧ response.data = [] := by
    rintro rc _ ⟨⟩
    have hresponse : prepareResponse rc [] 0 = responseOf rc 0 [] := by
      unfold prepareResponse
      split_ifs <;> rfl
    rw [hresponse]
    exact ⟨responseOf_holds (Nat.zero_le _) le_rfl, rfl⟩
  have hupdate : m.update = match ipcServerParseRequest m.hipc with
    | .error _ => none
    | .ok r => if r.hipc.type = .request then HocClkIpcCmd.all[r.cmdId]?.bind fun cmd => cmd.update m else none := rfl
  unfold processMessage
  rcases hparse : ipcServerParseRequest m.hipc with rc | r
  · rw [hparse] at hupdate
    exact ⟨_, fun _ => rfl, contained_of_kept rfl rfl nofun hupdate⟩
  · rw [hparse] at hupdate
    dsimp only at hupdate ⊢
    rcases htype : r.hipc.type with _ | _ | type
    · rw [if_pos htype] at hupdate
      obtain ⟨h, hcase, houtcome⟩ := serviceCase_outcome (x := x) (s := s) (size_of_parse hparse htype)
      rw [← hupdate] at houtcome
      dsimp only
      rw [hcase]
      exact answer_contained houtcome
    · rw [if_neg (by rw [htype]; exact nofun)] at hupdate
      exact ⟨_, fun _ => rfl, contained_of_kept rfl rfl (hempty _) hupdate⟩
    · rw [if_neg (by rw [htype]; exact nofun)] at hupdate
      exact ⟨_, fun _ => rfl, contained_of_kept rfl rfl (hempty _) hupdate⟩

/-! ## What is read of a message -/

/-- the arguments that are read of a message -/
def IpcMessage.argsSize (m : IpcMessage) : ℕ :=
  match ipcServerParseRequest m.hipc with
  | .error _ => 0
  | .ok r => HocClkIpcCmd.all[r.cmdId]?.elim 0 HocClkIpcCmd.argsSize

/-- messages that differ behind their arguments only -/
structure IpcMessage.Alike (m m' : IpcMessage) : Prop where
  hipc : m'.hipc = m.hipc
  sendBuffers : m'.sendBuffers = m.sendBuffers
  recvBuffers : m'.recvBuffers = m.recvBuffers
  args : ∀ i < m.argsSize, m'.behindHeader i = m.behindHeader i

theorem IpcMessage.Alike.refl (m : IpcMessage) : m.Alike m := ⟨rfl, rfl, rfl, fun _ _ => rfl⟩

/-- where the arguments are words of the message, nothing behind it matters -/
theorem IpcMessage.Alike.of_own {m m' : IpcMessage} (hhipc : m'.hipc = m.hipc) (hsend : m'.sendBuffers = m.sendBuffers)
    (hrecv : m'.recvBuffers = m.recvBuffers) (hargs : m.argsSize ≤ m.ownSize)
    (hown : ∀ i < m.ownSize, m'.behindHeader i = m.behindHeader i) : m.Alike m' :=
  ⟨hhipc, hsend, hrecv, fun i hi => hown i (hi.trans_le hargs)⟩

namespace IpcMessage.Alike

variable {m' : IpcMessage}

theorem take_data (h : m.Alike m') {n : ℕ} (hn : n ≤ m.argsSize) : m'.data.take n = m.data.take n := by
  unfold IpcMessage.data
  rw [h.hipc, ← List.map_take, ← List.map_take, List.take_range, List.map_inj_left]
  intro i hi
  rw [List.mem_range] at hi
  exact h.args i (by omega)

theorem read_data (h : m.Alike m') {α : Type} (c : Codec α) (hc : c.size ≤ m.argsSize) : c.read m'.data = c.read m.data := by
  apply Codec.read_congr
  · rw [m'.length_data, m.length_data, h.hipc]
  · exact h.take_data hc

theorem serviceCase (h : m.Alike m') (hparse : ipcServerParseRequest m.hipc = .ok r) :
    IpcService.serviceCase x s m' r = IpcService.serviceCase x s m r := by
  have hargs : m.argsSize = HocClkIpcCmd.all[r.cmdId]?.elim 0 HocClkIpcCmd.argsSize := by
    unfold IpcMessage.argsSize
    rw [hparse]
  unfold IpcService.serviceCase
  rw [h.sendBuffers, h.recvBuffers]
  rcases hcmd : HocClkIpcCmd.all[r.cmdId]? with _ | cmd
  · rfl
  rw [hcmd, Option.elim_some] at hargs
  cases cmd
  case getProfileCount => rw [h.read_data Codec.u64 hargs.ge]
  case getProfiles => rw [h.read_data Codec.u64 hargs.ge]
  case setProfiles => rw [h.read_data (setProfilesArgs 0) hargs.ge]
  case setEnabled => rw [h.read_data Codec.u8 hargs.ge]
  case setOverride => rw [h.read_data setOverrideArgs hargs.ge]
  case getFreqList => rw [h.read_data getFreqListArgs hargs.ge]
  all_goals rfl

/-- **What stands behind the arguments** of a message does not matter. -/
theorem processMessage (h : m.Alike m') (stack : Vector UInt8 maxDataSize) :
    IpcService.processMessage x s stack m' = IpcService.processMessage x s stack m := by
  unfold IpcService.processMessage answer
  rw [h.hipc, h.recvBuffers]
  rcases hparse : ipcServerParseRequest m.hipc with rc | r
  · rfl
  · dsimp only
    rw [h.serviceCase hparse]

end IpcMessage.Alike

/-! ## Runs -/

/-- a message, with what it finds -/
structure Arrival where
  surroundings : Surroundings
  stack : Vector UInt8 maxDataSize
  message : IpcMessage

def serviceStep (s : Service) (e : Arrival) : Option Service :=
  (processMessage e.surroundings s e.stack e.message).map Answered.service

theorem serviceStep_eq (s : Service) (e : Arrival) :
    serviceStep s e = some (s.after e.surroundings e.message.update) := by
  obtain ⟨a, ha, hcontained⟩ := message_answered e.surroundings s e.message
  rw [serviceStep, ha, Option.map_some, hcontained.service]

/-- a request for a profile count in six words, the first two of which are padding; behind the message stands a title -/
def staleMessage (tid : UInt64) : IpcMessage where
  hipc := ⟨.request, 6, some ⟨cmifInHeaderMagic, 4⟩⟩
  padding := 8
  behindHeader i := (Codec.u64.encode tid).getD i 0
  sendBuffers := []
  recvBuffers := []

/-- **What stands behind a message is read**: no byte of its own is the argument, and the count of the title is answered. -/
theorem stale_bytes_read (x : Surroundings) (s : Service) (tid : UInt64) :
    (staleMessage tid).ownSize = 0 ∧ (staleMessage tid).data.length = 8 ∧
      ∀ stack, processMessage x s stack (staleMessage tid) =
        answer s stack (staleMessage tid) (answerOut s Codec.u8 (getProfileCount s tid)) := by
  have hparse : ipcServerParseRequest (staleMessage tid).hipc = .ok ⟨(staleMessage tid).hipc, 4, 8⟩ := rfl
  have hread : Codec.u64.read (staleMessage tid).data = some tid := Codec.u64.read_encode_self tid
  have hcase : serviceCase x s (staleMessage tid) ⟨(staleMessage tid).hipc, 4, 8⟩ =
      (Codec.u64.read (staleMessage tid).data).map fun tid => answerOut s Codec.u8 (getProfileCount s tid) := rfl
  rw [hread, Option.map_some] at hcase
  refine ⟨rfl, rfl, fun stack => ?_⟩
  unfold processMessage
  rw [hparse]
  dsimp only
  rw [hcase]
  rfl

/-! A run of two such messages. -/

/-- a writer that puts the section behind everything else -/
def SectionWriter.appending : SectionWriter where
  putsection name kvs f := some ⟨f.mtime + 1, f.contents.filter (fun e => !sameSection e.sect name) ++
    sectionEntries name kvs⟩
  replaces := by
    intro name kvs f f' h
    obtain rfl := Option.some.inj h
    exact ⟨Nat.succ_ne_zero f.mtime, _, [], (List.append_nil _).symm, (List.append_nil _).symm⟩

def sampleSurroundings : Surroundings := ⟨fun _ => 0, fun _ => [1331200000, 1600000000], .appending, ⟨true, 0⟩⟩

def sampleService : Service := ⟨sampleKipState (sampleKip 1 240) [], true, true⟩

end RyazhaClk.IpcService
