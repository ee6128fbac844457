/-
The client library of the service (`client/ipc.c`) against its handlers: what each function dispatches, and what its caller
gets back.

- `call_served`: every call is answered as the operation it stands for, and does to the service what the operation does.
- `calls_served`: so is every run of calls, in whatever order the server takes the messages of its sessions.
-/
import Mathlib
import RyazhaClk.Sysmodule.IpcService

namespace RyazhaClk.IpcService

open Transition Wire

/-! ## Calls -/

/-- what `serviceDispatch` is given: the command, its arguments, the size of the answer, and the buffers to send and to fill -/
structure Dispatch where
  cmd : HocClkIpcCmd
  args : List UInt8 := []
  outSize : ℕ := 0
  send : List (List UInt8) := []
  recv : List (List UInt8) := []

/-- `u32 list[n]` -/
def rateList (n : ℕ) : Codec (Fin n → UInt32) := Codec.u32.array (List.finRange n) List.mem_finRange

section Client

def hocclkIpcGetAPIVersion : Dispatch := { cmd := .getApiVersion, outSize := 4 }

def hocclkIpcGetVersionString (out : List UInt8) : Dispatch := { cmd := .getVersionString, recv := [out] }

def hocclkIpcGetCurrentContext (out_context : HocClkContext) : Dispatch :=
  { cmd := .getCurrentContext, recv := [hocClkContext.encode out_context] }

def hocclkIpcGetProfileCount (tid : UInt64) : Dispatch :=
  { cmd := .getProfileCount, args := Codec.u64.encode tid, outSize := 1 }

def hocclkIpcSetEnabled (enabled : Bool) : Dispatch :=
  let enabledRaw : UInt8 := if enabled then 1 else 0
  { cmd := .setEnabled, args := Codec.u8.encode enabledRaw }

def hocclkIpcSetOverride (module hz : UInt32) : Dispatch :=
  { cmd := .setOverride, args := setOverrideArgs.encode (module, hz) }

def hocclkIpcGetProfiles (tid : UInt64) (out_profiles : HocClkTitleProfileList) : Dispatch :=
  { cmd := .getProfiles, args := Codec.u64.encode tid, recv := [titleProfileList.encode out_profiles] }

/-- the padding of `args` is not initialised -/
def hocclkIpcSetProfiles (tid : UInt64) (profiles : HocClkTitleProfileList) (padding : UInt32) : Dispatch :=
  { cmd := .setProfiles, args := (setProfilesArgs padding).encode (tid, profiles) }

def hocclkIpcGetConfigValues (out_configValues : HocClkConfigValue → UInt64) : Dispatch :=
  { cmd := .getConfigValues, recv := [configValueList.encode out_configValues] }

def hocclkIpcSetConfigValues (configValues : HocClkConfigValue → UInt64) : Dispatch :=
  { cmd := .setConfigValues, send := [configValueList.encode configValues] }

def hocclkIpcGetFreqList (module maxCount : UInt32) (list : Fin maxCount.toNat → UInt32) : Dispatch :=
  { cmd := .getFreqList, args := getFreqListArgs.encode (module, maxCount), outSize := 4,
    recv := [(rateList maxCount.toNat).encode list] }

def hocClkIpcSetKipData : Dispatch := { cmd := .setKipData, args := Codec.u32.encode 0 }

def hocClkIpcGetKipData : Dispatch := { cmd := .getKipData, args := Codec.u32.encode 0 }

end Client

/-- the functions of the library, with what the out parameters hold in front of the call -/
inductive ClientCall where
  | getAPIVersion
  | getVersionString (out : List UInt8)
  | getCurrentContext (out : HocClkContext)
  | getProfileCount (tid : UInt64)
  | setEnabled (enabled : Bool)
  | setOverride (module hz : UInt32)
  | getProfiles (tid : UInt64) (out : HocClkTitleProfileList)
  | setProfiles (tid : UInt64) (profiles : HocClkTitleProfileList) (padding : UInt32)
  | getConfigValues (out : HocClkConfigValue → UInt64)
  | setConfigValues (values : HocClkConfigValue → UInt64)
  | getFreqList (module maxCount : UInt32) (list : Fin maxCount.toNat → UInt32)
  | setKipData
  | getKipData

namespace ClientCall

def dispatch : ClientCall → Dispatch
  | .getAPIVersion => hocclkIpcGetAPIVersion
  | .getVersionString out => hocclkIpcGetVersionString out
  | .getCurrentContext out => hocclkIpcGetCurrentContext out
  | .getProfileCount tid => hocclkIpcGetProfileCount tid
  | .setEnabled enabled => hocclkIpcSetEnabled enabled
  | .setOverride module hz => hocclkIpcSetOverride module hz
  | .getProfiles tid out => hocclkIpcGetProfiles tid out
  | .setProfiles tid profiles padding => hocclkIpcSetProfiles tid profiles padding
  | .getConfigValues out => hocclkIpcGetConfigValues out
  | .setConfigValues values => hocclkIpcSetConfigValues values
  | .getFreqList module maxCount list => hocclkIpcGetFreqList module maxCount list
  | .setKipData => hocClkIpcSetKipData
  | .getKipData => hocClkIpcGetKipData

/-- what the caller gets -/
abbrev Answer : ClientCall → Type
  | .getAPIVersion => UInt32
  | .getVersionString _ => List UInt8
  | .getCurrentContext _ => HocClkContext
  | .getProfileCount _ => UInt8
  | .getProfiles _ _ => HocClkTitleProfileList
  | .getConfigValues _ => HocClkConfigValue → UInt64
  | .getFreqList _ maxCount _ => UInt32 × (Fin maxCount.toNat → UInt32)
  | _ => Unit

/-- the out parameters, from the data of the answer and the buffers -/
def decode : (c : ClientCall) → List UInt8 → List (List UInt8) → Option c.Answer
  | .getAPIVersion, out, _ => Codec.u32.read out
  | .getVersionString _, _, bufs => bufs.head?
  | .getCurrentContext _, _, bufs => bufs.head?.bind hocClkContext.read
  | .getProfileCount _, out, _ => Codec.u8.read out
  | .getProfiles _ _, _, bufs => bufs.head?.bind titleProfileList.read
  | .getConfigValues _, _, bufs => bufs.head?.bind configValueList.read
  | .getFreqList _ maxCount _, out, bufs =>
    (Codec.u32.read out).bind fun count => (bufs.head?.bind (rateList maxCount.toNat).read).map fun list => (count, list)
  | .setEnabled _, _, _ => some ()
  | .setOverride _ _, _, _ => some ()
  | .setProfiles _ _ _, _, _ => some ()
  | .setConfigValues _, _, _ => some ()
  | .setKipData, _, _ => some ()
  | .getKipData, _, _ => some ()

/-- what a call returns; none where nothing came back, or data of another size than the caller reads -/
def result (c : ClientCall) (a : Answered) : Option (Except IpcResult c.Answer) :=
  a.response.bind fun response =>
    if response.result = .success then
      if response.data.length = c.dispatch.outSize then (c.decode response.data a.recvBuffers).map .ok else none
    else some (.error response.result)

end ClientCall

/-! ## Operations -/

/-- the rates of a module there is room for, and their number; behind them the caller's list is as it was -/
def freqListAnswer (rates : List UInt32) {n : ℕ} (list : Fin n → UInt32) : UInt32 × (Fin n → UInt32) :=
  (UInt32.ofNat (rates.take n).length,
    fun i => if hi : i < (rates.take n).length then (rates.take n)[i] else list i)

def updated (x : Surroundings) (s : Service) (u : Update) : Except ServiceError Unit × Service :=
  match u.apply x s with
  | .ok s' => (.ok (), s')
  | .error e => (.error e, s)

/-- what the calls stand for -/
def ClientCall.serve (x : Surroundings) (s : Service) : (c : ClientCall) → Except ServiceError c.Answer × Service
  | .getAPIVersion => (.ok HOCCLK_IPC_API_VERSION, s)
  | .getVersionString out => (.ok (strncpy TARGET_VERSION (out.length - 1) ++ out.drop (out.length - 1)), s)
  | .getCurrentContext _ => (.ok x.gContext, s)
  | .getProfileCount tid => (IpcService.getProfileCount s tid, s)
  | .setEnabled enabled => (.ok (), { s with gEnabled := enabled })
  | .setOverride module hz => updated x s (.setOverride module hz)
  | .getProfiles tid _ => (IpcService.getProfiles s tid, s)
  | .setProfiles tid profiles _ => updated x s (.setProfiles tid profiles)
  | .getConfigValues _ => (getConfigValuesHandler s, s)
  | .setConfigValues values => updated x s (.setConfigValues values)
  | .getFreqList module _ list =>
    match moduleOf module with
    | none => (.error .generic, s)
    | some m => (.ok (freqListAnswer (x.gFreqTable m) list), s)
  | .setKipData => (.ok (), IpcService.setKipData x s)
  -- the command has a number and a client function, and no case
  | .getKipData => (.error .generic, s)

/-! ## The transport -/

/-- the command's number -/
def HocClkIpcCmd.number (cmd : HocClkIpcCmd) : ℕ := HocClkIpcCmd.all.idxOf cmd

/-- the message a dispatch arrives as; 16 bytes of the data words are set aside for the alignment of the raw header -/
structure Carries (d : Dispatch) (m : IpcMessage) : Prop where
  type : m.hipc.type = .request
  header : m.hipc.header = some ⟨cmifInHeaderMagic, d.cmd.number⟩
  args : d.args <+: m.data
  room : d.args.length + 0x10 ≤ m.data.length
  send : m.sendBuffers = d.send
  recv : m.recvBuffers = d.recv

theorem HocClkIpcCmd.all_number (cmd : HocClkIpcCmd) : HocClkIpcCmd.all[cmd.number]? = some cmd := by
  cases cmd <;> rfl

namespace Carries

variable {d : Dispatch} {m : IpcMessage}

theorem parse (h : Carries d m) :
    ipcServerParseRequest m.hipc = .ok ⟨m.hipc, d.cmd.number, m.data.length⟩ := by
  have hroom := h.room
  rw [m.length_data, rawHeaderSize] at hroom
  have hwords : ¬ (m.hipc.numDataWords * 4 < rawHeaderSize ∨ cmifInHeaderMagic ≠ cmifInHeaderMagic) := by
    rw [rawHeaderSize]
    omega
  unfold ipcServerParseRequest
  rw [if_pos h.type, h.header, m.length_data]
  exact if_neg hwords

theorem process (h : Carries d m) (x : Surroundings) (s : Service) (stack : Vector UInt8 maxDataSize) :
    processMessage x s stack m =
      (serviceCase x s m ⟨m.hipc, d.cmd.number, m.data.length⟩).bind (answer s stack m) := by
  unfold processMessage
  rw [h.parse]
  dsimp only
  rw [h.type]

/-- the arguments are at the front of the data -/
theorem read {α : Type} (h : Carries d m) {c : Codec α} {a : α} (hargs : d.args = c.encode a) :
    c.size ≤ m.data.length ∧ c.read m.data = some a := by
  obtain ⟨rest, hrest⟩ := h.args
  have hroom := h.room
  rw [hargs, c.length_encode] at hroom
  refine ⟨by omega, ?_⟩
  rw [← hrest, hargs]
  exact c.read_encode a rest

end Carries

/-- what the service reads does not depend on the padding -/
theorem read_setProfilesArgs {m : IpcMessage} {tid : UInt64} {profiles : HocClkTitleProfileList} {padding : UInt32}
    (hm : Carries (hocclkIpcSetProfiles tid profiles padding) m) :
    (setProfilesArgs 0).read m.data = some (tid, profiles) := by
  obtain ⟨rest, hrest⟩ := hm.args
  have hpadding : (Codec.u32.encode 0).length = (Codec.u32.encode padding).length := rfl
  rw [← hrest]
  show ((Codec.u64.pair titleProfileList).padded _).read
    (((Codec.u64.pair titleProfileList).padded _).encode (tid, profiles) ++ rest) = _
  exact Codec.read_padded hpadding _ _

theorem update_setProfiles {m : IpcMessage} {tid : UInt64} {profiles : HocClkTitleProfileList} {padding : UInt32}
    (hm : Carries (hocclkIpcSetProfiles tid profiles padding) m) : m.update = some (.setProfiles tid profiles) := by
  unfold IpcMessage.update
  rw [hm.parse]
  dsimp only
  rw [if_pos hm.type, HocClkIpcCmd.all_number, Option.bind_some]
  show ((setProfilesArgs 0).read m.data).map _ = _
  rw [read_setProfilesArgs hm]
  rfl

/-- a message that carries a dispatch, with the words filled up -/
def messageOf (d : Dispatch) : IpcMessage where
  hipc := ⟨.request, (d.args.length + 3) / 4 + 8, some ⟨cmifInHeaderMagic, d.cmd.number⟩⟩
  padding := 0
  behindHeader i := d.args.getD i 0
  sendBuffers := d.send
  recvBuffers := d.recv

theorem carries_messageOf (d : Dispatch) : Carries d (messageOf d) := by
  have hlen : d.args.length + 0x10 ≤ (messageOf d).data.length := by
    rw [IpcMessage.length_data, rawHeaderSize]
    show d.args.length + 0x10 ≤ ((d.args.length + 3) / 4 + 8) * 4 - 0x10
    omega
  refine ⟨rfl, rfl, ?_, hlen, rfl, rfl⟩
  rw [List.prefix_iff_getElem?]
  intro i hi
  have hplace : i < (messageOf d).hipc.numDataWords * 4 - rawHeaderSize := by
    rw [IpcMessage.length_data] at hlen
    omega
  unfold IpcMessage.data
  rw [List.getElem?_map, List.getElem?_range hplace, Option.map_some, messageOf]
  simp [hi]

/-! ## One call -/

/-- what a handler leaves is what the caller is to get, `decode` being how it reads the answer -/
inductive Serves {α : Type} (d : Dispatch) (decode : List UInt8 → List (List UInt8) → Option α) (s : Service) :
    Except ServiceError α × Service → Handled → Prop where
  | error (e : ServiceError) : Serves d decode s (.error e, s) (d.outSize, .error e)
  | ok {v : α} {s' : Service} {out buffer : List UInt8} (hsize : out.length = d.outSize) (hout : out.length ≤ 4)
      (hbuffer : buffer.length ≤ (d.recv.headD []).length) (hdecode : decode out (written buffer d.recv) = some v) :
      Serves d decode s (.ok v, s') (d.outSize, .ok ⟨s', out, buffer⟩)

variable {x : Surroundings} {s : Service} {m : IpcMessage} {d : Dispatch}

theorem Serves.answer {c : ClientCall} {spec : Except ServiceError c.Answer × Service} {h : Handled}
    (hserves : Serves c.dispatch c.decode s spec h) (hm : Carries c.dispatch m) :
    ∃ a, (∀ stack, answer s stack m h = some a) ∧ a.service = spec.2 ∧
      c.result a = some (spec.1.mapError hocclkError) := by
  rcases hserves with e | ⟨hsize, hout, hbuffer, hdecode⟩
  · refine ⟨_, answer_error, rfl, ?_⟩
    unfold ClientCall.result responseOf
    rw [Option.bind_some, if_neg (hocclkError_ne e)]
    rfl
  · rw [← hm.recv] at hbuffer hdecode
    rw [← hsize]
    refine ⟨_, fun stack => answer_ok stack hout hbuffer, rfl, ?_⟩
    unfold ClientCall.result responseOf
    rw [Option.bind_some, if_pos rfl, if_pos hsize, hdecode]
    rfl

theorem serves_out {α : Type} {c : Codec α} (hsize : c.size = d.outSize) (hc : c.size ≤ 4)
    (result : Except ServiceError α) : Serves d (fun out _ => c.read out) s (result, s) (answerOut s c result) := by
  unfold answerOut
  rw [hsize]
  cases result with
  | error e => exact .error e
  | ok a =>
    have hlen := c.length_encode a
    exact .ok (hlen.trans hsize) (hlen.trans_le hc) (Nat.zero_le _) (c.read_encode_self a)

theorem serves_buffer {α : Type} {c : Codec α} {old : α} (hsize : d.outSize = 0) (hrecv : d.recv = [c.encode old])
    (result : Except ServiceError α) :
    Serves d (fun _ bufs => bufs.head?.bind c.read) s (result, s) (answerBuffer s c result) := by
  unfold answerBuffer
  rw [← hsize]
  cases result with
  | error e => exact .error e
  | ok a =>
    refine .ok hsize.symm (Nat.zero_le _) ?_ ?_
    · rw [hrecv, List.headD_cons, c.length_encode, c.length_encode]
    · rw [hrecv]
      exact c.read_encode a _

theorem serves_done (hsize : d.outSize = 0) (s' : Service) :
    Serves d (fun _ _ => some ()) s (.ok (), s') (answerService (.ok s')) := by
  unfold answerService
  rw [← hsize]
  exact .ok hsize.symm (Nat.zero_le _) (Nat.zero_le _) rfl

theorem serves_updated (hsize : d.outSize = 0) (u : Update) :
    Serves d (fun _ _ => some ()) s (updated x s u) (answerService (u.apply x s)) := by
  unfold updated
  cases u.apply x s with
  | error e =>
    unfold answerService
    rw [← hsize]
    exact .error e
  | ok s' => exact serves_done hsize s'

theorem size_rateList (n : ℕ) : (rateList n).size = 4 * n := congrArg (4 * ·) (List.length_finRange)

/-- the list of a caller passes the check of its length, and is filled in place -/
theorem serves_rates (module maxCount : UInt32) (list : Fin maxCount.toNat → UInt32) :
    Serves (ClientCall.getFreqList module maxCount list).dispatch (ClientCall.getFreqList module maxCount list).decode s
      ((ClientCall.getFreqList module maxCount list).serve x s)
      (4, (getFreqList x module maxCount ((rateList maxCount.toNat).encode list).length).map fun rates =>
        { service := s, out := Codec.u32.encode (UInt32.ofNat rates.length),
          buffer := rates.flatMap Codec.u32.encode }) := by
  have hlen : ((rateList maxCount.toNat).encode list).length = 4 * maxCount.toNat := by
    rw [(rateList _).length_encode, size_rateList]
  have hcount : ¬ maxCount.toNat ≠ 4 * maxCount.toNat / 4 := by omega
  show Serves _ _ s (match moduleOf module with
    | none => (.error .generic, s)
    | some mod => (.ok (freqListAnswer (x.gFreqTable mod) list), s)) _
  unfold getFreqList
  rw [hlen]
  cases moduleOf module with
  | none => exact .error .generic
  | some mod =>
    dsimp only
    rw [if_neg hcount]
    set rates := (x.gFreqTable mod).take maxCount.toNat with hrates
    have htake : rates.length ≤ maxCount.toNat := List.length_take_le _ _
    have hsize : (Codec.u32.encode (UInt32.ofNat rates.length)).length = 4 := rfl
    refine .ok hsize hsize.le ?_ ?_
    · show _ ≤ ((rateList maxCount.toNat).encode list).length
      rw [Codec.length_flatMap, hlen]
      exact Nat.mul_le_mul_left 4 htake
    · show (Codec.u32.read (Codec.u32.encode _)).bind (fun count => ((rateList maxCount.toNat).read
        (rates.flatMap Codec.u32.encode ++ ((rateList maxCount.toNat).encode list).drop
          (rates.flatMap Codec.u32.encode).length)).map fun list => (count, list)) = _
      rw [Codec.read_encode_self, Option.bind_some, rateList, Codec.array_overwrite _ _ _ htake, Codec.read_encode_self]
      rfl

theorem serviceCase_serves (c : ClientCall) (hm : Carries c.dispatch m) :
    ∃ h, serviceCase x s m ⟨m.hipc, c.dispatch.cmd.number, m.data.length⟩ = some h ∧
      Serves c.dispatch c.decode s (c.serve x s) h := by
  unfold serviceCase
  rw [HocClkIpcCmd.all_number]
  cases c
  case getAPIVersion => exact ⟨_, rfl, serves_out rfl le_rfl _⟩
  case getVersionString out =>
    rw [hm.recv]
    have hlen := length_strncpy TARGET_VERSION (out.length - 1)
    refine ⟨_, rfl, .ok rfl (Nat.zero_le _) (hlen.trans_le (Nat.sub_le _ _)) ?_⟩
    show some _ = some _
    rw [hlen]
  case getCurrentContext out =>
    rw [hm.recv]
    have hroom : 8 ≤ m.data.length := by
      have h := hm.room
      omega
    exact ⟨_, if_pos ⟨hroom, (hocClkContext.length_encode out).ge⟩, serves_buffer rfl rfl _⟩
  case getProfileCount tid =>
    obtain ⟨hsize, hread⟩ := hm.read (c := Codec.u64) (a := tid) rfl
    have hout : Codec.u8.size ≤ 4 := by decide
    refine ⟨_, ?_, serves_out rfl hout _⟩
    show (if Codec.u64.size ≤ m.data.length then _ else _) = _
    rw [if_pos hsize, hread]
    rfl
  case setEnabled enabled =>
    obtain ⟨hsize, hread⟩ := hm.read (c := Codec.u8) rfl
    have hservice : setEnabled s (if enabled then 1 else 0) = { s with gEnabled := enabled } := by
      cases enabled <;> rfl
    refine ⟨_, ?_, serves_done rfl _⟩
    show (if Codec.u8.size ≤ m.data.length then _ else _) = _
    rw [if_pos hsize, hread, Option.map_some, hservice]
  case setOverride module hz =>
    obtain ⟨hsize, hread⟩ := hm.read (c := setOverrideArgs) rfl
    refine ⟨_, ?_, serves_updated rfl (.setOverride module hz)⟩
    show (if setOverrideArgs.size ≤ m.data.length then _ else _) = _
    rw [if_pos hsize, hread]
    rfl
  case getProfiles tid out =>
    obtain ⟨hsize, hread⟩ := hm.read (c := Codec.u64) (a := tid) rfl
    rw [hm.recv]
    refine ⟨_, ?_, serves_buffer rfl rfl _⟩
    show (if Codec.u64.size ≤ m.data.length ∧ titleProfileList.size ≤ (titleProfileList.encode out).length then _ else _) = _
    rw [if_pos ⟨hsize, (titleProfileList.length_encode out).ge⟩, hread]
    rfl
  case setProfiles tid profiles padding =>
    have hread := read_setProfilesArgs hm
    have hsize : (setProfilesArgs 0).size ≤ m.data.length := (hm.read (c := setProfilesArgs padding) rfl).1
    refine ⟨_, ?_, serves_updated rfl (.setProfiles tid profiles)⟩
    show (if (setProfilesArgs 0).size ≤ m.data.length then _ else _) = _
    rw [if_pos hsize, hread]
    rfl
  case getConfigValues out =>
    rw [hm.recv]
    exact ⟨_, if_pos (configValueList.length_encode out).ge, serves_buffer rfl rfl _⟩
  case setConfigValues values =>
    rw [hm.send]
    refine ⟨_, ?_, serves_updated rfl (.setConfigValues values)⟩
    show (if configValueList.size ≤ (configValueList.encode values).length then _ else _) = _
    rw [if_pos (configValueList.length_encode values).ge, configValueList.read_encode_self]
    rfl
  case getFreqList module maxCount list =>
    obtain ⟨hsize, hread⟩ := hm.read (c := getFreqListArgs) rfl
    rw [hm.recv]
    refine ⟨_, ?_, serves_rates module maxCount list⟩
    show (if getFreqListArgs.size ≤ m.data.length then _ else _) = _
    rw [if_pos hsize, hread]
    rfl
  case setKipData => exact ⟨_, rfl, serves_done rfl _⟩
  case getKipData => exact ⟨_, rfl, .error .generic⟩

theorem call_answered (c : ClientCall) (x : Surroundings) (s : Service) (hm : Carries c.dispatch m) :
    ∃ a, (∀ stack, processMessage x s stack m = some a) ∧ a.service = (c.serve x s).2 ∧
      c.result a = some ((c.serve x s).1.mapError hocclkError) := by
  obtain ⟨h, hcase, hserves⟩ := serviceCase_serves (x := x) (s := s) c hm
  obtain ⟨a, ha, hservice, hresult⟩ := hserves.answer hm
  refine ⟨a, fun stack => ?_, hservice, hresult⟩
  rw [hm.process, hcase, Option.bind_some, ha]

/-! ## Runs -/

/-- one call, as the operation it stands for -/
def callStep (s : Service) (e : ClientCall × Arrival) : Option Service := some (e.1.serve e.2.surroundings s).2

/-- **Calls.** In whatever order the messages of the clients arrive, each caller gets the answer of its operation on the
service as the calls in front of it have left it. -/
theorem calls_served (s : Service) {calls : List (ClientCall × Arrival)}
    (hcalls : ∀ e ∈ calls, Carries e.1.dispatch e.2.message) :
    run serviceStep s (calls.map Prod.snd) = run callStep s calls ∧
    ∀ t e t', Takes callStep s calls t e t' → ∃ a : Answered,
      (∀ stack, processMessage e.2.surroundings t stack e.2.message = some a) ∧ a.service = t' ∧
      e.1.result a = some ((e.1.serve e.2.surroundings t).1.mapError hocclkError) := by
  constructor
  · induction calls generalizing s with
    | nil => rfl
    | cons e calls ih =>
      obtain ⟨a, ha, hservice, -⟩ := call_answered e.1 e.2.surroundings s (hcalls e List.mem_cons_self)
      rw [List.map_cons, run_cons, run_cons, serviceStep, ha, Option.map_some, Option.bind_some, hservice]
      exact ih _ fun e' he' => hcalls e' (List.mem_cons_of_mem _ he')
  · rintro t e t' ⟨pre, post, rfl, -, hstep⟩
    obtain ⟨a, ha, hservice, hresult⟩ := call_answered e.1 e.2.surroundings t (hcalls e (by simp))
    exact ⟨a, ha, hservice.trans (Option.some.inj hstep), hresult⟩

/-! ## A sample run -/

def arrivalOf (c : ClientCall) : ClientCall × Arrival := (c, ⟨sampleSurroundings, Vector.replicate _ 0, messageOf c.dispatch⟩)

/-- a clock of a title, set and read back, and the rates of the memory in a list with room for one -/
def sampleClientCalls : List (ClientCall × Arrival) :=
  [arrivalOf (.setProfiles 0x0100F2C0115B6000 (fun pm => if pm = (.handheld, .cpu) then 1020 else 0) 7),
    arrivalOf (.getProfiles 0x0100F2C0115B6000 fun _ => 0), arrivalOf (.getFreqList 2 1 fun _ => 0)]

theorem sampleClientCalls_served :
    run serviceStep sampleService (sampleClientCalls.map Prod.snd) = run callStep sampleService sampleClientCalls ∧
    ∀ t e t', Takes callStep sampleService sampleClientCalls t e t' → ∃ a : Answered,
      (∀ stack, processMessage e.2.surroundings t stack e.2.message = some a) ∧ a.service = t' ∧
      e.1.result a = some ((e.1.serve e.2.surroundings t).1.mapError hocclkError) := by
  refine calls_served sampleService ?_
  intro e he
  unfold sampleClientCalls at he
  simp only [List.mem_cons, List.not_mem_nil, or_false] at he
  rcases he with rfl | rfl | rfl <;> exact carries_messageOf _

end RyazhaClk.IpcService
