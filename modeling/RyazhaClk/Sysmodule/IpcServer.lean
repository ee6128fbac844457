/-
The session table of the IPC server: the service port in front, the accepted sessions behind it. One `ipcServerProcess`
waits on the whole table, and accepts a session, serves one, or deletes one whose client is gone or misbehaves.

- `take_shiftDown`: the loop of `_ipcServerDeleteSession` takes one entry out and keeps the order of the others.
- `step_inv`: the table is the port and the sessions accepted and not yet closed, whatever the kernel answers.
- `ipcServer_sessions`: so it is behind every sequence of calls, and no handle is closed twice.
- `process_sessions`, `ipcServer_accepts`: what is accepted and closed, in terms of what the kernel answered.

The kernel is an environment: what each of its calls answers is arbitrary, but an accepted session gets a handle that is
not open.
-/
import RyazhaClk.Lib.Handles
import RyazhaClk.Lib.Transition

namespace RyazhaClk

open Handles Transition

/-! ## The server -/

abbrev Handle := ℕ

/-- `MAX_WAIT_OBJECTS` of libnx -/
def maxWaitObjects : ℕ := 64

/-- the results the server tells apart -/
inductive IpcResult where
  | success
  | badInput
  | outOfMemory
  | notFound
  | timedOut
  /-- any other failure of the kernel or of a handler -/
  | other (rc : ℕ)
deriving DecidableEq

inductive CmifCommandType where
  | request
  | close
  | other (type : ℕ)
deriving DecidableEq

structure RawHeader where
  magic : ℕ
  cmdId : ℕ

/-- the parsed message in the thread's buffer; `header` is `cmifGetAlignedDataStart` -/
structure HipcParsedRequest where
  type : CmifCommandType
  numDataWords : ℕ
  header : Option RawHeader

structure IpcServerRequest where
  hipc : HipcParsedRequest
  cmdId : ℕ
  size : ℕ

structure IpcServer where
  handles : Vector Handle maxWaitObjects
  max : ℕ
  count : ℕ

/-- what the kernel answers to the calls of one `ipcServerProcess` -/
structure KernelAnswers where
  /-- `svcWaitSynchronization`: its result and the index it stores -/
  wait : IpcResult × ℤ
  /-- `svcAcceptSession` -/
  accept : Except IpcResult Handle
  /-- `svcReplyAndReceive` for the request, and the message behind it -/
  receive : IpcResult
  message : HipcParsedRequest
  /-- `svcReplyAndReceive` with the reply -/
  reply : IpcResult

/-- a call: the server it leaves, the sessions it accepted and closed, the result in the response, its own result -/
structure Served where
  server : IpcServer
  sessions : List (Event Handle) := []
  response : Option IpcResult := none
  rc : IpcResult

/-- `sizeof(IpcServerRawHeader)` -/
def rawHeaderSize : ℕ := 16

/-- `SFCI` -/
def cmifInHeaderMagic : ℕ := 0x49434653

def ipcServerInit (maxSessions : ℕ) (register : Except IpcResult Handle) (server : IpcServer) : IpcServer × IpcResult :=
  if maxSessions < 1 ∨ maxSessions > maxWaitObjects - 1 then (server, .badInput)
  else
    match register with
    | .error rc => ({ server with max := maxSessions + 1, count := 0 }, rc)
    | .ok port => ({ handles := server.handles.set 0 port, max := maxSessions + 1, count := 1 }, .success)

def ipcServerAddSession (server : IpcServer) (session : Handle) : Except IpcResult IpcServer :=
  if server.count ≥ server.max then .error .outOfMemory
  else
    .ok { server with
      handles := server.handles.setIfInBounds server.count session
      count := server.count + 1 }

/-- `n` entries from `j` on take the value of the entry behind them -/
def shiftDown (j : ℕ) : ℕ → Vector Handle maxWaitObjects → Vector Handle maxWaitObjects
  | 0, handles => handles
  | n + 1, handles => shiftDown (j + 1) n (handles.setIfInBounds j (handles[j + 1]?.getD 0))

/-- the server, and the handle that was closed -/
def ipcServerDeleteSession (server : IpcServer) (index : ℕ) : Except IpcResult (IpcServer × Handle) :=
  if index = 0 ∨ index ≥ server.count then .error .badInput
  else
    .ok
      ({ server with
          handles := shiftDown index (server.count - 1 - index) server.handles
          count := server.count - 1 },
        server.handles[index]?.getD 0)

def ipcServerParseRequest (hipc : HipcParsedRequest) : Except IpcResult IpcServerRequest :=
  if hipc.type = .request then
    match hipc.header with
    | none => .error .badInput
    | some header =>
      if hipc.numDataWords * 4 < rawHeaderSize ∨ header.magic ≠ cmifInHeaderMagic then .error .badInput
      else .ok ⟨hipc, header.cmdId, hipc.numDataWords * 4 - rawHeaderSize⟩
  else .ok ⟨hipc, 0, 0⟩

def ipcServerProcessNewSession (server : IpcServer) (k : KernelAnswers) : Served :=
  match k.accept with
  | .error rc => { server, rc }
  | .ok session =>
    match ipcServerAddSession server session with
    | .ok server => { server, sessions := [.acquire session], rc := .success }
    | .error rc => { server, sessions := [.acquire session, .release session], rc }

variable (handler : IpcServerRequest → IpcResult)

/-- the result put into the response, and whether the session is to be closed -/
def ipcServerRespond (r : IpcServerRequest) : IpcResult × Bool :=
  match r.hipc.type with
  | .request => (handler r, false)
  | .close => (.success, true)
  | .other _ => (.other (11 + 403 * 2 ^ 9), false)

/-- the session is deleted when the call fails or the client closes it; what the deletion returns is not looked at -/
def ipcServerFinishSession (server : IpcServer) (handleIndex : ℕ) (response : Option IpcResult) (rc : IpcResult)
    (close : Bool) : Served :=
  if rc ≠ .success ∨ close then
    match ipcServerDeleteSession server handleIndex with
    | .ok (server, session) => { server, sessions := [.release session], response, rc }
    | .error _ => { server, response, rc }
  else { server, response, rc }

def ipcServerProcessSession (server : IpcServer) (k : KernelAnswers) (handleIndex : ℕ) : Served :=
  if k.receive ≠ .success then ipcServerFinishSession server handleIndex none k.receive false
  else
    match ipcServerParseRequest k.message with
    | .error rc => ipcServerFinishSession server handleIndex none rc false
    | .ok r =>
      let (response, close) := ipcServerRespond handler r
      ipcServerFinishSession server handleIndex (some response)
        (if k.reply = .timedOut then .success else k.reply) close

def ipcServerProcess (server : IpcServer) (k : KernelAnswers) : Served :=
  if k.wait.1 ≠ .success then { server, rc := k.wait.1 }
  else if k.wait.2 < 0 ∨ k.wait.2 ≥ server.count then { server, rc := .notFound }
  else if k.wait.2 ≠ 0 then ipcServerProcessSession handler server k k.wait.2.toNat
  else ipcServerProcessNewSession server k

/-! ## One entry more, one entry less -/

theorem getElem?_shiftDown {j n : ℕ} (handles : Vector Handle maxWaitObjects) (h : j + n < maxWaitObjects) (i : ℕ) :
    (shiftDown j n handles)[i]? = if j ≤ i ∧ i < j + n then handles[i + 1]? else handles[i]? := by
  induction n generalizing j handles with
  | zero => rw [shiftDown, if_neg (by omega)]
  | succ n ih =>
    have hnext : handles[j + 1]? = some (handles[j + 1]?.getD 0) := by
      rw [Vector.getElem?_eq_getElem (by omega)]
      rfl
    rw [shiftDown, ih _ (by omega), Vector.getElem?_setIfInBounds, Vector.getElem?_setIfInBounds]
    by_cases hj : i = j
    · subst hj
      rw [if_neg (by omega), if_pos rfl, if_pos (by omega), if_pos (by omega), hnext]
      rfl
    · by_cases hin : j ≤ i ∧ i < j + (n + 1)
      · rw [if_pos (by omega), if_neg (by omega), if_pos hin]
      · rw [if_neg (by omega), if_neg (by omega), if_neg hin]

/-- the loop takes out one entry and keeps the order of the others -/
theorem take_shiftDown {handles : Vector Handle maxWaitObjects} {index count : ℕ} (hindex : index < count)
    (hcount : count ≤ maxWaitObjects) :
    (shiftDown index (count - 1 - index) handles).toList.take (count - 1) = (handles.toList.take count).eraseIdx index := by
  apply List.ext_getElem?
  intro i
  rw [List.getElem?_take, List.getElem?_eraseIdx, Vector.getElem?_toList,
    getElem?_shiftDown handles (by omega), List.getElem?_take, List.getElem?_take, Vector.getElem?_toList,
    Vector.getElem?_toList]
  by_cases hi : i < count - 1
  · by_cases hbefore : i < index
    · rw [if_pos hi, if_neg (by omega), if_pos hbefore, if_pos (by omega)]
    · rw [if_pos hi, if_pos (by omega), if_neg hbefore, if_pos (by omega)]
  · by_cases hbefore : i < index
    · omega
    · rw [if_neg hi, if_neg hbefore, if_neg (by omega)]

theorem take_setIfInBounds {handles : Vector Handle maxWaitObjects} {count : ℕ} (hcount : count < maxWaitObjects)
    (session : Handle) :
    (handles.setIfInBounds count session).toList.take (count + 1) = handles.toList.take count ++ [session] := by
  apply List.ext_getElem?
  intro i
  have hlen : (handles.toList.take count).length = count := by
    rw [List.length_take, Vector.length_toList]
    omega
  rw [List.getElem?_take, Vector.getElem?_toList, Vector.getElem?_setIfInBounds]
  rcases lt_trichotomy i count with hi | rfl | hi
  · rw [if_pos (by omega), if_neg (by omega), List.getElem?_append_left (by omega), List.getElem?_take, if_pos hi,
      Vector.getElem?_toList]
  · rw [if_pos (by omega), if_pos rfl, if_pos (by omega), List.getElem?_append_right (by omega), hlen, Nat.sub_self]
    rfl
  · rw [if_neg (by omega), List.getElem?_append_right (by omega), hlen]
    have hbehind : i - count = (i - count - 1) + 1 := by omega
    rw [hbehind]
    rfl

/-! ## What a call can do -/

/-- the handles in use -/
def IpcServer.table (server : IpcServer) : List Handle := server.handles.toList.take server.count

/-- nothing, a session more, a session refused, or a session less -/
inductive ServedOutcome (server : IpcServer) (k : KernelAnswers) : IpcServer → List (Event Handle) → Prop where
  | unchanged : ServedOutcome server k server []
  | added {session : Handle} {server' : IpcServer} (hwait : k.wait = (.success, 0)) (haccept : k.accept = .ok session)
      (hadd : ipcServerAddSession server session = .ok server') : ServedOutcome server k server' [.acquire session]
  | refused {session : Handle} (hwait : k.wait = (.success, 0)) (haccept : k.accept = .ok session)
      (hfull : server.max ≤ server.count) : ServedOutcome server k server [.acquire session, .release session]
  | deleted {index : ℕ} {session : Handle} {server' : IpcServer}
      (hdelete : ipcServerDeleteSession server index = .ok (server', session)) :
      ServedOutcome server k server' [.release session]

variable {handler} {server server' : IpcServer} {session : Handle} {k : KernelAnswers}

theorem finishSession_outcome {index : ℕ} {response : Option IpcResult} {rc : IpcResult} {close : Bool} :
    ServedOutcome server k (ipcServerFinishSession server index response rc close).server
      (ipcServerFinishSession server index response rc close).sessions := by
  unfold ipcServerFinishSession
  by_cases hdelete : rc ≠ .success ∨ close = true
  · rw [if_pos hdelete]
    rcases hresult : ipcServerDeleteSession server index with e | ⟨server', session⟩
    · exact .unchanged
    · exact .deleted hresult
  · rw [if_neg hdelete]
    exact .unchanged

theorem processNewSession_outcome (hwait : k.wait = (.success, 0)) :
    ServedOutcome server k (ipcServerProcessNewSession server k).server
      (ipcServerProcessNewSession server k).sessions := by
  unfold ipcServerProcessNewSession
  rcases haccept : k.accept with rc | session
  · exact .unchanged
  · rcases hadd : ipcServerAddSession server session with rc | server'
    · simp only [hadd]
      refine .refused hwait haccept ?_
      by_contra hfull
      rw [ipcServerAddSession, if_neg (fun h => hfull h)] at hadd
      cases hadd
    · simp only [hadd]
      exact .added hwait haccept hadd

theorem process_outcome :
    ServedOutcome server k (ipcServerProcess handler server k).server (ipcServerProcess handler server k).sessions := by
  unfold ipcServerProcess
  by_cases hwait : k.wait.1 ≠ .success
  · rw [if_pos hwait]
    exact .unchanged
  · rw [if_neg hwait]
    by_cases hindex : k.wait.2 < 0 ∨ k.wait.2 ≥ server.count
    · rw [if_pos hindex]
      exact .unchanged
    · rw [if_neg hindex]
      by_cases hport : k.wait.2 ≠ 0
      · rw [if_pos hport, ipcServerProcessSession]
        by_cases hreceive : k.receive ≠ .success
        · rw [if_pos hreceive]
          exact finishSession_outcome
        · rw [if_neg hreceive]
          rcases ipcServerParseRequest k.message with rc | r
          · exact finishSession_outcome
          · exact finishSession_outcome
      · rw [if_neg hport]
        exact processNewSession_outcome (Prod.ext (not_not.1 hwait) (not_not.1 hport))

/-- the session the kernel hands out when the port is ready -/
def KernelAnswers.accepted (k : KernelAnswers) : List Handle :=
  if k.wait = (.success, 0) then
    match k.accept with
    | .ok session => [session]
    | .error _ => []
  else []

/-- the exchange with a session is its last: the kernel reports a failure, the message is malformed, or the client closes -/
def KernelAnswers.ends (k : KernelAnswers) : Bool :=
  k.receive ≠ .success ||
    match ipcServerParseRequest k.message with
    | .error _ => true
    | .ok r => (k.reply ≠ .success && k.reply ≠ .timedOut) || r.hipc.type = .close

theorem parseRequest_error {hipc : HipcParsedRequest} {rc : IpcResult} (h : ipcServerParseRequest hipc = .error rc) :
    rc = .badInput := by
  unfold ipcServerParseRequest at h
  by_cases htype : hipc.type = .request
  · rw [if_pos htype] at h
    rcases hheader : hipc.header with _ | header
    · rw [hheader] at h
      exact (Except.error.inj h).symm
    · rw [hheader] at h
      dsimp only at h
      split_ifs at h
      exact (Except.error.inj h).symm
  · rw [if_neg htype] at h
    cases h

theorem respond_close (r : IpcServerRequest) : (ipcServerRespond handler r).2 = decide (r.hipc.type = .close) := by
  unfold ipcServerRespond
  cases r.hipc.type <;> rfl

theorem finishSession_sessions {index : ℕ} {response : Option IpcResult} {rc : IpcResult} {close : Bool}
    (h0 : index ≠ 0) (hindex : index < server.count) :
    (ipcServerFinishSession server index response rc close).sessions =
      if rc ≠ .success ∨ close then [.release (server.handles[index]?.getD 0)] else [] := by
  unfold ipcServerFinishSession
  by_cases hdelete : rc ≠ .success ∨ close = true
  · rw [if_pos hdelete, if_pos hdelete, ipcServerDeleteSession, if_neg (by omega)]
  · rw [if_neg hdelete, if_neg hdelete]

theorem processSession_sessions {index : ℕ} (h0 : index ≠ 0) (hindex : index < server.count) :
    (ipcServerProcessSession handler server k index).sessions =
      if k.ends then [.release (server.handles[index]?.getD 0)] else [] := by
  unfold ipcServerProcessSession KernelAnswers.ends
  by_cases hreceive : k.receive = .success
  · rw [if_neg (not_not.2 hreceive)]
    rcases hparse : ipcServerParseRequest k.message with rc | r
    · dsimp only
      rw [finishSession_sessions h0 hindex, parseRequest_error hparse]
      simp [hreceive]
    · dsimp only
      rw [finishSession_sessions h0 hindex, respond_close]
      by_cases hreply : k.reply = .timedOut
      · simp [hreceive, hreply]
      · simp [hreceive, hreply]
  · rw [if_pos hreceive, finishSession_sessions h0 hindex]
    simp [hreceive]

/-- **What a call accepts and closes**: the session the kernel hands out, closed at once when the table is full; or the
session it points at, when their exchange is the last. -/
theorem process_sessions : (ipcServerProcess handler server k).sessions =
    if k.wait.1 = .success ∧ 0 ≤ k.wait.2 ∧ k.wait.2 < server.count then
      if k.wait.2 = 0 then
        k.accepted.flatMap fun session =>
          if server.max ≤ server.count then [.acquire session, .release session] else [.acquire session]
      else if k.ends then [.release (server.handles[k.wait.2.toNat]?.getD 0)] else []
    else [] := by
  unfold ipcServerProcess
  by_cases hwait : k.wait.1 = .success
  · rw [if_neg (not_not.2 hwait)]
    by_cases hindex : k.wait.2 < 0 ∨ k.wait.2 ≥ server.count
    · rw [if_pos hindex, if_neg (by omega)]
    · have hin : k.wait.1 = .success ∧ 0 ≤ k.wait.2 ∧ k.wait.2 < server.count := ⟨hwait, by omega, by omega⟩
      rw [if_neg hindex, if_pos hin]
      by_cases hport : k.wait.2 = 0
      · have hboth : k.wait = (.success, 0) := Prod.ext hwait hport
        rw [if_neg (not_not.2 hport), if_pos hport, KernelAnswers.accepted, if_pos hboth, ipcServerProcessNewSession]
        rcases k.accept with rc | session
        · rfl
        · by_cases hfull : server.max ≤ server.count
          · simp [ipcServerAddSession, hfull]
          · simp [ipcServerAddSession, hfull]
      · rw [if_pos hport, if_neg hport, processSession_sessions (by omega) (by omega)]
  · rw [if_pos hwait, if_neg (fun h => hwait h.1)]

theorem table_add (h : ipcServerAddSession server session = .ok server') (hmax : server.max ≤ maxWaitObjects) :
    server'.table = server.table ++ [session] ∧ server'.max = server.max ∧ server'.count = server.count + 1 ∧
      server'.count ≤ server'.max := by
  unfold ipcServerAddSession at h
  by_cases hfull : server.count ≥ server.max
  · rw [if_pos hfull] at h
    cases h
  · rw [if_neg hfull] at h
    obtain rfl := Except.ok.inj h
    exact ⟨take_setIfInBounds (by omega) session, rfl, rfl, not_le.1 hfull⟩

theorem table_delete {index : ℕ} (h : ipcServerDeleteSession server index = .ok (server', session))
    (hcount : server.count ≤ maxWaitObjects) :
    index ≠ 0 ∧ server.table[index]? = some session ∧ server'.table = server.table.eraseIdx index ∧
      server'.max = server.max ∧ server'.count = server.count - 1 := by
  unfold ipcServerDeleteSession at h
  by_cases hbad : index = 0 ∨ index ≥ server.count
  · rw [if_pos hbad] at h
    cases h
  · rw [if_neg hbad] at h
    obtain ⟨rfl, rfl⟩ := Prod.mk.inj (Except.ok.inj h)
    rw [not_or, not_le] at hbad
    refine ⟨hbad.1, ?_, take_shiftDown hbad.2 hcount, rfl, rfl⟩
    rw [IpcServer.table, List.getElem?_take, if_pos hbad.2, Vector.getElem?_toList, Vector.getElem?_eq_getElem (by omega)]
    rfl

/-! ## Runs -/

/-- the server, and the sessions accepted and closed so far -/
structure IpcServerState where
  server : IpcServer
  sessions : List (Event Handle)

def ipcStep (handler : IpcServerRequest → IpcResult) (s : IpcServerState) (k : KernelAnswers) : Option IpcServerState :=
  let served := ipcServerProcess handler s.server k
  some ⟨served.server, s.sessions ++ served.sessions⟩

/-- an accepted session gets a handle that is not open -/
def FreshSession (port : Handle) (s : IpcServerState) (k : KernelAnswers) : Prop :=
  k.wait = (.success, 0) → ∀ session, k.accept = .ok session → session ∉ port :: live s.sessions

/-- the table is the port and the sessions accepted and not yet closed -/
structure SessionsInv (port : Handle) (s : IpcServerState) : Prop where
  table : s.server.table = port :: live s.sessions
  count_le : s.server.count ≤ s.server.max
  max_le : s.server.max ≤ maxWaitObjects
  orderly : Orderly s.sessions
  port_not_live : port ∉ live s.sessions

theorem SessionsInv.count_eq {port : Handle} {s : IpcServerState} (h : SessionsInv port s) :
    s.server.count = (live s.sessions).length + 1 := by
  have hlen := congrArg List.length h.table
  rw [IpcServer.table, List.length_take, Vector.length_toList, List.length_cons] at hlen
  have hmax := h.count_le.trans h.max_le
  omega

/-- an accepted session stands behind the others -/
theorem SessionsInv.added {port : Handle} {s : IpcServerState} (h : SessionsInv port s)
    (hnew : session ∉ port :: live s.sessions) (hadd : ipcServerAddSession s.server session = .ok server') :
    SessionsInv port ⟨server', s.sessions ++ [.acquire session]⟩ := by
  rw [List.mem_cons, not_or] at hnew
  obtain ⟨htable, hmax, -, hcount⟩ := table_add hadd h.max_le
  refine ⟨?_, hcount, hmax.trans_le h.max_le, orderly_append (e := .acquire session) h.orderly hnew.2, ?_⟩
  · rw [htable, h.table, live_append]
    rfl
  · rw [live_append, after, List.mem_append, List.mem_singleton]
    rintro (hlive | rfl)
    · exact h.port_not_live hlive
    · exact hnew.1 rfl

/-- a refused session is accepted and closed at once -/
theorem SessionsInv.refused {port : Handle} {s : IpcServerState} (h : SessionsInv port s)
    (hnew : session ∉ port :: live s.sessions) :
    SessionsInv port ⟨s.server, s.sessions ++ [.acquire session, .release session]⟩ := by
  rw [List.mem_cons, not_or] at hnew
  have hlive := live_acquire_release hnew.2
  refine ⟨?_, h.count_le, h.max_le, ?_, ?_⟩
  · rw [hlive]
    exact h.table
  · have hsplit : s.sessions ++ [.acquire session, .release session] =
        (s.sessions ++ [.acquire session]) ++ [.release session] := by simp
    rw [hsplit]
    apply orderly_append (orderly_append (e := .acquire session) h.orderly hnew.2)
    simp [Fits, after]
  · rw [hlive]
    exact h.port_not_live

/-- a deleted session is one of those open, and leaves the others in order -/
theorem SessionsInv.deleted {port : Handle} {s : IpcServerState} {index : ℕ} (h : SessionsInv port s)
    (hdelete : ipcServerDeleteSession s.server index = .ok (server', session)) :
    SessionsInv port ⟨server', s.sessions ++ [.release session]⟩ := by
  obtain ⟨hindex, hsession, htable, hmax, hcount⟩ := table_delete hdelete (h.count_le.trans h.max_le)
  obtain ⟨index, rfl⟩ := Nat.exists_eq_succ_of_ne_zero hindex
  rw [h.table, List.getElem?_cons_succ] at hsession
  obtain ⟨hlt, rfl⟩ := List.getElem?_eq_some_iff.1 hsession
  have hlive : live (s.sessions ++ [.release (live s.sessions)[index]]) = (live s.sessions).eraseIdx index := by
    rw [live_append, after, h.orderly.live_nodup.erase_getElem]
  refine ⟨?_, ?_, hmax.trans_le h.max_le, orderly_append h.orderly (List.getElem_mem hlt), ?_⟩
  · rw [htable, h.table, hlive]
    rfl
  · rw [hcount, hmax]
    exact (Nat.sub_le _ _).trans h.count_le
  · rw [hlive]
    exact fun hmem => h.port_not_live (List.mem_of_mem_eraseIdx hmem)

theorem step_inv {port : Handle} {s t : IpcServerState} (h : SessionsInv port s) (hfresh : FreshSession port s k)
    (hstep : ipcStep handler s k = some t) : SessionsInv port t := by
  obtain rfl := Option.some.inj hstep
  have houtcome := @process_outcome handler s.server k
  generalize ipcServerProcess handler s.server k = served at houtcome
  rcases served with ⟨server', sessions, response, rc⟩
  dsimp only at houtcome ⊢
  rcases houtcome with _ | ⟨hwait, haccept, hadd⟩ | ⟨hwait, haccept, _⟩ | hdelete
  · rwa [List.append_nil]
  · exact h.added (hfresh hwait _ haccept) hadd
  · exact h.refused (hfresh hwait _ haccept)
  · exact h.deleted hdelete

/-- a call acquires what the kernel hands out -/
theorem step_acquires {port : Handle} {s t : IpcServerState} (h : SessionsInv port s)
    (hstep : ipcStep handler s k = some t) : acquired t.sessions = acquired s.sessions ++ k.accepted := by
  obtain rfl := Option.some.inj hstep
  have hcount := h.count_eq
  rw [acquired_append, process_sessions]
  congr 1
  by_cases hwait : k.wait = (.success, 0)
  · have hin : k.wait.1 = .success ∧ 0 ≤ k.wait.2 ∧ k.wait.2 < s.server.count := by
      rw [hwait, hcount]
      exact ⟨rfl, le_refl _, by positivity⟩
    rw [if_pos hin, if_pos (by rw [hwait]), KernelAnswers.accepted, if_pos hwait]
    rcases k.accept with rc | session
    · rfl
    · simp only [List.flatMap_cons, List.flatMap_nil, List.append_nil]
      split_ifs <;> rfl
  · rw [KernelAnswers.accepted, if_neg hwait]
    split_ifs with hin hport
    · exact absurd (Prod.ext hin.1 hport) hwait
    all_goals rfl

/-- the state behind a successful `ipcServerInit` -/
def startState (port : Handle) (maxSessions : ℕ) (server : IpcServer) : IpcServerState :=
  ⟨(ipcServerInit maxSessions (.ok port) server).1, []⟩

theorem start_inv {port : Handle} {maxSessions : ℕ} {server : IpcServer}
    (h : (ipcServerInit maxSessions (.ok port) server).2 = .success) :
    SessionsInv port (startState port maxSessions server) := by
  unfold startState
  unfold ipcServerInit at h ⊢
  by_cases hbad : maxSessions < 1 ∨ maxSessions > maxWaitObjects - 1
  · rw [if_pos hbad] at h
    cases h
  · rw [if_neg hbad]
    unfold maxWaitObjects at hbad
    refine ⟨?_, ?_, ?_, orderly_nil, List.not_mem_nil⟩
    · rw [IpcServer.table, live_nil]
      apply List.ext_getElem?
      intro i
      rcases i with _ | i
      · simp
      · simp
    · dsimp only
      omega
    · dsimp only
      unfold maxWaitObjects
      omega

/-- what the table of the server says about the sessions so far -/
structure SessionTable (port : Handle) (s : IpcServerState) : Prop where
  port_first : s.server.handles[0]? = some port
  sessions : (s.server.handles.toList.take s.server.count).drop 1 = live s.sessions
  /-- in the order of acceptance -/
  in_order : (live s.sessions).Sublist (acquired s.sessions)
  nodup : (s.server.handles.toList.take s.server.count).Nodup
  count : 1 ≤ s.server.count ∧ s.server.count ≤ s.server.max
  /-- every handle closed was open: none is closed twice -/
  orderly : Orderly s.sessions

theorem SessionsInv.sessionTable {port : Handle} {s : IpcServerState} (h : SessionsInv port s) :
    SessionTable port s := by
  have hcount := h.count_eq
  have htable : s.server.handles.toList.take s.server.count = port :: live s.sessions := h.table
  refine ⟨?_, ?_, live_sublist _, ?_, ⟨by omega, h.count_le⟩, h.orderly⟩
  · have hfirst := congrArg (·[0]?) htable
    simpa [List.getElem?_take, hcount] using hfirst
  · rw [htable]
    rfl
  · rw [htable]
    exact List.nodup_cons.2 ⟨h.port_not_live, h.orderly.live_nodup⟩

/-- **behind any sequence of calls the table is the port and the sessions accepted and not yet closed, and a session the
full table refuses is closed and leaves it unchanged** -/
theorem ipcServer_sessions {port : Handle} {maxSessions : ℕ} {server : IpcServer} {calls : List KernelAnswers}
    {s : IpcServerState}
    (hinit : (ipcServerInit maxSessions (.ok port) server).2 = .success)
    (hfresh : AllSteps (ipcStep handler) (FreshSession port) (startState port maxSessions server) calls)
    (hrun : run (ipcStep handler) (startState port maxSessions server) calls = some s) :
    SessionTable port s ∧ ∀ (k : KernelAnswers) (session : Handle), k.wait = (.success, 0) → k.accept = .ok session →
      s.server.count = s.server.max →
      (ipcServerProcess handler s.server k).server = s.server ∧
        (ipcServerProcess handler s.server k).sessions = [.acquire session, .release session] := by
  have hinv := run_inv (SessionsInv port) (fun _ _ _ hi hf ht => step_inv hi hf ht) hfresh (start_inv hinit) hrun
  refine ⟨hinv.sessionTable, ?_⟩
  intro k session hwait haccept hfull
  have hcount := hinv.count_eq
  have hadd : ipcServerAddSession s.server session = .error .outOfMemory := if_pos hfull.ge
  have hnew : ipcServerProcess handler s.server k = ipcServerProcessNewSession s.server k := by
    rw [ipcServerProcess, hwait]
    simp [hcount]
  rw [hnew, ipcServerProcessNewSession, haccept]
  simp only [hadd, and_self]

/-- **The sessions accepted are those the kernel handed out**, in its order. -/
theorem ipcServer_accepts {port : Handle} {maxSessions : ℕ} {server : IpcServer} {calls : List KernelAnswers}
    {s : IpcServerState} (hinit : (ipcServerInit maxSessions (.ok port) server).2 = .success)
    (hfresh : AllSteps (ipcStep handler) (FreshSession port) (startState port maxSessions server) calls)
    (hrun : run (ipcStep handler) (startState port maxSessions server) calls = some s) :
    acquired s.sessions = calls.flatMap KernelAnswers.accepted := by
  have hrest : ∀ (calls : List KernelAnswers) (u : IpcServerState), SessionsInv port u →
      AllSteps (ipcStep handler) (FreshSession port) u calls → run (ipcStep handler) u calls = some s →
      acquired s.sessions = acquired u.sessions ++ calls.flatMap KernelAnswers.accepted := by
    intro calls
    induction calls with
    | nil =>
      intro u _ _ hrun
      obtain rfl := Option.some.inj hrun
      simp
    | cons k calls ih =>
      intro u hu hall hrun
      obtain ⟨t, ht, hrun'⟩ := run_cons_some _ hrun
      rw [ih t (step_inv hu hall.1 ht) (hall.2 t ht) hrun', step_acquires hu ht, List.flatMap_cons, List.append_assoc]
  rw [hrest calls _ (start_inv hinit) hfresh hrun]
  rfl

/-- a server for one session -/
def emptyServer : IpcServer := ⟨Vector.replicate maxWaitObjects 0, 0, 0⟩

def closeMessage : HipcParsedRequest := ⟨.close, 0, none⟩

/-- a session accepted, one refused, and the first closed by its client -/
def sampleCalls : List KernelAnswers :=
  [ ⟨(.success, 0), .ok 21, .success, closeMessage, .timedOut⟩,
    ⟨(.success, 0), .ok 22, .success, closeMessage, .timedOut⟩,
    ⟨(.success, 1), .error .timedOut, .success, closeMessage, .timedOut⟩ ]

theorem freshSession_of {port session : Handle} {s : IpcServerState} {k : KernelAnswers} (h : k.accept = .ok session)
    (hnew : session ∉ port :: live s.sessions) : FreshSession port s k := by
  intro _ session' h'
  obtain rfl := Except.ok.inj (h.symm.trans h')
  exact hnew

theorem sampleCalls_sessions :
    ∃ s, run (ipcStep fun _ => .success) (startState 20 1 emptyServer) sampleCalls = some s ∧ SessionTable 20 s ∧
      ∀ (k : KernelAnswers) (session : Handle), k.wait = (.success, 0) → k.accept = .ok session →
        s.server.count = s.server.max →
        (ipcServerProcess (fun _ => .success) s.server k).server = s.server ∧
          (ipcServerProcess (fun _ => .success) s.server k).sessions = [.acquire session, .release session] := by
  have hfresh : AllSteps (ipcStep fun _ => .success) (FreshSession 20) (startState 20 1 emptyServer) sampleCalls := by
    refine ⟨freshSession_of rfl (by decide), ?_⟩
    rintro _ ⟨⟩
    refine ⟨freshSession_of rfl (by decide), ?_⟩
    rintro _ ⟨⟩
    refine ⟨?_, fun _ _ => trivial⟩
    intro _ session h
    cases h
  have hrun : run (ipcStep fun _ => .success) (startState 20 1 emptyServer) sampleCalls = some _ := rfl
  exact ⟨_, hrun, ipcServer_sessions rfl hfresh hrun⟩

end RyazhaClk
