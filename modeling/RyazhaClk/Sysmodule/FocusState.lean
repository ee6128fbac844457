/-
Whether the running application is out of focus (`process_management.cpp`), which decides if the governor may set a refresh
rate. The console logs an event for every change of focus. `isApplicationOutOfFocus` looks through the last 16 events only
when the log has grown since it looked last, and answers what it found then otherwise.

It writes down the length of the log before it looks, and not whose state it found. A look that fails, or a switch that the
log does not show yet, leaves an answer that later calls repeat.

- `cached_step`: a state found and not lost is the latest of its application at the length written down.
- `focus_coherent`: over every run with failures, switches and a growing log, each successful answer is the latest state of
  the running application, if each call that finds no growth follows a look that found an event of that application.
- `failed_look_repeated`: behind a failed look the next call succeeds with a state that was never found.

A call is one step. The queries of the system are modelled over a log that is only appended to.
-/
import RyazhaClk.Lib.Transition

namespace RyazhaClk.Focus

open Transition

/-! ## The log -/

inductive PdmAppletEventType where
  | launch | exit | inFocus | outOfFocus | outOfFocus4 | exit5 | exit6
deriving DecidableEq

inductive AppletId where
  | application | other
deriving DecidableEq

/-- `event_data.applet`; the words of a program id are stored high word first -/
structure AppletEvent where
  programId : UInt32 × UInt32
  appletId : AppletId
  eventType : PdmAppletEventType
deriving DecidableEq

inductive PdmPlayEvent where
  | applet (e : AppletEvent)
  | other
deriving DecidableEq

/-- `TID.full` -/
def AppletEvent.tid (e : AppletEvent) : UInt64 := e.programId.1.toUInt64 <<< 32 ||| e.programId.2.toUInt64

/-- `TIDnow & ~0xFFF` -/
def applicationOf (tid : UInt64) : UInt64 := tid &&& ~~~0xFFF

namespace PdmPlayEvent

/-- the event is one of the application -/
def isOf (app : UInt64) : PdmPlayEvent → Bool
  | applet e => e.appletId = .application ∧ e.tid = app
  | other => false

def isOut : PdmPlayEvent → Bool
  | applet e => e.eventType = .outOfFocus ∨ e.eventType = .outOfFocus4
  | other => false

end PdmPlayEvent

/-- the last entries of the log, and the state the latest event of an application among them gives it -/
def lastEntries (log : List PdmPlayEvent) : List PdmPlayEvent := log.drop (log.length - 16)

def latestState (app : UInt64) (log : List PdmPlayEvent) : Option Bool :=
  ((lastEntries log).filter (·.isOf app)).getLast?.map (·.isOut)

/-! ## State and calls -/

structure State where
  lastTotalEntries : ℕ
  isOutOfFocus : Bool
  /-- the program id of the running application -/
  tid : UInt64
  log : List PdmPlayEvent
  /-- not a variable of the program: the application the last look through the log found an event of -/
  found : Option UInt64

def State.start (tid : UInt64) (log : List PdmPlayEvent) : State := ⟨0, false, tid, log, none⟩

/-- the result codes of the four queries of a call -/
structure Queries where
  processId : ℕ
  programId : ℕ
  eventRange : ℕ
  playEvent : ℕ

/-- `pdmqryQueryPlayEvent` for 16 events -/
def queryPlayEvent (log : List PdmPlayEvent) (start : ℕ) : List PdmPlayEvent := (log.drop start).take 16

/-- `start_entry`, from the index of the last entry -/
def startEntry (log : List PdmPlayEvent) : ℕ := ((log.length : ℤ) - 1 - 15).toNat

/-- the loop over the events, from the one before `n` down to the first -/
def scanDown (app : UInt64) (events : List PdmPlayEvent) : ℕ → Option PdmPlayEvent
  | 0 => none
  | n + 1 =>
    match events[n]? with
    | some e => if e.isOf app then some e else scanDown app events n
    | none => scanDown app events n

namespace State

def look (events : List PdmPlayEvent) (s : State) : Except ℕ Bool × State :=
  if events.length = 0 then (.error 1, s)
  else
    match scanDown (applicationOf s.tid) events events.length with
    | none => (.error 1, s)
    | some e => (.ok e.isOut, { s with isOutOfFocus := e.isOut, found := some (applicationOf s.tid) })

def isApplicationOutOfFocus (q : Queries) (s : State) : Except ℕ Bool × State :=
  if q.processId ≠ 0 then (.error q.processId, s)
  else if q.programId ≠ 0 then (.error q.programId, s)
  else if q.eventRange ≠ 0 then (.error q.eventRange, s)
  else if s.log.length = s.lastTotalEntries then (.ok s.isOutOfFocus, s)
  else
    let s := { s with lastTotalEntries := s.log.length, found := none }
    if q.playEvent ≠ 0 then (.error q.playEvent, s) else s.look (queryPlayEvent s.log (startEntry s.log))

end State

inductive Event where
  | call (q : Queries)
  | switchTo (tid : UInt64)
  | grow (events : List PdmPlayEvent)

def step (s : State) : Event → Option State
  | .call q => some (s.isApplicationOutOfFocus q).2
  | .switchTo tid => some { s with tid := tid }
  | .grow events => some { s with log := s.log ++ events }

/-- a successful call answers the latest state of the running application -/
def Coherent (s : State) : Event → Prop
  | .call q => ∀ out, (s.isApplicationOutOfFocus q).1 = .ok out → latestState (applicationOf s.tid) s.log = some out
  | _ => True

/-- `R_FAILED(rc) || isApplicationOutOfFocus` in the governor thread -/
def skipVrr : Except ℕ Bool → Bool
  | .ok out => out
  | .error _ => true

/-- the governor goes on to the refresh rate only in focus -/
def InFocus (s : State) : Event → Prop
  | .call q => skipVrr (s.isApplicationOutOfFocus q).1 = false → latestState (applicationOf s.tid) s.log = some false
  | _ => True

/-- a call that finds the log as long as at the last look follows a look that found an event of the running application -/
def LooksSettled (s : State) : Event → Prop
  | .call q => q.processId = 0 → q.programId = 0 → q.eventRange = 0 → s.log.length = s.lastTotalEntries →
      s.found = some (applicationOf s.tid)
  | _ => True

instance (s : State) (e : Event) : Decidable (Coherent s e) := by
  cases e <;> unfold Coherent <;> infer_instance

instance (s : State) (e : Event) : Decidable (LooksSettled s e) := by
  cases e <;> unfold LooksSettled <;> infer_instance

/-! ## The look through the log -/

variable {app : UInt64} {log events : List PdmPlayEvent} {s t : State} {q : Queries}

/-- the query asks for the last entries -/
theorem queryPlayEvent_startEntry (log : List PdmPlayEvent) : queryPlayEvent log (startEntry log) = lastEntries log := by
  have hstart : startEntry log = log.length - 16 := by
    unfold startEntry
    omega
  rw [queryPlayEvent, hstart, lastEntries]
  refine List.take_of_length_le ?_
  rw [List.length_drop]
  omega

/-- the loop finds the last event of the application among those it has come through -/
theorem scanDown_eq (app : UInt64) (events : List PdmPlayEvent) (n : ℕ) (hn : n ≤ events.length) :
    scanDown app events n = ((events.take n).filter (·.isOf app)).getLast? := by
  induction n with
  | zero => simp [scanDown]
  | succ n ih =>
    have hlt : n < events.length := hn
    rw [scanDown, List.getElem?_eq_getElem hlt, List.take_succ_eq_append_getElem hlt, List.filter_append]
    dsimp only
    split_ifs with hof
    · simp [hof]
    · simp [hof, ih hlt.le]

theorem scanDown_lastEntries (app : UInt64) (log : List PdmPlayEvent) :
    (scanDown app (lastEntries log) (lastEntries log).length).map (·.isOut) = latestState app log := by
  rw [scanDown_eq _ _ _ le_rfl, List.take_length, latestState]

/-- a look answers the latest state of the running application and keeps it, or fails and keeps nothing -/
theorem look_cases (s : State) :
    (latestState (applicationOf s.tid) s.log = none ∧ s.look (lastEntries s.log) = (.error 1, s)) ∨
      ∃ out, latestState (applicationOf s.tid) s.log = some out ∧ s.look (lastEntries s.log) =
        (.ok out, { s with isOutOfFocus := out, found := some (applicationOf s.tid) }) := by
  have hscan := scanDown_lastEntries (applicationOf s.tid) s.log
  unfold State.look
  split_ifs with hempty
  · rw [hempty, scanDown, Option.map_none] at hscan
    exact Or.inl ⟨hscan.symm, rfl⟩
  · cases hfound : scanDown (applicationOf s.tid) (lastEntries s.log) (lastEntries s.log).length with
    | none =>
      rw [hfound, Option.map_none] at hscan
      exact Or.inl ⟨hscan.symm, rfl⟩
    | some e =>
      rw [hfound, Option.map_some] at hscan
      exact Or.inr ⟨e.isOut, hscan.symm, rfl⟩

/-- what a call can do: fail at once, repeat the last answer, fail after the length is written down, or look -/
theorem call_cases (q : Queries) (s : State) :
    (∃ rc, s.isApplicationOutOfFocus q = (.error rc, s)) ∨
      (q.processId = 0 ∧ q.programId = 0 ∧ q.eventRange = 0 ∧ s.log.length = s.lastTotalEntries ∧
        s.isApplicationOutOfFocus q = (.ok s.isOutOfFocus, s)) ∨
      (∃ rc, s.isApplicationOutOfFocus q = (.error rc, { s with lastTotalEntries := s.log.length, found := none })) ∨
      ∃ out, latestState (applicationOf s.tid) s.log = some out ∧ s.isApplicationOutOfFocus q =
        (.ok out, ⟨s.log.length, out, s.tid, s.log, some (applicationOf s.tid)⟩) := by
  unfold State.isApplicationOutOfFocus
  split_ifs with hpid hprogram hrange hlength hevents
  · exact Or.inl ⟨_, rfl⟩
  · exact Or.inl ⟨_, rfl⟩
  · exact Or.inl ⟨_, rfl⟩
  · exact Or.inr (Or.inl ⟨not_not.1 hpid, not_not.1 hprogram, not_not.1 hrange, hlength, rfl⟩)
  · exact Or.inr (Or.inr (Or.inl ⟨_, rfl⟩))
  · dsimp only
    rw [queryPlayEvent_startEntry]
    rcases look_cases { s with lastTotalEntries := s.log.length, found := none } with ⟨-, hlook⟩ | ⟨out, hlatest, hlook⟩
    · exact Or.inr (Or.inr (Or.inl ⟨1, hlook⟩))
    · exact Or.inr (Or.inr (Or.inr ⟨out, hlatest, hlook⟩))

/-! ## The invariant -/

/-- what was found is the latest state of its application in the log up to the length written down -/
def Cached (s : State) : Prop :=
  ∀ app, s.found = some app →
    s.lastTotalEntries ≤ s.log.length ∧ latestState app (s.log.take s.lastTotalEntries) = some s.isOutOfFocus

theorem cached_start (tid : UInt64) (log : List PdmPlayEvent) : Cached (State.start tid log) := by
  intro app happ
  cases happ

/-- no event loses what was found without forgetting whose state it was -/
theorem cached_step (s : State) (e : Event) (t : State) (h : Cached s) (hstep : step s e = some t) : Cached t := by
  cases e with
  | call q =>
    obtain rfl := Option.some.inj hstep
    rcases call_cases q s with ⟨rc, hcall⟩ | ⟨-, -, -, -, hcall⟩ | ⟨rc, hcall⟩ | ⟨out, hlatest, hcall⟩
    · rwa [hcall]
    · rwa [hcall]
    · rw [hcall]
      intro app happ
      cases happ
    · rw [hcall]
      intro app happ
      obtain rfl := Option.some.inj happ
      refine ⟨le_rfl, ?_⟩
      rwa [List.take_length]
  | switchTo tid =>
    obtain rfl := Option.some.inj hstep
    exact h
  | grow events =>
    obtain rfl := Option.some.inj hstep
    intro app happ
    obtain ⟨hle, hlatest⟩ := h app happ
    refine ⟨hle.trans ?_, ?_⟩
    · rw [List.length_append]
      exact Nat.le_add_right _ _
    · rwa [List.take_append_of_le_length hle]

theorem coherent_of_cached (s : State) (e : Event) (h : Cached s) (hsettled : LooksSettled s e) : Coherent s e := by
  cases e with
  | call q =>
    intro out hout
    rcases call_cases q s with ⟨rc, hcall⟩ | ⟨hpid, hprogram, hrange, hlength, hcall⟩ | ⟨rc, hcall⟩ | ⟨out', hlatest, hcall⟩
    · rw [hcall] at hout
      cases hout
    · rw [hcall] at hout
      obtain rfl := Except.ok.inj hout
      have hlatest := (h _ (hsettled hpid hprogram hrange hlength)).2
      rwa [← hlength, List.take_length] at hlatest
    · rw [hcall] at hout
      cases hout
    · rw [hcall] at hout
      obtain rfl := Except.ok.inj hout
      exact hlatest
  | _ => trivial

/-- **Focus states are coherent** over every run in which each repeated answer follows a look that found it for the running
application. -/
theorem focus_coherent (tid : UInt64) (log : List PdmPlayEvent) (es : List Event)
    (h : AllSteps step LooksSettled (State.start tid log) es) : AllSteps step Coherent (State.start tid log) es :=
  h.of_inv Cached (fun s e t hinv _ => cached_step s e t hinv) coherent_of_cached (cached_start tid log)

/-- an event of the application 0x0100_0000_0001_0000 -/
def gameEvent (eventType : PdmAppletEventType) : PdmPlayEvent := .applet ⟨(0x01000000, 0x00010000), .application, eventType⟩

/-- the game comes into focus, the log is looked through twice, and the game leaves focus while a look fails at once -/
theorem focus_coherent_game : AllSteps step Coherent (State.start 0x0100000000010000 [gameEvent .launch])
    [.call ⟨0, 0, 0, 0⟩, .call ⟨0, 0, 0, 0⟩, .grow [gameEvent .outOfFocus, .other], .call ⟨0, 0, 1, 0⟩, .call ⟨0, 0, 0, 0⟩,
      .call ⟨0, 0, 0, 0⟩] :=
  focus_coherent _ _ _ (by decide +kernel)

/-- the game leaves focus and the look fails: the next call succeeds and answers that the game is in focus -/
theorem failed_look_repeated : ¬ AllSteps step Coherent (State.start 0x0100000000010000 [gameEvent .launch])
    [.call ⟨0, 0, 0, 0⟩, .grow [gameEvent .outOfFocus], .call ⟨0, 0, 0, 1⟩, .call ⟨0, 0, 0, 0⟩] := by
  decide +kernel

/-- so the governor shows a rate only to an application whose latest state is in focus -/
theorem rates_in_focus (tid : UInt64) (log : List PdmPlayEvent) (es : List Event)
    (h : AllSteps step LooksSettled (State.start tid log) es) : AllSteps step InFocus (State.start tid log) es := by
  refine h.of_inv Cached (fun s e t hinv _ => cached_step s e t hinv) (fun s e hinv hsettled => ?_) (cached_start tid log)
  have hcoherent := coherent_of_cached s e hinv hsettled
  cases e with
  | call q =>
    intro hgo
    cases hanswer : (s.isApplicationOutOfFocus q).1 with
    | error rc => rw [hanswer] at hgo; cases hgo
    | ok out =>
      rw [hanswer] at hgo
      obtain rfl : out = false := hgo
      exact hcoherent false hanswer
  | _ => trivial

end RyazhaClk.Focus
