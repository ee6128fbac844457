/-
What the sysmodule asks of a game through SaltyNX (`integrations.cpp`): its frame rate, and its resolution behind a
handshake. The block the plugin shares is searched for once for an application. To ask for the resolution the sysmodule
writes 0xFFFF into a field of the block; the game overwrites it when it has counted its calls.

`GetSaltyNXFPS` and `GetSaltyNXResolutionHeight` share the application seen last and the block found for it. Whichever is
called first behind a switch finds the application changed; only the second one starts the handshake again.

- `handshake_step`: what holds of the application's handshake after any call that meets `HeightFirst`.
- `heights_answered`: over every interleaving of calls, games and switches, a height is reported only behind a handshake of
  the current application, if every switch is noticed first by the call that restarts it.
- `stale_height`: behind a switch that `GetSaltyNXFPS` notices first, a height is reported without one.

A call is one step. The shared memory may change in any way between two calls.
-/
import RyazhaClk.Lib.Transition
import RyazhaClk.Lib.WordBytes

namespace RyazhaClk.SaltyNX

open Transition WordBytes

/-! ## The shared block -/

def sharedSize : ℕ := 0x1000

def MAGIC : ℕ := 0x465053

def marker : ℕ := 0xFFFF

/-- a field of two bytes -/
def field (m : ByteMemory) (address : ℕ) : ℕ := (m address).toNat + (m (address + 1)).toNat * 2 ^ 8

/-- offsets in the packed `NxFpsSharedBlock` -/
def fpsOffset : ℕ := 4

/-- `renderCalls[0].height` -/
def renderHeightOffset : ℕ := 62

/-- `renderCalls[0].calls` -/
def renderCallsOffset : ℕ := 64

/-- `viewportCalls[0].height` -/
def viewportHeightOffset : ℕ := 110

/-- `renderCalls[0].calls = 0xFFFF` -/
def writeMarker (m : ByteMemory) (block : ℕ) : ByteMemory :=
  Function.update (Function.update m (block + renderCallsOffset) 0xFF) (block + renderCallsOffset + 1) 0xFF

/-- `SearchSharedMemoryBlock` -/
def searchSharedMemoryBlock (m : ByteMemory) : Option ℕ :=
  ((List.range (sharedSize / 4)).map (4 * ·)).find? fun block =>
    wordOf (m block) (m (block + 1)) (m (block + 2)) (m (block + 3)) = MAGIC

def reportedHeight (m : ByteMemory) (block : ℕ) : ℕ :=
  if field m (block + renderHeightOffset) = 0 then field m (block + viewportHeightOffset)
  else field m (block + renderHeightOffset)

/-! ## State and calls -/

/-- how far the handshake with the current application has come: the block found since it is running, whether the marker has
been written there, and whether it was overwritten then -/
structure Handshake where
  block : Option ℕ
  asked : Bool
  answered : Bool
deriving DecidableEq

structure State where
  gSharedMemoryUsed : Bool
  gNxFps : Option ℕ
  gPrevTid : ℕ
  resolutionLookup : ℕ
  /-- `GetCurrentApplicationId` -/
  tid : ℕ
  memory : ByteMemory
  /-- not a variable of the program -/
  handshake : Handshake

/-- before the first call -/
def State.start (used : Bool) (tid : ℕ) (memory : ByteMemory) : State :=
  ⟨used, none, 0, 0, tid, memory, ⟨none, false, false⟩⟩

namespace State

/-- a call answers without looking at the application -/
def idle (s : State) : Bool := !s.gSharedMemoryUsed || s.tid = 0

/-- `if (gPrevTid != tid)`, and what the call resets there -/
def notice (resets : Bool) (s : State) : State :=
  if s.gPrevTid ≠ s.tid then
    { s with
      gNxFps := none
      gPrevTid := s.tid
      resolutionLookup := if resets then 0 else s.resolutionLookup }
  else s

def found (block : Option ℕ) (s : State) : State :=
  { s with
    gNxFps := block
    handshake := { s.handshake with block := block } }

/-- `if (!gNxFps)` -/
def findBlock (s : State) : State := if s.gNxFps = none then s.found (searchSharedMemoryBlock s.memory) else s

def getSaltyNXFPS (s : State) : ℕ × State :=
  if s.idle then (254, s)
  else
    let s := (s.notice false).findBlock
    match s.gNxFps with
    | some block => ((s.memory (block + fpsOffset)).toNat, s)
    | none => (254, s)

/-- the marker is written into the block; the handshake counts it if the block was found for this application -/
def ask (block : ℕ) (s : State) : State :=
  { s with
    resolutionLookup := 1
    memory := writeMarker s.memory block
    handshake := if s.handshake.block = some block then ⟨some block, true, false⟩ else s.handshake }

def getSaltyNXResolutionHeight (s : State) : ℕ × State :=
  if s.idle then (0, s)
  else
    let s := (s.notice true).findBlock
    match s.gNxFps with
    | none => (0, s)
    | some block =>
      if s.resolutionLookup = 0 then (0, s.ask block)
      else if s.resolutionLookup = 1 then
        if field s.memory (block + renderCallsOffset) ≠ marker then
          (reportedHeight s.memory block, { s with resolutionLookup := 2 })
        else (0, s)
      else (reportedHeight s.memory block, s)

/-- another application runs; the handshake with it has not begun -/
def switchTo (tid : ℕ) (s : State) : State :=
  if tid = s.tid then s else { s with tid := tid, handshake := ⟨none, false, false⟩ }

/-- the shared memory changes -/
def write (memory : ByteMemory) (s : State) : State :=
  { s with
    memory := memory
    handshake := { s.handshake with
      answered := s.handshake.answered || s.handshake.asked &&
        s.handshake.block.any fun block => field memory (block + renderCallsOffset) ≠ marker } }

end State

inductive Event where
  | fps
  | height
  | switchTo (tid : ℕ)
  | write (memory : ByteMemory)

def step (s : State) : Event → Option State
  | .fps => some s.getSaltyNXFPS.2
  | .height => some s.getSaltyNXResolutionHeight.2
  | .switchTo tid => some (s.switchTo tid)
  | .write memory => some (s.write memory)

/-- a height is reported only when the current application has answered -/
def Reports (s : State) : Event → Prop
  | .height => s.getSaltyNXResolutionHeight.1 ≠ 0 → s.handshake.answered = true
  | _ => True

/-- a switch is noticed first by the call for the height, unless no handshake was begun before it; and no application comes
back before the switch away from it was noticed -/
def HeightFirst (s : State) : Event → Prop
  | .fps => s.idle = false → s.gPrevTid ≠ s.tid → s.resolutionLookup = 0
  | .switchTo tid => s.gSharedMemoryUsed = true → tid ≠ s.tid → tid ≠ 0 → tid ≠ s.gPrevTid
  | _ => True

instance (s : State) (e : Event) : Decidable (Reports s e) := by
  cases e <;> unfold Reports <;> infer_instance

instance (s : State) (e : Event) : Decidable (HeightFirst s e) := by
  cases e <;> unfold HeightFirst <;> infer_instance

/-! ## The invariant -/

/-- what holds of the handshake once the current application was noticed -/
structure HandshakeOk (s : State) : Prop where
  block : s.gNxFps = s.handshake.block
  asked : s.resolutionLookup ≠ 0 → s.handshake.asked = true ∧ s.handshake.block ≠ none
  waiting : s.resolutionLookup = 1 → s.handshake.answered = true ∨
    ∀ block, s.handshake.block = some block → field s.memory (block + renderCallsOffset) = marker
  reporting : s.resolutionLookup ≠ 0 → s.resolutionLookup ≠ 1 → s.handshake.answered = true

def Inv (s : State) : Prop := s.idle = false → s.gPrevTid = s.tid → HandshakeOk s

variable {s : State} {resets : Bool} {block tid : ℕ}

theorem inv_start (used : Bool) (tid : ℕ) (memory : ByteMemory) : Inv (State.start used tid memory) := by
  intro hidle htid
  have hzero : tid = 0 := htid.symm
  simp [State.idle, State.start, hzero] at hidle

theorem field_writeMarker (m : ByteMemory) (block : ℕ) : field (writeMarker m block) (block + renderCallsOffset) = marker := by
  have hlow : writeMarker m block (block + renderCallsOffset) = 0xFF := by
    rw [writeMarker, Function.update_of_ne (Nat.succ_ne_self _).symm, Function.update_self]
  have hhigh : writeMarker m block (block + renderCallsOffset + 1) = 0xFF := Function.update_self ..
  rw [field, hlow, hhigh]
  rfl

@[simp] theorem answered_found (b : Option ℕ) (s : State) : (s.found b).handshake.answered = s.handshake.answered := rfl

@[simp] theorem answered_findBlock (s : State) : s.findBlock.handshake.answered = s.handshake.answered := by
  unfold State.findBlock
  split_ifs
  · exact answered_found _ s
  · rfl

@[simp] theorem handshake_notice (resets : Bool) (s : State) : (s.notice resets).handshake = s.handshake := by
  unfold State.notice
  split_ifs <;> rfl

/-- with no handshake begun any block may be found -/
theorem HandshakeOk.found (hlookup : s.resolutionLookup = 0) (b : Option ℕ) : HandshakeOk (s.found b) :=
  ⟨rfl, fun hne => absurd hlookup hne, fun hone => absurd (hlookup.symm.trans hone) (by decide), fun hne => absurd hlookup hne⟩

/-- the search keeps the handshake: with no block found yet none was begun -/
theorem HandshakeOk.findBlock (h : HandshakeOk s ∨ s.gNxFps = none ∧ s.resolutionLookup = 0) : HandshakeOk s.findBlock := by
  unfold State.findBlock
  split_ifs with hnone
  · have hlookup : s.resolutionLookup = 0 := by
      by_contra hne
      rcases h with h | ⟨-, h0⟩
      · exact (h.asked hne).2 (h.block ▸ hnone)
      · exact hne h0
    exact HandshakeOk.found hlookup _
  · exact h.resolve_right fun h0 => hnone h0.1

/-- behind the two checks a call begins with, the handshake is the current application's, if the call restarts it or there is
none to restart -/
theorem HandshakeOk.noticed (h : Inv s) (hidle : s.idle = false)
    (hreset : resets = true ∨ (s.gPrevTid ≠ s.tid → s.resolutionLookup = 0)) : HandshakeOk (s.notice resets).findBlock := by
  apply HandshakeOk.findBlock
  unfold State.notice
  split_ifs with htid hr
  · exact Or.inr ⟨rfl, rfl⟩
  · exact Or.inr ⟨rfl, hreset.resolve_left hr htid⟩
  · exact Or.inl (h hidle (not_not.1 htid))

theorem HandshakeOk.ask (h : HandshakeOk s) (hblock : s.gNxFps = some block) : HandshakeOk (s.ask block) := by
  have hfound : s.handshake.block = some block := h.block ▸ hblock
  have hghost : (s.ask block).handshake = ⟨some block, true, false⟩ := if_pos hfound
  refine ⟨by rw [hghost]; exact hblock, fun _ => by simp [hghost], fun _ => Or.inr ?_, fun _ hne => absurd rfl hne⟩
  intro block' hblock'
  rw [hghost] at hblock'
  obtain rfl := Option.some.inj hblock'
  exact field_writeMarker s.memory block

/-- once the marker is gone the application has answered -/
theorem HandshakeOk.answered (h : HandshakeOk s) (hblock : s.gNxFps = some block) (hlookup : s.resolutionLookup ≠ 0)
    (hgone : s.resolutionLookup = 1 → field s.memory (block + renderCallsOffset) ≠ marker) :
    s.handshake.answered = true := by
  by_cases hone : s.resolutionLookup = 1
  · rcases h.waiting hone with hans | hwait
    · exact hans
    · exact absurd (hwait block (h.block ▸ hblock)) (hgone hone)
  · exact h.reporting hlookup hone

/-- what a call for the height answers and leaves, with the handshake in order -/
theorem height_spec (h : HandshakeOk (s.notice true).findBlock) (hidle : s.idle = false) :
    HandshakeOk s.getSaltyNXResolutionHeight.2 ∧
      (s.getSaltyNXResolutionHeight.1 ≠ 0 → s.handshake.answered = true) := by
  have hcall : s.getSaltyNXResolutionHeight = _ := if_neg (by simp [hidle])
  have hghost : (s.notice true).findBlock.handshake.answered = s.handshake.answered := by simp
  rw [hcall, ← hghost]
  generalize (s.notice true).findBlock = t at h
  dsimp only
  cases hblock : t.gNxFps with
  | none => exact ⟨h, fun hne => absurd rfl hne⟩
  | some block =>
    dsimp only
    split_ifs with h0 h1 hgone
    · exact ⟨h.ask hblock, fun hne => absurd rfl hne⟩
    · have hans := h.answered hblock h0 fun _ => hgone
      exact ⟨⟨hblock ▸ h.block, fun _ => h.asked h0, fun _ => Or.inl hans, fun _ _ => hans⟩, fun _ => hans⟩
    · exact ⟨h, fun hne => absurd rfl hne⟩
    · exact ⟨h, fun _ => h.reporting h0 h1⟩

/-! ## Runs -/

theorem fps_eq (hidle : s.idle = false) : s.getSaltyNXFPS.2 = (s.notice false).findBlock := by
  have hcall : s.getSaltyNXFPS = _ := if_neg (by simp [hidle])
  rw [hcall]
  dsimp only
  split <;> rfl

theorem fps_idle (hidle : s.idle = true) : s.getSaltyNXFPS = (254, s) := if_pos hidle

theorem height_idle (hidle : s.idle = true) : s.getSaltyNXResolutionHeight = (0, s) := if_pos hidle

theorem inv_switchTo (h : Inv s) (hback : s.gSharedMemoryUsed = true → tid ≠ s.tid → tid ≠ 0 → tid ≠ s.gPrevTid) :
    Inv (s.switchTo tid) := by
  unfold State.switchTo
  split_ifs with hsame
  · exact h
  · intro hidle htid
    simp only [State.idle, Bool.or_eq_false_iff, Bool.not_eq_false', decide_eq_false_iff_not] at hidle
    exact absurd htid.symm (hback hidle.1 hsame hidle.2)

theorem inv_write (h : Inv s) (memory : ByteMemory) : Inv (s.write memory) := by
  intro hidle htid
  have hs := h hidle htid
  refine ⟨hs.block, hs.asked, fun hone => ?_, fun h0 h1 => ?_⟩
  · have hasked : s.handshake.asked = true := (hs.asked fun h0 => absurd (h0.symm.trans hone) (by decide)).1
    cases hb : s.handshake.block with
    | none => exact Or.inr fun block hblock => absurd (hb.symm.trans hblock) (by simp)
    | some b =>
      by_cases hmarker : field memory (b + renderCallsOffset) = marker
      · refine Or.inr fun block hblock => ?_
        obtain rfl := Option.some.inj (hb.symm.trans hblock)
        exact hmarker
      · exact Or.inl (by simp [State.write, hasked, hb, hmarker])
  · simp [State.write, hs.reporting h0 h1]

/-- the handshake after any event -/
theorem handshake_step {t : State} (s : State) (e : Event) (h : Inv s) (hfirst : HeightFirst s e) (hstep : step s e = some t) :
    Inv t := by
  cases e with
  | fps =>
    obtain rfl := Option.some.inj hstep
    cases hidle : s.idle with
    | true => rwa [fps_idle hidle]
    | false =>
      rw [fps_eq hidle]
      exact fun _ _ => HandshakeOk.noticed h hidle (Or.inr (hfirst hidle))
  | height =>
    obtain rfl := Option.some.inj hstep
    cases hidle : s.idle with
    | true => rwa [height_idle hidle]
    | false => exact fun _ _ => (height_spec (HandshakeOk.noticed h hidle (Or.inl rfl)) hidle).1
  | switchTo tid =>
    obtain rfl := Option.some.inj hstep
    exact inv_switchTo h hfirst
  | write memory =>
    obtain rfl := Option.some.inj hstep
    exact inv_write h memory

theorem reports_of_inv (s : State) (e : Event) (h : Inv s) : Reports s e := by
  cases e with
  | height =>
    intro hne
    cases hidle : s.idle with
    | true => exact absurd (congrArg Prod.fst (height_idle hidle)) hne
    | false => exact (height_spec (HandshakeOk.noticed h hidle (Or.inl rfl)) hidle).2 hne
  | _ => trivial

/-- **Every height is an answer.** Over any interleaving of calls, switches and writes to the shared memory, if a switch is
noticed first by the call that begins the handshake again. -/
theorem heights_answered (used : Bool) (tid : ℕ) (memory : ByteMemory) (es : List Event)
    (h : AllSteps step HeightFirst (State.start used tid memory) es) :
    AllSteps step Reports (State.start used tid memory) es :=
  h.of_inv Inv (fun s e _ => handshake_step s e) (fun s e hinv _ => reports_of_inv s e hinv) (inv_start used tid memory)

/-- a memory with the block at its start -/
def pluginMemory (height calls : ℕ) : ByteMemory
  | 0 => 0x53
  | 1 => 0x50
  | 2 => 0x46
  | 62 => UInt8.ofNat height
  | 63 => UInt8.ofNat (height / 2 ^ 8)
  | 64 => UInt8.ofNat calls
  | 65 => UInt8.ofNat (calls / 2 ^ 8)
  | _ => 0

/-- two applications, each noticed first by the call for the height -/
theorem heights_answered_twice : AllSteps step Reports (State.start true 1 (pluginMemory 720 0))
    [.height, .write (pluginMemory 720 3), .height, .fps, .switchTo 2, .write (pluginMemory 1080 0), .height, .fps,
      .write (pluginMemory 1080 5), .height] :=
  heights_answered true 1 _ _ (by decide +kernel)

/-- `GetSaltyNXFPS` notices the second application first: the height it has never been asked for is reported -/
theorem stale_height : ¬ AllSteps step Reports (State.start true 1 (pluginMemory 720 0))
    [.height, .write (pluginMemory 720 3), .height, .switchTo 2, .write (pluginMemory 1080 0), .fps, .height] := by
  decide +kernel

end RyazhaClk.SaltyNX
