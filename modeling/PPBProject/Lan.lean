import Mathlib.Data.List.DropRight
import PPBProject.Lib.Machine
import PPBProject.Wire

/- `LanInterface`: queries to an instrument over a socket, each answered by a line.

   A query blocks its thread, and meanwhile bytes arrive at any time. So it goes on step by step:
   what the code does between two looks at the socket is one step. A byte carries the number of
   bytes that came before it; the code never reads that number.

   Correspondence (C++ ↔ Lean):
     `m_socket`'s receive buffer and state    ↔ `socket`, `socketConnected`
     the two halves of `clearReadBuffer`      ↔ `queryScpiCommand`, `LanStage.checking` and `reading`
     the loop of `queryScpiCommand`           ↔ `nextAttempt`
     one look of `waitForResponse`            ↔ `look`
     the slots, inside `waitForReadyRead` too ↔ `LanEvent.readyRead` and `disconnected`
   Left out: the lengths of the timeouts, which may end at any moment, and the debug output. -/
namespace PPB

/-- A byte from the instrument, and how many came before it. -/
structure Received where
  byte : UInt8
  serial : Nat
  deriving DecidableEq

/-- Where a query stands. -/
inductive LanStage where
  | checking
  | reading
  | sending
  | responding
  | polling
  | answered (response : List Received)
  deriving DecidableEq

/-- A call of `queryScpiCommand`. `firstSend` is the number of bytes that had arrived when the
command was first sent. -/
structure ScpiQuery where
  command : String
  retries : Int
  attempt : Int := 0
  stage : LanStage := .checking
  firstSend : Option Nat := none
  deriving DecidableEq

structure LanInterface where
  socketConnected : Bool := false
  isConnected : Bool := false
  socket : List Received := []
  readBuffer : List Received := []
  received : Nat := 0
  query : Option ScpiQuery := none
  errors : List String := []
  deriving DecidableEq

/-- What can happen. -/
inductive LanEvent where
  | arrived (bytes : Bytes)
  | connected
  | disconnected
  | disconnect
  | readyRead
  | sendScpiCommand (command : String) (written : Int)
  | queryScpiCommand (command : String) (retries : Int)
  | bytesAvailable
  | readAll
  | sent (written : Int)
  | responded
  | polled
  | elapsed
  | returned
  deriving DecidableEq

namespace LanInterface

/-- `QByteArray::trimmed` drops these at both ends. -/
def isSpace (byte : UInt8) : Bool :=
  byte = 9 || byte = 10 || byte = 11 || byte = 12 || byte = 13 || byte = 32

def trimmed (line : List Received) : List Received :=
  (line.dropWhile fun r => isSpace r.byte).rdropWhile fun r => isSpace r.byte

/-- `indexOf('\n')`, or `indexOf('\r')` where there is none. -/
def lineEnd? (buffer : List Received) : Option Nat :=
  (buffer.findIdx? fun r => r.byte = 10).or (buffer.findIdx? fun r => r.byte = 13)

/-- Bytes with their numbers, from `serial` on. -/
def numbered : Nat → Bytes → List Received
  | _, [] => []
  | serial, byte :: bytes => ⟨byte, serial⟩ :: numbered (serial + 1) bytes

/-- Bytes come in. -/
def arrive (s : LanInterface) (bytes : Bytes) : LanInterface :=
  { s with
    socket := s.socket ++ numbered s.received bytes
    received := s.received + bytes.length }

/-! The slots. -/

def onSocketConnected (s : LanInterface) : LanInterface :=
  { s with socketConnected := true, isConnected := true }

def onSocketDisconnected (s : LanInterface) : LanInterface :=
  { s with socketConnected := false, isConnected := false, readBuffer := [] }

def onSocketReadyRead (s : LanInterface) : LanInterface :=
  { s with readBuffer := s.readBuffer ++ s.socket, socket := [] }

def disconnect (s : LanInterface) : LanInterface :=
  { s with socketConnected := false, isConnected := false, readBuffer := [] }

def emitError (s : LanInterface) (text : String) : LanInterface :=
  { s with errors := s.errors ++ [text] }

/-- `written` is what the socket's `write` returns. -/
def sendScpiCommand (s : LanInterface) (command : String) (written : Int) : LanInterface × Bool :=
  if !s.socketConnected then (s.emitError "Socket not connected", false)
  else if !s.isConnected then (s.emitError "Not connected", false)
  else
    let size := command.length + 1
    if written ≠ size then
      (s.emitError s!"Failed to write all data (written {written} of {size})", false)
    else (s, true)

/-! A query. -/

/-- The first half of `clearReadBuffer` is done at once. -/
def queryScpiCommand (s : LanInterface) (command : String) (retries : Int) : LanInterface :=
  { s with readBuffer := [], query := some { command, retries } }

def advance (s : LanInterface) (q : ScpiQuery) (stage : LanStage) : LanInterface :=
  { s with query := some { q with stage } }

/-- The loop's condition. -/
def nextAttempt (s : LanInterface) (q : ScpiQuery) : LanInterface :=
  s.advance q (if q.attempt ≤ q.retries then .sending else .answered [])

/-- An empty response is one more failed attempt. -/
def respond (s : LanInterface) (q : ScpiQuery) (response : List Received) : LanInterface :=
  if response = [] then s.nextAttempt { q with attempt := q.attempt + 1 }
  else s.advance q (.answered response)

/-- The first line of the buffer, if there is one. -/
def look (s : LanInterface) (q : ScpiQuery) (otherwise : LanInterface) : LanInterface :=
  match lineEnd? s.readBuffer with
  | some idx =>
    { s with readBuffer := s.readBuffer.drop (idx + 1) }.respond q
      (trimmed (s.readBuffer.take idx))
  | none => otherwise

/-- A command that cannot be sent ends the query. -/
def sendAttempt (s : LanInterface) (q : ScpiQuery) (written : Int) : LanInterface :=
  let sent := s.sendScpiCommand q.command written
  if sent.2 then
    sent.1.advance { q with firstSend := some (q.firstSend.getD s.received) } .responding
  else sent.1.advance q (.answered [])

/-- No query is running. -/
def stepIdle (s : LanInterface) : LanEvent → Option LanInterface
  | .connected => some s.onSocketConnected
  | .disconnected => some s.onSocketDisconnected
  | .disconnect => some s.disconnect
  | .readyRead => some s.onSocketReadyRead
  | .sendScpiCommand command written => some (s.sendScpiCommand command written).1
  | .queryScpiCommand command retries => some (s.queryScpiCommand command retries)
  | _ => none

/-- A query is running. -/
def stepQuery (s : LanInterface) (q : ScpiQuery) : LanStage → LanEvent → Option LanInterface
  | .checking, .bytesAvailable =>
    some (if s.socket = [] then s.nextAttempt q else s.advance q .reading)
  | .reading, .readAll => some ({ s with readBuffer := s.socket, socket := [] }.nextAttempt q)
  | .sending, .sent written => some (s.sendAttempt q written)
  | .responding, .responded => some (s.look q (s.advance q .polling))
  | .polling, .readyRead => some s.onSocketReadyRead
  | .polling, .polled => some (s.look q s)
  | .polling, .elapsed => some (s.look q (s.respond q []))
  | .sending, .disconnected => some s.onSocketDisconnected
  | .responding, .disconnected => some s.onSocketDisconnected
  | .polling, .disconnected => some s.onSocketDisconnected
  | .answered _, .returned => some { s with query := none }
  | _, _ => none

def step (s : LanInterface) (e : LanEvent) : Option LanInterface :=
  match e with
  | .arrived bytes => if bytes = [] then none else some (s.arrive bytes)
  | e =>
    match s.query with
    | none => s.stepIdle e
    | some q => s.stepQuery q q.stage e

end LanInterface

/-- The interface and its instrument. -/
def lanInterface : Machine.System LanInterface LanEvent where
  start s := s = {}
  step s e s' := s.step e = some s'

/-! What is buffered while a query runs. -/

/-- All of the response came after the first send. -/
def ScpiQuery.Paired (q : ScpiQuery) (response : List Received) : Prop :=
  ∀ r ∈ response, ∃ sent ∈ q.firstSend, sent ≤ r.serial

namespace LanInterface

theorem mem_of_mem_trimmed {line : List Received} {r : Received} (h : r ∈ trimmed line) :
    r ∈ line :=
  (List.dropWhile_suffix _).subset ((List.rdropWhile_prefix _ _).subset h)

theorem le_of_mem_numbered {r : Received} {bytes : Bytes} {serial : Nat}
    (h : r ∈ numbered serial bytes) : serial ≤ r.serial := by
  induction bytes generalizing serial with
  | nil => cases h
  | cons byte bytes ih =>
    cases List.mem_cons.mp h with
    | inl heq => exact heq ▸ Nat.le_refl _
    | inr hmem => exact (Nat.le_succ serial).trans (ih hmem)

/-- The socket is empty when `clearReadBuffer` looks, and stays so until the first send. -/
def Quiet (s : LanInterface) : LanEvent → Prop
  | .bytesAvailable => s.socket = []
  | .arrived _ => ∀ q ∈ s.query, q.stage = .sending → q.firstSend ≠ none
  | _ => True

instance (s : LanInterface) : (e : LanEvent) → Decidable (s.Quiet e)
  | .bytesAvailable => inferInstanceAs (Decidable (s.socket = []))
  | .arrived _ =>
    inferInstanceAs (Decidable (∀ q ∈ s.query, q.stage = .sending → q.firstSend ≠ none))
  | .connected | .disconnected | .disconnect | .readyRead | .sendScpiCommand _ _
  | .queryScpiCommand _ _ | .readAll | .sent _ | .responded | .polled | .elapsed | .returned =>
    .isTrue trivial

/-- Nothing is buffered that came before the first send, or before now if that is still to come. -/
def Fresh (s : LanInterface) (q : ScpiQuery) : Prop :=
  q.firstSend.getD s.received ≤ s.received ∧
    ∀ r ∈ s.readBuffer ++ s.socket, q.firstSend.getD s.received ≤ r.serial

/-- What holds of a query at a stage. -/
def AwaitsAt (s : LanInterface) (q : ScpiQuery) : LanStage → Prop
  | .checking => s.readBuffer = [] ∧ q.firstSend = none
  | .reading => False
  | .sending => s.Fresh q
  | .responding => s.Fresh q ∧ q.firstSend ≠ none
  | .polling => s.Fresh q ∧ q.firstSend ≠ none
  | .answered response => q.Paired response

/-- The query that runs, if one does, has only its own bytes. -/
def Sound (s : LanInterface) : Prop := ∀ q ∈ s.query, s.AwaitsAt q q.stage

variable {s : LanInterface} {q : ScpiQuery}

theorem Fresh.of_subset (h : s.Fresh q) {s' : LanInterface} {q' : ScpiQuery}
    (hreceived : s'.received = s.received) (hsend : q'.firstSend = q.firstSend)
    (hsubset : ∀ r ∈ s'.readBuffer ++ s'.socket, r ∈ s.readBuffer ++ s.socket) :
    s'.Fresh q' := by
  unfold Fresh
  rw [hreceived, hsend]
  exact ⟨h.1, fun r hr => h.2 r (hsubset r hr)⟩

theorem Fresh.arrive (h : s.Fresh q) (hsend : q.firstSend ≠ none) (bytes : Bytes) :
    (s.arrive bytes).Fresh q := by
  obtain ⟨sent, hsent⟩ := Option.ne_none_iff_exists'.mp hsend
  unfold Fresh at h ⊢
  rw [hsent, Option.getD_some] at h ⊢
  obtain ⟨hle, hbuffered⟩ := h
  constructor
  · exact hle.trans (Nat.le_add_right _ _)
  · intro r hr
    change r ∈ s.readBuffer ++ (s.socket ++ numbered s.received bytes) at hr
    rw [← List.append_assoc] at hr
    cases List.mem_append.mp hr with
    | inl hold => exact hbuffered r hold
    | inr hnew => exact hle.trans (le_of_mem_numbered hnew)

theorem sound_advance {stage : LanStage} (h : (s.advance q stage).AwaitsAt { q with stage } stage) :
    (s.advance q stage).Sound := by
  intro q' hq'
  cases hq'
  exact h

theorem sound_nextAttempt (h : s.Fresh q) : (s.nextAttempt q).Sound := by
  unfold nextAttempt
  split
  next =>
    apply sound_advance
    exact h
  next =>
    apply sound_advance
    intro r hr
    cases hr

theorem sound_respond {response : List Received} (h : s.Fresh q) (hresponse : q.Paired response) :
    (s.respond q response).Sound := by
  unfold respond
  split
  next =>
    apply sound_nextAttempt
    exact h
  next =>
    apply sound_advance
    exact hresponse

/-- A line of the buffer is an answer. -/
theorem sound_look {otherwise : LanInterface} (h : s.Fresh q) (hsend : q.firstSend ≠ none)
    (hotherwise : otherwise.Sound) : (s.look q otherwise).Sound := by
  unfold look
  split
  next idx _ =>
    apply sound_respond
    · refine h.of_subset rfl rfl fun r hr => ?_
      cases List.mem_append.mp hr with
      | inl hbuffer => exact List.mem_append_left _ (List.mem_of_mem_drop hbuffer)
      | inr hsocket => exact List.mem_append_right _ hsocket
    · intro r hr
      have hbuffered : r ∈ s.readBuffer := List.mem_of_mem_take (mem_of_mem_trimmed hr)
      obtain ⟨sent, hsent⟩ := Option.ne_none_iff_exists'.mp hsend
      have hle := h.2 r (List.mem_append_left _ hbuffered)
      rw [hsent, Option.getD_some] at hle
      exact ⟨sent, hsent, hle⟩
  next => exact hotherwise

theorem AwaitsAt.of_subset {s' : LanInterface} {stage : LanStage} (h : s.AwaitsAt q stage)
    (hreceived : s'.received = s.received) (hchecking : stage = .checking → s'.readBuffer = [])
    (hsubset : ∀ r ∈ s'.readBuffer ++ s'.socket, r ∈ s.readBuffer ++ s.socket) :
    s'.AwaitsAt q stage := by
  cases stage with
  | checking => exact ⟨hchecking rfl, h.2⟩
  | reading => exact h
  | sending => exact Fresh.of_subset h hreceived rfl hsubset
  | responding => exact ⟨h.1.of_subset hreceived rfl hsubset, h.2⟩
  | polling => exact ⟨h.1.of_subset hreceived rfl hsubset, h.2⟩
  | answered response => exact h

theorem Sound.onSocketDisconnected (h : s.Sound) : s.onSocketDisconnected.Sound := by
  intro q hq
  refine (h q hq).of_subset rfl (fun _ => rfl) fun r hr => ?_
  exact List.mem_append_right _ hr

theorem Sound.onSocketReadyRead (h : s.Sound) (hpast : ∀ q ∈ s.query, q.stage ≠ .checking) :
    s.onSocketReadyRead.Sound := by
  intro q hq
  refine (h q hq).of_subset rfl (fun hchecking => absurd hchecking (hpast q hq)) fun r hr => ?_
  change r ∈ s.readBuffer ++ s.socket ++ [] at hr
  rwa [List.append_nil] at hr

theorem Sound.arrive (h : s.Sound) {bytes : Bytes} (hquiet : s.Quiet (.arrived bytes)) :
    (s.arrive bytes).Sound := by
  intro q hq
  have hawaits := h q hq
  change q ∈ s.query at hq
  generalize hstage : q.stage = stage at hawaits ⊢
  cases stage with
  | checking => exact hawaits
  | reading => exact hawaits
  | sending => exact Fresh.arrive hawaits (hquiet q hq hstage) bytes
  | responding => exact ⟨hawaits.1.arrive hawaits.2 bytes, hawaits.2⟩
  | polling => exact ⟨hawaits.1.arrive hawaits.2 bytes, hawaits.2⟩
  | answered response => exact hawaits

/-- Sending only adds to the errors. -/
theorem sendScpiCommand_eq (s : LanInterface) (command : String) (written : Int) :
    ∃ errors, (s.sendScpiCommand command written).1 = { s with errors } := by
  unfold sendScpiCommand
  split
  next => exact ⟨_, rfl⟩
  next =>
    split
    next => exact ⟨_, rfl⟩
    next =>
      dsimp only
      split
      next => exact ⟨_, rfl⟩
      next => exact ⟨s.errors, rfl⟩

/-- The first send fixes the bound that was in force. -/
theorem sound_sendAttempt (h : s.Fresh q) (written : Int) : (s.sendAttempt q written).Sound := by
  obtain ⟨errors, hsent⟩ := s.sendScpiCommand_eq q.command written
  unfold sendAttempt
  dsimp only
  rw [hsent]
  split
  next =>
    apply sound_advance
    exact ⟨h, Option.some_ne_none _⟩
  next =>
    apply sound_advance
    intro r hr
    cases hr

/-- The step lemma, for the steps of a query. -/
theorem sound_stepQuery {e : LanEvent} {s' : LanInterface} (hquery : s.query = some q)
    (hsound : s.Sound) (hquiet : s.Quiet e) (hstep : s.stepQuery q q.stage e = some s') :
    s'.Sound := by
  have hawaits := hsound q hquery
  have hpast : q.stage ≠ .checking → ∀ q' ∈ s.query, q'.stage ≠ .checking := by
    intro hpast q' hq'
    rw [hquery] at hq'
    exact Option.some.inj hq' ▸ hpast
  generalize q.stage = stage at hawaits hstep hpast
  unfold stepQuery at hstep
  split at hstep
  next =>
    -- the clearing finds an empty socket
    change s.socket = [] at hquiet
    rw [if_pos hquiet] at hstep
    cases hstep
    apply sound_nextAttempt
    unfold Fresh
    rw [hawaits.1, hquiet, hawaits.2]
    exact ⟨Nat.le_refl _, by simp⟩
  next => exact absurd hawaits id
  next written =>
    cases hstep
    exact sound_sendAttempt hawaits written
  next =>
    cases hstep
    apply sound_look hawaits.1 hawaits.2
    apply sound_advance
    exact hawaits
  next =>
    cases hstep
    exact hsound.onSocketReadyRead (hpast (by simp))
  next =>
    cases hstep
    exact sound_look hawaits.1 hawaits.2 hsound
  next =>
    cases hstep
    apply sound_look hawaits.1 hawaits.2
    apply sound_respond hawaits.1
    intro r hr
    cases hr
  next =>
    cases hstep
    exact hsound.onSocketDisconnected
  next =>
    cases hstep
    exact hsound.onSocketDisconnected
  next =>
    cases hstep
    exact hsound.onSocketDisconnected
  next =>
    cases hstep
    intro q' hq'
    cases hq'
  next => cases hstep

/-- What is left in the buffer is thrown away. -/
theorem sound_queryScpiCommand (s : LanInterface) (command : String) (retries : Int) :
    (s.queryScpiCommand command retries).Sound := by
  intro q hq
  cases hq
  exact ⟨rfl, rfl⟩

theorem sound_stepIdle (hidle : s.query = none) {e : LanEvent} {s' : LanInterface}
    (hstep : s.stepIdle e = some s') : s'.Sound := by
  have hsound : s.Sound := by
    intro q hq
    rw [hidle] at hq
    cases hq
  unfold stepIdle at hstep
  split at hstep
  next =>
    cases hstep
    exact hsound
  next =>
    cases hstep
    exact hsound.onSocketDisconnected
  next =>
    cases hstep
    exact hsound.onSocketDisconnected
  next =>
    cases hstep
    apply hsound.onSocketReadyRead
    intro q hq
    rw [hidle] at hq
    cases hq
  next command written =>
    cases hstep
    obtain ⟨errors, hsent⟩ := s.sendScpiCommand_eq command written
    rw [hsent]
    exact hsound
  next command retries =>
    cases hstep
    exact s.sound_queryScpiCommand command retries
  next => cases hstep

/-- The step lemma. -/
theorem Sound.step (h : s.Sound) {e : LanEvent} {s' : LanInterface} (hquiet : s.Quiet e)
    (hstep : s.step e = some s') : s'.Sound := by
  unfold LanInterface.step at hstep
  split at hstep
  next bytes =>
    split at hstep
    next => cases hstep
    next =>
      cases hstep
      exact h.arrive hquiet
  next =>
    split at hstep
    next hidle => exact sound_stepIdle hidle hstep
    next q hquery => exact sound_stepQuery hquery h hquiet hstep

/-- A response holds nothing that had arrived before the query was first sent. -/
theorem answered_paired (h : Machine.Reach lanInterface Quiet s) (hquery : s.query = some q)
    {response : List Received} (hanswered : q.stage = .answered response) :
    q.Paired response := by
  have hsound : s.Sound := by
    apply h.invariant
    · rintro s rfl q' hq'
      cases hq'
    · exact fun s e s' hs hquiet hstep => hs.step hquiet hstep
  have hawaits := hsound q hquery
  rwa [hanswered] at hawaits

/-- A reply that comes after the retry. -/
theorem answered_paired_retried :
    let q : ScpiQuery :=
      { command := "*IDN?", retries := 1, attempt := 1, firstSend := some 0
        stage := .answered [⟨71, 0⟩, ⟨65, 1⟩] }
    q.Paired [⟨71, 0⟩, ⟨65, 1⟩] :=
  answered_paired (Machine.Reach.of_run step (fun _ _ _ h => h) (.start rfl)
    [.connected, .queryScpiCommand "*IDN?" 1, .bytesAvailable, .sent 6, .responded, .elapsed,
      .sent 6, .responded, .arrived [71, 65, 13, 10], .readyRead, .polled] rfl) rfl rfl

/-- A reply that comes after its query was given up is read while the next query clears the
buffer, and is the answer to that. -/
theorem not_answered_paired :
    ∃ s q response, Machine.Reach lanInterface (fun _ _ => True) s ∧ s.query = some q ∧
      q.stage = .answered response ∧ ¬q.Paired response := by
  refine ⟨_, _, _, Machine.Reach.of_run step (fun _ _ _ h => h) (.start rfl)
    [.connected, .queryScpiCommand ":FREQuency:CW?" 0, .bytesAvailable, .sent 15, .responded,
      .elapsed, .returned, .arrived [53, 10], .queryScpiCommand ":POWer:LEVEL?" 0,
      .bytesAvailable, .readAll, .sent 14, .responded] rfl, rfl, rfl, ?_⟩
  intro hpaired
  obtain ⟨sent, hsent, hle⟩ := hpaired ⟨53, 0⟩ (List.mem_singleton_self _)
  cases hsent
  cases hle

end LanInterface

end PPB
