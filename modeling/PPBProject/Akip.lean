import Mathlib.Data.List.ModifyLast
import PPBProject.Gratten

/- `AkipFacade` over `UsbInterface`: the AKIP generator, which is told and asked in lines of text
   over USB.

   A call blocks its thread, and is one step. What the driver does meanwhile comes with the step:
   whether the device opens, what a write comes to, and how many bytes each look for an answer
   takes. The instrument's side is a stream. With each command that reaches it goes all that the
   instrument ever says to it, and what of this has come when the driver is asked is the looks'
   concern.

   Correspondence (C++ ↔ Lean):
     `m_isOpen`, `m_available`           ↔ `UsbInterface.isOpen`, `AkipFacade.available`
     `open`                              ↔ `UsbInterface.openUsb`
     one round of `waitForResponse`      ↔ one of the `looks`, the bytes it may take
     the text of each command and query  ↔ `AkipRequest.text`, `AkipQuery.text`
     conversions of numbers and letters  ↔ `AkipText`
   Left out: the index of the device and the timeouts of its driver, the setters of `UsbInterface`
   that the facade does not use, the caches, which are written and never read, the signals other
   than the interface's and the facade's own errors, and the measured times. -/
namespace PPB

/-- How the device opens: with bytes `left` in it from before, or not. -/
inductive UsbOpening where
  | opened (left : Bytes)
  | failed (error : String)
  deriving DecidableEq

/-- What comes of a write, and all that the instrument says to it. -/
structure UsbWrite where
  ok : Bool
  length : Nat
  reply : Bytes := []
  deriving DecidableEq

/-- What went to the instrument, all it says to this, and what was handed out to the query, if it
was one and did not return before. -/
structure Exchange where
  data : Bytes
  reply : Bytes
  handed : Option Bytes
  deriving DecidableEq

/-- What passes from one opening on: `unread` is what the instrument says and nobody has read. -/
structure UsbSession where
  left : Bytes := []
  unread : Bytes := []
  exchanges : List Exchange := []
  deriving DecidableEq

structure UsbInterface where
  isOpen : Bool := false
  session : UsbSession := {}
  errors : List String := []
  deriving DecidableEq

/-- `QString::toLatin1`: what it has no byte for becomes a question mark, one for each unit. -/
def toLatin1 (text : String) : Bytes :=
  text.toList.flatMap fun c =>
    if c.toNat < 256 then [c.toNat.toUInt8] else if c.toNat < 65536 then [63] else [63, 63]

def isTerminator (byte : UInt8) : Bool := byte = 10 || byte = 13

/-- The bytes of a command. -/
def scpiLine (command : String) : Bytes := toLatin1 command ++ [10]

/-- A round, with a buffer of 256 bytes. Where nothing is read the code sleeps. -/
def waitForResponse (unread response : Bytes) : List Nat → Bytes × Bytes
  | [] => (response, unread)
  | taken :: looks =>
    let buffer := unread.take (min taken 256)
    let rest := unread.drop (min taken 256)
    if buffer = [] then waitForResponse unread response looks
    else if (response ++ buffer).any isTerminator then (response ++ buffer, rest)
    else waitForResponse rest (response ++ buffer) looks

namespace UsbSession

/-- Bytes go to the instrument. -/
def deliver (s : UsbSession) (data reply : Bytes) : UsbSession :=
  { s with unread := s.unread ++ reply, exchanges := s.exchanges ++ [⟨data, reply, none⟩] }

/-- The last exchange is handed what was read. -/
def receive (s : UsbSession) (response rest : Bytes) : UsbSession :=
  { s with unread := rest
           exchanges := s.exchanges.modifyLast fun x => { x with handed := some response } }

end UsbSession

namespace UsbInterface

def emitError (s : UsbInterface) (text : String) : UsbInterface :=
  { s with errors := s.errors ++ [text] }

def close (s : UsbInterface) : UsbInterface := { s with isOpen := false }

def openUsb (s : UsbInterface) : UsbOpening → UsbInterface × Bool
  | .failed error => (s.close.emitError error, false)
  | .opened left => ({ s with isOpen := true, session := { left, unread := left } }, true)

def sendScpiCommand (s : UsbInterface) (command : String) (w : UsbWrite) : UsbInterface × Bool :=
  if !s.isOpen then (s.emitError "Устройство не открыто", false)
  else
    let data := scpiLine command
    let s := { s with session := s.session.deliver data w.reply }
    if w.ok && w.length = data.length then (s, true)
    else
      let size := data.length
      (s.emitError s!"Ошибка отправки команды. Отправлено {w.length} из {size} байт", false)

/-- A command that asks nothing is answered `OK`. -/
def queryScpiCommand (s : UsbInterface) (command : String) (w : UsbWrite) (looks : List Nat) :
    UsbInterface × Bytes :=
  let sent := s.sendScpiCommand command w
  if !sent.2 then (sent.1, [])
  else if command.toList.contains '?' then
    let waited := waitForResponse sent.1.session.unread [] looks
    ({ sent.1 with session := sent.1.session.receive waited.1 waited.2 }, trimmedBytes waited.1)
  else (sent.1, [79, 75])

def getIdentity (s : UsbInterface) (w : UsbWrite) (looks : List Nat) : UsbInterface × Bytes :=
  s.queryScpiCommand "*IDN?" w looks

end UsbInterface

/-! The commands of the facade. -/

/-- Qt's conversions: `arg` of a `double` with a number of decimals, `QString::toUpper` and
`QString::toDouble`. -/
structure AkipText where
  fixed : Double → Nat → String
  toUpper : String → String
  toDouble : Bytes → Option Double

def channelToLetter (channel : Int) : String := if channel = 1 then "A" else "B"

inductive AkipRequest where
  | frequency (channel : Int) (freqHz : Double)
  | output (channel : Int) (enable : Bool)
  | amplitude (channel : Int) (amplitude : Double) (unit : String)
  | waveform (channel : Int) (waveform : String)
  | dutyCycle (channel : Int) (percent : Double)
  | amFrequency (channel : Int) (freqHz : Double)
  | amDepth (channel : Int) (percent : Double)
  | reset
  | command (cmd : String)
  deriving DecidableEq

inductive AkipQuery where
  | frequency (channel : Int)
  | output (channel : Int)
  | amplitude (channel : Int)
  | waveform (channel : Int)
  | dutyCycle (channel : Int)
  | amFrequency (channel : Int)
  | amDepth (channel : Int)
  | identity
  | command (cmd : String)
  deriving DecidableEq

/-- The standard names of the forms; any other goes as it is. -/
def standardWaveform (wf : String) : String :=
  if wf = "SINE" then "SIN" else if wf = "SQU" then "SQUARE" else wf

def AkipRequest.text (qt : AkipText) : AkipRequest → String
  | .frequency channel freqHz => s!"FREQ:CH{channelToLetter channel} {qt.fixed freqHz 0}"
  | .output channel enable =>
    let state := if enable then "ON" else "OFF"
    s!"OUTP:CH{channelToLetter channel} {state}"
  | .amplitude channel value unit =>
    s!"VOLT:CH{channelToLetter channel} {qt.fixed value 4} {unit}"
  | .waveform channel form =>
    s!"FUNC:CH{channelToLetter channel} {standardWaveform (qt.toUpper form)}"
  | .dutyCycle channel percent =>
    s!"FUNC:CH{channelToLetter channel}:SQU:DCYC {qt.fixed percent 3}"
  | .amFrequency _ freqHz => s!"AM:INT:FREQ {qt.fixed freqHz 0}"
  | .amDepth _ percent => s!"AM:DEPT {qt.fixed percent 1}"
  | .reset => "*RST"
  | .command cmd => cmd

def AkipQuery.text : AkipQuery → String
  | .frequency channel => s!"FREQ:CH{channelToLetter channel}?"
  | .output channel => s!"OUTP:CH{channelToLetter channel}?"
  | .amplitude channel => s!"VOLT:CH{channelToLetter channel}?"
  | .waveform channel => s!"FUNC:CH{channelToLetter channel}?"
  | .dutyCycle channel => s!"FUNC:CH{channelToLetter channel}:SQU:DCYC?"
  | .amFrequency _ => "AM:INT:FREQ?"
  | .amDepth _ => "AM:DEPT?"
  | .identity => "*IDN?"
  | .command cmd => cmd

/-- What a query function returns. -/
inductive AkipAnswer where
  | number (d : Double)
  | state (on : Bool)
  | text (response : Bytes)
  deriving DecidableEq

/-- Without an answer, or without a number in it, a number is 0.0. -/
def AkipQuery.read (qt : AkipText) : AkipQuery → Option Bytes → AkipAnswer
  | .output _, response =>
    .state (response.elim false fun text => decide ([79, 78] <:+: text.map toUpper))
  | .waveform _, response | .identity, response | .command _, response =>
    .text (response.getD [])
  | .frequency _, response | .amplitude _, response | .dutyCycle _, response
  | .amFrequency _, response | .amDepth _, response =>
    .number ((response.bind qt.toDouble).getD (.finite 0))

/-! The facade. -/

structure AkipFacade where
  usb : UsbInterface := {}
  available : Bool := false
  errors : List String := []
  deriving DecidableEq

namespace AkipFacade

variable (qt : AkipText)

def emitError (s : AkipFacade) (text : String) : AkipFacade :=
  { s with errors := s.errors ++ [text] }

def isAvailable (s : AkipFacade) : Bool := s.available && s.usb.isOpen

/-- A device that is open is not asked again. -/
def openDevice (s : AkipFacade) (opening : UsbOpening) (w : UsbWrite) (looks : List Nat) :
    AkipFacade × Bool :=
  if s.usb.isOpen then (s, true)
  else
    let opened := s.usb.openUsb opening
    if !opened.2 then ({ s with usb := opened.1, available := false }, false)
    else
      let idn := opened.1.getIdentity w looks
      let available := !idn.2.isEmpty
      let s := { s with usb := idn.1, available }
      (if available then s else s.emitError "Device opened but does not respond to *IDN?",
        available)

def closeDevice (s : AkipFacade) : AkipFacade := { s with usb := s.usb.close, available := false }

/-- Every command checks `ensureAvailable` first. -/
def send (s : AkipFacade) (command : String) (w : UsbWrite) : AkipFacade × Bool :=
  if s.isAvailable then
    let sent := s.usb.sendScpiCommand command w
    ({ s with usb := sent.1 }, sent.2)
  else (s.emitError "Device not available", false)

/-- And so does every query. -/
def ask (s : AkipFacade) (command : String) (w : UsbWrite) (looks : List Nat) :
    AkipFacade × Option Bytes :=
  if s.isAvailable then
    let asked := s.usb.queryScpiCommand command w looks
    ({ s with usb := asked.1 }, some asked.2)
  else (s.emitError "Device not available", none)

/-! The functions that set. -/

def set (s : AkipFacade) (request : AkipRequest) (w : UsbWrite) : AkipFacade × Bool :=
  s.send (request.text qt) w

def setFrequency (s : AkipFacade) (channel : Int) (freqHz : Double) :=
  s.set qt (.frequency channel freqHz)

def setOutput (s : AkipFacade) (channel : Int) (enable : Bool) := s.set qt (.output channel enable)

def setAmplitude (s : AkipFacade) (channel : Int) (amplitude : Double) (unit : String) :=
  s.set qt (.amplitude channel amplitude unit)

def setWaveform (s : AkipFacade) (channel : Int) (waveform : String) :=
  s.set qt (.waveform channel waveform)

def setDutyCycle (s : AkipFacade) (channel : Int) (percent : Double) :=
  s.set qt (.dutyCycle channel percent)

def setAMFrequency (s : AkipFacade) (channel : Int) (freqHz : Double) :=
  s.set qt (.amFrequency channel freqHz)

def setAMDepth (s : AkipFacade) (channel : Int) (percent : Double) :=
  s.set qt (.amDepth channel percent)

/-- The command is composed and not sent. -/
def setAMState (s : AkipFacade) (_channel : Int) (_enable : Bool) : AkipFacade × Bool :=
  if s.isAvailable then (s, true) else (s.emitError "Device not available", false)

def reset (s : AkipFacade) := s.set qt .reset

def sendCommand (s : AkipFacade) (cmd : String) := s.set qt (.command cmd)

/-! The functions that query. -/

def query (s : AkipFacade) (q : AkipQuery) (w : UsbWrite) (looks : List Nat) :
    AkipFacade × AkipAnswer :=
  let asked := s.ask q.text w looks
  (asked.1, q.read qt asked.2)

def queryFrequency (s : AkipFacade) (channel : Int) := s.query qt (.frequency channel)

def queryOutput (s : AkipFacade) (channel : Int) := s.query qt (.output channel)

def queryAmplitude (s : AkipFacade) (channel : Int) := s.query qt (.amplitude channel)

def queryWaveform (s : AkipFacade) (channel : Int) := s.query qt (.waveform channel)

def queryDutyCycle (s : AkipFacade) (channel : Int) := s.query qt (.dutyCycle channel)

def queryAMFrequency (s : AkipFacade) (channel : Int) := s.query qt (.amFrequency channel)

def queryAMDepth (s : AkipFacade) (channel : Int) := s.query qt (.amDepth channel)

/-- Nothing is asked. -/
def queryAMState (_ : AkipFacade) (_channel : Int) : Bool := false

def getIdentity (s : AkipFacade) := s.query qt .identity

def queryCommand (s : AkipFacade) (cmd : String) := s.query qt (.command cmd)

end AkipFacade

/-- The calls. -/
inductive AkipEvent where
  | openDevice (opening : UsbOpening) (w : UsbWrite) (looks : List Nat)
  | closeDevice
  | set (request : AkipRequest) (w : UsbWrite)
  | setAMState (channel : Int) (enable : Bool)
  | query (q : AkipQuery) (w : UsbWrite) (looks : List Nat)
  deriving DecidableEq

def AkipFacade.step (qt : AkipText) (s : AkipFacade) : AkipEvent → AkipFacade
  | .openDevice opening w looks => (s.openDevice opening w looks).1
  | .closeDevice => s.closeDevice
  | .set request w => (s.set qt request w).1
  | .setAMState channel enable => (s.setAMState channel enable).1
  | .query q w looks => (s.query qt q w looks).1

/-- The facade, the driver and the instrument. -/
def akip (qt : AkipText) : Machine.System AkipFacade AkipEvent where
  start s := s = {}
  step s e s' := s' = s.step qt e

/-! What a wait takes. -/

/-- A piece of the stream, up to the end of the buffer with the first end of a line in it. -/
def Cut (piece : Bytes) : Prop :=
  ∃ body buffer, piece = body ++ buffer ∧ body.any isTerminator = false ∧ buffer.length ≤ 256

theorem waitForResponse_append (looks : List Nat) (unread response : Bytes) :
    ∃ piece, (waitForResponse unread response looks).1 = response ++ piece ∧
      unread = piece ++ (waitForResponse unread response looks).2 := by
  induction looks generalizing unread response with
  | nil => exact ⟨[], (List.append_nil _).symm, rfl⟩
  | cons taken looks ih =>
    unfold waitForResponse
    dsimp only
    split
    next => exact ih unread response
    next =>
      split
      next => exact ⟨_, rfl, (List.take_append_drop _ unread).symm⟩
      next =>
        obtain ⟨piece, hresponse, hunread⟩ :=
          ih (unread.drop (min taken 256)) (response ++ unread.take (min taken 256))
        refine ⟨unread.take (min taken 256) ++ piece, ?_, ?_⟩
        · rw [hresponse, List.append_assoc]
        · rw [List.append_assoc, ← hunread, List.take_append_drop]

theorem waitForResponse_cut (looks : List Nat) (unread : Bytes) {response : Bytes}
    (hresponse : response.any isTerminator = false) :
    Cut (waitForResponse unread response looks).1 := by
  induction looks generalizing unread response with
  | nil => exact ⟨response, [], (List.append_nil _).symm, hresponse, Nat.zero_le _⟩
  | cons taken looks ih =>
    unfold waitForResponse
    dsimp only
    split
    next => exact ih unread hresponse
    next =>
      split
      next =>
        refine ⟨response, _, rfl, hresponse, ?_⟩
        exact (List.length_take_le _ _).trans (Nat.min_le_right _ _)
      next hnone => exact ih _ (Bool.eq_false_iff.mpr hnone)

/-! What a call does to what passes. -/

namespace UsbWrite

/-- All of the command went out. -/
def complete (w : UsbWrite) (command : String) : Bool :=
  w.ok && w.length = (scpiLine command).length

/-- The call waits for an answer. -/
def waits (w : UsbWrite) (command : String) : Bool :=
  w.complete command && command.toList.contains '?'

end UsbWrite

namespace UsbSession

/-- A query. -/
def after (s : UsbSession) (command : String) (w : UsbWrite) (looks : List Nat) : UsbSession :=
  let delivered := s.deliver (scpiLine command) w.reply
  if w.waits command then
    let waited := waitForResponse delivered.unread [] looks
    delivered.receive waited.1 waited.2
  else delivered

/-- The answers that were handed out, and what is left, are what the instrument said. -/
def Conserved (s : UsbSession) : Prop :=
  s.left ++ s.exchanges.flatMap (·.reply) =
    (s.exchanges.flatMap fun x => x.handed.getD []) ++ s.unread

theorem deliver_receive (s : UsbSession) (data reply response rest : Bytes) :
    (s.deliver data reply).receive response rest =
      { s with unread := rest, exchanges := s.exchanges ++ [⟨data, reply, some response⟩] } := by
  unfold receive deliver
  rw [List.modifyLast_concat]

/-- The exchange that a query adds. -/
theorem after_eq (s : UsbSession) (command : String) (w : UsbWrite) (looks : List Nat) :
    s.after command w looks =
      if w.waits command then
        { s with
          unread := (waitForResponse (s.unread ++ w.reply) [] looks).2
          exchanges := s.exchanges ++ [⟨scpiLine command, w.reply,
            some (waitForResponse (s.unread ++ w.reply) [] looks).1⟩] }
      else s.deliver (scpiLine command) w.reply := by
  unfold after
  dsimp only
  rw [deliver_receive]
  rfl

theorem exists_exchange (s : UsbSession) (command : String) (w : UsbWrite) (looks : List Nat) :
    ∃ new, (s.after command w looks).exchanges = s.exchanges ++ [new] := by
  rw [after_eq]
  split
  next => exact ⟨_, rfl⟩
  next => exact ⟨_, rfl⟩

theorem conserved_start (left : Bytes) : ({ left, unread := left } : UsbSession).Conserved :=
  List.append_nil left

variable {s : UsbSession}

theorem Conserved.deliver (h : s.Conserved) (data reply : Bytes) :
    (s.deliver data reply).Conserved := by
  unfold Conserved at h ⊢
  change s.left ++ (s.exchanges ++ [_]).flatMap _ = (s.exchanges ++ [_]).flatMap _ ++ _
  rw [List.flatMap_append, List.flatMap_append, ← List.append_assoc, h]
  simp [UsbSession.deliver]

theorem Conserved.after (h : s.Conserved) (command : String) (w : UsbWrite) (looks : List Nat) :
    (s.after command w looks).Conserved := by
  rw [after_eq]
  split
  next =>
    obtain ⟨piece, hpiece, hunread⟩ := waitForResponse_append looks (s.unread ++ w.reply) []
    unfold Conserved at h ⊢
    dsimp only
    rw [List.flatMap_append, List.flatMap_append, ← List.append_assoc, h, hpiece]
    simp only [List.flatMap_singleton, Option.getD_some, List.nil_append, List.append_assoc]
    rw [← hunread]
  next => exact h.deliver _ _

/-- Each answer is one piece. -/
theorem cut_after (hcut : ∀ x ∈ s.exchanges, ∀ piece ∈ x.handed, Cut piece) (command : String)
    (w : UsbWrite) (looks : List Nat) :
    ∀ x ∈ (s.after command w looks).exchanges, ∀ piece ∈ x.handed, Cut piece := by
  rw [after_eq]
  split
  next =>
    intro x hx
    cases List.mem_append.mp hx with
    | inl hold => exact hcut x hold
    | inr hnew =>
      cases List.mem_singleton.mp hnew
      rintro piece ⟨⟩
      exact waitForResponse_cut looks _ rfl
  next =>
    intro x hx
    cases List.mem_append.mp hx with
    | inl hold => exact hcut x hold
    | inr hnew =>
      cases List.mem_singleton.mp hnew
      rintro piece ⟨⟩

end UsbSession

namespace UsbInterface

variable {s : UsbInterface}

theorem sendScpiCommand_of_isOpen (hopen : s.isOpen = true) (command : String) (w : UsbWrite) :
    ∃ errors, s.sendScpiCommand command w =
      ({ s with session := s.session.deliver (scpiLine command) w.reply, errors },
        w.complete command) := by
  unfold sendScpiCommand UsbWrite.complete
  rw [hopen]
  dsimp only
  split
  next hnot => cases hnot
  next =>
    split
    next hcomplete => exact ⟨s.errors, by rw [hcomplete]⟩
    next hnot => exact ⟨_, by rw [Bool.eq_false_iff.mpr hnot]; rfl⟩

/-- A query of a device that is open, and what it returns. -/
theorem queryScpiCommand_of_isOpen (hopen : s.isOpen = true) (command : String) (w : UsbWrite)
    (looks : List Nat) :
    ∃ errors, (s.queryScpiCommand command w looks).1 =
        { s with session := s.session.after command w looks, errors } ∧
      (s.queryScpiCommand command w looks).2 =
        if w.waits command then
          trimmedBytes (waitForResponse (s.session.unread ++ w.reply) [] looks).1
        else if w.complete command then [79, 75] else [] := by
  obtain ⟨errors, hsent⟩ := sendScpiCommand_of_isOpen hopen command w
  refine ⟨errors, ?_⟩
  unfold queryScpiCommand UsbSession.after UsbWrite.waits
  rw [hsent]
  dsimp only
  cases w.complete command with
  | false => exact ⟨rfl, rfl⟩
  | true =>
    cases command.toList.contains '?' with
    | false => exact ⟨rfl, rfl⟩
    | true => exact ⟨rfl, rfl⟩

theorem getIdentity_of_isOpen (hopen : s.isOpen = true) (w : UsbWrite) (looks : List Nat) :
    ∃ errors, (s.getIdentity w looks).1 =
        { s with session := s.session.after "*IDN?" w looks, errors } ∧
      (s.getIdentity w looks).2 = if w.waits "*IDN?" then
        trimmedBytes (waitForResponse (s.session.unread ++ w.reply) [] looks).1 else [] := by
  obtain ⟨errors, hsession, hanswer⟩ := queryScpiCommand_of_isOpen hopen "*IDN?" w looks
  refine ⟨errors, hsession, hanswer.trans ?_⟩
  have hwaits : w.waits "*IDN?" = w.complete "*IDN?" := Bool.and_true _
  rw [hwaits]
  cases w.complete "*IDN?" with
  | false => rfl
  | true => rfl

end UsbInterface

namespace AkipFacade

variable {qt : AkipText} {s : AkipFacade}

/-- A device that opens is asked who it is. -/
theorem openDevice_opened (hclosed : s.usb.isOpen = false) (left : Bytes) (w : UsbWrite)
    (looks : List Nat) :
    (s.openDevice (.opened left) w looks).1.usb.isOpen = true ∧
      (s.openDevice (.opened left) w looks).1.usb.session =
        ({ left, unread := left } : UsbSession).after "*IDN?" w looks ∧
      (s.openDevice (.opened left) w looks).1.available = !(if w.waits "*IDN?" then
        trimmedBytes (waitForResponse (left ++ w.reply) [] looks).1 else []).isEmpty := by
  obtain ⟨errors, hidn, hanswer⟩ := UsbInterface.getIdentity_of_isOpen
    (show (s.usb.openUsb (.opened left)).1.isOpen = true from rfl) w looks
  change _ = if w.waits "*IDN?" then
    trimmedBytes (waitForResponse (left ++ w.reply) [] looks).1 else [] at hanswer
  unfold openDevice
  rw [hclosed, if_neg Bool.false_ne_true]
  dsimp only
  split
  next hfailed => cases hfailed
  next =>
    rw [← hanswer]
    generalize ((s.usb.openUsb (.opened left)).1.getIdentity w looks).2 = answer
    cases answer.isEmpty with
    | false => exact ⟨congrArg UsbInterface.isOpen hidn, congrArg UsbInterface.session hidn, rfl⟩
    | true => exact ⟨congrArg UsbInterface.isOpen hidn, congrArg UsbInterface.session hidn, rfl⟩

/-- Nothing passes, one command does, or the device is opened. -/
theorem step_cases (s : AkipFacade) (e : AkipEvent) :
    ((s.step qt e).usb.session = s.usb.session ∧
      ((s.step qt e).available = s.available ∧ (s.step qt e).usb.isOpen = s.usb.isOpen ∨
        (s.step qt e).available = false ∧ (s.step qt e).usb.isOpen = false)) ∨
    (s.isAvailable = true ∧ (s.step qt e).available = s.available ∧
      (s.step qt e).usb.isOpen = s.usb.isOpen ∧
      ((∃ request w, e = .set request w ∧ (s.step qt e).usb.session =
          s.usb.session.deliver (scpiLine (request.text qt)) w.reply) ∨
        ∃ q w looks, e = .query q w looks ∧
          (s.step qt e).usb.session = s.usb.session.after q.text w looks)) ∨
    ∃ left w looks, s.usb.isOpen = false ∧ e = .openDevice (.opened left) w looks ∧
      (s.step qt e).usb.isOpen = true ∧
      (s.step qt e).usb.session =
        ({ left, unread := left } : UsbSession).after "*IDN?" w looks ∧
      (s.step qt e).available = !(if w.waits "*IDN?" then
        trimmedBytes (waitForResponse (left ++ w.reply) [] looks).1 else []).isEmpty := by
  cases e with
  | openDevice opening w looks =>
    cases hopen : s.usb.isOpen with
    | true =>
      have hsame : s.step qt (.openDevice opening w looks) = s := by
        dsimp only [step, openDevice]
        rw [hopen, if_pos rfl]
      rw [hsame, hopen]
      exact .inl ⟨rfl, .inl ⟨rfl, rfl⟩⟩
    | false =>
      cases opening with
      | failed error =>
        dsimp only [step, openDevice]
        rw [hopen, if_neg Bool.false_ne_true]
        exact .inl ⟨rfl, .inr ⟨rfl, rfl⟩⟩
      | opened left =>
        exact .inr (.inr ⟨left, w, looks, rfl, rfl, openDevice_opened hopen left w looks⟩)
  | closeDevice => exact .inl ⟨rfl, .inr ⟨rfl, rfl⟩⟩
  | set request w =>
    dsimp only [step, AkipFacade.set]
    unfold send
    split
    next havailable =>
      have hopen : s.usb.isOpen = true := (Bool.and_eq_true_iff.mp havailable).2
      obtain ⟨errors, hsent⟩ :=
        UsbInterface.sendScpiCommand_of_isOpen hopen (request.text qt) w
      refine .inr (.inl ⟨havailable, rfl, ?_, .inl ⟨request, w, rfl, ?_⟩⟩)
      · rw [hsent]
      · rw [hsent]
    next => exact .inl ⟨rfl, .inl ⟨rfl, rfl⟩⟩
  | setAMState channel enable =>
    dsimp only [step]
    unfold setAMState
    split
    next => exact .inl ⟨rfl, .inl ⟨rfl, rfl⟩⟩
    next => exact .inl ⟨rfl, .inl ⟨rfl, rfl⟩⟩
  | query q w looks =>
    dsimp only [step, query]
    unfold ask
    split
    next havailable =>
      have hopen : s.usb.isOpen = true := (Bool.and_eq_true_iff.mp havailable).2
      obtain ⟨errors, hasked, -⟩ := UsbInterface.queryScpiCommand_of_isOpen hopen q.text w looks
      refine .inr (.inl ⟨havailable, rfl, ?_, .inr ⟨q, w, looks, rfl, ?_⟩⟩)
      · dsimp only
        rw [hasked]
      · dsimp only
        rw [hasked]
    next => exact .inl ⟨rfl, .inl ⟨rfl, rfl⟩⟩

/-- What is kept by the start, by a command and by a query is so of every session. -/
theorem session_invariant {P : UsbSession → Prop} {guard : AkipFacade → AkipEvent → Prop}
    (hnew : P {})
    (hsend : ∀ s request w, P s.usb.session → guard s (.set request w) → s.isAvailable = true →
      P (s.usb.session.deliver (scpiLine (request.text qt)) w.reply))
    (hquery : ∀ s q w looks, P s.usb.session → guard s (.query q w looks) →
      s.isAvailable = true → P (s.usb.session.after q.text w looks))
    (hopen : ∀ s left w looks, guard s (.openDevice (.opened left) w looks) →
      s.usb.isOpen = false →
      P (({ left, unread := left } : UsbSession).after "*IDN?" w looks))
    (h : Machine.Reach (akip qt) guard s) : P s.usb.session := by
  apply h.invariant
  · rintro s rfl
    exact hnew
  · rintro s e _ hs hguard rfl
    rcases s.step_cases e with ⟨hsame, -⟩ | ⟨havailable, -, -, hpassed⟩ |
      ⟨left, w, looks, hclosed, rfl, -, hopened, -⟩
    · exact hsame ▸ hs
    · rcases hpassed with ⟨request, w, rfl, hsent⟩ | ⟨q, w, looks, rfl, hqueried⟩
      · exact hsent ▸ hsend s request w hs hguard havailable
      · exact hqueried ▸ hquery s q w looks hs hguard havailable
    · exact hopened ▸ hopen s left w looks hguard hclosed

/-- What is taken from the driver are pieces of what the instrument says. Nothing is lost, said twice
or swapped from one opening to the next, and a piece ends with the buffer in which its first line
ends. -/
theorem answers_conserved (h : Machine.Reach (akip qt) (fun _ _ => True) s) :
    s.usb.session.Conserved ∧ ∀ x ∈ s.usb.session.exchanges, ∀ piece ∈ x.handed, Cut piece := by
  refine session_invariant (P := fun t => t.Conserved ∧
    ∀ x ∈ t.exchanges, ∀ piece ∈ x.handed, Cut piece) ?_ ?_ ?_ ?_ h
  · exact ⟨rfl, fun _ hx => absurd hx List.not_mem_nil⟩
  · intro s request w hs _ _
    refine ⟨hs.1.deliver _ _, fun x hx => ?_⟩
    cases List.mem_append.mp hx with
    | inl hold => exact hs.2 x hold
    | inr hnew =>
      cases List.mem_singleton.mp hnew
      rintro piece ⟨⟩
  · intro s q w looks hs _ _
    exact ⟨hs.1.after _ _ _, UsbSession.cut_after hs.2 _ _ _⟩
  · intro s left w looks _ _
    exact ⟨(UsbSession.conserved_start left).after _ _ _,
      UsbSession.cut_after (fun _ hx => absurd hx List.not_mem_nil) _ _ _⟩

end AkipFacade

/-! Who may be told anything. -/

/-- The query at the opening was answered. -/
def UsbSession.Identified (s : UsbSession) : Prop :=
  ∃ first ∈ s.exchanges.head?, ∃ piece ∈ first.handed, trimmedBytes piece ≠ []

namespace AkipFacade

variable {qt : AkipText} {s : AkipFacade}

/-- The flag says so while the device is open, and the rest was sent under it. -/
structure Known (s : AkipFacade) : Prop where
  isOpen : s.available = true → s.usb.isOpen = true
  identified : s.usb.isOpen = true → (s.available = true ↔ s.usb.session.Identified)
  exchanges : ∀ x xs, s.usb.session.exchanges = x :: xs →
    x.data = scpiLine "*IDN?" ∧ (xs ≠ [] → s.usb.session.Identified)

/-- One more exchange, of a device that has said who it is. -/
theorem Known.snoc (h : s.Known) (havailable : s.isAvailable = true) {s' : AkipFacade}
    (hflag : s'.available = s.available) (hopen : s'.usb.isOpen = s.usb.isOpen) {new : Exchange}
    (hsession : s'.usb.session.exchanges = s.usb.session.exchanges ++ [new]) : s'.Known := by
  obtain ⟨hflagged, hisOpen⟩ := Bool.and_eq_true_iff.mp havailable
  have hidentified := (h.identified hisOpen).mp hflagged
  obtain ⟨first, hfirst, piece, hpiece, hanswer⟩ := hidentified
  obtain ⟨rest, hrest⟩ := List.head?_eq_some_iff.mp hfirst
  have hsame : s'.usb.session.exchanges = first :: (rest ++ [new]) := by
    rw [hsession, hrest, List.cons_append]
  have hidentified' : s'.usb.session.Identified := by
    refine ⟨first, ?_, piece, hpiece, hanswer⟩
    rw [hsame]
    rfl
  constructor
  · rw [hflag, hopen]
    exact h.isOpen
  · intro _
    rw [hflag]
    exact iff_of_true hflagged hidentified'
  · intro x xs hx
    rw [hsame] at hx
    cases hx
    exact ⟨(h.exchanges _ _ hrest).1, fun _ => hidentified'⟩

/-- The session begins with the query. -/
theorem known_opened {left : Bytes} {w : UsbWrite} {looks : List Nat} {s' : AkipFacade}
    (hopen : s'.usb.isOpen = true)
    (hsession : s'.usb.session = ({ left, unread := left } : UsbSession).after "*IDN?" w looks)
    (havailable : s'.available = !(if w.waits "*IDN?" then
      trimmedBytes (waitForResponse (left ++ w.reply) [] looks).1 else []).isEmpty) :
    s'.Known := by
  rw [UsbSession.after_eq] at hsession
  constructor
  · exact fun _ => hopen
  · intro _
    rw [havailable, hsession]
    unfold UsbSession.Identified
    cases w.waits "*IDN?" with
    | true =>
      simp
    | false =>
      simp [UsbSession.deliver]
  · intro x xs hx
    rw [hsession] at hx
    split at hx
    next =>
      cases hx
      exact ⟨rfl, fun hne => absurd rfl hne⟩
    next =>
      cases hx
      exact ⟨rfl, fun hne => absurd rfl hne⟩

/-- **The instrument is told nothing before it has said who it is.** It is available exactly while
open with its identity answered at the opening, and nothing else was sent in a session without. -/
theorem identified_first (h : Machine.Reach (akip qt) (fun _ _ => True) s) :
    (s.isAvailable = true ↔ s.usb.isOpen = true ∧ s.usb.session.Identified) ∧
      ∀ x xs, s.usb.session.exchanges = x :: xs →
        x.data = scpiLine "*IDN?" ∧ (xs ≠ [] → s.usb.session.Identified) := by
  have hknown : s.Known := by
    apply h.invariant
    · rintro s rfl
      constructor
      · exact fun havailable => absurd havailable Bool.false_ne_true
      · exact fun hopen => absurd hopen Bool.false_ne_true
      · exact fun x xs hx => absurd hx.symm (List.cons_ne_nil x xs)
    · rintro s e _ hs - rfl
      rcases s.step_cases e with ⟨hsame, hflags⟩ | ⟨havailable, hflag, hopen, hpassed⟩ |
        ⟨left, w, looks, -, rfl, hopen, hsession, havailable⟩
      · rcases hflags with ⟨hflag, hopen⟩ | ⟨hflag, hopen⟩
        · exact ⟨hflag ▸ hopen ▸ hs.isOpen, hflag ▸ hopen ▸ hsame ▸ hs.identified,
            hsame ▸ hs.exchanges⟩
        · constructor
          · rw [hflag]
            exact fun havailable => absurd havailable Bool.false_ne_true
          · rw [hopen]
            exact fun hopen => absurd hopen Bool.false_ne_true
          · exact hsame ▸ hs.exchanges
      · rcases hpassed with ⟨request, w, rfl, hsent⟩ | ⟨q, w, looks, rfl, hqueried⟩
        · exact hs.snoc havailable hflag hopen (congrArg UsbSession.exchanges hsent)
        · obtain ⟨new, hnew⟩ := UsbSession.exists_exchange s.usb.session q.text w looks
          exact hs.snoc havailable hflag hopen (hqueried ▸ hnew)
      · exact known_opened hopen hsession havailable
  refine ⟨?_, hknown.exchanges⟩
  unfold isAvailable
  rw [Bool.and_eq_true_iff]
  constructor
  · rintro ⟨hflag, hopen⟩
    exact ⟨hopen, (hknown.identified hopen).mp hflag⟩
  · rintro ⟨hopen, hidentified⟩
    exact ⟨(hknown.identified hopen).mpr hidentified, hopen⟩

end AkipFacade

/-! What the callers are told. -/

/-- A query that has returned, and what passed between it and the instrument, if anything did. -/
structure AkipReturn where
  query : AkipQuery
  answer : AkipAnswer
  exchange : Option Exchange
  deriving DecidableEq

/-- What was returned is read from the piece that the query was handed, without the blanks around
it. A command that asks nothing is answered `OK` though the instrument has not said so, and one that
did not go out, or was not tried, with what stands for no answer. -/
def AkipReturn.Faithful (qt : AkipText) (r : AkipReturn) : Prop :=
  match r.exchange with
  | none => r.answer = r.query.read qt none
  | some x => x.data = scpiLine r.query.text ∧
    match x.handed with
    | some piece => r.answer = r.query.read qt (some (trimmedBytes piece))
    | none => r.answer = r.query.read qt (some []) ∨
      r.query.text.toList.contains '?' = false ∧ r.answer = r.query.read qt (some [79, 75])

/-- The facade, and what the queries have returned since the device was opened last. -/
structure AkipCallers where
  facade : AkipFacade := {}
  returns : List AkipReturn := []
  deriving DecidableEq

namespace AkipCallers

def step (qt : AkipText) (s : AkipCallers) (e : AkipEvent) : AkipCallers :=
  let facade := s.facade.step qt e
  match e with
  | .query q w looks =>
    let exchange := facade.usb.session.exchanges[s.facade.usb.session.exchanges.length]?
    { facade, returns := s.returns ++ [⟨q, (s.facade.query qt q w looks).2, exchange⟩] }
  | .openDevice (.opened _) _ _ =>
    { facade, returns := if s.facade.usb.isOpen then s.returns else [] }
  | _ => { s with facade }

/-- The facade in use. -/
def machine (qt : AkipText) : Machine.System AkipCallers AkipEvent where
  start s := s = {}
  step s e s' := s' = s.step qt e

variable {qt : AkipText} {s : AkipCallers}

theorem facade_step (s : AkipCallers) (e : AkipEvent) :
    (s.step qt e).facade = s.facade.step qt e := by
  unfold step
  split <;> rfl

theorem reach_facade (h : Machine.Reach (machine qt) (fun _ _ => True) s) :
    Machine.Reach (akip qt) (fun _ _ => True) s.facade := by
  induction h with
  | start hs =>
    cases hs
    exact .start rfl
  | step _ hguard hstep ih =>
    cases hstep
    exact .step ih hguard (facade_step _ _)

/-- A query adds one exchange, or none if the device is not available. -/
theorem query_cases (s : AkipFacade) (q : AkipQuery) (w : UsbWrite) (looks : List Nat) :
    ((s.query qt q w looks).1.usb.session = s.usb.session ∧
      (s.query qt q w looks).2 = q.read qt none) ∨
    s.isAvailable = true ∧ ∃ x,
      (s.query qt q w looks).1.usb.session.exchanges = s.usb.session.exchanges ++ [x] ∧
        AkipReturn.Faithful qt ⟨q, (s.query qt q w looks).2, some x⟩ := by
  unfold AkipFacade.query AkipFacade.ask
  split
  next havailable =>
    obtain ⟨errors, hasked, hanswer⟩ := UsbInterface.queryScpiCommand_of_isOpen
      (Bool.and_eq_true_iff.mp havailable).2 q.text w looks
    refine .inr ⟨havailable, ?_⟩
    dsimp only
    rw [hasked, hanswer, UsbSession.after_eq]
    cases hwaits : w.waits q.text with
    | true => exact ⟨_, rfl, rfl, rfl⟩
    | false =>
      refine ⟨⟨scpiLine q.text, w.reply, none⟩, rfl, rfl, ?_⟩
      cases hcomplete : w.complete q.text with
      | false => exact .inl rfl
      | true =>
        rw [UsbWrite.waits, hcomplete, Bool.true_and] at hwaits
        exact .inr ⟨hwaits, rfl⟩
  next => exact .inl ⟨rfl, rfl⟩

/-- All that was handed out since the identity has been returned. -/
def Told (qt : AkipText) (s : AkipCallers) : Prop :=
  s.facade.usb.session.exchanges.tail.filter (·.handed.isSome) =
      (s.returns.filterMap (·.exchange)).filter (·.handed.isSome) ∧
    ∀ r ∈ s.returns, r.Faithful qt

/-- One more exchange, after the first. -/
theorem tail_concat (h : Machine.Reach (machine qt) (fun _ _ => True) s)
    (havailable : s.facade.isAvailable = true) (x : Exchange) :
    (s.facade.usb.session.exchanges ++ [x]).tail = s.facade.usb.session.exchanges.tail ++ [x] := by
  obtain ⟨-, first, hfirst, -⟩ :=
    (AkipFacade.identified_first (reach_facade h)).1.mp havailable
  exact List.tail_append_of_ne_nil (by rintro hnil; rw [hnil] at hfirst; cases hfirst)

/-- The step lemma. -/
theorem Told.step (hreach : Machine.Reach (machine qt) (fun _ _ => True) s) (h : s.Told qt)
    (e : AkipEvent) : (s.step qt e).Told qt := by
  have hsame {s' : AkipCallers} (hsession : s'.facade.usb.session = s.facade.usb.session)
      (hreturns : s'.returns = s.returns) : s'.Told qt := by
    unfold Told
    rw [hsession, hreturns]
    exact h
  cases e with
  | openDevice opening w looks =>
    cases hopen : s.facade.usb.isOpen with
    | true =>
      refine hsame ?_ ?_
      · rw [facade_step]
        dsimp only [AkipFacade.step, AkipFacade.openDevice]
        rw [hopen, if_pos rfl]
      · cases opening with
        | failed error => rfl
        | opened left => exact if_pos hopen
    | false =>
      cases opening with
      | failed error =>
        refine hsame ?_ rfl
        rw [facade_step]
        dsimp only [AkipFacade.step, AkipFacade.openDevice]
        rw [hopen, if_neg Bool.false_ne_true]
        rfl
      | opened left =>
        obtain ⟨-, hsession, -⟩ := AkipFacade.openDevice_opened hopen left w looks
        obtain ⟨x, hx⟩ := UsbSession.exists_exchange { left, unread := left } "*IDN?" w looks
        unfold Told AkipCallers.step
        dsimp only [AkipFacade.step]
        rw [hopen, hsession, hx]
        exact ⟨rfl, fun r hr => absurd hr List.not_mem_nil⟩
  | closeDevice => exact hsame rfl rfl
  | set request w =>
    rcases @AkipFacade.step_cases qt s.facade (.set request w) with
      ⟨hsession, -⟩ | ⟨havailable, -, -, hpassed⟩ | ⟨left, w, looks, -, heq, -⟩
    · exact hsame hsession rfl
    · rcases hpassed with ⟨request', w', heq, hsent⟩ | ⟨q, w, looks, heq, -⟩
      · unfold Told AkipCallers.step
        dsimp only
        rw [hsent, UsbSession.deliver, tail_concat hreach havailable, List.filter_append]
        exact ⟨(List.append_nil _).trans h.1, h.2⟩
      · cases heq
    · cases heq
  | setAMState channel enable =>
    refine hsame ?_ rfl
    dsimp only [AkipCallers.step, AkipFacade.step, AkipFacade.setAMState]
    split <;> rfl
  | query q w looks =>
    unfold Told AkipCallers.step
    dsimp only [AkipFacade.step]
    rcases @query_cases qt s.facade q w looks with
      ⟨hsession, hanswer⟩ | ⟨havailable, x, hexchanges, hfaithful⟩
    · rw [hsession, hanswer, List.getElem?_eq_none (Nat.le_refl _), List.filterMap_append]
      refine ⟨h.1.trans (congrArg _ (List.append_nil _).symm), fun r hr => ?_⟩
      cases List.mem_append.mp hr with
      | inl hold => exact h.2 r hold
      | inr hnew =>
        cases List.mem_singleton.mp hnew
        rfl
    · rw [hexchanges, List.getElem?_concat_length, tail_concat hreach havailable,
        List.filter_append, List.filterMap_append, List.filter_append, h.1]
      refine ⟨rfl, fun r hr => ?_⟩
      cases List.mem_append.mp hr with
      | inl hold => exact h.2 r hold
      | inr hnew =>
        cases List.mem_singleton.mp hnew
        exact hfaithful

/-- **Answers are pieces of what the instrument says.** What the driver hands out, one piece after
the other, is what the instrument has said, and each piece ends with the buffer in which its first
line ends. All pieces since the identity are returned, in this order and each to its own query,
which reads its answer from it. -/
theorem returned_said (h : Machine.Reach (machine qt) (fun _ _ => True) s) :
    s.facade.usb.session.Conserved ∧
      (∀ x ∈ s.facade.usb.session.exchanges, ∀ piece ∈ x.handed, Cut piece) ∧
      s.facade.usb.session.exchanges.tail.filter (·.handed.isSome) =
        (s.returns.filterMap (·.exchange)).filter (·.handed.isSome) ∧
      ∀ r ∈ s.returns, r.Faithful qt := by
  obtain ⟨hconserved, hcut⟩ := AkipFacade.answers_conserved (reach_facade h)
  have htold : s.Told qt := by
    apply h.invariant'
    · rintro s rfl
      exact ⟨rfl, fun r hr => absurd hr List.not_mem_nil⟩
    · rintro s e _ hreach hs - rfl
      exact hs.step hreach e
  exact ⟨hconserved, hcut, htold⟩

end AkipCallers

/-! Which line is whose answer. -/

/-- A text and the end of its line. -/
def isLine (line : Bytes) : Bool :=
  line.getLast?.any isTerminator && !line.dropLast.any isTerminator

/-- The most that the looks take. -/
def mostTaken (looks : List Nat) : Nat := (looks.map fun taken => min taken 256).sum

theorem isLine_iff {line : Bytes} : isLine line = true ↔
    ∃ text t, line = text ++ [t] ∧ text.any isTerminator = false ∧ isTerminator t = true := by
  unfold isLine
  constructor
  · intro h
    obtain ⟨hlast, htext⟩ := Bool.and_eq_true_iff.mp h
    obtain ⟨t, ht, hend⟩ := (Option.any_eq_true _ _).mp hlast
    refine ⟨line.dropLast, t, ?_, by simpa using htext, hend⟩
    exact (List.dropLast_append_getLast? t ht).symm
  · rintro ⟨text, t, rfl, htext, hend⟩
    rw [List.getLast?_concat, List.dropLast_concat, Option.any_some, htext, hend]
    rfl

/-- A stream begins with one line at most. -/
theorem line_eq_of_prefix {line line' stream : Bytes} (hline : isLine line = true)
    (hline' : isLine line' = true) (h : line <+: stream) (h' : line' <+: stream) :
    line = line' := by
  wlog hle : line.length ≤ line'.length generalizing line line'
  · exact (this hline' hline h' h (Nat.le_of_not_le hle)).symm
  obtain ⟨more, rfl⟩ := List.prefix_of_prefix_length_le h h' hle
  obtain ⟨text, t, rfl, -, hend⟩ := isLine_iff.mp hline
  obtain ⟨text', t', heq, htext', -⟩ := isLine_iff.mp hline'
  cases List.eq_nil_or_concat' more with
  | inl hnil => rw [hnil, List.append_nil]
  | inr hconcat =>
    obtain ⟨more', u, rfl⟩ := hconcat
    rw [← List.append_assoc] at heq
    obtain ⟨hbody, -⟩ := List.append_inj' heq rfl
    have hmem : t ∈ text' := hbody ▸ by simp
    have hno : text'.any isTerminator = true := List.any_eq_true.mpr ⟨t, hmem, hend⟩
    rw [htext'] at hno
    cases hno

/-- The looks take nothing. -/
theorem waitForResponse_of_mostTaken_eq_zero {looks : List Nat} (hnone : mostTaken looks = 0)
    (unread response : Bytes) :
    waitForResponse unread response looks = (response, unread) := by
  induction looks with
  | nil => rfl
  | cons taken looks ih =>
    unfold mostTaken at hnone ih
    rw [List.map_cons, List.sum_cons] at hnone
    have hzero : min taken 256 = 0 := by omega
    unfold waitForResponse
    rw [hzero]
    exact ih (by omega)

/-- The looks take a line, in any number of parts. -/
theorem waitForResponse_line {looks : List Nat} {text response rest : Bytes} {t : UInt8}
    (hresponse : response.any isTerminator = false) (htext : text.any isTerminator = false)
    (hend : isTerminator t = true)
    (htaken : (text ++ t :: rest).take (mostTaken looks) = text ++ [t]) :
    waitForResponse (text ++ t :: rest) response looks = (response ++ (text ++ [t]), rest) := by
  induction looks generalizing text response with
  | nil =>
    have hlength := congrArg List.length htaken
    simp [mostTaken] at hlength
  | cons taken looks ih =>
    unfold mostTaken at htaken ih
    rw [List.map_cons, List.sum_cons] at htaken
    unfold waitForResponse
    generalize min taken 256 = n at htaken ⊢
    generalize (looks.map fun taken => min taken 256).sum = m at htaken ih
    dsimp only
    split
    next hnone =>
      have hzero : n = 0 := by
        cases n with
        | zero => rfl
        | succ n => simp at hnone
      rw [hzero, Nat.zero_add] at htaken
      exact ih hresponse htext htaken
    next =>
      by_cases hpart : n ≤ text.length
      · -- the end of the line is still to come
        have hbuffer : (text ++ t :: rest).take n = text.take n :=
          List.take_append_of_le_length hpart
        have hrest : (text ++ t :: rest).drop n = text.drop n ++ t :: rest :=
          List.drop_append_of_le_length hpart
        have hresponse' : (response ++ text.take n).any isTerminator = false := by
          rw [List.any_append, hresponse, Bool.false_or, List.any_eq_false]
          exact fun b hb => List.any_eq_false.mp htext b (List.mem_of_mem_take hb)
        have htext' : (text.drop n).any isTerminator = false :=
          List.any_eq_false.mpr fun b hb =>
            List.any_eq_false.mp htext b (List.mem_of_mem_drop hb)
        rw [hbuffer, hrest, hresponse', if_neg Bool.false_ne_true, ih hresponse' htext']
        · rw [List.append_assoc, ← List.append_assoc (text.take n), List.take_append_drop]
        · have hdrop := congrArg (List.drop n) htaken
          rw [List.drop_take, Nat.add_sub_cancel_left, hrest,
            List.drop_append_of_le_length hpart] at hdrop
          exact hdrop
      · have hlength := congrArg List.length htaken
        simp only [List.length_take, List.length_append, List.length_cons, List.length_nil]
          at hlength
        have hbuffer : (text ++ t :: rest).take n = text ++ [t] := by
          rw [← htaken, List.take_eq_take_iff]
          simp only [List.length_append, List.length_cons]
          omega
        have hrest : (text ++ t :: rest).drop n = rest := by
          have hsplit := List.take_append_drop n (text ++ t :: rest)
          rw [hbuffer, List.append_assoc] at hsplit
          exact (List.cons.inj (List.append_cancel_left hsplit)).2
        have hends : (response ++ (text ++ [t])).any isTerminator = true := by
          simp [hend]
        rw [hbuffer, hrest, if_pos hends]

namespace UsbSession

/-- What the instrument says to each query, and what this was handed. -/
def queries (s : UsbSession) : List (Bytes × Bytes) :=
  s.exchanges.filterMap fun x => x.handed.map fun handed => (x.reply, handed)

/-- The lines that nobody has read are the latest. -/
def Behind (s : UsbSession) : Prop :=
  ∃ lines : List Bytes, (∀ line ∈ lines, isLine line = true) ∧ s.unread = lines.flatten ∧
    (s.queries.filter fun x => x.2 ≠ []).map (·.2) ++ lines = s.queries.map (·.1)

end UsbSession

/-- To a query that waits the instrument says a line, and the looks take a whole line or nothing.
Otherwise it says nothing. -/
def UsbWrite.orderly (w : UsbWrite) (unread : Bytes) (command : String) (looks : List Nat) : Bool :=
  if w.waits command then
    isLine w.reply &&
      (mostTaken looks = 0 || isLine ((unread ++ w.reply).take (mostTaken looks)))
  else w.reply = []

namespace UsbSession

variable {s : UsbSession}

theorem Behind.deliver (h : s.Behind) (data : Bytes) : (s.deliver data []).Behind := by
  obtain ⟨lines, hlines, hunread, horder⟩ := h
  refine ⟨lines, hlines, ?_, ?_⟩
  · exact (List.append_nil _).trans hunread
  · have hqueries : (s.deliver data []).queries = s.queries := by
      unfold queries UsbSession.deliver
      rw [List.filterMap_append]
      exact List.append_nil _
    rw [hqueries]
    exact horder

/-- A query is handed the line that is due, or nothing. -/
theorem Behind.after (h : s.Behind) {command : String} {w : UsbWrite} {looks : List Nat}
    (horderly : w.orderly s.unread command looks = true) :
    (s.after command w looks).Behind := by
  unfold UsbWrite.orderly at horderly
  rw [after_eq]
  split
  next hwaits =>
    rw [if_pos hwaits] at horderly
    obtain ⟨hreply, htaken⟩ := Bool.and_eq_true_iff.mp horderly
    obtain ⟨lines, hlines, hunread, horder⟩ := h
    have hlines' : ∀ line ∈ lines ++ [w.reply], isLine line = true := by
      intro line hline
      cases List.mem_append.mp hline with
      | inl hold => exact hlines line hold
      | inr hnew => exact List.mem_singleton.mp hnew ▸ hreply
    have hunread' : s.unread ++ w.reply = (lines ++ [w.reply]).flatten := by
      rw [hunread, List.flatten_append, List.flatten_singleton]
    have horder' : (s.queries.filter fun x => x.2 ≠ []).map (·.2) ++ (lines ++ [w.reply]) =
        s.queries.map (·.1) ++ [w.reply] := by
      rw [← List.append_assoc, horder]
    have hqueries (unread piece : Bytes) : ({ s with
        unread
        exchanges := s.exchanges ++ [⟨scpiLine command, w.reply, some piece⟩] } :
        UsbSession).queries = s.queries ++ [(w.reply, piece)] := by
      unfold queries
      rw [List.filterMap_append]
      rfl
    cases Bool.or_eq_true_iff.mp htaken with
    | inl hnone =>
      rw [waitForResponse_of_mostTaken_eq_zero (of_decide_eq_true hnone)]
      refine ⟨lines ++ [w.reply], hlines', hunread', ?_⟩
      rw [hqueries, List.filter_append, List.map_append, List.map_append]
      exact (congrArg (· ++ _) (List.append_nil _)).trans horder'
    | inr hline =>
      cases hsplit : lines ++ [w.reply] with
      | nil => simp at hsplit
      | cons line lines' =>
        rw [hsplit] at hlines' hunread' horder'
        rw [hunread', List.flatten_cons] at hline ⊢
        have hfirst : isLine line = true := hlines' line List.mem_cons_self
        have heq := line_eq_of_prefix hline hfirst (List.take_prefix _ _)
          (List.prefix_append line lines'.flatten)
        obtain ⟨text, t, rfl, htext, hend⟩ := isLine_iff.mp hfirst
        rw [List.append_assoc, List.singleton_append] at heq ⊢
        rw [waitForResponse_line rfl htext hend heq, List.nil_append]
        refine ⟨lines', fun l hl => hlines' l (List.mem_cons_of_mem _ hl), rfl, ?_⟩
        rw [hqueries, List.filter_append, List.map_append]
        have hhanded : (([(w.reply, text ++ [t])] : List (Bytes × Bytes)).filter
            fun x => x.2 ≠ []).map (·.2) = [text ++ [t]] := by
          simp
        rw [hhanded, List.append_assoc, List.singleton_append, horder', List.map_append]
        rfl
  next hwaits =>
    rw [if_neg hwaits] at horderly
    rw [of_decide_eq_true horderly]
    exact h.deliver _

end UsbSession

/-- Where an entry stands among those that are kept. -/
theorem getElem?_filter_of_getElem? {α : Type*} {p : α → Bool} {l : List α} {i : Nat} {x : α}
    (hx : l[i]? = some x) (hp : p x = true) :
    (l.filter p)[i - (l.take i).countP fun y => !p y]? = some x := by
  induction l generalizing i with
  | nil => cases hx
  | cons a l ih =>
    cases i with
    | zero =>
      cases hx
      rw [List.filter_cons_of_pos hp]
      rfl
    | succ i =>
      have hle : (l.take i).countP (fun y => !p y) ≤ i :=
        List.countP_le_length.trans (List.length_take_le i l)
      rw [List.take_succ_cons, List.countP_cons]
      cases ha : p a with
      | true =>
        rw [List.filter_cons_of_pos ha, ← ih hx]
        simp only [Bool.not_true, Bool.false_eq_true, if_false, Nat.add_zero,
          Nat.sub_add_comm hle, List.getElem?_cons_succ]
      | false =>
        rw [List.filter_cons_of_neg (by rw [ha]; exact Bool.false_ne_true), ← ih hx]
        rw [Bool.not_false, if_pos rfl, Nat.add_sub_add_right]

namespace AkipFacade

variable {qt : AkipText} {s : AkipFacade}

/-- The instrument speaks when it is asked and the looks part its lines. -/
def Orderly (s : AkipFacade) : AkipEvent → Prop
  | .openDevice (.opened left) w looks =>
    s.usb.isOpen = false → left = [] ∧ w.orderly [] "*IDN?" looks = true
  | .set _ w => s.isAvailable = true → w.reply = []
  | .query q w looks => s.isAvailable = true → w.orderly s.usb.session.unread q.text looks = true
  | _ => True

instance (s : AkipFacade) : (e : AkipEvent) → Decidable (s.Orderly e)
  | .openDevice (.opened left) w looks =>
    inferInstanceAs (Decidable
      (s.usb.isOpen = false → left = [] ∧ w.orderly [] "*IDN?" looks = true))
  | .set _ w => inferInstanceAs (Decidable (s.isAvailable = true → w.reply = []))
  | .query q w looks =>
    inferInstanceAs (Decidable
      (s.isAvailable = true → w.orderly s.usb.session.unread q.text looks = true))
  | .openDevice (.failed _) _ _ | .closeDevice | .setAMState _ _ => .isTrue trivial

theorem behind (h : Machine.Reach (akip qt) Orderly s) :
    s.usb.session.Behind := by
  refine session_invariant ?_ ?_ ?_ ?_ h
  · exact ⟨[], fun _ hline => absurd hline List.not_mem_nil, rfl, rfl⟩
  · intro s request w hs horderly havailable
    rw [horderly havailable]
    exact hs.deliver _
  · exact fun s q w looks hs horderly havailable => hs.after (horderly havailable)
  · intro s left w looks horderly hclosed
    obtain ⟨rfl, hidn⟩ := horderly hclosed
    have hnew : ({ left := [], unread := [] } : UsbSession).Behind :=
      ⟨[], fun _ hline => absurd hline List.not_mem_nil, rfl, rfl⟩
    exact hnew.after hidn

/-- Conversions that know one text. -/
def oneText : AkipText where
  fixed _ _ := "1"
  toUpper text := text
  toDouble _ := none

/-- An opening, a frequency that is answered too late, and the state of the output. -/
def lateRun : List AkipEvent :=
  [.openDevice (.opened []) ⟨true, 6, [65, 10]⟩ [0, 2],
    .query (.frequency 1) ⟨true, 10, [53, 10]⟩ [0],
    .query (.output 1) ⟨true, 10, [79, 78, 10]⟩ [1, 1]]

/-- The query of the output is handed the frequency. -/
theorem exists_late : ∃ s, Machine.Reach (akip oneText) Orderly s ∧ s.isAvailable = true ∧
    s.usb.session.queries = [([65, 10], [65, 10]), ([53, 10], []), ([79, 78, 10], [53, 10])] := by
  have hrun : (Machine.run (fun s e => some (s.step oneText e)) Orderly {} lateRun).map
      (fun s => (s.isAvailable, s.usb.session.queries)) =
      some (true, [([65, 10], [65, 10]), ([53, 10], []), ([79, 78, 10], [53, 10])]) := by
    decide +kernel
  obtain ⟨s, hs, hqueries⟩ := Option.map_eq_some_iff.mp hrun
  refine ⟨s, ?_, congrArg Prod.fst hqueries, congrArg Prod.snd hqueries⟩
  exact Machine.Reach.of_run (fun s e => some (s.step oneText e))
    (fun _ _ _ hstep => (Option.some.inj hstep).symm) (.start rfl) _ hs

/-- **An answer is as late as queries before it have run out of time.** The line that a query is
handed is the instrument's word to the query so many places before it, until the device is opened
anew. -/
theorem answers_late (h : Machine.Reach (akip qt) Orderly s) {i : Nat}
    {x : Bytes × Bytes} (hx : s.usb.session.queries[i]? = some x) (hanswered : x.2 ≠ []) :
    (s.usb.session.queries[i - (s.usb.session.queries.take i).countP fun y => y.2 = []]?).map
      (·.1) = some x.2 := by
  obtain ⟨lines, -, -, horder⟩ := behind h
  have hplace := getElem?_filter_of_getElem? (p := fun y => y.2 ≠ []) hx (decide_eq_true hanswered)
  have hcount : (s.usb.session.queries.take i).countP (fun y => !decide (y.2 ≠ [])) =
      (s.usb.session.queries.take i).countP fun y => y.2 = [] := by
    simp
  rw [hcount] at hplace
  rw [← List.getElem?_map, ← horder, List.getElem?_append_left, List.getElem?_map, hplace]
  · rfl
  · rw [List.length_map]
    exact (List.getElem?_eq_some_iff.mp hplace).1

theorem answers_late_output : ∃ s, Machine.Reach (akip oneText) Orderly s ∧
    (s.usb.session.queries[2 -
      (s.usb.session.queries.take 2).countP fun y => y.2 = []]?).map (·.1) = some [53, 10] := by
  obtain ⟨s, hs, -, hqueries⟩ := exists_late
  have hquery : s.usb.session.queries[2]? = some ([79, 78, 10], [53, 10]) := by
    rw [hqueries]
    rfl
  exact ⟨s, hs, answers_late hs hquery (List.cons_ne_nil _ _)⟩

theorem identified_first_output : ∃ s : AkipFacade, s.isAvailable = true ∧
    s.usb.isOpen = true ∧ s.usb.session.Identified := by
  obtain ⟨s, hs, havailable, -⟩ := exists_late
  exact ⟨s, havailable,
    (identified_first (hs.mono fun _ _ _ => trivial)).1.mp havailable⟩

end AkipFacade

namespace AkipCallers

/-- The same queries, and a reset, which is answered `OK`. -/
theorem returned_said_output : ∃ s : AkipCallers,
    s.returns.map (·.answer) = [.number (.finite 0), .state false, .text [79, 75]] ∧
      s.facade.usb.session.Conserved ∧
      (∀ x ∈ s.facade.usb.session.exchanges, ∀ piece ∈ x.handed, Cut piece) ∧
      s.facade.usb.session.exchanges.tail.filter (·.handed.isSome) =
        (s.returns.filterMap (·.exchange)).filter (·.handed.isSome) ∧
      ∀ r ∈ s.returns, r.Faithful AkipFacade.oneText := by
  have hrun : (Machine.run (fun s e => some (s.step AkipFacade.oneText e)) (fun _ _ => True) {}
      (AkipFacade.lateRun ++ [.query (.command "*RST") ⟨true, 5, []⟩ []])).map
        (fun s : AkipCallers => s.returns.map (·.answer)) =
      some [.number (.finite 0), .state false, .text [79, 75]] := by
    decide +kernel
  obtain ⟨s, hs, hanswers⟩ := Option.map_eq_some_iff.mp hrun
  exact ⟨s, hanswers, returned_said (Machine.Reach.of_run
    (fun s e => some (s.step AkipFacade.oneText e))
    (fun _ _ _ hstep => (Option.some.inj hstep).symm) (.start rfl) _ hs)⟩

end AkipCallers

end PPB
