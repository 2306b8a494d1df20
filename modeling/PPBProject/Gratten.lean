import Mathlib.Data.List.Infix
import PPBProject.FloatingPoint
import PPBProject.Lan

/- The setters of the signal generator that verify what they have set: the command is sent, the
   value is queried, and the two are compared, twice at most.

   A setter blocks its thread. Its queries are those of `LanInterface`, which runs inside, so
   that replies may come, fail to come, or come late at any moment.

   Correspondence (C++ ↔ Lean):
     the call of a setter                   ↔ `SetterCall`
     `verifySetCommand`, up to a wait       ↔ `sendSet`, `ask`, `verify`, `report`
     `queryFrequency`, … , `queryAMState`   ↔ `Expected.read`
     `openDevice`, `closeDevice`            ↔ the events of the interface, and `opened`
     conversions of numbers from and to text ↔ `Conversions`
   Values are finite; the caches and the relayed errors of the interface are left out. -/
namespace PPB

/-- A `double` that has been read: infinities and the other values that are no number are one. -/
inductive Double where
  | finite (q : ℚ)
  | nonfinite
  deriving DecidableEq

/-- Qt's conversions: `arg` of a `double`, also with four decimals, and `QString::toDouble`, for which
an empty text is no number. -/
structure Conversions where
  arg : Double → String
  argFixed : ℚ → String
  toDouble : Bytes → Option Double
  toDouble_nil : toDouble [] = none

/-- Conversions that know whole numbers only. -/
def Conversions.wholeNumbers : Conversions where
  arg d :=
    match d with
    | .finite q => toString ⌊q⌋
    | .nonfinite => "nan"
  argFixed q := toString ⌊q⌋ ++ ".0000"
  toDouble text :=
    if text = [] ∨ text.all (fun byte => 48 ≤ byte ∧ byte ≤ 57) = false then none
    else some (.finite (text.foldl (fun n byte => n * 10 + (byte.toNat - 48)) 0 : ℕ))
  toDouble_nil := rfl

/-! The commands. -/

/-- `setPattern` takes the text for `%1`. -/
structure CommandDef where
  key : String
  setPattern : String → String
  minVal : ℚ
  maxVal : ℚ
  isBoolean : Bool

def grattenCommands : List CommandDef :=
  [⟨"FREQ", fun x => s!":FREQuency:CW {x}Hz", 250000, 4000000000, false⟩,
    ⟨"AMPL", fun x => s!":POWer:LEVEL {x}DBM", -136, 13, false⟩,
    ⟨"OUTP", fun x => s!":OUTPut:STATE {x}", 0, 1, true⟩,
    ⟨"AMFREQ", fun x => s!":AM:INTernal:FREQuency {x}Hz", 20, 20000, false⟩,
    ⟨"AMDEPTH", fun x => s!":AM:DEPTh {x}%", 0, 100, false⟩,
    ⟨"AMSTATE", fun x => s!":AM:STATE {x}", 0, 1, true⟩]

def commandDef? (key : String) : Option CommandDef :=
  grattenCommands.find? fun command => command.key = key

/-- The error, if there is one. -/
def checkRange (qt : Conversions) (key : String) (val : ℚ) : Option String :=
  match commandDef? key with
  | none => some s!"Unknown command key: {key}"
  | some command =>
    if command.isBoolean then none
    else if val < command.minVal ∨ command.maxVal < val then
      let value := qt.arg (.finite val)
      let low := qt.arg (.finite command.minVal)
      let high := qt.arg (.finite command.maxVal)
      some s!"Value {value} out of range [{low}, {high}] for command {key}"
    else none

/-- `int(val)`, towards zero. -/
def truncate (val : ℚ) : ℤ := if val < 0 then ⌈val⌉ else ⌊val⌋

/-- A whole number, up to 1e-9, without decimals; `int` has 32 bits. -/
def argValue (qt : Conversions) (val : ℚ) : String :=
  let whole := truncate val
  if -2 ^ 31 ≤ whole ∧ whole < 2 ^ 31 ∧ |val - whole| < toDouble (1 / 10 ^ 9) then toString whole
  else qt.argFixed val

def buildSetCommand (qt : Conversions) (key : String) (val : ℚ) : String :=
  match commandDef? key with
  | none => ""
  | some command => command.setPattern (argValue qt val)

/-! What a setter expects, and what it reads. -/

inductive Expected where
  | number (value tolerance : ℚ)
  | state (value : Bool)
  deriving DecidableEq

inductive Reading where
  | number (d : Double)
  | state (b : Bool)
  deriving DecidableEq

/-- `qAbs(actual - expectedValue) <= tolerance`. -/
def within (actual : Double) (value tolerance : ℚ) : Bool :=
  match actual with
  | .finite q => |toDouble (q - value)| ≤ tolerance
  | .nonfinite => false

def bytesOf (response : List Received) : Bytes := response.map (·.byte)

theorem bytesOf_append (bytes bytes' : List Received) :
    bytesOf (bytes ++ bytes') = bytesOf bytes ++ bytesOf bytes' := List.map_append

theorem bytesOf_numbered (serial : Nat) (bytes : Bytes) :
    bytesOf (LanInterface.numbered serial bytes) = bytes := by
  induction bytes generalizing serial with
  | nil => rfl
  | cons byte bytes ih =>
    rw [LanInterface.numbered, bytesOf, List.map_cons]
    exact congrArg (byte :: ·) (ih (serial + 1))

/-- `QByteArray::trimmed`. -/
def trimmedBytes (line : Bytes) : Bytes :=
  (line.dropWhile LanInterface.isSpace).rdropWhile LanInterface.isSpace

theorem bytesOf_trimmed (line : List Received) :
    bytesOf (LanInterface.trimmed line) = trimmedBytes (bytesOf line) := by
  simp only [bytesOf, LanInterface.trimmed, trimmedBytes, List.rdropWhile, List.dropWhile_map,
    ← List.map_reverse]
  rfl

def toUpper (byte : UInt8) : UInt8 := if 97 ≤ byte ∧ byte ≤ 122 then byte - 32 else byte

/-- `resp.contains("ON", Qt::CaseInsensitive) || resp.contains("1")`. -/
def containsOn (text : Bytes) : Bool :=
  decide ([79, 78] <:+: text.map toUpper) || text.contains 49

/-- The texts for a state: ON and 1, OFF and 0. -/
def parseState (text : Bytes) : Option Bool :=
  if text.map toUpper = [79, 78] ∨ text = [49] then some true
  else if text.map toUpper = [79, 70, 70] ∨ text = [48] then some false
  else none

namespace Expected

/-- The query functions: without an answer, or without a number in it, the value is 0.0. -/
def read (qt : Conversions) : Expected → Option (List Received) → Reading
  | .number _ _, none => .number (.finite 0)
  | .number _ _, some response => .number ((qt.toDouble (bytesOf response)).getD (.finite 0))
  | .state _, none => .state false
  | .state _, some response => .state (containsOn (bytesOf response))

/-- The comparison of `verifySetCommand`. -/
def accepts : Expected → Reading → Bool
  | .number value tolerance, .number actual => within actual value tolerance
  | .state value, .state actual => actual = value
  | _, _ => false

end Expected

/-! The controller. -/

/-- Where a setter stands. -/
inductive SetterStage where
  | setting
  | settling
  | querying
  | inquiring (actual : Reading)
  | finished (result : Bool)
  deriving DecidableEq

/-- `reply` is what the query of the last attempt was answered. -/
structure SetterCall where
  cmd : String
  queryCmd : String
  expected : Expected
  attempt : Nat := 0
  stage : SetterStage := .setting
  reply : Option (List Received) := none
  deriving DecidableEq

/-- The setters that verify what they have set. -/
inductive Setter where
  | setFrequency (freqHz : ℚ)
  | setAmplitude (amplitude : ℚ) (unit : String)
  | setOutput (enable : Bool)
  | setAMFrequency (freqHz : ℚ)
  | setAMDepth (percent : ℚ)
  | setAMState (enable : Bool)
  deriving DecidableEq

structure GrattenController where
  lan : LanInterface := {}
  available : Bool := false
  call : Option SetterCall := none
  errors : List String := []

inductive GrattenEvent where
  | lan (e : LanEvent)
  | opened (available : Bool)
  | called (setter : Setter)
  | sent (written : Int)
  | asked
  | answered
  | returned

def maxRetries : Nat := 2

/-- `QString::fromLatin1`. -/
def fromLatin1 (response : List Received) : String :=
  String.ofList (response.map fun r => Char.ofNat r.byte.toNat)

/-- What the query that is over was answered. -/
def LanInterface.answer? (s : LanInterface) : Option (List Received) :=
  s.query.bind fun q =>
    match q.stage with
    | .answered response => some response
    | _ => none

namespace GrattenController

variable (qt : Conversions)

def emitError (g : GrattenController) (text : String) : GrattenController :=
  { g with errors := g.errors ++ [text] }

def isTransportAvailable (g : GrattenController) : Bool := g.lan.isConnected

def isAvailable (g : GrattenController) : Bool := g.available && g.lan.isConnected

def setCall (g : GrattenController) (call : SetterCall) : GrattenController :=
  { g with call := some call }

/-! `verifySetCommand`. -/

def finish (g : GrattenController) (call : SetterCall) (result : Bool) : GrattenController :=
  g.setCall { call with stage := .finished result }

def nextAttempt (g : GrattenController) (call : SetterCall) : GrattenController :=
  if call.attempt + 1 < maxRetries then
    g.setCall { call with attempt := call.attempt + 1, stage := .setting }
  else g.finish call false

/-- Sending fails. -/
def sendFailed (g : GrattenController) (call : SetterCall) : GrattenController :=
  if call.attempt + 1 < maxRetries then g.nextAttempt call
  else (g.emitError "Failed to send command after retries").finish call false

/-- The set command. -/
def sendSet (g : GrattenController) (call : SetterCall) (written : Int) : GrattenController :=
  if !g.isTransportAvailable then (g.emitError "Device not available").sendFailed call
  else
    let sent := g.lan.sendScpiCommand call.cmd written
    if sent.2 then
      { g with lan := sent.1 }.setCall
        { call with stage := .settling, reply := none }
    else { g with lan := sent.1 }.sendFailed call

def argReading : Reading → String
  | .number d => qt.arg d
  | .state b => if b then "1" else "0"

def argExpected : Expected → String
  | .number value _ => qt.arg (.finite value)
  | .state value => if value then "1" else "0"

/-- The mismatch is reported, with what the instrument says of it. -/
def report (g : GrattenController) (call : SetterCall) (actual : Reading) (sysErr : String) :
    GrattenController :=
  let expected := argExpected qt call.expected
  let got := argReading qt actual
  (g.emitError
    s!"Verification failed: expected {expected}, got {got}. System error: {sysErr}").nextAttempt
      call

/-- The comparison; if it fails, `querySystemError` begins. -/
def verify (g : GrattenController) (call : SetterCall) (reply : Option (List Received)) :
    GrattenController :=
  let call := { call with reply }
  let actual := call.expected.read qt reply
  if call.expected.accepts actual then g.finish call true
  else if g.isAvailable then
    { g with lan := g.lan.queryScpiCommand ":SYSTem:ERRor?" 0 }.setCall
      { call with stage := .inquiring actual }
  else g.report qt call actual ""

/-- The query of the value begins, unless the connection is gone. -/
def ask (g : GrattenController) (call : SetterCall) : GrattenController :=
  if !g.isTransportAvailable then (g.emitError "Device not available").verify qt call none
  else
    { g with lan := g.lan.queryScpiCommand call.queryCmd 1 }.setCall
      { call with stage := .querying }

/-- An answer of the interface is taken. -/
def takeAnswer (g : GrattenController) (call : SetterCall) (response : List Received) :
    Option GrattenController :=
  let g := { g with lan := { g.lan with query := none } }
  match call.stage with
  | .querying => some (g.verify qt call (some response))
  | .inquiring actual =>
    some (g.report qt call actual (if response = [] then "0" else fromLatin1 response))
  | _ => none

/-! The setters. -/

/-- A call that is over at once. -/
def refuse (g : GrattenController) (text : String) : GrattenController :=
  (g.emitError text).setCall
    { cmd := "", queryCmd := "", expected := .state false, stage := .finished false }

/-- `ensureAvailable`. -/
def ensured (g : GrattenController) (body : GrattenController) : GrattenController :=
  if g.isTransportAvailable then body else g.refuse "Device not available"

def setNumber (g : GrattenController) (key queryCmd : String) (value tolerance : ℚ) :
    GrattenController :=
  match checkRange qt key value with
  | some text => g.refuse text
  | none =>
    g.setCall { cmd := buildSetCommand qt key value, queryCmd, expected := .number value tolerance }

def setState (g : GrattenController) (key queryCmd : String) (value : Bool) : GrattenController :=
  g.setCall { cmd := buildSetCommand qt key (if value then 1 else 0), queryCmd,
              expected := .state value }

def setFrequency (g : GrattenController) (freqHz : ℚ) : GrattenController :=
  g.ensured (g.setNumber qt "FREQ" ":FREQuency:CW?" freqHz 1)

def setOutput (g : GrattenController) (enable : Bool) : GrattenController :=
  g.ensured (g.setState qt "OUTP" ":OUTPut:STATE?" enable)

def setAmplitude (g : GrattenController) (amplitude : ℚ) (unit : String) : GrattenController :=
  g.ensured (if unit.toList.map Char.toUpper ≠ "DBM".toList then
      g.refuse "Only dBm unit supported for RF amplitude on Gratten"
    else g.setNumber qt "AMPL" ":POWer:LEVEL?" amplitude (toDouble (1 / 10)))

def setAMFrequency (g : GrattenController) (freqHz : ℚ) : GrattenController :=
  g.ensured (g.setNumber qt "AMFREQ" ":AM:INTernal:FREQuency?" freqHz 1)

def setAMDepth (g : GrattenController) (percent : ℚ) : GrattenController :=
  g.ensured (g.setNumber qt "AMDEPTH" ":AM:DEPTh?" percent (toDouble (1 / 10)))

def setAMState (g : GrattenController) (enable : Bool) : GrattenController :=
  g.ensured (g.setState qt "AMSTATE" ":AM:STATE?" enable)

/-- A setter is called. -/
def callSetter (g : GrattenController) : Setter → GrattenController
  | .setFrequency freqHz => g.setFrequency qt freqHz
  | .setAmplitude amplitude unit => g.setAmplitude qt amplitude unit
  | .setOutput enable => g.setOutput qt enable
  | .setAMFrequency freqHz => g.setAMFrequency qt freqHz
  | .setAMDepth percent => g.setAMDepth qt percent
  | .setAMState enable => g.setAMState qt enable

/-! Steps. -/

/-- The slot `onDisconnected`. -/
def availableAfter (g : GrattenController) (e : LanEvent) : Bool :=
  if e = .disconnected ∨ e = .disconnect then false else g.available

/-- A setter that runs lets the interface go on with its query, and bytes arrive. -/
def lanMay (g : GrattenController) : LanEvent → Bool
  | .arrived _ => true
  | .returned => g.call.isNone
  | _ => g.call.isNone || g.lan.query.isSome

/-- No setter is running. -/
def start (g : GrattenController) : GrattenEvent → Option GrattenController
  | .opened available => some { g with available }
  | .called setter => some (g.callSetter qt setter)
  | _ => none

/-- A setter goes on. -/
def resume (g : GrattenController) (call : SetterCall) : SetterStage → GrattenEvent →
    Option GrattenController
  | .setting, .sent written => some (g.sendSet call written)
  | .settling, .asked => some (g.ask qt call)
  | .finished _, .returned => some { g with call := none }
  | _, .answered => g.lan.answer?.bind (g.takeAnswer qt call)
  | _, _ => none

def step (g : GrattenController) (e : GrattenEvent) : Option GrattenController :=
  match e with
  | .lan e =>
    if g.lanMay e then (g.lan.step e).map fun lan => { g with lan, available := g.availableAfter e }
    else none
  | e =>
    match g.call with
    | some call => g.resume qt call call.stage e
    | none => if g.lan.query.isNone then g.start qt e else none

end GrattenController

/-! What a reply says. -/

namespace Expected

variable (qt : Conversions)

/-- The text says what is expected. -/
def Told : Expected → Bytes → Prop
  | .number value tolerance, text => ∃ d, qt.toDouble text = some d ∧ within d value tolerance
  | .state value, text => parseState text = some value

/-- The answer is one that says something, or else the value that stands for its absence is not
the one expected. -/
def Telling : Expected → Option (List Received) → Prop
  | .number value tolerance, reply =>
    (∃ response ∈ reply, (qt.toDouble (bytesOf response)).isSome) ∨
      within (.finite 0) value tolerance = false
  | .state value, reply =>
    (∃ response ∈ reply, (parseState (bytesOf response)).isSome) ∨
      (reply.elim false fun response => containsOn (bytesOf response)) ≠ value

instance : (expected : Expected) → (reply : Option (List Received)) →
    Decidable (expected.Telling qt reply)
  | .number value tolerance, reply =>
    inferInstanceAs (Decidable ((∃ response ∈ reply, (qt.toDouble (bytesOf response)).isSome) ∨
      within (.finite 0) value tolerance = false))
  | .state value, reply =>
    inferInstanceAs (Decidable ((∃ response ∈ reply, (parseState (bytesOf response)).isSome) ∨
      (reply.elim false fun response => containsOn (bytesOf response)) ≠ value))

theorem containsOn_of_parseState {text : Bytes} {value : Bool} (h : parseState text = some value) :
    containsOn text = value := by
  unfold parseState at h
  split at h
  next hon =>
    cases h
    unfold containsOn
    cases hon with
    | inl hword => simp [hword]
    | inr hdigit => simp [hdigit]
  next =>
    split at h
    next hoff =>
      cases h
      cases hoff with
      | inl hword =>
        have hdigit : ¬(49 : UInt8) ∈ text := by
          intro hmem
          have hupper := List.mem_map_of_mem (f := toUpper) hmem
          rw [hword] at hupper
          exact absurd hupper (by decide)
        have hinfix : ¬([79, 78] : Bytes) <:+: [79, 70, 70] := by decide
        simp [containsOn, hword, hinfix, hdigit]
      | inr hdigit =>
        rw [hdigit]
        decide
    next => cases h

theorem number_told_iff (value tolerance : ℚ) (response : List Received) :
    ((number value tolerance).accepts ((number value tolerance).read qt (some response)) →
        (number value tolerance).Told qt (bytesOf response)) ↔
      (number value tolerance).Telling qt (some response) := by
  cases hparsed : qt.toDouble (bytesOf response) <;>
    simp [accepts, read, Told, Telling, hparsed]

theorem state_told_iff (value : Bool) (response : List Received) :
    ((state value).accepts ((state value).read qt (some response)) →
        (state value).Told qt (bytesOf response)) ↔
      (state value).Telling qt (some response) := by
  cases hparsed : parseState (bytesOf response) with
  | none => simp [accepts, read, Told, Telling, hparsed]
  | some told =>
    have hread := containsOn_of_parseState hparsed
    simp [accepts, read, Told, Telling, hparsed, hread]

/-- Where replies are telling, and nowhere else, what is accepted has been told. -/
theorem told_iff (expected : Expected) (reply : Option (List Received)) :
    (expected.accepts (expected.read qt reply) →
        ∃ response ∈ reply, expected.Told qt (bytesOf response)) ↔
      expected.Telling qt reply := by
  cases reply with
  | none => cases expected <;> simp [accepts, read, Telling]
  | some response =>
    cases expected with
    | number value tolerance => simpa using number_told_iff qt value tolerance response
    | state value => simpa using state_told_iff qt value response

/-- Nothing is told by an empty text. -/
theorem not_told_nil (expected : Expected) : ¬ expected.Told qt [] := by
  cases expected with
  | number value tolerance =>
    rintro ⟨d, hd, -⟩
    rw [qt.toDouble_nil] at hd
    cases hd
  | state value =>
    intro htold
    cases htold

/-- The setters of frequencies have no such value: 0 is out of their range and not close to it. -/
theorem telling_of_frequency {freqHz : ℚ} (hrange : 20 ≤ freqHz)
    (reply : Option (List Received)) : (number freqHz 1).Telling qt reply := by
  have herror := abs_le.mp (abs_roundBinary_sub_le 53 (0 - freqHz))
  have habs : |0 - freqHz| = freqHz := by
    rw [zero_sub, abs_neg, abs_of_nonneg (by linarith)]
  have hfar : ¬|toDouble (0 - freqHz)| ≤ 1 := by
    intro hle
    have hclose := abs_le.mp hle
    change -(|0 - freqHz| / 2 ^ 53) ≤ toDouble (0 - freqHz) - (0 - freqHz) ∧
      toDouble (0 - freqHz) - (0 - freqHz) ≤ |0 - freqHz| / 2 ^ 53 at herror
    rw [habs] at herror
    linarith
  right
  exact decide_eq_false hfar

end Expected

end PPB
