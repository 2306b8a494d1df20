import PPBProject.Answers

/- What a setter's success is worth.

   A `Session` stands beside the controller. It keeps the setter that was called, the lines
   that were sent to the instrument, and of each byte that came back which of these lines it
   answers. A success is evidence if the instrument has answered the query of that setter,
   sent after its set command, with a text that says what was set. -/
namespace PPB

/-! What each setter sets, asks and expects. -/

namespace Setter

def command (qt : Conversions) : Setter → String
  | setFrequency freqHz => s!":FREQuency:CW {argValue qt freqHz}Hz"
  | setAmplitude amplitude _ => s!":POWer:LEVEL {argValue qt amplitude}DBM"
  | setOutput enable => s!":OUTPut:STATE {argValue qt (if enable then 1 else 0)}"
  | setAMFrequency freqHz => s!":AM:INTernal:FREQuency {argValue qt freqHz}Hz"
  | setAMDepth percent => s!":AM:DEPTh {argValue qt percent}%"
  | setAMState enable => s!":AM:STATE {argValue qt (if enable then 1 else 0)}"

def query : Setter → String
  | setFrequency _ => ":FREQuency:CW?"
  | setAmplitude .. => ":POWer:LEVEL?"
  | setOutput _ => ":OUTPut:STATE?"
  | setAMFrequency _ => ":AM:INTernal:FREQuency?"
  | setAMDepth _ => ":AM:DEPTh?"
  | setAMState _ => ":AM:STATE?"

/-- Frequencies up to 1 Hz, powers and percentages up to 0.1. -/
def expected : Setter → Expected
  | setFrequency freqHz => .number freqHz 1
  | setAmplitude amplitude _ => .number amplitude (toDouble (1 / 10))
  | setOutput enable => .state enable
  | setAMFrequency freqHz => .number freqHz 1
  | setAMDepth percent => .number percent (toDouble (1 / 10))
  | setAMState enable => .state enable

end Setter

/-! Sessions. -/

/-- What the setter that was called last is, the lines that have been sent, and the bytes that have
come. `setLine` is the number of the line that was its set command, and from `asked` on they are its
query. -/
structure Session where
  controller : GrattenController
  setter : Option Setter := none
  lines : List String := []
  heard : List Heard := []
  setLine : Nat := 0
  asked : Nat := 0

/-- The controller goes on, or the instrument answers a line; of what else arrives nobody knows what
it answers. -/
inductive SessionEvent where
  | controller (e : GrattenEvent)
  | replied (line : Nat) (bytes : Bytes)

namespace GrattenController

/-- The set command is put on the wire. -/
def wrote? (g : GrattenController) (written : Int) : Option String :=
  g.call.bind fun call =>
    if g.isTransportAvailable ∧ (g.lan.sendScpiCommand call.cmd written).2 then some call.cmd
    else none

/-- The query of a value that has no answer yet. -/
def awaiting (g : GrattenController) : Option ScpiQuery :=
  if (g.call.any fun call => call.stage = .querying) ∧ g.lan.answer? = none then g.lan.query
  else none

/-- What a setter learns of its query. -/
def reply? (g : GrattenController) (e : GrattenEvent) :
    Option (Expected × Option (List Received)) :=
  g.call.bind fun call =>
    match call.stage, e with
    | .settling, .asked => if g.isTransportAvailable then none else some (call.expected, none)
    | .querying, .answered => g.lan.answer?.map fun response => (call.expected, some response)
    | _, _ => none

end GrattenController

namespace Session

/-- The controller has taken a step; bytes that came answer `line`. -/
def note (s : Session) (line : Option Nat) (g : GrattenController) : GrattenEvent → Session
  | .lan (.arrived bytes) => { s with controller := g, heard := s.heard ++ bytes.map (·, line) }
  | .lan e => { s with controller := g, lines := s.lines ++ (s.controller.lan.wrote? e).toList }
  | .called setter => { s with controller := g, setter := some setter }
  | .sent written =>
    { s with
      controller := g
      lines := s.lines ++ (s.controller.wrote? written).toList
      setLine := s.lines.length }
  | .asked => { s with controller := g, asked := s.lines.length }
  | _ => { s with controller := g }

/-- A line is answered after it was sent. -/
def step (qt : Conversions) (s : Session) : SessionEvent → Option Session
  | .controller e => (s.controller.step qt e).map fun g => s.note none g e
  | .replied line bytes =>
    if line < s.lines.length then
      (s.controller.step qt (.lan (.arrived bytes))).map fun g =>
        s.note (some line) g (.lan (.arrived bytes))
    else none

/-- The controller, its interface and the instrument. -/
def machine (qt : Conversions) : Machine.System Session SessionEvent where
  start s := ∃ available, s = { controller := { available } }
  step s e s' := s.step qt e = some s'

/-- What the setters take for evidence is evidence. While the query of a value runs, what comes
answers it, in whole lines, and what is compared is telling. -/
def Evidenced (qt : Conversions) (s : Session) : SessionEvent → Prop
  | .controller (.lan e) => s.controller.awaiting ≠ none → s.controller.lan.Undisturbed e
  | .controller e => ∀ x ∈ s.controller.reply? e, x.1.Telling qt x.2
  | .replied line _ => ∀ q ∈ s.controller.awaiting, s.asked ≤ line ∧
    ∀ last ∈ (s.heard.drop (q.firstSend.getD s.heard.length)).getLast?,
      last.2 = some line ∨ last.1 = 10

instance (qt : Conversions) (s : Session) : (e : SessionEvent) → Decidable (s.Evidenced qt e)
  | .controller (.lan e) =>
    inferInstanceAs (Decidable (s.controller.awaiting ≠ none → s.controller.lan.Undisturbed e))
  | .controller (.opened available) =>
    inferInstanceAs (Decidable (∀ x ∈ s.controller.reply? (.opened available), x.1.Telling qt x.2))
  | .controller (.called setter) =>
    inferInstanceAs (Decidable (∀ x ∈ s.controller.reply? (.called setter), x.1.Telling qt x.2))
  | .controller (.sent written) =>
    inferInstanceAs (Decidable (∀ x ∈ s.controller.reply? (.sent written), x.1.Telling qt x.2))
  | .controller .asked =>
    inferInstanceAs (Decidable (∀ x ∈ s.controller.reply? .asked, x.1.Telling qt x.2))
  | .controller .answered =>
    inferInstanceAs (Decidable (∀ x ∈ s.controller.reply? .answered, x.1.Telling qt x.2))
  | .controller .returned =>
    inferInstanceAs (Decidable (∀ x ∈ s.controller.reply? .returned, x.1.Telling qt x.2))
  | .replied line _ =>
    inferInstanceAs (Decidable (∀ q ∈ s.controller.awaiting, s.asked ≤ line ∧
      ∀ last ∈ (s.heard.drop (q.firstSend.getD s.heard.length)).getLast?,
        last.2 = some line ∨ last.1 = 10))

/-- The instrument has answered the query, sent after the set command, with a text that says what is
expected. -/
def Confirmed (qt : Conversions) (s : Session) (cmd queryCmd : String) (expected : Expected) :
    Prop :=
  ∃ line text, s.setLine < line ∧ s.lines[s.setLine]? = some cmd ∧ s.lines[line]? = some queryCmd ∧
    Says s.heard line text ∧ expected.Told qt text

/-- What the query of a value has sent. -/
structure Asking (lines : List String) (asked : Nat) (queryCmd : String) (q : ScpiQuery) :
    Prop where
  command : q.command = queryCmd
  le : asked ≤ lines.length
  sent : ∀ line ∈ lines.drop asked, line = queryCmd
  unsent : q.firstSend = none → lines.length = asked

/-- What holds of a setter at a stage. -/
def AtStage (qt : Conversions) (s : Session) (call : SetterCall) : SetterStage → Prop
  | .setting => s.controller.lan.query = none
  | .settling => s.controller.lan.query = none ∧ s.lines[s.setLine]? = some call.cmd
  | .querying => s.lines[s.setLine]? = some call.cmd ∧ s.setLine < s.asked ∧
    (∃ q ∈ s.controller.lan.query, Asking s.lines s.asked call.queryCmd q) ∧
    s.controller.lan.Answers s.heard s.asked
  | .inquiring _ => True
  | .finished result => result = true → s.Confirmed qt call.cmd call.queryCmd call.expected

/-- The call does what its setter is for. -/
def Serves (qt : Conversions) (s : Session) (call : SetterCall) : Prop :=
  ∃ setter ∈ s.setter, call.cmd = setter.command qt ∧ call.queryCmd = setter.query ∧
    call.expected = setter.expected

/-- Every byte is kept, and none answers a line before it was sent. -/
structure Kept (s : Session) : Prop where
  length : s.heard.length = s.controller.lan.received
  sent : ∀ x ∈ s.heard, ∀ line ∈ x.2, line < s.lines.length

structure Sound (qt : Conversions) (s : Session) : Prop where
  kept : s.Kept
  call : ∀ call ∈ s.controller.call, call.stage = .finished false ∨
    s.Serves qt call ∧ s.AtStage qt call call.stage

variable {qt : Conversions} {s : Session} {g : GrattenController} {call : SetterCall}

/-- The controller has gone on, without anything on the wire. -/
def become (s : Session) (g : GrattenController) : Session := { s with controller := g }

theorem sound_setCall (hkept : s.Kept) (hserves : s.Serves qt call)
    (hstage : s.AtStage qt call call.stage) : (s.become (s.controller.setCall call)).Sound qt := by
  refine ⟨⟨hkept.length, hkept.sent⟩, fun call' hcall' => ?_⟩
  cases hcall'
  exact .inr ⟨hserves, hstage⟩

theorem sound_finish_false (hkept : s.Kept) (call : SetterCall) :
    (s.become (s.controller.finish call false)).Sound qt := by
  refine ⟨⟨hkept.length, hkept.sent⟩, fun call' hcall' => ?_⟩
  cases hcall'
  exact .inl rfl

theorem sound_nextAttempt (hkept : s.Kept) (hserves : s.Serves qt call)
    (hidle : s.controller.lan.query = none) :
    (s.become (s.controller.nextAttempt call)).Sound qt := by
  unfold GrattenController.nextAttempt
  split
  next => exact sound_setCall hkept hserves hidle
  next => exact sound_finish_false hkept _

theorem sound_sendFailed (hkept : s.Kept) (hserves : s.Serves qt call)
    (hidle : s.controller.lan.query = none) :
    (s.become (s.controller.sendFailed call)).Sound qt := by
  unfold GrattenController.sendFailed
  split
  next => exact sound_nextAttempt hkept hserves hidle
  next =>
    exact sound_finish_false (s := s.become (s.controller.emitError _)) ⟨hkept.length, hkept.sent⟩ _

theorem Kept.append (hkept : s.Kept) (new : List String) :
    ({ s with lines := s.lines ++ new } : Session).Kept := by
  refine ⟨hkept.length, fun x hx line hline => ?_⟩
  rw [List.length_append]
  exact Nat.lt_add_right _ (hkept.sent x hx line hline)

theorem sound_sendSet (hkept : s.Kept) (hserves : s.Serves qt call)
    (hidle : s.controller.lan.query = none) (hcall : s.controller.call = some call)
    (written : Int) :
    (s.note none (s.controller.sendSet call written) (.sent written)).Sound qt := by
  obtain ⟨errors, hsent⟩ := s.controller.lan.sendScpiCommand_eq call.cmd written
  have hfailed (g : GrattenController) (hlan : ∃ errors, g.lan = { s.controller.lan with errors })
      (new : List String) : ({ s with controller := g.sendFailed call, lines := s.lines ++ new
                                      setLine := s.lines.length } : Session).Sound qt := by
    obtain ⟨errors, hlan⟩ := hlan
    have hkept' := hkept.append new
    refine sound_sendFailed (s := { s with controller := g, lines := s.lines ++ new
                                           setLine := s.lines.length }) ⟨?_, hkept'.sent⟩ hserves ?_
    · rw [hlan]
      exact hkept.length
    · rw [hlan]
      exact hidle
  unfold note GrattenController.wrote? GrattenController.sendSet
  dsimp only
  rw [hcall, Option.bind_some]
  split
  next hgone => exact hfailed (s.controller.emitError _) ⟨_, rfl⟩ _
  next havailable =>
    split
    next hok =>
      rw [if_pos ⟨by simpa using havailable, hok⟩, hsent]
      have hkept' := hkept.append [call.cmd]
      refine sound_setCall (s := { s with controller := _, lines := _, setLine := _ })
        ⟨hkept'.length, hkept'.sent⟩ hserves ⟨hidle, ?_⟩
      exact List.getElem?_concat_length
    next => exact hfailed { s.controller with lan := _ } ⟨errors, hsent⟩ _

/-- An acceptance needs evidence. -/
theorem sound_verify (hkept : s.Kept) (hserves : s.Serves qt call)
    (hidle : s.controller.lan.query = none) {reply : Option (List Received)}
    (hconfirmed : call.expected.accepts (call.expected.read qt reply) →
      s.Confirmed qt call.cmd call.queryCmd call.expected) :
    (s.become (s.controller.verify qt call reply)).Sound qt := by
  unfold GrattenController.verify
  dsimp only
  split
  next haccepted => exact sound_setCall hkept hserves fun _ => hconfirmed haccepted
  next =>
    split
    next =>
      exact sound_setCall (s := { s with controller := _ }) ⟨hkept.length, hkept.sent⟩ hserves
        trivial
    next =>
      exact sound_nextAttempt (s := { s with controller := _ }) ⟨hkept.length, hkept.sent⟩ hserves
        hidle

theorem sound_ask (hkept : s.Kept) (hserves : s.Serves qt call)
    (hidle : s.controller.lan.query = none) (hset : s.lines[s.setLine]? = some call.cmd)
    (htelling : s.controller.isTransportAvailable = false → call.expected.Telling qt none) :
    (s.note none (s.controller.ask qt call) .asked).Sound qt := by
  unfold note GrattenController.ask
  dsimp only
  split
  next hgone =>
    refine sound_verify (s := { s with controller := s.controller.emitError _
                                       asked := s.lines.length })
      ⟨hkept.length, hkept.sent⟩ hserves hidle fun haccepted => ?_
    obtain ⟨response, hresponse, -⟩ :=
      (Expected.told_iff qt call.expected none).mpr (htelling (by simpa using hgone)) haccepted
    cases hresponse
  next =>
    obtain ⟨hlt, -⟩ := List.getElem?_eq_some_iff.mp hset
    refine sound_setCall (s := { s with controller := _, asked := _ }) ⟨hkept.length, hkept.sent⟩
      hserves ⟨hset, hlt, ⟨_, rfl, rfl, le_refl _, ?_, fun _ => rfl⟩, ?_⟩
    · intro line hline
      rw [List.drop_length] at hline
      cases hline
    · intro q hq
      cases hq
      exact ⟨rfl, rfl⟩

/-- A line that the instrument has answered has been sent. -/
theorem Kept.lt_of_answered (hkept : s.Kept) {line : Nat} {text : Bytes}
    (h : Says s.heard line text) : line < s.lines.length := by
  obtain ⟨before, e, after, hanswer, -⟩ := h
  have hmem : e ∈ answerTo s.heard line := by
    rw [hanswer]
    exact List.mem_append_right _ List.mem_cons_self
  obtain ⟨x, hx, -⟩ := List.mem_map.mp hmem
  obtain ⟨hheard, hline⟩ := List.mem_filter.mp hx
  exact hkept.sent x hheard line (of_decide_eq_true hline)

/-- What answers the query of a value confirms it. -/
theorem confirmed_of_told (hkept : s.Kept) (hstage : s.AtStage qt call .querying)
    {response : List Received} (hanswer : s.controller.lan.answer? = some response)
    (htold : call.expected.Told qt (bytesOf response)) :
    s.Confirmed qt call.cmd call.queryCmd call.expected := by
  obtain ⟨hset, hlt, ⟨q, hq, hasking⟩, hanswers⟩ := hstage
  obtain ⟨q', hquery, hanswered⟩ := LanInterface.exists_query_of_answer? hanswer
  have hresponse : s.controller.lan.AnswersAt q' s.heard s.asked q'.stage := hanswers q' hquery
  rw [hanswered] at hresponse
  rcases hresponse with rfl | ⟨line, hle, hsays⟩
  · exact absurd htold (call.expected.not_told_nil qt)
  · have hsent := hkept.lt_of_answered hsays
    refine ⟨line, _, hlt.trans_le hle, hset, ?_, hsays, htold⟩
    have hmem : s.lines[line] ∈ s.lines.drop s.asked := by
      rw [List.mem_iff_getElem]
      refine ⟨line - s.asked, by simp; omega, ?_⟩
      simp [Nat.add_sub_cancel' hle]
    rw [List.getElem?_eq_getElem hsent, hasking.sent _ hmem]

theorem sound_takeAnswer (h : s.Sound qt) (hcall : s.controller.call = some call)
    {response : List Received} (hanswer : s.controller.lan.answer? = some response)
    (htelling : call.stage = .querying → call.expected.Telling qt (some response))
    (hstep : s.controller.takeAnswer qt call response = some g) : (s.become g).Sound qt := by
  unfold GrattenController.takeAnswer at hstep
  dsimp only at hstep
  obtain hfailed | ⟨hserves, hstage⟩ := h.call call hcall
  · rw [hfailed] at hstep
    cases hstep
  · split at hstep
    next hquerying =>
      cases hstep
      rw [hquerying] at hstage
      refine sound_verify
        (s := s.become { s.controller with lan := { s.controller.lan with query := none } })
        ⟨h.kept.length, h.kept.sent⟩ hserves rfl fun haccepted => ?_
      obtain ⟨response', hresponse', htold⟩ :=
        (Expected.told_iff qt call.expected (some response)).mpr (htelling hquerying) haccepted
      cases hresponse'
      exact confirmed_of_told (s := s) h.kept hstage hanswer htold
    next =>
      cases hstep
      exact sound_nextAttempt (s := { s with controller := _ }) ⟨h.kept.length, h.kept.sent⟩ hserves
        rfl
    next => cases hstep

/-- A setter goes on. -/
theorem Sound.resume (h : s.Sound qt) (hcall : s.controller.call = some call) {e : GrattenEvent}
    (htelling : ∀ x ∈ s.controller.reply? e, x.1.Telling qt x.2)
    (hstep : s.controller.resume qt call call.stage e = some g) : (s.note none g e).Sound qt := by
  have hat := h.call call hcall
  generalize hnow : call.stage = stage at hat hstep
  unfold GrattenController.resume at hstep
  split at hstep
  next written =>
    cases hstep
    obtain hfailed | ⟨hserves, hidle⟩ := hat
    · cases hfailed
    · exact sound_sendSet h.kept hserves hidle hcall written
  next =>
    cases hstep
    obtain hfailed | ⟨hserves, hidle, hset⟩ := hat
    · cases hfailed
    · refine sound_ask h.kept hserves hidle hset fun hgone => ?_
      apply htelling (call.expected, none)
      simp [GrattenController.reply?, hcall, hnow, hgone]
  next =>
    cases hstep
    exact ⟨⟨h.kept.length, h.kept.sent⟩, fun call' hcall' => by cases hcall'⟩
  next =>
    obtain ⟨response, hanswer, htaken⟩ := Option.bind_eq_some_iff.mp hstep
    refine sound_takeAnswer h hcall hanswer (fun hquerying => ?_) htaken
    apply htelling (call.expected, some response)
    simp [GrattenController.reply?, hcall, hquerying, hanswer]
  next => cases hstep

/-! Starts. -/

theorem sound_refuse (hkept : s.Kept) (text : String) :
    (s.become (s.controller.refuse text)).Sound qt := by
  refine ⟨⟨hkept.length, hkept.sent⟩, fun call hcall => ?_⟩
  cases hcall
  exact .inl rfl

theorem sound_ensured (hkept : s.Kept) {body : GrattenController}
    (hbody : (s.become body).Sound qt) : (s.become (s.controller.ensured body)).Sound qt := by
  unfold GrattenController.ensured
  split
  next => exact hbody
  next => exact sound_refuse hkept _

theorem sound_setNumber (hkept : s.Kept) (hidle : s.controller.lan.query = none)
    {key queryCmd : String} {value tolerance : ℚ}
    (hserves : s.Serves qt { cmd := buildSetCommand qt key value, queryCmd
                             expected := .number value tolerance }) :
    (s.become (s.controller.setNumber qt key queryCmd value tolerance)).Sound qt := by
  unfold GrattenController.setNumber
  split
  next => exact sound_refuse hkept _
  next => exact sound_setCall hkept hserves hidle

theorem sound_setState (hkept : s.Kept) (hidle : s.controller.lan.query = none)
    {key queryCmd : String} {value : Bool}
    (hserves : s.Serves qt { cmd := buildSetCommand qt key (if value then 1 else 0), queryCmd
                             expected := .state value }) :
    (s.become (s.controller.setState qt key queryCmd value)).Sound qt :=
  sound_setCall hkept hserves hidle

theorem sound_callSetter (hkept : s.Kept) (hidle : s.controller.lan.query = none)
    (setter : Setter) (hsetter : s.setter = some setter) :
    (s.become (s.controller.callSetter qt setter)).Sound qt := by
  cases setter with
  | setFrequency freqHz =>
    exact sound_ensured hkept (sound_setNumber hkept hidle ⟨_, hsetter, rfl, rfl, rfl⟩)
  | setAmplitude amplitude unit =>
    apply sound_ensured hkept
    split
    next => exact sound_refuse hkept _
    next => exact sound_setNumber hkept hidle ⟨_, hsetter, rfl, rfl, rfl⟩
  | setOutput enable =>
    exact sound_ensured hkept (sound_setState hkept hidle ⟨_, hsetter, rfl, rfl, rfl⟩)
  | setAMFrequency freqHz =>
    exact sound_ensured hkept (sound_setNumber hkept hidle ⟨_, hsetter, rfl, rfl, rfl⟩)
  | setAMDepth percent =>
    exact sound_ensured hkept (sound_setNumber hkept hidle ⟨_, hsetter, rfl, rfl, rfl⟩)
  | setAMState enable =>
    exact sound_ensured hkept (sound_setState hkept hidle ⟨_, hsetter, rfl, rfl, rfl⟩)

theorem Sound.start (h : s.Sound qt) (hnone : s.controller.call = none)
    (hidle : s.controller.lan.query = none) {e : GrattenEvent}
    (hstep : s.controller.start qt e = some g) : (s.note none g e).Sound qt := by
  unfold GrattenController.start at hstep
  split at hstep
  next =>
    cases hstep
    refine ⟨⟨h.kept.length, h.kept.sent⟩, fun call hcall => ?_⟩
    rw [show s.controller.call = some call from hcall] at hnone
    cases hnone
  next setter =>
    cases hstep
    exact sound_callSetter (s := { s with setter := some setter }) ⟨h.kept.length, h.kept.sent⟩
      hidle setter rfl
  next => cases hstep

/-! The interface goes on. -/

/-- A line that was sent stays the line of that number. -/
theorem line_kept {lines lines' : List String} (h : lines <+: lines') {i : Nat} {line : String}
    (hline : lines[i]? = some line) : lines'[i]? = some line := by
  obtain ⟨more, rfl⟩ := h
  rw [List.getElem?_append_left (List.getElem?_eq_some_iff.mp hline).1, hline]

theorem Confirmed.mono {cmd queryCmd : String} {expected : Expected} {s' : Session}
    (h : s.Confirmed qt cmd queryCmd expected) (hset : s'.setLine = s.setLine)
    (hlines : s.lines <+: s'.lines) (hheard : s.heard <+: s'.heard) :
    s'.Confirmed qt cmd queryCmd expected := by
  obtain ⟨line, text, hlt, hcmd, hquery, hsays, htold⟩ := h
  obtain ⟨more, hmore⟩ := hheard
  refine ⟨line, text, hset ▸ hlt, ?_, ?_, hmore ▸ hsays.append more, htold⟩
  · rw [hset]
    exact line_kept hlines hcmd
  · exact line_kept hlines hquery

theorem awaiting_eq_some (hcall : s.controller.call = some call) (hstage : call.stage = .querying)
    {q : ScpiQuery} (hquery : s.controller.lan.query = some q)
    (hopen : ∀ response, q.stage ≠ .answered response) : s.controller.awaiting = some q := by
  have hanswer : s.controller.lan.answer? = none := by
    refine Option.eq_none_iff_forall_ne_some.mpr fun response hanswer => ?_
    obtain ⟨q', hquery', hstage'⟩ := LanInterface.exists_query_of_answer? hanswer
    rw [hquery] at hquery'
    cases hquery'
    exact hopen response hstage'
  simp [GrattenController.awaiting, hcall, hstage, hanswer, hquery]

/-- Bytes come in. -/
theorem Sound.arrive (h : s.Sound qt) {bytes : Bytes} {line : Option Nat}
    (hsent : ∀ n ∈ line, n < s.lines.length)
    (hawaited : ∀ q ∈ s.controller.awaiting, ∃ n ∈ line, s.asked ≤ n ∧
      ∀ last ∈ (s.heard.drop (q.firstSend.getD s.heard.length)).getLast?,
        last.2 = some n ∨ last.1 = 10) (available : Bool) :
    (s.note line { s.controller with lan := s.controller.lan.arrive bytes, available }
      (.lan (.arrived bytes))).Sound qt := by
  refine ⟨⟨?_, fun x hx n hn => ?_⟩, fun call hcall => ?_⟩
  · change (s.heard ++ bytes.map _).length = s.controller.lan.received + bytes.length
    rw [List.length_append, List.length_map, h.kept.length]
  · cases List.mem_append.mp hx with
    | inl hold => exact h.kept.sent x hold n hn
    | inr hnew =>
      obtain ⟨byte, -, rfl⟩ := List.mem_map.mp hnew
      exact hsent n hn
  · change s.controller.call = some call at hcall
    refine (h.call call hcall).imp_right (And.imp_right fun hat => ?_)
    generalize hnow : call.stage = stage at hat
    cases stage with
    | setting => exact hat
    | settling => exact hat
    | querying =>
      obtain ⟨hset, hlt, ⟨q, hquery, hasking⟩, hanswers⟩ := hat
      refine ⟨hset, hlt, ⟨q, hquery, hasking⟩, fun q' hq' => ?_⟩
      obtain rfl := Option.some.inj (hquery.symm.trans hq')
      have hat : s.controller.lan.AnswersAt q s.heard s.asked q.stage := hanswers q hquery
      by_cases hopen : ∀ response, q.stage ≠ .answered response
      · obtain ⟨n, rfl, hle, hframed⟩ := hawaited q (awaiting_eq_some hcall hnow hquery hopen)
        have hsend : q.firstSend ≠ none := fun hnone =>
          absurd (hsent n rfl) (not_lt.mpr (hasking.unsent hnone ▸ hle))
        refine hat.arrive hopen hsend hle (fun m hm => ?_) bytes
        rw [Option.mem_def.mp hm] at hframed
        exact hframed
      · obtain ⟨response, hanswered⟩ := not_forall_not.mp hopen
        rw [hanswered] at hat ⊢
        exact hat.imp_right fun ⟨n, hle, hsays⟩ => ⟨n, hle, hsays.append _⟩
    | inquiring actual => exact trivial
    | finished result =>
      intro hresult
      exact (hat hresult).mono rfl (List.prefix_refl _) (List.prefix_append _ _)

/-- The interface goes on. -/
theorem Sound.lanStep (h : s.Sound qt) {e : LanEvent} (harrived : ∀ bytes, e ≠ .arrived bytes)
    (hevidenced : s.Evidenced qt (.controller (.lan e))) (hmay : s.controller.lanMay e)
    {lan : LanInterface} (hstep : s.controller.lan.step e = some lan) (available : Bool) :
    ({ s with
        controller := { s.controller with lan, available }
        lines := s.lines ++ (s.controller.lan.wrote? e).toList } : Session).Sound qt := by
  refine ⟨⟨?_, (h.kept.append _).sent⟩, fun call hcall => ?_⟩
  · exact h.kept.length.trans (LanInterface.received_step hstep harrived).symm
  · change s.controller.call = some call at hcall
    have hgoing : e ≠ .returned ∧ s.controller.lan.query ≠ none := by
      cases e <;> simp_all [GrattenController.lanMay, Option.isSome_iff_ne_none]
    refine (h.call call hcall).imp_right (And.imp_right fun hat => ?_)
    generalize hnow : call.stage = stage at hat
    cases stage with
    | setting => exact absurd hat hgoing.2
    | settling => exact absurd hat.1 hgoing.2
    | querying =>
      obtain ⟨hset, hlt, ⟨q, hquery, hasking⟩, hanswers⟩ := hat
      have hstep' : s.controller.lan.stepQuery q q.stage e = some lan := by
        unfold LanInterface.step at hstep
        split at hstep
        next bytes => exact absurd rfl (harrived bytes)
        next => rwa [Option.mem_def.mp hquery] at hstep
      obtain ⟨-, hwrote, q', hquery', hcommand, hunsent⟩ :=
        LanInterface.continued_stepQuery hquery hgoing.1 hstep'
      have hawaiting : s.controller.awaiting ≠ none := by
        rw [awaiting_eq_some hcall hnow hquery (LanInterface.stage_ne_answered hgoing.1 hstep')]
        exact Option.some_ne_none _
      refine ⟨line_kept (List.prefix_append _ _) hset, hlt, ⟨q', hquery', ?_⟩, ?_⟩
      · refine ⟨hcommand.trans hasking.command, ?_, fun line hline => ?_, fun hnone => ?_⟩
        · rw [List.length_append]
          exact hasking.le.trans (Nat.le_add_right _ _)
        · rw [List.drop_append_of_le_length hasking.le] at hline
          cases List.mem_append.mp hline with
          | inl hold => exact hasking.sent line hold
          | inr hnew =>
            rcases hwrote with hnone | hsome
            · rw [hnone] at hnew
              cases hnew
            · rw [hsome] at hnew
              rw [List.mem_singleton.mp hnew]
              exact hasking.command
        · obtain ⟨hnone, hsilent⟩ := hunsent hnone
          rw [hsilent]
          exact hasking.unsent hnone ▸ congrArg _ (List.append_nil _)
      · refine LanInterface.Answers.stepQuery hanswers hquery h.kept.length
          (fun hnone x hx n hn => ?_) ?_ ?_ hstep'
        · rw [← hasking.unsent hnone]
          exact h.kept.sent x hx n hn
        · rintro rfl
          exact hevidenced hawaiting
        · rintro rfl
          exact hevidenced hawaiting
    | inquiring actual => exact trivial
    | finished result =>
      intro hresult
      exact (hat hresult).mono rfl (List.prefix_append _ _) (List.prefix_refl _)

theorem Sound.controllerStep (h : s.Sound qt) {e : GrattenEvent}
    (hevidenced : s.Evidenced qt (.controller e)) (hstep : s.controller.step qt e = some g) :
    (s.note none g e).Sound qt := by
  cases e with
  | lan e =>
    unfold GrattenController.step at hstep
    dsimp only at hstep
    split at hstep
    next hmay =>
      obtain ⟨lan, hlan, rfl⟩ := Option.map_eq_some_iff.mp hstep
      cases e with
      | arrived bytes =>
        unfold LanInterface.step at hlan
        dsimp only at hlan
        split at hlan
        next => cases hlan
        next =>
          cases hlan
          refine h.arrive (by simp) (fun q hq => ?_) _
          exact absurd (hevidenced (Option.ne_none_iff_exists'.mpr ⟨q, hq⟩)) id
      | _ => exact h.lanStep (by simp) hevidenced hmay hlan _
    next => cases hstep
  | _ =>
    unfold GrattenController.step at hstep
    dsimp only at hstep
    split at hstep
    next call hcall => exact h.resume hcall hevidenced hstep
    next hnone =>
      split at hstep
      next hidle => exact h.start hnone (Option.isNone_iff_eq_none.mp hidle) hstep
      next => cases hstep

/-- The step lemma. -/
theorem Sound.step (h : s.Sound qt) {e : SessionEvent} {s' : Session}
    (hevidenced : s.Evidenced qt e) (hstep : s.step qt e = some s') : s'.Sound qt := by
  cases e with
  | controller e =>
    obtain ⟨g, hg, rfl⟩ := Option.map_eq_some_iff.mp hstep
    exact h.controllerStep hevidenced hg
  | replied line bytes =>
    unfold Session.step at hstep
    dsimp only at hstep
    split at hstep
    next hlt =>
      obtain ⟨g, hg, rfl⟩ := Option.map_eq_some_iff.mp hstep
      unfold GrattenController.step at hg
      dsimp only at hg
      split at hg
      next =>
        obtain ⟨lan, hlan, rfl⟩ := Option.map_eq_some_iff.mp hg
        unfold LanInterface.step at hlan
        dsimp only at hlan
        split at hlan
        next => cases hlan
        next =>
          cases hlan
          exact h.arrive (fun n hn => Option.some.inj hn ▸ hlt)
            (fun q hq => ⟨line, rfl, hevidenced q hq⟩) _
      next => cases hg
    next => cases hstep

/-- A setter that succeeds has the instrument's word for it: after the set command its query was
sent, and the instrument has answered that with a text that says what was set. -/
theorem finished_verified (h : Machine.Reach (machine qt) (Evidenced qt) s)
    (hcall : s.controller.call = some call) (hfinished : call.stage = .finished true) :
    ∃ setter, s.setter = some setter ∧
      s.Confirmed qt (setter.command qt) setter.query setter.expected := by
  have hsound : s.Sound qt := by
    apply h.invariant
    · rintro s ⟨available, rfl⟩
      exact ⟨⟨rfl, by simp⟩, by simp⟩
    · exact fun s e s' hs hevidenced hstep => hs.step hevidenced hstep
  rcases hsound.call call hcall with hfailed | ⟨⟨setter, hsetter, hcmd, hquery, hexpected⟩, hstage⟩
  · rw [hfinished] at hfailed
    cases hfailed
  · refine ⟨setter, hsetter, ?_⟩
    rw [hfinished] at hstage
    rw [← hcmd, ← hquery, ← hexpected]
    exact hstage rfl

/-- A frequency of 30 Hz for the modulation, which the instrument confirms. -/
theorem finished_verified_frequency :
    ∃ s : Session, ∃ setter, s.setter = some setter ∧
      s.Confirmed .wholeNumbers (setter.command .wholeNumbers) setter.query setter.expected ∧
      s.lines = [":AM:INTernal:FREQuency 30Hz", ":AM:INTernal:FREQuency?"] := by
  have hrun : (Machine.run (step .wholeNumbers) (Evidenced .wholeNumbers) { controller := {} }
      [.controller (.lan .connected), .controller (.called (.setAMFrequency 30)),
        .controller (.sent 28), .controller .asked, .controller (.lan .bytesAvailable),
        .controller (.lan (.sent 24)), .controller (.lan .responded), .replied 1 [51, 48, 10],
        .controller (.lan .readyRead), .controller (.lan .polled), .controller .answered]).map
          (fun s => (s.controller.call.map (·.stage), s.lines)) =
      some (some (.finished true), [":AM:INTernal:FREQuency 30Hz", ":AM:INTernal:FREQuency?"]) := by
    decide +kernel
  obtain ⟨s, hs, hend⟩ := Option.map_eq_some_iff.mp hrun
  obtain ⟨hstage, hlines⟩ := Prod.mk.inj hend
  obtain ⟨call, hcall, hfinished⟩ := Option.map_eq_some_iff.mp hstage
  obtain ⟨setter, hsetter, hconfirmed⟩ := finished_verified
    (Machine.Reach.of_run (step .wholeNumbers) (fun _ _ _ h => h) (.start ⟨false, rfl⟩) _ hs) hcall
    hfinished
  exact ⟨s, setter, hsetter, hconfirmed, hlines⟩

/-- An amplitude of 0 dBm: the instrument says nothing at all, and the setter succeeds. -/
theorem not_finished_verified :
    ∃ (s : Session) (call : SetterCall),
      Machine.Reach (machine .wholeNumbers) (fun _ _ => True) s ∧
      s.setter = some (.setAmplitude 0 "DBM") ∧ s.controller.call = some call ∧
      call.stage = .finished true ∧ s.heard = [] ∧
      ¬∃ setter, s.setter = some setter ∧
        s.Confirmed .wholeNumbers (setter.command .wholeNumbers) setter.query setter.expected := by
  have hrun : (Machine.run (step .wholeNumbers) (fun _ _ => True) { controller := {} }
      [.controller (.lan .connected), .controller (.called (.setAmplitude 0 "DBM")),
        .controller (.sent 18), .controller .asked, .controller (.lan .bytesAvailable),
        .controller (.lan (.sent 14)), .controller (.lan .responded), .controller (.lan .elapsed),
        .controller (.lan (.sent 14)), .controller (.lan .responded), .controller (.lan .elapsed),
        .controller .answered]).map
          (fun s => (s.controller.call.map (·.stage), s.heard, s.setter)) =
      some (some (.finished true), [], some (.setAmplitude 0 "DBM")) := by
    decide +kernel
  obtain ⟨s, hs, hend⟩ := Option.map_eq_some_iff.mp hrun
  obtain ⟨hstage, hrest⟩ := Prod.mk.inj hend
  obtain ⟨hheard, hsetter⟩ := Prod.mk.inj hrest
  obtain ⟨call, hcall, hfinished⟩ := Option.map_eq_some_iff.mp hstage
  refine ⟨s, call, Machine.Reach.of_run (step .wholeNumbers) (fun _ _ _ h => h)
    (.start ⟨false, rfl⟩) _ hs, hsetter, hcall, hfinished, hheard, ?_⟩
  rintro ⟨setter, -, line, text, -, -, -, ⟨before, e, after, hanswer, -⟩, -⟩
  rw [hheard] at hanswer
  cases before <;> cases hanswer

end Session

end PPB
