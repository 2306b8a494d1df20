import Mathlib.Data.List.Chain
import PPBProject.Gratten

/- What the instrument says, and what of it a query of `LanInterface` is answered.

   Of each byte that comes it is kept which of the lines that were sent it answers: only the
   instrument knows, the code does not see it. `Pieces` is the invariant of a query that is
   not disturbed: what is buffered is the end of what has come since it was first sent, and
   before it are blanks only. So its answer is what the instrument has answered to it. -/
namespace PPB

/-! What the instrument says. -/

/-- A byte, and the number of the line it answers, if it answers one. -/
abbrev Heard : Type := UInt8 × Option Nat

/-- What the instrument has answered to a line. -/
def answerTo (heard : List Heard) (line : Nat) : Bytes :=
  (heard.filter fun x => x.2 = some line).map Prod.fst

/-- The answer to the line begins with this text, up to blanks. -/
def Says (heard : List Heard) (line : Nat) (text : Bytes) : Prop :=
  ∃ before e after, answerTo heard line = before ++ e :: after ∧ (e = 10 ∨ e = 13) ∧
    trimmedBytes before = text

/-- A new answer begins only where a line feed has ended the one before. -/
def Framed (x y : Heard) : Prop := x.2 = y.2 ∨ x.1 = 10

instance (x y : Heard) : Decidable (Framed x y) := inferInstanceAs (Decidable (_ ∨ _))

section
variable {heard heard' : List Heard} {line : Nat} {text : Bytes}

theorem answerTo_append (heard heard' : List Heard) (line : Nat) :
    answerTo (heard ++ heard') line = answerTo heard line ++ answerTo heard' line := by
  rw [answerTo, List.filter_append, List.map_append]
  rfl

theorem Says.append (h : Says heard line text) (heard' : List Heard) :
    Says (heard ++ heard') line text := by
  obtain ⟨before, e, after, hanswer, he, htext⟩ := h
  refine ⟨before, e, after ++ answerTo heard' line, ?_, he, htext⟩
  rw [answerTo_append, hanswer, List.append_assoc, List.cons_append]

theorem answerTo_eq_nil (h : ∀ x ∈ heard, x.2 ≠ some line) : answerTo heard line = [] := by
  rw [answerTo, List.filter_eq_nil_iff.mpr (by simpa using h), List.map_nil]

theorem answerTo_eq_map (h : ∀ x ∈ heard, x.2 = some line) :
    answerTo heard line = heard.map Prod.fst := by
  rw [answerTo, List.filter_eq_self.mpr (by simpa using h)]

theorem trimmedBytes_append {blank : Bytes} (h : ∀ byte ∈ blank, LanInterface.isSpace byte = true)
    (text : Bytes) :
    trimmedBytes (blank ++ text) = trimmedBytes text := by
  rw [trimmedBytes, List.dropWhile_append_of_pos h]
  rfl

/-- Within a line all bytes answer the same. -/
theorem eq_of_framed {x : Heard} (h : (heard ++ [x]).IsChain Framed)
    (hline : ∀ y ∈ heard, y.1 ≠ 10) : ∀ y ∈ heard ++ [x], y.2 = x.2 := by
  induction heard with
  | nil => simp
  | cons y rest ih =>
    rw [List.cons_append, List.isChain_cons] at h
    have hrest := ih h.2 fun z hz => hline z (List.mem_cons_of_mem _ hz)
    intro z hz
    cases List.mem_cons.mp hz with
    | inl heq =>
      have hne : (rest ++ [x]) ≠ [] := by simp
      have hfirst := h.1 ((rest ++ [x]).head hne) (List.head_mem_head? hne)
      rw [heq, hfirst.resolve_right (hline y List.mem_cons_self)]
      exact hrest _ (List.head_mem hne)
    | inr hmem => exact hrest z hmem

end

/-! What is buffered while the query of a value runs. -/

namespace LanInterface

def buffered (s : LanInterface) : List Received := s.readBuffer ++ s.socket

/-- These bytes are the end of what has come since the query was first sent, after `n` bytes:
blanks are before them, and all of it answers the query, which was sent from line `asked` on. -/
structure Pieces (buffered : List Received) (heard : List Heard) (asked n : Nat) : Prop where
  le : n ≤ heard.length
  before : ∀ x ∈ heard.take n, ∀ line ∈ x.2, line < asked
  answers : ∀ x ∈ heard.drop n, ∃ line ∈ x.2, asked ≤ line
  framed : (heard.drop n).IsChain Framed
  bytes : ∃ blank rest, heard.drop n = blank ++ rest ∧ (∀ x ∈ blank, isSpace x.1 = true) ∧
    rest.map Prod.fst = bytesOf buffered

/-- What holds of the query of a value at a stage. -/
def AnswersAt (s : LanInterface) (q : ScpiQuery) (heard : List Heard) (asked : Nat) :
    LanStage → Prop
  | .checking => s.readBuffer = [] ∧ q.firstSend = none
  | .reading => False
  | .sending =>
    (q.firstSend = none ∧ s.readBuffer = [] ∧ s.socket = []) ∨
      ∃ n ∈ q.firstSend, Pieces s.buffered heard asked n
  | .responding | .polling => ∃ n ∈ q.firstSend, Pieces s.buffered heard asked n
  | .answered response =>
    response = [] ∨ ∃ line, asked ≤ line ∧ Says heard line (bytesOf response)

section
variable {s s' : LanInterface} {q : ScpiQuery} {heard : List Heard} {asked n : Nat} {e : LanEvent}

/-- No line feed comes before the end of the line that is taken. -/
theorem lineEnd?_eq_some {buffer : List Received} {idx : Nat} (h : lineEnd? buffer = some idx) :
    ∃ line x rest, buffer = line ++ x :: rest ∧ buffer.take idx = line ∧
      buffer.drop (idx + 1) = rest ∧ (x.byte = 10 ∨ x.byte = 13) ∧ ∀ r ∈ line, r.byte ≠ 10 := by
  have hsplit {i : Nat} (hi : i < buffer.length) :
      buffer = buffer.take i ++ buffer[i] :: buffer.drop (i + 1) := by
    rw [← List.drop_eq_getElem_cons hi, List.take_append_drop]
  unfold lineEnd? at h
  cases hfeed : buffer.findIdx? fun r => r.byte = 10 with
  | some i =>
    rw [hfeed] at h
    obtain rfl := Option.some.inj h
    obtain ⟨hi, hbyte, hbefore⟩ := List.findIdx?_eq_some_iff_getElem.mp hfeed
    refine ⟨_, buffer[i], _, hsplit hi, rfl, rfl, .inl (of_decide_eq_true hbyte), fun r hr => ?_⟩
    obtain ⟨j, hj, rfl⟩ := List.mem_take_iff_getElem.mp hr
    simpa using hbefore j (by omega)
  | none =>
    rw [hfeed, Option.none_or] at h
    obtain ⟨hi, hbyte, -⟩ := List.findIdx?_eq_some_iff_getElem.mp h
    refine ⟨_, buffer[idx], _, hsplit hi, rfl, rfl, .inr (of_decide_eq_true hbyte), fun r hr => ?_⟩
    simpa using List.findIdx?_eq_none_iff.mp hfeed r (List.mem_of_mem_take hr)

theorem isSpace_of_trimmed_eq_nil {line : List Received} (h : trimmed line = []) :
    ∀ r ∈ line, isSpace r.byte = true := by
  have hall := List.rdropWhile_eq_nil_iff.mp h
  have hnil : line.dropWhile (fun r => isSpace r.byte) = [] := by
    by_contra hne
    have hhead := List.head_dropWhile_not (fun r : Received => isSpace r.byte) hne
    rw [hall _ (List.head_mem hne)] at hhead
    cases hhead
  exact List.dropWhile_eq_nil_iff.mp hnil

/-- A line of the buffer is blank, or a line of one answer. -/
theorem Pieces.line {line rest : List Received} {x : Received}
    (h : Pieces (line ++ x :: rest) heard asked n) (hx : x.byte = 10 ∨ x.byte = 13)
    (hline : ∀ r ∈ line, r.byte ≠ 10) :
    (trimmed line = [] → Pieces rest heard asked n) ∧
      ∃ answered, asked ≤ answered ∧ Says heard answered (bytesOf (trimmed line)) := by
  obtain ⟨blank, pieces, hdrop, hblank, hbytes⟩ := h.bytes
  rw [bytesOf, List.map_append, List.map_cons] at hbytes
  -- the same line among the pieces
  obtain ⟨taken, left, rfl, htaken, hleft⟩ := List.map_eq_append_iff.mp hbytes
  obtain ⟨e, left, rfl, he, hleft⟩ := List.map_eq_cons_iff.mp hleft
  constructor
  · intro htrimmed
    have hspaces := isSpace_of_trimmed_eq_nil htrimmed
    refine ⟨h.le, h.before, h.answers, h.framed, blank ++ (taken ++ [e]), left, ?_, ?_, hleft⟩
    · rw [hdrop]
      simp
    · intro y hy
      rcases List.mem_append.mp hy with hmem | hmem
      · exact hblank y hmem
      · rcases List.mem_append.mp hmem with hmem | hmem
        · have hbyte : y.1 ∈ line.map (·.byte) := htaken ▸ List.mem_map_of_mem hmem
          obtain ⟨r, hr, hsame⟩ := List.mem_map.mp hbyte
          rw [← hsame]
          exact hspaces r hr
        · rw [List.mem_singleton.mp hmem, he]
          rcases hx with hx | hx <;> rw [hx] <;> rfl
  · -- the line and its end answer the same
    have hchain : (taken ++ [e]).IsChain Framed := by
      refine h.framed.infix ⟨blank, left, ?_⟩
      rw [hdrop]
      simp
    have hsame := eq_of_framed hchain fun y hy => by
      have hbyte : y.1 ∈ line.map (·.byte) := htaken ▸ List.mem_map_of_mem hy
      obtain ⟨r, hr, hsame⟩ := List.mem_map.mp hbyte
      rw [← hsame]
      exact hline r hr
    obtain ⟨answered, hanswered, hle⟩ := h.answers e (by rw [hdrop]; simp)
    have hanswered : e.2 = some answered := hanswered
    have hbefore : answerTo (heard.take n) answered = [] := by
      refine answerTo_eq_nil fun y hy heq => ?_
      exact absurd (h.before y hy answered heq) (not_lt.mpr hle)
    have htaken' : answerTo taken answered = taken.map Prod.fst := by
      refine answerTo_eq_map fun y hy => ?_
      rw [hsame y (List.mem_append_left _ hy), hanswered]
    have hend : answerTo [e] answered = [e.1] := answerTo_eq_map (by simp [hanswered])
    refine ⟨answered, hle, answerTo blank answered ++ taken.map Prod.fst, e.1,
      answerTo left answered, ?_, ?_, ?_⟩
    · have hsplit : heard = heard.take n ++ (blank ++ (taken ++ ([e] ++ left))) := by
        rw [List.singleton_append, ← hdrop, List.take_append_drop]
      rw [hsplit]
      simp only [answerTo_append]
      rw [hbefore, htaken', hend, List.nil_append, List.singleton_append,
        List.append_assoc]
    · rw [he]
      exact hx
    · have hspaces : ∀ byte ∈ answerTo blank answered, isSpace byte = true := by
        intro byte hbyte
        obtain ⟨y, hy, rfl⟩ := List.mem_map.mp hbyte
        exact hblank y (List.mem_filter.mp hy).1
      rw [trimmedBytes_append hspaces, htaken, bytesOf_trimmed]
      rfl

/-- The query that runs, if one does. -/
def Answers (s : LanInterface) (heard : List Heard) (asked : Nat) : Prop :=
  ∀ q ∈ s.query, s.AnswersAt q heard asked q.stage

theorem answers_advance {stage : LanStage} (h : s.AnswersAt { q with stage } heard asked stage) :
    (s.advance q stage).Answers heard asked := by
  intro q' hq'
  cases hq'
  cases stage <;> exact h

theorem answers_nextAttempt (h : ∃ n ∈ q.firstSend, Pieces s.buffered heard asked n) :
    (s.nextAttempt q).Answers heard asked := by
  unfold nextAttempt
  split
  next => exact answers_advance (.inr h)
  next => exact answers_advance (.inl rfl)

theorem answers_look {otherwise : LanInterface}
    (h : ∃ n ∈ q.firstSend, Pieces s.buffered heard asked n)
    (hotherwise : otherwise.Answers heard asked) : (s.look q otherwise).Answers heard asked := by
  unfold look
  split
  next idx hidx =>
    obtain ⟨n, hn, hpieces⟩ := h
    obtain ⟨line, x, rest, hbuffer, hline, hrest, hx, hfree⟩ := lineEnd?_eq_some hidx
    rw [buffered, hbuffer, List.append_assoc, List.cons_append] at hpieces
    obtain ⟨hblank, hsays⟩ := hpieces.line hx hfree
    rw [hline, hrest]
    unfold respond
    split
    next hnil => exact answers_nextAttempt ⟨n, hn, hblank hnil⟩
    next => exact answers_advance (.inr hsays)
  next => exact hotherwise

/-- Nothing has come since the query is sent. -/
theorem pieces_sent (hlength : heard.length = s.received)
    (hheard : ∀ x ∈ heard, ∀ line ∈ x.2, line < asked) (hbuffer : s.readBuffer = [])
    (hsocket : s.socket = []) : Pieces s.buffered heard asked s.received := by
  rw [← hlength]
  refine ⟨le_refl _, fun x hx => hheard x (List.mem_of_mem_take hx), ?_, ?_, [], [], ?_, ?_, ?_⟩
  · simp
  · simp
  · simp
  · simp
  · simp [buffered, hbuffer, hsocket, bytesOf]

theorem answers_sendAttempt (h : s.AnswersAt q heard asked .sending)
    (hlength : heard.length = s.received)
    (hunsent : q.firstSend = none → ∀ x ∈ heard, ∀ line ∈ x.2, line < asked) (written : Int) :
    (s.sendAttempt q written).Answers heard asked := by
  obtain ⟨errors, hsent⟩ := s.sendScpiCommand_eq q.command written
  unfold sendAttempt
  dsimp only
  rw [hsent]
  split
  next =>
    apply answers_advance
    rcases h with ⟨hnone, hbuffer, hsocket⟩ | ⟨n, hn, hpieces⟩
    · refine ⟨s.received, by rw [hnone]; rfl, ?_⟩
      exact pieces_sent hlength (hunsent hnone) hbuffer hsocket
    · refine ⟨n, ?_, hpieces⟩
      rw [Option.mem_def.mp hn]
      rfl
  next => exact answers_advance (.inl rfl)

/-- The query goes on. -/
theorem Answers.stepQuery (h : s.Answers heard asked) (hquery : s.query = some q)
    (hlength : heard.length = s.received)
    (hunsent : q.firstSend = none → ∀ x ∈ heard, ∀ line ∈ x.2, line < asked)
    (hempty : e = .bytesAvailable → s.socket = []) (hkept : e = .disconnected → s.readBuffer = [])
    (hstep : s.stepQuery q q.stage e = some s') : s'.Answers heard asked := by
  have hat := h q hquery
  have hdisconnected (hnil : s.readBuffer = []) (hstage : q.stage ≠ .checking) :
      s.onSocketDisconnected.Answers heard asked := by
    intro q' hq'
    obtain rfl := Option.some.inj (hquery.symm.trans hq')
    have hsame : s.onSocketDisconnected.buffered = s.buffered := by
      rw [buffered, buffered, hnil]
      rfl
    generalize q.stage = stage at hat hstage ⊢
    cases stage with
    | checking => exact absurd rfl hstage
    | reading => exact hat
    | sending =>
      exact hat.imp (fun ⟨hnone, _, hsocket⟩ => ⟨hnone, rfl, hsocket⟩)
        fun ⟨n, hn, hpieces⟩ => ⟨n, hn, hsame ▸ hpieces⟩
    | responding | polling => exact hat.imp fun n => And.imp_right (hsame ▸ ·)
    | answered => exact hat
  generalize hstage : q.stage = stage at hat hstep hdisconnected
  unfold LanInterface.stepQuery at hstep
  split at hstep
  next =>
    rw [if_pos (hempty rfl)] at hstep
    cases hstep
    unfold nextAttempt
    split
    next => exact answers_advance (.inl ⟨hat.2, hat.1, hempty rfl⟩)
    next => exact answers_advance (.inl rfl)
  next => exact absurd hat id
  next written =>
    cases hstep
    exact answers_sendAttempt hat hlength hunsent written
  next =>
    cases hstep
    exact answers_look hat (answers_advance hat)
  next =>
    cases hstep
    intro q' hq'
    obtain rfl := Option.some.inj (hquery.symm.trans hq')
    rw [hstage]
    have hsame : s.onSocketReadyRead.buffered = s.buffered := List.append_nil _
    exact hat.imp fun n => And.imp_right (hsame ▸ ·)
  next =>
    cases hstep
    exact answers_look hat h
  next =>
    cases hstep
    refine answers_look hat ?_
    rw [respond, if_pos rfl]
    exact answers_nextAttempt hat
  next =>
    cases hstep
    exact hdisconnected (hkept rfl) (by simp)
  next =>
    cases hstep
    exact hdisconnected (hkept rfl) (by simp)
  next =>
    cases hstep
    exact hdisconnected (hkept rfl) (by simp)
  next =>
    cases hstep
    intro q' hq'
    cases hq'
  next => cases hstep

/-- More of the answer comes in. -/
theorem Pieces.arrive (h : Pieces s.buffered heard asked n) {bytes : Bytes} {line : Nat}
    (hline : asked ≤ line)
    (hframed : ∀ last ∈ (heard.drop n).getLast?, last.2 = some line ∨ last.1 = 10) :
    Pieces (s.arrive bytes).buffered (heard ++ bytes.map (·, some line)) asked n := by
  have hdrop : (heard ++ bytes.map (·, some line)).drop n =
      heard.drop n ++ bytes.map (·, some line) := List.drop_append_of_le_length h.le
  obtain ⟨blank, rest, hrest, hblank, hbytes⟩ := h.bytes
  refine ⟨?_, ?_, ?_, ?_, blank, rest ++ bytes.map (·, some line), ?_, hblank, ?_⟩
  · rw [List.length_append]
    exact h.le.trans (Nat.le_add_right _ _)
  · rw [List.take_append_of_le_length h.le]
    exact h.before
  · intro x hx
    rw [hdrop] at hx
    cases List.mem_append.mp hx with
    | inl hold => exact h.answers x hold
    | inr hnew =>
      obtain ⟨byte, -, rfl⟩ := List.mem_map.mp hnew
      exact ⟨line, rfl, hline⟩
  · rw [hdrop]
    refine h.framed.append ?_ fun x hx y hy => ?_
    · refine List.Pairwise.isChain (List.pairwise_map.mpr ?_)
      exact List.pairwise_of_forall fun _ _ => .inl rfl
    · obtain ⟨byte, -, rfl⟩ := List.mem_map.mp (List.mem_of_mem_head? hy)
      exact hframed x hx
  · rw [hdrop, hrest, List.append_assoc]
  · have hbuffered : (s.arrive bytes).buffered = s.buffered ++ numbered s.received bytes :=
      (List.append_assoc _ _ _).symm
    rw [hbuffered, bytesOf_append, bytesOf_numbered, List.map_append, hbytes, List.map_map]
    exact congrArg _ (List.map_id bytes)

theorem AnswersAt.arrive {stage : LanStage} (h : s.AnswersAt q heard asked stage)
    (hstage : ∀ response, stage ≠ .answered response) (hsent : q.firstSend ≠ none) {line : Nat}
    (hline : asked ≤ line)
    (hframed : ∀ n ∈ q.firstSend, ∀ last ∈ (heard.drop n).getLast?,
      last.2 = some line ∨ last.1 = 10) (bytes : Bytes) :
    (s.arrive bytes).AnswersAt q (heard ++ bytes.map (·, some line)) asked stage := by
  have hmore : (∃ n ∈ q.firstSend, Pieces s.buffered heard asked n) →
      ∃ n ∈ q.firstSend, Pieces (s.arrive bytes).buffered (heard ++ bytes.map (·, some line))
        asked n :=
    fun ⟨n, hn, hpieces⟩ => ⟨n, hn, hpieces.arrive hline (hframed n hn)⟩
  cases stage with
  | checking => exact absurd h.2 hsent
  | reading => exact h
  | sending => exact .inr (hmore (h.resolve_left fun hnone => hsent hnone.1))
  | responding | polling => exact hmore h
  | answered response => exact absurd rfl (hstage response)

/-- An answer is taken by returning only. -/
theorem stage_ne_answered (he : e ≠ .returned) (hstep : s.stepQuery q q.stage e = some s')
    (response : List Received) : q.stage ≠ .answered response := by
  intro hanswered
  rw [hanswered] at hstep
  cases e <;> first | exact he rfl | cases hstep

end

/-- The line that a step puts on the wire. -/
def wrote? (s : LanInterface) : LanEvent → Option String
  | .sendScpiCommand command written =>
    if (s.sendScpiCommand command written).2 then some command else none
  | .sent written =>
    s.query.bind fun q =>
      if (s.sendScpiCommand q.command written).2 then some q.command else none
  | _ => none

/-- The socket is empty when `clearReadBuffer` looks, the connection is not lost in the middle of an
answer, and nothing comes that is no answer. -/
def Undisturbed (s : LanInterface) : LanEvent → Prop
  | .bytesAvailable => s.socket = []
  | .disconnected => s.readBuffer = []
  | .arrived _ => False
  | _ => True

instance (s : LanInterface) : (e : LanEvent) → Decidable (s.Undisturbed e)
  | .bytesAvailable => inferInstanceAs (Decidable (s.socket = []))
  | .disconnected => inferInstanceAs (Decidable (s.readBuffer = []))
  | .arrived _ => .isFalse id
  | .connected | .disconnect | .readyRead | .sendScpiCommand _ _ | .queryScpiCommand _ _ | .readAll
  | .sent _ | .responded | .polled | .elapsed | .returned => .isTrue trivial

/-! A query goes on. -/

theorem received_sendScpiCommand (s : LanInterface) (command : String) (written : Int) :
    (s.sendScpiCommand command written).1.received = s.received := by
  obtain ⟨errors, hsent⟩ := s.sendScpiCommand_eq command written
  rw [hsent]

/-- A query goes on, and stays the same query. -/
def Continued (s : LanInterface) (q : ScpiQuery) (e : LanEvent) (s' : LanInterface) : Prop :=
  s'.received = s.received ∧ (s.wrote? e = none ∨ s.wrote? e = some q.command) ∧
    ∃ q' ∈ s'.query, q'.command = q.command ∧
      (q'.firstSend = none → q.firstSend = none ∧ s.wrote? e = none)

section
variable {s s' : LanInterface} {q q' : ScpiQuery} {e : LanEvent}

theorem continued_nextAttempt (hreceived : s'.received = s.received)
    (hsilent : s.wrote? e = none) (hcommand : q'.command = q.command)
    (hsend : q'.firstSend = q.firstSend) : s.Continued q e (s'.nextAttempt q') :=
  ⟨hreceived, .inl hsilent, _, rfl, hcommand, fun hnone => ⟨hsend ▸ hnone, hsilent⟩⟩

theorem continued_look (hsilent : s.wrote? e = none) {otherwise : LanInterface}
    (hotherwise : s.Continued q e otherwise) : s.Continued q e (s.look q otherwise) := by
  unfold look
  split
  next =>
    unfold respond
    split
    next => exact continued_nextAttempt rfl hsilent rfl rfl
    next => exact ⟨rfl, .inl hsilent, _, rfl, rfl, fun hnone => ⟨hnone, hsilent⟩⟩
  next => exact hotherwise

theorem continued_sendAttempt (hquery : s.query = some q) (written : Int) :
    s.Continued q (.sent written) (s.sendAttempt q written) := by
  have hwrote : s.wrote? (.sent written) =
      if (s.sendScpiCommand q.command written).2 then some q.command else none := by
    rw [wrote?, hquery, Option.bind_some]
  have hreceived := received_sendScpiCommand s q.command written
  unfold sendAttempt
  dsimp only
  split
  next hok =>
    rw [if_pos hok] at hwrote
    exact ⟨hreceived, .inr hwrote, _, rfl, rfl, fun hnone => by cases hnone⟩
  next hok =>
    rw [if_neg hok] at hwrote
    exact ⟨hreceived, .inl hwrote, _, rfl, rfl, fun hnone => ⟨hnone, hwrote⟩⟩

theorem continued_stepQuery (hquery : s.query = some q) (he : e ≠ .returned)
    (hstep : s.stepQuery q q.stage e = some s') : s.Continued q e s' := by
  generalize q.stage = stage at hstep
  unfold stepQuery at hstep
  split at hstep
  next =>
    cases hstep
    split
    next => exact continued_nextAttempt rfl rfl rfl rfl
    next => exact ⟨rfl, .inl rfl, _, rfl, rfl, fun hnone => ⟨hnone, rfl⟩⟩
  next =>
    cases hstep
    exact continued_nextAttempt rfl rfl rfl rfl
  next written =>
    cases hstep
    exact continued_sendAttempt hquery written
  next =>
    cases hstep
    exact continued_look rfl ⟨rfl, .inl rfl, _, rfl, rfl, fun hnone => ⟨hnone, rfl⟩⟩
  next =>
    cases hstep
    exact ⟨rfl, .inl rfl, q, hquery, rfl, fun hnone => ⟨hnone, rfl⟩⟩
  next =>
    cases hstep
    exact continued_look rfl ⟨rfl, .inl rfl, q, hquery, rfl, fun hnone => ⟨hnone, rfl⟩⟩
  next =>
    cases hstep
    apply continued_look rfl
    rw [respond, if_pos rfl]
    exact continued_nextAttempt rfl rfl rfl rfl
  next =>
    cases hstep
    exact ⟨rfl, .inl rfl, q, hquery, rfl, fun hnone => ⟨hnone, rfl⟩⟩
  next =>
    cases hstep
    exact ⟨rfl, .inl rfl, q, hquery, rfl, fun hnone => ⟨hnone, rfl⟩⟩
  next =>
    cases hstep
    exact ⟨rfl, .inl rfl, q, hquery, rfl, fun hnone => ⟨hnone, rfl⟩⟩
  next => exact absurd rfl he
  next => cases hstep

theorem exists_query_of_answer? {response : List Received}
    (h : s.answer? = some response) :
    ∃ q, s.query = some q ∧ q.stage = .answered response := by
  obtain ⟨q, hquery, hanswer⟩ := Option.bind_eq_some_iff.mp h
  split at hanswer
  next hstage =>
    cases hanswer
    exact ⟨q, hquery, hstage⟩
  next => cases hanswer

theorem received_step (hstep : s.step e = some s') (harrived : ∀ bytes, e ≠ .arrived bytes) :
    s'.received = s.received := by
  unfold step at hstep
  split at hstep
  next bytes => exact absurd rfl (harrived bytes)
  next =>
    split at hstep
    next =>
      unfold stepIdle at hstep
      split at hstep <;> cases hstep
      all_goals first | rfl | exact received_sendScpiCommand ..
    next q hquery =>
      by_cases he : e = .returned
      · subst he
        generalize q.stage = stage at hstep
        cases stage <;> cases hstep
        rfl
      · exact (continued_stepQuery hquery he hstep).1

end

end LanInterface

end PPB
