import PPBProject.Gratten

/- The lines that successive calls of `waitForResponse` return, and how the bytes of the
   instrument come in: at any moment, in pieces of any size.

   Correspondence (C++ ↔ Lean):
     a look of `waitForResponse`, where it finds a line ↔ `firstLine?`
     the first look, and one after `waitForReadyRead`   ↔ `LineEvent.called` and `polled`
     the slot `onSocketReadyRead`                       ↔ `LineEvent.readyRead`
   No call times out, and the connection stays. -/
namespace PPB

namespace LanInterface

/-- The line that is cut off, and what stays in the buffer. -/
def firstLine? (buffer : List Received) : Option (List Received × List Received) :=
  (lineEnd? buffer).map fun idx => (trimmed (buffer.take idx), buffer.drop (idx + 1))

/-- A query takes what it is answered by the same cut. -/
theorem look_eq (s : LanInterface) (q : ScpiQuery) (otherwise : LanInterface) :
    s.look q otherwise =
      match firstLine? s.readBuffer with
      | some (line, rest) => { s with readBuffer := rest }.respond q line
      | none => otherwise := by
  unfold look firstLine?
  cases lineEnd? s.readBuffer <;> rfl

end LanInterface

/-- A caller that asks for one line after the other. `stream` is what the instrument has sent so
far. -/
structure LineReader where
  lan : LanInterface := {}
  stream : Bytes := []
  waiting : Bool := false
  lines : List Bytes := []
  deriving DecidableEq

inductive LineEvent where
  | arrived (bytes : Bytes)
  | readyRead
  | called
  | polled
  deriving DecidableEq

namespace LineReader

open LanInterface

def look (s : LineReader) : LineReader :=
  match firstLine? s.lan.readBuffer with
  | some (line, rest) =>
    { s with
      lan := { s.lan with readBuffer := rest }
      waiting := false
      lines := s.lines ++ [bytesOf line] }
  | none => s

def step (s : LineReader) : LineEvent → Option LineReader
  | .arrived bytes =>
    if bytes = [] then none
    else some { s with lan := s.lan.arrive bytes, stream := s.stream ++ bytes }
  | .readyRead => some { s with lan := s.lan.onSocketReadyRead }
  | .called => if s.waiting then none else some { s with waiting := true }.look
  | .polled => if s.waiting then some s.look else none

/-- Everything that has come has been looked at, and a call waits for more. -/
def Settled (s : LineReader) : Prop :=
  s.waiting = true ∧ s.lan.socket = [] ∧ firstLine? s.lan.readBuffer = none

instance (s : LineReader) : Decidable s.Settled := inferInstanceAs (Decidable (_ ∧ _))

end LineReader

def lineReader : Machine.System LineReader LineEvent where
  start s := s = {}
  step s e s' := s.step e = some s'

/-- The lines of a stream do not depend on the pieces it came in, nor on the moments of the
calls. -/
def SplitIndependent (stream : Bytes) : Prop :=
  ∀ s s', Machine.Reach lineReader (fun _ _ => True) s →
    Machine.Reach lineReader (fun _ _ => True) s' → s.stream = stream → s'.stream = stream →
    (s.lines <+: s'.lines ∨ s'.lines <+: s.lines) ∧
      (s.Settled → s'.Settled → s.lines = s'.lines)

/-- No line feed comes after a carriage return. -/
def LineFeedsFirst (stream : Bytes) : Prop := 10 ∉ stream.dropWhile (· ≠ 13)

instance (stream : Bytes) : Decidable (LineFeedsFirst stream) :=
  inferInstanceAs (Decidable (¬ _))

theorem lineFeedsFirst_iff {stream : Bytes} :
    LineFeedsFirst stream ↔ ∀ u v, stream = u ++ 13 :: v → 10 ∉ v := by
  constructor
  · intro h u v hstream hfeed
    apply h
    rw [hstream, List.dropWhile_append]
    split
    next => simp [hfeed]
    next => simp [hfeed]
  · intro h hfeed
    cases hdrop : stream.dropWhile (· ≠ 13) with
    | nil =>
      rw [hdrop] at hfeed
      cases hfeed
    | cons byte rest =>
      have hne : stream.dropWhile (· ≠ 13) ≠ [] := by
        rw [hdrop]
        exact List.cons_ne_nil _ _
      have hreturn : byte = 13 := by
        have hhead := List.head_dropWhile_not _ hne
        simp only [hdrop, List.head_cons] at hhead
        simpa using hhead
      have hsplit := List.takeWhile_append_dropWhile (p := fun byte => decide (byte ≠ 13))
        (l := stream)
      rw [hdrop, hreturn] at hsplit hfeed
      have hrest : 10 ∈ rest := by simpa using hfeed
      exact h _ rest hsplit.symm hrest

theorem LineFeedsFirst.of_append {u v : Bytes} (h : LineFeedsFirst (u ++ v)) :
    LineFeedsFirst u ∧ LineFeedsFirst v := by
  rw [lineFeedsFirst_iff] at h
  constructor
  · rw [lineFeedsFirst_iff]
    intro a b heq hfeed
    exact h a (b ++ v) (by rw [heq]; simp) (List.mem_append_left _ hfeed)
  · rw [lineFeedsFirst_iff]
    intro a b heq hfeed
    exact h (u ++ a) b (by rw [heq]; simp) hfeed

/-! A cut. -/

namespace LanInterface

def isLineEnd (r : Received) : Bool := r.byte = 10 || r.byte = 13

theorem findIdx?_append_cons {α : Type*} {p : α → Bool} {u v : List α} {x : α}
    (hu : ∀ y ∈ u, p y = false) (hx : p x = true) : (u ++ x :: v).findIdx? p = some u.length := by
  rw [List.findIdx?_append, List.findIdx?_eq_none_iff.mpr hu, List.findIdx?_cons, hx]
  simp

theorem exists_of_findIdx? {α : Type*} {p : α → Bool} {xs : List α} {i : Nat}
    (h : xs.findIdx? p = some i) : ∃ u x v, xs = u ++ x :: v ∧ xs.take i = u ∧
      xs.drop (i + 1) = v ∧ p x = true ∧ ∀ y ∈ u, p y = false := by
  obtain ⟨hlt, hx, hbefore⟩ := List.findIdx?_eq_some_iff_getElem.mp h
  refine ⟨xs.take i, xs[i], xs.drop (i + 1), ?_, rfl, rfl, hx, ?_⟩
  · rw [List.getElem_cons_drop, List.take_append_drop]
  · intro y hy
    obtain ⟨j, hj, rfl⟩ := List.mem_iff_getElem.mp hy
    rw [List.length_take] at hj
    rw [List.getElem_take]
    exact Bool.eq_false_iff.mpr (hbefore j (by omega))

theorem firstLine?_lineFeed {u v : List Received} {x : Received}
    (hu : ∀ r ∈ u, r.byte ≠ 10) (hx : x.byte = 10) :
    firstLine? (u ++ x :: v) = some (trimmed u, v) := by
  have hfind : (u ++ x :: v).findIdx? (fun r => r.byte = 10) = some u.length :=
    findIdx?_append_cons (by simpa using hu) (by simpa using hx)
  simp [firstLine?, lineEnd?, hfind]

theorem firstLine?_return {u v : List Received} {x : Received}
    (hfeed : ∀ r ∈ u ++ x :: v, r.byte ≠ 10) (hu : ∀ r ∈ u, r.byte ≠ 13) (hx : x.byte = 13) :
    firstLine? (u ++ x :: v) = some (trimmed u, v) := by
  have hnone : (u ++ x :: v).findIdx? (fun r => r.byte = 10) = none :=
    List.findIdx?_eq_none_iff.mpr (by simpa using hfeed)
  have hfind : (u ++ x :: v).findIdx? (fun r => r.byte = 13) = some u.length :=
    findIdx?_append_cons (by simpa using hu) (by simpa using hx)
  simp only [firstLine?, lineEnd?, hnone, hfind, Option.none_or, Option.map_some,
    List.take_left, Option.some.injEq, Prod.mk.injEq, true_and]
  simp

theorem firstLine?_eq_none_iff {buffer : List Received} :
    firstLine? buffer = none ↔ ∀ r ∈ buffer, isLineEnd r = false := by
  rw [firstLine?, Option.map_eq_none_iff, lineEnd?, Option.or_eq_none_iff,
    List.findIdx?_eq_none_iff, List.findIdx?_eq_none_iff]
  simp only [isLineEnd, Bool.or_eq_false_iff]
  constructor
  · intro ⟨hfeed, hreturn⟩ r hr
    exact ⟨hfeed r hr, hreturn r hr⟩
  · intro h
    exact ⟨fun r hr => (h r hr).1, fun r hr => (h r hr).2⟩

/-- Where line feeds come first, a cut takes the first line end. -/
theorem exists_of_firstLine? {buffer later line rest : List Received}
    (hfirst : LineFeedsFirst (bytesOf (buffer ++ later)))
    (h : firstLine? buffer = some (line, rest)) :
    ∃ u x, buffer = u ++ x :: rest ∧ line = trimmed u ∧ isLineEnd x = true ∧
      ∀ r ∈ u, isLineEnd r = false := by
  rw [lineFeedsFirst_iff] at hfirst
  obtain ⟨idx, hend, hcut⟩ := Option.map_eq_some_iff.mp h
  cases hfeed : buffer.findIdx? (fun r => r.byte = 10) with
  | some i =>
    rw [lineEnd?, hfeed, Option.some_or, Option.some_inj] at hend
    obtain ⟨u, x, v, hbuffer, hu, hv, hx, hbefore⟩ := exists_of_findIdx? hfeed
    rw [← hend, hu, hv] at hcut
    cases hcut
    refine ⟨u, x, hbuffer, rfl, by simp [isLineEnd, of_decide_eq_true hx], ?_⟩
    intro r hr
    -- a carriage return before the line feed
    have hreturn : r.byte ≠ 13 := by
      intro hreturn
      obtain ⟨a, b, rfl⟩ := List.append_of_mem hr
      refine hfirst (bytesOf a) (bytesOf (b ++ x :: rest ++ later)) ?_ ?_
      · simp [hbuffer, bytesOf, hreturn]
      · simp [bytesOf, of_decide_eq_true hx]
    simpa [isLineEnd, hreturn] using hbefore r hr
  | none =>
    rw [lineEnd?, hfeed, Option.none_or] at hend
    obtain ⟨u, x, v, hbuffer, hu, hv, hx, hbefore⟩ := exists_of_findIdx? hend
    rw [hu, hv] at hcut
    cases hcut
    refine ⟨u, x, hbuffer, rfl, by simp [isLineEnd, of_decide_eq_true hx], ?_⟩
    intro r hr
    have hline := List.findIdx?_eq_none_iff.mp hfeed r (hbuffer ▸ List.mem_append_left _ hr)
    simpa [isLineEnd] using ⟨by simpa using hline, by simpa using hbefore r hr⟩

end LanInterface

namespace LineReader

open LanInterface

/-! The lines of a stream in which line feeds come first. -/

/-- A line for each line end. -/
def frames (stream : List Received) : List Bytes :=
  (stream.splitOnP isLineEnd).dropLast.map fun line => bytesOf (LanInterface.trimmed line)

theorem frames_eq_nil {stream : List Received} (h : ∀ r ∈ stream, isLineEnd r = false) :
    frames stream = [] := by
  rw [frames, List.splitOnP_eq_singleton h]
  rfl

theorem frames_cons {u v : List Received} {x : Received} (hu : ∀ r ∈ u, isLineEnd r = false)
    (hx : isLineEnd x = true) :
    frames (u ++ x :: v) = bytesOf (LanInterface.trimmed u) :: frames v := by
  rw [frames, List.splitOnP_append_cons_of_forall_mem hu x hx, List.dropLast_cons_of_ne_nil
    (List.splitOnP_ne_nil _ _), List.map_cons, frames]

/-- What has been returned, and what the rest of the stream holds, are the lines of all of it,
whatever comes later. -/
structure Framed (s : LineReader) : Prop where
  received : s.lan.received = s.stream.length
  suffix : s.lan.readBuffer ++ s.lan.socket <:+ numbered 0 s.stream
  lines : LineFeedsFirst s.stream → ∀ later, frames (numbered 0 s.stream ++ later) =
    s.lines ++ frames (s.lan.readBuffer ++ s.lan.socket ++ later)

theorem numbered_append (n : Nat) (xs ys : Bytes) :
    numbered n (xs ++ ys) = numbered n xs ++ numbered (n + xs.length) ys := by
  induction xs generalizing n with
  | nil => rfl
  | cons x xs ih =>
    rw [List.cons_append, numbered, ih, numbered, List.length_cons, List.cons_append,
      Nat.add_assoc, Nat.add_comm 1]

variable {s : LineReader}

theorem Framed.feedsFirst (h : s.Framed) (hfirst : LineFeedsFirst s.stream) :
    LineFeedsFirst (bytesOf (s.lan.readBuffer ++ s.lan.socket)) := by
  obtain ⟨gone, hgone⟩ := h.suffix
  have hbytes := congrArg bytesOf hgone
  rw [bytesOf_numbered, bytesOf, List.map_append] at hbytes
  rw [← hbytes] at hfirst
  exact hfirst.of_append.2

theorem Framed.look (h : s.Framed) : s.look.Framed := by
  unfold LineReader.look
  split
  next line rest hcut =>
    have hrest : rest <:+ s.lan.readBuffer := by
      obtain ⟨idx, -, hpair⟩ := Option.map_eq_some_iff.mp hcut
      cases hpair
      exact List.drop_suffix _ _
    obtain ⟨gone, hgone⟩ := hrest
    constructor
    · exact h.received
    · refine List.IsSuffix.trans ⟨gone, ?_⟩ h.suffix
      rw [← List.append_assoc, hgone]
    · intro hfirst later
      obtain ⟨u, x, hbuffer, rfl, hx, hu⟩ := exists_of_firstLine? (h.feedsFirst hfirst) hcut
      rw [h.lines hfirst later, hbuffer]
      simp only [List.append_assoc, List.cons_append, frames_cons hu hx, List.nil_append]
  next => exact h

theorem Framed.arrive (h : s.Framed) (bytes : Bytes) :
    Framed { s with lan := s.lan.arrive bytes, stream := s.stream ++ bytes } := by
  have hstream : numbered 0 (s.stream ++ bytes) =
      numbered 0 s.stream ++ numbered s.lan.received bytes := by
    rw [numbered_append, Nat.zero_add, h.received]
  obtain ⟨gone, hgone⟩ := h.suffix
  constructor
  · show s.lan.received + bytes.length = (s.stream ++ bytes).length
    rw [h.received, List.length_append]
  · refine ⟨gone, ?_⟩
    show gone ++ (s.lan.readBuffer ++ (s.lan.socket ++ numbered s.lan.received bytes)) =
      numbered 0 (s.stream ++ bytes)
    rw [hstream, ← hgone]
    simp only [List.append_assoc]
  · intro hfirst later
    show frames (numbered 0 (s.stream ++ bytes) ++ later) = s.lines ++
      frames (s.lan.readBuffer ++ (s.lan.socket ++ numbered s.lan.received bytes) ++ later)
    rw [hstream, List.append_assoc, h.lines hfirst.of_append.1]
    simp only [List.append_assoc]

theorem Framed.readyRead (h : s.Framed) :
    Framed { s with lan := s.lan.onSocketReadyRead } := by
  have hrest : s.lan.readBuffer ++ s.lan.socket ++ [] = s.lan.readBuffer ++ s.lan.socket :=
    List.append_nil _
  constructor
  · exact h.received
  · exact hrest ▸ h.suffix
  · intro hfirst later
    show _ = s.lines ++ frames (s.lan.readBuffer ++ s.lan.socket ++ [] ++ later)
    rw [hrest]
    exact h.lines hfirst later

theorem Framed.step (h : s.Framed) {e : LineEvent} {s' : LineReader}
    (hstep : s.step e = some s') : s'.Framed := by
  cases e with
  | arrived bytes =>
    simp only [LineReader.step] at hstep
    split at hstep
    next => cases hstep
    next =>
      cases hstep
      exact h.arrive bytes
  | readyRead =>
    cases hstep
    exact h.readyRead
  | called =>
    simp only [LineReader.step] at hstep
    split at hstep
    next => cases hstep
    next =>
      cases hstep
      apply Framed.look
      exact ⟨h.received, h.suffix, h.lines⟩
  | polled =>
    simp only [LineReader.step] at hstep
    split at hstep
    next =>
      cases hstep
      exact h.look
    next => cases hstep

theorem framed_of_reach (h : Machine.Reach lineReader (fun _ _ => True) s) : s.Framed := by
  apply h.invariant
  · rintro s rfl
    exact ⟨rfl, List.suffix_refl _, fun _ _ => rfl⟩
  · exact fun s e s' hs _ hstep => hs.step hstep

/-- A caller has the lines of the stream so far, or the first of them. -/
theorem lines_isInitial (h : Machine.Reach lineReader (fun _ _ => True) s)
    (hfirst : LineFeedsFirst s.stream) : s.lines <+: frames (numbered 0 s.stream) := by
  have hlines := (framed_of_reach h).lines hfirst []
  rw [List.append_nil] at hlines
  exact ⟨_, hlines.symm⟩

theorem lines_of_settled (h : Machine.Reach lineReader (fun _ _ => True) s)
    (hfirst : LineFeedsFirst s.stream) (hsettled : s.Settled) :
    s.lines = frames (numbered 0 s.stream) := by
  have hlines := (framed_of_reach h).lines hfirst []
  rw [List.append_nil, List.append_nil, hsettled.2.1, List.append_nil,
    frames_eq_nil (firstLine?_eq_none_iff.mp hsettled.2.2), List.append_nil] at hlines
  exact hlines.symm

/-! A stream in which a line feed comes after a carriage return. -/

theorem length_of_firstLine? {buffer line rest : List Received}
    (h : firstLine? buffer = some (line, rest)) : rest.length < buffer.length := by
  obtain ⟨idx, hend, hpair⟩ := Option.map_eq_some_iff.mp h
  cases hpair
  have hlt : idx < buffer.length := by
    rcases Option.or_eq_some_iff.mp hend with hfeed | ⟨-, hreturn⟩
    · exact (List.findIdx?_eq_some_iff_getElem.mp hfeed).1
    · exact (List.findIdx?_eq_some_iff_getElem.mp hreturn).1
  rw [List.length_drop]
  omega

/-- All lines of a buffer, cut off one by one, and what is left. -/
def drain (buffer : List Received) : List Bytes × List Received :=
  match _ : firstLine? buffer with
  | some (line, rest) => (bytesOf line :: (drain rest).1, (drain rest).2)
  | none => ([], buffer)
termination_by buffer.length
decreasing_by all_goals exact length_of_firstLine? (by assumption)

theorem drain_of_some {buffer line rest : List Received}
    (h : firstLine? buffer = some (line, rest)) :
    drain buffer = (bytesOf line :: (drain rest).1, (drain rest).2) := by
  rw [drain]
  split
  next hcut =>
    rw [hcut] at h
    cases h
    rfl
  next hcut =>
    rw [hcut] at h
    cases h

theorem drain_of_none {buffer : List Received} (h : firstLine? buffer = none) :
    drain buffer = ([], buffer) := by
  rw [drain]
  split
  next hcut =>
    rw [hcut] at h
    cases h
  next => rfl

theorem look_of_some {line rest : List Received}
    (h : firstLine? s.lan.readBuffer = some (line, rest)) : s.look =
      { s with
        lan := { s.lan with readBuffer := rest }
        waiting := false
        lines := s.lines ++ [bytesOf line] } := by
  unfold LineReader.look
  rw [h]

theorem look_of_none (h : firstLine? s.lan.readBuffer = none) : s.look = s := by
  unfold LineReader.look
  rw [h]

/-- A caller that goes on asking gets all lines of the buffer. -/
theorem exists_settled (h : Machine.Reach lineReader (fun _ _ => True) s)
    (hsocket : s.lan.socket = []) : ∃ s', Machine.Reach lineReader (fun _ _ => True) s' ∧
      s'.Settled ∧ s'.stream = s.stream ∧ s'.lan.received = s.lan.received ∧
      s'.lines = s.lines ++ (drain s.lan.readBuffer).1 ∧
      s'.lan.readBuffer = (drain s.lan.readBuffer).2 := by
  generalize hbuffer : s.lan.readBuffer = buffer
  induction buffer using drain.induct generalizing s with
  | case1 buffer line rest hcut ih =>
    -- the line is taken by the call that waits, or by the next one
    obtain ⟨e, s₁, hstep, hlan, hstream, hlines⟩ : ∃ e s₁, s.step e = some s₁ ∧
        s₁.lan = { s.lan with readBuffer := rest } ∧ s₁.stream = s.stream ∧
        s₁.lines = s.lines ++ [bytesOf line] := by
      subst hbuffer
      cases hwaiting : s.waiting with
      | true =>
        refine ⟨.polled, _, if_pos hwaiting, ?_⟩
        rw [look_of_some hcut]
        exact ⟨rfl, rfl, rfl⟩
      | false =>
        refine ⟨.called, _, if_neg (by simp [hwaiting]), ?_⟩
        rw [look_of_some (s := { s with waiting := true }) hcut]
        exact ⟨rfl, rfl, rfl⟩
    obtain ⟨s', hreach, hsettled, hstream', hreceived, hlines', hrest⟩ :=
      ih (.step h trivial hstep) (by rw [hlan]; exact hsocket) (by rw [hlan])
    rw [drain_of_some hcut]
    refine ⟨s', hreach, hsettled, hstream'.trans hstream, ?_, ?_, hrest⟩
    · rw [hreceived, hlan]
    · rw [hlines', hlines, List.append_assoc, List.singleton_append]
  | case2 buffer hcut =>
    subst hbuffer
    rw [drain_of_none hcut, List.append_nil]
    cases hwaiting : s.waiting with
    | true => exact ⟨s, h, ⟨hwaiting, hsocket, hcut⟩, rfl, rfl, rfl, rfl⟩
    | false =>
      have hstep : s.step .called = some { s with waiting := true } := by
        rw [step, if_neg (by simp [hwaiting]), look_of_none (s := { s with waiting := true }) hcut]
      exact ⟨_, .step h trivial hstep, ⟨rfl, hsocket, hcut⟩, rfl, rfl, rfl, rfl⟩

/-- The same when more bytes have come, all at once. -/
theorem exists_settled_after (h : Machine.Reach lineReader (fun _ _ => True) s)
    (hsettled : s.Settled) (bytes : Bytes) : ∃ s', Machine.Reach lineReader (fun _ _ => True) s' ∧
      s'.Settled ∧ s'.stream = s.stream ++ bytes ∧
      s'.lan.received = s.lan.received + bytes.length ∧
      s'.lines = s.lines ++ (drain (s.lan.readBuffer ++ numbered s.lan.received bytes)).1 ∧
      s'.lan.readBuffer = (drain (s.lan.readBuffer ++ numbered s.lan.received bytes)).2 := by
  obtain ⟨hwaiting, hsocket, hnone⟩ := hsettled
  by_cases hempty : bytes = []
  · subst hempty
    have hdrain := drain_of_none hnone
    rw [numbered, List.append_nil, List.append_nil, hdrain, List.append_nil]
    exact ⟨s, h, ⟨hwaiting, hsocket, hnone⟩, rfl, rfl, rfl, rfl⟩
  · have harrived : s.step (.arrived bytes) =
        some { s with lan := s.lan.arrive bytes, stream := s.stream ++ bytes } := if_neg hempty
    have hread := Machine.Reach.step (.step h trivial harrived) trivial
      (show lineReader.step _ .readyRead _ from rfl)
    obtain ⟨s', hreach, hsettled', hstream, hreceived, hlines, hrest⟩ := exists_settled hread rfl
    have hbuffer : s.lan.readBuffer ++ (s.lan.arrive bytes).socket =
        s.lan.readBuffer ++ numbered s.lan.received bytes := by
      show s.lan.readBuffer ++ (s.lan.socket ++ numbered s.lan.received bytes) = _
      rw [hsocket, List.nil_append]
    exact ⟨s', hreach, hsettled', hstream, hreceived, hlines.trans (by rw [← hbuffer]; rfl),
      hrest.trans (by rw [← hbuffer]; rfl)⟩

theorem numbered_cons (n : Nat) (byte : UInt8) (bytes : Bytes) :
    numbered n (byte :: bytes) = ⟨byte, n⟩ :: numbered (n + 1) bytes := rfl

theorem byte_ne_of_mem_numbered {n : Nat} {bytes : Bytes} {byte : UInt8} (h : byte ∉ bytes) :
    ∀ r ∈ numbered n bytes, r.byte ≠ byte := by
  intro r hr heq
  have hmem : r.byte ∈ bytesOf (numbered n bytes) := List.mem_map_of_mem hr
  rw [bytesOf_numbered, heq] at hmem
  exact h hmem

/-- With a carriage return before a line feed, one line more is returned if the two come apart. -/
theorem exists_apart {before between after : Bytes} (hbetween : 10 ∉ between) :
    ∃ s s', Machine.Reach lineReader (fun _ _ => True) s ∧
      Machine.Reach lineReader (fun _ _ => True) s' ∧ s.Settled ∧ s'.Settled ∧
      s.stream = before ++ 13 :: (between ++ 10 :: after) ∧
      s'.stream = before ++ 13 :: (between ++ 10 :: after) ∧
      s'.lines.length = s.lines.length + 1 := by
  obtain ⟨start, hstart, hsettled, hstream, -, -, -⟩ :=
    exists_settled (s := {}) (.start rfl) rfl
  -- what comes before is the same for both
  obtain ⟨s₀, h₀, hsettled₀, hstream₀, -, -, -⟩ := exists_settled_after hstart hsettled before
  rw [hstream] at hstream₀
  have hends := firstLine?_eq_none_iff.mp hsettled₀.2.2
  have hfeed : ∀ r ∈ s₀.lan.readBuffer, r.byte ≠ 10 := by
    intro r hr heq
    simpa [isLineEnd, heq] using hends r hr
  have hreturn : ∀ r ∈ s₀.lan.readBuffer, r.byte ≠ 13 := by
    intro r hr heq
    simpa [isLineEnd, heq] using hends r hr
  have hnone := byte_ne_of_mem_numbered (n := s₀.lan.received + 1) hbetween
  have htail := numbered_append (s₀.lan.received + 1) between (10 :: after)
  rw [numbered_cons] at htail
  obtain ⟨s, h, hs, hstream_s, -, hlines, -⟩ :=
    exists_settled_after h₀ hsettled₀ (13 :: (between ++ 10 :: after))
  obtain ⟨s₁, h₁, hs₁, hstream₁, hreceived₁, hlines₁, hrest₁⟩ :=
    exists_settled_after h₀ hsettled₀ [13]
  obtain ⟨s₂, h₂, hs₂, hstream₂, -, hlines₂, -⟩ :=
    exists_settled_after h₁ hs₁ (between ++ 10 :: after)
  refine ⟨s, s₂, h, h₂, hs, hs₂, ?_, ?_, ?_⟩
  · rw [hstream_s, hstream₀]
    rfl
  · rw [hstream₂, hstream₁, hstream₀]
    simp
  · -- together, the line feed is found first
    have htogether : s₀.lan.readBuffer ++ numbered s₀.lan.received (13 :: (between ++ 10 :: after)) =
        (s₀.lan.readBuffer ++ ⟨13, s₀.lan.received⟩ :: numbered (s₀.lan.received + 1) between) ++
          ⟨10, s₀.lan.received + 1 + between.length⟩ ::
            numbered (s₀.lan.received + 1 + between.length + 1) after := by
      rw [numbered_cons, htail, List.append_assoc, List.cons_append]
    have hcut := @firstLine?_lineFeed
      (s₀.lan.readBuffer ++ ⟨13, s₀.lan.received⟩ :: numbered (s₀.lan.received + 1) between)
      (numbered (s₀.lan.received + 1 + between.length + 1) after)
      ⟨10, s₀.lan.received + 1 + between.length⟩ ?_ rfl
    · have hcut₁ : firstLine? (s₀.lan.readBuffer ++ numbered s₀.lan.received [13]) =
          some (LanInterface.trimmed s₀.lan.readBuffer, []) := by
        apply firstLine?_return _ hreturn rfl
        intro r hr
        rcases List.mem_append.mp hr with hold | hnew
        · exact hfeed r hold
        · rw [List.mem_singleton.mp hnew]
          exact (by decide : (13 : UInt8) ≠ 10)
      have hempty : drain [] = ([], []) := drain_of_none (firstLine?_eq_none_iff.mpr (by simp))
      rw [drain_of_some hcut₁, hempty] at hlines₁ hrest₁
      rw [hrest₁, hreceived₁, List.nil_append, List.length_singleton, htail,
        drain_of_some (firstLine?_lineFeed hnone rfl), hlines₁] at hlines₂
      rw [htogether, drain_of_some hcut] at hlines
      rw [hlines₂, hlines]
      simp
      omega
    · intro r hr
      rcases List.mem_append.mp hr with hold | hnew
      · exact hfeed r hold
      · rcases List.mem_cons.mp hnew with rfl | hbetween
        · exact (by decide : (13 : UInt8) ≠ 10)
        · exact hnone r hbetween

/-- The lines depend only on the stream exactly if no line feed comes after a carriage return. -/
theorem lines_independent_iff (stream : Bytes) :
    SplitIndependent stream ↔ LineFeedsFirst stream := by
  constructor
  · intro hindependent
    rw [lineFeedsFirst_iff]
    intro before later hstream hfeed
    obtain ⟨between, after, rfl, hbetween⟩ := List.eq_append_cons_of_mem hfeed
    obtain ⟨s, s', h, h', hs, hs', hstream_s, hstream_s', hlength⟩ :=
      @exists_apart before between after hbetween
    have hlines := (hindependent s s' h h' (hstream_s.trans hstream.symm)
      (hstream_s'.trans hstream.symm)).2 hs hs'
    rw [hlines] at hlength
    omega
  · intro hfirst s s' h h' hstream hstream'
    subst hstream
    rw [← hstream'] at hfirst
    have hprefix' := lines_isInitial h' hfirst
    have hsettled' := lines_of_settled h' hfirst
    rw [hstream'] at hfirst hprefix' hsettled'
    constructor
    · exact List.prefix_or_prefix_of_prefix (lines_isInitial h hfirst) hprefix'
    · intro hs hs'
      exact (lines_of_settled h hfirst hs).trans (hsettled' hs').symm

/-- A reply that ends with both, in one piece and in two: the second time there is one more line,
an empty one. -/
theorem not_lines_independent : ¬ SplitIndependent [53, 13, 10] := by
  intro hindependent
  have hreach : ∀ es s, Machine.run step (fun _ _ => True) {} es = some s →
      Machine.Reach lineReader (fun _ _ => True) s :=
    fun es _ hrun => Machine.Reach.of_run step (fun _ _ _ h => h) (.start rfl) es hrun
  have hlines := (hindependent _ _
    (hreach [.arrived [53, 13, 10], .readyRead, .called, .called] _ rfl)
    (hreach [.arrived [53, 13], .readyRead, .called, .arrived [10], .readyRead, .called, .called] _
      rfl) rfl rfl).2 (by decide) (by decide)
  exact absurd hlines (by decide)

end LineReader

end PPB
