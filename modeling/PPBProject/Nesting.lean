import PPBProject.Projection

/- Nested group starts as moves.

   `tryStart` is any function whose effect is a sequence of `StartMove`s; each
   function of the engine's core that calls it is shown to be moves of its own
   followed by such sequences, and `tryStartNested` closes the circle by induction
   on the depth of nesting. -/
namespace PPB

open Relation (ReflTransGen)

/-- A sequence of moves that a completion sets off. -/
abbrev Starts : View → View → Prop := ReflTransGen StartMove

/-- A sequence of moves of one kind. -/
abbrev Moves (kind : MoveKind) : View → View → Prop := ReflTransGen fun v v' => Move v kind v'

theorem Starts.moves {v v' : View} (h : Starts v v') : Moves .ordinary v v' :=
  ReflTransGen.mono (fun _ _ hmove => Move.start hmove) _ _ h

theorem Starts.imageReady_eq {v v' : View} (h : Starts v v') : v'.imageReady = v.imageReady :=
  Machine.invariant_of_steps (P := fun w => w.imageReady = v.imageReady)
    (fun _ _ hw hmove => hmove.imageReady_eq.trans hw) rfl h

theorem Starts.waiting_suffix {v v' : View} (h : Starts v v') : v'.waiting <:+ v.waiting :=
  Machine.invariant_of_steps (P := fun w => w.waiting <:+ v.waiting)
    (fun _ _ hw hmove => hmove.waiting_suffix.trans hw) (List.suffix_refl _) h

namespace Engine

section
variable {s : Engine} {address : UInt16} {request : Request}

theorem view_sending_iff (starting : List (Nat × UInt16)) :
    (s.view starting).state address = .sendingCommand ↔ s.isSending address = true := by
  simp [view, isSending]

theorem isSending_eq_false_iff (s : Engine) (address : UInt16) :
    s.isSending address = false ↔ (s.view []).state address ≠ .sendingCommand := by
  rw [ne_eq, view_sending_iff, Bool.not_eq_true]

theorem statics_ready (suppressSend : Bool) :
    (s.openOperation address request suppressSend).statics.volumeUseCustomData =
      s.statics.volumeUseCustomData :=
  congrArg View.imageReady (s.view_openOperation [] address request suppressSend)

end

/-! One operation. -/

section
variable {tryStart : Engine → Engine} (s : Engine) (starting : List (Nat × UInt16))
  (address : UInt16)

/-- `completeOperation` of an operation in flight: it closes, and waiting groups get
their chance. -/
theorem view_completeOperationWith {c : PPBContext} {request : Request} (success : Bool)
    (message : String) (hfind : s.findContext address = some c)
    (hopen : c.operationCompleted = false) (hcommand : c.currentCommand = some request) :
    (completeOperationWith tryStart s address success message).view starting =
      (tryStart (s.closeOperation address c request success message)).view starting := by
  simp only [completeOperationWith, hfind, hopen, hcommand, Bool.false_eq_true, if_false]
  split <;> rfl

/-- The operation opened last completes at once. -/
theorem view_flash {s} {v : View} {request : Request} {suppressSend : Bool} (success : Bool)
    (message : String) (hopened : s.view starting = v.opened address request suppressSend)
    (htry : ∀ t : Engine, Starts (t.view starting) ((tryStart t).view starting)) :
    Starts (v.flashed address request suppressSend success message)
      ((completeOperationWith tryStart s address success message).view starting) := by
  have hfind : s.findContext address = some (v.openedContext address request suppressSend) := by
    change (s.view starting).context address = _
    rw [hopened, View.opened_context, Function.update_self]
  rw [view_completeOperationWith _ _ _ success message hfind rfl rfl]
  have hclosed := view_closeOperation s starting address
    (v.openedContext address request suppressSend) request success message
  rw [hopened] at hclosed
  rw [View.flashed, ← hclosed]
  exact htry _

/-- A member whose request can be built is left in flight. -/
theorem view_executeMember_launched (request : Request)
    (hidle : s.isSending address = false)
    (hready : request.command = .volumeCommand → s.statics.volumeUseCustomData = true) :
    (executeCommandImmediatelyWith tryStart s address request true).view starting =
      (s.view starting).launched address request true request.command.timeoutMs := by
  have hpacket : request.command.buildRequest (s.openOperation address request true).statics address
      ≠ [] := by
    rw [ne_eq, PPBCommand.buildRequest_eq_nil_iff, statics_ready]
    rintro ⟨hvolume, hnot⟩
    rw [hready hvolume] at hnot
    cases hnot
  simp only [executeCommandImmediatelyWith, hidle, Bool.false_eq_true, if_false, hpacket,
    Bool.not_true, view_armTimer, view_openOperation]
  rfl

/-- A VOLUME without image data is opened and completed at once, with a failure. -/
theorem executeCommandImmediatelyWith_unbuildable (origin : Origin) (suppressSend : Bool)
    (hidle : s.isSending address = false) (hready : s.statics.volumeUseCustomData = false) :
    executeCommandImmediatelyWith tryStart s address { origin, command := .volumeCommand }
        suppressSend =
      completeOperationWith tryStart
        (s.openOperation address { origin, command := .volumeCommand } suppressSend) address false
        "Не удалось сформировать пакет команды" := by
  have hpacket : PPBCommand.buildRequest (s.openOperation address
      { origin, command := .volumeCommand } suppressSend).statics address .volumeCommand = [] := by
    rw [PPBCommand.buildRequest_eq_nil_iff, statics_ready]
    exact ⟨rfl, hready⟩
  simp only [executeCommandImmediatelyWith, hidle, Bool.false_eq_true, if_false, hpacket, if_true]

/-- A member whose request cannot be built fails; one whose address is taken is skipped. -/
theorem view_executeMember_fails (groupId : Nat)
    (htry : ∀ t : Engine, Starts (t.view starting) ((tryStart t).view starting))
    (hready : s.statics.volumeUseCustomData = false) :
    Starts (s.view ((groupId, address) :: starting))
      ((executeCommandImmediatelyWith tryStart s address
        { origin := .group groupId, command := .volumeCommand } true).view starting) := by
  cases hsending : s.isSending address with
  | true =>
    simp only [executeCommandImmediatelyWith, hsending, if_true]
    exact .single (.memberSkipped rfl ((view_sending_iff _).mpr hsending))
  | false =>
    rw [executeCommandImmediatelyWith_unbuildable _ _ _ _ hsending hready]
    refine .head (.memberFails _ rfl ?_)
      (view_flash starting address false _ (view_openOperation ..) htry)
    rw [ne_eq, view_sending_iff, hsending]
    simp

end

/-! Groups. -/

theorem canStartGroupCommand_iff (s : Engine) (starting : List (Nat × UInt16)) (mask : UInt16) :
    s.canStartGroupCommand mask = true ↔ mask ≠ 0 ∧ (s.view starting).canStart mask := by
  simp only [canStartGroupCommand, View.canStart, ne_eq, view_sending_iff, Bool.and_eq_true,
    List.all_eq_true, Bool.not_eq_true', bne_iff_ne, Bool.not_eq_true]
  exact and_comm

section
variable {tryStart : Engine → Engine}

/-- The member loop when the requests can be built. -/
theorem view_startMembersWith_whole (request : Request) (starting : List (Nat × UInt16))
    (members : List UInt16) (s : Engine) (hnodup : members.Nodup)
    (hidle : ∀ address ∈ members, s.isSending address = false)
    (hready : request.command = .volumeCommand → s.statics.volumeUseCustomData = true) :
    (startMembersWith tryStart request s members).view starting =
      (s.view starting).membersLaunched request request.command.timeoutMs members := by
  induction members generalizing s with
  | nil => rfl
  | cons address rest ih =>
    obtain ⟨hnotMem, hnodup⟩ := List.nodup_cons.mp hnodup
    have hfirst := @view_executeMember_launched tryStart s starting address request
      (hidle address (by simp)) hready
    rw [startMembersWith, ih _ hnodup ?_ ?_, hfirst, View.membersLaunched_cons]
    · intro b hb
      -- the first member has taken its own address only
      have hne : b ≠ address := fun heq => hnotMem (heq ▸ hb)
      have hb := hidle b (by simp [hb])
      rw [← Bool.not_eq_true, ← view_sending_iff starting] at hb ⊢
      rwa [hfirst, View.launched_state, Function.update_of_ne hne]
    · intro hvolume
      have := congrArg View.imageReady hfirst
      exact this.trans (hready hvolume)

variable (htry : ∀ (t : Engine) (starting : List (Nat × UInt16)),
  Starts (t.view starting) ((tryStart t).view starting))

include htry

/-- The member loop when they cannot: each member fails or is skipped in its turn. -/
theorem view_startMembersWith_fails (groupId : Nat) (starting : List (Nat × UInt16))
    (members : List UInt16) (s : Engine) (hready : s.statics.volumeUseCustomData = false) :
    Starts (s.view (members.map (groupId, ·) ++ starting))
      ((startMembersWith tryStart { origin := .group groupId, command := .volumeCommand } s
        members).view starting) := by
  induction members generalizing s with
  | nil => exact .refl
  | cons address rest ih =>
    have hfirst := view_executeMember_fails s (rest.map (groupId, ·) ++ starting) address groupId
      (fun t => htry t _) hready
    exact hfirst.trans (ih _ ((Starts.imageReady_eq hfirst).trans hready))

/-- A group that can start becomes active, and its members start. -/
theorem view_startGroupCommandWith (s : Engine) (starting : List (Nat × UInt16)) (groupId : Nat)
    (cmd : TechCommand) (mask : UInt16) (data : Bytes) (hknown : (create cmd).isSome)
    (hcan : s.canStartGroupCommand mask = true) :
    (startGroupCommandWith tryStart s groupId cmd mask data).2 = true ∧
      ∃ v, Begins (s.view starting) groupId mask v ∧
        Starts v ((startGroupCommandWith tryStart s groupId cmd mask data).1.view starting) := by
  obtain ⟨command, hcreate⟩ := Option.isSome_iff_exists.mp hknown
  obtain ⟨hmask, hidle⟩ := (s.canStartGroupCommand_iff starting mask).mp hcan
  have hmembers := maskAddresses_ne_nil hmask
  simp only [startGroupCommandWith, hcan, Bool.not_true, Bool.false_eq_true, if_false, hcreate,
    hmembers, true_and, view_sendPacketInternal]
  -- the engine after `m_groupOperations[groupId] = group`
  generalize hbegun : Engine.emit _ (.groupStarted groupId mask) = begun
  have hview (starting : List (Nat × UInt16)) :
      begun.view starting = (s.view starting).groupBegun groupId mask := by
    rw [← hbegun, view_emit]
    rfl
  have hbegunIdle : ∀ address ∈ maskAddresses mask, begun.isSending address = false := by
    intro address hmem
    rw [← Bool.not_eq_true, ← view_sending_iff starting, hview]
    exact hidle address hmem
  have hbegunReady : begun.statics.volumeUseCustomData = s.statics.volumeUseCustomData :=
    congrArg View.imageReady (hview starting)
  by_cases hready : command = .volumeCommand → s.statics.volumeUseCustomData = true
  · refine ⟨_, .whole command command.timeoutMs hmask hidle hready, ?_⟩
    rw [view_startMembersWith_whole _ starting _ begun (maskAddresses_nodup mask) hbegunIdle
      (by rwa [hbegunReady]), hview]
  -- a VOLUME without image data: the first member fails before the others have their turn
  · obtain ⟨rfl, hnotReady⟩ := Classical.not_imp.mp hready
    rw [Bool.not_eq_true] at hnotReady
    obtain ⟨address, rest, hcons⟩ := List.exists_cons_of_ne_nil hmembers
    refine ⟨_, .firstFails "Не удалось сформировать пакет команды" hnotReady hidle hcons, ?_⟩
    rw [hcons] at hbegunIdle ⊢
    rw [startMembersWith, executeCommandImmediatelyWith_unbuildable _ _ _ _
      (hbegunIdle address (by simp)) (hbegunReady.trans hnotReady)]
    have hopened := begun.view_openOperation (rest.map (groupId, ·) ++ starting) address
      { origin := .group groupId, command := .volumeCommand } true
    rw [hview] at hopened
    have hfirst := view_flash _ address false "Не удалось сформировать пакет команды" hopened
      fun t => htry t _
    refine hfirst.trans (view_startMembersWith_fails htry groupId starting rest _ ?_)
    exact (Starts.imageReady_eq hfirst).trans hnotReady

/-- A waiting group starts if it can, and whatever that sets off. -/
theorem view_tryStartPendingGroupCommandsWith (s : Engine) (starting : List (Nat × UInt16)) :
    Starts (s.view starting) ((tryStartPendingGroupCommandsWith tryStart s).view starting) := by
  unfold tryStartPendingGroupCommandsWith
  split
  next => exact .refl
  next front rest hwaiting =>
    split
    next => exact .refl
    next hcan =>
      rw [Bool.not_eq_true', Bool.not_eq_false] at hcan
      obtain ⟨hstarted, v, hbegins, hstarts⟩ := view_startGroupCommandWith htry
        { s with pendingGroupCommands := rest } starting front.groupId front.command front.mask
        front.data front.known hcan
      simp only [hstarted, if_true]
      exact .head (.waitingGroup hwaiting hbegins) hstarts

end

theorem view_tryStartNested (n : Nat) (s : Engine) (starting : List (Nat × UInt16)) :
    Starts (s.view starting) ((tryStartNested n s).view starting) := by
  induction n generalizing s starting with
  | zero => exact .refl
  | succ n ih => exact view_tryStartPendingGroupCommandsWith ih s starting

theorem view_tryStartPendingGroupCommands (s : Engine) (starting : List (Nat × UInt16)) :
    Starts (s.view starting) ((tryStartPendingGroupCommands s).view starting) :=
  view_tryStartNested _ s starting

/-! The depth of nesting. Every nested start shortens the queue of waiting groups, so
more depth than the queue is long changes nothing. -/

theorem pending_tryStartNested (n : Nat) (s : Engine) :
    (tryStartNested n s).pendingGroupCommands.length ≤ s.pendingGroupCommands.length :=
  (Starts.waiting_suffix (view_tryStartNested n s [])).length_le

section
variable {f g : Engine → Engine} {k : Nat}
  (hagree : ∀ t : Engine, t.pendingGroupCommands.length ≤ k → f t = g t)
  (hshrink : ∀ t : Engine, (f t).pendingGroupCommands.length ≤ t.pendingGroupCommands.length)

include hagree hshrink

theorem completeOperationWith_congr {s : Engine} (address : UInt16) (success : Bool)
    (message : String) (hs : s.pendingGroupCommands.length ≤ k) :
    completeOperationWith f s address success message =
        completeOperationWith g s address success message ∧
      (completeOperationWith f s address success message).pendingGroupCommands.length ≤ k := by
  unfold completeOperationWith
  cases s.findContext address with
  | none => exact ⟨rfl, hs⟩
  | some c =>
    cases hcommand : c.currentCommand with
    | none =>
      simp only [hcommand, ite_self, true_and]
      exact hs
    | some request =>
      -- nothing leaves the queue before the nested call
      have hclosed : (s.closeOperation address c request success message).pendingGroupCommands =
          s.pendingGroupCommands :=
        congrArg View.waiting (s.view_closeOperation [] address c request success message)
      have heq := hagree (s.closeOperation address c request success message) (by rwa [hclosed])
      have hle := hshrink (s.closeOperation address c request success message)
      rw [hclosed] at hle
      simp only [hcommand, ← heq, true_and]
      split
      · exact hs
      · split
        · exact hle.trans hs
        · exact hle.trans hs

theorem executeMember_congr {s : Engine} (address : UInt16) (request : Request)
    (hs : s.pendingGroupCommands.length ≤ k) :
    executeCommandImmediatelyWith f s address request true =
        executeCommandImmediatelyWith g s address request true ∧
      (executeCommandImmediatelyWith f s address request true).pendingGroupCommands.length ≤ k := by
  have hopened : (s.openOperation address request true).pendingGroupCommands =
      s.pendingGroupCommands :=
    congrArg View.waiting (s.view_openOperation [] address request true)
  have harmed (t : Engine) (ms : Nat) :
      (t.armTimer address ms).pendingGroupCommands = t.pendingGroupCommands :=
    congrArg View.waiting (t.view_armTimer [] address ms)
  obtain ⟨hcongr, hle⟩ := completeOperationWith_congr hagree hshrink (s := s.openOperation address
    request true) address false "Не удалось сформировать пакет команды" (by rwa [hopened])
  simp only [executeCommandImmediatelyWith, Bool.not_true, Bool.false_eq_true, if_false, ← hcongr,
    true_and]
  split
  · exact hs
  · split
    · exact hle
    · rwa [harmed, hopened]

theorem startMembersWith_congr (request : Request) (members : List UInt16) (s : Engine)
    (hs : s.pendingGroupCommands.length ≤ k) :
    startMembersWith f request s members = startMembersWith g request s members := by
  induction members generalizing s with
  | nil => rfl
  | cons address rest ih =>
    obtain ⟨hcongr, hle⟩ := executeMember_congr hagree hshrink address request hs
    rw [startMembersWith, startMembersWith, ← hcongr, ih _ hle]

theorem tryStartPendingGroupCommandsWith_congr {s : Engine}
    (hs : s.pendingGroupCommands.length ≤ k + 1) :
    tryStartPendingGroupCommandsWith f s = tryStartPendingGroupCommandsWith g s := by
  unfold tryStartPendingGroupCommandsWith
  cases hwaiting : s.pendingGroupCommands with
  | nil => rfl
  | cons front rest =>
    have hrest : rest.length ≤ k := by simpa [hwaiting] using hs
    have hstart : startGroupCommandWith f { s with pendingGroupCommands := rest } front.groupId
          front.command front.mask front.data =
        startGroupCommandWith g { s with pendingGroupCommands := rest } front.groupId
          front.command front.mask front.data := by
      unfold startGroupCommandWith
      cases create front.command with
      | none => rfl
      | some command =>
        simp only
        rw [startMembersWith_congr hagree hshrink _ _ _ ?_]
        exact hrest
    simp only [hstart]

end

theorem tryStartNested_stable (n m : Nat) (s : Engine) (hn : s.pendingGroupCommands.length ≤ n)
    (hm : s.pendingGroupCommands.length ≤ m) : tryStartNested n s = tryStartNested m s := by
  have hempty (m : Nat) (s : Engine) (h : s.pendingGroupCommands.length ≤ 0) :
      tryStartNested m s = s := by
    cases m with
    | zero => rfl
    | succ m =>
      have hnil := List.length_eq_zero_iff.mp (Nat.le_zero.mp h)
      simp only [tryStartNested, tryStartPendingGroupCommandsWith, hnil]
  induction n generalizing m s with
  | zero => rw [hempty m s hn, hempty 0 s hn]
  | succ n ih =>
    cases m with
    | zero => rw [hempty (n + 1) s hm, hempty 0 s hm]
    | succ m =>
      -- the nested calls see a queue shorter by one
      refine tryStartPendingGroupCommandsWith_congr (k := min n m) (fun t ht => ?_)
        (pending_tryStartNested n) (by omega)
      exact ih m t (by omega) (by omega)

/-- **The source's own equation.** `tryStartPendingGroupCommands` calls itself, through
`startGroupCommand`, `executeCommandImmediately` and `completeOperation`. -/
theorem tryStartPendingGroupCommands_eq (s : Engine) :
    tryStartPendingGroupCommands s =
      tryStartPendingGroupCommandsWith tryStartPendingGroupCommands s := by
  have hagree : ∀ t : Engine, t.pendingGroupCommands.length ≤ s.pendingGroupCommands.length →
      tryStartNested s.pendingGroupCommands.length t = tryStartPendingGroupCommands t := by
    intro t ht
    exact tryStartNested_stable _ _ t ht le_rfl
  calc tryStartPendingGroupCommands s
    _ = tryStartNested (s.pendingGroupCommands.length + 1) s :=
      tryStartNested_stable _ _ s le_rfl (Nat.le_succ _)
    _ = tryStartPendingGroupCommandsWith (tryStartNested s.pendingGroupCommands.length) s := rfl
    _ = tryStartPendingGroupCommandsWith tryStartPendingGroupCommands s :=
      tryStartPendingGroupCommandsWith_congr hagree (pending_tryStartNested _) (Nat.le_succ _)

end Engine

end PPB
