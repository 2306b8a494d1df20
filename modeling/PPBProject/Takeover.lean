import PPBProject.Causality

/- Whose commands nested starts put in flight: those of the groups they take off the queue
   of waiting groups, each at an address of its group. So what is in flight at an address
   after a completion there belongs to a group that has left the queue in the meantime. -/
namespace PPB

namespace Engine

/-- What is in flight in `t` was in flight in `s`, or was started for one of the groups. -/
def Fills (groups : List PendingGroupCommand) (s t : Engine) : Prop :=
  ∀ address c request, InFlight t address c request → (∃ c', InFlight s address c' request) ∨
    ∃ g ∈ groups, address ∈ maskAddresses g.mask ∧ create g.command = some request.command

/-- From `s` to `t` groups leave the queue of waiting groups from the front, and commands are started
for these groups and for `groups` only. -/
def TakenFrom (groups : List PendingGroupCommand) (s t : Engine) : Prop :=
  ∃ popped, s.pendingGroupCommands = popped ++ t.pendingGroupCommands ∧
    Fills (groups ++ popped) s t

section
variable {s t u : Engine} {groups : List PendingGroupCommand} {address : UInt16}

theorem Fills.refl (groups : List PendingGroupCommand) (s : Engine) : Fills groups s s :=
  fun _ c _ hflight => .inl ⟨c, hflight⟩

theorem Fills.trans {groups' : List PendingGroupCommand} (h : Fills groups s t)
    (h' : Fills groups' t u) : Fills (groups ++ groups') s u := by
  intro a c request hflight
  rcases h' a c request hflight with ⟨c', hmid⟩ | ⟨g, hg, hgroup⟩
  · rcases h a c' request hmid with hold | ⟨g, hg, hgroup⟩
    · exact .inl hold
    · exact .inr ⟨g, List.mem_append_left _ hg, hgroup⟩
  · exact .inr ⟨g, List.mem_append_right _ hg, hgroup⟩

theorem Fills.mono {groups' : List PendingGroupCommand} (h : Fills groups s t)
    (hsub : ∀ g ∈ groups, g ∈ groups') : Fills groups' s t := by
  intro a c request hflight
  refine (h a c request hflight).imp_right ?_
  rintro ⟨g, hg, hgroup⟩
  exact ⟨g, hsub g hg, hgroup⟩

/-- Contexts are all that counts. -/
theorem Fills.congr (h : Fills groups s t) (hcontext : u.findContext = t.findContext) :
    Fills groups s u := by
  intro a c request hflight
  exact h a c request ⟨hcontext ▸ hflight.found, hflight.uncompleted, hflight.command⟩

theorem TakenFrom.congr (h : TakenFrom groups s t) (hcontext : u.findContext = t.findContext)
    (hwaiting : u.pendingGroupCommands = t.pendingGroupCommands) : TakenFrom groups s u := by
  obtain ⟨popped, hpending, hfills⟩ := h
  exact ⟨popped, hwaiting ▸ hpending, hfills.congr hcontext⟩

theorem TakenFrom.view (h : TakenFrom groups s t) (hview : u.view [] = t.view []) :
    TakenFrom groups s u :=
  h.congr (congrArg View.context hview) (congrArg View.waiting hview)

theorem TakenFrom.refl (groups : List PendingGroupCommand) (s : Engine) : TakenFrom groups s s :=
  ⟨[], rfl, .refl _ s⟩

theorem TakenFrom.trans (h : TakenFrom groups s t) (h' : TakenFrom groups t u) :
    TakenFrom groups s u := by
  obtain ⟨popped, hpending, hfills⟩ := h
  obtain ⟨popped', hpending', hfills'⟩ := h'
  refine ⟨popped ++ popped', by rw [hpending, hpending', List.append_assoc], ?_⟩
  refine (hfills.trans hfills').mono fun g hg => ?_
  simp only [List.mem_append] at hg ⊢
  tauto

/-- An update that fills one address, for a group of the list, and takes no group off the queue. -/
theorem takenFrom_update {c : PPBContext}
    (hcontext : t.findContext = Function.update s.findContext address (some c))
    (hpending : t.pendingGroupCommands = s.pendingGroupCommands)
    (hgroup : ∀ request, c.operationCompleted = false → c.currentCommand = some request →
      ∃ g ∈ groups, address ∈ maskAddresses g.mask ∧ create g.command = some request.command) :
    TakenFrom groups s t := by
  refine ⟨[], hpending.symm, fun a c' request hflight => ?_⟩
  rw [List.append_nil]
  have hfound := hflight.found
  rw [hcontext] at hfound
  rcases eq_or_ne a address with rfl | hne
  · rw [Function.update_self] at hfound
    obtain rfl := Option.some.inj hfound
    exact .inr (hgroup request hflight.uncompleted hflight.command)
  · rw [Function.update_of_ne hne] at hfound
    exact .inl ⟨c', hfound, hflight.uncompleted, hflight.command⟩

/-- An operation closes: nothing is in flight at its address. -/
theorem takenFrom_closeOperation (s : Engine) (address : UInt16) (c : PPBContext)
    (request : Request) (success : Bool) (message : String) :
    TakenFrom [] s (s.closeOperation address c request success message) ∧
      ∀ c' request', ¬ InFlight (s.closeOperation address c request success message) address c'
        request' := by
  have hview := s.view_closeOperation [] address c request success message
  generalize s.closeOperation address c request success message = t at hview
  have hcontext : t.findContext = Function.update s.findContext address _ :=
    congrArg View.context hview
  have hpending : t.pendingGroupCommands = s.pendingGroupCommands := congrArg View.waiting hview
  have hclosed (c' : PPBContext) (hfind : t.findContext address = some c') :
      c'.operationCompleted = true := by
    rw [hcontext, Function.update_self] at hfind
    split at hfind
    · cases hfind
    · obtain rfl := Option.some.inj hfind
      rfl
  refine ⟨⟨[], hpending.symm, fun a c' request' hflight => ?_⟩, fun c' request' hflight => ?_⟩
  · rcases eq_or_ne a address with rfl | hne
    · have hopen := hflight.uncompleted
      rw [hclosed c' hflight.found] at hopen
      cases hopen
    · refine .inl ⟨c', ?_, hflight.uncompleted, hflight.command⟩
      rw [← hflight.found, hcontext, Function.update_of_ne hne]
  · have hopen := hflight.uncompleted
    rw [hclosed c' hflight.found] at hopen
    cases hopen

end

/-! Each function of the core, if the nested one does as it should. -/

section
variable {tryStart : Engine → Engine} (htry : ∀ t : Engine, TakenFrom [] t (tryStart t))

theorem TakenFrom.mono {groups groups' : List PendingGroupCommand} {s t : Engine}
    (h : TakenFrom groups s t) (hsub : ∀ g ∈ groups, g ∈ groups') : TakenFrom groups' s t := by
  obtain ⟨popped, hpending, hfills⟩ := h
  refine ⟨popped, hpending, hfills.mono fun g hg => ?_⟩
  exact List.mem_append.mpr ((List.mem_append.mp hg).imp_left (hsub g))

include htry

theorem takenFrom_completeOperationWith (s : Engine) (address : UInt16) (success : Bool)
    (message : String) :
    TakenFrom [] s (completeOperationWith tryStart s address success message) := by
  cases hcommand : s.commandInFlight address with
  | none =>
    have hsame : completeOperationWith tryStart s address success message = s := by
      unfold completeOperationWith
      cases hfind : s.findContext address with
      | none => rfl
      | some c =>
        cases hopen : c.operationCompleted <;> cases hc : c.currentCommand <;>
          simp_all [commandInFlight, PPBContext.inFlight, Option.filter]
    rw [hsame]
    exact .refl _ s
  | some request =>
    obtain ⟨c, hflight⟩ := commandInFlight_eq_some_iff.mp hcommand
    have hdone := @view_completeOperationWith tryStart s [] address _ _ success message
      hflight.found hflight.uncompleted hflight.command
    obtain ⟨hclosed, -⟩ := s.takenFrom_closeOperation address c request success message
    exact (hclosed.trans (htry _)).view hdone

/-- A member is left in flight, is skipped, or fails and lets the next group try. -/
theorem takenFrom_executeMember (s : Engine) {address : UInt16} {request : Request}
    {g : PendingGroupCommand} (hmem : address ∈ maskAddresses g.mask)
    (hcreate : create g.command = some request.command) :
    TakenFrom [g] s (executeCommandImmediatelyWith tryStart s address request true) := by
  unfold executeCommandImmediatelyWith
  split
  · exact .refl _ s
  · have hopened := s.view_openOperation [] address request true
    have hopens : TakenFrom [g] s (s.openOperation address request true) := by
      refine takenFrom_update (congrArg View.context hopened) (congrArg View.waiting hopened) ?_
      rintro request' - hcommand
      obtain rfl := Option.some.inj hcommand
      exact ⟨g, List.mem_singleton_self g, hmem, hcreate⟩
    dsimp only
    split
    · have hfails := takenFrom_completeOperationWith htry (s.openOperation address request true)
        address false "Не удалось сформировать пакет команды"
      exact hopens.trans (hfails.mono (by simp))
    · -- one datagram is sent for all members, so only the timer is armed here
      rw [Bool.not_true, if_neg Bool.false_ne_true]
      have harmed := view_armTimer (s.openOperation address request true) [] address
        request.command.timeoutMs
      rw [hopened] at harmed
      refine @takenFrom_update s _ [g] address ((s.view []).launchedContext address request true
        request.command.timeoutMs) ?_ (congrArg View.waiting harmed) ?_
      · refine (congrArg View.context harmed).trans ?_
        exact (s.view []).launched_context address request true _
      · rintro request' - hcommand
        obtain rfl := Option.some.inj hcommand
        exact ⟨g, List.mem_singleton_self g, hmem, hcreate⟩

theorem takenFrom_startMembersWith {request : Request} {g : PendingGroupCommand}
    (hcreate : create g.command = some request.command) (members : List UInt16) (s : Engine)
    (hmembers : ∀ address ∈ members, address ∈ maskAddresses g.mask) :
    TakenFrom [g] s (startMembersWith tryStart request s members) := by
  induction members generalizing s with
  | nil => exact .refl _ s
  | cons address rest ih =>
    have hfirst := takenFrom_executeMember htry s (hmembers address (by simp)) hcreate
    exact hfirst.trans (ih _ fun other hmem => hmembers other (by simp [hmem]))

theorem takenFrom_startGroupCommandWith (s : Engine) (g : PendingGroupCommand) :
    TakenFrom [g] s (startGroupCommandWith tryStart s g.groupId g.command g.mask g.data).1 := by
  unfold startGroupCommandWith
  split
  · exact .refl _ s
  · dsimp only
    split
    · exact .refl _ s
    next command hcreate =>
      split
      · exact .refl _ s
      · generalize hbegun : Engine.emit _ (.groupStarted g.groupId g.mask) = begun
        have hbegins : TakenFrom [g] s begun := by
          refine ⟨[], ?_, Fills.congr (.refl _ s) ?_⟩
          · rw [← hbegun]
            rfl
          · rw [← hbegun]
            rfl
        have hmembers := @takenFrom_startMembersWith _ htry
          { origin := .group g.groupId, command } g hcreate (maskAddresses g.mask) begun
          fun _ hmem => hmem
        exact (hbegins.trans hmembers).view (view_sendPacketInternal ..)

theorem takenFrom_tryStartPendingGroupCommandsWith (s : Engine) :
    TakenFrom [] s (tryStartPendingGroupCommandsWith tryStart s) := by
  unfold tryStartPendingGroupCommandsWith
  split
  next => exact .refl _ s
  next front rest hwaiting =>
    split
    next => exact .refl _ s
    next =>
      obtain ⟨popped, hpending, hfills⟩ :=
        takenFrom_startGroupCommandWith htry { s with pendingGroupCommands := rest } front
      -- the front group has left the queue before its members start
      have htaken : TakenFrom [] s (startGroupCommandWith tryStart { s with
          pendingGroupCommands := rest } front.groupId front.command front.mask front.data).1 := by
        refine ⟨front :: popped, ?_, ?_⟩
        · rw [hwaiting, List.cons_append, ← hpending]
        · intro a c request hflight
          refine (hfills a c request hflight).imp_left ?_
          rintro ⟨c', hold⟩
          exact ⟨c', hold.found, hold.uncompleted, hold.command⟩
      dsimp only
      split
      · exact htaken
      · exact htaken.congr rfl rfl

end

theorem takenFrom_tryStartNested (n : Nat) (s : Engine) : TakenFrom [] s (tryStartNested n s) := by
  induction n generalizing s with
  | zero => exact .refl _ s
  | succ n ih => exact takenFrom_tryStartPendingGroupCommandsWith ih s

/-- **What takes the place of a completed operation** is a command of a group that has left the queue
meanwhile, and that has this address. -/
theorem takeover {s : Engine} {address : UInt16} {c c' : PPBContext} {request request' : Request}
    {success : Bool} {message : String} (hflight : InFlight s address c request)
    (hafter : InFlight (s.completeOperation address success message) address c' request') :
    ∃ popped, s.pendingGroupCommands =
        popped ++ (s.completeOperation address success message).pendingGroupCommands ∧
      ∃ g ∈ popped, address ∈ maskAddresses g.mask ∧ create g.command = some request'.command := by
  have hdone := @view_completeOperationWith tryStartPendingGroupCommands s [] address _ _ success
    message hflight.found hflight.uncompleted hflight.command
  obtain ⟨hclosed, hgone⟩ := s.takenFrom_closeOperation address c request success message
  have hpending := congrArg View.waiting (s.view_closeOperation [] address c request success message)
  generalize s.closeOperation address c request success message = closed
    at hdone hclosed hgone hpending
  obtain ⟨popped, hpopped, hfills⟩ :=
    (takenFrom_tryStartNested closed.pendingGroupCommands.length closed).view hdone
  have hpending : closed.pendingGroupCommands = s.pendingGroupCommands := hpending
  refine ⟨popped, hpending ▸ hpopped, ?_⟩
  rcases hfills address c' request' hafter with ⟨c'', hstill⟩ | hgroup
  · exact absurd hstill (hgone c'' request')
  · exact hgroup

end Engine

end PPB
