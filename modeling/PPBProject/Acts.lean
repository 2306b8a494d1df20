import PPBProject.View

/- Moves as far as operations are concerned. An invariant that speaks only of states,
   contexts and the records of operations is proved of the four `Act`s, and so holds
   through every move but `disconnect`. -/
namespace PPB

/-- `h'` adds to `h` entries that neither start nor complete an operation. -/
def SameOperations : List Output → List Output → Prop :=
  Machine.Extends fun o => o.startedOp = none ∧ o.completedOp = none

/-- A move as far as operations are concerned: they start and stay in flight, start and
complete at once, or complete; everything else leaves them alone. -/
inductive Act (v : View) : View → Prop where
  | other {v' : View} : v'.state = v.state → v'.context = v.context → v'.busy = v.busy →
    SameOperations v.history v'.history → Act v v'
  | launched {address : UInt16} (request : Request) (suppressSend : Bool) (ms : Nat) :
    v.state address ≠ .sendingCommand → Act v (v.launched address request suppressSend ms)
  | flashed {address : UInt16} (request : Request) (suppressSend success : Bool)
      (message : String) :
    v.state address ≠ .sendingCommand →
    Act v (v.flashed address request suppressSend success message)
  | closed {address : UInt16} {c : PPBContext} {request : Request} (success : Bool)
      (message : String) (parsedSuccess : Bool) (parsedMessage : String)
      (parsedData : Option ParsedData) :
    v.context address = some c → c.operationCompleted = false → c.currentCommand = some request →
    Act v (v.closed address (c.withResults parsedSuccess parsedMessage parsedData) request success
      message)

abbrev Acts : View → View → Prop := Relation.ReflTransGen Act

section
variable {v v' : View}

theorem Act.extend {new : List Output} (hstate : v'.state = v.state)
    (hcontext : v'.context = v.context) (hbusy : v'.busy = v.busy)
    (hhistory : v'.history = v.history ++ new)
    (hnew : ∀ o ∈ new, o.startedOp = none ∧ o.completedOp = none) : Act v v' :=
  .other hstate hcontext hbusy ⟨new, hhistory, hnew⟩

theorem acts_membersLaunched (request : Request) (ms : Nat) {addresses : List UInt16}
    (hnodup : addresses.Nodup) (hidle : ∀ b ∈ addresses, v.state b ≠ .sendingCommand) :
    Acts v (v.membersLaunched request ms addresses) := by
  induction addresses generalizing v with
  | nil => exact .refl
  | cons address rest ih =>
    obtain ⟨hnotMem, hnodup⟩ := List.nodup_cons.mp hnodup
    refine .head (.launched request true ms (hidle address (by simp))) (ih hnodup fun b hb => ?_)
    have hne : b ≠ address := fun heq => hnotMem (heq ▸ hb)
    rw [View.launched_state, Function.update_of_ne hne]
    exact hidle b (by simp [hb])

theorem Takes.act {address : UInt16} {request : Request} (h : Takes v address request v') :
    Act v v' := by
  cases h with
  | fresh command => exact .extend rfl rfl rfl rfl (by simp [Output.startedOp, Output.completedOp])
  | queued => exact .other rfl rfl rfl (Machine.Extends.refl _)

theorem Takes.state_eq {address : UInt16} {request : Request} (h : Takes v address request v') :
    v'.state = v.state := by
  cases h <;> rfl

theorem Begins.acts {groupId : Nat} {mask : UInt16} (h : Begins v groupId mask v') : Acts v v' := by
  have hbegun (w : View) : Act w (w.groupBegun groupId mask) :=
    .extend rfl rfl rfl rfl (by simp [Output.startedOp, Output.completedOp])
  cases h with
  | whole command ms _ hidle =>
    exact .head (hbegun v) (acts_membersLaunched _ ms (maskAddresses_nodup mask) hidle)
  | @firstFails message address rest _ hidle hcons =>
    have hstarting : Act v { v with starting := rest.map (groupId, ·) ++ v.starting } :=
      .other rfl rfl rfl (Machine.Extends.refl _)
    exact .head hstarting (.head (hbegun _)
      (.single (.flashed _ true false message (hidle address (by simp [hcons])))))

theorem StartMove.acts (h : StartMove v v') : Acts v v' := by
  cases h with
  | @waitingGroup _ rest _ _ hbegins =>
    have hpopped : Act v { v with waiting := rest } := .other rfl rfl rfl (Machine.Extends.refl _)
    exact .head hpopped hbegins.acts
  | @memberFails message _ _ rest _ hidle =>
    have hturn : Act v { v with starting := rest } := .other rfl rfl rfl (Machine.Extends.refl _)
    exact .head hturn (.single (.flashed _ true false message hidle))
  | memberSkipped => exact .single (.other rfl rfl rfl (Machine.Extends.refl _))

/-- Every move but `disconnect` is a sequence of acts. -/
theorem Move.acts {kind : MoveKind} (h : Move v kind v') (hkind : kind ≠ .disconnect) :
    Acts v v' := by
  cases h with
  | start hstart => exact hstart.acts
  | enqueue =>
    exact .single (.extend rfl rfl rfl rfl (by simp [Output.startedOp, Output.completedOp]))
  | launch ms htakes hidle =>
    exact .head htakes.act (.single (.launched _ false ms (htakes.state_eq ▸ hidle)))
  | flash success message htakes hidle =>
    exact .head htakes.act (.single (.flashed _ false success message (htakes.state_eq ▸ hidle)))
  | finish success message parsedSuccess parsedMessage parsedData hfind hopen hcommand =>
    exact .single (.closed success message parsedSuccess parsedMessage parsedData hfind hopen
      hcommand)
  | acceptGroup _ hbegins =>
    refine .head ?_ hbegins.acts
    exact .extend rfl rfl rfl rfl (by simp [Output.startedOp, Output.completedOp])
  | queueGroup =>
    exact .single (.extend rfl rfl rfl rfl (by simp [Output.startedOp, Output.completedOp]))
  | image => exact .single (.other rfl rfl rfl (Machine.Extends.refl _))
  | fuReply =>
    exact .single (.extend rfl rfl rfl rfl (by simp [Output.startedOp, Output.completedOp]))
  | clear =>
    exact .single (.extend rfl rfl rfl rfl (by simp [Output.startedOp, Output.completedOp]))
  | disconnect => exact absurd rfl hkind

end

end PPB
