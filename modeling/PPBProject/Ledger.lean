import Mathlib.Data.List.Count
import PPBProject.Sound

/- No command is lost or duplicated. Three accounts are kept, each over the whole
   history:

     `Balanced` — an operation started is in flight or reported, and nothing starts
       where something is in flight;
     `Booked`   — a single command accepted is waiting, started, removed, or dropped;
     `Unique`   — no operation starts twice.

   A `disconnect` drops the queues without a record and leaves operations in flight
   behind, so the accounts close in the runs without one. What holds in every run is that
   no operation is reported twice. -/
namespace PPB

/-- The operation in flight at an address. -/
def PPBContext.operation (c : PPBContext) (address : UInt16) : Option Operation :=
  if c.operationCompleted then none else c.currentCommand.map (·.operation address)

def View.flying (v : View) (address : UInt16) : Option Operation :=
  (v.context address).bind (·.operation address)

/-- At the record of a start nothing was in flight at that address. -/
def StartsOnFree (pre : List Output) (x : Output) : Prop :=
  ∀ op ∈ x.startedOp, ∀ other : Operation, other.address = op.address →
    (starts pre).count other = (completions pre).count other

structure View.Balanced (v : View) : Prop where
  count_starts : ∀ op, (starts v.history).count op =
    (completions v.history).count op + if v.flying op.address = some op then 1 else 0
  startsOnFree : Machine.Chronicle StartsOnFree v.history

namespace View

section
variable {v v' : View} {address : UInt16} {request : Request} {suppressSend success : Bool}
  {message : String} {ms : Nat}

theorem flying_opened :
    (v.opened address request suppressSend).flying =
      Function.update v.flying address (some (request.operation address)) := by
  funext b
  rcases eq_or_ne b address with rfl | hne
  · simp [flying, PPBContext.operation, openedContext, PPBContext.reset]
  · simp [flying, Function.update_of_ne hne]

theorem flying_armed : (v.armed address ms).flying = v.flying := by
  funext b
  rcases eq_or_ne b address with rfl | hne
  · simp only [flying, armed_context, Function.update_self, Option.bind_map]
    rfl
  · simp [flying, Function.update_of_ne hne]

theorem flying_completed {old : Option PPBContext}
    (hold : ∀ c, old = some c → c.operationCompleted = true)
    (hcontext : v'.context = Function.update v.context address old) :
    v'.flying = Function.update v.flying address none := by
  funext b
  rcases eq_or_ne b address with rfl | hne
  · rw [flying, hcontext, Function.update_self, Function.update_self]
    cases old with
    | none => rfl
    | some c => simp [PPBContext.operation, hold c rfl]
  · rw [flying, hcontext, Function.update_of_ne hne, Function.update_of_ne hne, flying]

theorem flying_closed {c : PPBContext} :
    (v.closed address c request success message).flying = Function.update v.flying address none := by
  refine flying_completed (fun c' hc' => ?_) (v.closed_context ..)
  split at hc'
  · cases hc'
  · exact Option.some.inj hc' ▸ rfl

/-- Where the state map does not say SendingCommand, nothing is in flight. -/
theorem Attended.flying_eq_none (h : v.Attended address)
    (hidle : v.state address ≠ .sendingCommand) : v.flying address = none := by
  unfold flying
  cases hcontext : v.context address with
  | none => rfl
  | some c =>
    cases hopen : c.operationCompleted with
    | true => simp [PPBContext.operation, hopen]
    | false => exact absurd (h c hcontext hopen) hidle

theorem Balanced.same (h : v.Balanced) (hcontext : v'.context = v.context)
    (hhistory : SameOperations v.history v'.history) : v'.Balanced := by
  obtain ⟨new, heq, hnew⟩ := hhistory
  have hstarts : starts new = [] := List.filterMap_eq_nil_iff.mpr fun o ho => (hnew o ho).1
  have hcompletions : completions new = [] := List.filterMap_eq_nil_iff.mpr fun o ho => (hnew o ho).2
  refine ⟨fun op => ?_, ?_⟩
  · simp only [heq, starts_append, completions_append, hstarts, hcompletions, List.append_nil,
      flying, hcontext]
    exact h.count_starts op
  · rw [heq]
    refine h.startsOnFree.append fun pre x post hsplit op hop => ?_
    have hx := (hnew x (by simp [hsplit])).1
    rw [hx] at hop
    cases hop

theorem count_opened (op : Operation) :
    (starts (v.opened address request suppressSend).history).count op =
        (starts v.history).count op + (if request.operation address = op then 1 else 0) ∧
      (completions (v.opened address request suppressSend).history).count op =
        (completions v.history).count op := by
  simp [Output.startedOp, Output.completedOp, List.count_singleton]

theorem count_closed {c : PPBContext} (op : Operation) :
    (starts (v.closed address c request success message).history).count op =
        (starts v.history).count op ∧
      (completions (v.closed address c request success message).history).count op =
        (completions v.history).count op + (if request.operation address = op then 1 else 0) := by
  simp [List.count_singleton]

theorem Balanced.free (h : v.Balanced) (hfree : v.flying address = none) {op : Operation}
    (hop : op.address = address) :
    (starts v.history).count op = (completions v.history).count op := by
  have := h.count_starts op
  rw [hop, hfree] at this
  simpa using this

theorem Balanced.opened (h : v.Balanced) (hfree : v.flying address = none) :
    (v.opened address request suppressSend).Balanced := by
  refine ⟨fun op => ?_, ?_⟩
  · have hcount := h.count_starts op
    obtain ⟨hstarts, hcompletions⟩ := @count_opened v address request
      suppressSend op
    rw [hstarts, hcompletions, flying_opened]
    rcases eq_or_ne op.address address with heq | hne
    · rw [h.free hfree heq, heq, Function.update_self]
      simp
    · have hdiff : request.operation address ≠ op := fun heq => hne (heq ▸ rfl)
      rw [Function.update_of_ne hne, hcount]
      simp [hdiff]
  · rw [opened_history]
    refine h.startsOnFree.snoc fun op hop other hother => ?_
    obtain rfl := Option.some.inj hop
    exact h.free hfree hother

theorem Balanced.launched (h : v.Balanced) (hfree : v.flying address = none) :
    (v.launched address request suppressSend ms).Balanced := by
  have hopened : (v.opened address request suppressSend).Balanced := h.opened hfree
  refine ⟨fun op => ?_, hopened.startsOnFree⟩
  rw [View.launched, flying_armed]
  exact hopened.count_starts op

theorem Balanced.closed {c : PPBContext} (h : v.Balanced)
    (hflying : v.flying address = some (request.operation address)) :
    (v.closed address c request success message).Balanced := by
  refine ⟨fun op => ?_, ?_⟩
  · have hcount := h.count_starts op
    obtain ⟨hstarts, hcompletions⟩ := @count_closed v address request success
      message c op
    rw [hstarts, hcompletions, flying_closed]
    rcases eq_or_ne op.address address with heq | hne
    · rw [hcount, heq, hflying, Function.update_self]
      simp
    · have hdiff : request.operation address ≠ op := fun heq => hne (heq ▸ rfl)
      rw [Function.update_of_ne hne, hcount]
      simp [hdiff]
  · rw [closed_history]
    refine h.startsOnFree.append fun pre x post hsplit op hop => ?_
    rw [Engine.not_startedOp_of_mem_completion _ _ _
      (hsplit ▸ List.mem_append_right _ List.mem_cons_self)] at hop
    cases hop

theorem Balanced.flashed (h : v.Balanced) (hfree : v.flying address = none) :
    (v.flashed address request suppressSend success message).Balanced :=
  (h.opened hfree).closed (by rw [flying_opened, Function.update_self])

theorem Balanced.act (h : v.Balanced) (hattended : ∀ b, v.Attended b) (hact : Act v v') :
    v'.Balanced := by
  cases hact with
  | other _ hcontext _ hhistory => exact h.same hcontext hhistory
  | launched _ _ _ hidle => exact h.launched ((hattended _).flying_eq_none hidle)
  | flashed _ _ _ _ hidle => exact h.flashed ((hattended _).flying_eq_none hidle)
  | closed _ _ _ _ _ hcontext hopen hcommand =>
    refine h.closed ?_
    simp [flying, PPBContext.operation, hcontext, hopen, hcommand]

end

/-- Across a `disconnect` too, what is in flight has not been reported, and nothing is reported that
has not started. -/
def Backed (v : View) : Prop :=
  ∀ op, (completions v.history).count op + (if v.flying op.address = some op then 1 else 0) ≤
    (starts v.history).count op

section
variable {v v' : View} {address : UInt16} {request : Request} {suppressSend success : Bool}
  {message : String}

theorem Backed.same (h : v.Backed) (hcontext : v'.context = v.context)
    (hhistory : SameOperations v.history v'.history) : v'.Backed := by
  obtain ⟨new, heq, hnew⟩ := hhistory
  have hstarts : starts new = [] := List.filterMap_eq_nil_iff.mpr fun o ho => (hnew o ho).1
  have hcompletions : completions new = [] := List.filterMap_eq_nil_iff.mpr fun o ho => (hnew o ho).2
  intro op
  simp only [heq, starts_append, completions_append, hstarts, hcompletions, List.append_nil, flying,
    hcontext]
  exact h op

/-- A start may take the place of what a `disconnect` has left in flight. -/
theorem Backed.opened (h : v.Backed) : (v.opened address request suppressSend).Backed := by
  intro op
  have hle := h op
  obtain ⟨hstarts, hcompletions⟩ := @count_opened v address request suppressSend op
  rw [hstarts, hcompletions, flying_opened]
  rcases eq_or_ne op.address address with heq | hne
  · rw [heq, Function.update_self]
    simp only [Option.some.injEq]
    omega
  · rw [Function.update_of_ne hne]
    omega

theorem Backed.closed {c : PPBContext} (h : v.Backed)
    (hflying : v.flying address = some (request.operation address)) :
    (v.closed address c request success message).Backed := by
  intro op
  have hle := h op
  obtain ⟨hstarts, hcompletions⟩ := @count_closed v address request success message c op
  rw [hstarts, hcompletions, flying_closed]
  rcases eq_or_ne op.address address with heq | hne
  · rw [heq, hflying] at hle
    simpa [heq] using hle
  · have hdiff : request.operation address ≠ op := fun heq => hne (heq ▸ rfl)
    rw [Function.update_of_ne hne]
    simpa [hdiff] using hle

theorem Backed.act (h : v.Backed) (hact : Act v v') : v'.Backed := by
  cases hact with
  | other _ hcontext _ hhistory => exact h.same hcontext hhistory
  | @launched address request suppressSend ms =>
    intro op
    have hopened : (v.opened address request suppressSend).Backed := h.opened
    rw [View.launched, flying_armed]
    exact hopened op
  | flashed => exact h.opened.closed (by rw [flying_opened, Function.update_self])
  | closed _ _ _ _ _ hcontext hopen hcommand =>
    refine h.closed ?_
    simp [flying, PPBContext.operation, hcontext, hopen, hcommand]

theorem Backed.move {kind : MoveKind} (h : v.Backed) (hmove : Move v kind v') : v'.Backed := by
  by_cases hkind : kind = .disconnect
  · subst hkind
    cases hmove
    exact h.same rfl ⟨[.disconnected], rfl, by simp [Output.startedOp, Output.completedOp]⟩
  · exact Machine.invariant_of_steps (fun _ _ hw hact => hw.act hact) h (hmove.acts hkind)

end

theorem backed_of_reach {guard : View → MoveKind → Prop} {v : View}
    (h : Machine.Reach machine guard v) : v.Backed := by
  refine h.invariant (fun v hstart => ?_) fun _ _ _ hbacked _ hmove => hbacked.move hmove
  obtain ⟨-, hcontext, -, -, -, -, -, -, hhistory, -⟩ := hstart
  intro op
  simp [hhistory, flying, hcontext]

theorem balanced_of_reach {v : View}
    (h : Machine.Reach machine (fun _ kind => kind ≠ .disconnect) v) : v.Balanced := by
  refine h.invariant' (fun v hstart => ?_) fun v kind v' hreach hbalanced hkind hmove => ?_
  · obtain ⟨-, hcontext, -, -, -, -, -, -, hhistory, -⟩ := hstart
    refine ⟨fun op => ?_, hhistory ▸ .nil⟩
    simp [hhistory, flying, hcontext]
  · have hboth : v'.Balanced ∧ ∀ b, v'.Attended b :=
      Machine.invariant_of_steps (P := fun w => w.Balanced ∧ ∀ b, w.Attended b)
        (fun _ _ hw hact => ⟨hw.1.act hw.2 hact, fun b => (hw.2 b).act hact⟩)
        ⟨hbalanced, attended_of_reach hreach⟩ (Move.acts hmove hkind)
    exact hboth.1

/-! Single commands. -/

/-- Each accepted single command is waiting, started, removed, or `dropped` by a `disconnect`, which
leaves no record of it; and tickets are issued once. -/
structure Booked (v : View) (dropped : UInt16 → Nat → Nat) : Prop where
  count_accepted : ∀ address n, (accepted v.history).count (address, .single n) =
    ((v.queue address).map Request.origin).count (.single n) +
      ((starts v.history).map Operation.place).count (address, .single n) +
      (removed v.history).count (address, .single n) + dropped address n
  nodup : ((accepted v.history).map Prod.snd).Nodup
  issued : ∀ place ∈ accepted v.history, ∃ n < v.nextTicket, place.2 = .single n

/-- Nothing happened to single commands from `v` to `v'`. -/
structure SameTickets (v v' : View) : Prop where
  queue : v'.queue = v.queue
  nextTicket : v'.nextTicket = v.nextTicket
  accepted : accepted v'.history = accepted v.history
  removed : removed v'.history = removed v.history
  starts : ∀ address n, ((starts v'.history).map Operation.place).count (address, .single n) =
    ((starts v.history).map Operation.place).count (address, .single n)

section
variable {v v' : View} {address : UInt16} {request : Request} {dropped : UInt16 → Nat → Nat}

theorem SameTickets.trans {v'' : View} (h : SameTickets v v') (h' : SameTickets v' v'') :
    SameTickets v v'' where
  queue := h'.queue.trans h.queue
  nextTicket := h'.nextTicket.trans h.nextTicket
  accepted := h'.accepted.trans h.accepted
  removed := h'.removed.trans h.removed
  starts b n := (h'.starts b n).trans (h.starts b n)

theorem Booked.same (h : v.Booked dropped) (hsame : SameTickets v v') : v'.Booked dropped where
  count_accepted b n := by
    rw [hsame.accepted, hsame.queue, hsame.removed, hsame.starts]
    exact h.count_accepted b n
  nodup := hsame.accepted ▸ h.nodup
  issued := by
    rw [hsame.accepted, hsame.nextTicket]
    exact h.issued

/-- Issuing the next ticket. -/
theorem Booked.issue (h : v.Booked dropped) {next : Nat} {history : List Output}
    (hnext : next = v.nextTicket + 1) (haccepted : PPB.accepted history =
      PPB.accepted v.history ++ [(address, .single v.nextTicket)]) :
    ((PPB.accepted history).map Prod.snd).Nodup ∧
      ∀ place ∈ PPB.accepted history, ∃ n < next, place.2 = .single n := by
  rw [haccepted, hnext]
  refine ⟨?_, fun place hmem => ?_⟩
  · simp only [List.map_append, List.map_cons, List.map_nil]
    refine List.nodup_append.mpr ⟨h.nodup, by simp, ?_⟩
    rintro origin hold _ hnew rfl
    -- tickets issued before are smaller
    obtain ⟨place, hmem, heq⟩ := List.mem_map.mp hold
    obtain ⟨n, hlt, hn⟩ := h.issued place hmem
    rw [← heq, hn] at hnew
    cases List.mem_singleton.mp hnew
    exact lt_irrefl _ hlt
  · rcases List.mem_append.mp hmem with hmem | hmem
    · obtain ⟨n, hlt, heq⟩ := h.issued place hmem
      exact ⟨n, Nat.lt_succ_of_lt hlt, heq⟩
    · rw [List.mem_singleton.mp hmem]
      exact ⟨v.nextTicket, Nat.lt_succ_self _, rfl⟩

theorem count_place_group (address b : UInt16) (groupId n : Nat) (command : PPBCommand) :
    [Operation.place (Request.operation { origin := .group groupId, command } address)].count
      (b, .single n) = 0 := by
  simp [Operation.place, Request.operation]

theorem sameTickets_flashed {groupId : Nat} {command : PPBCommand} {success : Bool}
    {message : String} : SameTickets v
      (v.flashed address { origin := .group groupId, command } true success message) where
  queue := rfl
  nextTicket := rfl
  accepted := by simp [Output.acceptedPlace]
  removed := by simp [Output.clearedPlaces]
  starts b n := by
    have hcount := count_place_group address b groupId n command
    simpa [Output.startedOp] using hcount

theorem sameTickets_launched {groupId ms : Nat} {command : PPBCommand} : SameTickets v
    (v.launched address { origin := .group groupId, command } true ms) where
  queue := rfl
  nextTicket := rfl
  accepted := by simp [Output.acceptedPlace]
  removed := by simp [Output.clearedPlaces]
  starts b n := by
    have hcount := count_place_group address b groupId n command
    simpa [Output.startedOp] using hcount

theorem sameTickets_membersLaunched {groupId ms : Nat} {command : PPBCommand}
    {addresses : List UInt16} : SameTickets v
      (v.membersLaunched { origin := .group groupId, command } ms addresses) := by
  induction addresses generalizing v with
  | nil => exact ⟨rfl, rfl, rfl, rfl, fun _ _ => rfl⟩
  | cons b rest ih => exact sameTickets_launched.trans ih

end

end View

section
variable {v v' : View} {dropped : UInt16 → Nat → Nat}

theorem Begins.sameTickets {groupId : Nat} {mask : UInt16} (h : Begins v groupId mask v') :
    View.SameTickets v v' := by
  have hbegun (w : View) : View.SameTickets w (w.groupBegun groupId mask) :=
    ⟨rfl, rfl, by simp [Output.acceptedPlace], by simp [Output.clearedPlaces],
      fun b n => by simp [Output.startedOp]⟩
  cases h with
  | whole => exact (hbegun v).trans View.sameTickets_membersLaunched
  | @firstFails _ _ rest =>
    have hstarting : View.SameTickets v
        { v with starting := rest.map (groupId, ·) ++ v.starting } :=
      ⟨rfl, rfl, rfl, rfl, fun _ _ => rfl⟩
    exact (hstarting.trans (hbegun _)).trans View.sameTickets_flashed

theorem StartMove.sameTickets (h : StartMove v v') : View.SameTickets v v' := by
  cases h with
  | @waitingGroup _ rest _ _ hbegins =>
    have hpopped : View.SameTickets v { v with waiting := rest } :=
      ⟨rfl, rfl, rfl, rfl, fun _ _ => rfl⟩
    exact hpopped.trans hbegins.sameTickets
  | @memberFails _ _ _ rest =>
    have hturn : View.SameTickets v { v with starting := rest } :=
      ⟨rfl, rfl, rfl, rfl, fun _ _ => rfl⟩
    exact hturn.trans View.sameTickets_flashed
  | memberSkipped => exact ⟨rfl, rfl, rfl, rfl, fun _ _ => rfl⟩

/-- A single command that comes to its execution leaves its queue, or was never in one. -/
theorem Takes.booked {w : View} {address : UInt16} {request : Request}
    (htakes : Takes v address request v') (h : v.Booked dropped) (hqueue : w.queue = v'.queue)
    (hnext : w.nextTicket = v'.nextTicket) (haccepted : accepted w.history = accepted v'.history)
    (hremoved : removed w.history = removed v'.history)
    (hstarts : starts w.history = starts v'.history ++ [request.operation address]) :
    w.Booked dropped := by
  have hplace (b : UInt16) (n : Nat) : ([request.operation address].map Operation.place).count
      (b, .single n) = if (address, request.origin) = (b, .single n) then 1 else 0 := by
    simp [Operation.place, Request.operation, List.count_singleton]
  cases htakes with
  | fresh command =>
    have hnow : accepted w.history = accepted v.history ++ [(address, .single v.nextTicket)] := by
      simp [haccepted, Output.acceptedPlace]
    obtain ⟨hnodup, hissued⟩ := h.issue hnext hnow
    refine ⟨fun b n => ?_, hnodup, hissued⟩
    -- accepted and started in one: both counts grow by one
    · have hcount := h.count_accepted b n
      rw [hnow, hqueue, hremoved, hstarts]
      simp only [List.map_append, List.count_append, hplace, hcount, View.record_queue,
        View.record_history, starts_append, removed_append, starts_cons, removed_cons,
        Output.startedOp, Output.clearedPlaces, starts_nil, removed_nil, List.append_nil,
        Option.toList_none, Option.getD_none, List.count_singleton, beq_iff_eq]
      omega
  | @queued _ rest hfront =>
    refine ⟨fun b n => ?_, ?_, ?_⟩
    -- out of the queue and started: one count falls as the other grows
    · have hcount := h.count_accepted b n
      rw [haccepted, hqueue, hremoved, hstarts]
      simp only [List.map_append, List.count_append, hplace, hcount]
      rcases eq_or_ne b address with rfl | hne
      · simp only [Function.update_self, hfront, List.map_cons, List.count_cons, beq_iff_eq,
          Prod.mk.injEq, true_and]
        omega
      · simp only [Function.update_of_ne hne, Prod.mk.injEq, hne.symm, false_and, if_false]
        omega
    · rw [haccepted]
      exact h.nodup
    · rw [haccepted, hnext]
      exact h.issued

theorem Move.booked {kind : MoveKind} (hmove : Move v kind v') (hkind : kind ≠ .disconnect)
    (h : v.Booked dropped) : v'.Booked dropped := by
  have hrecord (w : View) (os : List Output) (haccepted : accepted os = [])
      (hremoved : removed os = []) (hstarts : starts os = []) : View.SameTickets w (w.record os) :=
    ⟨rfl, rfl, by simp [haccepted], by simp [hremoved], fun b n => by simp [hstarts]⟩
  cases hmove with
  | start hstart => exact h.same hstart.sameTickets
  | enqueue address command =>
    have hnow : accepted (v.history ++ [.accepted address (.single v.nextTicket) true]) =
        accepted v.history ++ [(address, .single v.nextTicket)] := by simp [Output.acceptedPlace]
    obtain ⟨hnodup, hissued⟩ := h.issue rfl hnow
    refine ⟨fun b n => ?_, hnodup, hissued⟩
    have hcount := h.count_accepted b n
    simp only [View.record_history, View.record_queue, hnow, List.count_append, hcount,
      List.count_singleton, starts_append, removed_append, starts_cons, removed_cons,
      Output.startedOp, Output.clearedPlaces, starts_nil, removed_nil, List.append_nil,
      Option.toList_none, Option.getD_none, beq_iff_eq]
    rcases eq_or_ne b address with rfl | hne
    · simp only [Function.update_self, List.map_append, List.map_cons, List.map_nil,
        List.count_append, List.count_singleton, beq_iff_eq, Prod.mk.injEq, true_and]
      omega
    · simp only [Function.update_of_ne hne, Prod.mk.injEq, hne.symm, false_and, if_false]
      omega
  | launch ms htakes =>
    exact htakes.booked h rfl rfl (by simp [Output.acceptedPlace]) (by simp [Output.clearedPlaces])
      (by simp [Output.startedOp])
  | flash success message htakes =>
    exact htakes.booked h rfl rfl (by simp [Output.acceptedPlace]) (by simp [Output.clearedPlaces])
      (by simp [Output.startedOp])
  | finish => exact h.same ⟨rfl, rfl, by simp, by simp, fun b n => by simp⟩
  | acceptGroup _ hbegins =>
    refine h.same (View.SameTickets.trans ⟨?_, ?_, ?_, ?_, fun b n => ?_⟩ hbegins.sameTickets) <;>
      simp [Output.acceptedPlace, Output.clearedPlaces, Output.startedOp]
  | queueGroup =>
    refine h.same ⟨rfl, rfl, ?_, ?_, fun b n => ?_⟩ <;>
      simp [Output.acceptedPlace, Output.clearedPlaces, Output.startedOp]
  | image => exact h.same ⟨rfl, rfl, rfl, rfl, fun _ _ => rfl⟩
  | fuReply => exact h.same (hrecord v _ rfl rfl rfl)
  | clear address =>
    refine ⟨fun b n => ?_, ?_, ?_⟩
    · have hcount := h.count_accepted b n
      simp only [View.record_history, View.record_queue, accepted_append, removed_append,
        starts_append, accepted_cons, removed_cons, starts_cons, Output.acceptedPlace,
        Output.clearedPlaces, Output.startedOp, accepted_nil, removed_nil, starts_nil,
        List.append_nil, Option.toList_none, Option.getD_some, hcount, List.count_append]
      rcases eq_or_ne b address with rfl | hne
      -- the tickets leave the queue for the record of the removal
      · have hinjective : Function.Injective fun o : Origin => (b, o) := fun _ _ heq =>
          (Prod.mk.injEq .. ▸ heq).2
        rw [Function.update_self, List.count_map_of_injective _ _ hinjective]
        simp only [List.map_nil, List.count_nil]
        omega
      · have hnone : (((v.queue address).map Request.origin).map fun o => (address, o)).count
            (b, .single n) = 0 := by
          refine List.count_eq_zero.mpr fun hmem => ?_
          obtain ⟨o, -, heq⟩ := List.mem_map.mp hmem
          exact hne (Prod.mk.inj heq).1.symm
        rw [Function.update_of_ne hne, hnone]
        omega
    · simpa [Output.acceptedPlace] using h.nodup
    · simpa [Output.acceptedPlace] using h.issued
  | disconnect => exact absurd rfl hkind

/-- What waits when a `disconnect` comes is dropped. -/
theorem Move.booked_or_dropped {kind : MoveKind} (hmove : Move v kind v') (h : v.Booked dropped) :
    ∃ dropped', v'.Booked dropped' := by
  by_cases hkind : kind = .disconnect
  · subst hkind
    cases hmove
    refine ⟨fun b n => dropped b n + ((v.queue b).map Request.origin).count (.single n), ⟨?_, ?_, ?_⟩⟩
    · intro b n
      have hcount := h.count_accepted b n
      simp only [View.record_history, accepted_append, starts_append, removed_append, accepted_cons,
        starts_cons, removed_cons, Output.acceptedPlace, Output.startedOp, Output.clearedPlaces,
        accepted_nil, starts_nil, removed_nil, Option.toList_none, Option.getD_none,
        List.append_nil, View.record_queue, List.map_nil, List.count_nil]
      omega
    · simpa [Output.acceptedPlace] using h.nodup
    · simpa [Output.acceptedPlace] using h.issued
  · exact ⟨dropped, hmove.booked hkind h⟩

end

/-! Groups start each of their operations at most once, also across a `disconnect`. -/

namespace View

/-- How often the operation of a group at an address has started or is about to. -/
def begun (v : View) (groupId : Nat) (address : UInt16) : Nat :=
  ((starts v.history).map Operation.place).count (address, .group groupId) +
    v.starting.count (groupId, address)

structure Unique (v : View) : Prop where
  once : ∀ groupId address, v.begun groupId address ≤ 1
  unissued : ∀ groupId address, v.nextGroupId ≤ groupId → v.begun groupId address = 0
  waiting : ∀ group ∈ v.waiting, group.groupId < v.nextGroupId ∧
    ∀ address, v.begun group.groupId address = 0
  nodup : (v.waiting.map (·.groupId)).Nodup
  single : ∀ address, ∀ request ∈ v.queue address, ∃ n, request.origin = .single n

section
variable {v v' : View}

/-- No group has moved on from `v` to `v'`. -/
theorem Unique.same (h : v.Unique)
    (hbegun : ∀ groupId address, v'.begun groupId address ≤ v.begun groupId address)
    (hnext : v'.nextGroupId = v.nextGroupId) (hwaiting : v'.waiting = v.waiting)
    (hqueue : ∀ address, ∀ request ∈ v'.queue address, ∃ n, request.origin = .single n) :
    v'.Unique where
  once groupId address := (hbegun groupId address).trans (h.once groupId address)
  unissued groupId address hle :=
    Nat.le_zero.mp (h.unissued groupId address (hnext ▸ hle) ▸ hbegun groupId address)
  waiting group hmem := by
    rw [hwaiting] at hmem
    obtain ⟨hlt, hzero⟩ := h.waiting group hmem
    exact ⟨hnext ▸ hlt, fun address => Nat.le_zero.mp (hzero address ▸ hbegun _ address)⟩
  nodup := hwaiting ▸ h.nodup
  single := hqueue

theorem count_members (members : List UInt16) (groupId otherId : Nat) (address : UInt16) :
    (members.map fun b => (b, Origin.group groupId)).count (address, .group otherId) =
      if otherId = groupId then members.count address else 0 := by
  split
  next heq =>
    subst heq
    exact List.count_map_of_injective _ (fun b => (b, Origin.group otherId))
      (fun _ _ heq => (Prod.mk.inj heq).1) address
  next hne =>
    refine List.count_eq_zero.mpr fun hmem => hne ?_
    obtain ⟨b, -, heq⟩ := List.mem_map.mp hmem
    cases heq
    rfl

theorem count_turns (members : List UInt16) (groupId otherId : Nat) (address : UInt16) :
    (members.map fun b => (groupId, b)).count (otherId, address) =
      if otherId = groupId then members.count address else 0 := by
  split
  next heq =>
    subst heq
    exact List.count_map_of_injective _ (fun b => (otherId, b))
      (fun _ _ heq => (Prod.mk.inj heq).2) address
  next hne =>
    refine List.count_eq_zero.mpr fun hmem => hne ?_
    obtain ⟨b, -, heq⟩ := List.mem_map.mp hmem
    cases heq
    rfl

/-- Each member of a group that begins has its operation started, or will have its turn. -/
theorem begun_begins {groupId : Nat} {mask : UInt16} (h : Begins v groupId mask v')
    (otherId : Nat) (address : UInt16) : v'.begun otherId address = v.begun otherId address +
      if otherId = groupId then (maskAddresses mask).count address else 0 := by
  have hplaces (command : PPBCommand) (members : List UInt16) : (members.map fun b =>
      Request.operation { origin := .group groupId, command } b).map Operation.place =
      members.map fun b => (b, Origin.group groupId) := by
    simp [Operation.place, Request.operation, Function.comp_def]
  cases h with
  | whole command ms =>
    have hcount := count_members (maskAddresses mask) groupId otherId address
    simp only [begun, membersLaunched_history, membersLaunched_starting, groupBegun_history,
      groupBegun_starting, starts_append, starts_map_started, List.map_append, hplaces,
      List.count_append, hcount, starts_cons, starts_nil, Output.startedOp, Option.toList_none,
      List.append_nil]
    omega
  | @firstFails message first rest _ _ hcons =>
    have hcount := count_members [first] groupId otherId address
    -- the first member has started, the others have their turn
    have hturns := count_turns rest groupId otherId address
    have hfirst := hplaces .volumeCommand [first]
    simp only [List.map_cons, List.map_nil] at hcount hfirst
    simp only [begun, flashed_history, flashed_starting, groupBegun_history, groupBegun_starting,
      starts_append, starts_cons, starts_nil, Output.startedOp, Option.toList_none,
      Option.toList_some, Engine.starts_reportOf, Engine.starts_settleGroups, List.append_nil,
      List.map_append, List.map_cons, List.map_nil, hfirst, List.count_append,
      hcount, hturns, hcons, List.count_cons, List.count_nil]
    split <;> omega

/-- A group of which nothing has started yet begins. -/
theorem Unique.begins {groupId : Nat} {mask : UInt16} (h : v.Unique)
    (hbegins : Begins v groupId mask v') (hlt : groupId < v.nextGroupId)
    (hfresh : ∀ address, v.begun groupId address = 0)
    (hnotWaiting : ∀ group ∈ v.waiting, group.groupId ≠ groupId) : v'.Unique := by
  have hbegun := begun_begins hbegins
  have hnext : v'.nextGroupId = v.nextGroupId := hbegins.nextGroupId_eq
  have hother : ∀ otherId address, otherId ≠ groupId →
      v'.begun otherId address = v.begun otherId address := fun otherId address hne => by
    rw [hbegun, if_neg hne, Nat.add_zero]
  refine ⟨fun otherId address => ?_, fun otherId address hle => ?_, fun group hmem => ?_, ?_, ?_⟩
  · rcases eq_or_ne otherId groupId with rfl | hne
    · rw [hbegun, if_pos rfl, hfresh, Nat.zero_add]
      exact List.nodup_iff_count_le_one.mp (maskAddresses_nodup mask) address
    · rw [hother _ _ hne]
      exact h.once otherId address
  · rw [hnext] at hle
    rw [hother _ _ (by omega)]
    exact h.unissued otherId address hle
  · rw [hbegins.waiting_eq] at hmem
    obtain ⟨hlt', hzero⟩ := h.waiting group hmem
    refine ⟨hnext ▸ hlt', fun address => ?_⟩
    rw [hother _ _ (hnotWaiting group hmem)]
    exact hzero address
  · rw [hbegins.waiting_eq]
    exact h.nodup
  · rw [hbegins.sameTickets.queue]
    exact h.single

theorem Unique.startMove (h : v.Unique) (hmove : StartMove v v') : v'.Unique := by
  cases hmove with
  | @waitingGroup front rest _ hwaiting hbegins =>
    obtain ⟨hnotMem, hnodup⟩ := List.nodup_cons.mp (hwaiting ▸ h.nodup)
    have hrest : ({ v with waiting := rest } : View).Unique :=
      ⟨h.once, h.unissued, fun group hmem => h.waiting group (by simp [hwaiting, hmem]), hnodup,
        h.single⟩
    obtain ⟨hlt, hfresh⟩ := h.waiting front (by simp [hwaiting])
    refine hrest.begins hbegins hlt hfresh fun group hmem heq => hnotMem ?_
    exact List.mem_map.mpr ⟨group, hmem, heq⟩
  | @memberFails message groupId address rest hstarting =>
    refine h.same (fun otherId b => le_of_eq ?_) rfl rfl h.single
    simp only [begun, flashed_history, flashed_starting, hstarting, starts_append, starts_cons,
      Output.startedOp, Option.toList_some, Engine.starts_reportOf, Engine.starts_settleGroups,
      List.append_nil, List.map_append, List.map_cons, List.map_nil, List.count_append,
      List.count_cons, List.count_nil, Operation.place, Request.operation, beq_iff_eq,
      Prod.mk.injEq, Origin.group.injEq, and_comm]
    omega
  | @memberSkipped groupId address rest hstarting =>
    refine h.same (fun otherId b => ?_) rfl rfl h.single
    simp only [begun, hstarting]
    exact Nat.add_le_add_left (List.count_le_count_cons) _

/-- The operation of a single command is no group's. -/
theorem begun_single {w : View} {address : UInt16} {request : Request} {n : Nat}
    (horigin : request.origin = .single n)
    (hstarts : starts w.history = starts v.history ++ [request.operation address])
    (hstarting : w.starting = v.starting) (groupId : Nat) (b : UInt16) :
    w.begun groupId b = v.begun groupId b := by
  simp [begun, hstarts, hstarting, Operation.place, Request.operation, horigin]

theorem Unique.takes {address : UInt16} {request : Request} (h : v.Unique)
    (htakes : Takes v address request v') : v'.Unique ∧ ∃ n, request.origin = .single n := by
  cases htakes with
  | fresh command =>
    refine ⟨h.same (fun groupId b => le_of_eq ?_) rfl rfl h.single, _, rfl⟩
    simp [begun, Output.startedOp]
  | queued hfront =>
    refine ⟨h.same (fun _ _ => le_rfl) rfl rfl fun b request' hmem => ?_,
      h.single address request (by simp [hfront])⟩
    rcases eq_or_ne b address with rfl | hne
    · simp only [Function.update_self] at hmem
      exact h.single b request' (by simp [hfront, hmem])
    · simp only [Function.update_of_ne hne] at hmem
      exact h.single b request' hmem

theorem Unique.move {kind : MoveKind} (h : v.Unique) (hmove : Move v kind v') : v'.Unique := by
  have hrecord (w : View) (os : List Output) (hstarts : starts os = []) (groupId : Nat)
      (b : UInt16) : (w.record os).begun groupId b ≤ w.begun groupId b := by
    simp [begun, hstarts]
  cases hmove with
  | start hstart => exact h.startMove hstart
  | enqueue address command =>
    refine h.same (hrecord _ _ rfl) rfl rfl fun b request hmem => ?_
    rcases eq_or_ne b address with rfl | hne
    · simp only [record_queue, Function.update_self, List.mem_append, List.mem_singleton] at hmem
      rcases hmem with hmem | rfl
      · exact h.single b request hmem
      · exact ⟨_, rfl⟩
    · simp only [record_queue, Function.update_of_ne hne] at hmem
      exact h.single b request hmem
  | @launch address request w ms htakes =>
    obtain ⟨hunique, n, horigin⟩ := h.takes htakes
    have hstarts : starts (w.launched address request false ms).history =
        starts w.history ++ [request.operation address] := by simp [Output.startedOp]
    exact hunique.same (fun groupId b => (begun_single horigin hstarts rfl groupId b).le) rfl rfl
      hunique.single
  | @flash address request w success message htakes =>
    obtain ⟨hunique, n, horigin⟩ := h.takes htakes
    have hstarts : starts (w.flashed address request false success message).history =
        starts w.history ++ [request.operation address] := by simp [Output.startedOp]
    exact hunique.same (fun groupId b => (begun_single horigin hstarts rfl groupId b).le) rfl rfl
      hunique.single
  | finish =>
    refine h.same (fun groupId b => le_of_eq ?_) rfl rfl h.single
    simp [begun]
  | @acceptGroup mask _ _ hbegins =>
    have hnext : (({ v with nextGroupId := v.nextGroupId + 1 } : View).record
        [.groupAccepted v.nextGroupId mask false]).Unique := by
      refine ⟨fun groupId b => ?_, fun groupId b hle => ?_, fun group hmem => ?_, h.nodup, h.single⟩
      · exact (hrecord v _ rfl groupId b).trans (h.once groupId b)
      · have hold := h.unissued groupId b (Nat.le_of_succ_le hle)
        exact Nat.le_zero.mp (hold ▸ hrecord v _ rfl groupId b)
      · obtain ⟨hlt, hzero⟩ := h.waiting group hmem
        exact ⟨Nat.lt_succ_of_lt hlt, fun b => Nat.le_zero.mp (hzero b ▸ hrecord v _ rfl _ b)⟩
    refine hnext.begins hbegins (Nat.lt_succ_self _) (fun b => ?_) fun group hmem => ?_
    · exact Nat.le_zero.mp (h.unissued _ b le_rfl ▸ hrecord v _ rfl _ b)
    · exact ((h.waiting group hmem).1).ne
  | @queueGroup group hid =>
    have hrec := hrecord v [.groupAccepted group.groupId group.mask true] rfl
    refine ⟨fun groupId b => (hrec groupId b).trans (h.once groupId b), fun groupId b hle => ?_,
      fun other hmem => ?_, ?_, h.single⟩
    · exact Nat.le_zero.mp (h.unissued groupId b (Nat.le_of_succ_le hle) ▸ hrec groupId b)
    · rcases List.mem_append.mp hmem with hmem | hmem
      · obtain ⟨hlt, hzero⟩ := h.waiting other hmem
        exact ⟨Nat.lt_succ_of_lt hlt, fun b => Nat.le_zero.mp (hzero b ▸ hrec _ b)⟩
      · obtain rfl := List.mem_singleton.mp hmem
        exact ⟨hid ▸ Nat.lt_succ_self _,
          fun b => Nat.le_zero.mp (h.unissued _ b hid.ge ▸ hrec _ b)⟩
    · simp only [record_waiting, List.map_append, List.map_cons, List.map_nil, hid]
      refine List.nodup_append.mpr ⟨h.nodup, by simp, ?_⟩
      rintro groupId hold _ hnew rfl
      obtain ⟨other, hmem, heq⟩ := List.mem_map.mp hold
      exact (h.waiting other hmem).1.ne (heq.trans (List.mem_singleton.mp hnew))
  | image => exact h.same (fun _ _ => le_rfl) rfl rfl h.single
  | fuReply => exact h.same (hrecord _ _ rfl) rfl rfl h.single
  | clear address =>
    refine h.same (hrecord _ _ rfl) rfl rfl fun b request hmem => ?_
    rcases eq_or_ne b address with rfl | hne
    · simp at hmem
    · simp only [record_queue, Function.update_of_ne hne] at hmem
      exact h.single b request hmem
  | disconnect =>
    refine ⟨fun groupId b => ?_, fun groupId b hle => ?_, by simp, by simp, by simp⟩
    · exact (hrecord v [.disconnected] rfl groupId b).trans (h.once groupId b)
    · exact Nat.le_zero.mp (h.unissued groupId b hle ▸ hrecord v [.disconnected] rfl groupId b)

end

theorem unique_of_reach {guard : View → MoveKind → Prop} {v : View}
    (h : Machine.Reach machine guard v) : v.Unique := by
  refine h.invariant (fun v hstart => ?_) fun _ _ _ hunique _ hmove => hunique.move hmove
  obtain ⟨-, -, hqueue, -, hwaiting, -, -, -, hhistory, hstarting⟩ := hstart
  exact ⟨by simp [begun, hhistory, hstarting], by simp [begun, hhistory, hstarting],
    by simp [hwaiting], by simp [hwaiting], by simp [hqueue]⟩

theorem booked_of_start {v : View} (hstart : machine.start v) : v.Booked 0 := by
  obtain ⟨-, -, hqueue, -, -, -, -, -, hhistory, -⟩ := hstart
  exact ⟨by simp [hhistory, hqueue], by simp [hhistory], by simp [hhistory]⟩

theorem booked_of_reach {v : View}
    (h : Machine.Reach machine (fun _ kind => kind ≠ .disconnect) v) : v.Booked 0 :=
  h.invariant (fun _ => booked_of_start)
    fun _ _ _ hbooked hkind hmove => Move.booked hmove hkind hbooked

theorem exists_booked_of_reach {guard : View → MoveKind → Prop} {v : View}
    (h : Machine.Reach machine guard v) : ∃ dropped, v.Booked dropped :=
  h.invariant (P := fun w => ∃ dropped, w.Booked dropped) (fun _ hstart => ⟨0, booked_of_start hstart⟩)
    fun _ _ _ ⟨_, hbooked⟩ _ hmove => hmove.booked_or_dropped hbooked

/-- An operation starts at most once: a single command by its ticket, a group's by its id. -/
theorem count_starts_le_one {v : View} {dropped : UInt16 → Nat → Nat} (hbooked : v.Booked dropped)
    (hunique : v.Unique) (op : Operation) :
    (starts v.history).count op ≤ 1 := by
  have hle : (starts v.history).count op ≤
      ((starts v.history).map Operation.place).count op.place := List.count_le_count_map
  refine hle.trans ?_
  change ((starts v.history).map Operation.place).count (op.address, op.origin) ≤ 1
  -- a ticket is accepted once, and a group starts each address once
  cases op.origin with
  | single n =>
    have hcount := hbooked.count_accepted op.address n
    have hnodup := List.nodup_iff_count_le_one.mp (hbooked.nodup.of_map _) (op.address, .single n)
    omega
  | group groupId =>
    calc ((starts v.history).map Operation.place).count (op.address, .group groupId)
      _ ≤ v.begun groupId op.address := Nat.le_add_right _ _
      _ ≤ 1 := hunique.once groupId op.address

end View

namespace Engine

/-- The operation in flight at an address. -/
def inFlightOperation (s : Engine) (address : UInt16) : Option Operation :=
  (s.findContext address).bind (·.operation address)

/-- No operation is reported twice, also across a `disconnect`. -/
theorem count_completions_le_one {guard : Engine → Event → Prop} {s : Engine}
    (h : Reachable guard s) (op : Operation) : (completions s.history).count op ≤ 1 := by
  obtain ⟨dropped, hbooked⟩ := View.exists_booked_of_reach (reach_any h)
  have hbacked : _ ≤ (starts s.history).count op := View.backed_of_reach (reach_any h) op
  have honce : (starts s.history).count op ≤ 1 :=
    View.count_starts_le_one hbooked (View.unique_of_reach (reach_any h)) op
  exact (Nat.le_add_right _ _).trans (hbacked.trans honce)

/-- An operation that has been reported with success is never reported with failure. -/
theorem not_failed_of_succeeded {guard : Engine → Event → Prop} {s : Engine}
    (h : Reachable guard s) {op : Operation} {message message' : String}
    (hsucceeded : .commandCompleted op true message ∈ s.history) :
    .commandCompleted op false message' ∉ s.history := by
  intro hfailed
  have honce := count_completions_le_one h op
  obtain ⟨before, after, hsplit⟩ := List.append_of_mem hsucceeded
  rw [hsplit, completions_append, completions_cons, List.count_append, List.count_append] at honce
  have hself : (Option.toList (Output.commandCompleted op true message).completedOp).count op = 1 := by
    simp [Output.completedOp]
  have hmore : 0 < (completions before).count op + (completions after).count op := by
    rw [hsplit] at hfailed
    have hother : Output.commandCompleted op false message' ∈ before ++ after := by
      simpa using hfailed
    rw [← List.count_append, ← completions_append]
    exact List.count_pos_iff.mpr (List.mem_filterMap.mpr ⟨_, hother, rfl⟩)
  omega

/-- **No command is lost or duplicated.** In a run without `disconnect` an accepted single command
is waiting once in the queue of its address, or started once, or removed by `clearCommandQueue`;
nothing starts where another operation is in flight; and an operation that started is in flight or
has been reported by exactly one `commandCompleted`. -/
theorem commands_accounted {s : Engine} (h : Reachable NoDisconnect s) :
    ((accepted s.history).map Prod.snd).Nodup ∧
    (∀ address origin, (address, origin) ∈ accepted s.history →
      ((s.queueOf address).map Request.origin).count origin +
        ((starts s.history).map Operation.place).count (address, origin) +
        (removed s.history).count (address, origin) = 1) ∧
    Machine.Chronicle StartsOnFree s.history ∧
    ∀ op ∈ starts s.history, (starts s.history).count op = 1 ∧
      (completions s.history).count op +
        (if s.inFlightOperation op.address = some op then 1 else 0) = 1 := by
  have hreach := reach_calm h
  have hbalanced := View.balanced_of_reach hreach
  have hbooked := View.booked_of_reach hreach
  have hunique := View.unique_of_reach hreach
  refine ⟨hbooked.nodup, fun address origin hmem => ?_, hbalanced.startsOnFree, fun op hmem => ?_⟩
  · obtain ⟨n, -, rfl⟩ : ∃ n < s.nextTicket, origin = .single n := hbooked.issued _ hmem
    have hcount := hbooked.count_accepted address n
    have honce := List.count_eq_one_of_mem (hbooked.nodup.of_map _) hmem
    exact hcount.symm.trans honce
  · have hpos : 0 < (starts s.history).count op := List.count_pos_iff.mpr hmem
    have honce : (starts s.history).count op = 1 :=
      le_antisymm (View.count_starts_le_one hbooked hunique op) hpos
    exact ⟨honce, (hbalanced.count_starts op).symm.trans honce⟩

/-- The VERS has been answered, a TS behind it was removed, and a CHECKSUM waits. -/
def versAnswered : Engine :=
  (((versInFlight.handle (.executeCommand .ts 1)).handle (.clearCommandQueue 1)).handle
    (.executeCommand .checksum 1)).handle (.datagram [0, 1, 0, 0x02])

theorem versAnswered_reachable : Reachable NoDisconnect versAnswered := by
  have hstep {s : Engine} (h : Reachable NoDisconnect s) (e : Event) (hkind : e ≠ .disconnect)
      (henabled : s.enabled e) : Reachable NoDisconnect (s.handle e) :=
    .step h hkind ⟨henabled, rfl⟩
  have hvers : Reachable NoDisconnect versInFlight :=
    versInFlight_reachable (by simp [NoDisconnect])
  have hts := hstep hvers (.executeCommand .ts 1) (by simp) trivial
  have hcleared := hstep hts (.clearCommandQueue 1) (by simp) trivial
  have hchecksum := hstep hcleared (.executeCommand .checksum 1) (by simp) trivial
  exact hstep hchecksum (.datagram [0, 1, 0, 0x02]) (by simp) trivial

theorem commands_accounted_vers :
    ((versAnswered.queueOf 1).map Request.origin = [.single 2] ∧
      removed versAnswered.history = [(1, .single 1)] ∧
      completions versAnswered.history = [⟨1, .single 0, .vers⟩]) ∧
    ∀ n ∈ [0, 1, 2], ((versAnswered.queueOf 1).map Request.origin).count (.single n) +
      ((starts versAnswered.history).map Operation.place).count (1, .single n) +
      (removed versAnswered.history).count (1, .single n) = 1 := by
  refine ⟨⟨rfl, rfl, rfl⟩, fun n hn => ?_⟩
  have hmem : ∀ n ∈ [0, 1, 2], (1, Origin.single n) ∈ accepted versAnswered.history := by decide
  exact (commands_accounted versAnswered_reachable).2.1 1 (.single n) (hmem n hn)

end Engine

end PPB
