import PPBProject.Conduct
import PPBProject.Groups
import PPBProject.Wakeup
import PPBProject.Lib.Ranking
import Mathlib.Algebra.BigOperators.Fin

/- The engine comes to rest. Its own events are the timers and the posted callbacks. When
   nobody submits anything more, these alone complete every operation, empty every queue
   and finish every group, whatever has happened before and in whatever order they come.

   The measure is the work that is still to be done (`View.load`): a queued command or a
   member of a waiting group has two steps before it, to be started and to be completed;
   an operation in flight has one. A step of the engine's own that lowers no load only
   uses up a posted callback. -/
namespace PPB

open Relation (ReflTransGen)
open Machine (Stirs Still Settles)

/-- The events that happen without a call from outside or a datagram. -/
def Event.isOwn : Event → Bool
  | .timeout _ | .queueTick _ | .posted .. => true
  | _ => false

abbrev Event.Own (e : Event) : Prop := e.isOwn = true

noncomputable local instance fintypeUInt16 : Fintype UInt16 :=
  Fintype.ofInjective UInt16.toFin fun _ _ h => UInt16.toFin_inj.mp h

namespace View

/-! The work that is still to be done. -/

def due (v : View) (address : UInt16) : Nat :=
  2 * (v.queue address).length + ((v.context address).any PPBContext.inFlight).toNat

/-- The members of the waiting groups. -/
def waitingMembers (groups : List PendingGroupCommand) : Nat :=
  (groups.map fun group => (maskAddresses group.mask).length).sum

noncomputable def load (v : View) : Nat :=
  ∑ address, v.due address + 2 * waitingMembers v.waiting + v.starting.length

section
variable {v v' : View} {address : UInt16} {request : Request} {suppressSend success : Bool}
  {message : String} {ms : Nat}

/-- A change at one address. -/
theorem load_of_due_eq (hdue : ∀ a, a ≠ address → v'.due a = v.due a)
    (hwaiting : v'.waiting = v.waiting) (hstarting : v'.starting = v.starting) :
    v'.load + v.due address = v.load + v'.due address := by
  have hsum := Finset.add_sum_erase Finset.univ v.due (Finset.mem_univ address)
  have hsum' := Finset.add_sum_erase Finset.univ v'.due (Finset.mem_univ address)
  have hrest : ∑ a ∈ Finset.univ.erase address, v'.due a =
      ∑ a ∈ Finset.univ.erase address, v.due a :=
    Finset.sum_congr rfl fun a ha => hdue a (Finset.ne_of_mem_erase ha)
  unfold load
  rw [hwaiting, hstarting]
  omega

theorem due_of_ne {a : UInt16} {old : Option PPBContext} (hne : a ≠ address)
    (hqueue : v'.queue = v.queue) (hcontext : v'.context = Function.update v.context address old) :
    v'.due a = v.due a := by
  simp only [due, hqueue, hcontext, Function.update_of_ne hne]

theorem load_launched_le : (v.launched address request suppressSend ms).load ≤ v.load + 1 := by
  have hload : (v.launched address request suppressSend ms).load + v.due address = v.load +
      (v.launched address request suppressSend ms).due address :=
    load_of_due_eq (fun a hne => due_of_ne hne rfl (v.launched_context ..)) rfl rfl
  have hbool := Bool.toNat_le ((v.launchedContext address request suppressSend ms).inFlight)
  simp only [due, launched_queue, launched_context, Function.update_self, Option.any_some] at hload
  omega

theorem load_closed {c : PPBContext} : (v.closed address c request success message).load +
    ((v.context address).any PPBContext.inFlight).toNat = v.load := by
  have hload : (v.closed address c request success message).load + v.due address = v.load +
      (v.closed address c request success message).due address :=
    load_of_due_eq (fun a hne => due_of_ne hne rfl (v.closed_context ..)) rfl rfl
  have hclosed : ((v.closed address c request success message).context address).any
      PPBContext.inFlight = false := by
    simp only [closed_context, Function.update_self]
    split <;> simp [closedContext, PPBContext.clearParseResults, PPBContext.inFlight]
  simp only [due, hclosed, Bool.toNat_false, closed_queue] at hload
  omega

theorem load_flashed_le :
    (v.flashed address request suppressSend success message).load ≤ v.load := by
  have hload : (v.flashed address request suppressSend success message).load + v.due address =
      v.load + (v.flashed address request suppressSend success message).due address :=
    load_of_due_eq (fun a hne => due_of_ne hne rfl (v.flashed_context ..)) rfl rfl
  have hflashed : ((v.flashed address request suppressSend success message).context address).any
      PPBContext.inFlight = false := by
    simp only [flashed_context, Function.update_self]
    split <;> simp [closedContext, PPBContext.clearParseResults, PPBContext.inFlight]
  simp only [due, hflashed, Bool.toNat_false, flashed_queue] at hload
  omega

theorem load_membersLaunched_le {addresses : List UInt16} :
    (v.membersLaunched request ms addresses).load ≤ v.load + addresses.length := by
  induction addresses generalizing v with
  | nil => rfl
  | cons address rest ih =>
    rw [membersLaunched_cons, List.length_cons]
    have hfirst : (v.launched address request true ms).load ≤ v.load + 1 := load_launched_le
    have hrest := ih (v := v.launched address request true ms)
    omega

theorem load_groupBegun (v : View) (groupId : Nat) (mask : UInt16) :
    (v.groupBegun groupId mask).load = v.load := rfl

end

end View

/-! What a step does to it. -/

theorem Begins.load_lt {v v' : View} {groupId : Nat} {mask : UInt16} (h : Begins v groupId mask v') :
    v'.load < v.load + 2 * (maskAddresses mask).length := by
  cases h with
  | whole command ms hmask _ _ =>
    have hpos := List.length_pos_iff.mpr (maskAddresses_ne_nil hmask)
    refine (View.load_membersLaunched_le).trans_lt ?_
    rw [View.load_groupBegun]
    omega
  | @firstFails message address rest _ _ hmembers =>
    refine View.load_flashed_le.trans_lt ?_
    rw [View.load_groupBegun, hmembers]
    simp only [View.load, List.length_append, List.length_map, List.length_cons]
    change _ < ∑ address, v.due address + 2 * View.waitingMembers v.waiting + v.starting.length +
      2 * (rest.length + 1)
    change ∑ address, v.due address + 2 * View.waitingMembers v.waiting +
      (rest.length + v.starting.length) < _
    omega

theorem StartMove.load_lt {v v' : View} (h : StartMove v v') : v'.load < v.load := by
  cases h with
  | @waitingGroup front rest _ hwaiting hbegins =>
    have hlt := hbegins.load_lt
    have hrest : ({ v with waiting := rest } : View).load + 2 * (maskAddresses front.mask).length =
        v.load := by
      simp only [View.load, hwaiting, View.waitingMembers, List.map_cons, List.sum_cons]
      change ∑ address, v.due address + _ + _ + _ = ∑ address, v.due address + _ + _
      omega
    omega
  | @memberFails message groupId address rest hstarting _ =>
    refine View.load_flashed_le.trans_lt ?_
    simp only [View.load, hstarting, List.length_cons]
    exact Nat.lt_succ_self _
  | @memberSkipped groupId address rest hstarting _ =>
    simp only [View.load, hstarting, List.length_cons]
    exact Nat.lt_succ_self _

theorem Starts.load_le {v v' : View} (h : Starts v v') : v'.load ≤ v.load := by
  induction h with
  | refl => exact Nat.le_refl _
  | tail _ hmove ih => exact hmove.load_lt.le.trans ih

namespace Engine

noncomputable def load (s : Engine) : Nat := (s.view []).load

section
variable {s s' : Engine} {address : UInt16} {c : PPBContext} {request : Request}

theorem Completes.load_lt {success : Bool} (h : Completes s address c request success s')
    (hflight : InFlight s address c request) : s'.load < s.load := by
  obtain ⟨imageReady, parsedSuccess, parsedMessage, parsedData, message, hstarts⟩ := h
  refine hstarts.load_le.trans_lt ?_
  have hclosed := @View.load_closed { s.view [] with imageReady } address request success message
    (c.withResults parsedSuccess parsedMessage parsedData)
  have hopen : ((s.view []).context address).any PPBContext.inFlight = true := by
    change (s.findContext address).any PPBContext.inFlight = true
    simp [hflight.found, PPBContext.inFlight, hflight.command, hflight.uncompleted]
  rw [hopen] at hclosed
  change _ + 1 = s.load at hclosed
  omega

theorem Executed.load_le {v v' : View} (h : Executed v address request v') :
    v'.load ≤ v.load + 1 := by
  cases h with
  | launched ms => exact View.load_launched_le
  | flashed imageReady success message _ => exact View.load_flashed_le.trans (Nat.le_succ _)

/-- A queued command that is started leaves one step instead of two. -/
theorem load_dequeueAndExecute (hidle : s.isSending address = false)
    (hqueue : s.queueOf address ≠ []) : (s.dequeueAndExecute address).load < s.load := by
  obtain ⟨request, rest, hqueue⟩ := List.exists_cons_of_ne_nil hqueue
  obtain ⟨htaken, hview⟩ := s.dequeue_cons [] hqueue
  generalize hpair : s.dequeue address = pair at htaken hview
  obtain ⟨t, taken⟩ := pair
  simp only at htaken hview
  subst htaken
  simp only [dequeueAndExecute, hpair]
  have hidle' : t.isSending address = false := by
    rw [← Bool.not_eq_true, ← view_sending_iff []] at hidle ⊢
    rw [hview]
    exact hidle
  obtain ⟨v, hexecuted, hstarts⟩ := executeCommandImmediately_executed request hidle'
  have hle := hstarts.load_le.trans hexecuted.load_le
  have hpopped : (t.view []).load + (s.view []).due address = s.load + (t.view []).due address := by
    refine View.load_of_due_eq (fun a hne => ?_) ?_ ?_
    · simp only [hview, View.due, Function.update_of_ne hne]
    · rw [hview]
    · rw [hview]
  have hcontext : (t.view []).context = (s.view []).context := by rw [hview]
  have hlength : (s.view []).queue address = request :: rest := hqueue
  have hrest : (t.view []).queue address = rest := by
    rw [hview]
    exact Function.update_self ..
  simp only [View.due, hlength, hrest, hcontext, List.length_cons] at hpopped
  change (t.executeCommandImmediately address request false).load < _
  change _ ≤ (t.view []).load + 1 at hle
  change (t.executeCommandImmediately address request false).load ≤ _ at hle
  omega

/-- A step that leaves the engine as it is, or lowers the load. -/
def Works (s s' : Engine) : Prop := s' = s ∨ s'.load < s.load

theorem Works.trans {s'' : Engine} (h : Works s s') (h' : Works s' s'') : Works s s'' := by
  rcases h with rfl | hlt
  · exact h'
  · rcases h' with rfl | hlt'
    · exact .inr hlt
    · exact .inr (hlt'.trans hlt)

theorem works_dequeueAndExecute (hidle : s.isSending address = false) :
    Works s (s.dequeueAndExecute address) := by
  by_cases hqueue : s.queueOf address = []
  · exact .inl (dequeueAndExecute_nil hqueue)
  · exact .inr (load_dequeueAndExecute hidle hqueue)

theorem works_processQueued (s : Engine) (address : UInt16) :
    Works s (s.processQueued address) := by
  unfold processQueued
  split
  · exact .inl rfl
  · split
    next hidle => exact works_dequeueAndExecute (by simpa using hidle)
    · exact .inl rfl

theorem works_processCommandQueue (s : Engine) (addresses : List UInt16) :
    Works s (s.processCommandQueue addresses) := by
  unfold processCommandQueue
  induction addresses generalizing s with
  | nil => exact .inl rfl
  | cons address rest ih => exact (works_processQueued s address).trans (ih _)

theorem processCommandQueue_of_empty (hqueues : ∀ a, s.queueOf a = []) (addresses : List UInt16) :
    s.processCommandQueue addresses = s := by
  unfold processCommandQueue
  induction addresses with
  | nil => rfl
  | cons address rest ih =>
    have hturn : s.processQueued address = s := by
      unfold processQueued
      rw [dequeueAndExecute_nil (hqueues address)]
      split <;> simp
    rw [List.foldl_cons, hturn, ih]

theorem works_processNextCommandForAddress (s : Engine) (address : UInt16) :
    Works s (s.processNextCommandForAddress address) := by
  unfold processNextCommandForAddress
  split
  · exact .inl rfl
  next hready =>
    refine works_dequeueAndExecute ?_
    simp [isSending, not_not.mp hready]

/-- With nothing sending and no group about, a tick starts a command of the first queue it
comes to. -/
theorem load_processCommandQueue_lt {addresses : List UInt16} (hmem : address ∈ addresses)
    (hqueue : s.queueOf address ≠ []) (hidle : ∀ a, s.isSending a = false)
    (hgroups : s.groupsOutstanding = false) : (s.processCommandQueue addresses).load < s.load := by
  induction addresses with
  | nil => cases hmem
  | cons first rest ih =>
    have hturn : s.processQueued first = s.dequeueAndExecute first := by
      simp [processQueued, hgroups, hidle first]
    change (processCommandQueue (s.processQueued first) rest).load < _
    rw [hturn]
    by_cases hfirst : s.queueOf first = []
    · rw [dequeueAndExecute_nil hfirst]
      refine ih ((List.mem_cons.mp hmem).resolve_left ?_)
      rintro rfl
      exact hqueue hfirst
    · have hlt := load_dequeueAndExecute (hidle first) hfirst
      rcases works_processCommandQueue (s.dequeueAndExecute first) rest with heq | hle
      · rwa [heq]
      · exact hle.trans hlt

/-! The engine left to itself. -/

/-- The load, and for steps that leave it alone the posted callbacks. -/
noncomputable def rank (s : Engine) : Nat × Nat := (s.load, s.posted.length)

theorem rank_posted {index : Nat} {order : List UInt16} (h : s.enabled (.posted index order)) :
    Prod.Lex (· < ·) (· < ·) (s.handle (.posted index order)).rank s.rank := by
  have hlength : index < s.posted.length := by
    by_contra hle
    rw [not_lt] at hle
    simp [enabled, List.getElem?_eq_none hle] at h
  generalize ht : ({ s with posted := s.posted.eraseIdx index } : Engine) = t
  have hload : t.load = s.load := by
    rw [← ht]
    rfl
  have hshorter : t.posted.length < s.posted.length := by
    rw [← ht, List.length_eraseIdx_of_lt hlength]
    omega
  have hworks : Works t (s.handle (.posted index order)) := by
    simp only [handle, runPosted, ht]
    split
    · exact works_processNextCommandForAddress t _
    · exact works_processCommandQueue t order
    · exact .inl rfl
  rcases hworks with heq | hlt
  · rw [heq]
    exact Prod.lex_def.mpr (.inr ⟨hload, hshorter⟩)
  · exact Prod.lex_def.mpr (.inl (hlt.trans_eq hload))

theorem load_timeout_lt {guard : Engine → Event → Prop} (h : Reachable guard s)
    (henabled : s.enabled (.timeout address)) : (s.handle (.timeout address)).load < s.load := by
  simp only [enabled, Option.isSome_bind, Option.any_eq_true] at henabled
  obtain ⟨c, hfind, harmed⟩ := henabled
  have hsettled := (sound h).settled address c hfind
  obtain ⟨request, hcommand⟩ := Option.isSome_iff_exists.mp hsettled.command
  have hflight : InFlight s address c request := ⟨hfind, hsettled.timer.mp harmed, hcommand⟩
  exact (s.view_onOperationTimeout address hflight).load_lt hflight

theorem rank_stirs {guard : Engine → Event → Prop} (h : Reachable guard s)
    (hstirs : Stirs machine Event.Own s s') :
    Prod.Lex (· < ·) (· < ·) s'.rank s.rank := by
  obtain ⟨hne, e, hown, henabled, rfl⟩ := hstirs
  cases e with
  | timeout address => exact Prod.lex_def.mpr (.inl (load_timeout_lt h henabled))
  | queueTick order =>
    exact Prod.lex_def.mpr (.inl ((works_processCommandQueue s order).resolve_left hne))
  | posted index order => exact rank_posted henabled
  | _ => cases hown

theorem settles {guard : Engine → Event → Prop} (h : Reachable guard s) :
    Settles machine Event.Own s := by
  have hreach : Reachable AnyStep s := h.mono fun _ _ _ => trivial
  refine Machine.settles_of_rank (WellFounded.prod_lex wellFounded_lt wellFounded_lt) rank
    (P := Reachable AnyStep) (fun t t' ht hstirs => ⟨?_, rank_stirs ht hstirs⟩) hreach
  obtain ⟨-, e, -, hstep⟩ := hstirs
  exact .step ht trivial hstep

/-- Nothing is in flight, waiting or about to be processed. -/
structure Quiet (s : Engine) : Prop where
  idle : s.busy = false
  inFlight : ∀ address c, s.findContext address = some c → c.operationCompleted = true
  states : ∀ address, s.getState address ≠ .sendingCommand
  queues : ∀ address, s.queueOf address = []
  groups : s.groupOperations = []
  waiting : s.pendingGroupCommands = []
  posted : s.posted = []

theorem ne_of_load_lt (h : s'.load < s.load) : s' ≠ s := by
  rintro rfl
  exact Nat.lt_irrefl _ h

/-- What is in flight can time out. -/
theorem completed_of_still {guard : Engine → Event → Prop} (h : Reachable guard s)
    (hstill : Still machine Event.Own s) (hfind : s.findContext address = some c) :
    c.operationCompleted = true := by
  by_contra hopen
  rw [Bool.not_eq_true] at hopen
  have henabled : s.enabled (.timeout address) := by
    simp [enabled, hfind, ((sound h).settled address c hfind).timer.mpr hopen]
  exact hstill _ ⟨ne_of_load_lt (load_timeout_lt h henabled), _, rfl, henabled, rfl⟩

theorem posted_of_still (hstill : Still machine Event.Own s) : s.posted = [] := by
  by_contra hposted
  obtain ⟨callback, rest, hposted⟩ := List.exists_cons_of_ne_nil hposted
  have henabled : s.enabled (.posted 0 s.queues.keys) := by
    simp [enabled, hposted, isQueueOrder]
  have hlt := rank_posted henabled
  refine hstill _ ⟨fun heq => ?_, _, rfl, henabled, rfl⟩
  rw [heq] at hlt
  exact (WellFounded.prod_lex wellFounded_lt wellFounded_lt).irrefl.irrefl _ hlt

theorem mem_keys_of_queueOf (h : s.queueOf address ≠ []) : address ∈ s.queues.keys := by
  rw [← AList.mem_keys, ← AList.lookup_isSome]
  cases hlookup : s.queues.lookup address with
  | some requests => rfl
  | none => simp [queueOf, hlookup] at h

theorem quiet_of_still {guard : Engine → Event → Prop} (h : Reachable guard s)
    (hstill : Still machine Event.Own s) : s.Quiet := by
  have hsound := sound h
  have hcompleted (address : UInt16) (c : PPBContext) (hfind : s.findContext address = some c) :=
    completed_of_still h hstill hfind
  have hstates (address : UInt16) : s.getState address ≠ .sendingCommand := by
    intro hsending
    obtain ⟨c, hfind, hopen⟩ := hsound.sending address hsending
    rw [hcompleted address c hfind] at hopen
    cases hopen
  have hidle (address : UInt16) : s.isSending address = false := by
    simpa [isSending] using hstates address
  have hwaiting : s.pendingGroupCommands = [] := by
    refine (awake h).resolve_right ?_
    rintro ⟨address, hsending⟩
    rw [traffic_sending, hidle] at hsending
    cases hsending
  have hgroups : s.groupOperations = [] := by
    rw [List.eq_nil_iff_forall_not_mem]
    intro entry hmem
    obtain ⟨hpending, mask, hkept⟩ := (View.minded_of_reach (reach_any h)).groups entry hmem
    obtain ⟨address, haddress⟩ := List.exists_mem_of_ne_nil _ hpending
    exact hstates address ((hkept.attended address haddress).resolve_right List.not_mem_nil)
  refine ⟨?_, hcompleted, hstates, fun address => ?_, hgroups, hwaiting, posted_of_still hstill⟩
  · rw [← Bool.not_eq_true]
    intro hbusy
    obtain ⟨address, c, hfind, hflight⟩ := hsound.busy.mp hbusy
    simp [PPBContext.inFlight, hcompleted address c hfind] at hflight
  -- a command left in a queue would be started by the next tick
  · by_contra hqueue
    have hlt := load_processCommandQueue_lt (mem_keys_of_queueOf hqueue) hqueue hidle
      (by simp [groupsOutstanding, hgroups, hwaiting])
    exact hstill _ ⟨ne_of_load_lt hlt, .queueTick s.queues.keys, rfl, .refl _, rfl⟩

theorem Quiet.still {guard : Engine → Event → Prop} (hquiet : s.Quiet) (h : Reachable guard s) :
    Still machine Event.Own s := by
  rintro _ ⟨hne, e, hown, henabled, rfl⟩
  cases e with
  | timeout address =>
    simp only [enabled, Option.isSome_bind, Option.any_eq_true] at henabled
    obtain ⟨c, hfind, harmed⟩ := henabled
    have hopen := ((sound h).settled address c hfind).timer.mp harmed
    rw [hquiet.inFlight address c hfind] at hopen
    cases hopen
  | queueTick order => exact hne (processCommandQueue_of_empty hquiet.queues order)
  | posted index order => simp [enabled, hquiet.posted] at henabled
  | _ => cases hown

theorem reachable_stirs {guard : Engine → Event → Prop} (hguard : ∀ t e, Event.Own e → guard t e)
    (h : Reachable guard s) (hrun : ReflTransGen (Stirs machine Event.Own) s s') :
    Reachable guard s' :=
  h.stirs hguard hrun

/-- **The engine comes to rest.** Left to its timers and posted callbacks, the engine does not go on
for ever, in whatever order they come; it can come to rest from every state of every run; and it is
at rest exactly when nothing is in flight, queued, waiting or posted. -/
theorem comes_to_rest (h : Reachable AnyStep s) :
    (∀ f : Nat → Engine, f 0 = s → ¬ ∀ n, Stirs machine Event.Own (f n) (f (n + 1))) ∧
    (∃ s', ReflTransGen (Stirs machine Event.Own) s s' ∧ s'.Quiet) ∧
    ∀ s', ReflTransGen (Stirs machine Event.Own) s s' →
      (Still machine Event.Own s' ↔ s'.Quiet) := by
  have hsettles := settles h
  have hreach {s' : Engine} (hrun : ReflTransGen (Stirs machine Event.Own) s s') :
      Reachable AnyStep s' :=
    reachable_stirs (fun _ _ _ => trivial) h hrun
  refine ⟨hsettles.not_endless, ?_, fun s' hrun => ?_⟩
  · obtain ⟨s', hrun, hstill⟩ := hsettles.exists_still
    exact ⟨s', hrun, quiet_of_still (hreach hrun) hstill⟩
  · exact ⟨quiet_of_still (hreach hrun), fun hquiet => hquiet.still (hreach hrun)⟩

theorem comes_to_rest_vers :
    ∃ s', ReflTransGen (Stirs machine Event.Own) versInFlight s' ∧ s'.Quiet :=
  (comes_to_rest (versInFlight_reachable trivial)).2.1

end

/-! What has become of the requests. -/

theorem Quiet.perm_completions {s : Engine} (hquiet : s.Quiet) (h : Reachable NoDisconnect s) :
    ((completions s.history).map Operation.place).Perm
      ((starts s.history).map Operation.place) := by
  refine List.Perm.map _ (List.perm_iff_count.mpr fun op => ?_)
  have hcount := (View.balanced_of_reach (reach_calm h)).count_starts op
  have hflying : (s.view []).flying op.address ≠ some op := by
    unfold View.flying
    cases hfind : (s.view []).context op.address with
    | none => simp
    | some c =>
      have hcompleted := hquiet.inFlight op.address c hfind
      simp [PPBContext.operation, hcompleted]
  rw [if_neg hflying, Nat.add_zero] at hcount
  exact hcount.symm

theorem Quiet.held_eq_zero {s : Engine} (hquiet : s.Quiet) (groupId : Nat) :
    (s.view []).held groupId = 0 := by
  change (s.pendingGroupCommands.map (·.groupId)).count groupId +
    (s.groupOperations.map Prod.fst).count groupId = 0
  simp [hquiet.waiting, hquiet.groups]

theorem Quiet.count_finishedGroups {guard : Engine → Event → Prop} {s : Engine} (hquiet : s.Quiet)
    (h : Reachable guard s) {entry : Nat × UInt16}
    (hmem : entry ∈ acceptedGroups (sinceDisconnect s.history)) :
    (finishedGroups s.history).count entry.1 = 1 := by
  have hplaced := View.placed_of_reach (reach_any h)
  have hcount : _ = ((acceptedGroups (sinceDisconnect s.history)).map Prod.fst).count entry.1 :=
    hplaced.count entry.1
  have hbound := (hplaced.bound entry.1).trans (List.nodup_iff_count_le_one.mp hplaced.nodup entry.1)
  rw [hquiet.held_eq_zero, Nat.zero_add] at hcount hbound
  have haccepted : 0 < ((acceptedGroups (sinceDisconnect s.history)).map Prod.fst).count entry.1 :=
    List.count_pos_iff.mpr (List.mem_map_of_mem hmem)
  have hfinished : (finishedGroups (sinceDisconnect s.history)).count entry.1 ≤
      (finishedGroups s.history).count entry.1 :=
    ((sinceDisconnect_suffix _).sublist.filterMap _).count_le _
  change (finishedGroups (sinceDisconnect s.history)).count entry.1 = _ at hcount
  change (finishedGroups s.history).count entry.1 ≤ 1 at hbound
  omega

/-- **Every request is answered.** When a run without `disconnect` is left to the timers and posted
callbacks until they have nothing more to do, every single command that was ever accepted has been
reported by exactly one `commandCompleted`, unless `clearCommandQueue` removed it, and every group
by exactly one `groupCommandCompleted`. -/
theorem answered {s s' : Engine} (h : Reachable NoDisconnect s)
    (hrun : ReflTransGen (Stirs machine Event.Own) s s') (hstill : Still machine Event.Own s') :
    (∀ address origin, (address, origin) ∈ accepted s'.history →
      ((completions s'.history).map Operation.place).count (address, origin) +
        (removed s'.history).count (address, origin) = 1) ∧
    ∀ entry ∈ acceptedGroups (sinceDisconnect s'.history),
      (finishedGroups s'.history).count entry.1 = 1 := by
  have h' : Reachable NoDisconnect s' := by
    refine reachable_stirs (fun t e hown => ?_) h hrun
    rintro rfl
    cases hown
  have hquiet := quiet_of_still h' hstill
  refine ⟨fun address origin hmem => ?_, fun entry hmem => hquiet.count_finishedGroups h' hmem⟩
  have hbooked := View.booked_of_reach (reach_calm h')
  obtain ⟨n, -, rfl⟩ : ∃ n < s'.nextTicket, origin = .single n := hbooked.issued _ hmem
  have hcount := hbooked.count_accepted address n
  have honce : (accepted s'.history).count (address, .single n) = 1 :=
    List.count_eq_one_of_mem (hbooked.nodup.of_map _) hmem
  have hqueue : (s'.view []).queue address = [] := hquiet.queues address
  rw [hqueue] at hcount
  change (accepted s'.history).count _ = _ + ((starts s'.history).map Operation.place).count _ +
    (removed s'.history).count _ at hcount
  rw [← (hquiet.perm_completions h').count_eq, honce, List.map_nil, List.count_nil,
    Nat.zero_add] at hcount
  exact hcount.symm

/-- What was accepted stays accepted. -/
theorem mem_accepted_stirs {s s' : Engine} (hrun : ReflTransGen (Stirs machine Event.Own) s s')
    {place : UInt16 × Origin} (h : place ∈ accepted s.history) : place ∈ accepted s'.history := by
  refine Machine.invariant_of_steps (P := fun t => place ∈ accepted t.history) ?_ h hrun
  rintro t _ hmem ⟨-, e, -, -, rfl⟩
  obtain ⟨new, hlog⟩ := t.log_handle e
  rw [history, hlog, List.filter_append, accepted_append]
  exact List.mem_append_left _ hmem

theorem answered_vers : ∃ s', ReflTransGen (Stirs machine Event.Own) versInFlight s' ∧
    ((completions s'.history).map Operation.place).count (1, .single 0) +
      (removed s'.history).count (1, .single 0) = 1 := by
  have hreach : Reachable NoDisconnect versInFlight :=
    versInFlight_reachable (by simp [NoDisconnect])
  obtain ⟨s', hrun, hstill⟩ := (settles hreach).exists_still
  have haccepted : (1, Origin.single 0) ∈ accepted versInFlight.history := by decide
  exact ⟨s', hrun, (answered hreach hrun hstill).1 1 (.single 0) (mem_accepted_stirs hrun haccepted)⟩

end Engine

end PPB
