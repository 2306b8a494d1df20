import PPBProject.Places
import PPBProject.Prbs
import PPBProject.Sound

/- Cancelling what waits: `clearCommandQueue` for address 0 and for every single PPB.

   Requests are numbered in the order they are accepted. What is started once the clearing is
   over is looked at by its number: if no group waited when it began, and nothing was queued at
   another address, only requests accepted later are ever started. -/
namespace PPB

/-- The request came after the first `ticket` single commands and the groups below `groupId`. -/
def Origin.Since (ticket groupId : Nat) : Origin → Prop
  | .single n => ticket ≤ n
  | .group id => groupId ≤ id

namespace Output

/-- Which request an entry records the start of. -/
def startedOrigin? : Output → Option Origin
  | started op _ => some op.origin
  | groupStarted groupId _ => some (.group groupId)
  | _ => none

/-- What an entry starts is new, or comes from the queue of an address that is still `dirty`. -/
def Renews (dirty : UInt16 → Prop) (ticket groupId : Nat) (o : Output) : Prop :=
  match o with
  | started op _ => dirty op.address ∨ op.origin.Since ticket groupId
  | groupStarted id _ => groupId ≤ id
  | _ => True

end Output

/-- What waits is new, but for the queues that are still `dirty`. -/
structure View.Renewed (dirty : UInt16 → Prop) (ticket groupId : Nat) (v : View) : Prop where
  nextTicket : ticket ≤ v.nextTicket
  nextGroupId : groupId ≤ v.nextGroupId
  queue : ∀ address, ¬dirty address → ∀ request ∈ v.queue address,
    request.origin.Since ticket groupId
  waiting : ∀ group ∈ v.waiting, groupId ≤ group.groupId
  starting : ∀ entry ∈ v.starting, groupId ≤ entry.1

/-- What waits stays new, and only such requests have been started. -/
structure Renewing (dirty : UInt16 → Prop) (ticket groupId : Nat) (v v' : View) : Prop where
  renewed : v'.Renewed dirty ticket groupId
  history : Machine.Extends (Output.Renews dirty ticket groupId) v.history v'.history

section
variable {dirty : UInt16 → Prop} {ticket groupId : Nat} {v v' v'' : View}

theorem Renewing.refl (h : v.Renewed dirty ticket groupId) : Renewing dirty ticket groupId v v :=
  ⟨h, .refl _⟩

theorem Renewing.trans (h : Renewing dirty ticket groupId v v')
    (h' : Renewing dirty ticket groupId v' v'') : Renewing dirty ticket groupId v v'' :=
  ⟨h'.renewed, h.history.trans h'.history⟩

/-- A change that is not recorded. -/
theorem Renewing.of_history_eq (hnew : v'.Renewed dirty ticket groupId)
    (hhistory : v'.history = v.history) : Renewing dirty ticket groupId v v' :=
  ⟨hnew, hhistory ▸ .refl _⟩

/-- A change with one record. -/
theorem Renewing.of_record (hnew : v'.Renewed dirty ticket groupId) {o : Output}
    (hhistory : v'.history = v.history ++ [o]) (ho : o.Renews dirty ticket groupId) :
    Renewing dirty ticket groupId v v' := by
  refine ⟨hnew, [o], hhistory, ?_⟩
  intro o' ho'
  rwa [List.mem_singleton.mp ho']

/-- The reports of a completion start nothing. -/
theorem renews_of_mem_completion {op : Operation} {c : PPBContext} {address : UInt16}
    {success : Bool} {message : String} {groups : List (Nat × GroupInfo)} {o : Output}
    (h : o ∈ Engine.reportOf op c success message ++
      (Engine.settleGroups address success groups).2) : o.Renews dirty ticket groupId := by
  cases List.mem_append.mp h with
  | inl hreport =>
    obtain ⟨data, hcons, hdata⟩ := Engine.reportOf_eq_cons op c success message
    rw [hcons] at hreport
    cases List.mem_cons.mp hreport with
    | inl heq =>
      subst heq
      trivial
    | inr hmem =>
      obtain ⟨parsed, rfl⟩ | ⟨mask, packets, rfl⟩ := hdata o hmem
      · trivial
      · trivial
  | inr hfinished =>
    obtain ⟨entry, -, -, -, rfl⟩ := Engine.mem_settleGroups_snd _ _ _ hfinished
    trivial

theorem renewing_flashed (h : v.Renewed dirty ticket groupId) {address : UInt16}
    {request : Request} (suppressSend success : Bool) (message : String)
    (hrequest : dirty address ∨ request.origin.Since ticket groupId) :
    Renewing dirty ticket groupId v
      (v.flashed address request suppressSend success message) := by
  refine ⟨⟨h.nextTicket, h.nextGroupId, h.queue, h.waiting, h.starting⟩, _,
    View.flashed_history .., fun o ho => ?_⟩
  cases List.mem_cons.mp ho with
  | inl heq =>
    subst heq
    exact hrequest
  | inr hmem => exact renews_of_mem_completion hmem

theorem renewing_launched (h : v.Renewed dirty ticket groupId) {address : UInt16}
    {request : Request} (suppressSend : Bool) (ms : Nat)
    (hrequest : dirty address ∨ request.origin.Since ticket groupId) :
    Renewing dirty ticket groupId v (v.launched address request suppressSend ms) := by
  exact .of_record ⟨h.nextTicket, h.nextGroupId, h.queue, h.waiting, h.starting⟩
    (View.launched_history ..) hrequest

theorem renewing_membersLaunched {request : Request} (ms : Nat) (addresses : List UInt16)
    (hrequest : request.origin.Since ticket groupId) (h : v.Renewed dirty ticket groupId) :
    Renewing dirty ticket groupId v (v.membersLaunched request ms addresses) := by
  induction addresses generalizing v with
  | nil => exact .refl h
  | cons address rest ih =>
    have hfirst := @renewing_launched dirty ticket groupId v h address request true ms
      (.inr hrequest)
    exact hfirst.trans (ih hfirst.renewed)

theorem Begins.renewing {id : Nat} {mask : UInt16} (hbegins : Begins v id mask v')
    (hid : groupId ≤ id) (h : v.Renewed dirty ticket groupId) :
    Renewing dirty ticket groupId v v' := by
  have hbegun (w : View) (hw : w.Renewed dirty ticket groupId) :
      Renewing dirty ticket groupId w (w.groupBegun id mask) := by
    exact .of_record ⟨hw.nextTicket, hw.nextGroupId, hw.queue, hw.waiting, hw.starting⟩ rfl hid
  cases hbegins with
  | whole command ms =>
    have hfirst := hbegun v h
    exact hfirst.trans (renewing_membersLaunched ms _ hid hfirst.renewed)
  | @firstFails message address rest =>
    have hturn : Renewing dirty ticket groupId v
        { v with starting := rest.map (id, ·) ++ v.starting } := by
      refine .of_history_eq ⟨h.nextTicket, h.nextGroupId, h.queue, h.waiting, ?_⟩ rfl
      intro entry hentry
      cases List.mem_append.mp hentry with
      | inl hrest =>
        obtain ⟨b, -, rfl⟩ := List.mem_map.mp hrest
        exact hid
      | inr hold => exact h.starting entry hold
    have hfirst := hturn.trans (hbegun _ hturn.renewed)
    exact hfirst.trans (renewing_flashed hfirst.renewed true false message (.inr hid))

theorem StartMove.renewing (hmove : StartMove v v') (h : v.Renewed dirty ticket groupId) :
    Renewing dirty ticket groupId v v' := by
  cases hmove with
  | @waitingGroup front rest _ hwaiting hbegins =>
    have hpopped : Renewing dirty ticket groupId v { v with waiting := rest } := by
      refine .of_history_eq ⟨h.nextTicket, h.nextGroupId, h.queue, ?_, h.starting⟩ rfl
      intro group hgroup
      exact h.waiting group (hwaiting ▸ List.mem_cons_of_mem _ hgroup)
    have hfront := h.waiting front (hwaiting ▸ List.mem_cons_self)
    exact hpopped.trans (hbegins.renewing hfront hpopped.renewed)
  | @memberFails message id address rest hstarting _ =>
    have hturn : Renewing dirty ticket groupId v { v with starting := rest } := by
      refine .of_history_eq ⟨h.nextTicket, h.nextGroupId, h.queue, h.waiting, ?_⟩ rfl
      intro entry hentry
      exact h.starting entry (hstarting ▸ List.mem_cons_of_mem _ hentry)
    have hid := h.starting (id, address) (hstarting ▸ List.mem_cons_self)
    exact hturn.trans (renewing_flashed hturn.renewed true false message (.inr hid))
  | @memberSkipped _ _ rest hstarting _ =>
    refine .of_history_eq ⟨h.nextTicket, h.nextGroupId, h.queue, h.waiting, ?_⟩ rfl
    intro entry hentry
    exact h.starting entry (hstarting ▸ List.mem_cons_of_mem _ hentry)

/-- A single command that comes to its execution is new, or its queue is dirty. -/
theorem Takes.renewing {address : UInt16} {request : Request} (htakes : Takes v address request v')
    (h : v.Renewed dirty ticket groupId) :
    Renewing dirty ticket groupId v v' ∧
      (dirty address ∨ request.origin.Since ticket groupId) := by
  cases htakes with
  | fresh command =>
    refine ⟨.of_record ⟨?_, h.nextGroupId, h.queue, h.waiting, h.starting⟩ rfl trivial,
      .inr h.nextTicket⟩
    exact h.nextTicket.trans (Nat.le_succ _)
  | @queued _ rest hfront =>
    constructor
    · refine .of_history_eq ⟨h.nextTicket, h.nextGroupId, ?_, h.waiting, h.starting⟩ rfl
      intro b hclean other hother
      change other ∈ Function.update v.queue address rest b at hother
      apply h.queue b hclean other
      rcases eq_or_ne b address with heq | hne
      · subst heq
        rw [Function.update_self] at hother
        exact hfront ▸ List.mem_cons_of_mem _ hother
      · rwa [Function.update_of_ne hne] at hother
    · by_cases hdirty : dirty address
      · exact .inl hdirty
      · exact .inr (h.queue address hdirty request (hfront ▸ List.mem_cons_self))

/-- The step lemma, for one move of the dispatcher. -/
theorem Move.renewing {kind : MoveKind} (hmove : Move v kind v')
    (h : v.Renewed dirty ticket groupId) : Renewing dirty ticket groupId v v' := by
  cases hmove with
  | start hstart => exact hstart.renewing h
  | enqueue address command =>
    refine .of_record ⟨?_, h.nextGroupId, ?_, h.waiting, h.starting⟩ rfl trivial
    · exact h.nextTicket.trans (Nat.le_succ _)
    · intro b hclean request hrequest
      change request ∈ Function.update v.queue address _ b at hrequest
      rcases eq_or_ne b address with heq | hne
      · subst heq
        rw [Function.update_self] at hrequest
        cases List.mem_append.mp hrequest with
        | inl hold => exact h.queue b hclean request hold
        | inr hnew =>
          rw [List.mem_singleton.mp hnew]
          exact h.nextTicket
      · rw [Function.update_of_ne hne] at hrequest
        exact h.queue b hclean request hrequest
  | launch ms htakes =>
    obtain ⟨htaken, hrequest⟩ := htakes.renewing h
    exact htaken.trans (renewing_launched htaken.renewed false ms hrequest)
  | flash success message htakes =>
    obtain ⟨htaken, hrequest⟩ := htakes.renewing h
    exact htaken.trans (renewing_flashed htaken.renewed false success message hrequest)
  | finish =>
    refine ⟨⟨h.nextTicket, h.nextGroupId, h.queue, h.waiting, h.starting⟩, _,
      View.closed_history .., fun o ho => ?_⟩
    exact renews_of_mem_completion ho
  | @acceptGroup mask _ _ hbegins =>
    have hissued : Renewing dirty ticket groupId v
        ({ v with nextGroupId := v.nextGroupId + 1 }.record
          [.groupAccepted v.nextGroupId mask false]) :=
      .of_record ⟨h.nextTicket, h.nextGroupId.trans (Nat.le_succ _), h.queue, h.waiting,
        h.starting⟩ rfl trivial
    exact hissued.trans (hbegins.renewing h.nextGroupId hissued.renewed)
  | @queueGroup group hid =>
    refine .of_record ⟨h.nextTicket, ?_, h.queue, ?_, h.starting⟩ rfl trivial
    · exact h.nextGroupId.trans (Nat.le_succ _)
    · intro other hother
      cases List.mem_append.mp hother with
      | inl hold => exact h.waiting other hold
      | inr hnew =>
        rw [List.mem_singleton.mp hnew, hid]
        exact h.nextGroupId
  | image =>
    exact .of_history_eq ⟨h.nextTicket, h.nextGroupId, h.queue, h.waiting, h.starting⟩ rfl
  | fuReply =>
    exact .of_record ⟨h.nextTicket, h.nextGroupId, h.queue, h.waiting, h.starting⟩ rfl trivial
  | clear address =>
    refine .of_record ⟨h.nextTicket, h.nextGroupId, ?_, h.waiting, h.starting⟩ rfl trivial
    intro b hclean request hrequest
    change request ∈ Function.update v.queue address [] b at hrequest
    rcases eq_or_ne b address with heq | hne
    · subst heq
      rw [Function.update_self] at hrequest
      cases hrequest
    · rw [Function.update_of_ne hne] at hrequest
      exact h.queue b hclean request hrequest
  | disconnect =>
    refine .of_record ⟨h.nextTicket, h.nextGroupId, ?_, ?_, h.starting⟩ rfl trivial
    · intro b _ request hrequest
      cases hrequest
    · intro group hgroup
      cases hgroup

end

/-! The numbers that have been given out. -/

namespace View

/-- Tickets given out are below the next one. -/
def Ticketed (v : View) : Prop :=
  ∀ place ∈ accepted v.history, ∃ n < v.nextTicket, place.2 = .single n

variable {v v' : View}

theorem Ticketed.same (h : v.Ticketed) (haccepted : accepted v'.history = accepted v.history)
    (hnext : v'.nextTicket = v.nextTicket) : v'.Ticketed := by
  intro place hplace
  rw [haccepted] at hplace
  rw [hnext]
  exact h place hplace

theorem Ticketed.issue (h : v.Ticketed) {address : UInt16}
    (haccepted : accepted v'.history = accepted v.history ++ [(address, .single v.nextTicket)])
    (hnext : v'.nextTicket = v.nextTicket + 1) : v'.Ticketed := by
  intro place hplace
  rw [haccepted] at hplace
  rw [hnext]
  cases List.mem_append.mp hplace with
  | inl hold =>
    obtain ⟨n, hlt, heq⟩ := h place hold
    exact ⟨n, Nat.lt_succ_of_lt hlt, heq⟩
  | inr hnew =>
    rw [List.mem_singleton.mp hnew]
    exact ⟨v.nextTicket, Nat.lt_succ_self _, rfl⟩

end View

section
variable {v v' : View}

theorem Takes.ticketed {address : UInt16} {request : Request} (htakes : Takes v address request v')
    (h : v.Ticketed) : v'.Ticketed := by
  cases htakes with
  | fresh => exact @View.Ticketed.issue _ _ h address (by simp [Output.acceptedPlace]) rfl
  | queued => exact h.same rfl rfl

theorem Move.ticketed {kind : MoveKind} (hmove : Move v kind v') (h : v.Ticketed) :
    v'.Ticketed := by
  cases hmove with
  | start hstart =>
    have hsame := hstart.sameTickets
    exact h.same hsame.accepted hsame.nextTicket
  | enqueue address =>
    exact @View.Ticketed.issue _ _ h address (by simp [Output.acceptedPlace]) rfl
  | launch ms htakes => exact (htakes.ticketed h).same (by simp [Output.acceptedPlace]) rfl
  | flash success message htakes =>
    exact (htakes.ticketed h).same (by simp [Output.acceptedPlace]) rfl
  | finish => exact h.same (by simp) rfl
  | acceptGroup _ hbegins =>
    have hsame := hbegins.sameTickets
    refine h.same ?_ hsame.nextTicket
    rw [hsame.accepted]
    simp [Output.acceptedPlace]
  | queueGroup => exact h.same (by simp [Output.acceptedPlace]) rfl
  | image => exact h.same rfl rfl
  | fuReply => exact h.same (by simp [Output.acceptedPlace]) rfl
  | clear => exact h.same (by simp [Output.acceptedPlace]) rfl
  | disconnect => exact h.same (by simp [Output.acceptedPlace]) rfl

end

theorem View.ticketed_of_reach {guard : View → MoveKind → Prop} {v : View}
    (h : Machine.Reach View.machine guard v) : v.Ticketed := by
  refine h.invariant (P := Ticketed) (fun v hstart => ?_) fun _ _ _ hticketed _ hmove =>
    Move.ticketed hmove hticketed
  obtain ⟨-, -, -, -, -, -, -, -, hhistory, -⟩ := hstart
  intro place hplace
  rw [hhistory] at hplace
  cases hplace

/-! Runs of the engine. -/

namespace Engine

variable {dirty : UInt16 → Prop} {ticket groupId : Nat} {s t u : Engine}

theorem renewing_handle (h : Reachable AnyStep s) {e : Event} (henabled : s.enabled e)
    (hrenewed : (s.view []).Renewed dirty ticket groupId) :
    Renewing dirty ticket groupId (s.view []) ((s.handle e).view []) :=
  Machine.invariant_of_steps (P := Renewing dirty ticket groupId (s.view []))
    (fun _ _ hv hmove => hv.trans (hmove.renewing hv.renewed)) (.refl hrenewed)
    (moves_handle h henabled)

/-- A queue that is cleared is clean. -/
theorem renewed_handle (h : Reachable AnyStep s) {e : Event} (henabled : s.enabled e)
    (hrenewed : (s.view []).Renewed dirty ticket groupId) :
    ((s.handle e).view []).Renewed (fun address => dirty address ∧ e ≠ .clearCommandQueue address)
      ticket groupId := by
  have hkept := (renewing_handle h henabled hrenewed).renewed
  refine ⟨hkept.nextTicket, hkept.nextGroupId, fun address hclean request hrequest => ?_,
    hkept.waiting, hkept.starting⟩
  by_cases hdirty : dirty address
  · have hcleared : e = .clearCommandQueue address := by
      by_contra hne
      exact hclean ⟨hdirty, hne⟩
    subst hcleared
    change request ∈ (s.clearCommandQueue address).queueOf address at hrequest
    have hempty : (s.clearCommandQueue address).queueOf address = [] := by
      change ({ s with queues := s.queues.erase address } : Engine).queueOf address = []
      rw [queueOf_erase, Function.update_self]
    rw [hempty] at hrequest
    cases hrequest
  · exact hkept.queue address hdirty request hrequest

theorem reachable_of_run (h : Reachable AnyStep s) {events : List Event}
    (hrun : s.run events = some t) : Reachable AnyStep t :=
  reachable_run h (fun _ _ _ => trivial) hrun

/-- The run lemma for the clearing: the queues that have been cleared are clean. -/
theorem renewed_run (h : Reachable AnyStep s) (hrenewed : (s.view []).Renewed dirty ticket groupId)
    {events : List Event} (hrun : s.run events = some t) :
    (t.view []).Renewed (fun address => dirty address ∧ .clearCommandQueue address ∉ events)
      ticket groupId := by
  induction events generalizing s dirty with
  | nil =>
    cases hrun
    refine ⟨hrenewed.nextTicket, hrenewed.nextGroupId, fun address hclean => ?_,
      hrenewed.waiting, hrenewed.starting⟩
    exact hrenewed.queue address fun hdirty => hclean ⟨hdirty, List.not_mem_nil⟩
  | cons e rest ih =>
    simp only [run, Option.ite_none_right_eq_some] at hrun
    have hfirst := renewed_handle h hrun.1 hrenewed
    have hrest := ih (.step h trivial ⟨hrun.1, rfl⟩) hfirst hrun.2
    refine ⟨hrest.nextTicket, hrest.nextGroupId, fun address hclean => ?_, hrest.waiting,
      hrest.starting⟩
    apply hrest.queue address
    intro hdirty
    apply hclean
    refine ⟨hdirty.1.1, fun hmem => ?_⟩
    cases List.mem_cons.mp hmem with
    | inl heq => exact hdirty.1.2 heq.symm
    | inr hmem => exact hdirty.2 hmem

/-- The run lemma for what follows. -/
theorem renewing_run (h : Reachable AnyStep s) (hrenewed : (s.view []).Renewed dirty ticket groupId)
    {events : List Event} (hrun : s.run events = some t) :
    Renewing dirty ticket groupId (s.view []) (t.view []) := by
  induction events generalizing s with
  | nil =>
    cases hrun
    exact .refl hrenewed
  | cons e rest ih =>
    simp only [run, Option.ite_none_right_eq_some] at hrun
    have hfirst := renewing_handle h hrun.1 hrenewed
    exact hfirst.trans (ih (.step h trivial ⟨hrun.1, rfl⟩) hfirst.renewed hrun.2)

/-- Requests accepted so far. -/
def acceptedOrigins (s : Engine) : List Origin := s.log.filterMap Output.acceptedOrigin?

/-- Requests started between two states of a run. -/
def startedSince (s t : Engine) : List Origin :=
  (t.log.drop s.log.length).filterMap Output.startedOrigin?

theorem not_since_of_accepted (h : Reachable AnyStep s) {origin : Origin}
    (hmem : origin ∈ s.acceptedOrigins) : ¬origin.Since s.nextTicket s.nextGroupId := by
  obtain ⟨o, ho, horigin⟩ := List.mem_filterMap.mp hmem
  cases o with
  | accepted address _ queued =>
    cases horigin
    have hplace : (address, origin) ∈ accepted s.history := by
      apply List.mem_filterMap.mpr
      exact ⟨_, List.mem_filter.mpr ⟨ho, rfl⟩, rfl⟩
    obtain ⟨n, hlt, heq⟩ := View.ticketed_of_reach (reach_any h) _ hplace
    change origin = .single n at heq
    rw [heq]
    exact Nat.not_le.mpr hlt
  | groupAccepted id mask queued =>
    cases horigin
    have hentry : (id, mask) ∈ acceptedGroups s.history := by
      apply List.mem_filterMap.mpr
      exact ⟨_, List.mem_filter.mpr ⟨ho, rfl⟩, rfl⟩
    exact Nat.not_le.mpr ((View.placed_of_reach (reach_any h)).issued _ hentry).2
  | _ => cases horigin

/-- What has been started was new. -/
theorem since_of_started (h : Renewing (fun _ => False) ticket groupId (s.view []) (t.view []))
    {new : List Output} (hlog : t.log = s.log ++ new) {origin : Origin}
    (hmem : origin ∈ startedSince s t) : origin.Since ticket groupId := by
  obtain ⟨records, hhistory, hrecords⟩ := h.history
  have hrenews : ∀ o ∈ new, o.isRecord = true → o.Renews (fun _ => False) ticket groupId := by
    intro o ho hrecord
    apply hrecords
    change t.history = s.history ++ records at hhistory
    rw [history, hlog, List.filter_append] at hhistory
    rw [← List.append_cancel_left hhistory]
    exact List.mem_filter.mpr ⟨ho, hrecord⟩
  unfold startedSince at hmem
  rw [hlog, List.drop_left] at hmem
  obtain ⟨o, ho, horigin⟩ := List.mem_filterMap.mp hmem
  cases o with
  | started op behindGroups =>
    cases horigin
    exact (hrenews _ ho rfl).resolve_left id
  | groupStarted id mask =>
    cases horigin
    exact hrenews _ ho rfl
  | _ => cases horigin

/-- The addresses that are cleared. -/
def cancelAddresses : List UInt16 := 0 :: singleAddresses

/-- No request accepted before the clearing is started after it, if no group waited when it began
and no other address had a queue. -/
theorem cancelled_not_started (h : Reachable AnyStep s) (hgroups : s.pendingGroupCommands = [])
    (hqueues : ∀ address, address ∉ cancelAddresses → s.queueOf address = [])
    (clearing later : List Event) (hclearing : s.run clearing = some t)
    (hcleared : ∀ address ∈ cancelAddresses, .clearCommandQueue address ∈ clearing)
    (hlater : t.run later = some u) :
    ∀ origin ∈ startedSince t u, origin ∉ s.acceptedOrigins := by
  have hstart : (s.view []).Renewed (· ∈ cancelAddresses) s.nextTicket s.nextGroupId := by
    refine ⟨Nat.le_refl _, Nat.le_refl _, fun address hclean request hrequest => ?_,
      fun group hgroup => ?_, fun entry hentry => ?_⟩
    · change request ∈ s.queueOf address at hrequest
      rw [hqueues address hclean] at hrequest
      cases hrequest
    · change group ∈ s.pendingGroupCommands at hgroup
      rw [hgroups] at hgroup
      cases hgroup
    · cases hentry
  have hclean : (t.view []).Renewed (fun _ => False) s.nextTicket s.nextGroupId := by
    have hdone := renewed_run h hstart hclearing
    refine ⟨hdone.nextTicket, hdone.nextGroupId, fun address _ => ?_, hdone.waiting,
      hdone.starting⟩
    exact hdone.queue address fun hdirty => hdirty.2 (hcleared address hdirty.1)
  have ht := reachable_of_run h hclearing
  obtain ⟨new, hlog, -⟩ := sentPackets_run hlater
  intro origin hstarted haccepted
  exact not_since_of_accepted h haccepted
    (since_of_started (renewing_run ht hclean hlater) hlog hstarted)

/-- A VERS in flight at address 1, and another behind it. -/
def versQueued : Engine := versInFlight.handle (.executeCommand .vers 1)

/-- And a group behind both. -/
def groupBehind : Engine := versQueued.handle (.executeGroupCommand .vers 1 [])

/-- All cleared, one after the other. -/
def clearingEvents : List Event := cancelAddresses.map .clearCommandQueue

theorem versQueued_reachable : Reachable AnyStep versQueued :=
  @Machine.Reach.step _ _ machine _ _ _ (.executeCommand .vers 1) (versInFlight_reachable trivial)
    trivial ⟨trivial, rfl⟩

theorem queueOf_versQueued {address : UInt16} (h : address ∉ cancelAddresses) :
    versQueued.queueOf address = [] := by
  have hne : address ≠ 1 := by
    intro heq
    exact h (heq ▸ by decide)
  have hqueue : versQueued.queueOf =
      Function.update versInFlight.queueOf 1 [{ origin := .single 1, command := .versCommand }] :=
    queueOf_insert _ 1 _
  rw [hqueue, Function.update_of_ne hne]
  rfl

/-- The second VERS is not started when the first times out. -/
theorem cancelled_not_started_vers :
    let t := clearingEvents.foldl handle versQueued
    .single 1 ∉ startedSince t ((t.handle (.timeout 1)).handle (.queueTick [])) := by
  intro t hstarted
  exact cancelled_not_started versQueued_reachable rfl (fun address h => queueOf_versQueued h)
    clearingEvents [.timeout 1, .queueTick []] rfl (fun address hmem => List.mem_map_of_mem hmem)
    rfl _ hstarted (by decide)

/-- The group is started when the VERS in flight times out. -/
theorem not_cancelled_not_started :
    let t := clearingEvents.foldl handle groupBehind
    Reachable AnyStep groupBehind ∧ groupBehind.run clearingEvents = some t ∧
      (t.run [.timeout 1]).isSome ∧ .group 1 ∈ groupBehind.acceptedOrigins ∧
      .group 1 ∉ startedSince (init none {}) groupBehind ∧
      .group 1 ∈ startedSince t (t.handle (.timeout 1)) := by
  refine ⟨?_, rfl, rfl, by decide, by decide, by decide⟩
  exact @Machine.Reach.step _ _ machine _ _ _ (.executeGroupCommand .vers 1 [])
    versQueued_reachable trivial ⟨trivial, rfl⟩

end Engine

end PPB
