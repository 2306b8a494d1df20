import PPBProject.Groups

/- In which order the requests of one address start, as long as none is dropped by
   `clearCommandQueue` or `disconnect`.

   Three kinds of request meet at an address: those started at once because the
   address was free, single commands in the queue of the address, and groups in
   `m_pendingGroupCommands`. Nothing orders them as a whole. What was started at once
   precedes everything accepted later, and each of the two lines is first in, first
   out (`StartsAfter`); a request started at once passes those that wait, and the two
   lines pass each other. -/
namespace PPB

/-- Single commands and groups are numbered apart. -/
def Origin.isGroup : Origin → Bool
  | single _ => false
  | group _ => true

def Origin.number : Origin → Nat
  | single ticket => ticket
  | group groupId => groupId

/-- An acceptance that concerns `address`: of what, and whether it had to wait. -/
def Output.requestAt (address : UInt16) : Output → Option (Origin × Bool)
  | accepted a origin queued => if a = address then some (origin, queued) else none
  | groupAccepted groupId mask queued =>
    if address ∈ maskAddresses mask then some (.group groupId, queued) else none
  | _ => none

/-- The requests accepted at an address, in order. -/
def requests (h : List Output) (address : UInt16) : List (Origin × Bool) :=
  h.filterMap (Output.requestAt address)

/-- The requests whose operation started at an address, in order. -/
def startedAt (h : List Output) (address : UInt16) : List Origin :=
  ((starts h).filter (·.address = address)).map (·.origin)

/-- The request has started at `address`. The members of a VOLUME group without image data fail
one by one, so such a group counts as started once one of them has been reported. -/
def HasStarted (h : List Output) (address : UInt16) (origin : Origin) : Prop :=
  (address, origin) ∈ (starts h).map Operation.place ∨
    origin.isGroup = true ∧ ∃ op ∈ completions h, op.origin = origin ∧ op.command = .volume

/-- An operation starts after every request of its address that was accepted before its own and
either was started at once, or waited in the same line. -/
def StartsAfter (pre : List Output) (op : Operation) : Prop :=
  ∀ origin waited waited',
    List.Sublist [(origin, waited), (op.origin, waited')] (requests pre op.address) →
    waited = false ∨ (waited' = true ∧ origin.isGroup = op.origin.isGroup) →
    HasStarted pre op.address origin

def InTurn (pre : List Output) (x : Output) : Prop := ∀ op ∈ x.startedOp, StartsAfter pre op

section
variable (h h' : List Output) (address : UInt16)

@[simp] theorem requests_nil : requests [] address = [] := rfl

@[simp] theorem requests_cons (o : Output) :
    requests (o :: h) address = (o.requestAt address).toList ++ requests h address :=
  filterMap_cons_toList ..

@[simp] theorem requests_append :
    requests (h ++ h') address = requests h address ++ requests h' address :=
  List.filterMap_append

@[simp] theorem requests_map_started {α : Type} (members : List α) (f : α → Operation)
    (behindGroups : Bool) :
    requests (members.map fun member => .started (f member) behindGroups) address = [] :=
  filterMap_map_started _ _ _ _ fun _ => rfl

@[simp] theorem requests_reportOf (op : Operation) (c : PPBContext) (success : Bool)
    (message : String) : requests (Engine.reportOf op c success message) address = [] :=
  Engine.filterMap_reportOf _ _ _ _ _ (fun _ => rfl) fun _ _ => rfl

@[simp] theorem requests_settleGroups (b : UInt16) (success : Bool)
    (groups : List (Nat × GroupInfo)) :
    requests (Engine.settleGroups b success groups).2 address = [] :=
  Engine.filterMap_settleGroups _ _ _ _ fun _ _ => rfl

variable {h h' address}

theorem HasStarted.append {origin : Origin} (hs : HasStarted h address origin) (new : List Output) :
    HasStarted (h ++ new) address origin := by
  rcases hs with hplace | ⟨hgroup, op, hmem, hop⟩
  · exact .inl (by simp [hplace])
  · exact .inr ⟨hgroup, op, by simp [hmem], hop⟩

/-- Nothing is accepted between `h` and the start. -/
theorem StartsAfter.append {op : Operation} (hs : StartsAfter h op) {new : List Output}
    (hnew : ∀ address, requests new address = []) : StartsAfter (h ++ new) op := by
  intro origin waited waited' hsublist hline
  rw [requests_append, hnew, List.append_nil] at hsublist
  exact (hs origin waited waited' hsublist hline).append new

theorem inTurn_append {new : List Output} (hh : Machine.Chronicle InTurn h)
    (hnew : ∀ address, requests new address = [])
    (hops : ∀ op ∈ starts new, StartsAfter h op) : Machine.Chronicle InTurn (h ++ new) := by
  refine hh.append fun pre x post hsplit op hop => ?_
  have hmem : x ∈ new := hsplit ▸ List.mem_append_right _ List.mem_cons_self
  have hpre (a : UInt16) : requests pre a = [] := by
    have hnone := hnew a
    rw [hsplit, requests_append] at hnone
    exact (List.append_eq_nil_iff.mp hnone).1
  exact (hops op (List.mem_filterMap.mpr ⟨x, hmem, hop⟩)).append hpre

end

namespace View

/-- The number the next request gets. -/
def next (v : View) (isGroup : Bool) : Nat := if isGroup then v.nextGroupId else v.nextTicket

/-- The request waits in its line. -/
def Waits (v : View) (address : UInt16) : Origin → Prop
  | .single ticket => .single ticket ∈ (v.queue address).map Request.origin
  | .group groupId => groupId ∈ v.waiting.map (·.groupId)

/-- Requests are numbered in the order of acceptance, both lines are sorted, and a request that has
not started waits, `current` apart, which is about to start. -/
structure Ordered (v : View) (current : Option Origin) : Prop where
  numbered : ∀ a, (requests v.history a).Pairwise fun x y =>
    x.1.isGroup = y.1.isGroup → x.1.number < y.1.number
  issued : ∀ a, ∀ x ∈ requests v.history a, x.1.number < v.next x.1.isGroup
  queues : ∀ a, ((v.queue a).map Request.origin).Pairwise fun x y => x.number < y.number
  queued : ∀ a, ∀ request ∈ v.queue a, request.origin.number < v.nextTicket
  groups : v.waiting.Pairwise fun x y => x.groupId < y.groupId
  turns : ∀ turn ∈ v.starting, ∀ a, (.group turn.1, true) ∈ requests v.history a →
    ∀ group ∈ v.waiting, turn.1 < group.groupId
  served : ∀ a, ∀ x ∈ requests v.history a, current ≠ some x.1 →
    HasStarted v.history a x.1 ∨ x.2 = true ∧ v.Waits a x.1
  fresh : ∀ origin, current = some origin → ∀ a, (origin, true) ∉ requests v.history a
  inTurn : Machine.Chronicle InTurn v.history

section
variable {v v' : View} {current : Option Origin} {new : List Output}

/-- The operation that starts is the one that was accepted last, or comes first in its line. -/
theorem Ordered.startsAfter (h : v.Ordered current) {op : Operation}
    (hcurrent : ∀ origin, current = some origin → origin = op.origin)
    (hfirst : (op.origin, true) ∈ requests v.history op.address → ∀ origin,
      origin.isGroup = op.origin.isGroup → origin.number < op.origin.number →
        ¬ v.Waits op.address origin) :
    StartsAfter v.history op := by
  intro origin waited waited' hsublist hline
  have hmem : (origin, waited) ∈ requests v.history op.address := hsublist.subset (by simp)
  have hmem' : (op.origin, waited') ∈ requests v.history op.address := hsublist.subset (by simp)
  have hless : origin.isGroup = op.origin.isGroup → origin.number < op.origin.number := by
    have hpair := (h.numbered op.address).sublist hsublist
    simpa using hpair
  -- the request is older, so it is not the one that is starting now
  have hne : current ≠ some origin := by
    intro heq
    obtain rfl := hcurrent origin heq
    exact lt_irrefl _ (hless rfl)
  rcases h.served op.address _ hmem hne with hstarted | ⟨hwaited, hwaits⟩
  · exact hstarted
  -- it still waits: then it waits in the same line, ahead of the one that is first there
  · rcases hline with hfalse | ⟨rfl, hsame⟩
    · rw [hfalse] at hwaited
      cases hwaited
    · exact absurd hwaits (hfirst hmem' origin hsame (hless hsame))

/-- A move that accepts nothing: requests leave their line by starting. -/
theorem Ordered.advance (h : v.Ordered current) (hhistory : v'.history = v.history ++ new)
    (hrequests : ∀ a, requests new a = []) (hticket : v'.nextTicket = v.nextTicket)
    (hgroupId : v'.nextGroupId = v.nextGroupId)
    (hqueue : ∀ a, (v'.queue a).Sublist (v.queue a)) (hwaiting : v'.waiting.Sublist v.waiting)
    (hturns : ∀ turn ∈ v'.starting, ∀ a, (.group turn.1, true) ∈ requests v.history a →
      ∀ group ∈ v'.waiting, turn.1 < group.groupId)
    (hserved : ∀ a, ∀ x ∈ requests v.history a, (current = some x.1 ∨ v.Waits a x.1) →
      HasStarted v'.history a x.1 ∨ x.2 = true ∧ v'.Waits a x.1)
    (hops : ∀ op ∈ starts new, StartsAfter v.history op) : v'.Ordered none := by
  have hsame (a : UInt16) : requests v'.history a = requests v.history a := by
    rw [hhistory, requests_append, hrequests, List.append_nil]
  have hnext (isGroup : Bool) : v'.next isGroup = v.next isGroup := by
    rw [next, next, hticket, hgroupId]
  refine ⟨fun a => hsame a ▸ h.numbered a, fun a x hmem => ?_, fun a => ?_, fun a request hmem => ?_,
    h.groups.sublist hwaiting, fun turn hmem a hrequest => ?_, fun a x hmem _ => ?_, (by simp),
    hhistory ▸ inTurn_append h.inTurn hrequests hops⟩
  · exact hnext _ ▸ h.issued a x (hsame a ▸ hmem)
  · exact (h.queues a).sublist ((hqueue a).map _)
  · exact hticket ▸ h.queued a request ((hqueue a).subset hmem)
  · exact hturns turn hmem a (hsame a ▸ hrequest)
  · rw [hsame] at hmem
    by_cases hcurrent : current = some x.1
    · exact hserved a x hmem (.inl hcurrent)
    · rcases h.served a x hmem hcurrent with hstarted | ⟨hwaited, hwaits⟩
      · exact .inl (hhistory ▸ hstarted.append new)
      · exact hserved a x hmem (.inr hwaits)

/-- From `v` to `v'` the entries `new` are made, none of them an acceptance, and both lines stay as
they are. -/
structure Follows (v v' : View) (new : List Output) : Prop where
  history : v'.history = v.history ++ new
  requests : ∀ a, requests new a = []
  queue : v'.queue = v.queue
  waiting : v'.waiting = v.waiting
  starting : v'.starting ⊆ v.starting
  ticket : v'.nextTicket = v.nextTicket
  groupId : v'.nextGroupId = v.nextGroupId

theorem Follows.waits (hf : Follows v v' new) {a : UInt16} {origin : Origin}
    (hwaits : v.Waits a origin) : v'.Waits a origin := by
  cases origin with
  | single => simpa only [Waits, hf.queue] using hwaits
  | group => simpa only [Waits, hf.waiting] using hwaits

theorem Ordered.follows (h : v.Ordered current) (hf : Follows v v' new)
    (hops : ∀ op ∈ starts new, StartsAfter v.history op)
    (hcurrent : ∀ a, ∀ x ∈ requests v.history a, current = some x.1 →
      HasStarted v'.history a x.1) : v'.Ordered none := by
  refine h.advance hf.history hf.requests hf.ticket hf.groupId (fun a => hf.queue ▸ .refl _)
    (hf.waiting ▸ .refl _)
    (fun turn hturn a hx => hf.waiting ▸ h.turns turn (hf.starting hturn) a hx)
    (fun a x hx hor => ?_) hops
  by_cases heq : current = some x.1
  · exact .inl (hcurrent a x hx heq)
  · rcases h.served a x hx heq with hstarted | ⟨hwaited, hwaits⟩
    · exact .inl (hf.history ▸ hstarted.append new)
    · exact .inr ⟨hwaited, hf.waits hwaits⟩

/-- A move that neither accepts nor starts anything. -/
theorem Ordered.rest (h : v.Ordered none) (hf : Follows v v' new) (hstarts : starts new = []) :
    v'.Ordered none :=
  h.follows hf (by simp [hstarts]) (by simp)

/-- A request with the next number is accepted by the last entry, or not at all. -/
theorem Ordered.concerned {o : Output} (h : v.Ordered none) (origin : Origin)
    (hnumber : origin.number = v.next origin.isGroup) {a : UInt16} {x : Origin × Bool}
    (hmem : x ∈ requests (v.history ++ [o]) a) (hx : x.1 = origin) : o.requestAt a = some x := by
  rw [requests_append, requests_cons, requests_nil, List.append_nil] at hmem
  rcases List.mem_append.mp hmem with hold | hlast
  · subst hx
    exact absurd hnumber (h.issued a x hold).ne
  · exact Option.mem_toList.mp hlast

/-- An acceptance: the request gets the next number of its kind, and enters the end of its line
unless it is started at once. -/
theorem Ordered.accept {o : Output} (h : v.Ordered none) (origin : Origin) (queued : Bool)
    (hhistory : v'.history = v.history ++ [o]) (hstarted : o.startedOp = none)
    (hrequest : ∀ a, o.requestAt a = none ∨ o.requestAt a = some (origin, queued))
    (hnumber : origin.number = v.next origin.isGroup)
    (hnext : ∀ isGroup, v'.next isGroup = v.next isGroup + if isGroup = origin.isGroup then 1 else 0)
    (hqueues : ∀ a, ((v'.queue a).map Request.origin).Pairwise fun x y => x.number < y.number)
    (hqueued : ∀ a, ∀ request ∈ v'.queue a, request.origin.number < v'.nextTicket)
    (hgroups : v'.waiting.Pairwise fun x y => x.groupId < y.groupId)
    (hstarting : v'.starting = v.starting)
    (hturns : ∀ turn ∈ v.starting, turn.1 < v.nextGroupId)
    (hwaiting : ∀ group ∈ v'.waiting, group ∈ v.waiting ∨ group.groupId = v.nextGroupId)
    (hwaits : ∀ a x, v.Waits a x → v'.Waits a x)
    (hnew : queued = true → ∀ a, o.requestAt a ≠ none → v'.Waits a origin) :
    v'.Ordered (if queued then none else some origin) := by
  have hmem {a : UInt16} {x : Origin × Bool} (h : x ∈ requests v'.history a) :
      x ∈ requests v.history a ∨ o.requestAt a ≠ none ∧ x = (origin, queued) := by
    rw [hhistory, requests_append, requests_cons, requests_nil, List.append_nil] at h
    rcases List.mem_append.mp h with hold | hlast
    · exact .inl hold
    · rcases hrequest a with hnone | hsome
      · simp [hnone] at hlast
      · exact .inr ⟨by simp [hsome], by simpa [hsome] using hlast⟩
  -- earlier requests have other numbers
  have hold {a : UInt16} {x : Origin × Bool} (hx : x ∈ requests v.history a) : x.1 ≠ origin := by
    rintro rfl
    exact (h.issued a x hx).ne hnumber
  refine ⟨fun a => ?_, fun a x hx => ?_, hqueues, hqueued, hgroups, fun turn hturn a hx group hgroup
    => ?_, fun a x hx hne => ?_, fun other heq a hx => ?_, ?_⟩
  · rw [hhistory, requests_append, requests_cons, requests_nil, List.append_nil]
    rcases hrequest a with hnone | hsome
    · simpa [hnone] using h.numbered a
    · rw [hsome, Option.toList_some, List.pairwise_append]
      refine ⟨h.numbered a, List.pairwise_singleton .., fun x hx y hy hsame => ?_⟩
      obtain rfl := List.mem_singleton.mp hy
      have hless := h.issued a x hx
      rw [hsame] at hless
      exact hnumber ▸ hless
  · rw [hnext]
    rcases hmem hx with hx | ⟨-, rfl⟩
    · exact Nat.lt_add_right _ (h.issued a x hx)
    · simp [hnumber]
  · rw [hstarting] at hturn
    rcases hwaiting group hgroup with hgroup | heq
    · rcases hmem hx with hx | ⟨-, heq⟩
      · exact h.turns turn hturn a hx group hgroup
      · cases heq
        exact absurd hnumber (hturns turn hturn).ne
    · exact heq ▸ hturns turn hturn
  · rcases hmem hx with hx | ⟨hconcerns, rfl⟩
    · rcases h.served a x hx (by simp) with hdone | ⟨hwaited, hline⟩
      · exact .inl (hhistory ▸ hdone.append [o])
      · exact .inr ⟨hwaited, hwaits a x.1 hline⟩
    · cases queued with
      | false => exact absurd rfl hne
      | true => exact .inr ⟨rfl, hnew rfl a hconcerns⟩
  · cases queued with
    | true => cases heq
    | false =>
      obtain rfl := Option.some.inj heq
      rcases hmem hx with hx | ⟨-, heq⟩
      · exact hold hx rfl
      · cases heq
  · rw [hhistory]
    refine h.inTurn.snoc fun op hop => ?_
    rw [hstarted] at hop
    cases hop

theorem Unique.turn_issued (h : v.Unique) : ∀ turn ∈ v.starting, turn.1 < v.nextGroupId := by
  intro turn hturn
  by_contra hle
  have hzero := h.unissued turn.1 turn.2 (not_lt.mp hle)
  have hpos : 0 < v.starting.count (turn.1, turn.2) := List.count_pos_iff.mpr hturn
  unfold begun at hzero
  omega

/-- A single command comes to its execution. -/
theorem Ordered.takes {w : View} {address : UInt16} {request : Request} (h : v.Ordered none)
    (hunique : v.Unique) (htakes : Takes v address request v') (hf : Follows v' w new)
    (hstarts : starts new = [request.operation address]) : w.Ordered none := by
  have hdone : HasStarted w.history address request.origin :=
    .inl (by simp [hf.history, hstarts, Operation.place, Request.operation])
  cases htakes with
  | fresh command =>
    have haccepted : (({ v with nextTicket := v.nextTicket + 1 } : View).record
        [.accepted address (.single v.nextTicket) false]).Ordered (some (.single v.nextTicket)) :=
      h.accept (.single v.nextTicket) false rfl rfl
        (fun a => by by_cases heq : address = a <;> simp [Output.requestAt, heq]) rfl
        (fun isGroup => by cases isGroup <;> rfl) h.queues
        (fun a request hmem => Nat.lt_succ_of_lt (h.queued a request hmem)) h.groups rfl
        hunique.turn_issued (fun group hmem => .inl hmem) (fun a x hx => by cases x <;> exact hx)
        (by simp)
    -- the last entry is the only request with this ticket
    refine haccepted.follows hf (fun op hop => ?_) fun a x hx heq => ?_
    · rw [hstarts, List.mem_singleton] at hop
      subst hop
      exact haccepted.startsAfter (fun origin heq => (Option.some.inj heq).symm)
        fun hmem => absurd hmem (haccepted.fresh _ rfl address)
    · have hconcerned := h.concerned (.single v.nextTicket) rfl hx (Option.some.inj heq).symm
      simp only [Output.requestAt, Option.ite_none_right_eq_some] at hconcerned
      rw [← hconcerned.1, ← Option.some.inj heq]
      exact hdone
  | @queued _ rest hfront =>
    obtain ⟨n, horigin⟩ := hunique.single address request (by simp [hfront])
    -- the front of a sorted queue has the least ticket
    have hsorted := h.queues address
    rw [hfront, List.map_cons, List.pairwise_cons, horigin] at hsorted
    refine h.advance hf.history hf.requests hf.ticket hf.groupId (fun a => ?_) (hf.waiting ▸ .refl _)
      (fun turn hturn a hx => hf.waiting ▸ h.turns turn (hf.starting hturn) a hx)
      (fun a x hx hor => ?_) fun op hop => ?_
    · rw [hf.queue]
      rcases eq_or_ne a address with rfl | hne
      · simp [hfront]
      · simp [Function.update_of_ne hne]
    · rcases h.served a x hx (by simp) with hstarted | ⟨hwaited, hwaits⟩
      · exact .inl (hf.history ▸ hstarted.append new)
      · obtain ⟨origin, waited⟩ := x
        cases origin with
        | group groupId => exact .inr ⟨hwaited, hf.waits hwaits⟩
        | single ticket =>
          rcases eq_or_ne a address with rfl | hne
          · rw [Waits, hfront, List.map_cons, List.mem_cons] at hwaits
            rcases hwaits with heq | hwaits
            · exact .inl (heq ▸ hdone)
            · exact .inr ⟨hwaited, hf.waits (by simpa [Waits] using hwaits)⟩
          · exact .inr ⟨hwaited, hf.waits (by simpa [Waits, hne] using hwaits)⟩
    · rw [hstarts, List.mem_singleton] at hop
      subst hop
      refine h.startsAfter (by simp) fun _ origin hsame hless hwaits => ?_
      change origin.isGroup = request.origin.isGroup at hsame
      change origin.number < request.origin.number at hless
      change v.Waits address origin at hwaits
      rw [horigin] at hsame hless
      cases origin with
      | group => cases hsame
      | single ticket =>
        rw [Waits, hfront, List.map_cons, List.mem_cons, horigin] at hwaits
        rcases hwaits with heq | hwaits
        · cases heq
          exact lt_irrefl _ hless
        · exact lt_asymm hless (hsorted.1 _ hwaits)

theorem mem_requests_group {h : List Output} {a : UInt16} {groupId : Nat} {waited : Bool}
    (hmem : (.group groupId, waited) ∈ requests h a) :
    (∃ mask, (groupId, mask) ∈ acceptedGroups h ∧ a ∈ maskAddresses mask) ∨
      ∃ b, (b, .group groupId) ∈ accepted h := by
  obtain ⟨o, ho, hrequest⟩ := List.mem_filterMap.mp hmem
  cases o with
  | accepted b origin queued =>
    simp only [Output.requestAt, Option.ite_none_right_eq_some, Option.some.injEq,
      Prod.mk.injEq] at hrequest
    obtain ⟨-, rfl, -⟩ := hrequest
    exact .inr ⟨b, List.mem_filterMap.mpr ⟨_, ho, rfl⟩⟩
  | groupAccepted otherId mask queued =>
    simp only [Output.requestAt, Option.ite_none_right_eq_some, Option.some.injEq,
      Prod.mk.injEq, Origin.group.injEq] at hrequest
    obtain ⟨hconcerned, rfl, -⟩ := hrequest
    exact .inl ⟨mask, List.mem_filterMap.mpr ⟨_, ho, rfl⟩, hconcerned⟩
  | _ => cases hrequest

/-- A group that begins starts its own operations only, and all of them, or fails one. -/
theorem Begins.starts {groupId : Nat} {mask : UInt16} (h : Begins v groupId mask v') :
    ∃ new, v'.history = v.history ++ new ∧ (∀ a, requests new a = []) ∧
      (∀ op ∈ starts new, op.origin = .group groupId) ∧
      (∀ a ∈ maskAddresses mask, HasStarted v'.history a (.group groupId)) ∧
      ∀ turn ∈ v'.starting, turn ∈ v.starting ∨ turn.1 = groupId := by
  cases h with
  | whole command ms =>
    refine ⟨_, by rw [membersLaunched_history, groupBegun_history, List.append_assoc], fun a => ?_,
      fun op hop => ?_, fun a ha => .inl ?_, fun turn hturn => .inl (by simpa using hturn)⟩
    · simp [Output.requestAt]
    · simp only [starts_append, starts_cons, Output.startedOp, starts_nil, Option.toList_none,
        List.nil_append, starts_map_started, List.mem_map] at hop
      obtain ⟨a, -, rfl⟩ := hop
      rfl
    · rw [membersLaunched_history, starts_append, starts_map_started, List.map_append]
      exact List.mem_append_right _ (by simp [Operation.place, Request.operation, ha])
  | @firstFails message first rest =>
    refine ⟨_, by rw [flashed_history, groupBegun_history, List.append_assoc], fun a => ?_,
      fun op hop => ?_, fun a ha => .inr ⟨rfl, ?_⟩, fun turn hturn => ?_⟩
    · simp [Output.requestAt]
    · simp only [starts_append, starts_cons, Output.startedOp, starts_nil, Option.toList_none,
        List.nil_append, Option.toList_some, Engine.starts_reportOf, Engine.starts_settleGroups,
        List.append_nil, List.mem_singleton] at hop
      rw [hop]
      rfl
    -- the failure of the first member is the report that counts as a start
    · refine ⟨Request.operation { origin := .group groupId, command := .volumeCommand } first, ?_,
        rfl, rfl⟩
      simp only [flashed_history, completions_append, completions_cons,
        Engine.completions_reportOf, List.mem_append]
      exact .inr (.inr (.inl (List.mem_singleton_self _)))
    · simp only [flashed_starting, groupBegun_starting, List.mem_append, List.mem_map] at hturn
      rcases hturn with ⟨a, -, rfl⟩ | hturn
      · exact .inr rfl
      · exact .inl hturn

/-- A group comes to its start: it was accepted just now, or is the first of those that wait. -/
theorem Ordered.begins {groupId : Nat} {mask : UInt16} (h : v.Ordered current)
    (rest : List PendingGroupCommand)
    (hbegins : Begins ({ v with waiting := rest } : View) groupId mask v')
    (hcurrent : ∀ origin, current = some origin → origin = .group groupId)
    (hrest : rest.Sublist v.waiting)
    (hleft : ∀ group ∈ v.waiting, group ∈ rest ∨ group.groupId = groupId)
    (hfirst : ∀ a, (.group groupId, true) ∈ requests v.history a →
      (∀ group ∈ v.waiting, groupId ≤ group.groupId) ∧ ∀ group ∈ rest, groupId < group.groupId)
    (hmask : ∀ a, ∀ x ∈ requests v.history a, x.1 = .group groupId → a ∈ maskAddresses mask) :
    v'.Ordered none := by
  obtain ⟨new, hhistory, hrequests, hops, hdone, hstarting⟩ := Begins.starts hbegins
  have hlines := hbegins.sameTickets
  have hwaiting : v'.waiting = rest := hbegins.waiting_eq
  refine h.advance hhistory hrequests hlines.nextTicket hbegins.nextGroupId_eq
    (fun a => hlines.queue ▸ .refl _) (hwaiting ▸ hrest) (fun turn hturn a hx group hgroup => ?_)
    (fun a x hx hor => ?_) fun op hop => ?_
  · rw [hwaiting] at hgroup
    rcases hstarting turn hturn with hturn | heq
    · exact h.turns turn hturn a hx group (hrest.subset hgroup)
    · rw [heq] at hx ⊢
      exact (hfirst a hx).2 group hgroup
  -- the group itself has started; every other request keeps its place
  · by_cases heq : x.1 = .group groupId
    · rw [heq]
      exact .inl (hdone a (hmask a x hx heq))
    · have hnot : current ≠ some x.1 := fun hsome => heq (hcurrent _ hsome)
      rcases h.served a x hx hnot with hstarted | ⟨hwaited, hwaits⟩
      · exact .inl (hhistory ▸ hstarted.append new)
      · refine .inr ⟨hwaited, ?_⟩
        obtain ⟨origin, waited⟩ := x
        cases origin with
        | single ticket => simpa only [Waits, hlines.queue] using hwaits
        | group otherId =>
          obtain ⟨group, hgroup, rfl⟩ := List.mem_map.mp hwaits
          have hin := (hleft group hgroup).resolve_right fun hsame => heq (hsame ▸ rfl)
          rw [Waits, hwaiting]
          exact List.mem_map_of_mem hin
  · have horigin := hops op hop
    refine h.startsAfter (fun origin hsome => (hcurrent origin hsome).trans horigin.symm) ?_
    rw [horigin]
    intro hx origin hsame hless hwaits
    cases origin with
    | single => cases hsame
    | group otherId =>
      obtain ⟨group, hgroup, rfl⟩ := List.mem_map.mp hwaits
      exact absurd hless (not_lt.mpr ((hfirst _ hx).1 group hgroup))

theorem Ordered.startMove (h : v.Ordered none) (hplaced : v.Placed) (hbooked : v.Booked 0)
    (hmove : StartMove v v') : v'.Ordered none := by
  cases hmove with
  | @waitingGroup front rest _ hwaiting hbegins =>
    -- the front of `m_pendingGroupCommands` has the least id
    have hsorted := h.groups
    rw [hwaiting, List.pairwise_cons] at hsorted
    refine h.begins rest hbegins (by simp) ?_ (fun group hmem => ?_) (fun a hx => ⟨fun group hmem => ?_,
      hsorted.1⟩) fun a x hx heq => ?_
    · rw [hwaiting]
      exact List.sublist_cons_self ..
    · rw [hwaiting] at hmem
      rcases List.mem_cons.mp hmem with rfl | hmem
      · exact .inr rfl
      · exact .inl hmem
    · rw [hwaiting] at hmem
      rcases List.mem_cons.mp hmem with rfl | hmem
      · exact le_rfl
      · exact (hsorted.1 group hmem).le
    · obtain ⟨origin, waited⟩ := x
      cases heq
      rcases mem_requests_group hx with ⟨mask, haccepted, hconcerned⟩ | ⟨b, haccepted⟩
      -- an id is accepted once, so with this mask
      · have hmasks := hplaced.masks front (by simp [hwaiting])
        have hsame := List.inj_on_of_nodup_map hplaced.nodup haccepted hmasks rfl
        cases hsame
        exact hconcerned
      · obtain ⟨n, -, heq⟩ := hbooked.issued _ haccepted
        cases heq
  | @memberFails message groupId address rest hstarting =>
    refine h.follows ⟨flashed_history .., fun a => by simp [Output.requestAt], rfl, rfl, ?_, rfl,
      rfl⟩ (fun op hop => ?_) (by simp)
    · rw [hstarting]
      exact List.subset_cons_self ..
    · simp only [starts_cons, Output.startedOp, starts_append, Engine.starts_reportOf,
        Engine.starts_settleGroups, List.append_nil, Option.toList_some, List.mem_singleton] at hop
      subst hop
      refine h.startsAfter (by simp) fun hx origin hsame hless hwaits => ?_
      cases origin with
      | single => cases hsame
      | group otherId =>
        obtain ⟨group, hgroup, rfl⟩ := List.mem_map.mp hwaits
        exact lt_asymm hless (h.turns (groupId, address) (by simp [hstarting]) _ hx group hgroup)
  | memberSkipped hstarting =>
    refine h.rest ⟨(List.append_nil _).symm, fun _ => rfl, rfl, rfl, ?_, rfl, rfl⟩ rfl
    rw [hstarting]
    exact List.subset_cons_self ..

/-- Every move that drops no request keeps the order. -/
theorem Ordered.move (h : v.Ordered none) (hunique : v.Unique) (hplaced : v.Placed)
    (hbooked : v.Booked 0) (hmove : Move v .ordinary v') : v'.Ordered none := by
  cases hmove with
  | start hstart => exact h.startMove hplaced hbooked hstart
  | enqueue address command =>
    refine h.accept (.single v.nextTicket) true rfl rfl
      (fun a => by by_cases heq : address = a <;> simp [Output.requestAt, heq]) rfl
      (fun isGroup => by cases isGroup <;> rfl) (fun a => ?_) (fun a request hmem => ?_) h.groups rfl
      hunique.turn_issued (fun group hmem => .inl hmem) (fun a x hx => ?_) fun _ a hconcerns => ?_
    · rcases eq_or_ne a address with rfl | hne
      · simp only [record_queue, Function.update_self, List.map_append, List.map_cons, List.map_nil]
        refine List.pairwise_append.mpr ⟨h.queues a, List.pairwise_singleton .., ?_⟩
        rintro x hx y hy
        obtain ⟨request, hmem, rfl⟩ := List.mem_map.mp hx
        obtain rfl := List.mem_singleton.mp hy
        exact h.queued a request hmem
      · simpa only [record_queue, Function.update_of_ne hne] using h.queues a
    · rcases eq_or_ne a address with rfl | hne
      · simp only [record_queue, Function.update_self, List.mem_append, List.mem_singleton] at hmem
        rcases hmem with hmem | rfl
        · exact Nat.lt_succ_of_lt (h.queued a request hmem)
        · exact Nat.lt_succ_self _
      · simp only [record_queue, Function.update_of_ne hne] at hmem
        exact Nat.lt_succ_of_lt (h.queued a request hmem)
    · cases x with
      | group => exact hx
      | single ticket =>
        rcases eq_or_ne a address with rfl | hne
        · simp only [Waits, record_queue, Function.update_self, List.map_append]
          exact List.mem_append_left _ hx
        · simpa only [Waits, record_queue, Function.update_of_ne hne] using hx
    · simp only [Output.requestAt, ne_eq, ite_eq_right_iff, reduceCtorEq, imp_false,
        not_not] at hconcerns
      subst hconcerns
      simp [Waits]
  | launch ms htakes =>
    exact h.takes hunique htakes ⟨launched_history .., fun a => by simp [Output.requestAt], rfl, rfl,
      List.Subset.refl _, rfl, rfl⟩ (by simp [Output.startedOp])
  | flash success message htakes =>
    exact h.takes hunique htakes ⟨flashed_history .., fun a => by simp [Output.requestAt], rfl, rfl,
      List.Subset.refl _, rfl, rfl⟩ (by simp [Output.startedOp])
  | finish =>
    exact h.rest ⟨rfl, fun a => by simp, rfl, rfl, List.Subset.refl _, rfl, rfl⟩ (by simp)
  | @acceptGroup mask _ _ hbegins =>
    have haccepted : (({ v with nextGroupId := v.nextGroupId + 1 } : View).record
        [.groupAccepted v.nextGroupId mask false]).Ordered (some (.group v.nextGroupId)) :=
      h.accept (.group v.nextGroupId) false rfl rfl
        (fun a => by by_cases hmem : a ∈ maskAddresses mask <;> simp [Output.requestAt, hmem]) rfl
        (fun isGroup => by cases isGroup <;> rfl) h.queues h.queued h.groups rfl
        hunique.turn_issued (fun group hmem => .inl hmem) (fun a x hx => by cases x <;> exact hx)
        (by simp)
    refine haccepted.begins v.waiting hbegins (fun origin hsome =>
      (Option.some.inj hsome).symm) (.refl _) (fun group hmem => .inl hmem)
      (fun a hx => absurd hx (haccepted.fresh _ rfl a)) fun a x hx heq => ?_
    have hconcerned := h.concerned (.group v.nextGroupId) rfl hx heq
    simp only [Output.requestAt, Option.ite_none_right_eq_some] at hconcerned
    exact hconcerned.1
  | @queueGroup group hid =>
    refine h.accept (.group group.groupId) true rfl rfl
      (fun a => by by_cases hmem : a ∈ maskAddresses group.mask <;> simp [Output.requestAt, hmem])
      hid (fun isGroup => by cases isGroup <;> rfl) h.queues h.queued ?_ rfl hunique.turn_issued
      (fun other hmem => ?_) (fun a x hx => ?_) fun _ a _ => ?_
    · refine List.pairwise_append.mpr ⟨h.groups, List.pairwise_singleton .., fun x hx y hy => ?_⟩
      obtain rfl := List.mem_singleton.mp hy
      exact hid ▸ (hunique.waiting x hx).1
    · rcases List.mem_append.mp hmem with hmem | hmem
      · exact .inl hmem
      · exact .inr (List.mem_singleton.mp hmem ▸ hid)
    · cases x with
      | single => exact hx
      | group otherId =>
        simp only [Waits, record_waiting, List.map_append]
        exact List.mem_append_left _ hx
    · simp [Waits]
  | image =>
    exact h.rest ⟨(List.append_nil _).symm, fun _ => rfl, rfl, rfl, List.Subset.refl _, rfl, rfl⟩ rfl
  | fuReply =>
    exact h.rest ⟨rfl, fun a => by simp [Output.requestAt], rfl, rfl, List.Subset.refl _, rfl, rfl⟩
      rfl

end

theorem ordered_of_reach {v : View}
    (h : Machine.Reach machine (fun _ kind => kind = .ordinary) v) : v.Ordered none := by
  refine h.invariant' (P := fun w => w.Ordered none) (fun v hstart => ?_)
    fun v kind v' hreach hordered hkind hmove => ?_
  · obtain ⟨-, -, hqueue, -, hwaiting, -, -, -, hhistory, hstarting⟩ := hstart
    refine ⟨?_, ?_, ?_, ?_, ?_, ?_, ?_, (by simp), hhistory ▸ .nil⟩ <;>
      simp [hhistory, hqueue, hwaiting, hstarting]
  · subst hkind
    have hcalm : Machine.Reach machine (fun _ kind => kind ≠ .disconnect) v :=
      hreach.mono fun _ _ hkind => by simp [hkind]
    exact hordered.move (unique_of_reach hreach) (placed_of_reach hreach) (booked_of_reach hcalm)
      hmove

end View

/-- No step is a `disconnect` or a `clearCommandQueue`. -/
def NoDrop (_ : Engine) (e : Event) : Prop :=
  e ≠ .disconnect ∧ ∀ address, e ≠ .clearCommandQueue address

namespace Engine

/-- **Per-address order.** In a run without `clearCommandQueue` and `disconnect`, an operation starts
after every request of its address that was accepted earlier and was started at once, or waited in
the same line. -/
theorem starts_in_turn {s : Engine} (h : Reachable NoDrop s) :
    Machine.Chronicle InTurn s.history := by
  have hkind (s : Engine) (e : Event) (hdrop : NoDrop s e) : e.kind = .ordinary := by
    cases e <;> simp_all [NoDrop, Event.kind]
  exact (View.ordered_of_reach (reach_view hkind h)).inTurn

/-- A TS is queued by `connectToPPB`, a VERS is started at once, and the TS only after it. -/
def overtaking : List Event :=
  [.connectToPPB 1 "" 0, .executeCommand .vers 1, .datagram [0, 1, 0, 2], .posted 0 []]

theorem overtaking_run : ∃ s, Reachable NoDrop s ∧ startedAt s.history 1 = [.single 1, .single 0] ∧
    requests s.history 1 = [(.single 0, true), (.single 1, false)] := by
  have hrun : ((init none {}).run overtaking).map (fun s : Engine => (startedAt s.history 1,
      requests s.history 1)) = some ([.single 1, .single 0],
        [(.single 0, true), (.single 1, false)]) := by decide
  obtain ⟨s, hrun, heq⟩ := Option.map_eq_some_iff.mp hrun
  refine ⟨s, reachable_run (.start ⟨none, {}, rfl⟩) (fun e he t => ?_) hrun, Prod.mk.inj heq⟩
  simp only [overtaking, List.mem_cons, List.not_mem_nil, or_false] at he
  rcases he with rfl | rfl | rfl | rfl <;> simp [NoDrop]

theorem starts_in_turn_overtaking : ∃ s : Engine, startedAt s.history 1 = [.single 1, .single 0] ∧
    Machine.Chronicle InTurn s.history := by
  obtain ⟨s, hreach, hstarted, -⟩ := overtaking_run
  exact ⟨s, hstarted, starts_in_turn hreach⟩

/-- Operations do not start in the order of acceptance. -/
theorem not_started_in_order : ¬ ∀ s, Reachable NoDrop s → ∀ address,
    (startedAt s.history address).Sublist ((requests s.history address).map Prod.fst) := by
  intro hall
  obtain ⟨s, hreach, hstarted, hrequests⟩ := overtaking_run
  have hsublist := hall s hreach 1
  rw [hstarted, hrequests] at hsublist
  revert hsublist
  decide

end Engine

end PPB
