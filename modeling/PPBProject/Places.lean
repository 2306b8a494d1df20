import Mathlib.Data.List.DropRight
import PPBProject.Ledger

/- Where each group is: waiting, active or finished. The moves carry groups from one
   place to the next (`Carries`), and only an acceptance brings one in; so the counts
   balance from one `disconnect`, which drops the first two places, to the next. -/
namespace PPB

/-- The records since the last `disconnect`. -/
def sinceDisconnect (h : List Output) : List Output := h.rtakeWhile (· ≠ .disconnected)

theorem sinceDisconnect_append {h new : List Output} (hcalm : .disconnected ∉ new) :
    sinceDisconnect (h ++ new) = sinceDisconnect h ++ new := by
  have hall : ∀ o ∈ new.reverse, decide (o ≠ .disconnected) = true := by
    rintro o ho
    rw [List.mem_reverse] at ho
    exact decide_eq_true fun heq => hcalm (heq ▸ ho)
  rw [sinceDisconnect, List.rtakeWhile, List.reverse_append, List.takeWhile_append_of_pos hall,
    List.reverse_append, List.reverse_reverse]
  rfl

@[simp] theorem sinceDisconnect_disconnected (h : List Output) :
    sinceDisconnect (h ++ [.disconnected]) = [] :=
  List.rtakeWhile_concat_neg _ _ _ (by simp)

theorem sinceDisconnect_suffix (h : List Output) : sinceDisconnect h <:+ h :=
  List.rtakeWhile_suffix ..

/-- `m_groupOperations` under a new id has one entry more. -/
theorem insertGroup_perm {groupId : Nat} {g : GroupInfo} {groups : List (Nat × GroupInfo)}
    (hnew : groupId ∉ groups.map Prod.fst) :
    (Engine.insertGroup groupId g groups).Perm ((groupId, g) :: groups) := by
  induction groups with
  | nil => exact .refl _
  | cons entry rest ih =>
    rw [List.map_cons, List.mem_cons, not_or] at hnew
    simp only [Engine.insertGroup]
    split
    · exact .refl _
    · rw [if_neg hnew.1]
      exact ((ih hnew.2).cons entry).trans (.swap ..)

namespace View

/-- How often a group waits or is active. -/
def held (v : View) (groupId : Nat) : Nat :=
  (v.waiting.map (·.groupId)).count groupId + (v.groups.map Prod.fst).count groupId

/-- From `v` to `v'` the entries `new` are made, the groups `arrived` join those held, and a group
that is no longer held is reported. -/
structure Carries (v v' : View) (new : List Output) (arrived : List Nat) : Prop where
  history : v'.history = v.history ++ new
  calm : .disconnected ∉ new
  count : ∀ groupId, v'.held groupId + (finishedGroups new).count groupId =
    v.held groupId + arrived.count groupId

section
variable {v v' : View} {new : List Output}

/-- Groups stay where they are. -/
theorem Carries.same (hhistory : v'.history = v.history ++ new) (hcalm : .disconnected ∉ new)
    (hwaiting : v'.waiting = v.waiting) (hgroups : v'.groups = v.groups)
    (hfinished : finishedGroups new = []) : Carries v v' new [] :=
  ⟨hhistory, hcalm, fun groupId => by simp [held, hwaiting, hgroups, hfinished]⟩

theorem Carries.trans {v'' : View} {new' : List Output} {arrived arrived' : List Nat}
    (h : Carries v v' new arrived) (h' : Carries v' v'' new' arrived') :
    Carries v v'' (new ++ new') (arrived ++ arrived') where
  history := by rw [h'.history, h.history, List.append_assoc]
  calm hmem := (List.mem_append.mp hmem).elim h.calm h'.calm
  count groupId := by
    have hcount := h.count groupId
    have hcount' := h'.count groupId
    simp only [finishedGroups_append, List.count_append]
    omega

end

section
variable {v : View} {address : UInt16} {request : Request} {suppressSend success : Bool}
  {message : String}

theorem disconnected_notMem_completion {op : Operation} {c : PPBContext}
    {groups : List (Nat × GroupInfo)} : .disconnected ∉ Engine.reportOf op c success message ++
      (Engine.settleGroups address success groups).2 := by
  rintro hmem
  rcases List.mem_append.mp hmem with hmem | hmem
  · obtain ⟨data, hreport, hdata⟩ := Engine.reportOf_eq_cons op c success message
    rw [hreport] at hmem
    rcases List.mem_cons.mp hmem with heq | hmem
    · cases heq
    · rcases hdata _ hmem with ⟨_, heq⟩ | ⟨_, _, heq⟩ <;> cases heq
  · obtain ⟨_, -, -, -, heq⟩ := Engine.mem_settleGroups_snd _ _ _ hmem
    cases heq

theorem carries_closed {c : PPBContext} : Carries v (v.closed address c request success message)
    (Engine.reportOf (request.operation address) c success message ++
      (Engine.settleGroups address success v.groups).2) [] where
  history := rfl
  calm := disconnected_notMem_completion
  count groupId := by
    have hcount := Engine.count_settleGroups address success v.groups groupId
    simp only [held, closed_waiting, closed_groups, finishedGroups_append,
      Engine.finishedGroups_reportOf, List.nil_append, List.count_nil]
    omega

theorem carries_flashed : Carries v (v.flashed address request suppressSend success message)
    (.started (request.operation address) v.groupsOutstanding ::
      (Engine.reportOf (request.operation address) (v.openedContext address request suppressSend)
        success message ++ (Engine.settleGroups address success v.groups).2)) [] := by
  have hopened : Carries v (v.opened address request suppressSend)
      [.started (request.operation address) v.groupsOutstanding] [] :=
    .same rfl (by simp) rfl rfl rfl
  exact hopened.trans carries_closed

theorem carries_groupBegun {groupId : Nat} (mask : UInt16)
    (hnew : groupId ∉ v.groups.map Prod.fst) :
    Carries v (v.groupBegun groupId mask) [.groupStarted groupId mask] [groupId] where
  history := rfl
  calm := by simp
  count otherId := by
    have hperm := insertGroup_perm (g := { pendingAddresses := maskAddresses mask }) hnew
    have hcount := (hperm.map Prod.fst).count_eq otherId
    simp only [held, groupBegun_waiting, groupBegun_groups, hcount, List.map_cons,
      List.count_cons, List.count_nil, finishedGroups_cons, Output.finishedGroup,
      Option.toList_none, finishedGroups_nil, List.append_nil]
    omega

end

end View

section
variable {v v' : View}

/-- A group that begins joins the active ones, or is reported on the way. -/
theorem Begins.carries {groupId : Nat} {mask : UInt16} (h : Begins v groupId mask v')
    (hnew : groupId ∉ v.groups.map Prod.fst) :
    ∃ new, View.Carries v v' new [groupId] ∧ acceptedGroups new = [] := by
  cases h with
  | whole command ms =>
    have hmembers := View.membersLaunched_history (v.groupBegun groupId mask)
      { origin := .group groupId, command } ms (maskAddresses mask)
    refine ⟨_, (View.carries_groupBegun mask hnew).trans
      (.same hmembers ?_ (by simp) (by simp) (by simp)), ?_⟩
    · simp
    · simp [Output.acceptedGroup]
  | @firstFails message address rest =>
    have hturns : View.Carries v { v with starting := rest.map (groupId, ·) ++ v.starting } [] [] :=
      .same (List.append_nil _).symm (by simp) rfl rfl rfl
    have hbegun := View.carries_groupBegun
      (v := { v with starting := rest.map (groupId, ·) ++ v.starting }) mask hnew
    refine ⟨_, (hturns.trans hbegun).trans View.carries_flashed, ?_⟩
    simp [Output.acceptedGroup]

theorem StartMove.carries (h : StartMove v v')
    (hnew : ∀ group ∈ v.waiting, group.groupId ∉ v.groups.map Prod.fst) :
    ∃ new, View.Carries v v' new [] ∧ acceptedGroups new = [] := by
  cases h with
  | @waitingGroup front rest _ hwaiting hbegins =>
    obtain ⟨new, hcarries, hnone⟩ := hbegins.carries (hnew front (by simp [hwaiting]))
    refine ⟨new, ⟨hcarries.history, hcarries.calm, fun groupId => ?_⟩, hnone⟩
    -- the group leaves the queue as it joins the active ones
    have hcount := hcarries.count groupId
    simp only [View.held, hwaiting, List.map_cons, List.count_cons, List.count_nil] at hcount ⊢
    omega
  | @memberFails message groupId address rest =>
    have hturn : View.Carries v { v with starting := rest } [] [] :=
      .same (List.append_nil _).symm (by simp) rfl rfl rfl
    exact ⟨_, hturn.trans View.carries_flashed, by simp [Output.acceptedGroup]⟩
  | memberSkipped =>
    exact ⟨[], .same (List.append_nil _).symm (by simp) rfl rfl rfl, rfl⟩

theorem Takes.carries {address : UInt16} {request : Request} (h : Takes v address request v') :
    ∃ new, View.Carries v v' new [] ∧ acceptedGroups new = [] := by
  cases h with
  | fresh => exact ⟨_, .same rfl (by simp) rfl rfl rfl, rfl⟩
  | queued => exact ⟨[], .same (List.append_nil _).symm (by simp) rfl rfl rfl, rfl⟩

end

namespace View

/-- Every group accepted is in one place. -/
structure Placed (v : View) : Prop where
  count : ∀ groupId, v.held groupId + (finishedGroups (sinceDisconnect v.history)).count groupId =
    ((acceptedGroups (sinceDisconnect v.history)).map Prod.fst).count groupId
  bound : ∀ groupId, v.held groupId + (finishedGroups v.history).count groupId ≤
    ((acceptedGroups v.history).map Prod.fst).count groupId
  nodup : ((acceptedGroups v.history).map Prod.fst).Nodup
  issued : ∀ entry ∈ acceptedGroups v.history, 0 < entry.1 ∧ entry.1 < v.nextGroupId
  next : 0 < v.nextGroupId
  masks : ∀ group ∈ v.waiting, (group.groupId, group.mask) ∈ acceptedGroups v.history

section
variable {v v' : View}

theorem Placed.held_le_one (h : v.Placed) (groupId : Nat) : v.held groupId ≤ 1 := by
  have hbound := h.bound groupId
  have hnodup := List.nodup_iff_count_le_one.mp h.nodup groupId
  omega

/-- A waiting group is not active as well. -/
theorem Placed.waiting_notMem_groups (h : v.Placed) :
    ∀ group ∈ v.waiting, group.groupId ∉ v.groups.map Prod.fst := by
  intro group hmem hactive
  have hone := h.held_le_one group.groupId
  have hwaits : 0 < (v.waiting.map (·.groupId)).count group.groupId :=
    List.count_pos_iff.mpr (List.mem_map_of_mem hmem)
  have hactive : 0 < (v.groups.map Prod.fst).count group.groupId := List.count_pos_iff.mpr hactive
  unfold held at hone
  omega

/-- The next id is new. -/
theorem Placed.next_notMem_groups (h : v.Placed) : v.nextGroupId ∉ v.groups.map Prod.fst := by
  intro hactive
  have hpos : 0 < (v.groups.map Prod.fst).count v.nextGroupId := List.count_pos_iff.mpr hactive
  have hbound := h.bound v.nextGroupId
  have haccepted : 0 < ((acceptedGroups v.history).map Prod.fst).count v.nextGroupId := by
    unfold held at hbound
    omega
  obtain ⟨entry, hmem, heq⟩ := List.mem_map.mp (List.count_pos_iff.mp haccepted)
  exact (h.issued entry hmem).2.ne heq

/-- What a move other than `disconnect` accepts: nothing, or the group of the next id. -/
theorem Placed.extend {new : List Output} (h : v.Placed)
    (hcarries : Carries v v' new ((acceptedGroups new).map Prod.fst))
    (hnew : (acceptedGroups new = [] ∧ v'.nextGroupId = v.nextGroupId) ∨
      ∃ mask, acceptedGroups new = [(v.nextGroupId, mask)] ∧ v'.nextGroupId = v.nextGroupId + 1)
    (hwaiting : ∀ group ∈ v'.waiting, group ∈ v.waiting ∨
      (group.groupId, group.mask) ∈ acceptedGroups new) : v'.Placed := by
  have hhistory := hcarries.history
  refine ⟨fun groupId => ?_, fun groupId => ?_, ?_, ?_, ?_, fun group hmem => ?_⟩
  · have hcount := h.count groupId
    have hmoved := hcarries.count groupId
    rw [hhistory, sinceDisconnect_append hcarries.calm]
    simp only [finishedGroups_append, acceptedGroups_append, List.map_append, List.count_append]
    omega
  · have hbound := h.bound groupId
    have hmoved := hcarries.count groupId
    rw [hhistory]
    simp only [finishedGroups_append, acceptedGroups_append, List.map_append, List.count_append]
    omega
  · rw [hhistory, acceptedGroups_append, List.map_append]
    -- the next id is greater than all issued
    rcases hnew with ⟨hnone, -⟩ | ⟨mask, hone, -⟩
    · simpa [hnone] using h.nodup
    · rw [hone]
      refine List.nodup_append.mpr ⟨h.nodup, by simp, ?_⟩
      rintro groupId hold _ hnext rfl
      obtain ⟨entry, hmem, heq⟩ := List.mem_map.mp hold
      exact (h.issued entry hmem).2.ne (heq.trans (List.mem_singleton.mp hnext))
  · rw [hhistory, acceptedGroups_append]
    rintro entry hmem
    rcases List.mem_append.mp hmem with hold | hmem
    · obtain ⟨hpos, hlt⟩ := h.issued entry hold
      rcases hnew with ⟨-, hnext⟩ | ⟨-, -, hnext⟩
      · exact ⟨hpos, hnext ▸ hlt⟩
      · exact ⟨hpos, hnext ▸ Nat.lt_succ_of_lt hlt⟩
    · rcases hnew with ⟨hnone, -⟩ | ⟨mask, hone, hnext⟩
      · simp [hnone] at hmem
      · rw [hone, List.mem_singleton] at hmem
        rw [hmem, hnext]
        exact ⟨h.next, Nat.lt_succ_self _⟩
  · rcases hnew with ⟨-, hnext⟩ | ⟨-, -, hnext⟩
    · exact hnext ▸ h.next
    · exact hnext ▸ Nat.succ_pos _
  · rw [hhistory, acceptedGroups_append]
    rcases hwaiting group hmem with hold | hnow
    · exact List.mem_append_left _ (h.masks group hold)
    · exact List.mem_append_right _ hnow

/-- No group arrives, and none is accepted. -/
theorem Placed.keep (h : v.Placed) (hcarries : ∃ new, Carries v v' new [] ∧ acceptedGroups new = [])
    (hnext : v'.nextGroupId = v.nextGroupId) (hwaiting : v'.waiting ⊆ v.waiting) : v'.Placed := by
  obtain ⟨new, hcarries, hnone⟩ := hcarries
  exact h.extend (by rwa [hnone]) (.inl ⟨hnone, hnext⟩) fun group hmem => .inl (hwaiting hmem)

theorem Placed.disconnected (h : v.Placed) : ({ v with
    queue := fun _ => [], waiting := [], groups := [], state := fun _ => .idle }.record
      [.disconnected] : View).Placed := by
  refine ⟨fun groupId => ?_, fun groupId => ?_, ?_, ?_, h.next, by simp⟩
  · simp [held]
  · have hbound := h.bound groupId
    simp only [held, record_waiting, record_groups, record_history, finishedGroups_append,
      acceptedGroups_append, List.map_nil, List.count_nil, List.map_append, List.count_append,
      finishedGroups_cons, finishedGroups_nil, Output.finishedGroup, Option.toList_none,
      List.append_nil]
    unfold held at hbound
    omega
  · simpa [Output.acceptedGroup] using h.nodup
  · simpa [Output.acceptedGroup] using h.issued

theorem Placed.move {kind : MoveKind} (h : v.Placed) (hmove : Move v kind v') : v'.Placed := by
  cases hmove with
  | start hstart =>
    refine h.keep (hstart.carries h.waiting_notMem_groups) ?_ hstart.waiting_suffix.subset
    cases hstart with
    | waitingGroup _ hbegins => exact hbegins.nextGroupId_eq
    | memberFails => rfl
    | memberSkipped => rfl
  | enqueue => exact h.keep ⟨_, .same rfl (by simp) rfl rfl rfl, rfl⟩ rfl (List.Subset.refl _)
  | @launch address request w ms htakes =>
    obtain ⟨new, hcarries, hnone⟩ := htakes.carries
    have hlaunched : Carries w (w.launched address request false ms)
        [.started (request.operation address) w.groupsOutstanding] [] :=
      .same rfl (by simp) rfl rfl rfl
    refine h.keep ⟨_, hcarries.trans hlaunched, by simp [hnone, Output.acceptedGroup]⟩ ?_ ?_ <;>
      cases htakes <;> simp
  | flash success message htakes =>
    obtain ⟨new, hcarries, hnone⟩ := htakes.carries
    refine h.keep
      ⟨_, hcarries.trans carries_flashed, by simp [hnone, Output.acceptedGroup]⟩ ?_ ?_ <;>
      cases htakes <;> simp
  | finish => exact h.keep ⟨_, carries_closed, by simp⟩ rfl (List.Subset.refl _)
  | @acceptGroup mask _ _ hbegins =>
    obtain ⟨new, hcarries, hnone⟩ := hbegins.carries h.next_notMem_groups
    have haccepted : Carries v v' (.groupAccepted v.nextGroupId mask false :: new)
        [v.nextGroupId] := by
      refine ⟨by simp [hcarries.history], by simpa using hcarries.calm, fun groupId => ?_⟩
      have hcount := hcarries.count groupId
      simpa [held, Output.finishedGroup] using hcount
    have hone : acceptedGroups (.groupAccepted v.nextGroupId mask false :: new) =
        [(v.nextGroupId, mask)] := by simp [hnone, Output.acceptedGroup]
    refine h.extend (by simpa [hone] using haccepted) (.inr ⟨mask, hone, hbegins.nextGroupId_eq⟩) ?_
    rw [hbegins.waiting_eq]
    exact fun group hmem => .inl hmem
  | @queueGroup group hid =>
    have hone : acceptedGroups [.groupAccepted group.groupId group.mask true] =
        [(v.nextGroupId, group.mask)] := by simp [Output.acceptedGroup, hid]
    refine @Placed.extend v _ [.groupAccepted group.groupId group.mask true] h
      ⟨rfl, by simp, fun groupId => ?_⟩ (.inr ⟨_, hone, rfl⟩) fun other hmem => ?_
    · rw [hone]
      simp only [held, record_waiting, record_groups, List.map_append, List.count_append,
        List.map_cons, List.map_nil, hid, finishedGroups_cons, finishedGroups_nil,
        Output.finishedGroup, Option.toList_none, List.append_nil, List.count_nil]
      omega
    · rcases List.mem_append.mp hmem with hmem | hmem
      · exact .inl hmem
      · obtain rfl := List.mem_singleton.mp hmem
        exact .inr (by simp [Output.acceptedGroup])
  | image =>
    exact h.keep ⟨[], .same (List.append_nil _).symm (by simp) rfl rfl rfl, rfl⟩ rfl
      (List.Subset.refl _)
  | fuReply => exact h.keep ⟨_, .same rfl (by simp) rfl rfl rfl, rfl⟩ rfl (List.Subset.refl _)
  | clear => exact h.keep ⟨_, .same rfl (by simp) rfl rfl rfl, rfl⟩ rfl (List.Subset.refl _)
  | disconnect => exact h.disconnected

end

theorem placed_of_reach {guard : View → MoveKind → Prop} {v : View}
    (h : Machine.Reach machine guard v) : v.Placed := by
  refine h.invariant (fun v hstart => ?_) fun _ _ _ hplaced _ hmove => hplaced.move hmove
  obtain ⟨-, -, -, hgroups, hwaiting, hnext, -, -, hhistory, -⟩ := hstart
  refine ⟨fun groupId => ?_, fun groupId => ?_, ?_, ?_, ?_, ?_⟩ <;>
    simp [held, hgroups, hwaiting, hnext, hhistory, sinceDisconnect]

end View

end PPB
