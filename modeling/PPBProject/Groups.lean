import PPBProject.Aftermath
import PPBProject.Places

/- The life of a group. An active group waits for exactly those members whose
   operation is still in flight, and its results are those its members were reported
   with (`Whole`).

   One kind of group loses that: a VOLUME without image data. Its first member fails
   before the others had their turn, the failure may start another group on one of
   their addresses, and then it is that group's operation the bookkeeping waits for.
   By then a failure is among the results and no member has succeeded, or ever will
   (`Spoiled`), so the verdict is right all the same. -/
namespace PPB

/-- The report of a group says whether all its members were reported with success. -/
def Verdict (pre : List Output) (x : Output) : Prop :=
  ∀ groupId allSuccess summary, x = .groupCommandCompleted groupId allSuccess summary →
    ∃ mask, (groupId, mask) ∈ acceptedGroups pre ∧
      (allSuccess = true ↔
        ∀ address ∈ maskAddresses mask, (address, .group groupId) ∈ successes pre)

/-- What `completeOperation` makes of a group. -/
def GroupInfo.settled (g : GroupInfo) (address : UInt16) (success : Bool) : GroupInfo :=
  if address ∈ g.pendingAddresses then Engine.settle g address success else g

namespace GroupInfo

variable (g : GroupInfo) (address : UInt16) (success : Bool)

theorem mem_settled (a : UInt16) : a ∈ (g.settled address success).pendingAddresses ↔
    a ∈ g.pendingAddresses ∧ a ≠ address := by
  unfold settled
  split
  · simp [Engine.settle]
  next hnot => exact ⟨fun hmem => ⟨hmem, fun heq => hnot (heq ▸ hmem)⟩, And.left⟩

theorem lookup_settled {a : UInt16} (h : a ≠ address ∨ address ∉ g.pendingAddresses) :
    (g.settled address success).results.lookup a = g.results.lookup a := by
  unfold settled
  split
  next hpending => exact AList.lookup_insert_ne (h.resolve_right (not_not.mpr hpending))
  · rfl

theorem lookup_settled_self (h : address ∈ g.pendingAddresses) :
    (g.settled address success).results.lookup address = some success := by
  rw [settled, if_pos h]
  exact AList.lookup_insert _

end GroupInfo

namespace View

/-- Everything in flight and everything reported has started. -/
structure Witnessed (v : View) : Prop where
  flying : ∀ address op, v.flying address = some op → op ∈ starts v.history
  completed : ∀ op ∈ completions v.history, op ∈ starts v.history

/-- The bookkeeping of a group is about its own operations. -/
structure Whole (v : View) (groupId : Nat) (g : GroupInfo) : Prop where
  own : ∀ a ∈ g.pendingAddresses, v.state a = .sendingCommand ∧
    ∃ op, v.flying a = some op ∧ op.origin = .group groupId
  only : ∀ a op, v.flying a = some op → op.origin = .group groupId → a ∈ g.pendingAddresses
  unreported : ∀ a ∈ g.pendingAddresses, (a, .group groupId) ∉ successes v.history
  results : ∀ a success, g.results.lookup a = some success →
    (success = true ↔ (a, .group groupId) ∈ successes v.history)

/-- The group has failed, and no member has succeeded or is in flight. -/
structure Spoiled (v : View) (groupId : Nat) (g : GroupInfo) : Prop where
  failed : ∃ a, g.results.lookup a = some false
  grounded : ∀ a op, v.flying a = some op → op.origin ≠ .group groupId
  unreported : ∀ a, (a, .group groupId) ∉ successes v.history

/-- What is kept of an active group: its members are pending or have a result, and a pending
address is occupied or about to have its turn. -/
structure Kept (v : View) (groupId : Nat) (mask : UInt16) (g : GroupInfo) : Prop where
  accepted : (groupId, mask) ∈ acceptedGroups v.history
  members : ∀ a, a ∈ maskAddresses mask ↔
    a ∈ g.pendingAddresses ∨ (g.results.lookup a).isSome = true
  disjoint : ∀ a ∈ g.pendingAddresses, g.results.lookup a = none
  attended : ∀ a ∈ g.pendingAddresses,
    v.state a = .sendingCommand ∨ (groupId, a) ∈ v.starting
  faithful : v.Whole groupId g ∨ v.Spoiled groupId g

def GroupsKept (v : View) : Prop :=
  ∀ entry ∈ v.groups, entry.2.pendingAddresses ≠ [] ∧ ∃ mask, v.Kept entry.1 mask entry.2

/-- The results of a group with nothing pending are a verdict. -/
theorem Kept.verdict {v : View} {groupId : Nat} {mask : UInt16} {g : GroupInfo}
    (h : v.Kept groupId mask g) (hdone : g.pendingAddresses = []) :
    (g.results.entries.all fun result => result.2) = true ↔
      ∀ a ∈ maskAddresses mask, (a, .group groupId) ∈ successes v.history := by
  have hmembers (a : UInt16) : a ∈ maskAddresses mask ↔ (g.results.lookup a).isSome = true := by
    simp [h.members a, hdone]
  refine (all_entries_iff g.results id).trans ?_
  rcases h.faithful with hwhole | hspoiled
  -- a whole group: a member succeeded exactly if its result says so
  · constructor
    · intro hall a hmem
      obtain ⟨success, hlookup⟩ := Option.isSome_iff_exists.mp ((hmembers a).mp hmem)
      exact (hwhole.results a success hlookup).mp (hall a success hlookup)
    · intro hall a success hlookup
      have hmem := (hmembers a).mpr (by rw [hlookup]; rfl)
      exact (hwhole.results a success hlookup).mpr (hall a hmem)
  -- a spoiled group: both sides are false
  · obtain ⟨a, hfailed⟩ := hspoiled.failed
    refine iff_of_false (fun hall => ?_) fun hall => ?_
    · cases hall a false hfailed
    · exact hspoiled.unreported a (hall a ((hmembers a).mpr (by rw [hfailed]; rfl)))

/-! A completion, for the groups. -/

/-- From `v` to `v'` the operation `op` completes at `address`, after it was in flight there or on
an address that was free. -/
structure Settles (v v' : View) (address : UInt16) (op : Operation) (success : Bool) : Prop where
  flying : v'.flying = Function.update v.flying address none
  state : ∀ b, b ≠ address → v'.state b = v.state b
  starting : ∀ entry ∈ v.starting, entry ∈ v'.starting ∨ entry.2 = address
  successes : successes v'.history = successes v.history ++ if success then [op.place] else []
  accepted : acceptedGroups v'.history = acceptedGroups v.history
  place : op.address = address
  own : success = true → ∀ groupId, op.origin = .group groupId → v.flying address = some op
  was : v.state address = .sendingCommand → v.flying address = some op

section
variable {v v' : View} {address : UInt16} {op : Operation} {success : Bool} {groupId : Nat}
  {mask : UInt16} {g : GroupInfo}

theorem Settles.mem_successes (h : Settles v v' address op success) (a : UInt16) (origin : Origin) :
    (a, origin) ∈ PPB.successes v'.history ↔
      (a, origin) ∈ PPB.successes v.history ∨ success = true ∧ a = address ∧ op.origin = origin := by
  rw [h.successes, List.mem_append]
  refine or_congr_right ?_
  cases success
  · simp
  · simp [Operation.place, h.place, eq_comm]

/-- An operation that flies afterwards flew before, somewhere else. -/
theorem Settles.flying_of (h : Settles v v' address op success) {a : UInt16} {other : Operation}
    (hflying : v'.flying a = some other) : a ≠ address ∧ v.flying a = some other := by
  rw [h.flying] at hflying
  rcases eq_or_ne a address with rfl | hne
  · simp at hflying
  · exact ⟨hne, by rwa [Function.update_of_ne hne] at hflying⟩

theorem Whole.settles (hwhole : v.Whole groupId g) (h : Settles v v' address op success) :
    v'.Whole groupId (g.settled address success) where
  own a hmem := by
    obtain ⟨hpending, hne⟩ := (g.mem_settled ..).mp hmem
    rw [h.state a hne, h.flying, Function.update_of_ne hne]
    exact hwhole.own a hpending
  only a other hflying horigin := by
    obtain ⟨hne, hbefore⟩ := h.flying_of hflying
    exact (g.mem_settled ..).mpr ⟨hwhole.only a other hbefore horigin, hne⟩
  unreported a hmem hreported := by
    obtain ⟨hpending, hne⟩ := (g.mem_settled ..).mp hmem
    rcases (h.mem_successes ..).mp hreported with hbefore | ⟨-, heq, -⟩
    · exact hwhole.unreported a hpending hbefore
    · exact hne heq
  results a result hlookup := by
    rw [h.mem_successes]
    by_cases hpending : address ∈ g.pendingAddresses
    · rcases eq_or_ne a address with rfl | hne
      · -- the operation that completed is the group's own
        obtain ⟨hsending, own, hown, horigin⟩ := hwhole.own a hpending
        obtain rfl := Option.some.inj (hown.symm.trans (h.was hsending))
        rw [g.lookup_settled_self a success hpending] at hlookup
        obtain rfl := Option.some.inj hlookup
        simp [horigin, hwhole.unreported a hpending]
      · rw [g.lookup_settled address success (.inl hne)] at hlookup
        simp [hwhole.results a result hlookup, hne]
    · -- an operation that is not pending is not the group's
      rw [g.lookup_settled address success (.inr hpending)] at hlookup
      rw [hwhole.results a result hlookup]
      refine (or_iff_left ?_).symm
      rintro ⟨hsuccess, -, horigin⟩
      exact hpending (hwhole.only address op (h.own hsuccess groupId horigin) horigin)

theorem Spoiled.settles (hspoiled : v.Spoiled groupId g)
    (hdisjoint : ∀ a ∈ g.pendingAddresses, g.results.lookup a = none)
    (h : Settles v v' address op success) : v'.Spoiled groupId (g.settled address success) where
  failed := by
    obtain ⟨a, hfailed⟩ := hspoiled.failed
    refine ⟨a, ?_⟩
    rw [g.lookup_settled address success, hfailed]
    -- the failed member has a result, so it is not the one that is settled now
    by_contra hboth
    obtain ⟨heq, hpending⟩ := not_or.mp hboth
    rw [not_not] at heq hpending
    rw [heq, hdisjoint address hpending] at hfailed
    cases hfailed
  grounded a other hflying := hspoiled.grounded a other (h.flying_of hflying).2
  unreported a hreported := by
    rcases (h.mem_successes ..).mp hreported with hbefore | ⟨hsuccess, -, horigin⟩
    · exact hspoiled.unreported a hbefore
    -- a success would be that of an operation in flight, and the group has none
    · exact hspoiled.grounded address op (h.own hsuccess groupId horigin) horigin

/-- A completion keeps what is known of every active group. -/
theorem Kept.settles (hkept : v.Kept groupId mask g) (h : Settles v v' address op success) :
    v'.Kept groupId mask (g.settled address success) where
  accepted := h.accepted ▸ hkept.accepted
  members a := by
    rw [hkept.members, g.mem_settled]
    by_cases hpending : address ∈ g.pendingAddresses
    · rcases eq_or_ne a address with rfl | hne
      · simp [hpending, g.lookup_settled_self a success hpending]
      · simp [hne, g.lookup_settled address success (.inl hne)]
    · rw [g.lookup_settled address success (.inr hpending)]
      refine or_congr_left ⟨fun hmem => ⟨hmem, fun heq => hpending (heq ▸ hmem)⟩, And.left⟩
  disjoint a hmem := by
    obtain ⟨hpending, hne⟩ := (g.mem_settled ..).mp hmem
    rw [g.lookup_settled address success (.inl hne)]
    exact hkept.disjoint a hpending
  attended a hmem := by
    obtain ⟨hpending, hne⟩ := (g.mem_settled ..).mp hmem
    rcases hkept.attended a hpending with hsending | hturn
    · exact .inl ((h.state a hne).trans hsending)
    · exact .inr ((h.starting _ hturn).resolve_right hne)
  faithful := by
    rcases hkept.faithful with hwhole | hspoiled
    · exact .inl (hwhole.settles h)
    · exact .inr (hspoiled.settles hkept.disjoint h)

/-- The groups that stay are kept. -/
theorem groupsKept_settleGroups {groups : List (Nat × GroupInfo)}
    (hkept : ∀ entry ∈ groups, entry.2.pendingAddresses ≠ [] ∧
      ∃ mask, v'.Kept entry.1 mask (entry.2.settled address success))
    (hgroups : v'.groups = (Engine.settleGroups address success groups).1) : v'.GroupsKept := by
  rintro ⟨groupId, g⟩ hmem
  rw [hgroups] at hmem
  obtain ⟨g₀, hmem₀, ⟨hpending, rfl⟩ | ⟨hpending, rfl, hne⟩⟩ :=
    Engine.mem_settleGroups_fst _ _ _ hmem
  -- a group that does not wait for the address stays as it is
  · obtain ⟨hne, mask, h⟩ := hkept _ hmem₀
    rw [GroupInfo.settled, if_neg hpending] at h
    exact ⟨hne, mask, h⟩
  · obtain ⟨-, mask, h⟩ := hkept _ hmem₀
    rw [GroupInfo.settled, if_pos hpending] at h
    exact ⟨hne, mask, h⟩

/-- Entries that report no group need no verdict. -/
theorem verdicts_append {h new : List Output} (hh : Machine.Chronicle Verdict h)
    (hnew : finishedGroups new = []) : Machine.Chronicle Verdict (h ++ new) := by
  refine hh.append fun pre x post hsplit groupId allSuccess summary hx => ?_
  have hmem : x ∈ new := hsplit ▸ List.mem_append_right _ List.mem_cons_self
  have hnone := List.filterMap_eq_nil_iff.mp hnew x hmem
  rw [hx] at hnone
  cases hnone

/-- The groups that are reported are reported rightly. -/
theorem verdicts_settleGroups {groups : List (Nat × GroupInfo)} {h : List Output}
    (hkept : ∀ entry ∈ groups, entry.2.pendingAddresses ≠ [] ∧
      ∃ mask, v'.Kept entry.1 mask (entry.2.settled address success))
    (hhistory : v'.history = h ++ (Engine.settleGroups address success groups).2)
    (hh : Machine.Chronicle Verdict h) : Machine.Chronicle Verdict v'.history := by
  rw [hhistory]
  refine hh.append fun pre x post hsplit groupId allSuccess summary hx => ?_
  have hmem : x ∈ (Engine.settleGroups address success groups).2 :=
    hsplit ▸ List.mem_append_right _ List.mem_cons_self
  obtain ⟨entry, hentry, hpending, hdone, heq⟩ := Engine.mem_settleGroups_snd _ _ _ hmem
  obtain ⟨-, mask, h⟩ := hkept entry hentry
  rw [GroupInfo.settled, if_pos hpending] at h
  -- the reports of groups that precede `x` are no successes of members
  have hsuccesses : successes pre = [] := by
    have hnone := Engine.successes_settleGroups address success groups
    rw [hsplit, successes_append] at hnone
    exact (List.append_eq_nil_iff.mp hnone).1
  have haccepted := h.accepted
  have hverdict := h.verdict hdone
  rw [hhistory, acceptedGroups_append, Engine.acceptedGroups_settleGroups, List.append_nil]
    at haccepted
  rw [hhistory, successes_append, Engine.successes_settleGroups, List.append_nil] at hverdict
  rw [hx] at heq
  cases heq
  refine ⟨mask, ?_, ?_⟩
  · rw [acceptedGroups_append]
    exact List.mem_append_left _ haccepted
  · rw [successes_append, hsuccesses, List.append_nil]
    exact hverdict

end

/-! What other moves do to a group. -/

/-- From `v` to `v'` nothing happened to the group: operations may start on free addresses, none
of them its own. -/
structure Spares (v v' : View) (groupId : Nat) : Prop where
  sending : ∀ a, v.state a = .sendingCommand →
    v'.state a = .sendingCommand ∧ v'.flying a = v.flying a
  flying : ∀ a op, v'.flying a = some op → op.origin = .group groupId → v.flying a = some op
  starting : ∀ a, (groupId, a) ∈ v.starting →
    (groupId, a) ∈ v'.starting ∨ v'.state a = .sendingCommand
  successes : successes v'.history = successes v.history
  accepted : acceptedGroups v.history ⊆ acceptedGroups v'.history

section
variable {v v' : View} {groupId : Nat}

theorem Spares.same (hstate : v'.state = v.state) (hcontext : v'.context = v.context)
    (hstarting : v.starting ⊆ v'.starting)
    (hsuccesses : PPB.successes v'.history = PPB.successes v.history)
    (haccepted : acceptedGroups v.history ⊆ acceptedGroups v'.history) : Spares v v' groupId where
  sending a hsending := by
    rw [hstate]
    exact ⟨hsending, by rw [View.flying, View.flying, hcontext]⟩
  flying a op hflying _ := by
    rw [View.flying, hcontext] at hflying
    exact hflying
  starting a hmem := .inl (hstarting hmem)
  successes := hsuccesses
  accepted := haccepted

theorem Spares.trans {v'' : View} (h : Spares v v' groupId) (h' : Spares v' v'' groupId) :
    Spares v v'' groupId where
  sending a hsending := by
    obtain ⟨hsending, hflying⟩ := h.sending a hsending
    obtain ⟨hsending, hflying'⟩ := h'.sending a hsending
    exact ⟨hsending, hflying'.trans hflying⟩
  flying a op hflying horigin := h.flying a op (h'.flying a op hflying horigin) horigin
  starting a hmem := by
    rcases h.starting a hmem with hmem | hsending
    · exact h'.starting a hmem
    · exact .inr (h'.sending a hsending).1
  successes := h'.successes.trans h.successes
  accepted := List.Subset.trans h.accepted h'.accepted

theorem flying_launched (v : View) (address : UInt16) (request : Request) (suppressSend : Bool)
    (ms : Nat) : (v.launched address request suppressSend ms).flying =
      Function.update v.flying address (some (request.operation address)) := by
  rw [launched, flying_armed, flying_opened]

theorem flying_flashed (v : View) (address : UInt16) (request : Request)
    (suppressSend success : Bool) (message : String) :
    (v.flashed address request suppressSend success message).flying =
      Function.update v.flying address none := by
  rw [flashed, flying_closed, flying_opened, Function.update_idem]

theorem spares_launched {address : UInt16} {request : Request} {suppressSend : Bool} {ms : Nat}
    (hidle : v.state address ≠ .sendingCommand) (horigin : request.origin ≠ .group groupId) :
    Spares v (v.launched address request suppressSend ms) groupId where
  sending a hsending := by
    have hne : a ≠ address := fun heq => hidle (heq ▸ hsending)
    rw [launched_state, flying_launched, Function.update_of_ne hne, Function.update_of_ne hne]
    exact ⟨hsending, rfl⟩
  flying a op hflying hop := by
    rw [flying_launched] at hflying
    rcases eq_or_ne a address with rfl | hne
    · rw [Function.update_self] at hflying
      obtain rfl := Option.some.inj hflying
      exact absurd hop horigin
    · rwa [Function.update_of_ne hne] at hflying
  starting a hmem := .inl hmem
  successes := by simp [Output.succeededPlace]
  accepted := by simp

theorem spares_membersLaunched {request : Request} {ms : Nat} {addresses : List UInt16}
    (hnodup : addresses.Nodup) (hidle : ∀ b ∈ addresses, v.state b ≠ .sendingCommand)
    (horigin : request.origin ≠ .group groupId) :
    Spares v (v.membersLaunched request ms addresses) groupId := by
  induction addresses generalizing v with
  | nil => exact .same rfl rfl (List.Subset.refl _) rfl (List.Subset.refl _)
  | cons address rest ih =>
    obtain ⟨hnotMem, hnodup⟩ := List.nodup_cons.mp hnodup
    refine (spares_launched (hidle address (by simp)) horigin).trans (ih hnodup fun b hb => ?_)
    have hne : b ≠ address := fun heq => hnotMem (heq ▸ hb)
    rw [launched_state, Function.update_of_ne hne]
    exact hidle b (by simp [hb])

theorem Kept.spares {mask : UInt16} {g : GroupInfo} (hkept : v.Kept groupId mask g)
    (h : Spares v v' groupId) : v'.Kept groupId mask g where
  accepted := h.accepted hkept.accepted
  members := hkept.members
  disjoint := hkept.disjoint
  attended a hmem := by
    rcases hkept.attended a hmem with hsending | hturn
    · exact .inl (h.sending a hsending).1
    · exact (h.starting a hturn).symm
  faithful := by
    rcases hkept.faithful with hwhole | hspoiled
    · refine .inl ⟨fun a hmem => ?_, fun a op hflying horigin => ?_, ?_, ?_⟩
      · obtain ⟨hsending, hown⟩ := hwhole.own a hmem
        obtain ⟨hsending, hsame⟩ := h.sending a hsending
        exact ⟨hsending, hsame ▸ hown⟩
      · exact hwhole.only a op (h.flying a op hflying horigin) horigin
      · exact h.successes ▸ hwhole.unreported
      · exact h.successes ▸ hwhole.results
    · refine .inr ⟨hspoiled.failed, fun a op hflying horigin => ?_,
        h.successes ▸ hspoiled.unreported⟩
      exact hspoiled.grounded a op (h.flying a op hflying horigin) horigin

end

/-! What starts is recorded, also across a `disconnect`. -/

section
variable {v v' : View} {address : UInt16} {request : Request} {suppressSend success : Bool}
  {message : String}

theorem Witnessed.opened (h : v.Witnessed) :
    (v.opened address request suppressSend).Witnessed where
  flying a op hflying := by
    rw [flying_opened] at hflying
    rcases eq_or_ne a address with rfl | hne
    · rw [Function.update_self] at hflying
      simp [Output.startedOp, Option.some.inj hflying]
    · rw [Function.update_of_ne hne] at hflying
      simp [h.flying a op hflying]
  completed op hmem := by
    simp only [opened_history, completions_append, completions_cons, Output.completedOp,
      Option.toList_none, completions_nil, List.append_nil] at hmem
    simp [h.completed op hmem]

theorem Witnessed.closed {c : PPBContext} (h : v.Witnessed)
    (hflying : v.flying address = some (request.operation address)) :
    (v.closed address c request success message).Witnessed where
  flying a op hop := by
    rw [flying_closed] at hop
    rcases eq_or_ne a address with rfl | hne
    · simp at hop
    · rw [Function.update_of_ne hne] at hop
      simp [h.flying a op hop]
  completed op hmem := by
    simp only [closed_history, completions_append, Engine.completions_reportOf,
      Engine.completions_settleGroups, List.append_nil, List.mem_append,
      List.mem_singleton] at hmem
    rcases hmem with hmem | rfl
    · simp [h.completed op hmem]
    · simp [h.flying address _ hflying]

theorem Witnessed.act (h : v.Witnessed) (hact : Act v v') : v'.Witnessed := by
  cases hact with
  | other _ hcontext _ hhistory =>
    obtain ⟨new, heq, hnew⟩ := hhistory
    have hcompletions : completions new = [] :=
      List.filterMap_eq_nil_iff.mpr fun o ho => (hnew o ho).2
    refine ⟨fun a op hflying => ?_, fun op hmem => ?_⟩
    · rw [View.flying, hcontext] at hflying
      simp [heq, h.flying a op hflying]
    · rw [heq, completions_append, hcompletions, List.append_nil] at hmem
      simp [heq, h.completed op hmem]
  | @launched address request suppressSend ms =>
    have hopened : (v.opened address request suppressSend).Witnessed := h.opened
    refine ⟨fun a op hflying => ?_, hopened.completed⟩
    rw [launched, flying_armed] at hflying
    exact hopened.flying a op hflying
  | flashed => exact h.opened.closed (by rw [flying_opened, Function.update_self])
  | closed _ _ _ _ _ hcontext hopen hcommand =>
    refine h.closed ?_
    simp [View.flying, PPBContext.operation, hcontext, hopen, hcommand]

theorem witnessed_of_reach {guard : View → MoveKind → Prop} {v : View}
    (h : Machine.Reach machine guard v) : v.Witnessed := by
  refine h.invariant (fun v hstart => ?_) fun v kind v' hwitnessed _ hmove => ?_
  · obtain ⟨-, hcontext, -, -, -, -, -, -, hhistory, -⟩ := hstart
    exact ⟨by simp [flying, hcontext], by simp [hhistory]⟩
  · rcases eq_or_ne kind .disconnect with rfl | hkind
    · cases hmove
      refine ⟨fun a op hflying => ?_, fun op hmem => ?_⟩
      · have hop := hwitnessed.flying a op hflying
        simp [hop]
      · have hop := hwitnessed.completed op (by simpa [Output.completedOp] using hmem)
        simp [hop]
    · exact Machine.invariant_of_steps (P := Witnessed) (fun _ _ => Witnessed.act) hwitnessed
        (hmove.acts hkind)

/-- A group of which nothing has started has nothing in flight and no success. -/
theorem Witnessed.fresh (h : v.Witnessed) {groupId : Nat}
    (hfresh : ∀ address, v.begun groupId address = 0) :
    (∀ a op, v.flying a = some op → op.origin ≠ .group groupId) ∧
      ∀ a, (a, .group groupId) ∉ successes v.history := by
  have hnone (op : Operation) (hmem : op ∈ starts v.history) : op.origin ≠ .group groupId := by
    intro horigin
    have hzero := hfresh op.address
    have hpos : 0 < ((starts v.history).map Operation.place).count (op.address, .group groupId) :=
      List.count_pos_iff.mpr (List.mem_map.mpr ⟨op, hmem, by rw [Operation.place, horigin]⟩)
    unfold begun at hzero
    omega
  refine ⟨fun a op hflying => hnone op (h.flying a op hflying), fun a hmem => ?_⟩
  obtain ⟨o, ho, hplace⟩ := List.mem_filterMap.mp hmem
  -- a success is a completion, and what is completed has started
  cases o with
  | commandCompleted op success =>
    cases success with
    | false => cases hplace
    | true =>
      refine hnone op (h.completed op (List.mem_filterMap.mpr ⟨_, ho, rfl⟩)) ?_
      exact (Prod.mk.inj (Option.some.inj hplace)).2
  | _ => cases hplace

end

/-! The invariant. -/

/-- The active groups are kept, and the reported ones have their verdict. -/
structure Minded (v : View) : Prop where
  groups : v.GroupsKept
  verdicts : Machine.Chronicle Verdict v.history

section
variable {v v' w : View} {address : UInt16} {request : Request} {op : Operation}
  {suppressSend success : Bool} {message : String} {new : List Output}

theorem Minded.spares (h : v.Minded) (hspares : ∀ groupId, Spares v v' groupId)
    (hgroups : v'.groups = v.groups) (hhistory : v'.history = v.history ++ new)
    (hnew : finishedGroups new = []) : v'.Minded where
  groups entry hmem := by
    obtain ⟨hne, mask, hkept⟩ := h.groups entry (hgroups ▸ hmem)
    exact ⟨hne, mask, hkept.spares (hspares _)⟩
  verdicts := hhistory ▸ verdicts_append h.verdicts hnew

theorem Minded.settles (h : v.Minded) (hsettles : Settles v v' address op success)
    (hgroups : v'.groups = (Engine.settleGroups address success v.groups).1)
    (hhistory : v'.history =
      v.history ++ (new ++ (Engine.settleGroups address success v.groups).2))
    (hnew : finishedGroups new = []) : v'.Minded := by
  have hkept : ∀ entry ∈ v.groups, entry.2.pendingAddresses ≠ [] ∧
      ∃ mask, v'.Kept entry.1 mask (entry.2.settled address success) := fun entry hmem => by
    obtain ⟨hne, mask, hkept⟩ := h.groups entry hmem
    exact ⟨hne, mask, hkept.settles hsettles⟩
  rw [← List.append_assoc] at hhistory
  exact ⟨groupsKept_settleGroups hkept hgroups,
    verdicts_settleGroups hkept hhistory (verdicts_append h.verdicts hnew)⟩

theorem settles_closed {c : PPBContext}
    (hflying : v.flying address = some (request.operation address)) :
    Settles v (v.closed address c request success message) address (request.operation address)
      success where
  flying := flying_closed
  state b hne := by rw [closed_state, Function.update_of_ne hne]
  starting entry hmem := .inl hmem
  successes := by simp
  accepted := by simp
  place := rfl
  own _ _ _ := hflying
  was _ := hflying

theorem settles_flashed (hidle : v.state address ≠ .sendingCommand)
    (hown : success = true → ∀ groupId, request.origin ≠ .group groupId) :
    Settles v (v.flashed address request suppressSend success message) address
      (request.operation address) success where
  flying := flying_flashed ..
  state b hne := by rw [flashed_state, Function.update_of_ne hne]
  starting entry hmem := .inl hmem
  successes := by simp [Output.succeededPlace]
  accepted := by simp [Output.acceptedGroup]
  place := rfl
  own hsuccess groupId horigin := absurd horigin (hown hsuccess groupId)
  was hsending := absurd hsending hidle

/-- A completion right after something that left operations alone. -/
theorem Settles.after (h : Settles w v' address op success) (hstate : w.state = v.state)
    (hcontext : w.context = v.context)
    (hstarting : ∀ entry ∈ v.starting, entry ∈ w.starting ∨ entry.2 = address)
    (hsuccesses : PPB.successes w.history = PPB.successes v.history)
    (haccepted : acceptedGroups w.history = acceptedGroups v.history) :
    Settles v v' address op success := by
  have hflying : w.flying = v.flying := by
    funext a
    rw [View.flying, View.flying, hcontext]
  refine ⟨hflying ▸ h.flying, hstate ▸ h.state, fun entry hmem => ?_, hsuccesses ▸ h.successes,
    haccepted ▸ h.accepted, h.place, hflying ▸ h.own, hflying ▸ hstate ▸ h.was⟩
  rcases hstarting entry hmem with hmem | heq
  · exact h.starting entry hmem
  · exact .inr heq

theorem flying_membersLaunched {ms : Nat} {addresses : List UInt16} (hnodup : addresses.Nodup)
    (a : UInt16) : (v.membersLaunched request ms addresses).flying a =
      if a ∈ addresses then some (request.operation a) else v.flying a := by
  induction addresses generalizing v with
  | nil => simp
  | cons b rest ih =>
    obtain ⟨hnotMem, hnodup⟩ := List.nodup_cons.mp hnodup
    rw [membersLaunched_cons, ih hnodup, flying_launched]
    rcases eq_or_ne a b with rfl | hne
    · simp [hnotMem]
    · simp [hne]

/-- A group all of whose members were left in flight. -/
theorem kept_membersLaunched {groupId ms : Nat} {mask : UInt16} {command : PPBCommand}
    (hgrounded : ∀ a op, v.flying a = some op → op.origin ≠ .group groupId)
    (hunreported : ∀ a, (a, .group groupId) ∉ successes v.history)
    (haccepted : (groupId, mask) ∈ acceptedGroups v.history) :
    (v.membersLaunched { origin := .group groupId, command } ms (maskAddresses mask)).Kept groupId
      mask { pendingAddresses := maskAddresses mask } := by
  have hnodup := maskAddresses_nodup mask
  refine ⟨by simp [haccepted], fun a => by simp, fun a _ => rfl, fun a ha => ?_,
    .inl ⟨fun a ha => ⟨?_, ?_⟩, fun a op hflying horigin => ?_, fun a _ => ?_, by simp⟩⟩
  · simp [show a ∈ maskAddresses mask from ha]
  · simp [show a ∈ maskAddresses mask from ha]
  · rw [flying_membersLaunched hnodup, if_pos ha]
    exact ⟨_, rfl, rfl⟩
  · rw [flying_membersLaunched hnodup] at hflying
    by_contra hnotMem
    rw [if_neg hnotMem] at hflying
    exact hgrounded a op hflying horigin
  · simpa using hunreported a

/-- A group whose first member has failed; the others wait for their turn. -/
theorem kept_firstFails {groupId : Nat} {mask first : UInt16} {rest : List UInt16}
    (hgrounded : ∀ a op, v.flying a = some op → op.origin ≠ .group groupId)
    (hunreported : ∀ a, (a, .group groupId) ∉ successes v.history)
    (haccepted : (groupId, mask) ∈ acceptedGroups v.history)
    (hcons : maskAddresses mask = first :: rest) (hturns : ∀ a ∈ rest, (groupId, a) ∈ v'.starting)
    (h : Settles v v' first op false) :
    v'.Kept groupId mask (GroupInfo.settled { pendingAddresses := maskAddresses mask } first
      false) := by
  generalize hg : (⟨maskAddresses mask, ∅⟩ : GroupInfo) = g
  have hmembers (a : UInt16) : a ∈ g.pendingAddresses ↔ a ∈ maskAddresses mask := by rw [← hg]
  have hempty (a : UInt16) : g.results.lookup a = none := by
    rw [← hg]
    rfl
  have hfirst : first ∈ g.pendingAddresses := (hmembers first).mpr (by simp [hcons])
  refine ⟨h.accepted ▸ haccepted, fun a => ?_, fun a ha => ?_, fun a ha => ?_, .inr ⟨?_, ?_, ?_⟩⟩
  · rw [GroupInfo.mem_settled, hmembers]
    rcases eq_or_ne a first with rfl | hne
    · simp [hcons, g.lookup_settled_self a false hfirst]
    · simp [hne, g.lookup_settled first false (.inl hne), hempty]
  · obtain ⟨-, hne⟩ := (g.mem_settled ..).mp ha
    rw [g.lookup_settled first false (.inl hne), hempty]
  · obtain ⟨hmem, hne⟩ := (g.mem_settled ..).mp ha
    have hcases := (hmembers a).mp hmem
    rw [hcons, List.mem_cons] at hcases
    exact .inr (hturns a (hcases.resolve_left hne))
  · exact ⟨first, g.lookup_settled_self first false hfirst⟩
  · exact fun a op hflying => hgrounded a op (h.flying_of hflying).2
  · intro a hreported
    rcases (h.mem_successes ..).mp hreported with hbefore | ⟨hfalse, -⟩
    · exact hunreported a hbefore
    · cases hfalse

/-- A group that begins is kept from its first moment on, and the other groups are spared. -/
theorem Minded.begins {groupId : Nat} {mask : UInt16} (h : v.Minded) (hwitnessed : v.Witnessed)
    (hfresh : ∀ address, v.begun groupId address = 0)
    (hnew : groupId ∉ v.groups.map Prod.fst)
    (haccepted : (groupId, mask) ∈ acceptedGroups v.history) (hbegins : Begins v groupId mask v') :
    v'.Minded := by
  obtain ⟨hgrounded, hunreported⟩ := hwitnessed.fresh hfresh
  have hperm := insertGroup_perm (g := { pendingAddresses := maskAddresses mask }) hnew
  have hother {entry : Nat × GroupInfo} (hmem : entry ∈ v.groups) : entry.1 ≠ groupId :=
    fun heq => hnew (heq ▸ List.mem_map_of_mem hmem)
  cases hbegins with
  | whole command ms hmask hidle =>
    refine ⟨fun entry hmem => ?_, ?_⟩
    · rw [membersLaunched_groups, groupBegun_groups] at hmem
      rcases List.mem_cons.mp (hperm.mem_iff.mp hmem) with rfl | hmem
      · refine ⟨maskAddresses_ne_nil hmask, mask, ?_⟩
        exact kept_membersLaunched (v := v.groupBegun groupId mask) hgrounded
          (by simpa [Output.succeededPlace] using hunreported) (by simp [haccepted])
      · obtain ⟨hne, otherMask, hkept⟩ := h.groups entry hmem
        -- other groups: the new one takes free addresses only
        have hbegun : Spares v (v.groupBegun groupId mask) entry.1 :=
          .same rfl rfl (List.Subset.refl _) (by simp [Output.succeededPlace]) (by simp)
        have hlaunched : Spares (v.groupBegun groupId mask)
            ((v.groupBegun groupId mask).membersLaunched { origin := .group groupId, command } ms
              (maskAddresses mask)) entry.1 :=
          spares_membersLaunched (maskAddresses_nodup mask) hidle
            (by simpa using (hother hmem).symm)
        exact ⟨hne, otherMask, hkept.spares (hbegun.trans hlaunched)⟩
    · rw [membersLaunched_history, groupBegun_history, List.append_assoc]
      exact verdicts_append h.verdicts (by simp [Output.finishedGroup])
  | @firstFails message first rest _ hidle hcons =>
    -- the first member is opened and fails before the others have had their turn
    generalize hw : ({ v with starting := rest.map (groupId, ·) ++ v.starting } : View).groupBegun
      groupId mask = w
    have hfirst : w.state first ≠ .sendingCommand := hw ▸ hidle first (by simp [hcons])
    have hflashed : Settles w (w.flashed first
        { origin := .group groupId, command := .volumeCommand } true false message) first
        (Request.operation { origin := .group groupId, command := .volumeCommand } first) false :=
      settles_flashed hfirst fun hfalse => Bool.noConfusion hfalse
    have hsettles := hflashed.after (v := v) (hw ▸ rfl) (hw ▸ rfl)
      (fun entry hmem => hw ▸ .inl (List.mem_append_right _ hmem))
      (hw ▸ by simp [Output.succeededPlace]) (hw ▸ by simp [Output.acceptedGroup])
    have hkept : ∀ entry ∈ w.groups, entry.2.pendingAddresses ≠ [] ∧ ∃ mask, (w.flashed first
        { origin := .group groupId, command := .volumeCommand } true false message).Kept entry.1
          mask (entry.2.settled first false) := by
      intro entry hmem
      subst hw
      rcases List.mem_cons.mp (hperm.mem_iff.mp hmem) with rfl | hmem
      · refine ⟨by simp [hcons], mask, kept_firstFails hgrounded hunreported haccepted hcons
          (fun a ha => ?_) hsettles⟩
        simp [ha]
      · obtain ⟨hne, otherMask, hkept⟩ := h.groups entry hmem
        exact ⟨hne, otherMask, hkept.settles hsettles⟩
    refine ⟨groupsKept_settleGroups hkept (flashed_groups ..), ?_⟩
    have hhistory := flashed_history w first
      { origin := .group groupId, command := .volumeCommand } true false message
    rw [← List.cons_append, ← List.append_assoc] at hhistory
    refine verdicts_settleGroups hkept hhistory (verdicts_append ?_ ?_)
    · subst hw
      exact verdicts_append h.verdicts rfl
    · simp [Output.finishedGroup]

theorem Minded.startMove (h : v.Minded) (hwitnessed : v.Witnessed) (hunique : v.Unique)
    (hplaced : v.Placed) (hmove : StartMove v v') : v'.Minded := by
  cases hmove with
  | @waitingGroup front rest _ hwaiting hbegins =>
    have hmem : front ∈ v.waiting := by simp [hwaiting]
    -- the group leaves the queue first, which concerns no active group
    have hpopped : ({ v with waiting := rest } : View).Minded :=
      h.spares (fun _ => .same rfl rfl (List.Subset.refl _) rfl (List.Subset.refl _)) rfl
        (List.append_nil _).symm rfl
    exact hpopped.begins ⟨hwitnessed.flying, hwitnessed.completed⟩ (hunique.waiting front hmem).2
      (hplaced.waiting_notMem_groups front hmem) (hplaced.masks front hmem) hbegins
  | @memberFails message groupId address rest hstarting hidle =>
    have hflashed : Settles { v with starting := rest } (({ v with starting := rest } : View).flashed
        address { origin := .group groupId, command := .volumeCommand } true false message) address
        (Request.operation { origin := .group groupId, command := .volumeCommand } address) false :=
      settles_flashed hidle fun hfalse => Bool.noConfusion hfalse
    refine h.settles (hflashed.after (v := v) rfl rfl (fun entry hmem => ?_) rfl rfl) rfl
      (by rw [flashed_history, ← List.cons_append]) ?_
    · rw [hstarting] at hmem
      rcases List.mem_cons.mp hmem with rfl | hmem
      · exact .inr rfl
      · exact .inl hmem
    · simp [Output.finishedGroup]
  | @memberSkipped groupId address rest hstarting hsending =>
    -- the skipped address is occupied by another group
    refine h.spares (fun otherId => ⟨fun a ha => ⟨ha, rfl⟩, fun a op hop _ => hop, fun a hmem => ?_,
      rfl, List.Subset.refl _⟩) rfl (List.append_nil _).symm rfl
    rw [hstarting] at hmem
    rcases List.mem_cons.mp hmem with heq | hmem
    · cases heq
      exact .inr hsending
    · exact .inl hmem

/-- A single command that comes to its execution concerns no group. -/
theorem Minded.takes (h : v.Minded) (htakes : Takes v address request v') : v'.Minded := by
  cases htakes with
  | fresh =>
    exact h.spares (fun _ => .same rfl rfl (List.Subset.refl _) (by simp [Output.succeededPlace])
      (by simp)) rfl rfl rfl
  | queued =>
    exact h.spares (fun _ => .same rfl rfl (List.Subset.refl _) rfl (List.Subset.refl _)) rfl
      (List.append_nil _).symm rfl

theorem Minded.move {kind : MoveKind} (h : v.Minded) (hwitnessed : v.Witnessed)
    (hunique : v.Unique) (hplaced : v.Placed) (hmove : Move v kind v') : v'.Minded := by
  have hrecord (o : Output) (hsuccess : o.succeededPlace = none) (groupId : Nat) :
      Spares v (v.record [o]) groupId :=
    .same rfl rfl (List.Subset.refl _) (by simp [hsuccess]) (by simp)
  cases hmove with
  | start hstart => exact h.startMove hwitnessed hunique hplaced hstart
  | enqueue =>
    exact h.spares (fun _ => .same rfl rfl (List.Subset.refl _) (by simp [Output.succeededPlace])
      (by simp)) rfl rfl rfl
  | launch ms htakes hidle =>
    obtain ⟨-, n, horigin⟩ := hunique.takes htakes
    refine (h.takes htakes).spares (fun groupId => spares_launched (htakes.state_eq ▸ hidle) ?_) rfl
      rfl rfl
    simp [horigin]
  | flash success message htakes hidle =>
    obtain ⟨-, n, horigin⟩ := hunique.takes htakes
    refine (h.takes htakes).settles (settles_flashed (htakes.state_eq ▸ hidle) ?_) rfl
      (by rw [flashed_history, ← List.cons_append]) ?_
    · simp [horigin]
    · simp [Output.finishedGroup]
  | finish _ _ _ _ _ hfind hopen hcommand =>
    refine h.settles (settles_closed ?_) rfl rfl (by simp)
    simp [flying, PPBContext.operation, hfind, hopen, hcommand]
  | @acceptGroup mask _ _ hbegins =>
    have hrecorded : ({ v with nextGroupId := v.nextGroupId + 1 }.record
        [.groupAccepted v.nextGroupId mask false] : View).Minded :=
      h.spares (fun _ => .same rfl rfl (List.Subset.refl _) (by simp [Output.succeededPlace])
        (by simp)) rfl rfl rfl
    refine hrecorded.begins ⟨fun a op hop => ?_, fun op hmem => ?_⟩ (fun a => ?_)
      hplaced.next_notMem_groups (by simp [Output.acceptedGroup]) hbegins
    · simp [hwitnessed.flying a op hop]
    · simpa [Output.startedOp] using
        hwitnessed.completed op (by simpa [Output.completedOp] using hmem)
    · have hzero := hunique.unissued v.nextGroupId a le_rfl
      simpa [begun, Output.startedOp] using hzero
  | queueGroup =>
    exact h.spares (fun _ => .same rfl rfl (List.Subset.refl _) (by simp [Output.succeededPlace])
      (by simp)) rfl rfl rfl
  | image =>
    exact h.spares (fun _ => .same rfl rfl (List.Subset.refl _) rfl (List.Subset.refl _)) rfl
      (List.append_nil _).symm rfl
  | fuReply => exact h.spares (hrecord _ rfl) rfl rfl rfl
  | clear =>
    exact h.spares (fun _ => .same rfl rfl (List.Subset.refl _) (by simp [Output.succeededPlace])
      (by simp)) rfl rfl rfl
  | disconnect => exact ⟨by simp [GroupsKept], verdicts_append h.verdicts rfl⟩

end

theorem minded_of_reach {guard : View → MoveKind → Prop} {v : View}
    (h : Machine.Reach machine guard v) : v.Minded := by
  refine h.invariant' (fun v hstart => ?_) fun v kind v' hreach hminded _ hmove =>
    hminded.move (witnessed_of_reach hreach) (unique_of_reach hreach) (placed_of_reach hreach) hmove
  obtain ⟨-, -, -, hgroups, -, -, -, -, hhistory, -⟩ := hstart
  exact ⟨by simp [GroupsKept, hgroups], hhistory ▸ .nil⟩

end View

/-! Accepted groups of the engine. -/

namespace Engine

/-- A group whose id is returned has been accepted. -/
theorem executeGroupCommand_accepted (s : Engine) (cmd : TechCommand) (mask : UInt16) (data : Bytes)
    (h : (s.executeGroupCommand cmd mask data).2 ≠ 0) :
    ((s.executeGroupCommand cmd mask data).2, mask) ∈
      acceptedGroups (sinceDisconnect (s.executeGroupCommand cmd mask data).1.history) := by
  obtain ⟨queued, new, heq, hnested⟩ :=
    (s.executeGroupCommand_history cmd mask data).resolve_left fun hnone => h hnone.1
  rw [heq, sinceDisconnect_append fun hmem => Bool.noConfusion (hnested _ hmem),
    sinceDisconnect_append (by simp)]
  simp [Output.acceptedGroup]

/-- **The life of a group.** An id returned by `executeGroupCommand` is accepted; ids are given
once; until a `disconnect` an accepted group is waiting, active or reported, one of the three and
once; a report says whether every member was reported with success; and each active group waits for
something: the operation in flight at each of its pending addresses, whose timer is running. -/
theorem groups_accounted {s : Engine} (h : Reachable AnyStep s) :
    (∀ cmd mask data, (s.executeGroupCommand cmd mask data).2 ≠ 0 →
      ((s.executeGroupCommand cmd mask data).2, mask) ∈
        acceptedGroups (sinceDisconnect (s.executeGroupCommand cmd mask data).1.history)) ∧
    ((acceptedGroups s.history).map Prod.fst).Nodup ∧
    (∀ entry ∈ acceptedGroups (sinceDisconnect s.history),
      (s.pendingGroupCommands.map (·.groupId)).count entry.1 +
        (s.groupOperations.map Prod.fst).count entry.1 +
        (finishedGroups s.history).count entry.1 = 1) ∧
    (∀ groupId, (finishedGroups s.history).count groupId ≤ 1) ∧
    Machine.Chronicle Verdict s.history ∧
    ∀ entry ∈ s.groupOperations, entry.2.pendingAddresses ≠ [] ∧
      ∀ address ∈ entry.2.pendingAddresses, s.getState address = .sendingCommand ∧
        ∃ c, s.findContext address = some c ∧ c.inFlight = true ∧
          c.operationTimer.isSome = true := by
  have hreach := reach_any h
  have hplaced := View.placed_of_reach hreach
  have hminded := View.minded_of_reach hreach
  have hsound := View.sound_of_reach hreach
  have hbound (groupId : Nat) : (s.pendingGroupCommands.map (·.groupId)).count groupId +
      (s.groupOperations.map Prod.fst).count groupId + (finishedGroups s.history).count groupId ≤
      1 :=
    calc (s.view []).held groupId + (finishedGroups s.history).count groupId
      _ ≤ ((acceptedGroups s.history).map Prod.fst).count groupId := hplaced.bound groupId
      _ ≤ 1 := List.nodup_iff_count_le_one.mp hplaced.nodup groupId
  refine ⟨s.executeGroupCommand_accepted, hplaced.nodup, fun entry hmem => ?_, fun groupId => ?_,
    hminded.verdicts, fun entry hmem => ⟨(hminded.groups entry hmem).1, fun address hpending => ?_⟩⟩
  · have hcount := hplaced.count entry.1
    -- the count is at least one, since the group was accepted, and at most one overall
    have haccepted : 0 < ((acceptedGroups (sinceDisconnect s.history)).map Prod.fst).count entry.1 :=
      List.count_pos_iff.mpr (List.mem_map_of_mem hmem)
    have hfinished : (finishedGroups (sinceDisconnect s.history)).count entry.1 ≤
        (finishedGroups s.history).count entry.1 :=
      ((sinceDisconnect_suffix _).sublist.filterMap _).count_le _
    have hle := hbound entry.1
    change (s.pendingGroupCommands.map (·.groupId)).count entry.1 +
      (s.groupOperations.map Prod.fst).count entry.1 +
      (finishedGroups (sinceDisconnect s.history)).count entry.1 = _ at hcount
    change _ = ((acceptedGroups (sinceDisconnect s.history)).map Prod.fst).count entry.1 at hcount
    omega
  · exact (Nat.le_add_left _ _).trans (hbound groupId)
  · obtain ⟨-, mask, hkept⟩ := hminded.groups entry hmem
    have hsending : s.getState address = .sendingCommand :=
      (hkept.attended address hpending).resolve_right List.not_mem_nil
    obtain ⟨c, hfind, hopen⟩ := hsound.sending address hsending
    have hsettled := hsound.settled address c hfind
    refine ⟨hsending, c, hfind, ?_, hsettled.timer.mpr hopen⟩
    simp [PPBContext.inFlight, hsettled.command, hopen]

/-- A group of two whose members are in flight. -/
def pairInFlight : Engine := (init none {}).handle (.executeGroupCommand .vers 3 [])

theorem groups_accounted_pair :
    (pairInFlight.pendingGroupCommands.map (·.groupId)).count 1 +
      (pairInFlight.groupOperations.map Prod.fst).count 1 +
      (finishedGroups pairInFlight.history).count 1 = 1 := by
  have hreach : Reachable AnyStep pairInFlight :=
    .step (e := .executeGroupCommand .vers 3 []) (.start ⟨none, {}, rfl⟩) trivial ⟨trivial, rfl⟩
  exact (groups_accounted hreach).2.2.1 (1, 3) (by decide)

end Engine

end PPB
