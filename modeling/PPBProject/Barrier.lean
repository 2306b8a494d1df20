import PPBProject.Additions
import PPBProject.Sound

/- The firmware barrier: no command at address 0 starts while a group is active or
   waiting. Both `executeCommand` overloads and the queue tick check for groups before
   they start a command at address 0. The callback that `transitionState` posts for an
   address does not: a group accepted after the callback was posted does not hold it
   back. -/
namespace PPB

/-- The entry starts no command at address 0 behind a group. -/
def Output.KeepsBarrier (o : Output) : Prop := ∀ op, o = .started op true → op.address ≠ 0

/-- The history grows without a command at address 0 starting behind a group. -/
abbrev KeepsBarrier : List Output → List Output → Prop := Machine.Extends Output.KeepsBarrier

theorem tolerates_keepsBarrier : Tolerates Output.KeepsBarrier where
  plain := by
    rintro o hstarts - op rfl
    cases hstarts
  started op behindGroups hfree other heq hzero := by
    obtain ⟨rfl, rfl⟩ := Output.started.inj heq
    exact Bool.noConfusion (hfree hzero)
  report op success message _ other heq := nomatch heq

theorem keepsBarrier_started_iff {op : Operation} {behindGroups : Bool} :
    (Output.started op behindGroups).KeepsBarrier ↔ (op.address = 0 → behindGroups = false) := by
  simp only [Output.KeepsBarrier, Output.started.injEq, and_imp, forall_eq']
  cases behindGroups <;> simp

theorem keepsBarrier_of_ofCompletion {o : Output} (h : o.ofCompletion = true) :
    o.KeepsBarrier := by
  rintro op rfl
  simpa [Output.ofCompletion] using h

namespace Engine

/-- The step runs no posted `processNextCommandForAddress(0)` that finds address 0 Ready, a command
queued for it, and a group active or waiting. -/
def PassesBarrier (s : Engine) : Event → Prop
  | .posted index _ => s.posted[index]? = some (.processNextCommandForAddress 0) →
      s.getState 0 = .ready → s.queueOf 0 ≠ [] → s.groupsOutstanding = false
  | _ => True

theorem keepsBarrier_runPosted_iff (s : Engine) (index : Nat) (order : List UInt16) :
    KeepsBarrier s.history (s.runPosted index order).history ↔
      s.PassesBarrier (.posted index order) := by
  simp only [KeepsBarrier, extends_runPosted_iff tolerates_keepsBarrier, keepsBarrier_started_iff,
    PassesBarrier]
  constructor
  · intro hall hposted hready hqueue
    obtain ⟨request, rest, hcons⟩ := List.exists_cons_of_ne_nil hqueue
    exact hall 0 hposted hready request (by simp [hcons]) rfl
  · rintro hpasses address hposted hready request hhead (rfl : address = 0)
    refine hpasses hposted hready fun hnil => ?_
    simp [hnil] at hhead

theorem keepsBarrier_onDataReceived (s : Engine) (data : Bytes) :
    KeepsBarrier s.history (s.onDataReceived data).history := by
  rcases (s.onDataReceived_received data).concludes with hconcludes | ⟨event, message, -, -, heq⟩
  · exact hconcludes.mono fun o => keepsBarrier_of_ofCompletion
  · rw [heq]
    exact extends_emit tolerates_keepsBarrier rfl _ rfl rfl

/-- **One step.** Every step keeps the barrier, but for the callback of address 0 that finds a
command behind a group. -/
theorem keepsBarrier_handle_iff {s : Engine} {e : Event} :
    KeepsBarrier s.history (s.handle e).history ↔ s.PassesBarrier e := by
  cases e with
  | posted index order => exact keepsBarrier_runPosted_iff s index order
  | datagram data => exact iff_of_true (s.keepsBarrier_onDataReceived data) trivial
  | _ => exact iff_of_true (extends_handle tolerates_keepsBarrier nofun nofun) trivial

/-- No command at address 0 has started while a group was active or waiting. -/
def BarrierHolds (s : Engine) : Prop := ∀ o ∈ s.history, o.KeepsBarrier

/-- **The barrier.** In a run whose callbacks for address 0 find no command behind a group, no
command at address 0 is ever started while a group is active or waiting. -/
theorem barrier_holds {s : Engine} (h : Reachable PassesBarrier s) : s.BarrierHolds := by
  refine h.invariant (P := BarrierHolds) ?_ ?_
  · rintro s ⟨udpClient, statics, rfl⟩ o ho
    cases ho
  · rintro s e s' hold hpasses ⟨-, rfl⟩
    exact (keepsBarrier_handle_iff.mpr hpasses).forall_mem hold

/-- One VERS at address 0 has succeeded, another is queued, and its callback is posted. -/
def beforeCallback : Engine :=
  (((init none {}).handle (.executeCommand .vers 0)).handle (.executeCommand .vers 0)).handle
    (.datagram [0, 0, 0, 2])

theorem beforeCallback_reachable {guard : Engine → Event → Prop}
    (hguard : ∀ s, guard s (.executeCommand .vers 0) ∧ guard s (.datagram [0, 0, 0, 2])) :
    Reachable guard beforeCallback :=
  .step (.step (.step (.start ⟨none, {}, rfl⟩) (hguard _).1 ⟨trivial, rfl⟩) (hguard _).1
    ⟨trivial, rfl⟩) (hguard _).2 ⟨trivial, rfl⟩

theorem barrier_holds_callback : (beforeCallback.handle (.posted 0 [])).BarrierHolds := by
  have hbefore : Reachable PassesBarrier beforeCallback :=
    beforeCallback_reachable fun _ => ⟨trivial, trivial⟩
  have hfree : beforeCallback.groupsOutstanding = false := by decide
  exact barrier_holds (.step (e := .posted 0 []) hbefore (fun _ _ _ => hfree) ⟨by decide, rfl⟩)

/-- A group that is accepted before the callback runs does not hold it back. -/
theorem not_barrier_holds : ¬ ∀ s, Reachable AnyStep s → s.BarrierHolds := by
  intro hall
  have hbefore : Reachable AnyStep beforeCallback :=
    beforeCallback_reachable fun _ => ⟨trivial, trivial⟩
  have haccepted : Reachable AnyStep (beforeCallback.handle (.executeGroupCommand .vers 1 [])) :=
    .step (e := .executeGroupCommand .vers 1 []) hbefore trivial ⟨trivial, rfl⟩
  have hkept := hall _ (.step (e := .posted 0 []) haccepted trivial ⟨by decide, rfl⟩)
    (.started ⟨0, .single 1, .vers⟩ true) (by decide)
  exact hkept ⟨0, .single 1, .vers⟩ rfl rfl

end Engine

end PPB
