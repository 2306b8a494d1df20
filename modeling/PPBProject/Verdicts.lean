import PPBProject.Conduct
import PPBProject.Ledger
import PPBProject.Scenario

/- Whether the verdicts of `waitForCommand` are right.

   A `Docket` stands beside the script and its station. It watches what the launcher of a
   call has started, and does not stop when the call returns: an operation may still
   succeed after a wrong `false`. What an operation has come to is read from the log of
   the engine, not from the signals that reach the script.

   That no operation is reported both ways (`not_failed_of_succeeded`) is what makes a
   right `false` final. -/
namespace PPB

/-! The engine under the script. -/

namespace Engine

/-- The engine has gone on by events of this kind. -/
def Continues (allowed : Event → Prop) : Engine → Engine → Prop :=
  Relation.ReflTransGen fun s t => ∃ e, allowed e ∧ s.enabled e ∧ s.handle e = t

/-- The operation has been reported with this result. -/
def hasReported (s : Engine) (op : Operation) (success : Bool) : Bool :=
  s.log.any fun
    | .commandCompleted other result _ => other = op ∧ result = success
    | _ => false

section
variable {allowed : Event → Prop} {s t : Engine} {op : Operation} {success : Bool}

theorem Continues.reachable (h : Continues allowed s t) (hs : Reachable AnyStep s) :
    Reachable AnyStep t := by
  refine Machine.invariant_of_steps ?_ hs h
  rintro s _ hs ⟨e, -, henabled, rfl⟩
  exact .step hs trivial ⟨henabled, rfl⟩

theorem Continues.log (h : Continues allowed s t) : ∃ new, t.log = s.log ++ new := by
  refine Machine.invariant_of_steps (P := fun t => ∃ new, t.log = s.log ++ new) ?_
    ⟨[], (List.append_nil _).symm⟩ h
  rintro u _ ⟨new, hnew⟩ ⟨e, -, -, rfl⟩
  obtain ⟨new', hnew'⟩ := u.log_handle e
  exact ⟨new ++ new', by rw [hnew', hnew, List.append_assoc]⟩

theorem Continues.setImage
    (himage : ∀ payload marker totalSize data,
      allowed (.setCurrentVolumeData payload marker totalSize data))
    (entries : List Entry) (s : Engine) :
    Continues allowed s (entries.foldl Entry.setImage s) := by
  induction entries generalizing s with
  | nil => exact .refl
  | cons entry rest ih =>
    rw [List.foldl_cons]
    refine Relation.ReflTransGen.trans ?_ (ih _)
    cases entry with
    | setCurrentVolumeData payload marker totalSize data =>
      exact .single ⟨_, himage payload marker totalSize data, trivial, rfl⟩
    | _ => exact .refl

theorem hasReported_iff : s.hasReported op success = true ↔
    ∃ message, .commandCompleted op success message ∈ s.history := by
  simp only [hasReported, List.any_eq_true, history, List.mem_filter]
  constructor
  · rintro ⟨o, hmem, hreports⟩
    cases o with
    | commandCompleted other result message =>
      obtain ⟨rfl, rfl⟩ := of_decide_eq_true hreports
      exact ⟨message, hmem, rfl⟩
    | _ => cases hreports
  · rintro ⟨message, hmem, -⟩
    exact ⟨_, hmem, by simp⟩

theorem hasReported_mono {new : List Output} (hlog : t.log = s.log ++ new)
    (h : s.hasReported op success = true) : t.hasReported op success = true := by
  unfold hasReported at h ⊢
  rw [hlog, List.any_append, h, Bool.true_or]

theorem hasReported_false_of_true (hs : Reachable AnyStep s) (h : s.hasReported op true = true) :
    s.hasReported op false = false := by
  obtain ⟨message, hsucceeded⟩ := hasReported_iff.mp h
  by_contra hfailed
  obtain ⟨message', hfailed⟩ := hasReported_iff.mp (Bool.not_eq_false _ ▸ hfailed)
  exact not_failed_of_succeeded hs hsucceeded hfailed

end

end Engine

/-- The event of the engine that the step is. -/
def Station.takes (s : Station) : StationEvent → Option Event
  | .taken => s.calls.head?
  | .engine e => some e
  | .controller _ | .relayed | .dropped => none

def StandEvent.takes (s : Station) : StandEvent → Option Event
  | .station e => s.takes e
  | _ => none

section
variable {codeToVSWR : Nat → UInt16 → FloatBits} {wiring : CommunicationFacade.Wiring}
  {allowed : Event → Prop}
  (himage : ∀ payload marker totalSize data,
    allowed (.setCurrentVolumeData payload marker totalSize data))

include himage

theorem Station.continues_step {s t : Station} {e : StationEvent}
    (h : s.step codeToVSWR wiring e = some t) (htakes : ∀ call ∈ s.takes e, allowed call) :
    s.engine.Continues allowed t.engine := by
  cases e with
  | controller e =>
    obtain ⟨c, -, rfl⟩ := Option.map_eq_some_iff.mp h
    exact .setImage himage _ s.engine
  | taken =>
    simp only [step] at h
    split at h
    next => cases h
    next call rest hcalls =>
      obtain ⟨henabled, h⟩ := Option.ite_none_right_eq_some.mp h
      obtain rfl := Option.some.inj h
      exact .single ⟨call, htakes call (by rw [takes, hcalls]; rfl), henabled, rfl⟩
  | engine e =>
    obtain ⟨henabled, h⟩ := Option.ite_none_right_eq_some.mp h
    obtain rfl := Option.some.inj h
    exact .single ⟨e, htakes e rfl, henabled, rfl⟩
  | relayed =>
    simp only [step] at h
    split at h
    next => cases h
    next =>
      obtain ⟨c, -, rfl⟩ := Option.map_eq_some_iff.mp h
      exact .setImage himage _ s.engine
  | dropped =>
    obtain ⟨-, h⟩ := Option.ite_none_right_eq_some.mp h
    obtain rfl := Option.some.inj h
    exact .refl

theorem Stand.continues_step {s t : Stand} {e : StandEvent}
    (h : s.step codeToVSWR wiring e = some t)
    (htakes : ∀ call ∈ e.takes s.toStation, allowed call) :
    s.engine.Continues allowed t.engine := by
  cases e with
  | station e =>
    obtain ⟨u, hu, rfl⟩ := Option.map_eq_some_iff.mp h
    have hcontinues := Station.continues_step himage hu htakes
    unfold moved
    split
    next => exact hcontinues
    next => exact hcontinues
  | stop =>
    obtain rfl := Option.some.inj h
    exact .refl
  | execute =>
    obtain ⟨-, h⟩ := Option.ite_none_right_eq_some.mp h
    obtain rfl := Option.some.inj h
    exact .refl
  | called command address =>
    simp only [step] at h
    split at h
    next => cases h
    next =>
      split at h
      next =>
        obtain rfl := Option.some.inj h
        exact .refl
      next =>
        obtain rfl := Option.some.inj h
        exact .refl
  | launch answers =>
    obtain ⟨w, -, -, rfl⟩ := advance_eq_some_iff.mp h
    exact .setImage himage _ s.engine
  | exec | stopPoll | returned =>
    obtain ⟨w, -, -, rfl⟩ := advance_eq_some_iff.mp h
    exact .refl
  | timedOut | left =>
    simp only [step] at h
    split at h
    next =>
      obtain ⟨-, h⟩ := Option.ite_none_right_eq_some.mp h
      obtain rfl := Option.some.inj h
      exact .refl
    next => cases h

end

/-! The docket. -/

namespace Watch

/-- All that the launcher has started has succeeded. -/
def succeededAt (watch : Watch) (engine : Engine) : Bool :=
  !watch.own.isEmpty && watch.own.all (engine.hasReported · true)

/-- The launcher has started nothing and will not, or something it has started has failed. -/
def hopelessAt (watch : Watch) (engine : Engine) : Bool :=
  watch.ahead.isNone && (watch.own.isEmpty || watch.own.any (engine.hasReported · false))

end Watch

/-- A call that has returned. What its launcher has started may still be under way. It is `closed`
once its time-out or a stop has come, and has `succeeded` if all that its launcher has started
succeeded before. -/
structure Returned where
  wait : Wait
  watch : Watch
  result : Bool
  closed : Bool
  succeeded : Bool

namespace Returned

def expire (call : Returned) : Returned := { call with closed := true }

/-- The station has moved on to `t`. -/
def after (call : Returned) (s : Stand) (e : StationEvent) (t : Station) : Returned :=
  let watch := { s with watch := call.watch }.watched call.wait e
  { call with watch, succeeded := call.succeeded || (!call.closed && watch.succeededAt t.engine) }

end Returned

/-- `succeeded` is of the call in progress. The last call that returned stands first. -/
structure Docket where
  stand : Stand
  succeeded : Bool := false
  past : List Returned := []

/-- The time-out of a call may also come after its return. -/
inductive DocketEvent where
  | stand (e : StandEvent)
  | expired (k : Nat)

namespace Docket

/-- The time-out of the call in progress or a stop has come. -/
def closed (d : Docket) (w : Wait) : Bool := w.timeout || d.stand.stopRequested

/-- The script has moved on to `t`. -/
def follow (d : Docket) (t : Stand) : StandEvent → Docket
  | .station e =>
    { stand := t
      succeeded := d.succeeded ||
        d.stand.wait.any fun w => !d.closed w && t.watch.succeededAt t.engine
      past := d.past.map (·.after d.stand e t.toStation) }
  | .stop => { d with stand := t, past := d.past.map Returned.expire }
  | .called command address =>
    if d.stand.stopRequested then
      -- returns at once
      let call : Returned :=
        { wait := { command, address }, watch := {}, result := false, closed := true,
          succeeded := false }
      { stand := t, past := call :: d.past }
    else { stand := t, past := d.past }
  | .returned =>
    let call (w : Wait) : Returned :=
      { wait := w, watch := d.stand.watch, result := w.result d.stand.stopRequested,
        closed := d.closed w, succeeded := d.succeeded }
    { stand := t, past := (d.stand.wait.map call).toList ++ d.past }
  | .execute | .launch _ | .exec | .timedOut | .stopPoll | .left => { d with stand := t }

def step (codeToVSWR : Nat → UInt16 → FloatBits) (wiring : CommunicationFacade.Wiring)
    (d : Docket) : DocketEvent → Option Docket
  | .stand e => (d.stand.step codeToVSWR wiring e).map fun t => d.follow t e
  | .expired k => some { d with past := d.past.modify k Returned.expire }

def machine (codeToVSWR : Nat → UInt16 → FloatBits) (wiring : CommunicationFacade.Wiring) :
    Machine.System Docket DocketEvent where
  start d := ∃ stand, (Stand.machine codeToVSWR wiring).start stand ∧ d = { stand }
  step d e d' := d.step codeToVSWR wiring e = some d'

/-- The step does not deceive the call in progress. A report of its command that could end its loop
is a success only if all that its launcher has started has succeeded, and a failure only if this can
no more be; the reports of its own successes do not all come before the loop runs; and once they all
have succeeded, no time-out and no stop comes before the call has returned. -/
def Undeceived (wiring : CommunicationFacade.Wiring) (d : Docket) : DocketEvent → Prop
  | .stand (.station e) => ∀ w ∈ d.stand.wait, d.closed w = false →
      ∀ success ∈ d.stand.reported wiring w e,
        if w.stage = .launched then (d.stand.watched w e).fulfilled = false
        else if success = true then d.stand.watch.succeededAt d.stand.engine = true
        else d.stand.watch.hopelessAt d.stand.engine = true
  | .stand .timedOut | .stand .stop => d.stand.wait.isSome = true → d.succeeded = false
  | _ => True

instance (wiring : CommunicationFacade.Wiring) (d : Docket) :
    (e : DocketEvent) → Decidable (d.Undeceived wiring e)
  | .stand (.station e) => inferInstanceAs (Decidable (∀ w ∈ d.stand.wait, d.closed w = false →
      ∀ success ∈ d.stand.reported wiring w e,
        if w.stage = .launched then (d.stand.watched w e).fulfilled = false
        else if success = true then d.stand.watch.succeededAt d.stand.engine = true
        else d.stand.watch.hopelessAt d.stand.engine = true))
  | .stand .timedOut | .stand .stop =>
    inferInstanceAs (Decidable (d.stand.wait.isSome = true → d.succeeded = false))
  | .stand .execute | .stand (.called ..) | .stand (.launch _) | .stand .exec | .stand .stopPoll
  | .stand .left | .stand .returned | .expired _ => isTrue trivial

/-- The call in progress, and what it will say. -/
structure Judged (d : Docket) (w : Wait) : Prop where
  follows : Stand.Follows w d.stand.watch
  succeeded : d.succeeded = (!d.closed w && d.stand.watch.succeededAt d.stand.engine)
  early : w.stage = .entered ∨ w.stage = .launched → w.quit = false ∧ w.timeout = false
  left : w.stage = .left → w.quit = true
  quit : w.quit = true → d.closed w = false →
    if w.success = true then d.stand.watch.succeededAt d.stand.engine = true
    else d.stand.watch.hopelessAt d.stand.engine = true
  launched : w.stage = .launched → d.closed w = false → d.stand.watch.fulfilled = false
  told : w.stage = .inLoop → d.stand.stopRequested = false → d.stand.watch.fulfilled = true →
    w.quit = true
  timer : w.stage = .inLoop → w.quit = true ∨ w.timer.isSome = true

/-- A verdict that is right and stays so. -/
structure Settled (engine : Engine) (call : Returned) : Prop where
  right : call.result = call.succeeded
  final : call.succeeded = true ∨ call.closed = true ∨ call.watch.hopelessAt engine = true

structure Just (d : Docket) : Prop where
  engine : Reachable AnyStep d.stand.engine
  current : ∀ w ∈ d.stand.wait, d.Judged w
  past : ∀ call ∈ d.past, Settled d.stand.engine call
  verdict : ∀ result ∈ d.stand.verdict, d.past.head?.map Returned.result = some result

section
variable {codeToVSWR : Nat → UInt16 → FloatBits} {wiring : CommunicationFacade.Wiring}
  {d d' : Docket} {w : Wait} {watch watch' : Watch} {engine engine' : Engine} {call : Returned}
  {new : List Output}

/-! What an operation has come to stays so. -/

theorem own_ne_nil (h : watch.succeededAt engine = true) : watch.own ≠ [] := by
  rintro hnil
  simp [Watch.succeededAt, hnil] at h

theorem succeededAt_of_own_eq_nil (h : watch.own = []) : watch.succeededAt engine = false := by
  simp [Watch.succeededAt, h]

theorem succeededAt_mono (hlog : engine'.log = engine.log ++ new) (hown : watch'.own = watch.own)
    (h : watch.succeededAt engine = true) : watch'.succeededAt engine' = true := by
  simp only [Watch.succeededAt, hown, Bool.and_eq_true, List.all_eq_true] at h ⊢
  exact ⟨h.1, fun op hop => Engine.hasReported_mono hlog (h.2 op hop)⟩

theorem hopelessAt_mono (hlog : engine'.log = engine.log ++ new) (hown : watch'.own = watch.own)
    (hahead : watch'.ahead = watch.ahead) (h : watch.hopelessAt engine = true) :
    watch'.hopelessAt engine' = true := by
  simp only [Watch.hopelessAt, hown, hahead, Bool.and_eq_true, Bool.or_eq_true,
    List.any_eq_true] at h ⊢
  refine ⟨h.1, h.2.imp_right ?_⟩
  rintro ⟨op, hop, hfailed⟩
  exact ⟨op, hop, Engine.hasReported_mono hlog hfailed⟩

/-- What is hopeless does not succeed. -/
theorem succeededAt_of_hopelessAt (hengine : Reachable AnyStep engine)
    (h : watch.hopelessAt engine = true) : watch.succeededAt engine = false := by
  by_contra hsucceeded
  have hsucceeded := Bool.not_eq_false _ ▸ hsucceeded
  simp only [Watch.hopelessAt, Bool.and_eq_true, Bool.or_eq_true, List.any_eq_true] at h
  rcases h.2 with hnil | ⟨op, hop, hfailed⟩
  · exact own_ne_nil hsucceeded (List.isEmpty_iff.mp hnil)
  · simp only [Watch.succeededAt, Bool.and_eq_true, List.all_eq_true] at hsucceeded
    have hnot := Engine.hasReported_false_of_true hengine (hsucceeded.2 op hop)
    rw [hnot] at hfailed
    cases hfailed

/-- Once the launcher's call is taken, or if there was none, the watch is on the same operations. -/
theorem watched_of_ahead {s : Stand} {e : StationEvent} (h : s.watch.ahead = none) :
    (s.watched w e).own = s.watch.own ∧ (s.watched w e).ahead = s.watch.ahead := by
  unfold Stand.watched
  split
  · split
    next hahead _ =>
      rw [h] at hahead
      cases hahead
    next hahead =>
      rw [h] at hahead
      cases hahead
    next => exact ⟨rfl, rfl⟩
  · split
    next => exact ⟨rfl, rfl⟩
    next => exact ⟨rfl, rfl⟩
  · exact ⟨rfl, rfl⟩

theorem hopelessAt_watched {s : Stand} {e : StationEvent} (hlog : engine'.log = engine.log ++ new)
    (h : s.watch.hopelessAt engine = true) : (s.watched w e).hopelessAt engine' = true := by
  have hahead : s.watch.ahead = none := by
    simp only [Watch.hopelessAt, Bool.and_eq_true, Option.isNone_iff_eq_none] at h
    exact h.1
  obtain ⟨hown, hsame⟩ := @watched_of_ahead w s e hahead
  exact hopelessAt_mono hlog hown hsame h

theorem succeededAt_watched {s : Stand} {e : StationEvent} (hfollows : Stand.Follows w s.watch)
    (hlog : engine'.log = engine.log ++ new) (h : s.watch.succeededAt engine = true) :
    (s.watched w e).succeededAt engine' = true := by
  have hahead : s.watch.ahead = none := by
    by_contra hsome
    exact own_ne_nil h (hfollows.ahead (Option.isSome_iff_ne_none.mpr hsome))
  exact succeededAt_mono hlog (@watched_of_ahead w s e hahead).1 h

/-! Calls that have returned. -/

theorem Settled.mono (h : Settled engine call) (hlog : engine'.log = engine.log ++ new) :
    Settled engine' call :=
  ⟨h.right, h.final.imp_right fun hfinal => hfinal.imp_right (hopelessAt_mono hlog rfl rfl)⟩

theorem Settled.expire (h : Settled engine call) : Settled engine call.expire :=
  ⟨h.right, .inr (.inl rfl)⟩

/-- A right verdict stays right, whatever its operations still come to. -/
theorem Settled.after {s : Stand} {e : StationEvent} {t : Station} (h : Settled engine call)
    (hlog : t.engine.log = engine.log ++ new) (hreach : Reachable AnyStep t.engine) :
    Settled t.engine (call.after s e t) := by
  obtain ⟨hright, hsucceeded | hclosed | hhopeless⟩ := h
  · refine ⟨?_, .inl ?_⟩
    · simp [Returned.after, hright, hsucceeded]
    · simp [Returned.after, hsucceeded]
  · refine ⟨?_, .inr (.inl hclosed)⟩
    simp [Returned.after, hright, hclosed]
  · have hstays : (call.after s e t).watch.hopelessAt t.engine = true :=
      @hopelessAt_watched call.wait _ _ _ { s with watch := call.watch } e hlog hhopeless
    have hnot : (call.after s e t).watch.succeededAt t.engine = false :=
      succeededAt_of_hopelessAt hreach hstays
    refine ⟨?_, .inr (.inr hstays)⟩
    change call.result = (call.succeeded || (!call.closed &&
      (call.after s e t).watch.succeededAt t.engine))
    rw [hnot, Bool.and_false, Bool.or_false]
    exact hright

/-! The call in progress. -/

/-- A step of the station. -/
theorem Judged.station {e : StationEvent} {t : Station} (h : d.Judged w)
    (hw : d.stand.wait = some w) (hundeceived : d.Undeceived wiring (.stand (.station e)))
    (hlog : t.engine.log = d.stand.engine.log ++ new) :
    (d.follow (d.stand.moved wiring e t) (.station e)).Judged
      ((d.stand.heard wiring e).foldl Wait.notice w) := by
  obtain ⟨⟨hcommand, hahead, hentered⟩, -⟩ := h.follows.watched (e := e)
  have hmoved : d.stand.moved wiring e t = { d.stand with
      toStation := t
      told := d.stand.told ++ d.stand.toStation.tells e
      wait := some ((d.stand.heard wiring e).foldl Wait.notice w)
      watch := { d.stand.watched w e with
        inTime := (d.stand.watched w e).inTime ||
          ((d.stand.watched w e).fulfilled && !w.timeout && !d.stand.stopRequested) } } := by
    unfold Stand.moved
    rw [hw]
  have hsucceeded : (d.succeeded || d.stand.wait.any fun w' =>
        !d.closed w' && (d.stand.watched w e).succeededAt t.engine) =
      (!d.closed w && (d.stand.watched w e).succeededAt t.engine) := by
    rw [h.succeeded, hw, Option.any_some]
    cases hbefore : d.stand.watch.succeededAt d.stand.engine with
    | false => rw [Bool.and_false, Bool.false_or]
    | true => rw [succeededAt_watched h.follows hlog hbefore, Bool.or_self]
  have hquit {success : Bool} (hjust : if success = true then
        d.stand.watch.succeededAt d.stand.engine = true
      else d.stand.watch.hopelessAt d.stand.engine = true) :
      if success = true then (d.stand.watched w e).succeededAt t.engine = true
      else (d.stand.watched w e).hopelessAt t.engine = true := by
    split at hjust
    next htrue =>
      rw [if_pos htrue]
      exact succeededAt_watched h.follows hlog hjust
    next hfalse =>
      rw [if_neg hfalse]
      exact hopelessAt_watched hlog hjust
  rw [hmoved]
  rcases Stand.foldl_notice w (Stand.heard_cases wiring d.stand e) with
    ⟨hnone, hsame⟩ | ⟨success, hone, hstage, hsome⟩
  · have heq : (d.stand.watched w e).fulfilled = d.stand.watch.fulfilled :=
      h.follows.fulfilled_eq hnone
    rw [hsame]
    exact ⟨⟨hcommand, hahead, hentered⟩, hsucceeded, h.early, h.left,
      fun hq hclosed => hquit (h.quit hq hclosed),
      fun hl hclosed => heq.trans (h.launched hl hclosed),
      fun hl hstop hf => h.told hl hstop (heq.symm.trans hf), h.timer⟩
  -- the report is just, if it can end the loop
  · have hjust (hclosed : d.closed w = false) := hundeceived w hw hclosed success
      (by rw [Stand.reported, hone]; exact List.mem_singleton_self _)
    rw [hsome]
    refine ⟨⟨hcommand, hahead, hentered⟩, hsucceeded, fun hearly => ?_, fun hleft => ?_,
      fun hq hclosed => ?_, fun hl hclosed => ?_, fun hl _ _ => ?_, fun hl => .inl ?_⟩
    · have hnot : w.stage ≠ .inLoop := by
        rintro hloop
        rw [hloop] at hearly
        simp at hearly
      simp [h.early hearly, hnot]
    · simp [h.left hleft]
    · have hnot : w.stage ≠ .launched := by
        intro hlaunched
        simp [(h.early (.inr hlaunched)).1, hlaunched] at hq
      have hfirst := hjust hclosed
      rw [if_neg hnot] at hfirst
      exact hquit hfirst
    · have hfirst := hjust hclosed
      rwa [if_pos hl] at hfirst
    · have hl : w.stage = .inLoop := hl
      simp [hl]
    · have hl : w.stage = .inLoop := hl
      simp [hl]

/-- Nothing has returned in the step. -/
theorem Just.keep {t : Stand} (h : d.Just) (hlog : t.engine.log = d.stand.engine.log ++ new)
    (hengine : Reachable AnyStep t.engine)
    (hverdict : ∀ result ∈ t.verdict, d.stand.verdict = some result)
    (hcurrent : ∀ w ∈ t.wait, Judged { d with stand := t } w) : Just { d with stand := t } :=
  ⟨hengine, hcurrent, fun call hcall => (h.past call hcall).mono hlog,
    fun result hresult => h.verdict result (hverdict result hresult)⟩

theorem Just.station {e : StationEvent} {t : Station} (h : d.Just)
    (hundeceived : d.Undeceived wiring (.stand (.station e)))
    (hlog : t.engine.log = d.stand.engine.log ++ new) (hengine : Reachable AnyStep t.engine) :
    Just (d.follow (d.stand.moved wiring e t) (.station e)) := by
  have hstation : (d.stand.moved wiring e t).toStation = t ∧
      (d.stand.moved wiring e t).verdict = d.stand.verdict := by
    unfold Stand.moved
    split
    next => exact ⟨rfl, rfl⟩
    next => exact ⟨rfl, rfl⟩
  refine ⟨?_, fun w hw => ?_, fun call hcall => ?_, fun result hresult => ?_⟩
  · change Reachable AnyStep (d.stand.moved wiring e t).toStation.engine
    rw [hstation.1]
    exact hengine
  · have hw : (d.stand.moved wiring e t).wait = some w := hw
    cases hwait : d.stand.wait with
    | none =>
      unfold Stand.moved at hw
      rw [hwait] at hw
      cases hw
    | some w₀ =>
      have hjudged := (h.current w₀ hwait).station hwait hundeceived hlog
      unfold Stand.moved at hw hjudged ⊢
      rw [hwait] at hw hjudged ⊢
      obtain rfl := Option.some.inj hw
      exact hjudged
  · obtain ⟨call, hold, rfl⟩ := List.mem_map.mp hcall
    change Settled (d.stand.moved wiring e t).toStation.engine
      (call.after d.stand e (d.stand.moved wiring e t).toStation)
    rw [hstation.1]
    exact (h.past call hold).after hlog hengine
  · have hlast := h.verdict result (hstation.2 ▸ hresult)
    change (d.past.map _).head?.map Returned.result = some result
    rw [List.head?_map, Option.map_map]
    exact hlast

theorem Just.stop (h : d.Just) (hundeceived : d.Undeceived wiring (.stand .stop)) :
    Just (d.follow { d.stand with stopRequested := true } .stop) := by
  refine ⟨h.engine, fun w hw => ?_, fun call hcall => ?_, fun result hresult => ?_⟩
  · have hjudged := h.current w hw
    have hclosed : (d.follow { d.stand with stopRequested := true } .stop).closed w = true :=
      Bool.or_true _
    have hnot : d.succeeded = false := hundeceived (by rw [show d.stand.wait = some w from hw]; rfl)
    refine ⟨hjudged.follows, ?_, hjudged.early, hjudged.left, fun _ h => ?_, fun _ h => ?_,
      fun _ h => (nomatch h), hjudged.timer⟩
    · rw [hclosed]
      exact hnot
    · rw [hclosed] at h
      cases h
    · rw [hclosed] at h
      cases h
  · obtain ⟨call, hold, rfl⟩ := List.mem_map.mp hcall
    exact (h.past call hold).expire
  · have hlast := h.verdict result hresult
    change (d.past.map _).head?.map Returned.result = some result
    rw [List.head?_map, Option.map_map]
    exact hlast

/-- Nothing is known yet of a call that has just been made. -/
theorem Judged.entered {command : LuaCommand} {address : UInt16} (hsucceeded : d.succeeded = false)
    (hwatch : d.stand.watch = {}) (hw : w = { command, address }) : d.Judged w := by
  subst hw
  constructor
  · rw [hwatch]
    exact ⟨nofun, fun _ => rfl, fun _ => ⟨rfl, rfl⟩⟩
  · rw [hsucceeded, hwatch]
    exact (Bool.and_false _).symm
  · exact fun _ => ⟨rfl, rfl⟩
  all_goals exact nofun

/-- A call that begins, and one that a stop keeps from beginning. -/
theorem Just.called {command : LuaCommand} {address : UInt16} {t : Stand} (h : d.Just)
    (hstep : d.stand.step codeToVSWR wiring (.called command address) = some t) :
    Just (d.follow t (.called command address)) := by
  simp only [Stand.step] at hstep
  split at hstep
  next => cases hstep
  next hidle =>
    cases hstop : d.stand.stopRequested with
    | true =>
      rw [hstop, if_pos rfl] at hstep
      obtain rfl := Option.some.inj hstep
      rw [follow, if_pos hstop]
      refine ⟨h.engine, fun w hw => ?_, fun call hcall => ?_, fun result hresult => hresult⟩
      · have hw : d.stand.wait = some w := hw
        rw [hw] at hidle
        exact absurd rfl hidle
      · cases List.mem_cons.mp hcall with
        | inl hnew =>
          rw [hnew]
          exact ⟨rfl, .inr (.inl rfl)⟩
        | inr hold => exact h.past call hold
    | false =>
      rw [hstop] at hstep
      obtain rfl := Option.some.inj hstep
      have hnot : ¬ d.stand.stopRequested = true := by simp [hstop]
      rw [follow, if_neg hnot]
      refine ⟨h.engine, fun w hw => ?_, h.past, fun result hresult => ?_⟩
      · obtain rfl := Option.some.inj hw
        exact .entered rfl rfl rfl
      · cases hresult

theorem Just.launch {answers : Answers} {t : Stand} (h : d.Just)
    (hstep : d.stand.step codeToVSWR wiring (.launch answers) = some t)
    (hlog : t.engine.log = d.stand.engine.log ++ new) (hengine : Reachable AnyStep t.engine) :
    Just (d.follow t (.launch answers)) := by
  obtain ⟨w, hwait, hstage, rfl⟩ := Stand.advance_eq_some_iff.mp hstep
  have hjudged := h.current w hwait
  obtain ⟨hown, -⟩ := hjudged.follows.entered hstage
  refine h.keep hlog hengine (fun _ hresult => hresult) fun w' hw' => ?_
  obtain rfl := Option.some.inj hw'
  refine ⟨⟨hjudged.follows.command, fun _ => hown, nofun⟩, ?_, fun _ => ?_, nofun, fun hq => ?_,
    fun _ _ => Stand.fulfilled_of_own_eq_nil hown, nofun, nofun⟩
  · have hsucceeded := hjudged.succeeded
    rw [succeededAt_of_own_eq_nil hown, Bool.and_false] at hsucceeded
    rw [succeededAt_of_own_eq_nil (by exact hown), Bool.and_false]
    exact hsucceeded
  · exact hjudged.early (.inl hstage)
  · have hq : w.quit = true := hq
    rw [(hjudged.early (.inl hstage)).1] at hq
    cases hq

/-- A step of the call in progress that leaves the station and the watch alone. -/
theorem Just.advance {t : Stand} (h : d.Just) (hstation : t.toStation = d.stand.toStation)
    (hverdict : t.verdict = d.stand.verdict)
    (hcurrent : ∀ w ∈ t.wait, Judged { d with stand := t } w) : Just { d with stand := t } := by
  have hlog : t.engine.log = d.stand.engine.log ++ [] := by
    rw [hstation]
    exact (List.append_nil _).symm
  refine h.keep hlog ?_ (fun result hresult => hverdict ▸ hresult) hcurrent
  rw [hstation]
  exact h.engine

theorem Just.exec {t : Stand} (h : d.Just) (hstep : d.stand.step codeToVSWR wiring .exec = some t) :
    Just (d.follow t .exec) := by
  obtain ⟨w, hwait, hstage, rfl⟩ := Stand.advance_eq_some_iff.mp hstep
  have hjudged := h.current w hwait
  refine h.advance rfl rfl fun w' hw' => ?_
  obtain rfl := Option.some.inj hw'
  refine ⟨⟨hjudged.follows.command, hjudged.follows.ahead, nofun⟩, hjudged.succeeded, ?_, nofun,
    fun hq => ?_, nofun, fun _ hstop hfulfilled => ?_, fun _ => .inr rfl⟩
  · rintro (hentered | hlaunched)
    · cases hentered
    · cases hlaunched
  · have hq : w.quit = true := hq
    rw [(hjudged.early (.inr hstage)).1] at hq
    cases hq
  · have hclosed : d.closed w = false :=
      Bool.or_eq_false_iff.mpr ⟨(hjudged.early (.inr hstage)).2, hstop⟩
    have hnot : d.stand.watch.fulfilled = false := hjudged.launched hstage hclosed
    have hfulfilled : d.stand.watch.fulfilled = true := hfulfilled
    rw [hnot] at hfulfilled
    cases hfulfilled

theorem Just.timedOut {t : Stand} (h : d.Just)
    (hundeceived : d.Undeceived wiring (.stand .timedOut))
    (hstep : d.stand.step codeToVSWR wiring .timedOut = some t) : Just (d.follow t .timedOut) := by
  simp only [Stand.step] at hstep
  split at hstep
  next w hwait =>
    obtain ⟨⟨hstage, -⟩, hstep⟩ := Option.ite_none_right_eq_some.mp hstep
    obtain rfl := Option.some.inj hstep
    have hjudged := h.current w hwait
    have hnot : d.succeeded = false := hundeceived (by rw [hwait]; rfl)
    refine h.advance rfl rfl fun w' hw' => ?_
    obtain rfl := Option.some.inj hw'
    refine ⟨⟨hjudged.follows.command, hjudged.follows.ahead, hjudged.follows.entered⟩, hnot,
      fun hearly => ?_, fun _ => rfl, fun _ hclosed => ?_, fun _ hclosed => ?_, fun _ _ _ => rfl,
      fun _ => .inl rfl⟩
    · have hearly : w.stage = .entered ∨ w.stage = .launched := hearly
      rw [hstage] at hearly
      simp at hearly
    · cases hclosed
    · cases hclosed
  next => cases hstep

theorem Just.stopPoll {t : Stand} (h : d.Just)
    (hstep : d.stand.step codeToVSWR wiring .stopPoll = some t) : Just (d.follow t .stopPoll) := by
  obtain ⟨w, hwait, hstage, rfl⟩ := Stand.advance_eq_some_iff.mp hstep
  have hjudged := h.current w hwait
  refine h.advance rfl rfl fun w' hw' => ?_
  obtain rfl := Option.some.inj hw'
  refine ⟨⟨hjudged.follows.command, hjudged.follows.ahead, hjudged.follows.entered⟩,
    hjudged.succeeded, fun hearly => ?_, fun hleft => ?_, fun hq hclosed => ?_, hjudged.launched,
    fun hl hstop hfulfilled => ?_, fun hl => ?_⟩
  · have hearly : w.stage = .entered ∨ w.stage = .launched := hearly
    rw [hstage] at hearly
    simp at hearly
  · have hleft : w.stage = .left := hleft
    rw [hstage] at hleft
    cases hleft
  -- a stop that the poll sees has come
  · have hclosed : d.closed w = false := hclosed
    have hnot : d.stand.stopRequested = false := (Bool.or_eq_false_iff.mp hclosed).2
    have hq : (w.quit || d.stand.stopRequested) = true := hq
    rw [hnot, Bool.or_false] at hq
    exact hjudged.quit hq hclosed
  · simp [hjudged.told hl hstop hfulfilled]
  · exact (hjudged.timer hl).imp_left fun hquit => by simp [hquit]

theorem Just.left {t : Stand} (h : d.Just) (hstep : d.stand.step codeToVSWR wiring .left = some t) :
    Just (d.follow t .left) := by
  simp only [Stand.step] at hstep
  split at hstep
  next w hwait =>
    obtain ⟨⟨-, hquit⟩, hstep⟩ := Option.ite_none_right_eq_some.mp hstep
    obtain rfl := Option.some.inj hstep
    have hjudged := h.current w hwait
    refine h.advance rfl rfl fun w' hw' => ?_
    obtain rfl := Option.some.inj hw'
    refine ⟨⟨hjudged.follows.command, hjudged.follows.ahead, fun hentered => ?_⟩,
      hjudged.succeeded, ?_, fun _ => hquit, hjudged.quit, fun hlaunched => ?_, fun hloop => ?_,
      fun hloop => ?_⟩
    · cases hentered
    · rintro (hentered | hlaunched)
      · cases hentered
      · cases hlaunched
    · cases hlaunched
    · cases hloop
    · cases hloop
  next => cases hstep

/-- The call returns what its launcher's operations have come to. -/
theorem Judged.settled (h : d.Judged w) (hengine : Reachable AnyStep d.stand.engine)
    (hstage : w.stage = .left) : Settled d.stand.engine
      { wait := w, watch := d.stand.watch, result := w.result d.stand.stopRequested,
        closed := d.closed w, succeeded := d.succeeded } := by
  have hresult : w.result d.stand.stopRequested = (w.success && !d.closed w) := by
    simp [Wait.result, closed, Bool.and_assoc]
  cases hclosed : d.closed w with
  | true =>
    refine ⟨?_, .inr (.inl rfl)⟩
    change w.result d.stand.stopRequested = d.succeeded
    rw [hresult, h.succeeded, hclosed, Bool.not_true, Bool.and_false, Bool.false_and]
  | false =>
    have hquit := h.quit (h.left hstage) hclosed
    have hsucceeded := h.succeeded
    rw [hclosed, Bool.not_false, Bool.true_and] at hsucceeded
    rw [hclosed, Bool.not_false, Bool.and_true] at hresult
    cases hsuccess : w.success with
    | true =>
      rw [if_pos hsuccess] at hquit
      rw [hquit] at hsucceeded
      exact ⟨hresult.trans (hsuccess.trans hsucceeded.symm), .inl hsucceeded⟩
    | false =>
      rw [if_neg (by simp [hsuccess])] at hquit
      rw [succeededAt_of_hopelessAt hengine hquit] at hsucceeded
      exact ⟨hresult.trans (hsuccess.trans hsucceeded.symm), .inr (.inr hquit)⟩

theorem Just.returned {t : Stand} (h : d.Just)
    (hstep : d.stand.step codeToVSWR wiring .returned = some t) : Just (d.follow t .returned) := by
  obtain ⟨w, hwait, hstage, rfl⟩ := Stand.advance_eq_some_iff.mp hstep
  have hsettled := (h.current w hwait).settled h.engine hstage
  rw [follow, hwait]
  refine ⟨h.engine, nofun, fun call hcall => ?_, fun result hresult => hresult⟩
  cases List.mem_cons.mp hcall with
  | inl hnew =>
    rw [hnew]
    exact hsettled
  | inr hold => exact h.past call hold

theorem Just.expired (h : d.Just) (k : Nat) :
    Just { d with past := d.past.modify k Returned.expire } := by
  refine ⟨h.engine, fun w hw => ?_, fun call hcall => ?_, fun result hresult => ?_⟩
  · obtain ⟨hfollows, hsucceeded, hearly, hleft, hquit, hlaunched, htold, htimer⟩ := h.current w hw
    exact ⟨hfollows, hsucceeded, hearly, hleft, hquit, hlaunched, htold, htimer⟩
  · obtain ⟨i, hi, rfl⟩ := List.mem_iff_getElem.mp hcall
    rw [List.getElem_modify]
    have hi : i < d.past.length := by simpa using hi
    have hmem := h.past d.past[i] (List.getElem_mem _)
    split
    next => exact hmem.expire
    next => exact hmem
  · have hlast := h.verdict result hresult
    change (d.past.modify k Returned.expire).head?.map Returned.result = some result
    cases hpast : d.past with
    | nil =>
      rw [hpast] at hlast
      cases hlast
    | cons call rest =>
      rw [hpast] at hlast
      cases k <;> exact hlast

/-- One step that does not deceive the call. -/
theorem Just.step {e : DocketEvent} (h : d.Just) (hundeceived : d.Undeceived wiring e)
    (hstep : d.step codeToVSWR wiring e = some d') : d'.Just := by
  cases e with
  | stand e =>
    obtain ⟨t, ht, rfl⟩ := Option.map_eq_some_iff.mp hstep
    have hcontinues : d.stand.engine.Continues (fun _ => True) t.engine :=
      Stand.continues_step (fun _ _ _ _ => trivial) ht fun _ _ => trivial
    have hengine := hcontinues.reachable h.engine
    obtain ⟨new, hlog⟩ := hcontinues.log
    cases e with
    | station e =>
      obtain ⟨u, hu, rfl⟩ := Option.map_eq_some_iff.mp ht
      have hcontinues : d.stand.engine.Continues (fun _ => True) u.engine :=
        Station.continues_step (fun _ _ _ _ => trivial) hu fun _ _ => trivial
      obtain ⟨new, hlog⟩ := hcontinues.log
      exact h.station hundeceived hlog (hcontinues.reachable h.engine)
    | stop =>
      obtain rfl := Option.some.inj ht
      exact h.stop hundeceived
    | execute =>
      obtain ⟨hidle, ht⟩ := Option.ite_none_right_eq_some.mp ht
      obtain rfl := Option.some.inj ht
      refine h.advance rfl rfl fun w hw => ?_
      rw [Option.isNone_iff_eq_none.mp hidle] at hw
      cases hw
    | called command address => exact h.called ht
    | launch answers => exact h.launch ht hlog hengine
    | exec => exact h.exec ht
    | timedOut => exact h.timedOut hundeceived ht
    | stopPoll => exact h.stopPoll ht
    | left => exact h.left ht
    | returned => exact h.returned ht
  | expired k =>
    obtain rfl := Option.some.inj hstep
    exact h.expired k

theorem Just.start (h : (machine codeToVSWR wiring).start d) : d.Just := by
  obtain ⟨stand, ⟨hengine, -, -, -, hwait, hverdict, -⟩, rfl⟩ := h
  refine ⟨.start hengine, fun w hw => ?_, fun call hcall => absurd hcall List.not_mem_nil,
    fun result hresult => ?_⟩
  · have hw : stand.wait = some w := hw
    rw [hwait] at hw
    cases hw
  · have hresult : stand.verdict = some result := hresult
    rw [hverdict] at hresult
    cases hresult

end

/-- **A step of a script reports its own command** in a run that never deceives it: a call of
`waitForCommand` has returned true exactly if all that its launcher has started succeeded before the
time-out and before a stop, be it before or after the return; and this is the verdict. A call whose
own successes have all been reported is told to leave its loop, unless a stop is requested, and in
any case the timer ends it. -/
theorem reports_own {codeToVSWR : Nat → UInt16 → FloatBits} {wiring : CommunicationFacade.Wiring}
    {d : Docket} (h : Machine.Reach (machine codeToVSWR wiring) (Undeceived wiring) d) :
    (∀ call ∈ d.past, call.result = true ↔ call.succeeded = true) ∧
    (∀ result, d.stand.verdict = some result →
      d.past.head?.map Returned.result = some result) ∧
    ∀ w, d.stand.wait = some w → w.stage = .inLoop →
      (d.stand.watch.fulfilled = true → w.quit = true ∨ d.stand.stopRequested = true) ∧
      (w.quit = true ∨ w.timer.isSome = true) := by
  have hjust : d.Just :=
    h.invariant (fun _ => Just.start) fun _ _ _ hjust hundeceived hstep =>
      hjust.step hundeceived hstep
  refine ⟨fun call hcall => ?_, hjust.verdict, fun w hwait hloop => ?_⟩
  · rw [(hjust.past call hcall).right]
  · have hjudged := hjust.current w hwait
    refine ⟨fun hfulfilled => ?_, hjudged.timer hloop⟩
    cases hstop : d.stand.stopRequested with
    | true => exact .inr rfl
    | false => exact .inl (hjudged.told hloop hstop hfulfilled)

/-- A VERS at address 1 is asked for, and answered while the call waits. -/
def versionAsked : List DocketEvent :=
  [.stand (.called .requestVersion 1), .stand (.launch {}), .stand .exec,
    .stand (.station .taken), .stand (.station (.engine (.datagram [0, 1, 0, 0x02])))] ++
    List.replicate 6 (.stand (.station .relayed)) ++ [.stand .left, .stand .returned]

theorem reports_own_version : ∃ d : Docket,
    Machine.Reach (machine (fun _ _ => 0) .inInitialize) (Undeceived .inInitialize) d ∧
      ∃ call ∈ d.past, call.result = true ∧ call.succeeded = true := by
  have hend : (Machine.run (fun (d : Docket) e => d.step (fun _ _ => 0) .inInitialize e)
      (Undeceived .inInitialize) { stand := .idle } versionAsked).map
        (fun d => d.past.map Returned.result) = some [true] := by
    decide
  obtain ⟨d, hrun, hresults⟩ := Option.map_eq_some_iff.mp hend
  have hreach : Machine.Reach (machine (fun _ _ => 0) .inInitialize) (Undeceived .inInitialize) d :=
    .of_run _ (fun _ _ _ h => h) (.start ⟨_, Stand.idle_start _ _, rfl⟩) versionAsked hrun
  obtain ⟨call, hpast, hresult⟩ := List.map_eq_singleton_iff.mp hresults
  have hcall : call ∈ d.past := hpast ▸ List.mem_singleton_self _
  exact ⟨d, hreach, call, hcall, hresult, ((reports_own hreach).1 call hcall).mp hresult⟩

/-- The status of address 1 is refused, because that of address 2 is under way; its report is taken
for that of address 1. -/
def statusRefused : List DocketEvent :=
  [.stand (.station (.controller (.called (.requestStatus 2) {}))), .stand (.station .taken),
    .stand (.called .requestStatus 1), .stand (.launch { busy := true }), .stand .exec,
    .stand (.station (.engine (.datagram [0, 2, 0, 0])))] ++
    List.replicate 6 (.stand (.station .relayed)) ++ [.stand .left, .stand .returned]

theorem not_reports_own : ¬ ∀ d, Machine.Reach (machine (fun _ _ => 0) .inInitialize)
    (fun _ _ => True) d → ∀ call ∈ d.past, call.result = true ↔ call.succeeded = true := by
  intro hall
  have hend : (Machine.run (fun (d : Docket) e => d.step (fun _ _ => 0) .inInitialize e)
      (fun _ _ => True) { stand := .idle } statusRefused).map
        (fun d => d.past.map fun call => (call.result, call.succeeded)) = some [(true, false)] := by
    decide
  obtain ⟨d, hrun, hpast⟩ := Option.map_eq_some_iff.mp hend
  obtain ⟨call, hpast, hcall⟩ := List.map_eq_singleton_iff.mp hpast
  have hreach : Machine.Reach (machine (fun _ _ => 0) .inInitialize) (fun _ _ => True) d :=
    .of_run _ (fun _ _ _ h => h) (.start ⟨_, Stand.idle_start _ _, rfl⟩) statusRefused hrun
  have hboth := hall d hreach call (hpast ▸ List.mem_singleton_self _)
  rw [(Prod.mk.inj hcall).1, (Prod.mk.inj hcall).2] at hboth
  exact absurd (hboth.mp rfl) Bool.false_ne_true

end Docket

end PPB
