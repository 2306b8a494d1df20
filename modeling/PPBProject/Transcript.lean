import PPBProject.Conduct
import PPBProject.Order
import Mathlib.Data.List.Flatten

/- What is asked of the PPBs over UDP, against what is started. Every request begins with eight
   bytes, in which the addresses and the command can be read; data packets are shorter, and FU
   requests carry a sign of their own. This file

   1. reads requests (`requestKey?`);
   2. gives the form of every history (`Transcript`): a single operation is followed by its request,
      and the request of a group comes after all of its members;
   3. proves that every run has a history of this form, and counts (`requests_asked`): nothing is
      asked that has not been started, nothing is asked twice, and nothing is left unasked. -/
namespace PPB

/-- The addresses, as one word, and the command. -/
abbrev RequestKey := UInt16 × UInt8

/-- What a datagram asks for: the first eight bytes of a request that is not an FU request. -/
def requestKey? : Bytes → Option RequestKey
  | high :: low :: command :: sign :: _ :: _ :: _ :: _ :: _ =>
    if sign = Sign.fu.code then none else some (fromBigEndian high low, command)
  | _ => none

theorem fromBigEndian_bytes (word : UInt16) :
    fromBigEndian (word >>> 8).toUInt8 word.toUInt8 = word := by
  have hword := word.toNat_lt
  apply UInt16.toNat_inj.mp
  rw [toNat_fromBigEndian, UInt16.toNat_toUInt8, UInt16.toNat_toUInt8, UInt16.toNat_shiftRight,
    Nat.shiftRight_eq_div_pow]
  change word.toNat / 2 ^ 8 % 2 ^ 8 * 256 + word.toNat % 2 ^ 8 = word.toNat
  omega

theorem requestKey?_base (address : UInt16) (command : UInt8) {sign : Sign} (hsign : sign ≠ .fu)
    (period : UInt8) (fuData : UInt8 × UInt8 × UInt8) (payload : Bytes) :
    requestKey? (createBaseRequest address command sign period fuData ++ payload) =
      some (address, command) := by
  have hcode : sign.code ≠ Sign.fu.code := by
    cases sign
    · decide
    · exact absurd rfl hsign
    · decide
  simp only [createBaseRequest, toBigEndian, List.cons_append, List.nil_append, requestKey?,
    if_neg hcode, fromBigEndian_bytes]

theorem requestKey?_createTURequest (address : UInt16) (command : TechCommand) (payload : Bytes) :
    requestKey? (createTURequest address command ++ payload) = some (address, command.code) :=
  requestKey?_base address command.code (by decide) 0 (0, 0, 0) payload

theorem requestKey?_groupRequest (cmd : TechCommand) (mask : UInt16) (data : Bytes) :
    requestKey? (groupRequest cmd mask data) = some (mask, cmd.code) := by
  unfold groupRequest
  split
  · exact requestKey?_createTURequest mask cmd []
  · exact requestKey?_createTURequest mask cmd data

/-- What a command asks for can be read from its request. -/
theorem requestKey?_buildRequest (st : Statics) (address : UInt16) {command : PPBCommand}
    (hbuilt : command.buildRequest st address ≠ []) :
    requestKey? (command.buildRequest st address) = some (address, command.commandId.code) := by
  cases command with
  | volumeCommand =>
    simp only [PPBCommand.buildRequest, PPBCommand.buildVolumeRequest] at hbuilt ⊢
    split
    next hempty => exact absurd (if_pos hempty) hbuilt
    next => exact requestKey?_base address _ (by decide) _ _ _
  | cleanCommand =>
    simp only [PPBCommand.buildRequest, PPBCommand.buildCleanRequest]
    split
    · exact requestKey?_base address _ (by decide) _ _ _
    · exact requestKey?_createTURequest address .clean []
  | prbsM2SCommand => exact requestKey?_createTURequest address .prbsM2S _
  | isYouCommand => exact requestKey?_base address _ (by decide) 0 (0, 0, 0) []
  | dataCommand cmd data => exact requestKey?_createTURequest address cmd _
  | statusCommand | versCommand | checkSumCommand | programmCommand | dropCommand | prbsS2MCommand
  | berTCommand | berFCommand | factoryNumber | updateCommand =>
    exact requestKey?_createTURequest address _ []

theorem requestKey?_createFURequest (address : UInt16) (cmd period : UInt8)
    (fuData : Option (UInt8 × UInt8 × UInt8)) :
    requestKey? (createFURequest address cmd period fuData) = none := rfl

/-! The histories. -/

def Output.request? : Output → Option RequestKey
  | datagramSent _ packet => requestKey? packet
  | _ => none

/-- What is asked for by an entry, where `next` comes after it: by the start of a single operation,
or of a group, whose command is that of its first member. -/
def Output.asks? (next : Option Output) : Output → Option RequestKey
  | started op _ => if op.origin.isGroup then none else some (op.address, op.command.code)
  | groupStarted _ mask =>
    match next with
    | some (started op _) => some (mask, op.command.code)
    | _ => none
  | _ => none

/-- The requests handed to UDP. -/
def requestsSent (h : List Output) : List RequestKey := h.filterMap Output.request?

/-- The requests that are due. -/
def requestsDue : List Output → List RequestKey
  | [] => []
  | o :: h => (o.asks? h.head?).toList ++ requestsDue h

/-- Neither a start nor a request. -/
def Output.isAside : Output → Bool
  | started .. | groupStarted .. => false
  | o => o.request? = none

/-- What sending a packet adds: the datagram and the transport's errors, or no datagram where there
is no transport. -/
inductive Handed (udp : Bool) (packet : Bytes) : List Output → Prop
  | sent (destination : Destination) (errors : List String) (hudp : udp = true) :
    Handed udp packet (.datagramSent destination packet :: errors.map .errorOccurred)
  | missing (errors : List String) (hudp : udp = false) :
    Handed udp packet (errors.map .errorOccurred)

/-- The start of one member of a group, and what comes before the start of the next. -/
structure MemberStart where
  address : UInt16
  behindGroups : Bool
  between : List Output

def MemberStart.history (groupId : Nat) (command : TechCommand) (m : MemberStart) : List Output :=
  .started ⟨m.address, .group groupId, command⟩ m.behindGroups :: m.between

/-- The form of a history. Between the starts of the members of a group others may be started. -/
inductive Transcript (udp : Bool) : List Output → Prop
  | nil : Transcript udp []
  | append {h h' : List Output} : Transcript udp h → Transcript udp h' → Transcript udp (h ++ h')
  | aside {o : Output} : o.isAside = true → Transcript udp [o]
  | refused (op : Operation) (behindGroups : Bool) :
    op.command = .volume → Transcript udp [.started op behindGroups]
  | single {between sent : List Output} {packet : Bytes} (op : Operation) (behindGroups : Bool) :
    op.origin.isGroup = false → (∀ o ∈ between, o.isAside = true) →
    requestKey? packet = some (op.address, op.command.code) → Handed udp packet sent →
    Transcript udp (.started op behindGroups :: (between ++ sent))
  | group {groupId : Nat} {mask : UInt16} {command : TechCommand} {first : MemberStart}
    {others : List MemberStart} {sent : List Output} {packet : Bytes} :
    List.Sublist ((first :: others).map (·.address)) (maskAddresses mask) →
    (∀ m ∈ first :: others, Transcript udp m.between) →
    requestKey? packet = some (mask, command.code) → Handed udp packet sent →
    Transcript udp (.groupStarted groupId mask ::
      ((first :: others).flatMap (·.history groupId command) ++ sent))

/-! The account of a history. -/

/-- The history does not break off before the first member of a group. -/
def Closed (h : List Output) : Prop :=
  ∀ groupId mask, h.getLast? ≠ some (.groupStarted groupId mask)

/-- Every request that is due is handed over, a VOLUME perhaps excepted, and no other. -/
structure Accounted (udp : Bool) (h : List Output) : Prop where
  closed : Closed h
  atMost : ∀ key, (requestsSent h).count key ≤ (requestsDue h).count key
  all : udp = true → ∀ key : RequestKey, key.2 ≠ TechCommand.volume.code →
    (requestsSent h).count key = (requestsDue h).count key

section
variable {udp : Bool} {h h' : List Output} {o : Output}

theorem count_request (key k : RequestKey) (keys : List RequestKey) :
    (key :: keys).count k = keys.count k + if k = key then 1 else 0 := by
  rw [List.count_cons]
  congr 1
  exact if_congr (by rw [beq_iff_eq, eq_comm]) rfl rfl

theorem Closed.append (hclosed : Closed h) (hclosed' : Closed h') : Closed (h ++ h') := by
  intro groupId mask
  rw [List.getLast?_append]
  cases hlast : h'.getLast? with
  | none => simpa using hclosed groupId mask
  | some last =>
    have hne := hclosed' groupId mask
    rw [hlast] at hne
    simpa using hne

theorem requestsSent_append (h h' : List Output) :
    requestsSent (h ++ h') = requestsSent h ++ requestsSent h' := List.filterMap_append ..

/-- Only a group is asked for by what comes after its start. -/
theorem asks?_congr {next next' : Option Output}
    (hgroup : ∀ groupId mask, o ≠ .groupStarted groupId mask) :
    o.asks? next = o.asks? next' := by
  cases o with
  | groupStarted groupId mask => exact absurd rfl (hgroup groupId mask)
  | _ => rfl

theorem requestsDue_append (hclosed : Closed h) (h' : List Output) :
    requestsDue (h ++ h') = requestsDue h ++ requestsDue h' := by
  induction h with
  | nil => rfl
  | cons o rest ih =>
    cases rest with
    | nil =>
      have hgroup : ∀ groupId mask, o ≠ .groupStarted groupId mask := by
        rintro groupId mask rfl
        exact hclosed groupId mask rfl
      rw [List.cons_append, List.nil_append, requestsDue, requestsDue, requestsDue, List.append_nil,
        asks?_congr hgroup]
    | cons next rest =>
      have hrest : Closed (next :: rest) := by
        intro groupId mask
        simpa using hclosed groupId mask
      rw [List.cons_append, requestsDue, ih hrest, requestsDue, ← List.append_assoc]
      rfl

theorem Accounted.append (hh : Accounted udp h) (hh' : Accounted udp h') :
    Accounted udp (h ++ h') := by
  refine ⟨hh.closed.append hh'.closed, ?_, ?_⟩
  · intro key
    rw [requestsSent_append, requestsDue_append hh.closed, List.count_append, List.count_append]
    exact Nat.add_le_add (hh.atMost key) (hh'.atMost key)
  · intro hudp key hkey
    rw [requestsSent_append, requestsDue_append hh.closed, List.count_append, List.count_append,
      hh.all hudp key hkey, hh'.all hudp key hkey]

theorem Accounted.of_eq_nil (hclosed : Closed h) (hsent : requestsSent h = [])
    (hdue : requestsDue h = []) : Accounted udp h := by
  refine ⟨hclosed, ?_, ?_⟩ <;> simp [hsent, hdue]

theorem request?_of_isAside (ho : o.isAside = true) : o.request? = none := by
  cases o <;> first | rfl | simpa [Output.isAside] using ho

theorem asks?_of_isAside (ho : o.isAside = true) (next : Option Output) :
    o.asks? next = none := by
  cases o <;> first | rfl | cases ho

theorem closed_asides (hasides : ∀ o ∈ h, o.isAside = true) : Closed h := by
  intro groupId mask hlast
  cases hasides _ (List.mem_of_getLast? hlast)

theorem accounted_aside (ho : o.isAside = true) : Accounted udp [o] := by
  refine .of_eq_nil (closed_asides (by simpa using ho)) ?_ ?_
  · simp [requestsSent, request?_of_isAside ho]
  · simp [requestsDue, asks?_of_isAside ho]

theorem accounted_asides (hasides : ∀ o ∈ h, o.isAside = true) : Accounted udp h := by
  induction h with
  | nil => exact .of_eq_nil (by simp [Closed]) rfl rfl
  | cons o rest ih =>
    exact (accounted_aside (hasides o (by simp))).append (ih fun other hmem =>
      hasides other (by simp [hmem]))

theorem requestsDue_asides (hasides : ∀ o ∈ h, o.isAside = true) : requestsDue h = [] := by
  induction h with
  | nil => rfl
  | cons o rest ih =>
    rw [requestsDue, asks?_of_isAside (hasides o (by simp)),
      ih fun other hmem => hasides other (by simp [hmem])]
    rfl

theorem requestsSent_asides (hasides : ∀ o ∈ h, o.isAside = true) : requestsSent h = [] :=
  List.filterMap_eq_nil_iff.mpr fun o ho => request?_of_isAside (hasides o ho)

theorem isAside_errors (errors : List String) :
    ∀ o ∈ errors.map Output.errorOccurred, o.isAside = true := by
  simp [Output.isAside, Output.request?]

/-- What is handed over asks for nothing more. -/
theorem Handed.due {packet : Bytes} {sent : List Output} (hsent : Handed udp packet sent) :
    requestsDue sent = [] := by
  cases hsent with
  | sent destination errors _ =>
    rw [requestsDue, requestsDue_asides (isAside_errors errors)]
    rfl
  | missing errors _ => exact requestsDue_asides (isAside_errors errors)

theorem Handed.requests {packet : Bytes} {key : RequestKey} {sent : List Output}
    (hsent : Handed udp packet sent) (hkey : requestKey? packet = some key) :
    requestsSent sent = if udp then [key] else [] := by
  cases hsent with
  | sent destination errors hudp =>
    have herrors := requestsSent_asides (isAside_errors errors)
    simp only [requestsSent] at herrors ⊢
    simp [hudp, Output.request?, hkey, herrors]
  | missing errors hudp =>
    rw [hudp, requestsSent_asides (isAside_errors errors)]
    rfl

theorem Handed.closed {packet : Bytes} {sent : List Output} (hsent : Handed udp packet sent) :
    Closed sent := by
  cases hsent with
  | sent destination errors _ =>
    have hfirst : Closed [Output.datagramSent destination packet] := by simp [Closed]
    exact hfirst.append (closed_asides (isAside_errors errors))
  | missing errors _ => exact closed_asides (isAside_errors errors)

/-- One request is due, and it is handed over at the end. -/
theorem accounted_of_handed {packet : Bytes} {key : RequestKey} {sent : List Output}
    (hclosed : Closed h) (hatMost : ∀ k, (requestsSent h).count k + (if k = key then 1 else 0) ≤
      (requestsDue h).count k)
    (hall : udp = true → ∀ k : RequestKey, k.2 ≠ TechCommand.volume.code →
      (requestsSent h).count k + (if k = key then 1 else 0) = (requestsDue h).count k)
    (hkey : requestKey? packet = some key) (hsent : Handed udp packet sent) :
    Accounted udp (h ++ sent) := by
  have hcount : ∀ k, List.count k [key] = if k = key then 1 else 0 := by
    intro k
    rw [count_request, List.count_nil, Nat.zero_add]
  refine ⟨hclosed.append hsent.closed, ?_, ?_⟩
  · intro k
    have hle := hatMost k
    rw [requestsSent_append, requestsDue_append hclosed, hsent.due, List.append_nil,
      List.count_append, hsent.requests hkey]
    split
    · rwa [hcount]
    · exact (Nat.le_add_right ..).trans hle
  · intro hudp k hk
    rw [requestsSent_append, requestsDue_append hclosed, hsent.due, List.append_nil,
      List.count_append, hsent.requests hkey, if_pos hudp, hcount]
    exact hall hudp k hk

theorem accounted_members (groupId : Nat) (command : TechCommand) {members : List MemberStart}
    (hmembers : ∀ m ∈ members, Accounted udp m.between) :
    Accounted udp (members.flatMap (·.history groupId command)) := by
  induction members with
  | nil => exact accounted_asides (by simp)
  | cons m rest ih =>
    have hstart : Accounted udp [.started ⟨m.address, .group groupId, command⟩ m.behindGroups] :=
      .of_eq_nil (by simp [Closed]) rfl rfl
    have hfirst := hstart.append (hmembers m (by simp))
    exact hfirst.append (ih fun other hmem => hmembers other (by simp [hmem]))

/-- Histories of that form balance. -/
theorem Transcript.accounted (ht : Transcript udp h) : Accounted udp h := by
  induction ht with
  | nil => exact accounted_asides (by simp)
  | append _ _ ih ih' => exact ih.append ih'
  | aside ho => exact accounted_aside ho
  | refused op behindGroups hvolume =>
    refine ⟨by simp [Closed], ?_, ?_⟩
    · intro key
      exact Nat.zero_le _
    · intro _ key hkey
      have hne : (op.address, op.command.code) ≠ key := by
        rintro rfl
        exact hkey (by rw [hvolume])
      have hsent : requestsSent [.started op behindGroups] = [] := rfl
      simp only [hsent, requestsDue, Output.asks?]
      split <;> simp [hne]
  | @single between sent packet op behindGroups horigin hbetween hkey hsent =>
    have hclosed : Closed (.started op behindGroups :: between) := by
      have hstart : Closed [Output.started op behindGroups] := by simp [Closed]
      exact hstart.append (closed_asides hbetween)
    have hsentBetween : requestsSent (.started op behindGroups :: between) = [] :=
      (requestsSent_asides hbetween : requestsSent between = [])
    have hdue : requestsDue (.started op behindGroups :: between) =
        [(op.address, op.command.code)] := by
      simp [requestsDue, requestsDue_asides hbetween, Output.asks?, horigin]
    have hcount : ∀ k, (requestsSent (.started op behindGroups :: between)).count k +
        (if k = (op.address, op.command.code) then 1 else 0) =
        (requestsDue (.started op behindGroups :: between)).count k := by
      intro k
      rw [hsentBetween, hdue, count_request, List.count_nil]
    exact accounted_of_handed hclosed (fun k => (hcount k).le) (fun _ k _ => hcount k) hkey hsent
  | @group groupId mask command first others sent packet hsublist _ hkey hsent ih =>
    have hmembers := accounted_members groupId command ih
    set body := (first :: others).flatMap (·.history groupId command) with hbody
    have hhead : body.head? =
        some (.started ⟨first.address, .group groupId, command⟩ first.behindGroups) := by
      simp [hbody, MemberStart.history]
    have hclosed : Closed (.groupStarted groupId mask :: body) := by
      intro otherId otherMask
      rw [List.getLast?_cons]
      cases hlast : body.getLast? with
      | none => simp [List.getLast?_eq_none_iff.mp hlast] at hhead
      | some last =>
        have hne := hmembers.closed otherId otherMask
        rw [hlast] at hne
        simpa using hne
    have hsentBody : requestsSent (.groupStarted groupId mask :: body) = requestsSent body := rfl
    have hdue : requestsDue (.groupStarted groupId mask :: body) =
        (mask, command.code) :: requestsDue body := by
      rw [requestsDue, hhead]
      rfl
    have hcons : ∀ k, (requestsDue (.groupStarted groupId mask :: body)).count k =
        (requestsDue body).count k + if k = (mask, command.code) then 1 else 0 := by
      intro k
      rw [hdue, count_request]
    refine accounted_of_handed hclosed ?_ ?_ hkey hsent
    · intro k
      rw [hcons, hsentBody]
      exact Nat.add_le_add_right (hmembers.atMost k) _
    · intro hudp k hk
      rw [hcons, hsentBody, hmembers.all hudp k hk]

end

/-! What the engine adds to its history. -/

namespace Engine

/-- The engine has added a history of that form; its queues are as they were. -/
structure Writes (s t : Engine) : Prop where
  log : ∃ new, t.log = s.log ++ new ∧ Transcript s.udpClient.isSome new
  udpClient : t.udpClient = s.udpClient
  queues : t.queues = s.queues

/-- It has added nothing but asides. -/
structure Notes (s t : Engine) : Prop where
  log : Machine.Extends (fun o => o.isAside = true) s.log t.log
  udpClient : t.udpClient = s.udpClient
  queues : t.queues = s.queues

section
variable {s t u : Engine} {address : UInt16} {request : Request}

theorem Notes.refl (s : Engine) : Notes s s := ⟨.refl _, rfl, rfl⟩

theorem Notes.trans (h : Notes s t) (h' : Notes t u) : Notes s u :=
  ⟨h.log.trans h'.log, h'.udpClient.trans h.udpClient, h'.queues.trans h.queues⟩

theorem Notes.of_eq (hlog : t.log = s.log) (hudpClient : t.udpClient = s.udpClient)
    (hqueues : t.queues = s.queues) : Notes s t := ⟨hlog ▸ .refl _, hudpClient, hqueues⟩

theorem transcript_asides {udp : Bool} {h : List Output} (hasides : ∀ o ∈ h, o.isAside = true) :
    Transcript udp h := by
  induction h with
  | nil => exact .nil
  | cons o rest ih =>
    exact .append (.aside (hasides o (by simp)))
      (ih fun other hmem => hasides other (by simp [hmem]))

theorem Notes.writes (h : Notes s t) : Writes s t := by
  obtain ⟨new, hlog, hnew⟩ := h.log
  exact ⟨⟨new, hlog, transcript_asides hnew⟩, h.udpClient, h.queues⟩

theorem Writes.refl (s : Engine) : Writes s s := (Notes.refl s).writes

theorem Writes.trans (h : Writes s t) (h' : Writes t u) : Writes s u := by
  obtain ⟨new, hlog, hnew⟩ := h.log
  obtain ⟨new', hlog', hnew'⟩ := h'.log
  rw [h.udpClient] at hnew'
  refine ⟨⟨new ++ new', ?_, hnew.append hnew'⟩, h'.udpClient.trans h.udpClient,
    h'.queues.trans h.queues⟩
  rw [hlog', hlog, List.append_assoc]

/-! Asides. -/

theorem notes_emit {o : Output} (ho : o.isAside = true) : Notes s (s.emit o) :=
  ⟨s.extends_log_emit ho, rfl, rfl⟩

theorem notes_emitAll {os : List Output} (hos : ∀ o ∈ os, o.isAside = true) :
    Notes s (s.emitAll os) := ⟨⟨os, rfl, hos⟩, rfl, rfl⟩

theorem notes_post (callback : Posted) : Notes s (s.post callback) := .of_eq rfl rfl rfl

theorem notes_modifyContext (address : UInt16) (f : PPBContext → PPBContext) :
    Notes s (s.modifyContext address f) := by
  unfold modifyContext
  split <;> exact .of_eq rfl rfl rfl

theorem notes_clearContext : Notes s (s.clearContext address) := by
  unfold clearContext
  split <;> exact .of_eq rfl rfl rfl

theorem notes_updateBusyState : Notes s s.updateBusyState := by
  unfold updateBusyState
  split
  · exact ⟨⟨[_], rfl, by simp [Output.isAside, Output.request?]⟩, rfl, rfl⟩
  · exact .refl s

theorem notes_transitionState (address : UInt16) (newState : PPBState) :
    Notes s (s.transitionState address newState) := by
  unfold transitionState
  split
  · exact .refl s
  · dsimp only
    have hleft (t : Engine) (ht : Notes s t) :
        Notes s (if address = t.currentAddress then
          { t with states := t.states.insert address newState }.emit
            (.stateChanged address newState)
        else { t with states := t.states.insert address newState }) := by
      have hset : Notes s { t with states := t.states.insert address newState } :=
        ht.trans (.of_eq rfl rfl rfl)
      split
      · exact hset.trans (notes_emit rfl)
      · exact hset
    cases newState with
    | idle => exact hleft _ notes_clearContext
    | ready => exact hleft _ (notes_post _)
    | sendingCommand => exact hleft _ (.refl s)

theorem notes_settleMember (success : Bool) : Notes s (s.settleMember address success) := by
  unfold settleMember
  dsimp only
  refine ⟨⟨_, rfl, ?_⟩, rfl, rfl⟩
  intro o ho
  obtain ⟨entry, -, -, -, rfl⟩ := mem_settleGroups_snd _ _ _ ho
  rfl

theorem isAside_of_mem_reportOf {op : Operation} {c : PPBContext} {success : Bool}
    {message : String} {o : Output} (h : o ∈ reportOf op c success message) : o.isAside = true := by
  obtain ⟨data, hreport, hdata⟩ := reportOf_eq_cons op c success message
  rw [hreport] at h
  obtain rfl | h := List.mem_cons.mp h
  · rfl
  · obtain ⟨parsed, rfl⟩ | ⟨mask, packets, rfl⟩ := hdata o h <;> rfl

theorem notes_closeOperation (address : UInt16) (c : PPBContext) (request : Request)
    (success : Bool) (message : String) :
    Notes s (s.closeOperation address c request success message) := by
  unfold closeOperation
  have hdone : Notes s
      (s.setContext address { c with operationCompleted := true, operationTimer := none }) :=
    .of_eq rfl rfl rfl
  have hreport : ∀ o ∈ reportOf (request.operation address) c success message,
      o.isAside = true := fun o ho => isAside_of_mem_reportOf ho
  have hreported := hdone.trans (notes_emitAll hreport)
  have hcleared := hreported.trans (notes_modifyContext address PPBContext.clearParseResults)
  have hbusy := hcleared.trans notes_updateBusyState
  exact (hbusy.trans (notes_transitionState address _)).trans (notes_settleMember _)

/-- The start of an operation is noted first. -/
theorem log_openOperation (s : Engine) (address : UInt16) (request : Request)
    (suppressSend : Bool) :
    ∃ between, (∀ o ∈ between, o.isAside = true) ∧
      (s.openOperation address request suppressSend).log =
        s.log ++ .started (request.operation address) s.groupsOutstanding :: between := by
  unfold openOperation
  dsimp only
  set begun := (s.setContext address
    (((s.findContext address).getD {}).reset request suppressSend)).emit
      (.started (request.operation address) s.groupsOutstanding) with hbegun
  have hnotes : Notes begun (begun.transitionState address .sendingCommand).updateBusyState :=
    (notes_transitionState address _).trans notes_updateBusyState
  obtain ⟨between, hlog, hbetween⟩ := hnotes.log
  refine ⟨between, hbetween, ?_⟩
  rw [hlog, hbegun]
  exact List.append_assoc ..

theorem udpClient_openOperation (s : Engine) (address : UInt16) (request : Request)
    (suppressSend : Bool) : (s.openOperation address request suppressSend).udpClient = s.udpClient ∧
      (s.openOperation address request suppressSend).queues = s.queues := by
  have hnotes (t : Engine) : Notes t (t.transitionState address .sendingCommand).updateBusyState :=
    (notes_transitionState address _).trans notes_updateBusyState
  exact ⟨(hnotes _).udpClient, (hnotes _).queues⟩

theorem log_sendPacketInternal (s : Engine) (packet : Bytes) :
    ∃ sent, Handed s.udpClient.isSome packet sent ∧
      (s.sendPacketInternal packet).log = s.log ++ sent := by
  unfold sendPacketInternal
  split
  next hnone => exact ⟨_, .missing [_] (by rw [hnone]; rfl), rfl⟩
  next client hclient =>
    obtain ⟨destination, errors, hlog⟩ := s.log_handToUdp client packet
    exact ⟨_, .sent destination errors (by rw [hclient]; rfl), hlog⟩

theorem udpClient_sendPacketInternal (s : Engine) (packet : Bytes) :
    (s.sendPacketInternal packet).udpClient = s.udpClient ∧
      (s.sendPacketInternal packet).queues = s.queues := by
  unfold sendPacketInternal
  split <;> exact ⟨rfl, rfl⟩

/-! Completion and execution. -/

section
variable {tryStart : Engine → Engine} (htry : ∀ t : Engine, Writes t (tryStart t))

include htry

theorem writes_completeOperationWith (success : Bool) (message : String) :
    Writes s (completeOperationWith tryStart s address success message) := by
  unfold completeOperationWith
  split
  next => exact .refl s
  next c _ =>
    split
    next => exact .refl s
    next =>
      split
      next => exact .refl s
      next request _ =>
        have hclosed : Notes s (s.closeOperation address c request success message) :=
          notes_closeOperation ..
        have htried := hclosed.writes.trans (htry _)
        dsimp only
        split
        · exact htried.trans (notes_post _).writes
        · exact htried

/-- An operation of its own is started, and its request follows. -/
theorem writes_executeCommandImmediatelyWith (hsingle : request.origin.isGroup = false) :
    Writes s (executeCommandImmediatelyWith tryStart s address request false) := by
  unfold executeCommandImmediatelyWith
  split
  · exact .refl s
  dsimp only
  obtain ⟨between, hbetween, hlog⟩ := log_openOperation s address request false
  obtain ⟨hclient, hqueues⟩ := udpClient_openOperation s address request false
  set opened := s.openOperation address request false with hopened
  clear_value opened
  -- the request, and then whatever becomes of the operation
  have hhanded {t : Engine} {sent : List Output} (hlogs : t.log = opened.log ++ sent)
      (hclient' : t.udpClient = opened.udpClient) (hqueues' : t.queues = opened.queues)
      (hbuilt : request.command.buildRequest opened.statics address ≠ [])
      (hsent : Handed opened.udpClient.isSome
        (request.command.buildRequest opened.statics address) sent) : Writes s t := by
    refine ⟨⟨_, ?_, .single (request.operation address) s.groupsOutstanding hsingle hbetween
      (requestKey?_buildRequest opened.statics address hbuilt) (hclient ▸ hsent)⟩,
      hclient'.trans hclient, hqueues'.trans hqueues⟩
    rw [hlogs, hlog, List.append_assoc, List.cons_append]
  split
  next hempty =>
    obtain ⟨hvolume, -⟩ := (PPBCommand.buildRequest_eq_nil_iff ..).mp hempty
    have hrefused : Writes s opened := by
      refine ⟨⟨_, hlog, ?_⟩, hclient, hqueues⟩
      refine .append (.refused (request.operation address) s.groupsOutstanding ?_)
        (transcript_asides hbetween)
      rw [Request.operation, hvolume]
      rfl
    exact hrefused.trans (writes_completeOperationWith htry ..)
  next hbuilt =>
    rw [if_pos (by rfl)]
    split
    · unfold sendVolume
      split
      next hnone =>
        have hnothing : Writes s { opened with statics := opened.statics.clearCurrentVolumeData } :=
          hhanded (List.append_nil _).symm rfl rfl hbuilt (.missing [] (by rw [hnone]; rfl))
        exact hnothing.trans (writes_completeOperationWith htry ..)
      next client hsome =>
        obtain ⟨destination, errors, hlogs⟩ := opened.log_handToUdp client
          (request.command.buildRequest opened.statics address)
        dsimp only
        set handed := (opened.handToUdp client
          (request.command.buildRequest opened.statics address)).1 with hhand
        have hvolume : Writes s { handed with
            statics := handed.statics.clearCurrentVolumeData } :=
          hhanded hlogs rfl rfl hbuilt (.sent destination errors (by rw [hsome]; rfl))
        split
        · exact hvolume.trans (writes_completeOperationWith htry ..)
        · exact hvolume.trans (writes_completeOperationWith htry ..)
    · obtain ⟨sent, hsent, hlogs⟩ := log_sendPacketInternal opened
        (request.command.buildRequest opened.statics address)
      obtain ⟨hclient', hqueues'⟩ := udpClient_sendPacketInternal opened
        (request.command.buildRequest opened.statics address)
      exact (hhanded hlogs hclient' hqueues' hbuilt hsent).trans (notes_modifyContext _ _).writes

/-- A member of a group that is free is started, and nothing is sent for it alone. -/
theorem exists_memberStart (groupId : Nat) (command : PPBCommand)
    (hfree : s.isSending address = false) : ∃ m : MemberStart, m.address = address ∧
      Transcript s.udpClient.isSome m.between ∧
      (executeCommandImmediatelyWith tryStart s address ⟨.group groupId, command⟩ true).log =
        s.log ++ m.history groupId command.commandId := by
  unfold executeCommandImmediatelyWith
  rw [if_neg (by simp [hfree])]
  dsimp only
  obtain ⟨between, hbetween, hlog⟩ := log_openOperation s address ⟨.group groupId, command⟩ true
  obtain ⟨hclient, -⟩ := udpClient_openOperation s address ⟨.group groupId, command⟩ true
  have hrest {t : Engine} (h : Writes (s.openOperation address ⟨.group groupId, command⟩ true) t) :
      ∃ m : MemberStart, m.address = address ∧ Transcript s.udpClient.isSome m.between ∧
        t.log = s.log ++ m.history groupId command.commandId := by
    obtain ⟨new, hnew, hform⟩ := h.log
    refine ⟨⟨address, s.groupsOutstanding, between ++ new⟩, rfl, ?_, ?_⟩
    · exact (transcript_asides hbetween).append (hclient ▸ hform)
    · rw [hnew, hlog, List.append_assoc]
      rfl
  split
  · exact hrest (writes_completeOperationWith htry ..)
  · exact hrest (notes_modifyContext _ _).writes

theorem kept_executeCommandImmediatelyWith (s : Engine) (address : UInt16) (request : Request) :
    (executeCommandImmediatelyWith tryStart s address request true).udpClient = s.udpClient ∧
      (executeCommandImmediatelyWith tryStart s address request true).queues = s.queues := by
  obtain ⟨hclient, hqueues⟩ := udpClient_openOperation s address request true
  have hrest {t : Engine} (h : Writes (s.openOperation address request true) t) :
      t.udpClient = s.udpClient ∧ t.queues = s.queues :=
    ⟨h.udpClient.trans hclient, h.queues.trans hqueues⟩
  unfold executeCommandImmediatelyWith
  split
  · exact ⟨rfl, rfl⟩
  dsimp only
  split
  · exact hrest (writes_completeOperationWith htry ..)
  · exact hrest (notes_modifyContext _ _).writes

theorem startMembersWith_history (groupId : Nat) (command : PPBCommand) (addresses : List UInt16)
    (s : Engine) : ∃ members : List MemberStart,
      List.Sublist (members.map (·.address)) addresses ∧
      (∀ address ∈ addresses.head?, s.isSending address = false → members ≠ []) ∧
      (∀ m ∈ members, Transcript s.udpClient.isSome m.between) ∧
      (startMembersWith tryStart ⟨.group groupId, command⟩ s addresses).log =
        s.log ++ members.flatMap (·.history groupId command.commandId) ∧
      (startMembersWith tryStart ⟨.group groupId, command⟩ s addresses).udpClient = s.udpClient ∧
      (startMembersWith tryStart ⟨.group groupId, command⟩ s addresses).queues = s.queues := by
  induction addresses generalizing s with
  | nil => exact ⟨[], .slnil, by simp, by simp, (List.append_nil _).symm, rfl, rfl⟩
  | cons address rest ih =>
    unfold startMembersWith
    obtain ⟨hclient, hqueues⟩ := kept_executeCommandImmediatelyWith htry s address
      ⟨.group groupId, command⟩
    obtain ⟨members, hsublist, -, hbetween, hlog, hclient', hqueues'⟩ :=
      ih (executeCommandImmediatelyWith tryStart s address ⟨.group groupId, command⟩ true)
    rw [hclient] at hbetween
    by_cases hfree : s.isSending address = true
    · have hskipped : executeCommandImmediatelyWith tryStart s address
          ⟨.group groupId, command⟩ true = s := if_pos hfree
      have hfirst : ∀ a ∈ (address :: rest).head?, s.isSending a = false → members ≠ [] := by
        intro a ha hfree'
        obtain rfl : address = a := Option.some.inj ha
        rw [hfree] at hfree'
        cases hfree'
      exact ⟨members, hsublist.cons address, hfirst, hbetween, by rw [hlog, hskipped],
        hclient'.trans hclient, hqueues'.trans hqueues⟩
    · obtain ⟨m, rfl, hm, hfirst⟩ := exists_memberStart htry groupId command
        (Bool.not_eq_true _ ▸ hfree)
      refine ⟨m :: members, hsublist.cons_cons m.address, by simp,
        List.forall_mem_cons.mpr ⟨hm, hbetween⟩, ?_, hclient'.trans hclient, hqueues'.trans hqueues⟩
      rw [hlog, hfirst, List.flatMap_cons, List.append_assoc]

/-- The members are started one after the other, and then the request they share is sent. -/
theorem writes_startGroupCommandWith (groupId : Nat) (cmd : TechCommand) (mask : UInt16)
    (data : Bytes) : Writes s (startGroupCommandWith tryStart s groupId cmd mask data).1 := by
  unfold startGroupCommandWith
  split
  · exact .refl s
  next hcan =>
    dsimp only
    split
    · exact .refl s
    next command hcreate =>
      split
      · exact .refl s
      next hmembers =>
        set group : GroupInfo := { pendingAddresses := maskAddresses mask } with hgroup
        set begun := { s with groupOperations := insertGroup groupId group s.groupOperations }.emit
          (.groupStarted groupId mask) with hbegun
        obtain ⟨members, hsublist, hfirst, hbetween, hlog, hclient, hqueues⟩ :=
          startMembersWith_history htry groupId command (maskAddresses mask) begun
        set started := startMembersWith tryStart ⟨.group groupId, command⟩ begun
          (maskAddresses mask) with hstarted
        clear_value started
        obtain ⟨first, others, rfl⟩ : ∃ first others, members = first :: others := by
          obtain ⟨address, rest, haddresses⟩ := List.exists_cons_of_ne_nil hmembers
          apply List.exists_cons_of_ne_nil
          apply hfirst address (by simp [haddresses])
          change s.isSending address = false
          have hall : (maskAddresses mask).all (fun a => !s.isSending a) = true := by
            simp only [canStartGroupCommand, Bool.not_eq_true', Bool.not_eq_false,
              Bool.and_eq_true] at hcan
            exact hcan.1
          have hfree := List.all_eq_true.mp hall address (by simp [haddresses])
          simpa using hfree
        obtain ⟨sent, hsent, hlogs⟩ := log_sendPacketInternal started
          (groupRequest cmd mask data)
        obtain ⟨hclient', hqueues'⟩ := udpClient_sendPacketInternal started
          (groupRequest cmd mask data)
        have hkey : requestKey? (groupRequest cmd mask data) =
            some (mask, command.commandId.code) := by
          rw [requestKey?_groupRequest, commandId_of_create hcreate]
        have hlogs' : (started.sendPacketInternal (groupRequest cmd mask data)).log =
            s.log ++ .groupStarted groupId mask ::
              ((first :: others).flatMap (·.history groupId command.commandId) ++ sent) := by
          have hbegunLog : begun.log = s.log ++ [.groupStarted groupId mask] := rfl
          rw [hlogs, hlog, hbegunLog, List.append_assoc, List.append_assoc]
          rfl
        exact ⟨⟨_, hlogs', .group hsublist hbetween hkey (hclient ▸ hsent)⟩, hclient'.trans hclient,
          hqueues'.trans hqueues⟩

theorem writes_tryStartPendingGroupCommandsWith :
    Writes s (tryStartPendingGroupCommandsWith tryStart s) := by
  unfold tryStartPendingGroupCommandsWith
  split
  · exact .refl s
  next front rest _ =>
    split
    · exact .refl s
    · have hpopped : Notes s { s with pendingGroupCommands := rest } := .of_eq rfl rfl rfl
      have hstarted := hpopped.writes.trans
        (writes_startGroupCommandWith htry front.groupId front.command front.mask front.data)
      dsimp only
      split
      · exact hstarted
      · exact hstarted.trans (notes_emit rfl).writes

end

/-- Nested starts, however deep. -/
theorem writes_tryStartNested (n : Nat) (s : Engine) : Writes s (tryStartNested n s) := by
  induction n generalizing s with
  | zero => exact .refl s
  | succ n ih => exact writes_tryStartPendingGroupCommandsWith ih

theorem writes_tryStartPendingGroupCommands (s : Engine) :
    Writes s s.tryStartPendingGroupCommands := writes_tryStartNested _ s

theorem writes_completeOperation (success : Bool) (message : String) :
    Writes s (s.completeOperation address success message) :=
  writes_completeOperationWith writes_tryStartPendingGroupCommands success message

theorem writes_executeCommandImmediately (hsingle : request.origin.isGroup = false) :
    Writes s (s.executeCommandImmediately address request false) :=
  writes_executeCommandImmediatelyWith writes_tryStartPendingGroupCommands hsingle

/-! Datagrams and timers. -/

theorem writes_hostCall (call : HostCall) : Writes s (hostCall address s call) := by
  cases call with
  | setParseResult success message => exact (notes_modifyContext _ _).writes
  | setParseData data => exact (notes_modifyContext _ _).writes
  | completeCurrentOperation success message => exact writes_completeOperation success message
  | _ =>
    apply Notes.writes
    exact .of_eq rfl rfl rfl

theorem writes_runCallback (calls : List HostCall) : Writes s (s.runCallback address calls) := by
  induction calls generalizing s with
  | nil => exact .refl s
  | cons call rest ih => exact (writes_hostCall call).trans ih

theorem writes_completeWithBridgeReply (success : Bool) (message : String)
    (data : Option ParsedData) :
    Writes s (s.completeWithBridgeReply address success message data) := by
  have hresult : Notes s (s.setCommandParseResult address success message) :=
    notes_modifyContext _ _
  exact (hresult.trans (notes_modifyContext _ _)).writes.trans (writes_completeOperation ..)

theorem writes_completeIsYou (event : ProtocolEvent) :
    Writes s (s.completeIsYou address event) := by
  unfold completeIsYou
  split
  · exact writes_completeWithBridgeReply ..
  · split <;> exact writes_completeWithBridgeReply ..

theorem writes_handleTUEvent (command : PPBCommand) (event : ProtocolEvent) :
    Writes s (s.handleTUEvent address command event) := by
  unfold handleTUEvent
  split
  · exact writes_completeOperation ..
  · dsimp only
    split
    · exact writes_runCallback _
    · exact (writes_runCallback _).trans (writes_completeOperation ..)
  · dsimp only
    split
    · exact writes_runCallback _
    · exact (writes_runCallback _).trans (writes_completeOperation ..)
  · exact .refl s
  · exact .refl s

theorem writes_dispatchToOperation {command : PPBCommand} {data : Bytes}
    (hdispatch : s.dispatchToOperation address command data = some t) : Writes s t := by
  unfold dispatchToOperation at hdispatch
  dsimp only at hdispatch
  split at hdispatch
  next => exact Option.some.inj hdispatch ▸ writes_completeIsYou _
  next =>
    split at hdispatch
    next =>
      split at hdispatch
      · exact Option.some.inj hdispatch ▸ .refl s
      · exact Option.some.inj hdispatch ▸ writes_handleTUEvent ..
    next =>
      obtain ⟨_, -, rfl⟩ := Option.map_eq_some_iff.mp hdispatch
      exact writes_completeOperation ..

theorem writes_handleUnclaimed (data : Bytes) : Writes s (s.handleUnclaimed data) := by
  unfold handleUnclaimed
  split
  next event _ =>
    unfold handleBridgeEvent
    split
    · dsimp only
      split
      · exact writes_completeWithBridgeReply ..
      · split <;> exact writes_completeWithBridgeReply ..
    · exact (notes_emit rfl).writes
  next => exact .refl s

theorem writes_onDataReceived (data : Bytes) : Writes s (s.onDataReceived data) := by
  unfold onDataReceived
  split
  · exact .refl s
  · dsimp only
    split
    next request _ =>
      cases hdispatch : s.dispatchToOperation (addressFromPacket data) request.command data with
      | none => exact writes_handleUnclaimed data
      | some t => exact writes_dispatchToOperation hdispatch
    next => exact writes_handleUnclaimed data

theorem writes_onOperationTimeout (address : UInt16) : Writes s (s.onOperationTimeout address) := by
  unfold onOperationTimeout
  dsimp only
  have hstopped : Writes s (s.modifyContext address fun c => { c with operationTimer := none }) :=
    (notes_modifyContext _ _).writes
  split
  · split
    · exact hstopped.trans (writes_completeOperation ..)
    · exact hstopped
  · exact hstopped

end

/-! Over whole runs. -/

/-- The history has the form, and what waits in a queue is no part of a group. -/
structure Scripted (s : Engine) : Prop where
  log : Transcript s.udpClient.isSome s.log
  queued : s.Queued fun _ request => request.origin.isGroup = false

namespace Scripted

variable {s t : Engine} {address : UInt16}

theorem writes (h : s.Scripted) (hwrites : Writes s t) : t.Scripted := by
  obtain ⟨new, hlog, hnew⟩ := hwrites.log
  refine ⟨?_, h.queued.congr ?_⟩
  · rw [hlog, hwrites.udpClient]
    exact h.log.append hnew
  · funext a
    rw [queueOf, queueOf, hwrites.queues]

theorem notes (h : s.Scripted) (hnotes : Notes s t) : t.Scripted := h.writes hnotes.writes

theorem requeue (h : s.Scripted) {queues : Table (List Request)}
    (hqueued : ({ s with queues } : Engine).Queued fun _ request =>
      request.origin.isGroup = false) : ({ s with queues } : Engine).Scripted := ⟨h.log, hqueued⟩

theorem acceptQueued (h : s.Scripted) (address : UInt16) (command : PPBCommand) :
    (s.acceptQueued address command).Scripted := by
  have haccepted : Scripted ({ s with nextTicket := s.nextTicket + 1 }.emit
      (.accepted address (.single s.nextTicket) true)) :=
    h.notes ⟨⟨[_], rfl, by simp [Output.isAside, Output.request?]⟩, rfl, rfl⟩
  exact haccepted.requeue (haccepted.queued.enqueue rfl)

theorem submit (h : s.Scripted) (address : UInt16) (command : PPBCommand) :
    (s.submit address command).Scripted := by
  unfold Engine.submit
  split
  · exact h.acceptQueued address command
  · split
    · exact h.acceptQueued address command
    · have haccepted : Scripted ({ s with nextTicket := s.nextTicket + 1 }.emit
          (.accepted address (.single s.nextTicket) false)) :=
        h.notes ⟨⟨[_], rfl, by simp [Output.isAside, Output.request?]⟩, rfl, rfl⟩
      exact haccepted.writes (writes_executeCommandImmediately rfl)

theorem dequeueAndExecute (h : s.Scripted) (address : UInt16) :
    (s.dequeueAndExecute address).Scripted := by
  cases hqueue : s.queueOf address with
  | nil => exact (dequeueAndExecute_nil hqueue).symm ▸ h
  | cons request rest =>
    obtain ⟨queues, hqueues, hstep⟩ := dequeueAndExecute_cons hqueue
    obtain ⟨hsingle, hrest⟩ := h.queued.pop hqueue hqueues
    rw [hstep]
    exact (h.requeue hrest).writes (writes_executeCommandImmediately hsingle)

theorem processCommandQueue (h : s.Scripted) (addresses : List UInt16) :
    (s.processCommandQueue addresses).Scripted := by
  unfold Engine.processCommandQueue
  induction addresses generalizing s with
  | nil => exact h
  | cons address rest ih =>
    apply ih
    unfold processQueued
    split
    · exact h
    · split
      · exact h.dequeueAndExecute address
      · exact h

theorem executeGroupCommand (h : s.Scripted) (cmd : TechCommand) (mask : UInt16) (data : Bytes) :
    (s.executeGroupCommand cmd mask data).1.Scripted := by
  unfold Engine.executeGroupCommand
  split
  · exact h.notes (notes_emit rfl)
  · split
    · dsimp only
      split
      · exact h.notes ⟨⟨[_], rfl, by simp [Output.isAside, Output.request?]⟩, rfl, rfl⟩
      · have haccepted : Scripted ({ s with nextGroupId := s.nextGroupId + 1 }.emit
            (.groupAccepted s.nextGroupId mask false)) :=
          h.notes ⟨⟨[_], rfl, by simp [Output.isAside, Output.request?]⟩, rfl, rfl⟩
        have hstarted := haccepted.writes (writes_startGroupCommandWith
          writes_tryStartPendingGroupCommands s.nextGroupId cmd mask data)
        split
        · exact hstarted
        · exact hstarted.notes (notes_emit rfl)
    · exact h.notes (notes_emit rfl)

/-- A packet that is no request. -/
theorem sendPacketInternal (h : s.Scripted) {packet : Bytes} (hpacket : requestKey? packet = none) :
    (s.sendPacketInternal packet).Scripted := by
  obtain ⟨hclient, hqueues⟩ := udpClient_sendPacketInternal s packet
  refine h.notes ⟨s.extends_log_sendPacketInternal ?_ fun _ => rfl, hclient, hqueues⟩
  intro destination
  simp [Output.isAside, Output.request?, hpacket]

theorem sendDataPackets (h : s.Scripted) (packets : List DataPacket) :
    (s.sendDataPackets packets).Scripted := by
  unfold Engine.sendDataPackets
  refine Scripted.notes ?_ (notes_emit rfl)
  induction packets generalizing s with
  | nil => exact h
  | cons packet rest ih => exact ih (h.sendPacketInternal rfl)

theorem clearCommandQueue (h : s.Scripted) (address : UInt16) :
    (s.clearCommandQueue address).Scripted := by
  have hforgotten : Scripted { s with queues := s.queues.erase address } :=
    h.requeue (h.queued.forget fun a => by
      obtain rfl | hne := eq_or_ne a address
      · exact .inr (AList.lookup_erase a s.queues)
      · exact .inl (AList.lookup_erase_ne hne))
  exact hforgotten.notes (notes_emit rfl)

theorem disconnect (h : s.Scripted) : s.disconnect.Scripted := by
  have hforgotten : Scripted { s with queues := ∅ } :=
    h.requeue (h.queued.forget fun a => .inr (AList.lookup_empty a))
  exact hforgotten.notes
    ⟨⟨[.disconnected], rfl, by simp [Output.isAside, Output.request?]⟩, rfl, rfl⟩

theorem runPosted (h : s.Scripted) (index : Nat) (order : List UInt16) :
    (s.runPosted index order).Scripted := by
  have hgone : Scripted { s with posted := s.posted.eraseIdx index } := h.notes (.of_eq rfl rfl rfl)
  unfold Engine.runPosted
  dsimp only
  split
  · unfold processNextCommandForAddress
    split
    · exact hgone
    · exact hgone.dequeueAndExecute _
  · exact hgone.processCommandQueue order
  · exact hgone

theorem handle (h : s.Scripted) (e : Event) : (s.handle e).Scripted := by
  cases e with
  | connectToPPB address ip port =>
    have hmoved : Scripted { s with
        currentAddress := address, currentIP := ip, currentPort := port } :=
      h.notes (.of_eq rfl rfl rfl)
    exact hmoved.acceptQueued address .statusCommand
  | disconnect => exact h.disconnect
  | executeCommand cmd address =>
    change (s.executeCommand cmd address).Scripted
    unfold Engine.executeCommand
    split
    · exact h.notes (notes_emit rfl)
    · exact h.submit address _
  | executeCommandWithData cmd address data => exact h.submit address _
  | executeGroupCommand cmd mask data => exact h.executeGroupCommand cmd mask data
  | sendFU mode address period fuData =>
    cases mode <;> exact h.sendPacketInternal (requestKey?_createFURequest ..)
  | sendDataPackets packets => exact h.sendDataPackets packets
  | setBridgeAddress ip port => exact h.notes (.of_eq rfl rfl rfl)
  | clearCommandQueue address => exact h.clearCommandQueue address
  | setCurrentVolumeData payload marker totalSize data => exact h.notes (.of_eq rfl rfl rfl)
  | setCurrentVersion version => exact h.notes (.of_eq rfl rfl rfl)
  | datagram data => exact h.writes (writes_onDataReceived data)
  | timeout address => exact h.writes (writes_onOperationTimeout address)
  | networkError error => exact h.notes (notes_emit rfl)
  | queueTick order => exact h.processCommandQueue order
  | posted index order => exact h.runPosted index order

end Scripted

theorem scripted {guard : Engine → Event → Prop} {s : Engine} (h : Reachable guard s) :
    s.Scripted := by
  refine Machine.Reach.invariant ?_ ?_ h
  · rintro s ⟨udpClient, statics, rfl⟩
    refine ⟨.nil, ?_⟩
    intro address request hmem
    cases hmem
  · rintro s e s' hs - ⟨-, rfl⟩
    exact hs.handle e

/-- **What is asked is what has been started.** The history of every run has the form of a
transcript. So a request goes out at most as often as an operation of that command has been started
at that address, or a group of it with that mask; and where there is a transport, just as often,
unless it is a VOLUME, which needs an image. -/
theorem requests_asked {guard : Engine → Event → Prop} {s : Engine} (h : Reachable guard s) :
    Transcript s.udpClient.isSome s.log ∧
      (∀ key, (requestsSent s.log).count key ≤ (requestsDue s.log).count key) ∧
      (s.udpClient.isSome = true → ∀ key : RequestKey, key.2 ≠ TechCommand.volume.code →
        (requestsSent s.log).count key = (requestsDue s.log).count key) := by
  have hlog := (scripted h).log
  exact ⟨hlog, hlog.accounted.atMost, hlog.accounted.all⟩

/-- A VERS at address 1, over a transport that takes it. -/
def versSent : Engine := (init (some fun _ => ⟨8, []⟩) {}).handle (.executeCommand .vers 1)

theorem requests_asked_vers : (requestsSent versSent.log).count (1, TechCommand.vers.code) = 1 := by
  have hstart : Reachable AnyStep (init (some fun _ => ⟨8, []⟩) {}) := .start ⟨_, {}, rfl⟩
  have hreach : Reachable AnyStep versSent :=
    @Machine.Reach.step _ _ machine _ _ _ (.executeCommand .vers 1) hstart trivial ⟨trivial, rfl⟩
  have hcount := (requests_asked hreach).2.2 rfl (1, TechCommand.vers.code) (by decide)
  rw [hcount]
  decide

end Engine

end PPB
