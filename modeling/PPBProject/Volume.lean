import PPBProject.Conduct
import PPBProject.Steps

/- VOLUME in the engine. A VOLUME takes its payload from a slot that everybody shares, is sent
   at once and is complete when UDP has taken it. Everything else the engine does is plain:
   it neither hands a VOLUME to UDP, nor reports one, nor touches the slot. -/
namespace PPB

/-! What is plain. -/

/-- The datagram is a VOLUME request. -/
def isVolumeRequest : Bytes → Bool
  | _ :: _ :: command :: sign :: _ => command = TechCommand.volume.code ∧ sign = Sign.tu.code
  | _ => false

/-- A VOLUME handed to UDP. -/
def Output.volumeDatagram? : Output → Option Bytes
  | datagramSent _ packet => if isVolumeRequest packet then some packet else none
  | _ => none

/-- The report on a VOLUME. -/
def Output.volumeReport? : Output → Option Bool
  | commandCompleted op success _ => if op.command = .volume then some success else none
  | _ => none

structure Output.IsPlain (o : Output) : Prop where
  datagram : o.volumeDatagram? = none
  report : o.volumeReport? = none

/-- The slot. -/
def Statics.image (st : Statics) : Bytes × UInt8 × UInt16 × UInt32 × Bool :=
  (st.volumePayload, st.volumeMarker, st.volumeTotalSize, st.volumeCrc, st.volumeUseCustomData)

theorem isVolumeRequest_base (address : UInt16) (command : UInt8) (sign : Sign) (period : UInt8)
    (fuData : UInt8 × UInt8 × UInt8) (payload : Bytes) :
    isVolumeRequest (createBaseRequest address command sign period fuData ++ payload) =
      decide (command = TechCommand.volume.code ∧ sign.code = Sign.tu.code) := rfl

/-- No other TU command has the code of VOLUME. -/
theorem code_ne_volume {cmd : TechCommand} (h : cmd ≠ .volume) :
    cmd.code ≠ TechCommand.volume.code := by
  cases cmd <;> first | decide | exact absurd rfl h

theorem isVolumeRequest_other {cmd : TechCommand} (h : cmd ≠ .volume) (address : UInt16)
    (sign : Sign) (period : UInt8) (fuData : UInt8 × UInt8 × UInt8) (payload : Bytes) :
    isVolumeRequest (createBaseRequest address cmd.code sign period fuData ++ payload) = false := by
  rw [isVolumeRequest_base]
  simp [code_ne_volume h]

theorem isVolumeRequest_buildRequest {command : PPBCommand} (h : command.commandId ≠ .volume)
    (st : Statics) (address : UInt16) :
    isVolumeRequest (command.buildRequest st address) = false := by
  cases command with
  | volumeCommand => exact absurd rfl h
  | cleanCommand =>
    have hother := @isVolumeRequest_other .clean (by decide) address .tu
    simp only [PPBCommand.buildRequest, PPBCommand.buildCleanRequest]
    split
    · exact hother _ _ _
    · exact hother 0 (0, 0, 0) []
  | prbsM2SCommand => exact @isVolumeRequest_other .prbsM2S (by decide) ..
  | dataCommand cmd data => exact isVolumeRequest_other h ..
  | _ => rfl

theorem isPlain_datagram {destination : Destination} {packet : Bytes}
    (h : isVolumeRequest packet = false) : (Output.datagramSent destination packet).IsPlain :=
  ⟨by simp [Output.volumeDatagram?, h], rfl⟩

theorem isPlain_of_isHousekeeping {o : Output} (h : o.isHousekeeping = true) : o.IsPlain := by
  cases o <;> first | exact ⟨rfl, rfl⟩ | cases h

/-- Everything but VOLUME. -/
def plain : Policy where
  admits command := command.commandId ≠ .volume
  logs o := o.IsPlain
  keeps st st' := st'.image = st.image
  housekeeping _ := isPlain_of_isHousekeeping
  operation command op o hadmits hcommand hoperation := by
    refine ⟨?_, ?_⟩
    · cases o <;> first | rfl | cases hoperation
    · cases o with
      | commandCompleted op' =>
        obtain rfl : op' = op := Option.some.inj hoperation
        exact if_neg (hcommand ▸ hadmits)
      | _ => rfl
  request _ st address _ hadmits := isPlain_datagram (isVolumeRequest_buildRequest hadmits st address)
  group cmd command mask data _ hcreate hadmits := by
    apply isPlain_datagram
    have hcmd : cmd ≠ .volume := commandId_of_create hcreate ▸ hadmits
    unfold groupRequest
    split
    · exact isVolumeRequest_other hcmd mask .tu 0 (0, 0, 0) []
    · exact isVolumeRequest_other hcmd ..
  refl _ := rfl
  trans _ _ _ h h' := h'.trans h
  version _ := rfl
  image _ _ hadmits hvolume := absurd hvolume hadmits

/-- What does not ask for a VOLUME is plain. -/
theorem plain_allows {e : Event} (h : e.isVolume = false) : plain.allows e := by
  have hcreated {cmd : TechCommand} (hcmd : cmd ≠ .volume) (command : PPBCommand)
      (hcreate : create cmd = some command) : command.commandId ≠ .volume :=
    (commandId_of_create hcreate).symm ▸ hcmd
  cases e with
  | executeCommand cmd address => exact hcreated (by simpa [Event.isVolume] using h)
  | executeCommandWithData cmd address data =>
    show cmd ≠ .volume
    simpa [Event.isVolume] using h
  | executeGroupCommand cmd mask data => exact hcreated (by simpa [Event.isVolume] using h)
  | sendFU mode address period fuData =>
    intro destination
    apply isPlain_datagram
    have hbase := isVolumeRequest_base address mode.code .fu period (fuData.getD (0, 0, 0)) []
    rw [List.append_nil] at hbase
    rw [createFURequest, hbase]
    simp [Sign.code]
  | sendDataPackets packets => exact ⟨⟨rfl, rfl⟩, fun _ _ _ => ⟨rfl, rfl⟩⟩
  | setCurrentVolumeData => cases h
  | connectToPPB => exact TechCommand.noConfusion
  | setCurrentVersion version => exact fun _ => rfl
  | _ => trivial

namespace Engine

section
variable {s t u : Engine} {address : UInt16} {request : Request}

/-! A VOLUME is opened. -/

/-- Only a state or the busy flag changes, and is announced. -/
structure Announces (s t : Engine) : Prop where
  contexts : t.contexts = s.contexts
  waiting : t.pendingGroupCommands = s.pendingGroupCommands
  statics : t.statics = s.statics
  queues : t.queues = s.queues
  log : Machine.Extends Output.IsPlain s.log t.log

theorem Announces.refl (s : Engine) : Announces s s := ⟨rfl, rfl, rfl, rfl, .refl _⟩

theorem Announces.trans (h : Announces s t) (h' : Announces t u) : Announces s u :=
  ⟨h'.contexts.trans h.contexts, h'.waiting.trans h.waiting, h'.statics.trans h.statics,
    h'.queues.trans h.queues, h.log.trans h'.log⟩

theorem announces_emit {o : Output} (h : o.IsPlain) : Announces s (s.emit o) :=
  ⟨rfl, rfl, rfl, rfl, s.extends_log_emit h⟩

theorem announces_updateBusyState : Announces s s.updateBusyState := by
  unfold updateBusyState
  split
  · have hset : Announces s { s with busy := s.anyInFlight } := ⟨rfl, rfl, rfl, rfl, .refl _⟩
    exact hset.trans (announces_emit ⟨rfl, rfl⟩)
  · exact .refl s

theorem announces_transitionState_sending :
    Announces s (s.transitionState address .sendingCommand) := by
  unfold transitionState
  split
  · exact .refl s
  · have hset : Announces s { s with states := s.states.insert address .sendingCommand } :=
      ⟨rfl, rfl, rfl, rfl, .refl _⟩
    dsimp only
    split
    · exact hset.trans (announces_emit ⟨rfl, rfl⟩)
    · exact hset

/-- `t` is `s` with the command of `request` in flight at `address`. -/
structure Opened (s : Engine) (address : UInt16) (request : Request) (t : Engine) : Prop where
  flight : ∃ c, t.InFlight address c request
  elsewhere : ∀ a, a ≠ address → t.findContext a = s.findContext a
  waiting : t.pendingGroupCommands = s.pendingGroupCommands
  statics : t.statics = s.statics
  queues : t.queues = s.queues
  log : Machine.Extends Output.IsPlain s.log t.log

theorem Opened.announces (h : Opened s address request t) (h' : Announces t u) :
    Opened s address request u := by
  have hfind : u.findContext = t.findContext := by
    funext a
    rw [findContext, findContext, h'.contexts]
  obtain ⟨c, hflight⟩ := h.flight
  refine ⟨⟨c, hfind ▸ hflight.found, hflight.uncompleted, hflight.command⟩, ?_,
    h'.waiting.trans h.waiting, h'.statics.trans h.statics, h'.queues.trans h.queues,
    h.log.trans h'.log⟩
  intro a hne
  rw [hfind]
  exact h.elsewhere a hne

theorem opened_openOperation (s : Engine) (address : UInt16) (request : Request)
    (suppressSend : Bool) :
    Opened s address request (s.openOperation address request suppressSend) := by
  have hset : Opened s address request (s.setContext address
      (((s.findContext address).getD {}).reset request suppressSend)) := by
    refine ⟨⟨((s.findContext address).getD {}).reset request suppressSend, ?_, rfl, rfl⟩, ?_, rfl,
      rfl, rfl, .refl _⟩
    · rw [findContext_setContext]
      exact Function.update_self ..
    · intro a hne
      rw [findContext_setContext]
      exact Function.update_of_ne hne ..
  have hstarted := hset.announces (@announces_emit _
    (.started (request.operation address) s.groupsOutstanding) ⟨rfl, rfl⟩)
  exact (hstarted.announces (@announces_transitionState_sending _ address)).announces
    announces_updateBusyState

/-! A VOLUME is completed. -/

theorem filterMap_of_isPlain {os : List Output} (h : ∀ o ∈ os, o.IsPlain) :
    os.filterMap Output.volumeReport? = [] ∧ os.filterMap Output.volumeDatagram? = [] :=
  ⟨List.filterMap_eq_nil_iff.mpr fun o ho => (h o ho).report,
    List.filterMap_eq_nil_iff.mpr fun o ho => (h o ho).datagram⟩

/-- A VOLUME that was in flight in `u` has been reported, and nothing else was done about one. -/
structure Concluded (u : Engine) (success : Bool) (t : Engine) : Prop where
  log : ∃ new, t.log = u.log ++ new ∧ new.filterMap Output.volumeReport? = [success] ∧
    new.filterMap Output.volumeDatagram? = []
  image : t.statics.image = u.statics.image
  queues : t.queues = u.queues
  admits : t.Admits plain

/-- `u` is `s` with a VOLUME in flight at `address`. -/
theorem concluded_completeOperation {c : PPBContext} (hadmits : s.Admits plain)
    (hflight : u.InFlight address c request)
    (helsewhere : ∀ a, a ≠ address → u.findContext a = s.findContext a)
    (hwaiting : u.pendingGroupCommands = s.pendingGroupCommands)
    (hvolume : request.command.commandId = .volume) (success : Bool) (message : String) :
    Concluded u success (u.completeOperation address success message) := by
  obtain ⟨data, hreport, hdata⟩ :=
    reportOf_eq_cons (request.operation address) c success message
  -- with its context marked completed, nothing beyond the policy is in flight
  have hdone : (u.setContext address
      { c with operationCompleted := true, operationTimer := none }).Admits plain := by
    refine ⟨?_, fun pending hmem => hadmits.waiting pending (hwaiting ▸ hmem)⟩
    intro a c' other ⟨hfind, hopen, hcommand⟩
    rw [findContext_setContext] at hfind
    obtain rfl | hne := eq_or_ne a address
    · rw [Function.update_self] at hfind
      obtain rfl := Option.some.inj hfind
      cases hopen
    · rw [Function.update_of_ne hne, helsewhere a hne] at hfind
      exact hadmits.flight a c' other ⟨hfind, hopen, hcommand⟩
  let reported := (u.setContext address
    { c with operationCompleted := true, operationTimer := none }).emitAll
      (reportOf (request.operation address) c success message)
  have hreported : reported.Admits plain := hdone.congr rfl rfl
  have hclosed := @abides_afterReport plain reported address hreported success
    (if success then .ready else .idle)
  have htried := hclosed.trans (abides_tryStartPendingGroupCommands _ hclosed.admits)
  have hend : Abides plain reported (u.completeOperation address success message) := by
    unfold completeOperation completeOperationWith
    rw [hflight.found]
    dsimp only
    rw [hflight.uncompleted, hflight.command, if_neg Bool.false_ne_true]
    dsimp only
    split
    · exact htried.trans (abides_post htried.admits _)
    · exact htried
  obtain ⟨new, hlog, hnew⟩ := hend.log
  have hplain : ∀ o ∈ data ++ new, o.IsPlain := by
    intro o ho
    obtain ho | ho := List.mem_append.mp ho
    · obtain ⟨parsed, rfl⟩ | ⟨mask, packets, rfl⟩ := hdata o ho <;> exact ⟨rfl, rfl⟩
    · exact hnew o ho
  obtain ⟨hreports, hdatagrams⟩ := filterMap_of_isPlain hplain
  have hown : (Output.commandCompleted (request.operation address) success
      (finalMessage c message)).volumeReport? = some success := if_pos hvolume
  refine ⟨⟨.commandCompleted (request.operation address) success (finalMessage c message) ::
    (data ++ new), ?_, ?_, ?_⟩, hend.statics, hend.queues, hend.admits⟩
  · rw [hlog]
    show u.log ++ reportOf (request.operation address) c success message ++ new = _
    rw [hreport, List.append_assoc]
    rfl
  · rw [List.filterMap_cons_some hown, hreports]
  · rw [List.filterMap_cons_none rfl, hdatagrams]

/-! What becomes of the slot. -/

theorem volumeUseCustomData_congr {st st' : Statics} (h : st'.image = st.image) :
    st'.volumeUseCustomData = st.volumeUseCustomData :=
  congrArg (fun image => image.2.2.2.2) h

/-- The request is read from the slot. -/
theorem buildVolumeRequest_congr {st st' : Statics} (h : st'.image = st.image) (address : UInt16) :
    PPBCommand.buildVolumeRequest st' address = PPBCommand.buildVolumeRequest st address := by
  simp only [Statics.image, Prod.mk.injEq] at h
  obtain ⟨hpayload, hmarker, htotal, hcrc, hready⟩ := h
  unfold PPBCommand.buildVolumeRequest
  rw [hpayload, hmarker, htotal, hcrc, hready]

/-- From `s` to `t` the slot was left alone, and no VOLUME was reported on; or it was emptied, and
its image lost or handed to UDP, at whatever address. A VOLUME is reported successful only after
it has been handed over. -/
inductive Delivery (s t : Engine) : Prop where
  | kept (new : List Output) : t.log = s.log ++ new → t.statics.image = s.statics.image →
    new.filterMap Output.volumeDatagram? = [] → new.filterMap Output.volumeReport? = [] →
    Delivery s t
  | lost (new : List Output) : t.log = s.log ++ new → t.statics.volumeUseCustomData = false →
    new.filterMap Output.volumeDatagram? = [] → true ∉ new.filterMap Output.volumeReport? →
    Delivery s t
  | sent (new : List Output) (address : UInt16) : t.log = s.log ++ new →
    s.statics.volumeUseCustomData = true → t.statics.volumeUseCustomData = false →
    new.filterMap Output.volumeDatagram? = [PPBCommand.buildVolumeRequest s.statics address] →
    Delivery s t

theorem delivery_of_plain (hlog : Machine.Extends Output.IsPlain s.log t.log)
    (himage : t.statics.image = s.statics.image) : Delivery s t := by
  obtain ⟨new, hlog, hnew⟩ := hlog
  obtain ⟨hreports, hdatagrams⟩ := filterMap_of_isPlain hnew
  exact .kept new hlog himage hdatagrams hreports

theorem Delivery.refl (s : Engine) : Delivery s s := delivery_of_plain (.refl _) rfl

theorem Delivery.trans (h : Delivery s t) (h' : Delivery t u) : Delivery s u := by
  cases h with
  | kept new hlog himage hdatagrams hreports =>
    have happend {new' : List Output} (hlog' : u.log = t.log ++ new') :
        u.log = s.log ++ (new ++ new') := by rw [hlog', hlog, List.append_assoc]
    cases h' with
    | kept new' hlog' himage' hdatagrams' hreports' =>
      refine .kept (new ++ new') (happend hlog') (himage'.trans himage) ?_ ?_
      · rw [List.filterMap_append, hdatagrams, hdatagrams', List.append_nil]
      · rw [List.filterMap_append, hreports, hreports', List.append_nil]
    | lost new' hlog' hempty hdatagrams' hreports' =>
      refine .lost (new ++ new') (happend hlog') hempty ?_ ?_
      · rw [List.filterMap_append, hdatagrams, hdatagrams', List.append_nil]
      · rwa [List.filterMap_append, hreports, List.nil_append]
    | sent new' address hlog' hfull hempty hdatagrams' =>
      refine .sent (new ++ new') address (happend hlog')
        (volumeUseCustomData_congr himage ▸ hfull) hempty ?_
      rw [List.filterMap_append, hdatagrams, hdatagrams', List.nil_append,
        buildVolumeRequest_congr himage]
  | lost new hlog hempty hdatagrams hreports =>
    have hlost {new' : List Output} (hlog' : u.log = t.log ++ new')
        (hempty' : u.statics.volumeUseCustomData = false)
        (hdatagrams' : new'.filterMap Output.volumeDatagram? = [])
        (hreports' : true ∉ new'.filterMap Output.volumeReport?) : Delivery s u := by
      refine .lost (new ++ new') (by rw [hlog', hlog, List.append_assoc]) hempty' ?_ ?_
      · rw [List.filterMap_append, hdatagrams, hdatagrams', List.append_nil]
      · rw [List.filterMap_append, List.mem_append, not_or]
        exact ⟨hreports, hreports'⟩
    cases h' with
    | kept new' hlog' himage' hdatagrams' hreports' =>
      exact hlost hlog' ((volumeUseCustomData_congr himage').trans hempty) hdatagrams'
        (by simp [hreports'])
    | lost new' hlog' hempty' hdatagrams' hreports' =>
      exact hlost hlog' hempty' hdatagrams' hreports'
    | sent new' address hlog' hfull' =>
      rw [hempty] at hfull'
      cases hfull'
  | sent new address hlog hfull hempty hdatagrams =>
    have hsent {new' : List Output} (hlog' : u.log = t.log ++ new')
        (hempty' : u.statics.volumeUseCustomData = false)
        (hdatagrams' : new'.filterMap Output.volumeDatagram? = []) : Delivery s u := by
      refine .sent (new ++ new') address (by rw [hlog', hlog, List.append_assoc]) hfull hempty' ?_
      rw [List.filterMap_append, hdatagrams, hdatagrams', List.append_nil]
    cases h' with
    | kept new' hlog' himage' hdatagrams' =>
      exact hsent hlog' ((volumeUseCustomData_congr himage').trans hempty) hdatagrams'
    | lost new' hlog' hempty' hdatagrams' => exact hsent hlog' hempty' hdatagrams'
    | sent new' address' hlog' hfull' =>
      rw [hempty] at hfull'
      cases hfull'

/-- An empty slot stays empty. -/
theorem Delivery.emptied (h : Delivery s t) (hempty : s.statics.volumeUseCustomData = false) :
    t.statics.volumeUseCustomData = false := by
  cases h with
  | kept new hlog himage => exact (volumeUseCustomData_congr himage).trans hempty
  | lost new hlog hempty' => exact hempty'
  | sent new address hlog hfull hempty' => exact hempty'

theorem Delivery.log (h : Delivery s t) : ∃ new, t.log = s.log ++ new := by
  cases h with
  | kept new hlog | lost new hlog | sent new address hlog => exact ⟨new, hlog⟩

/-! A VOLUME is executed. -/

/-- The request in the slot is one of those that are counted. -/
theorem isVolumeRequest_buildVolumeRequest {st : Statics} (h : st.volumeUseCustomData = true)
    (address : UInt16) : isVolumeRequest (PPBCommand.buildVolumeRequest st address) = true := by
  unfold PPBCommand.buildVolumeRequest
  rw [if_neg (by simp [h])]
  rfl

/-- A failure that hands nothing over, with the slot empty. -/
theorem Concluded.delivery (h : Concluded u false t)
    (hempty : u.statics.volumeUseCustomData = false) :
    Delivery u t ∧ t.queues = u.queues ∧ t.Admits plain := by
  obtain ⟨new, hlog, hreports, hdatagrams⟩ := h.log
  refine ⟨.lost new hlog ?_ hdatagrams (by simp [hreports]), h.queues, h.admits⟩
  exact (volumeUseCustomData_congr h.image).trans hempty

/-- Whatever UDP says about it, the packet has been handed over. -/
theorem delivery_sendVolume (hadmits : s.Admits plain) (hopened : Opened s address request u)
    (hvolume : request.command.commandId = .volume) (hfull : u.statics.volumeUseCustomData = true)
    {packet : Bytes} (hpacket : packet = PPBCommand.buildVolumeRequest u.statics address)
    (ht : t = sendVolume tryStartPendingGroupCommands u address packet) :
    Delivery u t ∧ t.queues = u.queues ∧ t.Admits plain := by
  obtain ⟨c, hflight⟩ := hopened.flight
  have hdone (sent : Engine) (hcontexts : sent.contexts = u.contexts)
      (hwaiting : sent.pendingGroupCommands = u.pendingGroupCommands) (success : Bool)
      (message : String) :
      Concluded sent success (sent.completeOperation address success message) := by
    have hfind : sent.findContext = u.findContext := by
      funext a
      rw [findContext, findContext, hcontexts]
    refine concluded_completeOperation hadmits
      ⟨hfind ▸ hflight.found, hflight.uncompleted, hflight.command⟩ ?_
      (hwaiting.trans hopened.waiting) hvolume success message
    rw [hfind]
    exact hopened.elsewhere
  subst ht
  unfold sendVolume
  split
  next =>
    have hlost : Delivery u { u with statics := u.statics.clearCurrentVolumeData } :=
      .lost [] (List.append_nil _).symm rfl rfl (by simp)
    obtain ⟨hdelivery, hqueues, hend⟩ := (hdone
      { u with statics := u.statics.clearCurrentVolumeData } rfl rfl false
      "VOLUME: UDPClient не инициализирован").delivery rfl
    exact ⟨hlost.trans hdelivery, hqueues, hend⟩
  next client hclient =>
    obtain ⟨destination, errors, hhanded⟩ := u.log_handToUdp client packet
    have hown : (Output.datagramSent destination packet).volumeDatagram? = some packet := by
      rw [hpacket]
      exact if_pos (isVolumeRequest_buildVolumeRequest hfull address)
    have herrors : (errors.map Output.errorOccurred).filterMap Output.volumeDatagram? = [] := by
      simp [Output.volumeDatagram?]
    let handed : Engine := { (u.handToUdp client packet).1 with
      statics := (u.handToUdp client packet).1.statics.clearCurrentVolumeData }
    have hsent {success : Bool} {t : Engine} (h : Concluded handed success t) :
        Delivery u t ∧ t.queues = u.queues ∧ t.Admits plain := by
      obtain ⟨new, hlog, -, hdatagrams⟩ := h.log
      refine ⟨.sent (.datagramSent destination packet :: (errors.map .errorOccurred ++ new))
        address ?_ hfull (volumeUseCustomData_congr h.image) ?_, h.queues, h.admits⟩
      · rw [hlog]
        show (u.handToUdp client packet).1.log ++ new = _
        rw [hhanded, List.append_assoc]
        rfl
      · rw [List.filterMap_cons_some hown, List.filterMap_append, herrors, hdatagrams, hpacket]
        rfl
    dsimp only
    split
    · exact hsent (hdone handed rfl rfl false _)
    · exact hsent (hdone handed rfl rfl true _)

/-- **A VOLUME that is executed** hands over what is in the slot, and is over. -/
theorem delivery_executeCommandImmediately (hadmits : s.Admits plain)
    (hcommand : request.command = .volumeCommand) (hfree : s.isSending address = false)
    (ht : t = s.executeCommandImmediately address request false) :
    Delivery s t ∧ t.queues = s.queues ∧ t.Admits plain := by
  have hopened := opened_openOperation s address request false
  obtain ⟨c, hflight⟩ := hopened.flight
  have hvolume : request.command.commandId = .volume := by rw [hcommand]; rfl
  have hbegun : Delivery s (s.openOperation address request false) :=
    delivery_of_plain hopened.log (by rw [hopened.statics])
  have hpacket : request.command.buildRequest (s.openOperation address request false).statics
      address = PPBCommand.buildVolumeRequest (s.openOperation address request false).statics
        address := by
    rw [hcommand]
    rfl
  suffices hend : Delivery (s.openOperation address request false) t ∧
      t.queues = (s.openOperation address request false).queues ∧ t.Admits plain from
    ⟨hbegun.trans hend.1, hend.2.1.trans hopened.queues, hend.2.2⟩
  unfold executeCommandImmediately executeCommandImmediatelyWith at ht
  rw [if_neg (by simp [hfree])] at ht
  dsimp only at ht
  split at ht
  next hnothing =>
    -- there was no image to send
    subst ht
    refine (concluded_completeOperation hadmits hflight hopened.elsewhere hopened.waiting hvolume
      false _).delivery ?_
    exact ((PPBCommand.buildRequest_eq_nil_iff _ _ _).mp hnothing).2
  next hsome =>
    have hfull : (s.openOperation address request false).statics.volumeUseCustomData = true := by
      rw [PPBCommand.buildRequest_eq_nil_iff, not_and, Bool.not_eq_false] at hsome
      exact hsome hcommand
    rw [if_pos Bool.not_false] at ht
    exact delivery_sendVolume hadmits hopened hvolume hfull hpacket ht

/-! VOLUMEs that wait. -/

/-- Plain commands are held, and VOLUMEs that wait. -/
structure Held (s : Engine) : Prop where
  admits : s.Admits plain
  queued : s.Queued fun _ request =>
    plain.admits request.command ∨ request.command = .volumeCommand

theorem held_init (udpClient : Option UdpClient) (statics : Statics) :
    (init udpClient statics).Held := by
  refine ⟨⟨?_, by simp [init]⟩, ?_⟩
  · intro address c request hflight
    cases hflight.found
  · intro address request hmem
    cases hmem

/-- What became of the slot since `s`, which still holds no more than that. -/
structure Delivers (s t : Engine) : Prop where
  held : t.Held
  delivery : Delivery s t

/-- Only the queues change. -/
theorem Delivers.requeue (h : Delivers s t) {queues : Table (List Request)}
    (hqueued : ({ t with queues } : Engine).Queued fun _ request =>
      plain.admits request.command ∨ request.command = .volumeCommand) :
    Delivers s { t with queues } :=
  ⟨⟨h.held.admits.congr rfl rfl, hqueued⟩,
    h.delivery.trans (delivery_of_plain (.refl _) rfl)⟩

theorem Delivers.work (h : Delivers s t) (hwork : Abides plain t u) : Delivers s u :=
  ⟨⟨hwork.admits, h.held.queued.congr hwork.queueOf⟩,
    h.delivery.trans (delivery_of_plain hwork.log hwork.statics)⟩

/-- A VOLUME is executed. -/
theorem Delivers.execute (h : Delivers s t) (hcommand : request.command = .volumeCommand)
    (hfree : t.isSending address = false) :
    Delivers s (t.executeCommandImmediately address request false) := by
  obtain ⟨hdelivery, hqueues, hadmits⟩ :=
    delivery_executeCommandImmediately h.held.admits hcommand hfree rfl
  refine ⟨⟨hadmits, h.held.queued.congr ?_⟩, h.delivery.trans hdelivery⟩
  funext a
  rw [queueOf, queueOf, hqueues]

theorem lasting_delivers (s : Engine) : Lasting plain (Delivers s) where
  admits t ht := ht.held.admits
  work t u ht hwork := ht.work hwork
  enqueue t address request ht hadmits := ht.requeue (ht.held.queued.enqueue (.inl hadmits))
  dequeue t address ht hfree := by
    cases hqueue : t.queueOf address with
    | nil => exact (dequeueAndExecute_nil hqueue).symm ▸ ht
    | cons request rest =>
      obtain ⟨queues, hqueues, hstep⟩ := dequeueAndExecute_cons hqueue
      obtain ⟨hheld, hrest⟩ := ht.held.queued.pop hqueue hqueues
      have hpopped : Delivers s { t with queues } := ht.requeue hrest
      rw [hstep]
      obtain hadmits | hcommand := hheld
      · exact hpopped.work (abides_executeCommandImmediately hpopped.held.admits false hadmits)
      · exact hpopped.execute hcommand hfree
  forget t queues ht hqueues := ht.requeue (ht.held.queued.forget hqueues)

end

end Engine

/-- What the controller asks of the engine: anything but VOLUME, or a VOLUME by its name. -/
def Event.IsUsual (e : Event) : Prop :=
  e.isVolume = false ∨ ∃ address, e = .executeCommand .volume address

namespace Engine

/-- **An engine delivers what is in the slot at most once**, whatever it is asked, and reports no
VOLUME before that. -/
theorem delivers_handle {s : Engine} (h : s.Held) {e : Event} (hasked : e.IsUsual) :
    Delivers s (s.handle e) := by
  have hs : Delivers s s := ⟨h, .refl s⟩
  obtain hplain | ⟨address, rfl⟩ := hasked
  · exact (lasting_delivers s).handle hs (plain_allows hplain)
  · have hticket : Delivers s { s with nextTicket := s.nextTicket + 1 } :=
      (lasting_delivers s).of_eq hs rfl rfl rfl rfl rfl rfl
    have haccepted (queued : Bool) : Delivers s
        ({ s with nextTicket := s.nextTicket + 1 }.emit
          (.accepted address (.single s.nextTicket) queued)) :=
      (lasting_delivers s).emit hticket ⟨rfl, rfl⟩
    have hqueued : Delivers s (s.acceptQueued address .volumeCommand) :=
      (haccepted true).requeue ((haccepted true).held.queued.enqueue (.inr rfl))
    show Delivers s (s.submit address .volumeCommand)
    unfold submit
    split
    · exact hqueued
    · split
      · exact hqueued
      next hfree =>
        rw [Bool.not_eq_true] at hfree
        exact (haccepted false).execute rfl hfree

end Engine

end PPB
