import PPBProject.Conduct
import PPBProject.Lib.Register
import PPBProject.Steps

/- The PRBS test, from the engine to the analyzer. The commands hand the packets they have sent
   and received to their host; the slots of the controller and the analyzer at the other end
   know what to do with them. But `CommandHost` drops what it is handed, so that the engine
   announces no packets but those of `sendDataPackets`, and the controller goes on with
   whatever it held before. -/
namespace PPB

/-! The test as it is meant. -/

/-- The bytes that a PRBS_M2S request carries behind its header. -/
def transmitted (address : UInt16) : Bytes :=
  (PPBCommand.prbsM2SCommand.buildRequest {} address).drop 8

/-- The controller holds what was sent and received, and analyses it. -/
structure PPBController.Intact (c : PPBController) (sent received : Bytes) : Prop where
  lastSentPackets : c.lastSentPackets = extractDataPackets sent
  lastReceivedPackets : c.lastReceivedPackets = extractDataPackets received
  analysis : ∃ result, c.analyzeLastPackets = some result ∧
    result.totalSent = testPacketCount ∧ result.totalReceived = testPacketCount ∧
    result.lostPackets = 0 ∧ result.bitErrors = hammingDistance sent received

/-- `data` is the reply `event` to the command in flight at `address`, and completes it with
success. -/
structure Engine.Succeeds (s : Engine) (address : UInt16) (command : PPBCommand) (data : Bytes)
    (event : ProtocolEvent) : Prop where
  addressed : addressFromPacket data = address
  parsed : parseTUResponse data = some event
  completed : ∃ request report, s.commandInFlight address = some request ∧
    request.command = command ∧ .commandCompleted (request.operation address) true report ∈
      (s.onDataReceived data).log.drop s.log.length

/-- PRBS_M2S is acknowledged; some time later PRBS_S2M is answered with the payload. -/
def TestRun (address : UInt16) (payload : Bytes) (s : Engine) (events : List Event) : Prop :=
  ∃ ack acked between middle response answered,
    events = .datagram ack :: (between ++ [.datagram response]) ∧
    s.Succeeds address .prbsM2SCommand ack acked ∧ acked.type = .ok ∧
    s.run (.datagram ack :: between) = some middle ∧
    middle.Succeeds address .prbsS2MCommand response answered ∧ answered.type = .data ∧
    answered.payload = payload

theorem transmitted_eq (address : UInt16) :
    transmitted address = buildPayloadFromPackets generateTestPackets := by
  rw [transmitted, PPBCommand.buildRequest, createTURequestWithData]
  exact List.drop_left' (createBaseRequest_length ..)

theorem length_transmitted (address : UInt16) : (transmitted address).length = 1024 := by
  rw [transmitted_eq, length_buildPayloadFromPackets]
  simp [generateTestPackets, testPacketCount]

theorem PPBController.intact_iff {c : PPBController} {sent received : Bytes}
    (hsent : sent.length = 1024) (hreceived : received.length = 1024) :
    c.Intact sent received ↔ c.lastSentPackets = extractDataPackets sent ∧
      c.lastReceivedPackets = extractDataPackets received ∧ c.packetAnalyzer.isSome := by
  constructor
  · intro h
    refine ⟨h.lastSentPackets, h.lastReceivedPackets, ?_⟩
    obtain ⟨result, hresult, -⟩ := h.analysis
    obtain ⟨analyzer, hanalyzer, -⟩ := Option.map_eq_some_iff.mp hresult
    simp [hanalyzer]
  · intro ⟨hlastSent, hlastReceived, hanalyzer⟩
    obtain ⟨analyzer, hanalyzer⟩ := Option.isSome_iff_exists.mp hanalyzer
    refine ⟨hlastSent, hlastReceived, _, by rw [analyzeLastPackets, hanalyzer]; rfl, ?_⟩
    have hlength : (extractDataPackets sent).length = testPacketCount := by
      rw [length_extractDataPackets, hsent]
      rfl
    have hsame : (extractDataPackets sent).length = (extractDataPackets received).length := by
      rw [length_extractDataPackets, length_extractDataPackets, hsent, hreceived]
    rw [hlastSent, hlastReceived]
    obtain ⟨htotalSent, htotalReceived, hlost, herrors⟩ := @PacketAnalyzer.analyze_of_length_eq
      ((({} : PacketAnalyzer).addSentPackets (extractDataPackets sent)).addReceivedPackets
        (extractDataPackets received)) hsame
    refine ⟨htotalSent.trans hlength, htotalReceived.trans hlength, hlost, herrors.trans ?_⟩
    exact PacketAnalyzer.sum_countBitErrors (hsent.trans hreceived.symm) (by rw [hsent])

/-! What the engine announces. -/

/-- The packets a request saves as sent. -/
def Event.sentPackets? : Event → Option (List DataPacket)
  | .sendDataPackets packets => some packets
  | _ => none

def Output.sentPackets? : Output → Option (List DataPacket)
  | sentPacketsSaved packets => some packets
  | _ => none

def Signal.sentPackets? : Signal → Option (List DataPacket)
  | sentPacketsSaved packets => some packets
  | _ => none

/-- Anything may be asked, but no packets are announced. -/
def silence : Policy where
  admits _ := True
  logs o := o.sentPackets? = none
  keeps _ _ := True
  housekeeping o h := by
    cases o with
    | sentPacketsSaved => cases h
    | _ => rfl
  operation _ _ o _ _ h := by
    cases o with
    | sentPacketsSaved => cases h
    | _ => rfl
  request _ _ _ _ _ := rfl
  group _ _ _ _ _ _ _ := rfl
  refl _ := trivial
  trans _ _ _ _ _ := trivial
  version _ := trivial
  image _ _ _ _ := trivial

namespace Engine

theorem free_silence (s : Engine) : s.Free silence :=
  ⟨⟨fun _ _ _ _ => trivial, fun _ _ _ _ => trivial⟩, fun _ _ _ => trivial⟩

/-- Only `sendDataPackets` announces packets, and no others than its own. -/
theorem sentPackets_handle (s : Engine) (e : Event) :
    ∃ new, (s.handle e).log = s.log ++ new ∧
      new.filterMap Output.sentPackets? = e.sentPackets?.toList := by
  have hquiet {t : Engine}
      (h : Machine.Extends (fun o => o.sentPackets? = none) s.log t.log) :
      ∃ new, t.log = s.log ++ new ∧ new.filterMap Output.sentPackets? = [] := by
    obtain ⟨new, hlog, hnew⟩ := h
    exact ⟨new, hlog, List.filterMap_eq_nil_iff.mpr hnew⟩
  have hallowed (hallows : silence.allows e) : ∃ new, (s.handle e).log = s.log ++ new ∧
      new.filterMap Output.sentPackets? = [] :=
    hquiet (conducted_handle (free_silence s) hallows).log
  cases e with
  | sendDataPackets packets =>
    have hpackets := @extends_log_foldl_sendPacketInternal (fun o => o.sentPackets? = none) s
      packets (fun _ _ _ => rfl) fun _ => rfl
    obtain ⟨new, hlog, hnew⟩ := hquiet hpackets
    refine ⟨new ++ [.sentPacketsSaved packets], ?_, ?_⟩
    · show _ ++ [_] = _
      rw [hlog, List.append_assoc]
    · rw [List.filterMap_append, hnew]
      rfl
  | connectToPPB | executeCommandWithData | setCurrentVolumeData | setCurrentVersion | disconnect
  | setBridgeAddress | clearCommandQueue | datagram | timeout | networkError | queueTick | posted =>
    exact hallowed (by simp [Policy.allows, silence])
  | executeCommand | executeGroupCommand => exact hallowed fun _ _ => trivial
  | sendFU => exact hallowed fun _ => rfl

theorem sentPackets_run {s s' : Engine} {events : List Event} (h : s.run events = some s') :
    ∃ new, s'.log = s.log ++ new ∧
      new.filterMap Output.sentPackets? = events.filterMap Event.sentPackets? := by
  induction events generalizing s with
  | nil =>
    cases h
    exact ⟨[], by simp, rfl⟩
  | cons e rest ih =>
    simp only [run, Option.ite_none_right_eq_some] at h
    obtain ⟨first, hfirst, hsent⟩ := s.sentPackets_handle e
    obtain ⟨new, hnew, hrest⟩ := ih h.2
    refine ⟨first ++ new, by rw [hnew, hfirst, List.append_assoc], ?_⟩
    rw [List.filterMap_append, hsent, hrest, List.filterMap_cons]
    cases e.sentPackets? <;> rfl

theorem signalsOf_sentPackets {s : Engine} {events : List Event} (h : (s.run events).isSome) :
    (s.signalsOf events).filterMap Signal.sentPackets? = events.filterMap Event.sentPackets? := by
  obtain ⟨s', hrun⟩ := Option.isSome_iff_exists.mp h
  obtain ⟨new, hlog, hnew⟩ := sentPackets_run hrun
  have hsignal (o : Output) : o.signal?.bind Signal.sentPackets? = o.sentPackets? := by
    cases o <;> rfl
  rw [signalsOf, hrun]
  simp only [hlog, List.drop_left, List.filterMap_filterMap, hsignal]
  exact hnew

end Engine

/-! What the controller is told. -/

/-- No received packets, and no order to clear. -/
def Signal.isAboutSent : Signal → Bool
  | receivedPacketsSaved _ | clearPacketDataRequested => false
  | _ => true

theorem Engine.isAboutSent_of_mem_signalsOf {s : Engine} {events : List Event} {x : Signal}
    (h : x ∈ s.signalsOf events) : x.isAboutSent = true := by
  unfold signalsOf at h
  split at h
  · obtain ⟨o, -, hsignal⟩ := List.mem_filterMap.mp h
    cases o <;> cases hsignal <;> rfl
  · cases h

def ControllerEvent.delivered? : ControllerEvent → Option Signal
  | .delivered x => some x
  | _ => none

/-- A public call of one of the two slots for packets. -/
def ControllerEvent.saves : ControllerEvent → Bool
  | .called call _ => call.saves
  | _ => false

namespace PPBController

open CommunicationFacade

theorem deliveries_sentPackets (wiring : Wiring) (emitted : List Signal) :
    (deliveries wiring emitted).filterMap Signal.sentPackets? =
      emitted.filterMap Signal.sentPackets? := by
  rw [deliveries_eq, List.filterMap_filter]
  congr 1
  funext x
  cases x <;> rfl

/-- The packets, and whether there is an analyzer. -/
def packets (c : PPBController) : List DataPacket × List DataPacket × Bool :=
  (c.lastSentPackets, c.lastReceivedPackets, c.packetAnalyzer.isSome)

section
variable {codeToVSWR : Nat → UInt16 → FloatBits} {c c' : PPBController}

theorem packets_of_data (h : c'.data = c.data) : c'.packets = c.packets :=
  congrArg (fun d => (d.2.1, d.2.2.1, d.2.2.2.isSome)) h

/-- Editing the settings leaves the packets alone. -/
theorem packets_edit (answers : Answers) {call : PublicCall} (h : call.edits = true) :
    (c.take answers call).packets = c.packets := by
  have hupdate (ppbIndex : UInt8) (change : PpbUserSettings → PpbUserSettings) :
      (c.updateSettings ppbIndex change).packets = c.packets := by
    unfold updateSettings
    split <;> rfl
  cases call with
  | setPowerSetting | setFuBlockedSetting | setRebootRequestedSetting | setResetErrorsSetting
  | setPowerEnabledSetting => exact hupdate _ _
  | resetSettingsToReal ppbIndex =>
    show (c.resetSettingsToReal ppbIndex).packets = c.packets
    unfold resetSettingsToReal
    split
    · exact hupdate _ _
    · rfl
  | _ => cases h

theorem packets_onSignal {x : Signal} (h : x.isAboutSent = true) :
    (c.onSignal codeToVSWR x).packets =
      (x.sentPackets?.getD c.lastSentPackets, c.lastReceivedPackets, c.packetAnalyzer.isSome) := by
  cases x with
  | receivedPacketsSaved | clearPacketDataRequested => cases h
  | sentPacketsSaved packets =>
    simp [onSignal, saveSentPackets, PPBController.packets, Signal.sentPackets?]
  | commandDataParsed address data command =>
    show (c.onCommandDataParsed address data command).packets = _
    unfold onCommandDataParsed
    split <;> rfl
  | _ => rfl

/-- Unless packets are saved by hand, only what is delivered changes them. -/
theorem packets_handle {e : ControllerEvent} (h : c.handle codeToVSWR e = some c')
    (hsaves : e.saves = false) (hsent : ∀ x, e.delivered? = some x → x.isAboutSent = true) :
    c'.packets = ((e.delivered?.bind Signal.sentPackets?).getD c.lastSentPackets,
      c.lastReceivedPackets, c.packetAnalyzer.isSome) := by
  cases e with
  | delivered x =>
    cases h
    exact packets_onSignal (hsent x rfl)
  | called call answers =>
    cases hedits : call.edits with
    | true =>
      cases h
      exact packets_edit answers hedits
    | false =>
      apply packets_of_data
      apply data_handle h
      rw [ControllerEvent.isQuiet, hedits]
      simpa [ControllerEvent.saves] using hsaves
  | _ => exact packets_of_data (data_handle h rfl)

theorem packets_run {slots : List ControllerEvent} (h : c.run codeToVSWR slots = some c')
    (hsaves : ∀ e ∈ slots, e.saves = false)
    (hsent : ∀ x ∈ slots.filterMap ControllerEvent.delivered?, x.isAboutSent = true) :
    c'.packets = ((Register.lastOf Signal.sentPackets?
      (slots.filterMap ControllerEvent.delivered?)).getD c.lastSentPackets, c.lastReceivedPackets,
      c.packetAnalyzer.isSome) := by
  induction slots generalizing c with
  | nil =>
    cases h
    rfl
  | cons e rest ih =>
    obtain ⟨next, hstep, hrest⟩ := Option.bind_eq_some_iff.mp h
    have hfirst := packets_handle hstep (hsaves e (by simp)) fun x hx =>
      hsent x (List.mem_filterMap.mpr ⟨e, by simp, hx⟩)
    have hlater := ih hrest (fun other hmem => hsaves other (by simp [hmem])) fun x hx => by
      obtain ⟨other, hmem, hdelivered⟩ := List.mem_filterMap.mp hx
      exact hsent x (List.mem_filterMap.mpr ⟨other, by simp [hmem], hdelivered⟩)
    simp only [packets, Prod.mk.injEq] at hfirst hlater
    obtain ⟨hlastSent, hlastReceived, hanalyzer⟩ := hfirst
    rw [hlastSent, hlastReceived, hanalyzer] at hlater
    rw [packets, hlater.1, hlater.2.1, hlater.2.2]
    congr 1
    cases hdelivered : e.delivered? with
    | none => simp [hdelivered]
    | some x =>
      rw [List.filterMap_cons_some hdelivered]
      cases hpackets : x.sentPackets? with
      | none => simp [Register.lastOf_cons_of_none hpackets, hpackets]
      | some packets =>
        rw [Register.lastOf_cons_of_some hpackets]
        cases Register.lastOf Signal.sentPackets? (rest.filterMap ControllerEvent.delivered?) <;>
          simp [hpackets]

end

end PPBController

/-! The test as it goes. -/

theorem TestRun.run_isSome {address : UInt16} {payload : Bytes} {s : Engine} {events : List Event}
    (h : TestRun address payload s events) : (s.run events).isSome := by
  obtain ⟨ack, -, between, middle, response, -, rfl, -, -, hrun, -⟩ := h
  have happend (t : Engine) (first : List Event) (ht : t.run first = some middle) :
      (t.run (first ++ [.datagram response])).isSome := by
    induction first generalizing t with
    | nil => simp [Engine.run, Engine.enabled]
    | cons e rest ih =>
      simp only [Engine.run, Option.ite_none_right_eq_some] at ht
      rw [List.cons_append, Engine.run, if_pos ht.1]
      exact ih _ ht.2
  exact happend s (.datagram ack :: between) hrun

namespace PPBController

open CommunicationFacade

section
variable {wiring : Wiring} {codeToVSWR : Nat → UInt16 → FloatBits} {s : Engine}
  {events : List Event} {c c' : PPBController} {slots : List ControllerEvent}

/-- While the engine takes the events and the controller hears of it, whatever else it does, its
packets change by `sendDataPackets` alone. -/
theorem packets_relayed (hrun : (s.run events).isSome) (hslots : c.run codeToVSWR slots = some c')
    (hdelivered : slots.filterMap ControllerEvent.delivered? =
      deliveries wiring (s.signalsOf events)) (hsaves : ∀ e ∈ slots, e.saves = false) :
    c'.packets = ((Register.lastOf Event.sentPackets? events).getD c.lastSentPackets,
      c.lastReceivedPackets, c.packetAnalyzer.isSome) := by
  have hpackets := packets_run hslots hsaves fun x hx => by
    rw [hdelivered, deliveries_eq] at hx
    exact Engine.isAboutSent_of_mem_signalsOf (List.mem_filter.mp hx).1
  rw [hpackets, Register.lastOf, hdelivered, deliveries_sentPackets,
    Engine.signalsOf_sentPackets hrun]
  rfl

/-- **The test tells what the controller knew before.** On either way of wiring: after a PRBS_M2S
that was acknowledged and a PRBS_S2M that was answered, the controller holds what was sent and
received exactly if it held the received packets before, had an analyzer, and the last packets
passed to `sendDataPackets`, or else those it held before, happen to be those of the test. -/
theorem intact_iff_known (address : UInt16) {payload : Bytes} (hpayload : payload.length = 1024)
    (htest : TestRun address payload s events) (hslots : c.run codeToVSWR slots = some c')
    (hdelivered : slots.filterMap ControllerEvent.delivered? =
      deliveries wiring (s.signalsOf events)) (hsaves : ∀ e ∈ slots, e.saves = false) :
    c'.Intact (transmitted address) payload ↔
      (Register.lastOf Event.sentPackets? events).getD c.lastSentPackets =
        extractDataPackets (transmitted address) ∧
      c.lastReceivedPackets = extractDataPackets payload ∧ c.packetAnalyzer.isSome := by
  have hpackets := packets_relayed htest.run_isSome hslots hdelivered hsaves
  simp only [packets, Prod.mk.injEq] at hpackets
  obtain ⟨hlastSent, hlastReceived, hanalyzer⟩ := hpackets
  rw [intact_iff (length_transmitted address) hpayload, hlastSent, hlastReceived, hanalyzer]

end

/-- Slots run one after the other. -/
theorem exists_run_delivered (codeToVSWR : Nat → UInt16 → FloatBits) (c : PPBController)
    (delivered : List Signal) : ∃ c', c.run codeToVSWR (delivered.map .delivered) = some c' := by
  induction delivered generalizing c with
  | nil => exact ⟨c, rfl⟩
  | cons x rest ih => exact ih ((c.emit (.delivered x)).onSignal codeToVSWR x)

/-- A PRBS_M2S in flight at address 1. -/
def sendingTest : Engine :=
  (Engine.init (some fun _ => { bytesSent := 1032 }) {}).handle (.executeCommand .prbsM2S 1)

/-- A payload with no bit set. -/
def zeros : Bytes := List.replicate 1024 0

theorem length_zeros : zeros.length = 1024 := List.length_replicate

/-- It is acknowledged, and PRBS_S2M brings back zeros. -/
def testEvents : List Event :=
  [.datagram [0, 1, 0, 0x0B], .executeCommand .prbsS2M 1, .datagram ([0, 1, 0] ++ zeros)]

theorem testRun_zeros : TestRun 1 zeros sendingTest testEvents := by
  refine ⟨_, _, [.executeCommand .prbsS2M 1], _, _, _, rfl, ⟨rfl, rfl, ?_⟩, rfl, rfl,
    ⟨rfl, rfl, ?_⟩, rfl, rfl⟩
  · exact ⟨{ origin := .single 0, command := .prbsM2SCommand },
      "Тестовая последовательность отправлена (1024 байта)", by decide, rfl, by decide⟩
  · exact ⟨{ origin := .single 1, command := .prbsS2MCommand }, "Получено 512 тестовых пакетов",
      by decide, rfl, by decide +kernel⟩

theorem relayed_map_delivered (delivered : List Signal) :
    (delivered.map ControllerEvent.delivered).filterMap ControllerEvent.delivered? = delivered ∧
      ∀ e ∈ delivered.map ControllerEvent.delivered, e.saves = false := by
  constructor
  · rw [List.filterMap_map]
    exact List.filterMap_some
  · intro e he
    obtain ⟨x, -, rfl⟩ := List.mem_map.mp he
    rfl

/-- A controller that has just been made knows of no packets afterwards. -/
theorem not_intact : ¬ ∀ wiring codeToVSWR address payload s events (c c' : PPBController)
    (slots : List ControllerEvent), address ∈ singleAddresses → payload.length = 1024 → Reachable AnyStep s →
      TestRun address payload s events → c.run codeToVSWR slots = some c' →
      slots.filterMap ControllerEvent.delivered? = deliveries wiring (s.signalsOf events) →
      (∀ e ∈ slots, e.saves = false) → c'.Intact (transmitted address) payload := by
  intro hall
  let c : PPBController := { communication := some 0, packetAnalyzer := some {} }
  let delivered := deliveries .inInitialize (sendingTest.signalsOf testEvents)
  obtain ⟨c', hslots⟩ := exists_run_delivered (fun _ _ => 0) c delivered
  obtain ⟨hdelivered, hsaves⟩ := relayed_map_delivered delivered
  have hreach : Reachable AnyStep sendingTest :=
    .step (e := .executeCommand .prbsM2S 1) (.start ⟨_, {}, rfl⟩) trivial ⟨trivial, rfl⟩
  have hintact := hall .inInitialize (fun _ _ => 0) 1 zeros sendingTest testEvents c c' _
    (by decide) length_zeros hreach testRun_zeros hslots hdelivered hsaves
  have hpackets := packets_relayed testRun_zeros.run_isSome hslots hdelivered hsaves
  -- nothing was announced, so the list is still empty
  have hnone : c'.lastSentPackets = [] := congrArg Prod.fst hpackets
  have hlength := congrArg List.length (hnone.symm.trans hintact.lastSentPackets)
  rw [length_extractDataPackets, length_transmitted] at hlength
  cases hlength

/-- The same test, with a controller that knows the packets from another source. -/
theorem intact_iff_known_zeros : ∃ c' : PPBController, c'.Intact (transmitted 1) zeros := by
  let c : PPBController :=
    { communication := some 0
      packetAnalyzer := some {}
      lastSentPackets := extractDataPackets (transmitted 1)
      lastReceivedPackets := extractDataPackets zeros }
  let delivered := deliveries .inInitialize (sendingTest.signalsOf testEvents)
  obtain ⟨c', hslots⟩ := exists_run_delivered (fun _ _ => 0) c delivered
  obtain ⟨hdelivered, hsaves⟩ := relayed_map_delivered delivered
  have hnone : Register.lastOf Event.sentPackets? testEvents = none := rfl
  refine ⟨c', (intact_iff_known 1 length_zeros testRun_zeros hslots hdelivered hsaves).mpr ?_⟩
  rw [hnone, Option.getD_none]
  refine ⟨?_, ?_, rfl⟩
  · simp only [c]
  · simp only [c]

end PPBController

end PPB
