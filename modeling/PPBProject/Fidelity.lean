import PPBProject.Firmware
import PPBProject.Restore

/- The image on the wire. A stage that sends a VOLUME fills the slot, and is confirmed only by a
   success that is reported after that. The engine reports none before it has handed over what
   is in the slot, and hands nothing over twice. So the VOLUMEs handed over are those of the
   stages that are confirmed, in their order, whoever has asked for them: unless the slot was
   full before the first of them filled it. -/
namespace PPB

/-! What a VOLUME carries. -/

/-- What comes after the address, the command and the sign of a request. -/
structure VolumeFields where
  fuPeriod : UInt8
  fuData : UInt8 × UInt8 × UInt8
  payload : Bytes
  deriving DecidableEq

def volumeFields? : Bytes → Option VolumeFields
  | _ :: _ :: _ :: _ :: fuPeriod :: fu0 :: fu1 :: fu2 :: payload =>
    some { fuPeriod, fuData := (fu0, fu1, fu2), payload }
  | _ => none

/-- The VOLUMEs of an image: the payloads, the first with their number, then the checksum and the
version. -/
def FirmwarePlan.volumes (plan : FirmwarePlan) : List VolumeFields :=
  (plan.payloads.mapIdx fun i payload =>
    if i = 0 then
      { fuPeriod := 1
        fuData := ((plan.totalBlocks / 256).toUInt8, (plan.totalBlocks % 256).toUInt8, 0)
        payload }
    else { fuPeriod := 2, fuData := (0, 0, 0), payload }) ++
  [{ fuPeriod := 3, fuData := crcBytes plan.crc24, payload := versionBytes plan.versionCode }]

theorem FirmwarePlan.take_volumes (plan : FirmwarePlan) :
    plan.volumes.take (plan.totalBlocks + 1) = plan.volumes :=
  List.take_of_length_le (by simp [volumes, totalBlocks])

theorem FirmwarePlan.volumes_cons {plan : FirmwarePlan} {first : Bytes} {rest : List Bytes}
    (h : plan.payloads = first :: rest) : plan.volumes =
      { fuPeriod := 1
        fuData := ((plan.totalBlocks / 256).toUInt8, (plan.totalBlocks % 256).toUInt8, 0)
        payload := first } ::
      rest.map (fun payload => { fuPeriod := 2, fuData := (0, 0, 0), payload }) ++
      [{ fuPeriod := 3
         fuData := crcBytes plan.crc24
         payload := versionBytes plan.versionCode }] := by
  have hrest : (rest.mapIdx fun _ payload =>
      ({ fuPeriod := 2, fuData := (0, 0, 0), payload } : VolumeFields)) =
        rest.map fun payload => { fuPeriod := 2, fuData := (0, 0, 0), payload } := by
    apply List.ext_getElem?
    intro i
    rw [List.getElem?_mapIdx, List.getElem?_map]
  rw [volumes, h, List.mapIdx_cons, ← hrest]
  rfl

/-- The three bytes survive the way through the slot. -/
theorem crcBytes_pack (data : UInt8 × UInt8 × UInt8) :
    crcBytes (data.1.toUInt32 <<< 16 ||| data.2.1.toUInt32 <<< 8 ||| data.2.2.toUInt32) = data := by
  refine Prod.ext ?_ (Prod.ext ?_ ?_)
  · apply UInt8.toBitVec_inj.mp
    ext i hi
    simp only [crcBytes]
    simp
    grind
  · apply UInt8.toBitVec_inj.mp
    ext i hi
    simp only [crcBytes]
    simp
    grind
  · apply UInt8.toBitVec_inj.mp
    ext i hi
    simp [crcBytes]

/-- The two bytes of a number of blocks. -/
theorem totalSize_bytes (n : Nat) : ((n.toUInt16 >>> 8).toUInt8, n.toUInt16.toUInt8) =
    ((n / 256).toUInt8, (n % 256).toUInt8) := by
  refine Prod.ext ?_ ?_
  · apply UInt8.toNat_inj.mp
    simp [Nat.shiftRight_eq_div_pow]
    omega
  · apply UInt8.toNat_inj.mp
    simp

/-- What is sent of an image that has been set. -/
theorem volumeFields?_setCurrentVolumeData (st : Statics) (payload : Bytes) (marker : UInt8)
    (totalSize : UInt16) (data : UInt8 × UInt8 × UInt8) (address : UInt16) :
    volumeFields? (PPBCommand.buildVolumeRequest
      (st.setCurrentVolumeData payload marker totalSize data) address) =
        some {
          fuPeriod := marker
          fuData :=
            if marker = 1 then ((totalSize >>> 8).toUInt8, totalSize.toUInt8, 0)
            else if marker = 3 then data
            else (0, 0, 0)
          payload } := by
  have hdata := crcBytes_pack data
  unfold crcBytes at hdata
  unfold PPBCommand.buildVolumeRequest Statics.setCurrentVolumeData
  dsimp only
  rw [hdata]
  rfl

/-- Whatever is in the slot has fields. -/
theorem volumeFields?_buildVolumeRequest {st : Statics} (h : st.volumeUseCustomData = true)
    (address : UInt16) :
    ∃ fields, volumeFields? (PPBCommand.buildVolumeRequest st address) = some fields := by
  unfold PPBCommand.buildVolumeRequest
  rw [if_neg (by simp [h])]
  exact ⟨_, rfl⟩

/-- How many VOLUMEs the stages before this one send. -/
def FirmwareStage.volumesBefore (n : Nat) : FirmwareStage → Nat
  | .isYou | .vers | .programm => 0
  | .volume i => i
  | .finalVolume => n
  | .update | .clean => n + 1

theorem FirmwareStage.volumesBefore_next {n : Nat} {stage later : FirmwareStage}
    (hwithin : ∀ i, stage = .volume i → i < n) (h : stage.next n = some later) :
    later.volumesBefore n = stage.volumesBefore n + if stage.isVolume then 1 else 0 := by
  cases stage with
  | volume i =>
    have hi := hwithin i rfl
    simp only [next] at h
    split at h
    · obtain rfl := Option.some.inj h
      rfl
    · obtain rfl := Option.some.inj h
      show n = i + 1
      omega
  | clean => cases h
  | _ =>
    obtain rfl := Option.some.inj h
    rfl

/-- A VOLUME stage fills the slot with its VOLUME. -/
theorem FirmwarePlan.issue_volume (plan : FirmwarePlan) (communication : Option CommunicationId)
    (targetMask : UInt16) {stage : FirmwareStage} (hvolume : stage.isVolume = true)
    (hwithin : ∀ i, stage = .volume i → i < plan.totalBlocks) :
    ∃ payload marker totalSize data, plan.issue communication targetMask stage =
      .setCurrentVolumeData payload marker totalSize data ::
        issued communication [.executeCommand .volume 0] ∧
      ∀ (st : Statics) address, volumeFields? (PPBCommand.buildVolumeRequest
        (st.setCurrentVolumeData payload marker totalSize data) address) =
          plan.volumes[stage.volumesBefore plan.totalBlocks]? := by
  cases stage with
  | volume i =>
    have hi : i < plan.payloads.length := hwithin i rfl
    refine ⟨_, _, _, _, rfl, fun st address => ?_⟩
    rw [volumeFields?_setCurrentVolumeData]
    show _ = plan.volumes[i]?
    rw [volumes, List.getElem?_append_left (by simpa using hi), List.getElem?_mapIdx,
      List.getElem?_eq_getElem hi, List.getD_eq_getElem _ _ hi]
    by_cases hfirst : i = 0
    · obtain ⟨hhigh, hlow⟩ := Prod.mk.inj (totalSize_bytes plan.totalBlocks)
      simp [hfirst, hhigh, hlow]
    · simp [hfirst]
  | finalVolume =>
    refine ⟨_, _, _, _, rfl, fun st address => ?_⟩
    rw [volumeFields?_setCurrentVolumeData]
    show _ = plan.volumes[plan.totalBlocks]?
    rw [volumes, List.getElem?_append_right (by simp [totalBlocks])]
    simp [totalBlocks]
  | _ => cases hvolume

/-- Calls do not set the image. -/
theorem foldl_setImage_issued (communication : Option CommunicationId) (calls : List Event)
    (engine : Engine) : (issued communication calls).foldl Entry.setImage engine = engine := by
  unfold issued
  cases communication with
  | none => rfl
  | some id =>
    simp only [Option.toList_some, List.flatMap_singleton, List.foldl_map]
    induction calls with
    | nil => rfl
    | cons call rest ih => exact ih

theorem Station.engine_follow_set {s : Station} {c : PPBController} {head : List Entry}
    {payload : Bytes} {marker : UInt8} {totalSize : UInt16} {data : UInt8 × UInt8 × UInt8}
    {communication : Option CommunicationId} {calls : List Event}
    (hlog : c.log = s.controller.log ++ head ++
      (.setCurrentVolumeData payload marker totalSize data :: issued communication calls))
    (hhead : ∀ x ∈ head, x.isOrdinary = true) :
    (s.follow c).engine = { s.engine with
      statics := s.engine.statics.setCurrentVolumeData payload marker totalSize data } := by
  rw [follow, news_eq (hlog.trans (List.append_assoc ..)), List.foldl_append,
    foldl_setImage_of_isOrdinary hhead, List.foldl_cons, foldl_setImage_issued]
  rfl

/-! What a wait for a VOLUME hears. -/

namespace FirmwareSession

variable {f : FirmwareSession}

theorem success_notice {signal : Signal} (hvolume : f.stage.isVolume = true)
    (h : (f.notice signal).wait.success = true) :
    f.wait.success = true ∨ ∃ message, signal = .commandCompleted true message .volume := by
  cases hreport : signal.isVolumeReport with
  | false =>
    rw [Bench.notice_eq_self hvolume hreport] at h
    exact .inl h
  | true =>
    cases signal with
    | commandCompleted success message command =>
      obtain rfl : command = .volume := by simpa [Signal.isVolumeReport] using hreport
      have hsuccess : (f.notice (.commandCompleted success message .volume)).wait.success =
          success := by
        unfold notice
        cases hstage : f.stage with
        | volume | finalVolume => rfl
        | _ =>
          rw [hstage] at hvolume
          cases hvolume
      exact .inr ⟨message, by rw [← hsuccess, h]⟩
    | _ => cases hreport

theorem success_timeout (h : f.timeout.wait.success = true) : f.wait.success = true := by
  unfold timeout at h
  dsimp only at h
  split at h
  · cases h
  · cases h
  · exact h

end FirmwareSession

/-! The VOLUMEs of an update. -/

namespace Bench

/-- A VOLUME waits to be executed. -/
def VolumeWaits (s : Bench) : Prop :=
  (∃ call ∈ s.calls, call.isVolume = true) ∨
    ∃ address, ∃ request ∈ s.engine.queueOf address, request.command = .volumeCommand

/-- The VOLUMEs handed to UDP since the engine's log was `start` long. -/
def handed (s : Bench) (start : Nat) : List Bytes :=
  (s.engine.log.drop start).filterMap Output.volumeDatagram?

/-- They are the first `k` of the image. -/
def Carried (plan : FirmwarePlan) (start k : Nat) (s : Bench) : Prop :=
  (s.handed start).map volumeFields? = (plan.volumes.take k).map some

/-- Where the VOLUME of the stage in progress is. -/
inductive Place (plan : FirmwarePlan) (start : Nat) (s : Bench) (f : FirmwareSession) : Prop where
  | apart : f.stage.isVolume = false →
    s.Carried plan start (f.stage.volumesBefore plan.totalBlocks) →
    s.engine.statics.volumeUseCustomData = false ∨ ¬ s.VolumeWaits → Place plan start s f
  | inSlot : f.stage.isVolume = true →
    s.Carried plan start (f.stage.volumesBefore plan.totalBlocks) →
    (∀ address, volumeFields? (PPBCommand.buildVolumeRequest s.engine.statics address) =
      plan.volumes[f.stage.volumesBefore plan.totalBlocks]?) →
    (∀ message, .commandCompleted true message .volume ∉ s.emitted) → f.wait.success = false →
    Place plan start s f
  | onWire : f.stage.isVolume = true →
    s.Carried plan start (f.stage.volumesBefore plan.totalBlocks + 1) →
    s.engine.statics.volumeUseCustomData = false → Place plan start s f
  | lost : f.stage.isVolume = true →
    s.Carried plan start (f.stage.volumesBefore plan.totalBlocks) →
    s.engine.statics.volumeUseCustomData = false →
    (∀ message, .commandCompleted true message .volume ∉ s.emitted) → f.wait.success = false →
    Place plan start s f

section
variable {codeToVSWR : Nat → UInt16 → FloatBits} {wiring : CommunicationFacade.Wiring}
  {s s' : Bench} {f f' : FirmwareSession} {e : StationEvent} {plan : FirmwarePlan}
  {start k : Nat} {engine : Engine} {calls : List Event} {stage : FirmwareStage}
  {before : List Entry}

theorem free_of_not_volumeWaits (h : s.engine.Held) (hnone : ¬ s.VolumeWaits) :
    s.engine.Free plain := by
  refine ⟨h.admits, fun address request hmem => ?_⟩
  rcases h.queued address request hmem with hadmits | hcommand
  · exact hadmits
  · exact absurd (.inr ⟨address, request, hmem, hcommand⟩) hnone

theorem not_volumeWaits_of_free (h : s.engine.Free plain)
    (hcalls : ∀ call ∈ s.calls, call.isVolume = false) : ¬ s.VolumeWaits := by
  rintro (⟨call, hmem, hvolume⟩ | ⟨address, request, hmem, hcommand⟩)
  · rw [hcalls call hmem] at hvolume
    cases hvolume
  · apply h.queued address request hmem
    rw [hcommand]
    rfl

theorem handed_append (hstart : start ≤ s.engine.log.length) {new : List Output}
    (hlog : engine.log = s.engine.log ++ new) :
    ({ s with engine, calls } : Bench).handed start =
      s.handed start ++ new.filterMap Output.volumeDatagram? := by
  unfold handed
  rw [hlog, List.drop_append_of_le_length hstart, List.filterMap_append]

theorem Carried.append (h : s.Carried plan start k) (hstart : start ≤ s.engine.log.length)
    {new : List Output} (hlog : engine.log = s.engine.log ++ new)
    (hnew : new.filterMap Output.volumeDatagram? = []) :
    ({ s with engine, calls } : Bench).Carried plan start k := by
  unfold Carried
  rw [handed_append hstart hlog, hnew, List.append_nil]
  exact h

/-- The next VOLUME is handed over. -/
theorem Carried.snoc (h : s.Carried plan start k) (hstart : start ≤ s.engine.log.length)
    {new : List Output} (hlog : engine.log = s.engine.log ++ new) {packet : Bytes}
    (hnew : new.filterMap Output.volumeDatagram? = [packet])
    (hpacket : volumeFields? packet = plan.volumes[k]?) {fields : VolumeFields}
    (hfields : volumeFields? packet = some fields) :
    ({ s with engine, calls } : Bench).Carried plan start (k + 1) := by
  unfold Carried at h ⊢
  have hk : plan.volumes[k]? = some fields := hpacket.symm.trans hfields
  rw [handed_append hstart hlog, hnew, List.map_append, h, List.take_add_one, hk,
    List.map_append, List.map_singleton, hfields]
  rfl

/-- No success has been added. -/
theorem not_mem_emitted (h : s.connected ≤ s.engine.log.length) {new : List Output}
    (hlog : engine.log = s.engine.log ++ new) (hnew : true ∉ new.filterMap Output.volumeReport?)
    (hnone : ∀ message, .commandCompleted true message .volume ∉ s.emitted) (message : String) :
    .commandCompleted true message .volume ∉ ({ s with engine, calls } : Bench).emitted := by
  intro hmem
  have hemitted : ({ s with engine, calls } : Bench).emitted =
      s.emitted ++ new.filterMap Output.signal? := emitted_append h hlog
  rw [hemitted] at hmem
  rcases List.mem_append.mp hmem with hmem | hmem
  · exact hnone message hmem
  · obtain ⟨o, ho, hsignal⟩ := List.mem_filterMap.mp hmem
    apply hnew
    refine List.mem_filterMap.mpr ⟨o, ho, ?_⟩
    cases o with
    | commandCompleted op success report =>
      simp only [Output.signal?, Option.some.injEq, Signal.commandCompleted.injEq] at hsignal
      obtain ⟨rfl, -, hcommand⟩ := hsignal
      exact if_pos hcommand
    | _ => cases hsignal

/-- The engine moves on. -/
theorem Place.deliver (h : s.Place plan start f) (hsound : s.Sound)
    (hstart : start ≤ s.engine.log.length) (hdelivers : Engine.Delivers s.engine engine)
    (hplain : ¬ s.VolumeWaits → Engine.Conducted plain s.engine engine ∧
      ∀ call ∈ calls, call.isVolume = false) :
    ({ s with engine, calls } : Bench).Place plan start f := by
  cases h with
  | apart hstage hcarried hslot =>
    rcases hslot with hempty | hnone
    · -- there is nothing to hand over
      refine .apart hstage ?_ (.inl (hdelivers.delivery.emptied hempty))
      cases hdelivers.delivery with
      | kept new hlog himage hdatagrams => exact hcarried.append hstart hlog hdatagrams
      | lost new hlog hempty' hdatagrams => exact hcarried.append hstart hlog hdatagrams
      | sent new address hlog hfull =>
        rw [hempty] at hfull
        cases hfull
    · -- there is nothing that would hand it over
      obtain ⟨hconducted, hcalls⟩ := hplain hnone
      obtain ⟨new, hlog, hnew⟩ := hconducted.log
      exact .apart hstage (hcarried.append hstart hlog (Engine.filterMap_of_isPlain hnew).2)
        (.inr (not_volumeWaits_of_free hconducted.free hcalls))
  | inSlot hstage hcarried hfields hunreported hsuccess =>
    cases hdelivers.delivery with
    | kept new hlog himage hdatagrams hreports =>
      refine .inSlot hstage (hcarried.append hstart hlog hdatagrams) (fun address => ?_)
        (not_mem_emitted hsound.connected hlog (by simp [hreports]) hunreported) hsuccess
      rw [Engine.buildVolumeRequest_congr himage]
      exact hfields address
    | lost new hlog hempty hdatagrams hreports =>
      exact .lost hstage (hcarried.append hstart hlog hdatagrams) hempty
        (not_mem_emitted hsound.connected hlog hreports hunreported) hsuccess
    | sent new address hlog hfull hempty hdatagrams =>
      obtain ⟨fields, hsome⟩ := volumeFields?_buildVolumeRequest hfull address
      exact .onWire hstage (hcarried.snoc hstart hlog hdatagrams (hfields address) hsome) hempty
  | onWire hstage hcarried hempty =>
    refine .onWire hstage ?_ (hdelivers.delivery.emptied hempty)
    cases hdelivers.delivery with
    | kept new hlog himage hdatagrams => exact hcarried.append hstart hlog hdatagrams
    | lost new hlog hempty' hdatagrams => exact hcarried.append hstart hlog hdatagrams
    | sent new address hlog hfull =>
      rw [hempty] at hfull
      cases hfull
  | lost hstage hcarried hempty hunreported hsuccess =>
    cases hdelivers.delivery with
    | kept new hlog himage hdatagrams hreports =>
      exact .lost hstage (hcarried.append hstart hlog hdatagrams)
        (hdelivers.delivery.emptied hempty)
        (not_mem_emitted hsound.connected hlog (by simp [hreports]) hunreported) hsuccess
    | lost new hlog hempty' hdatagrams hreports =>
      exact .lost hstage (hcarried.append hstart hlog hdatagrams) hempty'
        (not_mem_emitted hsound.connected hlog hreports hunreported) hsuccess
    | sent new address hlog hfull =>
      rw [hempty] at hfull
      cases hfull

/-- The controller posts nothing that has to do with a VOLUME. -/
theorem not_volumeWaits_follow {c : PPBController} {connected : Nat} (hheld : s.engine.Held)
    (hlog : Machine.Extends (fun x => x.isOrdinary = true) s.controller.log c.log)
    (hnone : ¬ s.VolumeWaits) :
    ¬ ({ toStation := s.toStation.follow c, connected } : Bench).VolumeWaits := by
  have hengine : (s.toStation.follow c).engine = s.engine := Station.engine_follow_eq hlog
  obtain ⟨new, hnew, hordinary⟩ := hlog
  apply not_volumeWaits_of_free
  · show (s.toStation.follow c).engine.Free plain
    rw [hengine]
    exact free_of_not_volumeWaits hheld hnone
  · intro call hmem
    change call ∈ (s.toStation.follow c).calls at hmem
    rw [Station.follow, Station.news_eq hnew] at hmem
    rcases List.mem_append.mp hmem with hmem | hmem
    · rw [Bool.eq_false_iff]
      exact fun hvolume => hnone (.inl ⟨call, hmem, hvolume⟩)
    · obtain ⟨x, hx, hown⟩ := List.mem_filterMap.mp hmem
      have hx := hordinary x hx
      cases x with
      | call communication asked =>
        obtain rfl := Option.some.inj (Option.ite_none_right_eq_some.mp hown).2
        simpa [Entry.isOrdinary] using hx
      | _ => cases hown

/-- The controller moves on in the same wait, and sets no image. -/
theorem Place.follow {c : PPBController} (h : s.Place plan start f) (hheld : s.engine.Held)
    (hlog : Machine.Extends (fun x => x.isOrdinary = true) s.controller.log c.log)
    (hstage : f'.stage = f.stage)
    (hsuccess : f.stage.isVolume = true → f'.wait.success = true → f.wait.success = true ∨
      ∃ message, .commandCompleted true message .volume ∈ s.emitted) :
    ({ s with toStation := s.toStation.follow c } : Bench).Place plan start f' := by
  have hengine : (s.toStation.follow c).engine = s.engine := Station.engine_follow_eq hlog
  have hcarried {k : Nat} (hcarried : s.Carried plan start k) :
      ({ s with toStation := s.toStation.follow c } : Bench).Carried plan start k := by
    unfold Carried handed
    rw [hengine]
    exact hcarried
  have hunreported (hnone : ∀ message, .commandCompleted true message .volume ∉ s.emitted)
      (message : String) : .commandCompleted true message .volume ∉
        ({ s with toStation := s.toStation.follow c } : Bench).emitted := by
    unfold emitted
    rw [hengine]
    exact hnone message
  have hfails (hvolume : f.stage.isVolume = true)
      (hnone : ∀ message, .commandCompleted true message .volume ∉ s.emitted)
      (hfalse : f.wait.success = false) : f'.wait.success = false := by
    rw [Bool.eq_false_iff]
    intro htrue
    rcases hsuccess hvolume htrue with hbefore | ⟨message, hmem⟩
    · rw [hfalse] at hbefore
      cases hbefore
    · exact hnone message hmem
  have hempties (hempty : s.engine.statics.volumeUseCustomData = false) :
      (s.toStation.follow c).engine.statics.volumeUseCustomData = false := by
    rw [hengine]
    exact hempty
  rw [← hstage] at hfails
  cases h with
  | apart hvolume hk hslot =>
    rw [← hstage] at hvolume hk
    exact .apart hvolume (hcarried hk) (hslot.imp hempties (not_volumeWaits_follow hheld hlog))
  | inSlot hvolume hk hfields hnone hfalse =>
    rw [← hstage] at hvolume hk hfields
    refine .inSlot hvolume (hcarried hk) (fun address => ?_) (hunreported hnone)
      (hfails hvolume hnone hfalse)
    rw [hengine]
    exact hfields address
  | onWire hvolume hk hempty =>
    rw [← hstage] at hvolume hk
    exact .onWire hvolume (hcarried hk) (hempties hempty)
  | lost hvolume hk hempty hnone hfalse =>
    rw [← hstage] at hvolume hk
    exact .lost hvolume (hcarried hk) (hempties hempty) (hunreported hnone)
      (hfails hvolume hnone hfalse)

/-- A stage that is confirmed has sent what it had to send. -/
theorem Place.confirmed (h : s.Place plan start f) (hconfirmed : f.confirmed = true)
    (hnext : f.stage.next plan.totalBlocks = some stage)
    (hwithin : ∀ i, f.stage = .volume i → i < plan.totalBlocks) :
    s.Carried plan start (stage.volumesBefore plan.totalBlocks) ∧
      (s.engine.statics.volumeUseCustomData = false ∨ ¬ s.VolumeWaits) := by
  have hunconfirmed (hvolume : f.stage.isVolume = true) (hfalse : f.wait.success = false) :
      False := by
    unfold FirmwareSession.confirmed at hconfirmed
    cases hstage : f.stage with
    | volume | finalVolume =>
      rw [hstage] at hconfirmed
      rw [hfalse] at hconfirmed
      cases hconfirmed
    | _ =>
      rw [hstage] at hvolume
      cases hvolume
  rw [FirmwareStage.volumesBefore_next hwithin hnext]
  cases h with
  | apart hvolume hk hslot =>
    rw [hvolume]
    exact ⟨hk, hslot⟩
  | onWire hvolume hk hempty =>
    rw [hvolume]
    exact ⟨hk, .inl hempty⟩
  | inSlot hvolume hk hfields hnone hfalse => exact (hunconfirmed hvolume hfalse).elim
  | lost hvolume hk hempty hnone hfalse => exact (hunconfirmed hvolume hfalse).elim

/-- The next stage begins. -/
theorem Place.begun {c : PPBController} {head : List Entry} {groupId : Nat}
    (hheld : s.engine.Held) (hplan : f.plan = plan)
    (hcarried : s.Carried plan start (stage.volumesBefore plan.totalBlocks))
    (hslot : s.engine.statics.volumeUseCustomData = false ∨ ¬ s.VolumeWaits)
    (hbegun : f.Begun groupId stage f') (hhead : ∀ x ∈ head, x.isAside = true)
    (hlog : c.log = s.controller.log ++ head ++
      plan.issue s.controller.communication f.nextTarget stage) :
    ({ toStation := s.toStation.follow c, connected := s.engine.log.length } : Bench).Place plan
      start f' := by
  have hstage := hbegun.stage_eq
  have hordinary : ∀ x ∈ head, x.isOrdinary = true :=
    fun x hx => Entry.isOrdinary_of_isAside (hhead x hx)
  cases hvolume : stage.isVolume with
  | false =>
    have hextends : Machine.Extends (fun x => x.isOrdinary = true) s.controller.log c.log := by
      refine ⟨_, hlog.trans (List.append_assoc ..), fun x hx => ?_⟩
      rcases List.mem_append.mp hx with hx | hx
      · exact hordinary x hx
      · exact plan.isOrdinary_issue _ _ hvolume x hx
    have hengine : (s.toStation.follow c).engine = s.engine := Station.engine_follow_eq hextends
    rw [← hstage] at hvolume hcarried
    refine .apart hvolume ?_ (hslot.imp (fun hempty => ?_)
      (not_volumeWaits_follow hheld hextends))
    · unfold Carried handed
      rw [hengine]
      exact hcarried
    · rw [hengine]
      exact hempty
  | true =>
    have hwithin : ∀ i, stage = .volume i → i < plan.totalBlocks := by
      intro i hi
      have hkept := hbegun.kept
      unfold FirmwareSession.Kept at hkept
      rw [hstage, hi] at hkept
      have htotal : f'.totalBlocks = plan.totalBlocks := by
        rw [← hplan, ← hbegun.plan]
        rfl
      exact htotal ▸ hkept.1
    obtain ⟨payload, marker, totalSize, data, hissue, hfields⟩ :=
      plan.issue_volume s.controller.communication f.nextTarget hvolume hwithin
    rw [hissue] at hlog
    have hengine := Station.engine_follow_set hlog hordinary
    rw [← hstage] at hvolume hcarried hfields
    refine .inSlot hvolume ?_ (fun address => ?_) (fun message hmem => ?_) ?_
    · unfold Carried handed
      rw [hengine]
      exact hcarried
    · rw [hengine]
      exact hfields _ address
    · unfold emitted at hmem
      rw [hengine, List.drop_length] at hmem
      cases hmem
    · rw [hbegun.wait]

/-- A signal has been passed on. -/
theorem Place.pass (h : s.Place plan start f) (relayed : Nat) :
    ({ s with relayed } : Bench).Place plan start f := by
  cases h with
  | apart hvolume hk hslot => exact .apart hvolume hk hslot
  | inSlot hvolume hk hfields hnone hfalse => exact .inSlot hvolume hk hfields hnone hfalse
  | onWire hvolume hk hempty => exact .onWire hvolume hk hempty
  | lost hvolume hk hempty hnone hfalse => exact .lost hvolume hk hempty hnone hfalse

/-! From the acceptance of the update to its return. -/

/-- The VOLUMEs of the stages that are over have been handed over. -/
structure Carrying (plan : FirmwarePlan) (start : Nat) (before : List Entry) (s : Bench) :
    Prop where
  sound : s.Sound
  started : start ≤ s.engine.log.length
  running : ∀ f, s.controller.firmware = some f → f.plan = plan ∧ s.Place plan start f
  news : ∃ new, s.controller.log = before ++ new ∧ (finalProgress plan.totalBlocks ∈ new →
    s.controller.firmware = none ∧ s.Carried plan start (plan.totalBlocks + 1))

/-- While the update runs, its end has not been reported. -/
theorem Carrying.unfinished (h : Carrying plan start before s)
    (hf : s.controller.firmware = some f) :
    ∃ new, s.controller.log = before ++ new ∧ finalProgress plan.totalBlocks ∉ new := by
  obtain ⟨new, hlog, hfinal⟩ := h.news
  refine ⟨new, hlog, fun hmem => ?_⟩
  obtain ⟨hnone, -⟩ := hfinal hmem
  rw [hnone] at hf
  cases hf

/-- The engine moves on. -/
theorem Carrying.deliver (h : Carrying plan start before s) (hf : s.controller.firmware = some f)
    {asked : Event} (husual : asked.IsUsual) (hwaits : asked.isVolume = true → s.VolumeWaits)
    (hcalls : ∀ call ∈ calls, call ∈ s.calls) :
    Carrying plan start before { s with engine := s.engine.handle asked, calls } := by
  have hdelivers := Engine.delivers_handle h.sound.held husual
  obtain ⟨new, hlog⟩ := hdelivers.delivery.log
  obtain ⟨old, hold, hunfinished⟩ := h.unfinished hf
  refine ⟨h.sound.engine hdelivers (fun call hcall => h.sound.calls call (hcalls call hcall))
    h.sound.connected, ?_, fun f' hf' => ?_, old, hold, fun hmem => absurd hmem hunfinished⟩
  · show start ≤ (s.engine.handle asked).log.length
    rw [hlog, List.length_append]
    exact Nat.le_add_right_of_le h.started
  · obtain ⟨hplan, hplace⟩ := h.running f' hf'
    refine ⟨hplan, hplace.deliver h.sound h.started hdelivers fun hnone => ⟨?_, ?_⟩⟩
    · apply Engine.conducted_handle (free_of_not_volumeWaits h.sound.held hnone)
      apply plain_allows
      rw [Bool.eq_false_iff]
      exact fun hvolume => hnone (hwaits hvolume)
    · intro call hcall
      rw [Bool.eq_false_iff]
      exact fun hvolume => hnone (.inl ⟨call, hcalls call hcall, hvolume⟩)

/-- The controller moves on in the same wait. -/
theorem Carrying.follow {c : PPBController} (h : Carrying plan start before s)
    (hf : s.controller.firmware = some f)
    (hsound : ({ s with toStation := s.toStation.follow c } : Bench).Sound)
    (hfirmware : c.firmware = some f') (hplan : f'.plan = f.plan) (hstage : f'.stage = f.stage)
    (hquiet : Machine.Extends (fun x => x.isOrdinary = true ∧ ∀ n, x ≠ finalProgress n)
      s.controller.log c.log)
    (hsuccess : f.stage.isVolume = true → f'.wait.success = true → f.wait.success = true ∨
      ∃ message, .commandCompleted true message .volume ∈ s.emitted) :
    Carrying plan start before { s with toStation := s.toStation.follow c } := by
  have hordinary : Machine.Extends (fun x => x.isOrdinary = true) s.controller.log c.log :=
    hquiet.mono fun x hx => hx.1
  have hengine : (s.toStation.follow c).engine = s.engine := Station.engine_follow_eq hordinary
  obtain ⟨hsame, hplace⟩ := h.running f hf
  obtain ⟨old, hold, hunfinished⟩ := h.unfinished hf
  obtain ⟨new, hnew, hnone⟩ := hquiet
  refine ⟨hsound, ?_, fun g hg => ?_, old ++ new, ?_, fun hmem => ?_⟩
  · show start ≤ (s.toStation.follow c).engine.log.length
    rw [hengine]
    exact h.started
  · obtain rfl := Option.some.inj (hfirmware.symm.trans hg)
    exact ⟨hplan.trans hsame, hplace.follow h.sound.held hordinary hstage hsuccess⟩
  · show c.log = _
    rw [hnew, hold, List.append_assoc]
  · rcases List.mem_append.mp hmem with hmem | hmem
    · exact absurd hmem hunfinished
    · exact absurd rfl ((hnone _ hmem).2 _)

/-- An event loop returns. -/
theorem Carrying.resumed {c : PPBController} {groupId : Nat} (h : Carrying plan start before s)
    (hf : s.controller.firmware = some f)
    (hsound : ({ toStation := s.toStation.follow c, connected := s.engine.log.length } :
      Bench).Sound)
    (hresumed : PPBController.Resumed s.controller f groupId c) :
    Carrying plan start before
      { toStation := s.toStation.follow c, connected := s.engine.log.length } := by
  obtain ⟨rfl, hplace⟩ := h.running f hf
  obtain ⟨old, hold, hunfinished⟩ := h.unfinished hf
  have hstarted : start ≤ (s.toStation.follow c).engine.log.length := by
    obtain ⟨statics, hengine⟩ := s.toStation.engine_follow c
    rw [hengine]
    exact h.started
  have hwithin : ∀ i, f.stage = .volume i → i < f.plan.totalBlocks := by
    intro i hi
    have hkept := h.sound.kept f hf
    unfold FirmwareSession.Kept at hkept
    rw [hi] at hkept
    exact hkept.1
  -- the update is over before its end
  have hover {new : List Entry} (hnone : c.firmware = none) (hlog : c.log = s.controller.log ++ new)
      (hfinal : finalProgress f.plan.totalBlocks ∉ new) : Carrying f.plan start before
        { toStation := s.toStation.follow c, connected := s.engine.log.length } := by
    refine ⟨hsound, hstarted, fun g hg => ?_, old ++ new, ?_, fun hmem => ?_⟩
    · rw [show c.firmware = some g from hg] at hnone
      cases hnone
    · show c.log = _
      rw [hlog, hold, List.append_assoc]
    · rcases List.mem_append.mp hmem with hmem | hmem
      · exact absurd hmem hunfinished
      · exact absurd hmem hfinal
  cases hresumed with
  | failed tail _ hnone hlog htail =>
    exact hover hnone hlog (PPBController.finalProgress_not_aside htail)
  | refused stage error _ _ _ _ hnone hlog =>
    refine hover hnone (hlog.trans (List.append_assoc ..)) ?_
    rw [List.mem_append, not_or]
    exact ⟨PPBController.finalProgress_not_issue _ stage, by simp [finalProgress]⟩
  | @advanced f' head stage hconfirmed hnext hbegun hsome hhead hlog =>
    obtain ⟨hcarried, hslot⟩ := hplace.confirmed hconfirmed hnext hwithin
    have hbegins := Place.begun h.sound.held rfl hcarried hslot hbegun hhead hlog
    refine ⟨hsound, hstarted, fun g hg => ?_,
      old ++ (head ++ f.plan.issue s.controller.communication f.nextTarget stage), ?_,
      fun hmem => ?_⟩
    · obtain rfl := Option.some.inj (hsome.symm.trans hg)
      exact ⟨hbegun.plan, hbegins⟩
    · show c.log = _
      rw [hlog, hold, List.append_assoc, List.append_assoc]
    · rw [List.mem_append, List.mem_append] at hmem
      rcases hmem with hmem | hmem | hmem
      · exact absurd hmem hunfinished
      · exact absurd hmem (PPBController.finalProgress_not_aside hhead)
      · exact absurd hmem (PPBController.finalProgress_not_issue _ stage)
  | finished _ hstage hnone hlog =>
    -- all stages are over
    have hengine : (s.toStation.follow c).engine = s.engine :=
      Station.engine_follow_eq ⟨_, hlog, by simp [finalProgress, Entry.isOrdinary]⟩
    refine ⟨hsound, hstarted, fun g hg => ?_, old ++ [finalProgress f.totalBlocks], ?_,
      fun _ => ⟨hnone, ?_⟩⟩
    · rw [show c.firmware = some g from hg] at hnone
      cases hnone
    · show c.log = _
      rw [hlog, hold, List.append_assoc]
    · cases hplace with
      | apart _ hcarried =>
        rw [hstage] at hcarried
        unfold Carried handed
        rw [hengine]
        exact hcarried
      | inSlot hvolume | onWire hvolume | lost hvolume =>
        rw [hstage] at hvolume
        cases hvolume

/-- A signal has been passed on. -/
theorem Carrying.pass (h : Carrying plan start before s) (relayed : Nat) :
    Carrying plan start before { s with relayed } := by
  refine ⟨⟨h.sound.held, h.sound.calls, h.sound.kept, h.sound.connected⟩, h.started,
    fun f hf => ?_, h.news⟩
  obtain ⟨hplan, hplace⟩ := h.running f hf
  exact ⟨hplan, hplace.pass relayed⟩

/-- A step of the controller. -/
theorem Carrying.controller {c : PPBController} {e : ControllerEvent}
    (h : Carrying plan start before s) (hf : s.controller.firmware = some f)
    (hpossible : s.possible (.controller e) = true)
    (hc : s.controller.handle codeToVSWR e = some c)
    (hsound : ({ toStation := s.toStation.follow c
                 connected := if s.connects (.controller e) then s.engine.log.length
                   else s.connected } : Bench).Sound) :
    Carrying plan start before
      { toStation := s.toStation.follow c
        connected := if s.connects (.controller e) then s.engine.log.length else s.connected } := by
  rcases lingers_or_resumed hf hpossible hc with ⟨groupId, rfl, -, rfl⟩ | ⟨f', hlingers, -⟩
  · exact h.resumed hf hsound (PPBController.resumed_resumeFirmware (h.sound.kept f hf))
  · rw [hlingers.connects] at hsound ⊢
    refine h.follow hf hsound hlingers.firmware hlingers.plan hlingers.stage hlingers.quiet
      fun hvolume htrue => ?_
    rcases hlingers.heard with rfl | ⟨signal, rfl, hemitted⟩ | rfl
    · exact .inl htrue
    · apply (FirmwareSession.success_notice hvolume htrue).imp_right
      rintro ⟨message, rfl⟩
      exact ⟨message, hemitted (by simp [Signal.isVolumeReport])⟩
    · exact .inl (FirmwareSession.success_timeout htrue)

/-- Every step. -/
theorem Carrying.step (h : Carrying plan start before s)
    (hstep : s.stepInside codeToVSWR wiring e = some s') : Carrying plan start before s' := by
  obtain ⟨hrunning, hstep⟩ := Option.ite_none_right_eq_some.mp hstep
  obtain ⟨f, hf⟩ := Option.isSome_iff_exists.mp hrunning
  have hsound := h.sound.step hstep
  cases moves_of_step hstep with
  | controller hpossible hc => exact h.controller hf hpossible hc hsound
  | engine asked hasked hcalls =>
    rw [connectedAfter_eq hrunning]
    refine h.deliver hf (hasked.elim (h.sound.calls asked) .inl) (fun hvolume => ?_) hcalls
    rcases hasked with hmem | hplain
    · exact .inl ⟨asked, hmem, hvolume⟩
    · rw [hplain] at hvolume
      cases hvolume
  | @passed _ c _ hfirmware _ hlog =>
    rw [connectedAfter_eq hrunning] at hsound ⊢
    have hfollows : ({ s with toStation := s.toStation.follow c } : Bench).Sound :=
      ⟨hsound.held, hsound.calls, hsound.kept, hsound.connected⟩
    exact (h.follow hf hfollows (hfirmware.trans hf) rfl rfl (quiet_of_isAside hlog)
      fun _ => .inl).pass _
  | dropped =>
    rw [connectedAfter_eq hrunning]
    exact h.pass _

/-- Both calls begin the update. -/
theorem started_of_called {call : PublicCall} {answers : Answers} {begun : Bench}
    {selectedMask : UInt16} {hexFile : Option (List Line)} {newVersion : Option ℚ}
    (hidle : s.controller.firmware = none)
    (hcall : call = .updateFirmware selectedMask hexFile newVersion ∨
      call = .requestVolume selectedMask hexFile newVersion)
    (hbegun : s.step codeToVSWR wiring (.controller (.called call answers)) = some begun)
    (haccepted : begun.controller.firmware.isSome) :
    ∃ version, newVersion = some version ∧ PPBController.Started s.controller
      (.of selectedMask hexFile version) (s.controller.take answers call) := by
  obtain ⟨-, hstep⟩ := Option.ite_none_right_eq_some.mp hbegun
  obtain ⟨t, ht, rfl⟩ := Option.map_eq_some_iff.mp hstep
  obtain rfl := Option.some.inj ht
  change (s.controller.take answers call).firmware.isSome = true at haccepted
  have htake : s.controller.take answers call =
      s.controller.updateFirmware selectedMask hexFile newVersion answers := by
    rcases hcall with rfl | rfl
    · rfl
    · simp only [PPBController.take, PPBController.requestVolume] at haccepted ⊢
      split
      · rfl
      next hnone =>
        rw [if_neg hnone, hidle] at haccepted
        cases haccepted
  rw [htake] at haccepted ⊢
  obtain ⟨version, hversion, -, -, hstarted⟩ :=
    PPBController.started_updateFirmware hidle haccepted
  exact ⟨version, hversion, hstarted⟩

/-- The update has just begun. -/
theorem carrying_of_begun {call : PublicCall} {answers : Answers} {begun : Bench} (h : s.Sound)
    (hslot : s.engine.statics.volumeUseCustomData = false ∨ ¬ s.VolumeWaits)
    (hbegun : s.step codeToVSWR wiring (.controller (.called call answers)) = some begun)
    (hstarted : PPBController.Started s.controller plan (s.controller.take answers call)) :
    Carrying plan s.engine.log.length s.controller.log begun := by
  have hsound := h.step hbegun
  obtain ⟨-, hstep⟩ := Option.ite_none_right_eq_some.mp hbegun
  obtain ⟨t, ht, rfl⟩ := Option.map_eq_some_iff.mp hstep
  obtain rfl := Option.some.inj ht
  obtain ⟨f, hf, hplan, hstage, -⟩ := hstarted.firmware
  have hlog := hstarted.log.trans (List.append_assoc ..)
  have hextends : Machine.Extends (fun x => x.isOrdinary = true) s.controller.log
      (s.controller.take answers call).log := by
    refine ⟨_, hlog, fun x hx => ?_⟩
    rcases List.mem_append.mp hx with hx | hx
    · exact Entry.isOrdinary_of_isAside (PPBController.isAside_of_mem_sweep x hx)
    · exact @FirmwarePlan.isOrdinary_issue plan s.controller.communication 0 .isYou rfl x hx
  have hengine : (s.toStation.follow (s.controller.take answers call)).engine = s.engine :=
    Station.engine_follow_eq hextends
  refine ⟨hsound, ?_, fun g hg => ?_, _, hlog, fun hmem => ?_⟩
  · show _ ≤ (s.toStation.follow (s.controller.take answers call)).engine.log.length
    rw [hengine]
  · obtain rfl := Option.some.inj (hf.symm.trans hg)
    refine ⟨hplan, .apart (hstage ▸ rfl) ?_ (hslot.imp (fun hempty => ?_)
      (not_volumeWaits_follow h.held hextends))⟩
    · unfold Carried handed
      rw [hengine, List.drop_length, hstage]
      rfl
    · rw [hengine]
      exact hempty
  · rcases List.mem_append.mp hmem with hmem | hmem
    · exact absurd hmem
        (PPBController.finalProgress_not_aside PPBController.isAside_of_mem_sweep)
    · exact absurd hmem (PPBController.finalProgress_not_issue _ _)

/-- **A confirmed update has handed over its image**, in order and once, unless it begins with an
image in the slot and a VOLUME that waits. -/
theorem updateFirmware_carries {call : PublicCall} {answers : Answers} {begun : Bench}
    {selectedMask : UInt16} {lines : List Line} {newVersion : Option ℚ} {payloads : List Bytes}
    (hreach : Machine.Reach (machine codeToVSWR wiring) (fun _ _ => True) s)
    (hidle : s.controller.firmware = none)
    (hslot : s.engine.statics.volumeUseCustomData = false ∨ ¬ s.VolumeWaits)
    (hcall : call = .updateFirmware selectedMask (some lines) newVersion ∨
      call = .requestVolume selectedMask (some lines) newVersion)
    (hbegun : s.step codeToVSWR wiring (.controller (.called call answers)) = some begun)
    (haccepted : begun.controller.firmware.isSome)
    (hpayloads : payloads = FirmwareUpdater.buildVolumePayloads
      (FirmwareUpdater.parseHexToDataBlocks (some lines)))
    (hrun : Machine.Reach (updating codeToVSWR wiring begun) (fun _ _ => True) s')
    (hconfirmed : finalProgress payloads.length ∈
      s'.controller.log.drop s.controller.log.length) :
    ∃ version rs first rest, newVersion = some version ∧ IsHexFile lines rs ∧
      payloads = first :: rest ∧ payloads.length ≤ 65535 ∧
      payloads.flatten = (imageData rs).flatten ∧
      (∀ payload ∈ payloads, 1 ≤ payload.length ∧ payload.length ≤ 1024) ∧
      (s'.handed s.engine.log.length).map volumeFields? =
        some {
          fuPeriod := 1
          fuData := ((payloads.length / 256).toUInt8, (payloads.length % 256).toUInt8, 0)
          payload := first } ::
        rest.map (fun payload => some { fuPeriod := 2, fuData := (0, 0, 0), payload }) ++
        [some {
          fuPeriod := 3
          fuData := crcBytes (crc24Of payloads.flatten)
          payload := versionBytes (roundedVersion version).toUInt32 }] := by
  obtain ⟨version, hversion, hstarted⟩ := started_of_called hidle hcall hbegun haccepted
  have hcarrying := hrun.invariant (fun t ht => ht ▸ carrying_of_begun (sound_of_reach hreach) hslot
    hbegun hstarted) fun t e t' ht _ hstep => ht.step hstep
  obtain ⟨new, hlog, hfinal⟩ := hcarrying.news
  rw [hlog, List.drop_left] at hconfirmed
  subst hpayloads
  obtain ⟨-, hcarried⟩ := hfinal hconfirmed
  obtain ⟨f, -, hplan, -⟩ := hstarted.firmware
  have hsame : f.payloads = FirmwareUpdater.buildVolumePayloads
      (FirmwareUpdater.parseHexToDataBlocks (some lines)) := congrArg FirmwarePlan.payloads hplan
  have hnonempty := f.nonempty
  have hbounded := f.bounded
  rw [hsame] at hnonempty hbounded
  have hblocks : FirmwareUpdater.parseHexToDataBlocks (some lines) ≠ [] := by
    intro hnil
    rw [hnil] at hnonempty
    exact hnonempty rfl
  obtain ⟨rs, hfile⟩ := FirmwareUpdater.isHexFile_of_ne_nil hblocks
  obtain ⟨first, rest, hcons⟩ := List.exists_cons_of_ne_nil hnonempty
  refine ⟨version, rs, first, rest, hversion, hfile, hcons, hbounded, ?_, ?_, ?_⟩
  · rw [FirmwareUpdater.flatten_buildVolumePayloads,
      FirmwareUpdater.flatten_parseHexToDataBlocks hfile]
  · exact FirmwareUpdater.length_of_mem_buildVolumePayloads
      (FirmwareUpdater.length_of_mem_parseHexToDataBlocks hfile)
  · unfold Carried at hcarried
    rw [FirmwarePlan.take_volumes, FirmwarePlan.volumes_cons hcons] at hcarried
    rw [hcarried, FirmwareUpdater.flatten_buildVolumePayloads]
    simp [FirmwarePlan.of, FirmwarePlan.totalBlocks]

/-! Runs. -/

/-- A HEX file of four bytes. -/
def fourByteImage : List Line := [":0400000041424344F2".toList, ":00000001FF".toList]

def upload : PublicCall := .updateFirmware 1 (some fourByteImage) (some 0)

/-- UDP takes twelve bytes of every datagram. -/
def wired : Bench where
  controller := { communication := some ownCommunication }
  engine := .init (some fun _ => { bytesSent := 12, errors := [] }) {}

theorem wired_start (codeToVSWR : Nat → UInt16 → FloatBits) (wiring : CommunicationFacade.Wiring) :
    (machine codeToVSWR wiring).start wired :=
  ⟨⟨_, {}, rfl⟩, rfl, rfl, rfl, rfl, fun _ hid => (Option.some.inj hid).symm⟩

/-- The callbacks that are posted, none of which finds anything to execute but in the queue of its
own address. -/
def callbacks (n : Nat) : List StationEvent := List.replicate n (.engine (.posted 0 []))

/-- The queues are swept, and the bridge answers that there is one PPB. -/
def onePpb (groupId : Nat) : List StationEvent :=
  List.replicate 18 .taken ++ [.engine (.datagram [0, 1]),
    .controller (.noticed (.commandDataParsed 0 (.activeMask 1) .isYou)),
    .controller (.resume groupId)] ++ callbacks 2

/-- It acknowledges VERS and PROGRAMM. -/
def groupsConfirmed (groupId : Nat) : List StationEvent :=
  [.taken, .engine (.datagram [0, 1, 0])] ++ callbacks 2 ++
  [.controller (.noticed (.groupCommandCompleted groupId true "")),
    .controller (.resume (groupId + 1)), .taken, .engine (.datagram [0, 1, 0])] ++ callbacks 2 ++
  [.controller (.noticed (.groupCommandCompleted (groupId + 1) true "")), .controller (.resume 0)]

def volumeConfirmed : List StationEvent :=
  .taken :: callbacks 2 ++ [.controller (.noticed (.commandCompleted true
    "VOLUME передан в UDP; ACK блока не ожидается" .volume)), .controller (.resume 0)]

/-- It acknowledges `command`. -/
def commandConfirmed (command : TechCommand) : List StationEvent :=
  [.taken, .engine (.datagram [0, 0, 0]),
    .controller (.noticed (.commandCompleted true "" command)), .controller (.resume 0)]

/-- Every stage is confirmed. -/
def uploadConfirmed (groupId : Nat) : List StationEvent :=
  onePpb groupId ++ groupsConfirmed groupId ++ volumeConfirmed ++ volumeConfirmed ++
    commandConfirmed .update ++ callbacks 2 ++ commandConfirmed .clean

theorem payloads_fourByteImage : FirmwareUpdater.buildVolumePayloads
    (FirmwareUpdater.parseHexToDataBlocks (some fourByteImage)) = [[0x41, 0x42, 0x43, 0x44]] := by
  decide +kernel

theorem updateFirmware_carries_four : ∃ s : Bench, s.controller.firmware.isNone = true ∧
    (s.handed 0).length = 2 := by
  have hend : ((wired.step (fun _ _ => 0) .inInitialize (.controller (.called upload {}))).bind
      fun begun => (Machine.run (stepInside (fun _ _ => 0) .inInitialize) (fun _ _ => True) begun
        (uploadConfirmed 1)).map fun s => (begun.controller.firmware.isSome,
          s.controller.firmware.isNone, decide (finalProgress 1 ∈ s.controller.log))) =
            some (true, true, true) := by
    decide +kernel
  obtain ⟨begun, hbegun, hrest⟩ := Option.bind_eq_some_iff.mp hend
  obtain ⟨s, hrun, heq⟩ := Option.map_eq_some_iff.mp hrest
  simp only [Prod.mk.injEq, decide_eq_true_eq] at heq
  obtain ⟨haccepted, hreturned, hfinal⟩ := heq
  obtain ⟨version, rs, first, rest, -, -, hcons, -, -, -, hhanded⟩ := updateFirmware_carries
    (.start (wired_start _ _)) rfl (.inl rfl) (.inl rfl) hbegun haccepted
    payloads_fourByteImage.symm (.of_run _ (fun _ _ _ h => h) (.start rfl) _ hrun) hfinal
  obtain ⟨rfl, rfl⟩ := List.cons.inj hcons
  change (s.handed 0).map volumeFields? = _ at hhanded
  exact ⟨s, hreturned, by simpa using congrArg List.length hhanded⟩

/-- IS_YOU is asked for twice before the update, so its own waits; when it is sent, the bridge keeps
silent. The first VOLUME waits behind it, and times out. -/
def uploadTimedOut : List StationEvent :=
  [.controller (.called (.exucuteCommand .isYou 0) {}),
    .controller (.called (.exucuteCommand .isYou 0) {}), .taken, .taken, .engine (.datagram [0, 1]),
    .controller (.called upload {})] ++ callbacks 2 ++ onePpb 1 ++ groupsConfirmed 1 ++
  [.taken, .controller .timedOut, .controller (.resume 0), .taken]

/-- A VOLUME is asked for and waits, and the bridge answers. -/
def volumeAsked : List StationEvent :=
  [.controller (.called (.exucuteCommand .volume 0) {}), .taken, .engine (.datagram [0, 1])]

/-- The update that follows is confirmed in every stage, and has handed over three VOLUMEs: the
first of them is the image that the other update has left in the slot, sent before PROGRAMM. -/
theorem not_updateFirmware_carries : (FirmwareUpdater.buildVolumePayloads
    (FirmwareUpdater.parseHexToDataBlocks (some fourByteImage))).length = 1 ∧
    ∃ s begun s' : Bench,
      Machine.Reach (machine (fun _ _ => 0) .inInitialize) (fun _ _ => True) s ∧
      s.controller.firmware = none ∧ s.calls = [] ∧ s.engine.busy = false ∧
      s.step (fun _ _ => 0) .inInitialize (.controller (.called upload {})) = some begun ∧
      begun.controller.firmware.isSome ∧
      Machine.Reach (updating (fun _ _ => 0) .inInitialize begun) (fun _ _ => True) s' ∧
      finalProgress 1 ∈ s'.controller.log.drop s.controller.log.length ∧
      (s'.handed s.engine.log.length).map (·.take 5) =
        [[0, 0, 3, 0, 1], [0, 0, 3, 0, 1], [0, 0, 3, 0, 3]] := by
  refine ⟨congrArg List.length payloads_fourByteImage, ?_⟩
  have hend : ((Machine.run (step (fun _ _ => 0) .inInitialize) (fun _ _ => True) wired
      (uploadTimedOut ++ volumeAsked)).bind fun s =>
        (s.step (fun _ _ => 0) .inInitialize (.controller (.called upload {}))).bind fun begun =>
          (Machine.run (stepInside (fun _ _ => 0) .inInitialize) (fun _ _ => True) begun
            (callbacks 4 ++ uploadConfirmed 3)).map fun s' =>
              (s.controller.firmware.isNone, s.calls.isEmpty, s.engine.busy,
                begun.controller.firmware.isSome,
                decide (finalProgress 1 ∈ s'.controller.log.drop s.controller.log.length),
                decide ((s'.handed s.engine.log.length).map (·.take 5) =
                  [[0, 0, 3, 0, 1], [0, 0, 3, 0, 1], [0, 0, 3, 0, 3]]))) =
      some (true, true, false, true, true, true) := by
    decide +kernel
  obtain ⟨s, hrun, hend⟩ := Option.bind_eq_some_iff.mp hend
  obtain ⟨begun, hbegun, hend⟩ := Option.bind_eq_some_iff.mp hend
  obtain ⟨s', hrun', heq⟩ := Option.map_eq_some_iff.mp hend
  simp only [Prod.mk.injEq, decide_eq_true_eq] at heq
  obtain ⟨hidle, hcalls, hbusy, haccepted, hfinal, hhanded⟩ := heq
  exact ⟨s, begun, s', .of_run _ (fun _ _ _ h => h) (.start (wired_start _ _)) _ hrun,
    Option.isNone_iff_eq_none.mp hidle, List.isEmpty_iff.mp hcalls, hbusy, hbegun, haccepted,
    .of_run _ (fun _ _ _ h => h) (.start rfl) _ hrun', hfinal, hhanded⟩

end

end Bench

end PPB
