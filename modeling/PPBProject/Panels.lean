import Mathlib.Data.Finset.Basic
import PPBProject.Settings

/- The panels on which the settings of a PPB are edited: the `ControlWidget` of the main window, and
   a `pult` in a window of its own for each PPB. Both fill their fields from the controller, and
   again whenever it says that the settings have changed.

   A handler of the window runs to its end, with the slots that its calls trigger, and is one step.
   The controller's own steps come in between.

   Correspondence (C++ ↔ Lean):
     `emit userSettingsChanged`              ↔ `announced`, told by the event that it ends
     `onUserSettingsChanged` of both panels  ↔ `Panel.fill`
     `setCurrentPPBIndex`, `refreshSettings` ↔ `ControlWidget.setCurrentPPBIndex`, `refreshSettings`
     the PPB's tab, and those selected       ↔ `currentTab`, `selectedTabs`
     a loop over the set `m_selectedTabs`    ↔ `RunsThrough`: some order of it, which the event says
     `m_pultWindows` and the pults in it     ↔ `pults`
     `QString::number`, `QLocale::toFloat`   ↔ `PanelText`
   Left out: what a field accepts while it is edited, colours, icons and the status line, a pult for
   the index -1, which has no address, and the buttons that pass their address on to the controller
   like the one for TC. -/
namespace PPB

/-- How a power is written into a field, and read from it. -/
structure PanelText where
  number : FloatBits → String
  toFloat : String → Option FloatBits

/-- The fields of a panel, and whether the user has written into one since it was filled. A `pult`
has no box for the last flag. -/
structure Panel where
  power1 : String := ""
  power2 : String := ""
  fuBlocked : Bool := false
  rebootRequested : Bool := false
  resetErrors : Bool := false
  powerEnabled : Bool := false
  typed1 : Bool := false
  typed2 : Bool := false
  deriving DecidableEq

/-- `chosen`: the user has chosen in the box of PPBs, and the fields were not filled since. -/
structure ControlWidget where
  panel : Panel := {}
  currentIndex : Fin 16 := 0
  chosen : Bool := false
  deriving DecidableEq

structure Pult where
  address : UInt16
  panel : Panel := {}
  deriving DecidableEq

/-- The controller and the operator's windows. -/
structure Desk where
  controller : PPBController
  controlWidget : ControlWidget := {}
  pults : List Pult := []
  selectedTabs : Finset Int := {0}
  lastSelectedTab : Int := -1
  currentTab : Fin 16 := 0

inductive DeskEvent where
  | controller (e : ControllerEvent)
  | tabClicked (index : Int) (ctrl shift : Bool)
  | tabBarCurrentChanged (index : Fin 16)
  | comboBoxChosen (index : Fin 16)
  | typed (channel : Channel) (text : String)
  | editingFinished (channel : Channel)
  | toggled (flag : SettingsFlag) (checked : Bool)
  | pollStatusClicked (tabs : List Int) (answers : Answers)
  | resetClicked (tabs : List Int)
  | pultClicked (index : Fin 16)
  | pultClosed (k : Nat)
  | pultTyped (k : Nat) (channel : Channel) (text : String)
  | pultEditingFinished (k : Nat) (channel : Channel)
  | pultToggled (k : Nat) (flag : SettingsFlag) (checked : Bool)
  | pultTC (k : Nat)

/-- The number of a PPB as an argument. -/
def ppbIndexOf (i : Fin 16) : UInt8 := i.val.toUInt8

def indexOf? (ppbIndex : UInt8) : Option (Fin 16) :=
  if h : ppbIndex.toNat < 16 then some ⟨ppbIndex.toNat, h⟩ else none

/-- The PPB whose settings the controller says have changed, at the end of an event. -/
def announced (c : PPBController) : ControllerEvent → Option (Fin 16)
  | .called (.setPowerSetting ppbIndex channel _) _ =>
    if channel = 1 ∨ channel = 2 then indexOf? ppbIndex else none
  | .called (.setFuBlockedSetting ppbIndex _) _ => indexOf? ppbIndex
  | .called (.setRebootRequestedSetting ppbIndex _) _ => indexOf? ppbIndex
  | .called (.setResetErrorsSetting ppbIndex _) _ => indexOf? ppbIndex
  | .called (.setPowerEnabledSetting ppbIndex _) _ => indexOf? ppbIndex
  | .called (.resetSettingsToReal ppbIndex) _ => indexOf? ppbIndex
  | .delivered (.statusReceived address _ _) =>
    (addressToIndex address).filter fun i => !c.settingsInitialized i
  | _ => none

namespace Panel

variable (qt : PanelText)

/-- The slot `onUserSettingsChanged`. -/
def fill (settings : PpbUserSettings) : Panel where
  power1 := qt.number settings.power1
  power2 := qt.number settings.power2
  fuBlocked := settings.fuBlocked
  rebootRequested := settings.rebootRequested
  resetErrors := settings.resetErrors
  powerEnabled := settings.powerEnabled

def text (p : Panel) : Channel → String
  | .ch1 => p.power1
  | .ch2 => p.power2

def type (p : Panel) (channel : Channel) (text : String) : Panel :=
  match channel with
  | .ch1 => { p with power1 := text, typed1 := true }
  | .ch2 => { p with power2 := text, typed2 := true }

end Panel

/-- The setter behind a check box. -/
def setFlag (i : Fin 16) (flag : SettingsFlag) (checked : Bool) : PublicCall :=
  match flag with
  | .fuBlocked => .setFuBlockedSetting (ppbIndexOf i) checked
  | .rebootRequested => .setRebootRequestedSetting (ppbIndexOf i) checked
  | .resetErrors => .setResetErrorsSetting (ppbIndexOf i) checked
  | .powerEnabled => .setPowerEnabledSetting (ppbIndexOf i) checked

namespace Desk

variable (codeToVSWR : Nat → UInt16 → FloatBits) (qt : PanelText)

def refreshSettings (s : Desk) : Desk :=
  { s with controlWidget :=
      { s.controlWidget with
        panel := .fill qt (s.controller.userSettings s.controlWidget.currentIndex)
        chosen := false } }

/-- A panel of another PPB does nothing. -/
def onUserSettingsChanged (s : Desk) (i : Fin 16) : Desk :=
  let filled := .fill qt (s.controller.userSettings i)
  let pults := s.pults.map fun p =>
    if addressToIndex p.address = some i then { p with panel := filled } else p
  let s := { s with pults }
  if i = s.controlWidget.currentIndex then s.refreshSettings qt else s

/-- An event of the controller, and then the slots of the panels. -/
def handle (s : Desk) (e : ControllerEvent) : Option Desk :=
  (s.controller.handle codeToVSWR e).map fun controller =>
    let after := { s with controller }
    match announced s.controller e with
    | some i => after.onUserSettingsChanged qt i
    | none => after

/-- A call from a window. -/
def call (s : Desk) (call : PublicCall) : Option Desk := s.handle codeToVSWR qt (.called call {})

/-! The tabs. -/

def setCurrentPPBIndex (s : Desk) (index : Fin 16) : Desk :=
  { s with controlWidget := { s.controlWidget with currentIndex := index } }.refreshSettings qt

def onTabBarCurrentChanged (s : Desk) (index : Fin 16) : Desk :=
  { s with currentTab := index }.setCurrentPPBIndex qt index

/-- `QTabBar::setCurrentIndex`: nothing happens if the index is no tab's, or the current one's. -/
def setCurrentIndex (s : Desk) (index : Int) : Desk :=
  if h : 0 ≤ index ∧ index < 16 then
    let tab : Fin 16 := ⟨index.toNat, by omega⟩
    if tab = s.currentTab then s else s.onTabBarCurrentChanged qt tab
  else s

/-- The tabs from `start` on, `count` of them. -/
def insertTabs (tabs : Finset Int) (start : Int) (count : Nat) : Finset Int :=
  (List.range count).foldl (fun tabs n => insert (start + n) tabs) tabs

def onTabClicked (s : Desk) (index : Int) (ctrl shift : Bool) : Desk :=
  let selectedTabs :=
    if ctrl then
      if index ∈ s.selectedTabs then s.selectedTabs.erase index else insert index s.selectedTabs
    else if shift ∧ s.lastSelectedTab ≠ -1 then
      let start := min s.lastSelectedTab index
      insertTabs s.selectedTabs start (max s.lastSelectedTab index - start + 1).toNat
    else {index}
  { s with selectedTabs, lastSelectedTab := index }.setCurrentIndex qt index

/-- A loop over the selected tabs comes to each of them once, in the order of their hashes. -/
def RunsThrough (s : Desk) (tabs : List Int) : Prop := tabs.Nodup ∧ tabs.toFinset = s.selectedTabs

instance (s : Desk) (tabs : List Int) : Decidable (s.RunsThrough tabs) :=
  inferInstanceAs (Decidable (_ ∧ _))

/-- The tabs that are PPBs'. -/
def selectedPPBs (tabs : List Int) : List (Fin 16) :=
  tabs.filterMap fun index =>
    if h : 0 ≤ index ∧ index < 16 then some ⟨index.toNat, by omega⟩ else none

def getSelectedAddresses (tabs : List Int) : List UInt16 :=
  (selectedPPBs tabs).map fun i => (1 : UInt16) <<< i.val.toUInt16

def getSelectedMask (tabs : List Int) : UInt16 :=
  (getSelectedAddresses tabs).foldl (fun mask address => mask ||| address) 0

/-! The handlers of the panels. -/

/-- `onPower1Changed` and `onPower2Changed` of the control widget: the field of the channel. -/
def onPowerChanged (s : Desk) (channel : Channel) : Option Desk :=
  match qt.toFloat (s.controlWidget.panel.text channel) with
  | some watts =>
    s.call codeToVSWR qt
      (.setPowerSetting (ppbIndexOf s.controlWidget.currentIndex) channel.number watts)
  | none => some s

/-- `onPower1Changed` and `onPower2Changed` of a pult: both read the first field. -/
def onPultPowerChanged (s : Desk) (p : Pult) (channel : Channel) : Option Desk :=
  match qt.toFloat p.panel.power1, addressToIndex p.address with
  | some watts, some i =>
    s.call codeToVSWR qt (.setPowerSetting (ppbIndexOf i) channel.number watts)
  | _, _ => some s

def onPultToggled (s : Desk) (p : Pult) (flag : SettingsFlag) (checked : Bool) : Option Desk :=
  match addressToIndex p.address with
  | some i => s.call codeToVSWR qt (setFlag i flag checked)
  | none => some s

/-- A pult that is open already is shown. -/
def onPultClicked (s : Desk) (i : Fin 16) : Desk :=
  let address : UInt16 := 1 <<< i.val.toUInt16
  if s.pults.any fun p => p.address = address then s
  else { s with pults := s.pults ++ [⟨address, .fill qt (s.controller.userSettings i)⟩] }

/-- Without a selection there is nothing to poll. -/
def onPollStatusClicked (s : Desk) (tabs : List Int) (answers : Answers) : Option Desk :=
  if s.controller.isBusy answers then some s
  else if getSelectedMask tabs = 0 then some s
  else s.handle codeToVSWR qt (.called (.requestStatus (getSelectedMask tabs)) answers)

def onResetClicked (s : Desk) (tabs : List Int) : Option Desk :=
  (getSelectedAddresses tabs).foldlM (fun s address => s.call codeToVSWR qt (.sendTC address)) s

def withPult (s : Desk) (k : Nat) (f : Pult → Option Desk) : Option Desk := s.pults[k]?.bind f

def step (s : Desk) : DeskEvent → Option Desk
  | .controller e => s.handle codeToVSWR qt e
  | .tabClicked index ctrl shift => some (s.onTabClicked qt index ctrl shift)
  | .tabBarCurrentChanged index => some (s.onTabBarCurrentChanged qt index)
  | .comboBoxChosen index =>
    if index = s.controlWidget.currentIndex then some s
    else
      some { s with
        controlWidget := { s.controlWidget with currentIndex := index, chosen := true } }
  | .typed channel text =>
    some { s with controlWidget :=
      { s.controlWidget with panel := s.controlWidget.panel.type channel text } }
  | .editingFinished channel => s.onPowerChanged codeToVSWR qt channel
  | .toggled flag checked =>
    s.call codeToVSWR qt (setFlag s.controlWidget.currentIndex flag checked)
  | .pollStatusClicked tabs answers =>
    if s.RunsThrough tabs then s.onPollStatusClicked codeToVSWR qt tabs answers else none
  | .resetClicked tabs => if s.RunsThrough tabs then s.onResetClicked codeToVSWR qt tabs else none
  | .pultClicked i => if (i.val : Int) ∈ s.selectedTabs then some (s.onPultClicked qt i) else none
  | .pultClosed k => s.withPult k fun _ => some { s with pults := s.pults.eraseIdx k }
  | .pultTyped k channel text => s.withPult k fun p =>
    some { s with pults := s.pults.set k { p with panel := p.panel.type channel text } }
  | .pultEditingFinished k channel => s.withPult k fun p =>
    s.onPultPowerChanged codeToVSWR qt p channel
  | .pultToggled k flag checked => s.withPult k fun p =>
    if flag = .powerEnabled then none else s.onPultToggled codeToVSWR qt p flag checked
  | .pultTC k => s.withPult k fun p => s.call codeToVSWR qt (.sendTC p.address)

end Desk

/-- The desk as it is set up, over a controller in any state. -/
def desk (codeToVSWR : Nat → UInt16 → FloatBits) (qt : PanelText) :
    Machine.System Desk DeskEvent where
  start s := ∃ controller, s = ({ controller } : Desk).refreshSettings qt
  step s e s' := s.step codeToVSWR qt e = some s'

/-! Every change is announced. -/

namespace PPBController

variable {codeToVSWR : Nat → UInt16 → FloatBits} {c c' : PPBController} {i : Fin 16}

theorem updateSettings_of_ne (ppbIndex : UInt8) (change : PpbUserSettings → PpbUserSettings)
    (hne : indexOf? ppbIndex ≠ some i) :
    (c.updateSettings ppbIndex change).userSettings i = c.userSettings i := by
  unfold indexOf? at hne
  unfold updateSettings
  split
  next hlt =>
    rw [dif_pos hlt] at hne
    exact Function.update_of_ne (fun heq => hne (congrArg some heq.symm)) _ _
  next => rfl

/-- A setter that announces nothing changes nothing. -/
theorem userSettings_take {answers : Answers} {call : PublicCall}
    (hne : announced c (.called call answers) ≠ some i) :
    (c.take answers call).userSettings i = c.userSettings i := by
  cases hedits : call.edits with
  | false =>
    exact congrFun (congrArg (fun r => r.2.1) (records_take c answers hedits)) i
  | true =>
    cases call with
    | setPowerSetting ppbIndex channel watts =>
      by_cases hchannel : channel = 1 ∨ channel = 2
      · apply updateSettings_of_ne
        dsimp only [announced] at hne
        rwa [if_pos hchannel] at hne
      · obtain ⟨hne1, hne2⟩ := not_or.mp hchannel
        change (c.updateSettings ppbIndex _).userSettings i = _
        unfold updateSettings
        split
        next =>
          dsimp only
          rw [Function.update_eq_self]
        next => rfl
    | setFuBlockedSetting ppbIndex value => exact updateSettings_of_ne ppbIndex _ hne
    | setRebootRequestedSetting ppbIndex value => exact updateSettings_of_ne ppbIndex _ hne
    | setResetErrorsSetting ppbIndex value => exact updateSettings_of_ne ppbIndex _ hne
    | setPowerEnabledSetting ppbIndex value => exact updateSettings_of_ne ppbIndex _ hne
    | resetSettingsToReal ppbIndex =>
      change (c.resetSettingsToReal ppbIndex).userSettings i = _
      unfold resetSettingsToReal
      split
      next => exact updateSettings_of_ne ppbIndex _ hne
      next => rfl
    | _ => cases hedits

theorem userSettings_handle {e : ControllerEvent} (hstep : c.handle codeToVSWR e = some c')
    (hne : announced c e ≠ some i) : c'.userSettings i = c.userSettings i := by
  cases e with
  | called call answers =>
    cases hstep
    exact userSettings_take hne
  | delivered signal =>
    cases hstep
    cases signal with
    | statusReceived address mask blocks =>
      have hrecord := @recordOf_onStatusReceived codeToVSWR i c.toPpbData address mask blocks
      by_cases hself : addressToIndex address = some i
      · have hstarted : c.settingsInitialized i = true := by
          dsimp only [announced] at hne
          rw [hself] at hne
          by_contra hnot
          apply hne
          rw [Option.filter_some, Bool.eq_false_iff.mpr hnot]
          rfl
        rw [recordOf_processStatusData_self _ _ _ hself, hstarted] at hrecord
        exact congrArg (fun r => r.2.1) hrecord
      · rw [recordOf_processStatusData_other _ _ _ hself] at hrecord
        exact congrArg (fun r => r.2.1) hrecord
    | commandDataParsed address data command =>
      exact congrFun (@onCommandDataParsed_powers i
        (c.emit (.delivered (.commandDataParsed address data command))) address data command).1 i
    | _ => rfl
  | _ => exact congrFun (congrArg (fun r => r.2.1) (records_of_data (data_handle hstep rfl))) i

end PPBController

/-! What the panels show. -/

namespace Panel

variable {qt : PanelText} {p : Panel} {settings : PpbUserSettings}

/-- The panel shows the settings, but for what is being written. -/
structure Shows (qt : PanelText) (p : Panel) (settings : PpbUserSettings) : Prop where
  power1 : p.typed1 = false → p.power1 = qt.number settings.power1
  power2 : p.typed2 = false → p.power2 = qt.number settings.power2
  fuBlocked : p.fuBlocked = settings.fuBlocked
  rebootRequested : p.rebootRequested = settings.rebootRequested
  resetErrors : p.resetErrors = settings.resetErrors
  powerEnabled : p.powerEnabled = settings.powerEnabled

theorem shows_fill (settings : PpbUserSettings) : (fill qt settings).Shows qt settings :=
  ⟨fun _ => rfl, fun _ => rfl, rfl, rfl, rfl, rfl⟩

theorem Shows.type (h : p.Shows qt settings) (channel : Channel) (text : String) :
    (p.type channel text).Shows qt settings := by
  cases channel with
  | ch1 =>
    refine ⟨?_, h.power2, h.fuBlocked, h.rebootRequested, h.resetErrors, h.powerEnabled⟩
    intro hnot
    cases hnot
  | ch2 =>
    refine ⟨h.power1, ?_, h.fuBlocked, h.rebootRequested, h.resetErrors, h.powerEnabled⟩
    intro hnot
    cases hnot

end Panel

namespace Desk

variable {codeToVSWR : Nat → UInt16 → FloatBits} {qt : PanelText} {s s' : Desk}

/-- Every pult shows the settings of its PPB, and so does the control widget unless its PPB has been
chosen since its fields were filled. -/
structure InStep (qt : PanelText) (s : Desk) : Prop where
  pults : ∀ p ∈ s.pults, ∀ i, addressToIndex p.address = some i →
    p.panel.Shows qt (s.controller.userSettings i)
  controlWidget : s.controlWidget.chosen = false →
    s.controlWidget.panel.Shows qt (s.controller.userSettings s.controlWidget.currentIndex)

theorem InStep.refreshSettings (hpults : ∀ p ∈ s.pults, ∀ i, addressToIndex p.address = some i →
    p.panel.Shows qt (s.controller.userSettings i)) : (s.refreshSettings qt).InStep qt :=
  ⟨hpults, fun _ => Panel.shows_fill _⟩

/-- The slots mend what a change has spoilt. -/
theorem inStep_onUserSettingsChanged {i : Fin 16}
    (hpults : ∀ p ∈ s.pults, ∀ j ≠ i, addressToIndex p.address = some j →
      p.panel.Shows qt (s.controller.userSettings j))
    (hwidget : s.controlWidget.currentIndex ≠ i → s.controlWidget.chosen = false →
      s.controlWidget.panel.Shows qt (s.controller.userSettings s.controlWidget.currentIndex)) :
    (s.onUserSettingsChanged qt i).InStep qt := by
  have hfilled : ∀ p ∈ s.pults.map (fun p => if addressToIndex p.address = some i then
        { p with panel := .fill qt (s.controller.userSettings i) } else p),
      ∀ j, addressToIndex p.address = some j →
        p.panel.Shows qt (s.controller.userSettings j) := by
    intro p hp j hj
    obtain ⟨p, hold, rfl⟩ := List.mem_map.mp hp
    split at hj
    next hself =>
      rw [if_pos hself]
      change addressToIndex p.address = some j at hj
      obtain rfl : i = j := Option.some.inj (hself.symm.trans hj)
      exact Panel.shows_fill _
    next hother =>
      rw [if_neg hother]
      exact hpults p hold j (fun heq => hother (heq ▸ hj)) hj
  unfold onUserSettingsChanged
  dsimp only
  split
  next => exact InStep.refreshSettings hfilled
  next hne => exact ⟨hfilled, hwidget (Ne.symm hne)⟩

/-- Whatever the controller does. -/
theorem InStep.handle (h : s.InStep qt) {e : ControllerEvent}
    (hstep : s.handle codeToVSWR qt e = some s') : s'.InStep qt := by
  obtain ⟨controller, hcontroller, rfl⟩ := Option.map_eq_some_iff.mp hstep
  have hsame (i : Fin 16) (hne : announced s.controller e ≠ some i) :
      controller.userSettings i = s.controller.userSettings i :=
    PPBController.userSettings_handle hcontroller hne
  split
  next i hannounced =>
    have hother (j : Fin 16) (hne : j ≠ i) : announced s.controller e ≠ some j := by
      rw [hannounced]
      exact fun heq => hne (Option.some.inj heq).symm
    apply inStep_onUserSettingsChanged
    · intro p hp j hne hj
      change p.panel.Shows qt (controller.userSettings j)
      rw [hsame j (hother j hne)]
      exact h.pults p hp j hj
    · intro hne hchosen
      change s.controlWidget.panel.Shows qt (controller.userSettings s.controlWidget.currentIndex)
      rw [hsame _ (hother _ hne)]
      exact h.controlWidget hchosen
  next hnone =>
    have hnone' (j : Fin 16) : announced s.controller e ≠ some j := by
      rw [hnone]
      exact (Option.some_ne_none j).symm
    constructor
    · intro p hp j hj
      change p.panel.Shows qt (controller.userSettings j)
      rw [hsame j (hnone' j)]
      exact h.pults p hp j hj
    · intro hchosen
      change s.controlWidget.panel.Shows qt (controller.userSettings s.controlWidget.currentIndex)
      rw [hsame _ (hnone' _)]
      exact h.controlWidget hchosen

theorem InStep.call (h : s.InStep qt) {call : PublicCall}
    (hstep : s.call codeToVSWR qt call = some s') : s'.InStep qt :=
  h.handle hstep

theorem InStep.setCurrentIndex (h : s.InStep qt) (index : Int) :
    (s.setCurrentIndex qt index).InStep qt := by
  unfold Desk.setCurrentIndex
  split
  next =>
    dsimp only
    split
    next => exact h
    next => exact InStep.refreshSettings h.pults
  next => exact h

theorem InStep.onTabClicked (h : s.InStep qt) (index : Int) (ctrl shift : Bool) :
    (s.onTabClicked qt index ctrl shift).InStep qt := by
  unfold Desk.onTabClicked
  apply InStep.setCurrentIndex
  exact ⟨h.pults, h.controlWidget⟩

theorem InStep.onResetClicked (h : s.InStep qt) {tabs : List Int}
    (hstep : s.onResetClicked codeToVSWR qt tabs = some s') : s'.InStep qt := by
  unfold Desk.onResetClicked at hstep
  generalize getSelectedAddresses tabs = addresses at hstep
  induction addresses generalizing s with
  | nil =>
    cases hstep
    exact h
  | cons address addresses ih =>
    rw [List.foldlM_cons] at hstep
    obtain ⟨next, hcall, hrest⟩ := Option.bind_eq_some_iff.mp hstep
    exact ih (h.call hcall) hrest

/-- A pult among the others that shows what it should. -/
theorem InStep.set_pult (h : s.InStep qt) {k : Nat} {p : Pult}
    (hp : ∀ i, addressToIndex p.address = some i →
      p.panel.Shows qt (s.controller.userSettings i)) :
    ({ s with pults := s.pults.set k p } : Desk).InStep qt := by
  refine ⟨fun p' hp' i hi => ?_, h.controlWidget⟩
  cases List.mem_or_eq_of_mem_set hp' with
  | inl hold => exact h.pults p' hold i hi
  | inr heq =>
    subst heq
    exact hp i hi

theorem InStep.onPultClicked (h : s.InStep qt) (i : Fin 16) :
    (s.onPultClicked qt i).InStep qt := by
  unfold Desk.onPultClicked
  dsimp only
  split
  next => exact h
  next =>
    refine ⟨fun p hp j hj => ?_, h.controlWidget⟩
    cases List.mem_append.mp hp with
    | inl hold => exact h.pults p hold j hj
    | inr hnew =>
      cases List.mem_singleton.mp hnew
      obtain rfl : i = j := Option.some.inj ((addressToIndex_single i).symm.trans hj)
      exact Panel.shows_fill _

/-- The step lemma. -/
theorem InStep.step (h : s.InStep qt) {e : DeskEvent}
    (hstep : s.step codeToVSWR qt e = some s') : s'.InStep qt := by
  cases e with
  | controller e => exact h.handle hstep
  | tabClicked index ctrl shift =>
    cases hstep
    exact h.onTabClicked index ctrl shift
  | tabBarCurrentChanged index =>
    cases hstep
    exact InStep.refreshSettings h.pults
  | comboBoxChosen index =>
    dsimp only [Desk.step] at hstep
    split at hstep
    next =>
      cases hstep
      exact h
    next =>
      cases hstep
      refine ⟨h.pults, fun hnot => ?_⟩
      cases hnot
  | typed channel text =>
    cases hstep
    exact ⟨h.pults, fun hchosen => (h.controlWidget hchosen).type channel text⟩
  | editingFinished channel =>
    dsimp only [Desk.step, Desk.onPowerChanged] at hstep
    split at hstep
    next => exact h.call hstep
    next =>
      cases hstep
      exact h
  | toggled flag checked => exact h.call hstep
  | pollStatusClicked tabs answers =>
    obtain ⟨-, hpolled⟩ := Option.ite_none_right_eq_some.mp hstep
    unfold Desk.onPollStatusClicked at hpolled
    split at hpolled
    next =>
      cases hpolled
      exact h
    next =>
      split at hpolled
      next =>
        cases hpolled
        exact h
      next => exact h.handle hpolled
  | resetClicked tabs =>
    obtain ⟨-, hreset⟩ := Option.ite_none_right_eq_some.mp hstep
    exact h.onResetClicked hreset
  | pultClicked i =>
    dsimp only [Desk.step] at hstep
    split at hstep
    next =>
      cases hstep
      exact h.onPultClicked i
    next => cases hstep
  | pultClosed k =>
    obtain ⟨p, hp, hclosed⟩ := Option.bind_eq_some_iff.mp hstep
    cases hclosed
    exact ⟨fun p hp => h.pults p (List.mem_of_mem_eraseIdx hp), h.controlWidget⟩
  | pultTyped k channel text =>
    obtain ⟨p, hp, htyped⟩ := Option.bind_eq_some_iff.mp hstep
    cases htyped
    apply h.set_pult
    exact fun i hi => (h.pults p (List.mem_of_getElem? hp) i hi).type channel text
  | pultEditingFinished k channel =>
    obtain ⟨p, hp, hedited⟩ := Option.bind_eq_some_iff.mp hstep
    dsimp only [Desk.onPultPowerChanged] at hedited
    split at hedited
    next => exact h.call hedited
    next =>
      cases hedited
      exact h
  | pultToggled k flag checked =>
    obtain ⟨p, hp, htoggled⟩ := Option.bind_eq_some_iff.mp hstep
    split at htoggled
    next => cases htoggled
    next =>
      dsimp only [Desk.onPultToggled] at htoggled
      split at htoggled
      next => exact h.call htoggled
      next =>
        cases htoggled
        exact h
  | pultTC k =>
    obtain ⟨p, hp, hsent⟩ := Option.bind_eq_some_iff.mp hstep
    exact h.call hsent

/-- **Every panel shows the settings it edits.** Whatever the operator, the scenarios and the PPBs
do, a pult shows its PPB's settings, and so does the control widget until another PPB is chosen in
its box. -/
theorem panels_in_step (h : Machine.Reach (desk codeToVSWR qt) (fun _ _ => True) s) :
    s.InStep qt := by
  apply h.invariant
  · rintro s ⟨controller, rfl⟩
    apply InStep.refreshSettings
    intro p hp
    cases hp
  · exact fun s e s' hs _ hstep => hs.step hstep

/-! What an edit comes to. -/

theorem indexOf?_ppbIndexOf (i : Fin 16) : indexOf? (ppbIndexOf i) = some i := by
  decide +revert

theorem userSettings_setPowerSetting (c : PPBController) (i : Fin 16) (channel : Channel)
    (watts : FloatBits) :
    (c.setPowerSetting (ppbIndexOf i) channel.number watts).userSettings i =
      match channel with
      | .ch1 => { c.userSettings i with power1 := watts }
      | .ch2 => { c.userSettings i with power2 := watts } := by
  have hindex := indexOf?_ppbIndexOf i
  unfold indexOf? at hindex
  unfold PPBController.setPowerSetting PPBController.updateSettings
  split at hindex
  next hlt =>
    rw [dif_pos hlt]
    dsimp only
    rw [Option.some.inj hindex, Function.update_self]
    cases channel with
    | ch1 => rfl
    | ch2 => rfl
  next => cases hindex

/-- The slots of the panels leave the controller alone. -/
theorem controller_onUserSettingsChanged (s : Desk) (i : Fin 16) :
    (s.onUserSettingsChanged qt i).controller = s.controller := by
  unfold onUserSettingsChanged
  dsimp only
  split
  next => rfl
  next => rfl

theorem controller_call {call : PublicCall} (hstep : s.call codeToVSWR qt call = some s') :
    s'.controller = s.controller.take {} call := by
  unfold Desk.call Desk.handle at hstep
  obtain ⟨controller, hcontroller, rfl⟩ := Option.map_eq_some_iff.mp hstep
  cases hcontroller
  split
  next => exact controller_onUserSettingsChanged _ _
  next => rfl

/-- In the control widget a power becomes what its field says, if that is a number. -/
theorem power_editingFinished {channel : Channel}
    (hstep : s.step codeToVSWR qt (.editingFinished channel) = some s') :
    (s'.controller.userSettings s.controlWidget.currentIndex).power channel =
      (qt.toFloat (s.controlWidget.panel.text channel)).getD
        ((s.controller.userSettings s.controlWidget.currentIndex).power channel) := by
  dsimp only [step, onPowerChanged] at hstep
  split at hstep
  next watts hwatts =>
    rw [controller_call hstep, hwatts]
    change ((s.controller.setPowerSetting _ _ watts).userSettings _).power channel = watts
    rw [userSettings_setPowerSetting]
    cases channel with
    | ch1 => rfl
    | ch2 => rfl
  next hnone =>
    cases hstep
    rw [hnone]
    rfl

/-- **On a pult the second power is the first.** Whatever is written into the second field, editing
it sets the power to the one that the first field shows, or not at all. -/
theorem pult_power2_copied (h : Machine.Reach (desk codeToVSWR qt) (fun _ _ => True) s) {k : Nat}
    {p : Pult} {i : Fin 16} (hp : s.pults[k]? = some p) (hi : addressToIndex p.address = some i)
    (htyped : p.panel.typed1 = false)
    (hstep : s.step codeToVSWR qt (.pultEditingFinished k .ch2) = some s') :
    s'.controller.userSettings i =
      { s.controller.userSettings i with
        power2 := (qt.toFloat (qt.number (s.controller.userSettings i).power1)).getD
          (s.controller.userSettings i).power2 } := by
  have hshown := ((panels_in_step h).pults p (List.mem_of_getElem? hp) i hi).power1 htyped
  obtain ⟨p', hp', hedited⟩ := Option.bind_eq_some_iff.mp hstep
  obtain rfl : p = p' := Option.some.inj (hp.symm.trans hp')
  dsimp only [onPultPowerChanged] at hedited
  rw [hi, hshown] at hedited
  split at hedited
  next watts j hwatts hj =>
    cases hj
    rw [controller_call hedited, hwatts]
    exact userSettings_setPowerSetting s.controller i .ch2 watts
  next hnot =>
    cases hedited
    cases hwatts : qt.toFloat (qt.number (s.controller.userSettings i).power1) with
    | some watts => exact absurd rfl (hnot watts i hwatts)
    | none => rfl

/-! What the button for TC sends. -/

/-- The loop comes to each selected PPB once. -/
theorem RunsThrough.selectedPPBs {tabs : List Int} (h : s.RunsThrough tabs) :
    (Desk.selectedPPBs tabs).Nodup ∧
      ∀ i, i ∈ Desk.selectedPPBs tabs ↔ (i.val : Int) ∈ s.selectedTabs := by
  have hmem (i : Fin 16) (index : Int) :
      (if h : 0 ≤ index ∧ index < 16 then some (⟨index.toNat, by omega⟩ : Fin 16) else none) =
        some i ↔ index = i.val := by
    split
    next hrange =>
      rw [Option.some_inj, Fin.ext_iff]
      dsimp only
      omega
    next hrange => simp; omega
  constructor
  · refine h.1.filterMap fun index index' i hi hi' => ?_
    rw [(hmem i index).mp hi, (hmem i index').mp hi']
  · intro i
    rw [Desk.selectedPPBs, List.mem_filterMap, ← h.2, List.mem_toFinset]
    simp only [hmem, exists_eq_right]

/-- Three powers, written as whole watts. -/
def wholeWatts : PanelText where
  number watts := if watts = 0 then "0" else if watts = 0x40400000 then "3" else "7"
  toFloat text :=
    if text = "0" then some 0 else if text = "3" then some 0x40400000
    else if text = "7" then some 0x40E00000 else none

/-- The first power of a PPB is set in the main window, and a second one written on its pult. -/
theorem exists_typed : ∃ s : Desk,
    Machine.Reach (desk (fun _ _ => 0) wholeWatts) (fun _ _ => True) s ∧
      s.controller.communication = some 0 ∧ s.controller.firmware = none ∧
        s.controller.userSettings 0 = { power1 := 0x40E00000 } ∧ s.selectedTabs = {1, 0} ∧
          s.pults = [⟨1, { power1 := "7", power2 := "3", typed2 := true }⟩] := by
  refine ⟨_, Machine.Reach.of_run (M := desk (fun _ _ => 0) wholeWatts)
    (Desk.step (fun _ _ => 0) wholeWatts) (fun _ _ _ hstep => hstep)
    (.start ⟨PPBController.init (some 0) none, rfl⟩)
    [.pultClicked 0, .typed .ch1 "7", .editingFinished .ch1, .pultTyped 0 .ch2 "3",
      .tabClicked 1 true false] rfl,
    ?_, ?_, ?_, ?_, ?_⟩
  all_goals rfl

theorem panels_in_step_typed : ∃ s : Desk, s.pults.length = 1 ∧ s.InStep wholeWatts := by
  obtain ⟨s, hs, -, -, -, -, hpults⟩ := exists_typed
  exact ⟨s, congrArg List.length hpults, panels_in_step hs⟩

/-- The three watts that were written become the seven of the first field. -/
theorem pult_power2_copied_typed : ∃ s s' : Desk,
    s.step (fun _ _ => 0) wholeWatts (.pultEditingFinished 0 .ch2) = some s' ∧
      s'.controller.userSettings 0 = { power1 := 0x40E00000, power2 := 0x40E00000 } := by
  obtain ⟨s, hs, -, -, hsettings, -, hpults⟩ := exists_typed
  have hp : s.pults[0]? = some ⟨1, { power1 := "7", power2 := "3", typed2 := true }⟩ := by
    rw [hpults]
    rfl
  obtain ⟨s', hstep⟩ : ∃ s', s.step (fun _ _ => 0) wholeWatts (.pultEditingFinished 0 .ch2) =
      some s' := by
    dsimp only [step, withPult]
    rw [hp]
    exact ⟨_, rfl⟩
  refine ⟨s, s', hstep, ?_⟩
  rw [pult_power2_copied hs hp (addressToIndex_single 0) rfl hstep, hsettings]
  rfl

end Desk

end PPB
