import PPBProject.Lib.Machine

/- The signal generator's lifetime: `ApplicationManager` owns it, and `PPBController`, the main
   window and the Gratten page hold pointers to it.

   Each object that is created has a number. `deleteLater` only marks an object. It is gone when
   control is back in the event loop, and not before: the loop of the dialog in which the user
   chooses between two generators is one within.

   Correspondence (C++ ↔ Lean):
     `m_signalGenerator`, a `unique_ptr` that marks     ↔ `signalGenerator`, `own`, `reset`
     `PPBController::m_akip`                            ↔ `akip`
     `TesterWindow::m_signalGenerator`                  ↔ `window`
     the `GrattenControlWidget` and its `m_controller`  ↔ `grattenWidget`
     what the two probes find, and the dialog's button  ↔ `Detection`
     the two halves of `reconnectGenerator`             ↔ `GeneratorEvent.clicked` and `detected`
   Left out: what is sent to a generator that has been opened, the texts of the log, and the rest of
   the application's start. -/
namespace PPB

inductive GeneratorKind where
  | akip
  | gratten
  | mock
  deriving DecidableEq

inductive GeneratorChoice where
  | akip
  | gratten
  | cancelled
  deriving DecidableEq

/-- A run of `detectAndSelectGenerator`: the identity each probe reads if it opens its device, the
choice between two, whether the generator opens, and whether it is available to the window. -/
structure Detection where
  akipIdn : Option String := none
  grattenIdn : Option String := none
  choice : GeneratorChoice := .cancelled
  opens : Bool := false
  available : Bool := false
  deriving DecidableEq

/-- The pages of `generatorStack`. -/
inductive GeneratorPage where
  | manual
  | akip
  | gratten
  deriving DecidableEq

/-- `created` lists the generators that the application has made for itself. `reconnects` counts the
reconnections, and `builtAt` is their number when the Gratten page got its widget. -/
structure ApplicationManager where
  testMode : Bool := false
  created : List GeneratorKind := []
  doomed : List Nat := []
  deleted : List Nat := []
  signalGenerator : Option Nat := none
  akip : Option Nat := none
  window : Option Nat := none
  page : GeneratorPage := .manual
  grattenWidget : Option Nat := none
  detecting : Bool := false
  reconnects : Nat := 0
  builtAt : Nat := 0
  deriving DecidableEq

/-- What can happen once the application has started. A click on the page is one whose handler comes
to call the generator: an empty command is not sent, nor a text that is no number. -/
inductive GeneratorEvent where
  | clicked
  | detected (d : Detection)
  | looped
  | generatorCall
  | pageClicked
  deriving DecidableEq

/-- Which generator is made, outside of the test mode. -/
def Detection.selected (d : Detection) : Option GeneratorKind :=
  let akipOk := d.akipIdn.any fun idn => idn ≠ ""
  let grattenOk := d.grattenIdn.any fun idn => idn ≠ ""
  if akipOk && grattenOk then
    match d.choice with
    | .akip => some .akip
    | .gratten => some .gratten
    | .cancelled => none
  else if akipOk then some .akip
  else if grattenOk then some .gratten
  else none

namespace ApplicationManager

def create (s : ApplicationManager) (kind : GeneratorKind) : ApplicationManager :=
  { s with created := s.created ++ [kind] }

/-- `reset` of the pointer. -/
def reset (s : ApplicationManager) : ApplicationManager :=
  { s with doomed := s.doomed ++ s.signalGenerator.toList, signalGenerator := none }

/-- Assignment to the pointer. -/
def own (s : ApplicationManager) (generator : Nat) : ApplicationManager :=
  { s.reset with signalGenerator := some generator }

/-- A mock that does not open belongs to nobody. -/
def detectAndSelectGenerator (s : ApplicationManager) (d : Detection) : ApplicationManager :=
  let generator := s.created.length
  if s.testMode then
    let s := s.create .mock
    if d.opens then s.own generator else s
  else
    match d.selected with
    | none => s
    | some kind =>
      let s := (s.create kind).own generator
      if d.opens then s else s.reset

/-- The Gratten page gets its widget once. -/
def updateGeneratorUi (s : ApplicationManager) (available : Bool) : ApplicationManager :=
  match s.window with
  | none => { s with page := .manual }
  | some generator =>
    if !available then { s with page := .manual }
    else
      match s.created[generator]? with
      | some .akip => { s with page := .akip }
      | some .gratten | some .mock =>
        let s := { s with page := .gratten }
        if s.grattenWidget.isNone then
          { s with grattenWidget := some generator, builtAt := s.reconnects }
        else s
      | none => { s with page := .manual }

def setSignalGeneratorController (s : ApplicationManager) (ctrl : Option Nat) (available : Bool) :
    ApplicationManager :=
  { s with window := ctrl }.updateGeneratorUi available

def setAkipInterface (s : ApplicationManager) (akip : Option Nat) : ApplicationManager :=
  { s with akip }

/-- The generator's part of the start. -/
def initialized (testMode : Bool) (d : Detection) : ApplicationManager :=
  let s := detectAndSelectGenerator { testMode } d
  let s := if s.signalGenerator.isSome then s.setAkipInterface s.signalGenerator else s
  s.setSignalGeneratorController s.signalGenerator d.available

/-- `reconnectGenerator`, up to the detection. -/
def reconnectGenerator (s : ApplicationManager) : ApplicationManager :=
  { s.reset with detecting := true, reconnects := s.reconnects + 1 }

/-- The rest of it: only the window is told, and only of a generator. -/
def reconnected (s : ApplicationManager) (d : Detection) : ApplicationManager :=
  let s := { s.detectAndSelectGenerator d with detecting := false }
  if s.signalGenerator.isSome then s.setSignalGeneratorController s.signalGenerator d.available
  else s

/-- The event loop deletes what is marked. -/
def deleteDoomed (s : ApplicationManager) : ApplicationManager :=
  { s with deleted := s.deleted ++ s.doomed, doomed := [] }

/-- A call of the controller's, from a scenario, may come during the dialog; a click may not. -/
def step (s : ApplicationManager) : GeneratorEvent → Option ApplicationManager
  | .clicked => if s.detecting then none else some s.reconnectGenerator
  | .detected d => if s.detecting then some (s.reconnected d) else none
  | .looped => if s.detecting then none else some s.deleteDoomed
  | .generatorCall => some s
  | .pageClicked => if s.detecting = false ∧ s.page = .gratten then some s else none

/-- The generator that a step follows a pointer to. -/
def followed (s : ApplicationManager) : GeneratorEvent → Option Nat
  | .clicked => s.signalGenerator
  | .detected d => (s.detectAndSelectGenerator d).signalGenerator
  | .generatorCall => s.akip
  | .pageClicked => s.grattenWidget
  | .looped => none

/-- The step follows a pointer to a generator that is gone. -/
def Faults (s : ApplicationManager) (e : GeneratorEvent) : Prop :=
  ∃ generator ∈ s.followed e, generator ∈ s.deleted

end ApplicationManager

/-- The application, its user and its scenarios. -/
def applicationManager : Machine.System ApplicationManager GeneratorEvent where
  start s := ∃ testMode d, s = .initialized testMode d
  step s e s' := s.step e = some s'

namespace ApplicationManager

variable {s s' : ApplicationManager}

/-- The generator is marked, or gone. -/
def Fallen (s : ApplicationManager) (generator : Nat) : Prop :=
  generator ∈ s.doomed ∨ generator ∈ s.deleted

/-- The pointer of one who was told at reconnection `at'`: until the next, it is the owner's. -/
def Held (s : ApplicationManager) (since generator : Nat) : Prop :=
  since = s.reconnects ∧ s.signalGenerator = some generator ∨
    since < s.reconnects ∧ s.Fallen generator

structure Sound (s : ApplicationManager) : Prop where
  owned : ∀ generator ∈ s.signalGenerator, generator < s.created.length ∧ ¬s.Fallen generator
  created : ∀ generator, s.Fallen generator → generator < s.created.length
  detecting : s.detecting = true → s.signalGenerator = none
  akip : ∀ generator ∈ s.akip, s.Held 0 generator
  grattenWidget : ∀ generator ∈ s.grattenWidget, s.Held s.builtAt generator

/-! The detection. -/

/-- One generator more at most, which is owned or marked or a mock of nobody's. -/
theorem detectAndSelectGenerator_cases (hnone : s.signalGenerator = none) (d : Detection) :
    s.detectAndSelectGenerator d = s ∨
      ∃ kind, s.detectAndSelectGenerator d = s.create kind ∨
        s.detectAndSelectGenerator d =
          { s.create kind with signalGenerator := some s.created.length } ∨
        s.detectAndSelectGenerator d =
          { s.create kind with doomed := s.doomed ++ [s.created.length] } := by
  unfold detectAndSelectGenerator own reset create
  dsimp only
  rw [hnone, Option.toList_none, List.append_nil]
  split
  next =>
    right
    refine ⟨.mock, ?_⟩
    split
    next => exact .inr (.inl rfl)
    next => exact .inl rfl
  next =>
    split
    next => exact .inl rfl
    next kind _ =>
      right
      refine ⟨kind, ?_⟩
      split
      next => exact .inr (.inl rfl)
      next => exact .inr (.inr rfl)

/-- Without an owner every pointer is to a generator that has fallen. -/
theorem Held.fallen {since generator : Nat} (h : s.Held since generator)
    (hnone : s.signalGenerator = none) : since < s.reconnects ∧ s.Fallen generator := by
  rcases h with ⟨-, howned⟩ | hfallen
  · rw [hnone] at howned
    cases howned
  · exact hfallen

/-- What has fallen stays so. -/
theorem Fallen.mono {generator : Nat} (h : s.Fallen generator) (hdoomed : s.doomed ⊆ s'.doomed)
    (hdeleted : s'.deleted = s.deleted) : s'.Fallen generator :=
  h.imp (fun hmem => hdoomed hmem) fun hmem => hdeleted ▸ hmem

theorem Held.kept {since generator : Nat} (h : s.Held since generator)
    (hnone : s.signalGenerator = none) (hdoomed : s.doomed ⊆ s'.doomed)
    (hdeleted : s'.deleted = s.deleted) (hreconnects : s'.reconnects = s.reconnects) :
    s'.Held since generator := by
  obtain ⟨hsince, hfallen⟩ := h.fallen hnone
  exact .inr ⟨hreconnects ▸ hsince, hfallen.mono hdoomed hdeleted⟩

/-- The detection, when nobody owns a generator: the pointers are as they were. -/
theorem Sound.detectAndSelectGenerator (h : s.Sound) (hnone : s.signalGenerator = none)
    (d : Detection) : ({ s.detectAndSelectGenerator d with detecting := false }).Sound := by
  have hlonger (kind : GeneratorKind) : s.created.length < (s.create kind).created.length := by
    unfold create
    rw [List.length_append]
    exact Nat.lt_succ_self _
  rcases detectAndSelectGenerator_cases hnone d with hsame | ⟨kind, hmock | howned | hmarked⟩
  · rw [hsame]
    constructor
    · exact h.owned
    · exact h.created
    · exact fun _ => hnone
    · exact h.akip
    · exact h.grattenWidget
  · rw [hmock]
    constructor
    · exact fun g hg => ⟨Nat.lt_trans (h.owned g hg).1 (hlonger kind), (h.owned g hg).2⟩
    · exact fun generator hfallen => Nat.lt_trans (h.created _ hfallen) (hlonger kind)
    · exact fun _ => hnone
    · exact h.akip
    · exact h.grattenWidget
  · rw [howned]
    constructor
    · rintro generator ⟨⟩
      exact ⟨hlonger kind, fun hfallen => Nat.lt_irrefl _ (h.created _ hfallen)⟩
    · exact fun generator hfallen => Nat.lt_trans (h.created _ hfallen) (hlonger kind)
    · exact fun hdetecting => absurd hdetecting Bool.false_ne_true
    · exact fun g hg => (h.akip g hg).kept hnone (List.Subset.refl _) rfl rfl
    · exact fun g hg => (h.grattenWidget g hg).kept hnone (List.Subset.refl _) rfl rfl
  · rw [hmarked]
    constructor
    · intro generator hgenerator
      change generator ∈ s.signalGenerator at hgenerator
      rw [hnone] at hgenerator
      cases hgenerator
    · intro generator hfallen
      rcases hfallen with hdoomed | hdeleted
      · cases List.mem_append.mp hdoomed with
        | inl hold => exact Nat.lt_trans (h.created _ (.inl hold)) (hlonger kind)
        | inr hnew => exact List.mem_singleton.mp hnew ▸ hlonger kind
      · exact Nat.lt_trans (h.created _ (.inr hdeleted)) (hlonger kind)
    · exact fun _ => hnone
    · exact fun g hg => (h.akip g hg).kept hnone (List.subset_append_left _ _) rfl rfl
    · exact fun g hg => (h.grattenWidget g hg).kept hnone (List.subset_append_left _ _) rfl rfl

/-! Who is told. -/

/-- The page changes, and the widget may come to be. -/
theorem updateGeneratorUi_cases (s : ApplicationManager) (available : Bool) :
    ∃ page, s.updateGeneratorUi available = { s with page } ∨
      s.updateGeneratorUi available =
        { s with page, grattenWidget := s.window, builtAt := s.reconnects } := by
  unfold updateGeneratorUi
  split
  next => exact ⟨_, .inl rfl⟩
  next generator hwindow =>
    split
    next => exact ⟨_, .inl rfl⟩
    next =>
      split
      next => exact ⟨_, .inl rfl⟩
      next =>
        dsimp only
        split
        next => exact ⟨_, .inr (by rw [hwindow])⟩
        next => exact ⟨_, .inl rfl⟩
      next =>
        dsimp only
        split
        next => exact ⟨_, .inr (by rw [hwindow])⟩
        next => exact ⟨_, .inl rfl⟩
      next => exact ⟨_, .inl rfl⟩

theorem Sound.setSignalGeneratorController (h : s.Sound) (available : Bool) :
    (s.setSignalGeneratorController s.signalGenerator available).Sound := by
  obtain ⟨page, hpage | hbuilt⟩ :=
    updateGeneratorUi_cases { s with window := s.signalGenerator } available
  · unfold ApplicationManager.setSignalGeneratorController
    rw [hpage]
    exact ⟨h.owned, h.created, h.detecting, h.akip, h.grattenWidget⟩
  · unfold ApplicationManager.setSignalGeneratorController
    rw [hbuilt]
    exact ⟨h.owned, h.created, h.detecting, h.akip, fun _ hg => .inl ⟨rfl, hg⟩⟩

/-! Steps. -/

theorem sound_new (testMode : Bool) : ({ testMode } : ApplicationManager).Sound := by
  constructor
  · rintro generator ⟨⟩
  · rintro generator (hdoomed | hdeleted)
    · cases hdoomed
    · cases hdeleted
  · exact fun _ => rfl
  · rintro generator ⟨⟩
  · rintro generator ⟨⟩

/-- The controller is told before there was a reconnection. -/
theorem sound_initialized (testMode : Bool) (d : Detection) : (initialized testMode d).Sound := by
  have hdetected := (sound_new testMode).detectAndSelectGenerator rfl d
  unfold initialized
  dsimp only
  rcases detectAndSelectGenerator_cases (s := { testMode }) rfl d with
    heq | ⟨kind, heq | heq | heq⟩
  · rw [heq] at hdetected ⊢
    exact hdetected.setSignalGeneratorController _
  · rw [heq] at hdetected ⊢
    exact hdetected.setSignalGeneratorController _
  · rw [heq] at hdetected ⊢
    apply Sound.setSignalGeneratorController
    exact ⟨hdetected.owned, hdetected.created, hdetected.detecting, fun _ hg => .inl ⟨rfl, hg⟩,
      hdetected.grattenWidget⟩
  · rw [heq] at hdetected ⊢
    exact hdetected.setSignalGeneratorController _

/-- A reconnection marks the owner's generator, and every pointer ages by one. -/
theorem Sound.reconnectGenerator (h : s.Sound) : s.reconnectGenerator.Sound := by
  have haged {since generator : Nat} (hheld : s.Held since generator) :
      s.reconnectGenerator.Held since generator := by
    right
    rcases hheld with ⟨rfl, howned⟩ | ⟨hsince, hfallen⟩
    · refine ⟨Nat.lt_succ_self _, .inl (List.mem_append_right _ ?_)⟩
      rw [howned]
      exact List.mem_singleton_self _
    · exact ⟨Nat.lt_succ_of_lt hsince, hfallen.mono (List.subset_append_left _ _) rfl⟩
  constructor
  · rintro generator ⟨⟩
  · rintro generator (hdoomed | hdeleted)
    · cases List.mem_append.mp hdoomed with
      | inl hold => exact h.created generator (.inl hold)
      | inr howned => exact (h.owned generator (Option.mem_toList.mp howned)).1
    · exact h.created generator (.inr hdeleted)
  · exact fun _ => rfl
  · exact fun g hg => haged (h.akip g hg)
  · exact fun g hg => haged (h.grattenWidget g hg)

theorem Sound.reconnected (h : s.Sound) (hdetecting : s.detecting = true) (d : Detection) :
    (s.reconnected d).Sound := by
  have hdetected := h.detectAndSelectGenerator (h.detecting hdetecting) d
  unfold ApplicationManager.reconnected
  dsimp only
  split
  next => exact hdetected.setSignalGeneratorController _
  next => exact hdetected

theorem Sound.deleteDoomed (h : s.Sound) : s.deleteDoomed.Sound := by
  have hfallen (generator : Nat) : s.deleteDoomed.Fallen generator ↔ s.Fallen generator := by
    unfold Fallen ApplicationManager.deleteDoomed
    rw [List.mem_append]
    constructor
    · rintro (hnil | hdeleted | hdoomed)
      · cases hnil
      · exact .inr hdeleted
      · exact .inl hdoomed
    · exact fun hor => .inr hor.symm
  have hheld {since generator : Nat} (hheld : s.Held since generator) :
      s.deleteDoomed.Held since generator :=
    hheld.imp_right fun hold => ⟨hold.1, (hfallen generator).mpr hold.2⟩
  constructor
  · exact fun g hg => ⟨(h.owned g hg).1, fun hold => (h.owned g hg).2 ((hfallen g).mp hold)⟩
  · exact fun g hold => h.created g ((hfallen g).mp hold)
  · exact h.detecting
  · exact fun g hg => hheld (h.akip g hg)
  · exact fun g hg => hheld (h.grattenWidget g hg)

/-- The step lemma. -/
theorem Sound.step (h : s.Sound) {e : GeneratorEvent} (hstep : s.step e = some s') : s'.Sound := by
  cases e with
  | clicked =>
    unfold ApplicationManager.step at hstep
    dsimp only at hstep
    split at hstep
    next => cases hstep
    next =>
      cases hstep
      exact h.reconnectGenerator
  | detected d =>
    unfold ApplicationManager.step at hstep
    dsimp only at hstep
    split at hstep
    next hdetecting =>
      cases hstep
      exact h.reconnected hdetecting d
    next => cases hstep
  | looped =>
    unfold ApplicationManager.step at hstep
    dsimp only at hstep
    split at hstep
    next => cases hstep
    next =>
      cases hstep
      exact h.deleteDoomed
  | generatorCall =>
    cases hstep
    exact h
  | pageClicked =>
    unfold ApplicationManager.step at hstep
    dsimp only at hstep
    split at hstep
    next =>
      cases hstep
      exact h
    next => cases hstep

theorem sound_of_reach (h : Machine.Reach applicationManager (fun _ _ => True) s) : s.Sound := by
  apply h.invariant
  · rintro s ⟨testMode, d, rfl⟩
    exact sound_initialized testMode d
  · exact fun s e s' hs _ hstep => hs.step hstep

/-- With nothing left to delete, a pointer is good until the next reconnection. -/
theorem Sound.deleted_iff (h : s.Sound) (hidle : s.doomed = []) {since generator : Nat}
    (hheld : s.Held since generator) : generator ∈ s.deleted ↔ since < s.reconnects := by
  rcases hheld with ⟨hsince, howned⟩ | ⟨hsince, hdoomed | hdeleted⟩
  · apply iff_of_false
    · exact fun hdeleted => (h.owned generator howned).2 (.inr hdeleted)
    · rw [hsince]
      exact Nat.lt_irrefl _
  · rw [hidle] at hdoomed
    cases hdoomed
  · exact iff_of_true hdeleted hsince

/-- What the window follows has just been made. -/
theorem Sound.not_faults_detected (h : s.Sound) (hnone : s.signalGenerator = none)
    (d : Detection) : ¬s.Faults (.detected d) := by
  rintro ⟨generator, howned, hdeleted⟩
  have hdetected := h.detectAndSelectGenerator hnone d
  apply (hdetected.owned generator howned).2
  refine .inr ?_
  change generator ∈ (s.detectAndSelectGenerator d).deleted
  rcases detectAndSelectGenerator_cases hnone d with heq | ⟨kind, heq | heq | heq⟩
  all_goals
    rw [heq]
    exact hdeleted

/-- A pointer is good while nothing has been reconnected since it was set. -/
theorem Sound.followed_iff (h : s.Sound) (hidle : s.doomed = []) {since : Nat}
    {pointer : Option Nat} (hheld : ∀ generator ∈ pointer, s.Held since generator) :
    (∃ generator ∈ pointer, generator ∈ s.deleted) ↔
      pointer.isSome = true ∧ since < s.reconnects := by
  constructor
  · rintro ⟨generator, hpointer, hdeleted⟩
    refine ⟨Option.isSome_iff_exists.mpr ⟨generator, hpointer⟩, ?_⟩
    exact (h.deleted_iff hidle (hheld generator hpointer)).mp hdeleted
  · rintro ⟨hsome, hreconnects⟩
    obtain ⟨generator, hpointer⟩ := Option.isSome_iff_exists.mp hsome
    exact ⟨generator, hpointer, (h.deleted_iff hidle (hheld generator hpointer)).mpr hreconnects⟩

/-- A scenario's call after any reconnection, if there was a generator to begin with, and a click on
the Gratten page after a reconnection that came after the page was built. -/
def Stale (s : ApplicationManager) : GeneratorEvent → Prop
  | .generatorCall => s.akip.isSome = true ∧ 0 < s.reconnects
  | .pageClicked => s.grattenWidget.isSome = true ∧ s.builtAt < s.reconnects
  | .clicked | .detected _ | .looped => False

/-- **Reconnecting leaves pointers to generators that are gone.** The steps that follow one, with
nothing left to delete, are exactly the stale ones. -/
theorem faults_iff_stale (h : Machine.Reach applicationManager (fun _ _ => True) s)
    (hidle : s.doomed = []) {e : GeneratorEvent} (hstep : s.step e = some s') :
    s.Faults e ↔ s.Stale e := by
  have hsound := sound_of_reach h
  cases e with
  | clicked =>
    exact iff_of_false (fun ⟨g, howned, hdeleted⟩ => (hsound.owned g howned).2 (.inr hdeleted)) id
  | detected d =>
    unfold step at hstep
    dsimp only at hstep
    split at hstep
    next hdetecting =>
      exact iff_of_false (hsound.not_faults_detected (hsound.detecting hdetecting) d) id
    next => cases hstep
  | looped => exact iff_of_false (fun ⟨_, hnone, _⟩ => nomatch hnone) id
  | generatorCall => exact hsound.followed_iff hidle hsound.akip
  | pageClicked => exact hsound.followed_iff hidle hsound.grattenWidget

/-- The generator is found, the user reconnects, and the same one is found again: the Gratten page
and the scenarios still go to the first. -/
theorem faults_iff_stale_twice : ∃ s, Machine.Reach applicationManager (fun _ _ => True) s ∧
    s.signalGenerator = some 1 ∧ s.page = .gratten ∧ s.Faults .generatorCall ∧
      s.Faults .pageClicked := by
  let d : Detection := { grattenIdn := some "GA1483", opens := true, available := true }
  have hrun : Machine.run step (fun _ _ => True) (initialized false d)
      [.clicked, .detected d, .looped] = some
        { created := [.gratten, .gratten], deleted := [0], signalGenerator := some 1
          akip := some 0, window := some 1, page := .gratten, grattenWidget := some 0
          reconnects := 1 } := by
    decide +kernel
  have hreach := Machine.Reach.of_run (M := applicationManager) step (fun _ _ _ hstep => hstep)
    (.start ⟨false, d, rfl⟩) _ hrun
  refine ⟨_, hreach, rfl, rfl, ?_, ?_⟩
  · exact (faults_iff_stale hreach rfl (e := .generatorCall) rfl).mpr ⟨rfl, Nat.zero_lt_one⟩
  · exact (faults_iff_stale hreach rfl (e := .pageClicked) rfl).mpr ⟨rfl, Nat.zero_lt_one⟩

end ApplicationManager

end PPB
