import PPBProject.Lib.Machine
import Mathlib.Data.Finset.Dedup
import Mathlib.Data.Finset.Lattice.Lemmas

/- What the log window shows.

   An entry that is logged passes the rules of the channel "ui", waits as a queued signal, waits in
   the list model for the batch timer, and is shown if it meets the filters, which the user changes
   in between. The handler's signal is emitted where the entry is logged, so that those of other
   threads wait once more, before the distributor's. Entries of the main thread overtake them there.
   The level that is chosen is both a filter of the list and the rule of the channel, and
   every batch fills the box of the categories anew, which moves its choice to the first item.
   What Qt finds of a text in a message, and the HTML of an entry, are parameters.

   Correspondence (C++ ↔ Lean):
     `LogConfig::m_channels`                          ↔ `LogConfig`, by the id
     `LogDistributor::distribute`, for "ui"           ↔ `LogWidget.log`
     the handler's signal to the distributor          ↔ `PostedLog.logForUI`, from other threads
     `logForUI` to the wrapper, queued                ↔ `PostedLog.logEntryReceived`
     the posted events of the main thread             ↔ `queue`
     `LogListModel`                                   ↔ `LogListModel`, indices as `Nat`
     `comboLevel`, with the data of its items         ↔ `levelItems`
     `comboCategory`                                  ↔ `comboCategory`, the set of its items
     `categoriesChanged`                              ↔ `updateCategoryComboBox`
   What has been logged, delivered and cleared so far is kept beside the state of the program.
   Left out: the notifications of the views, the style of the rows, scrolling. -/
namespace PPB

/-! Channels. -/

inductive LogLevel
  | debug
  | info
  | warning
  | error
  | critical
  deriving DecidableEq

def LogLevel.toNat : LogLevel → Nat
  | debug => 0
  | info => 1
  | warning => 2
  | error => 3
  | critical => 4

def levelFromString (level : String) : LogLevel :=
  if level = "DEBUG" then .debug
  else if level = "INFO" then .info
  else if level = "WARNING" then .warning
  else if level = "ERROR" then .error
  else if level = "CRITICAL" then .critical
  else .info

structure LogChannelConfig where
  enabled : Bool := true
  minLevel : LogLevel := .info
  /-- All are allowed if it is empty. -/
  includeCategories : List String := []
  excludeCategories : List String := []

def LogChannelConfig.isCategoryAllowed (config : LogChannelConfig) (category : String) : Bool :=
  if category ∈ config.excludeCategories then false
  else if !config.includeCategories.isEmpty && category ∉ config.includeCategories then false
  else true

abbrev LogConfig := String → Option LogChannelConfig

namespace LogConfig

def uiCategories : List String :=
  ["UI_STATUS", "UI_OPERATION", "UI_RESULT", "UI_ALERT", "UI_PPB_RESULT", "UI_CONNECTION",
    "OP_SESSION", "OP_OPERATION", "OP_MEASUREMENT", "OP_SUMMARY", "SYSTEM", "GENERAL"]

def techCategories : List String :=
  ["TECH_DEBUG", "TECH_NETWORK", "TECH_PROTOCOL", "TECH_STATE", "TECH_THREAD", "TECH_PERFORMANCE",
    "CONFIG", "UI_DATA"]

def operCategories : List String :=
  ["OP_SESSION", "OP_OPERATION", "OP_MEASUREMENT", "OP_SUMMARY", "UI_OPERATION", "UI_RESULT",
    "UI_ALERT", "UI_PPB_RESULT", "SYSTEM", "GENERAL"]

def createDefaultChannels : LogConfig := fun id =>
  if id = "ui" then some { includeCategories := uiCategories }
  else if id = "tech_file" then some { minLevel := .debug, includeCategories := techCategories }
  else if id = "oper_file" then some { includeCategories := operCategories }
  else if id = "all_file" then some { minLevel := .debug }
  else if id = "console" then some { minLevel := .debug }
  else none

/-- A change to one channel, if it is there. -/
def change (config : LogConfig) (id : String) (f : LogChannelConfig → LogChannelConfig) :
    LogConfig :=
  fun other => if other = id then (config id).map f else config other

def enableChannel (config : LogConfig) (id : String) (enabled : Bool) : LogConfig :=
  config.change id fun channel => { channel with enabled }

def setMinLevel (config : LogConfig) (id : String) (minLevel : LogLevel) : LogConfig :=
  config.change id fun channel => { channel with minLevel }

def shouldLogToChannel (config : LogConfig) (id : String) (level : LogLevel)
    (category : String) : Bool :=
  match config id with
  | none => false
  | some channel =>
    if !channel.enabled then false
    else if level.toNat < channel.minLevel.toNat then false
    else channel.isCategoryAllowed category

end LogConfig

/-! The list. -/

structure LogEntry where
  timestamp : String
  level : String
  category : String
  message : String

structure LogListModel where
  allEntries : List LogEntry := []
  filteredIndices : List Nat := []
  uniqueCategories : Finset String := ∅
  pendingEntries : List LogEntry := []
  cachedHtml : List String := []
  levelFilter : String := "Все"
  categoryFilter : String := "Все"
  textFilter : String := ""
  showTech : Bool := false
  /-- The batch timer is active. -/
  batchTimer : Bool := false

/-- `entry.category.startsWith("TECH_") || entry.category == "UI_DATA"`. -/
def LogEntry.isTech (entry : LogEntry) : Bool :=
  "TECH_".toList.isPrefixOf entry.category.toList || entry.category = "UI_DATA"

inductive Role
  | time
  | level
  | category
  | message
  | fullHtml

namespace LogListModel

section
variable (contains : String → String → Bool) (toHtml : LogEntry → String)

def entryMatchesFilter (m : LogListModel) (entry : LogEntry) : Bool :=
  if m.levelFilter ≠ "Все" && entry.level ≠ m.levelFilter then false
  else if m.categoryFilter ≠ "Все" && entry.category ≠ m.categoryFilter then false
  else if !m.showTech && entry.isTech then false
  else if !m.textFilter.isEmpty && !contains entry.message m.textFilter then false
  else true

/-- The loop over all entries. -/
def applyFilter (m : LogListModel) : LogListModel :=
  { m with
    filteredIndices := (List.range m.allEntries.length).filter fun i =>
      (m.allEntries[i]?).any (m.entryMatchesFilter contains) }

def rowCount (m : LogListModel) : Nat := m.filteredIndices.length

/-- An entry into the list, its HTML and its category. -/
def append (m : LogListModel) (entry : LogEntry) : LogListModel :=
  { m with
    allEntries := m.allEntries ++ [entry]
    cachedHtml := m.cachedHtml ++ [toHtml entry]
    uniqueCategories :=
      if entry.category ≠ "" then insert entry.category m.uniqueCategories
      else m.uniqueCategories }

def addEntry (m : LogListModel) (entry : LogEntry) : LogListModel :=
  let m := m.append toHtml entry
  if m.entryMatchesFilter contains entry then
    { m with filteredIndices := m.filteredIndices ++ [m.allEntries.length - 1] }
  else m

def clear (m : LogListModel) : LogListModel :=
  { m with allEntries := [], filteredIndices := [], uniqueCategories := ∅, cachedHtml := [] }

def setLevelFilter (m : LogListModel) (level : String) : LogListModel :=
  { m with levelFilter := level }.applyFilter contains

def setCategoryFilter (m : LogListModel) (category : String) : LogListModel :=
  { m with categoryFilter := category }.applyFilter contains

def setTextFilter (m : LogListModel) (text : String) : LogListModel :=
  { m with textFilter := text }.applyFilter contains

def setShowTech (m : LogListModel) (shown : Bool) : LogListModel :=
  if m.showTech = shown then m else { m with showTech := shown }.applyFilter contains

def addPendingEntry (m : LogListModel) (entry : LogEntry) : LogListModel :=
  { m with pendingEntries := m.pendingEntries ++ [entry], batchTimer := true }

def flushPending (m : LogListModel) : LogListModel :=
  if m.pendingEntries.isEmpty then m
  else
    { m.pendingEntries.foldl (append toHtml) { m with batchTimer := false } with
      pendingEntries := [] }.applyFilter contains

def data (m : LogListModel) (row : Nat) (role : Role) : Option String :=
  match m.filteredIndices[row]? with
  | none => none
  | some originalIndex =>
    match m.allEntries[originalIndex]? with
    | none => none
    | some entry =>
      match role with
      | .time => some entry.timestamp
      | .level => some entry.level
      | .category => some entry.category
      | .message => some entry.message
      | .fullHtml => some ((m.cachedHtml[originalIndex]?).getD (toHtml entry))

end

end LogListModel

/-! The window. -/

/-- Where an entry is logged. -/
inductive LogThread
  | main
  | other
  deriving DecidableEq

structure Logged where
  entry : LogEntry
  thread : LogThread

/-- A posted event, by the signal that it ends in. -/
inductive PostedLog
  | logForUI (x : Logged)
  | logEntryReceived (x : Logged)

/-- The handler's signal. In the main thread the distributor's slot is called at once. -/
def Logged.post (x : Logged) : PostedLog :=
  match x.thread with
  | .main => .logEntryReceived x
  | .other => .logForUI x

structure LogWidget where
  config : LogConfig := LogConfig.createDefaultChannels
  queue : List PostedLog := []
  model : LogListModel := {}
  comboCategory : Finset String := ∅
  /-- What has passed the rules of the channel. -/
  passed : List Logged := []
  /-- What has come to the window, each with the number of rows there were. -/
  delivered : List (Logged × Nat) := []
  cleared : List LogEntry := []

inductive LogWidget.Event
  | log (entry : LogEntry) (thread : LogThread)
  | enableChannel (id : String) (enabled : Bool)
  | deliver
  | timeout
  | chooseLevel (text : String) (level : LogLevel)
  | chooseCategory (category : String)
  | search (text : String)
  | toggleTech (shown : Bool)
  | clear

namespace LogWidget

/-- The items of the box of the levels, with the level that `updateUIConfig` sets for each. -/
def levelItems : List (String × LogLevel) :=
  [("Все", .debug), ("DEBUG", .debug), ("INFO", .info), ("WARNING", .warning), ("ERROR", .error)]

section
variable (contains : String → String → Bool) (toHtml : LogEntry → String)

def log (w : LogWidget) (entry : LogEntry) (thread : LogThread) : LogWidget :=
  if w.config.shouldLogToChannel "ui" (levelFromString entry.level) entry.category then
    let x : Logged := ⟨entry, thread⟩
    { w with queue := w.queue ++ [x.post], passed := w.passed ++ [x] }
  else w

def onLogEntryReceived (w : LogWidget) (x : Logged) : LogWidget :=
  let w := { w with delivered := w.delivered ++ [(x, w.model.rowCount)] }
  if 10000 < w.model.rowCount then w else { w with model := w.model.addPendingEntry x.entry }

/-- A posted event is sent. -/
def send (w : LogWidget) : PostedLog → LogWidget
  | .logForUI x => { w with queue := w.queue ++ [.logEntryReceived x] }
  | .logEntryReceived x => w.onLogEntryReceived x

/-- The box is cleared, which leaves it without a choice, and filled, which chooses the first item;
both are signalled. -/
def updateCategoryComboBox (w : LogWidget) (categories : Finset String) : LogWidget :=
  let model := if w.comboCategory = ∅ then w.model else w.model.setCategoryFilter contains ""
  { w with
    model := model.setCategoryFilter contains "Все"
    comboCategory := insert "Все" categories }

def onBatchTimeout (w : LogWidget) : LogWidget :=
  if w.model.pendingEntries.isEmpty then w
  else
    let model := w.model.flushPending contains toHtml
    { w with model }.updateCategoryComboBox contains model.uniqueCategories

def onClearClicked (w : LogWidget) : LogWidget :=
  { w with model := w.model.clear, cleared := w.cleared ++ w.model.allEntries }.updateCategoryComboBox
    contains ∅

def step (w : LogWidget) : Event → Option LogWidget
  | .log entry thread => some (w.log entry thread)
  | .enableChannel id enabled => some { w with config := w.config.enableChannel id enabled }
  | .deliver =>
    match w.queue with
    | [] => none
    | posted :: queue => some ({ w with queue }.send posted)
  | .timeout => if w.model.batchTimer then some (w.onBatchTimeout contains toHtml) else none
  | .chooseLevel text level =>
    if (text, level) ∈ levelItems then
      some
        { w with
          model := w.model.setLevelFilter contains text
          config := w.config.setMinLevel "ui" level }
    else none
  | .chooseCategory category =>
    if category ∈ w.comboCategory then
      some { w with model := w.model.setCategoryFilter contains category }
    else none
  | .search text => some { w with model := w.model.setTextFilter contains text }
  | .toggleTech shown => some { w with model := w.model.setShowTech contains shown }
  | .clear => some (w.onClearClicked contains)

/-- At the start the box of the levels has set the level of its first item. -/
def system : Machine.System LogWidget Event where
  start w := w = { config := LogConfig.createDefaultChannels.setMinLevel "ui" .debug }
  step w e w' := w.step contains toHtml e = some w'

def Reachable (w : LogWidget) : Prop := Machine.Reach (system contains toHtml) (fun _ _ => True) w

end

end LogWidget

/-! The list is always that of the entries that meet the filters. -/

namespace LogListModel

section
variable {contains : String → String → Bool} {toHtml : LogEntry → String} {m : LogListModel}

theorem filter_range_eq_findIdxs {α : Type} (p : α → Bool) (l : List α) :
    ((List.range l.length).filter fun i => (l[i]?).any p) = l.findIdxs p := by
  induction l using List.reverseRecOn with
  | nil => rfl
  | append_singleton l x ih =>
    have hold : ((List.range l.length).filter fun i => ((l ++ [x])[i]?).any p) =
        (List.range l.length).filter fun i => (l[i]?).any p := by
      apply List.filter_congr
      intro i hi
      rw [List.getElem?_append_left (List.mem_range.mp hi)]
    rw [List.length_append, List.length_singleton, List.range_succ, List.filter_append, hold, ih,
      List.findIdxs_append, List.findIdxs_singleton, List.filter_singleton,
      List.getElem?_concat_length, Option.any_some, Nat.zero_add, Bool.cond_eq_ite]

/-- What the parts of the list have to do with each other. -/
structure Consistent (contains : String → String → Bool) (toHtml : LogEntry → String)
    (m : LogListModel) : Prop where
  rows : m.filteredIndices = m.allEntries.findIdxs (m.entryMatchesFilter contains)
  html : m.cachedHtml = m.allEntries.map toHtml
  categories : ∀ category, category ∈ m.uniqueCategories ↔
    category ≠ "" ∧ ∃ entry ∈ m.allEntries, entry.category = category
  /-- The timer runs exactly while something waits for it. -/
  timer : m.batchTimer = true ↔ m.pendingEntries ≠ []

theorem filteredIndices_applyFilter (m : LogListModel) :
    (m.applyFilter contains).filteredIndices =
      m.allEntries.findIdxs (m.entryMatchesFilter contains) :=
  filter_range_eq_findIdxs _ _

/-- The filters may be anything before they are applied. -/
theorem Consistent.applyFilter {m' : LogListModel} (h : m.Consistent contains toHtml)
    (hall : m'.allEntries = m.allEntries) (hhtml : m'.cachedHtml = m.cachedHtml)
    (hcategories : m'.uniqueCategories = m.uniqueCategories)
    (hpending : m'.pendingEntries = m.pendingEntries) (htimer : m'.batchTimer = m.batchTimer) :
    (m'.applyFilter contains).Consistent contains toHtml where
  rows := filteredIndices_applyFilter m'
  html := (hhtml.trans h.html).trans (congrArg _ hall.symm)
  categories category := by
    change category ∈ m'.uniqueCategories ↔ category ≠ "" ∧ ∃ entry ∈ m'.allEntries, _
    rw [hcategories, hall]
    exact h.categories category
  timer := by
    change m'.batchTimer = true ↔ m'.pendingEntries ≠ []
    rw [htimer, hpending]
    exact h.timer

theorem Consistent.setCategoryFilter (h : m.Consistent contains toHtml) (category : String) :
    (m.setCategoryFilter contains category).Consistent contains toHtml :=
  h.applyFilter rfl rfl rfl rfl rfl

theorem Consistent.setShowTech (h : m.Consistent contains toHtml) (shown : Bool) :
    (m.setShowTech contains shown).Consistent contains toHtml := by
  unfold LogListModel.setShowTech
  split
  · exact h
  · exact h.applyFilter rfl rfl rfl rfl rfl

theorem Consistent.clear (h : m.Consistent contains toHtml) :
    m.clear.Consistent contains toHtml where
  rows := rfl
  html := rfl
  categories category := by simp [LogListModel.clear]
  timer := h.timer

theorem Consistent.addPendingEntry (h : m.Consistent contains toHtml) (entry : LogEntry) :
    (m.addPendingEntry entry).Consistent contains toHtml where
  rows := h.rows
  html := h.html
  categories := h.categories
  timer := by simp [LogListModel.addPendingEntry]

/-- The loop over the pending entries. -/
theorem foldl_append (m : LogListModel) (entries : List LogEntry) :
    entries.foldl (append toHtml) m =
      { m with
        allEntries := m.allEntries ++ entries
        cachedHtml := m.cachedHtml ++ entries.map toHtml
        uniqueCategories :=
          m.uniqueCategories ∪ ((entries.map LogEntry.category).filter (· ≠ "")).toFinset } := by
  induction entries generalizing m with
  | nil => simp
  | cons entry entries ih =>
    rw [List.foldl_cons, ih]
    by_cases hempty : entry.category = ""
    · simp [append, hempty]
    · simp [append, hempty]

theorem Consistent.flushPending (h : m.Consistent contains toHtml) :
    (m.flushPending contains toHtml).Consistent contains toHtml := by
  unfold LogListModel.flushPending
  split
  next => exact h
  next =>
    rw [foldl_append]
    refine ⟨filteredIndices_applyFilter _, ?_, ?_, ?_⟩
    · simp [LogListModel.applyFilter, h.html]
    · intro category
      simp only [LogListModel.applyFilter, Finset.mem_union, h.categories, List.mem_toFinset,
        List.mem_filter, List.mem_map, List.mem_append, decide_eq_true_eq]
      constructor
      · rintro (⟨hne, entry, hmem, rfl⟩ | ⟨⟨entry, hmem, rfl⟩, hne⟩)
        · exact ⟨hne, entry, .inl hmem, rfl⟩
        · exact ⟨hne, entry, .inr hmem, rfl⟩
      · rintro ⟨hne, entry, hmem | hmem, rfl⟩
        · exact .inl ⟨hne, entry, hmem, rfl⟩
        · exact .inr ⟨⟨entry, hmem, rfl⟩, hne⟩
    · simp [LogListModel.applyFilter]

/-- Adding an entry by itself comes to the same as a batch of one. -/
theorem addEntry_eq (h : m.Consistent contains toHtml) (hpending : m.pendingEntries = [])
    (entry : LogEntry) :
    m.addEntry contains toHtml entry =
      (m.addPendingEntry entry).flushPending contains toHtml := by
  have htimer : m.batchTimer = false := by
    rw [← Bool.not_eq_true, h.timer, hpending]
    simp
  have happended : (m.addPendingEntry entry).flushPending contains toHtml =
      (m.append toHtml entry).applyFilter contains := by
    simp [LogListModel.flushPending, LogListModel.addPendingEntry, hpending, append,
      LogListModel.applyFilter, ← htimer]
  rw [happended]
  have hindices : ((m.append toHtml entry).applyFilter contains).filteredIndices =
      m.filteredIndices ++ if m.entryMatchesFilter contains entry then [m.allEntries.length]
        else [] := by
    rw [filteredIndices_applyFilter, h.rows]
    change (m.allEntries ++ [entry]).findIdxs (m.entryMatchesFilter contains) = _
    rw [List.findIdxs_append, List.findIdxs_singleton, Nat.zero_add]
  have hmatches : (m.append toHtml entry).entryMatchesFilter contains entry =
      m.entryMatchesFilter contains entry := rfl
  have hlength : (m.append toHtml entry).allEntries.length - 1 = m.allEntries.length := by
    simp [append]
  unfold addEntry
  simp only [hmatches, hlength]
  unfold LogListModel.applyFilter at hindices ⊢
  simp only at hindices ⊢
  rw [hindices]
  split
  · rfl
  · rw [List.append_nil]
    rfl

/-- The texts of an entry. -/
def textOf (toHtml : LogEntry → String) (entry : LogEntry) : Role → String
  | .time => entry.timestamp
  | .level => entry.level
  | .category => entry.category
  | .message => entry.message
  | .fullHtml => toHtml entry

/-- A row has the texts of the entry that is shown there. -/
theorem Consistent.data (h : m.Consistent contains toHtml) (row : Nat) (role : Role) :
    m.data toHtml row role =
      ((m.allEntries.filter (m.entryMatchesFilter contains))[row]?).map (textOf toHtml · role) := by
  by_cases hrow : row < m.filteredIndices.length
  · have hrow' : row < (m.allEntries.filter (m.entryMatchesFilter contains)).length := by
      rw [h.rows, List.length_findIdxs, List.countP_eq_length_filter] at hrow
      exact hrow
    have hentry := List.getElem_filter_eq_getElem_getElem_findIdxs hrow'
    unfold LogListModel.data
    simp only [h.rows] at hrow ⊢
    have hindex := List.getElem_findIdxs_lt hrow
    rw [List.getElem?_eq_getElem hrow, List.getElem?_eq_getElem hrow', hentry]
    simp only [h.html, List.getElem?_map, List.getElem?_eq_getElem hindex]
    cases role <;> rfl
  · have hrow' : (m.allEntries.filter (m.entryMatchesFilter contains)).length ≤ row := by
      rw [h.rows, List.length_findIdxs, List.countP_eq_length_filter] at hrow
      exact Nat.not_lt.mp hrow
    unfold LogListModel.data
    rw [List.getElem?_eq_none (Nat.not_lt.mp hrow), List.getElem?_eq_none hrow']
    rfl

end

end LogListModel

/-! What has come to the window. -/

/-- The entry, if it is on its last way. -/
def PostedLog.last? : PostedLog → Option Logged
  | .logEntryReceived x => some x
  | .logForUI _ => none

/-- And if it has still another one before it. -/
def PostedLog.first? : PostedLog → Option Logged
  | .logEntryReceived _ => none
  | .logForUI x => some x

namespace LogWidget

section
variable {contains : String → String → Bool} {toHtml : LogEntry → String} {w w' : LogWidget}

/-- What has still to come, in the order in which it will: first what is on its second way. -/
def waiting (queue : List PostedLog) : List Logged :=
  queue.filterMap PostedLog.last? ++ queue.filterMap PostedLog.first?

/-- The channel of the window: its level is that of the item chosen. -/
structure ChannelOf (text : String) (channel : LogChannelConfig) : Prop where
  categories : channel.includeCategories = LogConfig.uiCategories
  level : (text, channel.minLevel) ∈ levelItems

/-- What holds from the start on. -/
structure Shown (contains : String → String → Bool) (toHtml : LogEntry → String) (w : LogWidget) :
    Prop where
  list : w.model.Consistent contains toHtml
  /-- What has passed is delivered once, and the entries of the main thread in order, and those of
  other threads. -/
  delivered : ∀ thread, w.passed.filter (·.thread = thread) =
    (w.delivered.map Prod.fst ++ waiting w.queue).filter (·.thread = thread)
  posted : ∀ x, .logForUI x ∈ w.queue → x.thread = .other
  /-- What has been delivered, unless there were too many rows, is in one place. -/
  kept : (w.delivered.filter (·.2 ≤ 10000)).map (·.1.entry) =
    w.cleared ++ w.model.allEntries ++ w.model.pendingEntries
  categories : w.comboCategory = insert "Все" w.model.uniqueCategories ∨
    w.comboCategory = ∅ ∧ w.model.uniqueCategories = ∅
  /-- The category that is chosen is one that entries have. -/
  category : w.model.categoryFilter = "Все" ∨ w.model.categoryFilter ∈ w.model.uniqueCategories
  channel : ∃ channel, w.config "ui" = some channel ∧ ChannelOf w.model.levelFilter channel
  passed : ∀ x ∈ w.passed, x.entry.category ∈ LogConfig.uiCategories

/-- An entry comes behind those of its own kind. -/
theorem Shown.post (h : w.Shown contains toHtml) (x : Logged) (thread : LogThread) :
    (w.passed ++ [x]).filter (·.thread = thread) =
      (w.delivered.map Prod.fst ++ waiting (w.queue ++ [x.post])).filter (·.thread = thread) := by
  rw [List.filter_append, h.delivered]
  unfold waiting
  obtain ⟨entry, own⟩ := x
  cases own with
  | other => simp [List.filter_append, Logged.post, PostedLog.last?, PostedLog.first?]
  | main =>
    have hother : (w.queue.filterMap PostedLog.first?).filter (·.thread = .main) = [] := by
      rw [List.filter_eq_nil_iff]
      intro x hx
      obtain ⟨posted, hposted, heq⟩ := List.mem_filterMap.mp hx
      cases posted with
      | logEntryReceived y => cases heq
      | logForUI y =>
        cases heq
        simp [h.posted x hposted]
    cases thread with
    | main => simp [List.filter_append, Logged.post, PostedLog.last?, PostedLog.first?, hother]
    | other => simp [List.filter_append, Logged.post, PostedLog.last?, PostedLog.first?]

theorem Shown.log (h : w.Shown contains toHtml) (entry : LogEntry) (thread : LogThread) :
    (w.log entry thread).Shown contains toHtml := by
  unfold LogWidget.log
  split
  next hpasses =>
    refine { h with delivered := h.post ⟨entry, thread⟩, posted := ?_, passed := ?_ }
    · intro x hx
      rcases List.mem_append.mp hx with hold | hnew
      · exact h.posted x hold
      · cases thread with
        | main => cases List.mem_singleton.mp hnew
        | other =>
          cases List.mem_singleton.mp hnew
          rfl
    · obtain ⟨channel, hchannel, hui⟩ := h.channel
      have hallowed : channel.isCategoryAllowed entry.category = true := by
        simp only [LogConfig.shouldLogToChannel, hchannel] at hpasses
        split at hpasses
        next => cases hpasses
        next =>
          split at hpasses
          next => cases hpasses
          next => exact hpasses
      have hmem : entry.category ∈ LogConfig.uiCategories := by
        by_contra hnot
        unfold LogChannelConfig.isCategoryAllowed at hallowed
        split at hallowed
        next => cases hallowed
        next =>
          have hsome : LogConfig.uiCategories.isEmpty = false := rfl
          simp [hui.categories, hnot, hsome] at hallowed
      intro other hother
      rcases List.mem_append.mp hother with hother | hother
      · exact h.passed other hother
      · rw [List.mem_singleton.mp hother]
        exact hmem
  next => exact h

theorem Shown.change {id : String} {f : LogChannelConfig → LogChannelConfig}
    (h : w.Shown contains toHtml) (hf : ∀ channel, ChannelOf w.model.levelFilter channel →
      ChannelOf w.model.levelFilter (f channel)) :
    { w with config := w.config.change id f }.Shown contains toHtml := by
  refine { h with channel := ?_ }
  obtain ⟨channel, hchannel, hui⟩ := h.channel
  by_cases hid : "ui" = id
  · subst hid
    exact ⟨f channel, by simp [LogConfig.change, hchannel], hf channel hui⟩
  · exact ⟨channel, by simp [LogConfig.change, hid, hchannel], hui⟩

theorem Shown.deliver {x : Logged} {queue : List PostedLog} (h : w.Shown contains toHtml)
    (hqueue : w.queue = .logEntryReceived x :: queue) :
    ({ w with queue }.onLogEntryReceived x).Shown contains toHtml := by
  have hwaiting : waiting w.queue = x :: waiting queue := by
    rw [hqueue]
    rfl
  have hdelivered : ∀ thread, w.passed.filter (·.thread = thread) =
      ((w.delivered ++ [(x, w.model.rowCount)]).map Prod.fst ++ waiting queue).filter
        (·.thread = thread) := by
    intro thread
    rw [h.delivered, hwaiting, List.map_append, List.append_assoc]
    rfl
  have hposted : ∀ y, .logForUI y ∈ queue → y.thread = .other :=
    fun y hy => h.posted y (hqueue ▸ List.mem_cons_of_mem _ hy)
  unfold onLogEntryReceived
  simp only
  split
  next hfull =>
    refine { h with delivered := hdelivered, posted := hposted, kept := ?_ }
    change (List.filter (·.2 ≤ 10000) (w.delivered ++ [(x, w.model.rowCount)])).map _ = _
    rw [List.filter_append, List.filter_singleton, decide_eq_false (Nat.not_le.mpr hfull),
      cond_false, List.append_nil, h.kept]
  next hfits =>
    refine { h with delivered := hdelivered, posted := hposted, kept := ?_
                    list := h.list.addPendingEntry x.entry }
    change (List.filter (·.2 ≤ 10000) (w.delivered ++ [(x, w.model.rowCount)])).map _ =
      w.cleared ++ w.model.allEntries ++ (w.model.pendingEntries ++ [x.entry])
    rw [List.filter_append, List.filter_singleton, decide_eq_true (Nat.not_lt.mp hfits),
      cond_true, List.map_append, h.kept, ← List.append_assoc]
    rfl

/-- On its second way an entry comes behind all that are on it. -/
theorem Shown.forward {x : Logged} {queue : List PostedLog} (h : w.Shown contains toHtml)
    (hqueue : w.queue = .logForUI x :: queue) :
    ({ w with queue := queue ++ [.logEntryReceived x] } : LogWidget).Shown contains toHtml := by
  have hwaiting : waiting w.queue = waiting (queue ++ [.logEntryReceived x]) := by
    rw [waiting, waiting, hqueue]
    simp [List.filterMap_cons, PostedLog.last?, PostedLog.first?]
  refine { h with delivered := ?_, posted := ?_ }
  · exact hwaiting ▸ h.delivered
  · intro y hy
    rcases List.mem_append.mp hy with hold | hnew
    · exact h.posted y (hqueue ▸ List.mem_cons_of_mem _ hold)
    · cases List.mem_singleton.mp hnew

/-- What the box of the categories leaves as it is. -/
theorem updateCategoryComboBox_model (w : LogWidget) (categories : Finset String) :
    ∃ filteredIndices, (w.updateCategoryComboBox contains categories).model =
      { w.model with filteredIndices, categoryFilter := "Все" } := by
  unfold updateCategoryComboBox
  simp only
  split
  · exact ⟨_, rfl⟩
  · exact ⟨_, rfl⟩

theorem consistent_updateCategoryComboBox {categories : Finset String}
    (h : w.model.Consistent contains toHtml) :
    (w.updateCategoryComboBox contains categories).model.Consistent contains toHtml := by
  unfold updateCategoryComboBox
  simp only
  split
  · exact h.setCategoryFilter _
  · exact (h.setCategoryFilter _).setCategoryFilter _

theorem Shown.timeout (h : w.Shown contains toHtml) :
    (w.onBatchTimeout contains toHtml).Shown contains toHtml := by
  unfold onBatchTimeout
  split
  next => exact h
  next hpending =>
    have hlist := h.list.flushPending
    have hflushed : (w.model.flushPending contains toHtml).allEntries ++
        (w.model.flushPending contains toHtml).pendingEntries =
          w.model.allEntries ++ w.model.pendingEntries := by
      simp [LogListModel.flushPending, hpending, LogListModel.foldl_append,
        LogListModel.applyFilter]
    have hlevel : (w.model.flushPending contains toHtml).levelFilter = w.model.levelFilter := by
      simp [LogListModel.flushPending, hpending, LogListModel.foldl_append,
        LogListModel.applyFilter]
    generalize w.model.flushPending contains toHtml = model at hlist hflushed hlevel
    obtain ⟨indices, hmodel⟩ := @updateCategoryComboBox_model contains { w with model }
      model.uniqueCategories
    refine ⟨consistent_updateCategoryComboBox hlist, h.delivered, h.posted, ?_, ?_, ?_, ?_,
      h.passed⟩
    · rw [hmodel]
      change (w.delivered.filter _).map _ = w.cleared ++ model.allEntries ++ model.pendingEntries
      rw [h.kept, List.append_assoc, List.append_assoc, hflushed]
    · rw [hmodel]
      exact .inl rfl
    · rw [hmodel]
      exact .inl rfl
    · rw [hmodel]
      change ∃ channel, w.config "ui" = some channel ∧ ChannelOf model.levelFilter channel
      rw [hlevel]
      exact h.channel

theorem Shown.clear (h : w.Shown contains toHtml) :
    (w.onClearClicked contains).Shown contains toHtml := by
  unfold onClearClicked
  obtain ⟨indices, hmodel⟩ := @updateCategoryComboBox_model contains
    { w with model := w.model.clear, cleared := w.cleared ++ w.model.allEntries } ∅
  refine ⟨consistent_updateCategoryComboBox h.list.clear, h.delivered, h.posted, ?_, ?_, ?_, ?_,
    h.passed⟩
  · rw [hmodel]
    change (w.delivered.filter _).map _ =
      w.cleared ++ w.model.allEntries ++ [] ++ w.model.pendingEntries
    rw [h.kept, List.append_nil]
  · rw [hmodel]
    exact .inl rfl
  · rw [hmodel]
    exact .inl rfl
  · rw [hmodel]
    exact h.channel

theorem Shown.step {e : Event} (h : w.Shown contains toHtml)
    (hstep : w.step contains toHtml e = some w') : w'.Shown contains toHtml := by
  cases e with
  | log entry thread =>
    cases hstep
    exact h.log entry thread
  | enableChannel id enabled =>
    cases hstep
    exact h.change fun channel hchannel => ⟨hchannel.categories, hchannel.level⟩
  | deliver =>
    simp only [LogWidget.step] at hstep
    split at hstep
    next => cases hstep
    next posted queue hqueue =>
      cases hstep
      cases posted with
      | logForUI x => exact h.forward hqueue
      | logEntryReceived x => exact h.deliver hqueue
  | timeout =>
    simp only [LogWidget.step] at hstep
    split at hstep
    next =>
      cases hstep
      exact h.timeout
    next => cases hstep
  | chooseLevel text level =>
    simp only [LogWidget.step] at hstep
    split at hstep
    next hitem =>
      cases hstep
      refine { h with list := h.list.applyFilter rfl rfl rfl rfl rfl, channel := ?_ }
      obtain ⟨channel, hchannel, hui⟩ := h.channel
      refine ⟨{ channel with minLevel := level }, ?_, hui.categories, hitem⟩
      simp [LogConfig.setMinLevel, LogConfig.change, hchannel]
    next => cases hstep
  | chooseCategory category =>
    simp only [LogWidget.step] at hstep
    split at hstep
    next hitem =>
      cases hstep
      refine { h with list := h.list.setCategoryFilter category, category := ?_ }
      obtain hcombo | ⟨hcombo, -⟩ := h.categories
      · rw [hcombo] at hitem
        exact Finset.mem_insert.mp hitem
      · rw [hcombo] at hitem
        exact absurd hitem (Finset.notMem_empty _)
    next => cases hstep
  | search text =>
    cases hstep
    exact { h with list := h.list.applyFilter rfl rfl rfl rfl rfl }
  | toggleTech shown =>
    cases hstep
    have hlist := h.list.setShowTech shown
    obtain ⟨indices, hmodel⟩ : ∃ filteredIndices, w.model.setShowTech contains shown =
        { w.model with filteredIndices, showTech := shown } := by
      unfold LogListModel.setShowTech
      split
      next hsame => exact ⟨w.model.filteredIndices, by rw [← hsame]⟩
      next => exact ⟨_, rfl⟩
    rw [hmodel] at hlist ⊢
    exact { h with list := hlist }
  | clear =>
    cases hstep
    exact h.clear

theorem shown (h : Reachable contains toHtml w) : w.Shown contains toHtml := by
  apply Machine.Reach.invariant ?_ ?_ h
  · rintro w rfl
    refine ⟨⟨rfl, rfl, by simp, by simp⟩, fun _ => rfl, by simp, rfl, .inr ⟨rfl, rfl⟩, .inl rfl, ?_,
      by simp⟩
    refine ⟨{ includeCategories := LogConfig.uiCategories, minLevel := .debug }, rfl, rfl, ?_⟩
    decide
  · exact fun w e w' hw _ hstep => hw.step hstep

/-- **The window shows what it should.** Whatever is logged, chosen, searched for and cleared in
whatever order, the rows are the entries that meet the filters as they are, in the order in which
they came, which is for the main thread that in which they were logged, and so for the others; every
entry that has passed the rules of the channel is in one place, unless it came while there were more
than 10000 rows; and the timer runs while any are waiting for it. -/
theorem rows_shown (h : Reachable contains toHtml w) :
    w.Shown contains toHtml ∧ ∀ row role, w.model.data toHtml row role =
      ((w.model.allEntries.filter (w.model.entryMatchesFilter contains))[row]?).map
        (LogListModel.textOf toHtml · role) :=
  ⟨shown h, (shown h).list.data⟩

/-- What is in the list has passed the rules of the channel. -/
theorem Shown.category_mem (h : w.Shown contains toHtml) {entry : LogEntry}
    (hentry : entry ∈ w.model.allEntries) : entry.category ∈ LogConfig.uiCategories := by
  have hkept : entry ∈ (w.delivered.filter (·.2 ≤ 10000)).map (·.1.entry) := by
    rw [h.kept]
    exact List.mem_append_left _ (List.mem_append_right _ hentry)
  obtain ⟨⟨x, rows⟩, hx, rfl⟩ := List.mem_map.mp hkept
  apply h.passed x
  have hdelivered : x ∈
      (w.delivered.map Prod.fst ++ waiting w.queue).filter (·.thread = x.thread) := by
    refine List.mem_filter.mpr ⟨List.mem_append_left _ ?_, decide_eq_true rfl⟩
    exact List.mem_map_of_mem (f := Prod.fst) (List.filter_sublist.subset hx)
  rw [← h.delivered] at hdelivered
  exact (List.mem_filter.mp hdelivered).1

theorem isTech_eq_false {entry : LogEntry} (h : entry.category ∈ LogConfig.uiCategories) :
    entry.isTech = false := by
  have hall : ∀ category ∈ LogConfig.uiCategories,
      ("TECH_".toList.isPrefixOf category.toList || category = "UI_DATA") = false := by decide
  exact hall _ h

/-- **The box for technical entries has no effect.** None of them passes the rules of the channel, so
that the rows are the same whether they are to be shown or not. -/
theorem rows_setShowTech (h : Reachable contains toHtml w) (shown : Bool) (row : Nat) (role : Role) :
    (w.model.setShowTech contains shown).rowCount = w.model.rowCount ∧
      (w.model.setShowTech contains shown).data toHtml row role =
        w.model.data toHtml row role := by
  have hshown := LogWidget.shown h
  have hrows : (w.model.setShowTech contains shown).filteredIndices = w.model.filteredIndices := by
    unfold LogListModel.setShowTech
    split
    next => rfl
    next =>
      rw [hshown.list.rows, ← LogListModel.filter_range_eq_findIdxs]
      apply List.filter_congr
      intro i hi
      have hlt : i < w.model.allEntries.length := List.mem_range.mp hi
      have hnot := isTech_eq_false (hshown.category_mem (List.getElem_mem hlt))
      rw [List.getElem?_eq_getElem hlt, Option.any_some, Option.any_some]
      simp [LogListModel.entryMatchesFilter, hnot]
  have hentries : (w.model.setShowTech contains shown).allEntries = w.model.allEntries := by
    unfold LogListModel.setShowTech
    split <;> rfl
  have hhtml : (w.model.setShowTech contains shown).cachedHtml = w.model.cachedHtml := by
    unfold LogListModel.setShowTech
    split <;> rfl
  refine ⟨congrArg List.length hrows, ?_⟩
  unfold LogListModel.data
  rw [hrows, hentries, hhtml]

/-! A run. -/

/-- An entry of another thread is overtaken, and both are shown. Another level hides them. -/
def session : List Event :=
  [.log ⟨"10:00:00.000", "INFO", "UI_CONNECTION", "connected"⟩ .other,
    .log ⟨"10:00:00.001", "INFO", "SYSTEM", "ready"⟩ .main,
    .log ⟨"10:00:00.001", "INFO", "TECH_STATE", "ready"⟩ .main, .deliver, .deliver, .deliver,
    .timeout, .log ⟨"10:00:01.000", "ERROR", "UI_ALERT", "lost"⟩ .main, .deliver,
    .chooseLevel "ERROR" .error, .timeout]

def afterSession : Option LogWidget :=
  Machine.run (step (fun _ _ => true) LogEntry.message) (fun _ _ => True)
    { config := LogConfig.createDefaultChannels.setMinLevel "ui" .debug } session

theorem reachable_afterSession {w : LogWidget} (h : afterSession = some w) :
    Reachable (fun _ _ => true) LogEntry.message w := by
  apply Machine.Reach.of_run (step (fun _ _ => true) LogEntry.message) ?_ (.start rfl) session h
  exact fun w e w' hstep => hstep

theorem rows_shown_session : ∃ w ∈ afterSession,
    w.model.allEntries.map (·.message) = ["ready", "connected", "lost"] ∧
      w.model.filteredIndices = [2] ∧ w.Shown (fun _ _ => true) LogEntry.message ∧
        w.model.data LogEntry.message 0 .message = some "lost" := by
  obtain ⟨w, hw⟩ := Option.isSome_iff_exists.mp (show afterSession.isSome = true by decide)
  have hentries : afterSession.map (·.model.allEntries.map (·.message)) =
      some ["ready", "connected", "lost"] := by decide
  have hrows : afterSession.map (·.model.filteredIndices) = some [2] := by decide
  have hdata : afterSession.map (·.model.data LogEntry.message 0 .message) =
      some (some "lost") := by decide
  rw [hw, Option.map_some] at hentries hrows hdata
  exact ⟨w, hw, Option.some.inj hentries, Option.some.inj hrows,
    (rows_shown (reachable_afterSession hw)).1, Option.some.inj hdata⟩

theorem rows_setShowTech_session : ∃ w ∈ afterSession,
    (w.model.setShowTech (fun _ _ => true) true).rowCount = w.model.rowCount ∧
      (w.model.setShowTech (fun _ _ => true) true).data LogEntry.message 0 .message =
        w.model.data LogEntry.message 0 .message := by
  obtain ⟨w, hw⟩ := Option.isSome_iff_exists.mp (show afterSession.isSome = true by decide)
  exact ⟨w, hw, rows_setShowTech (reachable_afterSession hw) true 0 .message⟩

end

end LogWidget

end PPB
