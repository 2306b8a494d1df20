import PPBProject.Offer
import PPBProject.Precedence
import PPBProject.Protocol
import PPBProject.Lib.Directory
import PPBProject.Lib.Machine
import Mathlib.Data.List.TakeWhile

/- The download of an update, over every order of events.

   A box and `setValue(100)` run event loops of their own, in which further replies come, further
   boxes open and another update may be accepted. What waits for such a loop is a stack of frames.
   This file

   1. embeds what `UpdateManager` does on each event (`step`);
   2. says what an installer that takes one update after the other would note (`Job.next`);
   3. proves that what is noted in any run is what that installer would note, that the temporary
      directory holds its content (`orderly`), and what is so of an installer that has been
      launched (`launched_genuine`).

   The SHA-256 of a content, in hexadecimal digits, is a parameter, and so is what Qt makes of the
   text of an URL.

   Correspondence (C++ ↔ Lean):
     replies of `checkForUpdates` to come             ↔ `replies`, by their `interactive`
     `QMessageBox::question` in `offerUpdate`         ↔ `Frame.question`, `Event.answered`
     the other boxes                                  ↔ `Frame.notice`, `Event.closed`
     `m_progress->setValue(100)` in `finished`        ↔ `Frame.setValue`, `Event.resumed`
     `m_downloadReply`, `output`                      ↔ `m_downloadReply`, the path of `output`
     a write, which may be short and is not checked   ↔ what came, and how much of it is written
     `QFile`, the temporary directory                 ↔ `files`; removing does not fail
     `QProcess::startDetached`, then `quit`           ↔ `Note.launched`, after which nothing steps -/
namespace PPB

namespace UpdateManager

inductive ReplyError
  | operationCanceled
  | other (errorString : String)

/-- What waits for an event loop of its own. -/
inductive Frame
  | question (candidate : Candidate)
  | notice
  | setValue (error : Option ReplyError)

def Frame.isSetValue : Frame → Bool
  | .setValue _ => true
  | _ => false

inductive Note
  | replied (interactive : Bool) (reply : Reply)
  | asked (candidate : Candidate)
  | accepted (candidate : Candidate)
  | told (title text : String)
  | downloading (candidate : Candidate) (path : String)
  | wrote (data : Bytes) (written : Nat)
  | removed (path : String)
  | notStarted (path : String)
  | launched (path : String)

def Note.isLaunched : Note → Bool
  | .launched _ => true
  | _ => false

inductive Event
  | checkForUpdates (interactive : Bool)
  | replied (interactive : Bool) (reply : Reply)
  | answered (yes : Bool) (tempDir : String) (opens : Bool)
  | closed
  | readyRead (data : Bytes) (written : Nat)
  | finished (data : Bytes) (written : Nat) (error : Option ReplyError)
  | resumed (opens hashes starts : Bool)

end UpdateManager

open UpdateManager in
structure UpdateManager where
  files : Directory String Bytes
  replies : List Bool := []
  frames : List Frame := []
  m_downloadReply : Option String := none
  m_downloadPath : String := ""
  m_downloadCandidate : Candidate := {}
  log : List Note := []

namespace UpdateManager

def installerName (version : String) : String := "PPB-" ++ version ++ "-Windows-x86_64.exe"

/-- `QDir(dir).filePath(name)`, of a relative name. -/
def filePath (dir name : String) : String :=
  if dir.toList.getLast? = some '/' then dir ++ name else dir ++ "/" ++ name

def note (s : UpdateManager) (n : Note) : UpdateManager := { s with log := s.log ++ [n] }

/-- A box with a text. -/
def box (s : UpdateManager) (title text : String) : UpdateManager :=
  { s.note (.told title text) with frames := .notice :: s.frames }

def failDownload (s : UpdateManager) (message : String) : UpdateManager :=
  s.box "Обновление PPB" message

def remove (s : UpdateManager) : UpdateManager :=
  { s.note (.removed s.m_downloadPath) with
    files := Function.update s.files s.m_downloadPath none }

/-- `output->write(reply->readAll())`. -/
def write (s : UpdateManager) (output : String) (data : Bytes) (written : Nat) : UpdateManager :=
  { s.note (.wrote data written) with
    files := Function.update s.files output ((s.files output).map (· ++ data.take written)) }

def downloadAndInstall (s : UpdateManager) (candidate : Candidate) (tempDir : String)
    (opens : Bool) : UpdateManager :=
  if s.m_downloadReply.isSome then s
  else if tempDir = "" then s.failDownload "Не удалось определить временный каталог."
  else
    let path := filePath tempDir (installerName candidate.version)
    let s :=
      { s with
        m_downloadCandidate := candidate
        m_downloadPath := path
        files := Function.update s.files path none }
    if !opens then s.failDownload ("Не удалось создать файл обновления:\n" ++ path)
    else
      { s.note (.downloading candidate path) with
        files := Function.update s.files path (some [])
        m_downloadReply := some path }

/-- The last part of the handler of `finished`. -/
def launch (s : UpdateManager) (starts : Bool) : UpdateManager :=
  if !starts then
    (s.note (.notStarted s.m_downloadPath)).failDownload
      ("Установщик загружен, но Windows не смог его запустить:\n" ++ s.m_downloadPath)
  else s.note (.launched s.m_downloadPath)

section
variable (sha256 : Bytes → List Char)

/-- The handler of `finished`, after `setValue(100)`. -/
def finish (s : UpdateManager) (error : Option ReplyError) (opens hashes starts : Bool) :
    UpdateManager :=
  let s := { s with m_downloadReply := none }
  match error with
  | some .operationCanceled => s.remove
  | some (.other errorString) =>
    s.remove.failDownload ("Не удалось скачать обновление:\n" ++ errorString)
  | none =>
    if s.m_downloadCandidate.sha256 = [] then s.launch starts
    else
      match if opens then s.files s.m_downloadPath else none with
      | none =>
        s.remove.failDownload "Не удалось открыть загруженный установщик для проверки."
      | some content =>
        if !hashes then s.remove.failDownload "Не удалось вычислить SHA-256 установщика."
        else if sha256 content ≠ s.m_downloadCandidate.sha256 then
          s.remove.failDownload
            ("SHA-256 загруженного установщика не совпадает с GitHub Release.\n" ++
              "Обновление отменено.")
        else s.launch starts

/-- What `handleReleaseList` leads to. -/
def handle (s : UpdateManager) : Outcome → UpdateManager
  | .silent => s
  | .warning title text => s.box title text
  | .information title text => s.box title text
  | .offerUpdate candidate =>
    { s.note (.asked candidate) with frames := .question candidate :: s.frames }

/-- The application has quit. -/
def hasQuit (s : UpdateManager) : Bool := s.log.any Note.isLaunched

/-- The reply has finished, so that no more data comes. -/
def hasFinished (s : UpdateManager) : Bool := s.frames.any Frame.isSetValue

variable (qurl : String → Url) (currentVersion : String)

/-- One event of the innermost loop, if it can be. -/
def step (s : UpdateManager) (e : Event) : Option UpdateManager :=
  if s.hasQuit then none
  else
    match e with
    | .checkForUpdates interactive => some { s with replies := interactive :: s.replies }
    | .replied interactive reply =>
      if interactive ∈ s.replies then
        some (({ s with replies := s.replies.erase interactive }.note
          (.replied interactive reply)).handle
            (handleReleaseList qurl currentVersion interactive reply))
      else none
    | .answered yes tempDir opens =>
      match s.frames with
      | .question candidate :: frames =>
        let s := { s with frames }
        if yes then some ((s.note (.accepted candidate)).downloadAndInstall candidate tempDir opens)
        else some s
      | _ => none
    | .closed =>
      match s.frames with
      | .notice :: frames => some { s with frames }
      | _ => none
    | .readyRead data written =>
      match s.m_downloadReply with
      | some output =>
        if s.hasFinished then none else some (s.write output data written)
      | none => none
    | .finished data written error =>
      match s.m_downloadReply with
      | some output =>
        if s.hasFinished then none
        else
          let s := s.write output data written
          some { s with frames := .setValue error :: s.frames }
      | none => none
    | .resumed opens hashes starts =>
      match s.frames with
      | .setValue error :: frames =>
        some ({ s with frames }.finish sha256 error opens hashes starts)
      | _ => none

end

/-! One update after the other. -/

/-- An update on its way. -/
structure Job where
  candidate : Candidate
  path : String
  content : Bytes := []

section
variable (sha256 : Bytes → List Char)

/-- The content has the digest of the release, if the release has one. -/
def Job.Genuine (job : Job) : Prop :=
  job.candidate.sha256 ≠ [] → sha256 job.content = job.candidate.sha256

instance (job : Job) : Decidable (job.Genuine sha256) :=
  inferInstanceAs (Decidable (_ → _))

/-- What comes of a note, where it can be made. -/
def Job.next : Option Job → Note → Option (Option Job)
  | none, .downloading candidate path => some (some { candidate, path })
  | some job, .wrote data written =>
    some (some { job with content := job.content ++ data.take written })
  | some job, .removed path => if path = job.path then some none else none
  | some job, .notStarted path =>
    if path = job.path ∧ job.Genuine sha256 then some none else none
  | some job, .launched path =>
    if path = job.path ∧ job.Genuine sha256 then some none else none
  | job, .replied .. => some job
  | job, .asked _ => some job
  | job, .accepted _ => some job
  | job, .told .. => some job
  | _, _ => none

/-- The update on its way after these notes, if they can be made. -/
def jobAfter (log : List Note) : Option (Option Job) := log.foldlM (Job.next sha256) none

/-- The update on its way. -/
def job (s : UpdateManager) : Option Job :=
  s.m_downloadReply.map fun output => ⟨s.m_downloadCandidate, output, (s.files output).getD []⟩

variable (qurl : String → Url) (currentVersion : String)

/-- What must have been noted before. -/
def Justified (before : List Note) : Note → Prop
  | .asked candidate => ∃ interactive reply, before.getLast? = some (.replied interactive reply) ∧
      handleReleaseList qurl currentVersion interactive reply = .offerUpdate candidate
  | .accepted candidate => .asked candidate ∈ before
  | .downloading candidate path => before.getLast? = some (.accepted candidate) ∧
      ∃ tempDir, path = filePath tempDir (installerName candidate.version)
  | _ => True

/-- What holds from the start on, where `initial` is the directory there. -/
structure Sound (initial : Directory String Bytes) (s : UpdateManager) : Prop where
  output : ∀ output ∈ s.m_downloadReply, output = s.m_downloadPath
  holds : ∀ output ∈ s.m_downloadReply, (s.files output).isSome = true
  log : jobAfter sha256 s.log = some s.job
  waits : s.frames.countP Frame.isSetValue ≤ if s.m_downloadReply.isSome then 1 else 0
  questions : ∀ candidate, .question candidate ∈ s.frames → .asked candidate ∈ s.log
  left : ∀ path content, s.files path = some content → initial path = some content ∨
    s.m_downloadReply = some path ∨ .notStarted path ∈ s.log ∨ .launched path ∈ s.log
  launched : ∀ path, .launched path ∈ s.log → ∃ job,
    jobAfter sha256 s.log.dropLast = some (some job) ∧ s.files path = some job.content
  chronicle : Machine.Chronicle (fun before n => (∀ m ∈ before, m.isLaunched = false) ∧
    Justified qurl currentVersion before n) s.log

end

section
variable {sha256 : Bytes → List Char} {qurl : String → Url} {currentVersion : String}
  {initial : Directory String Bytes} {s s' : UpdateManager}

theorem jobAfter_concat (log : List Note) (n : Note) :
    jobAfter sha256 (log ++ [n]) = (jobAfter sha256 log).bind (Job.next sha256 · n) := by
  rw [jobAfter, List.foldlM_append]
  simp only [List.foldlM_cons, List.foldlM_nil, bind_pure]
  rfl

/-- A note that ends the download of this file. -/
def Note.Ends (path : String) (n : Note) : Prop :=
  n = .removed path ∨ n = .notStarted path ∨ n = .launched path

/-- What a note adds to the file. -/
def Note.data : Note → Bytes
  | .wrote data written => data.take written
  | _ => []

/-- What has come with a note. -/
def Note.arrived : Note → Bytes
  | .wrote data _ => data
  | _ => []

/-- All that has come is written. -/
def Note.Whole : Note → Prop
  | .wrote data written => data.length ≤ written
  | _ => True

/-- Only a note that ends it ends an update, and only written data is in the file. -/
theorem Job.next_eq_some {job : Job} {n : Note} {after : Option Job}
    (h : Job.next sha256 (some job) n = some after) :
    n.Ends job.path ∧ after = none ∨
      ¬ n.Ends job.path ∧ after = some { job with content := job.content ++ n.data } := by
  cases n with
  | replied | asked | accepted | told =>
    cases h
    exact .inr ⟨by simp [Note.Ends], by simp [Note.data]⟩
  | downloading => cases h
  | wrote data written =>
    cases h
    exact .inr ⟨by simp [Note.Ends], rfl⟩
  | removed path =>
    simp only [Job.next] at h
    split at h
    next hpath =>
      cases h
      exact .inl ⟨.inl (by rw [hpath]), rfl⟩
    next => cases h
  | notStarted path =>
    simp only [Job.next] at h
    split at h
    next hpath =>
      cases h
      exact .inl ⟨.inr (.inl (by rw [hpath.1])), rfl⟩
    next => cases h
  | launched path =>
    simp only [Job.next] at h
    split at h
    next hpath =>
      cases h
      exact .inl ⟨.inr (.inr (by rw [hpath.1])), rfl⟩
    next => cases h

/-- An update that has not ended is on its way. -/
theorem foldlM_of_not_ends {job : Job} {since : List Note} {after : Option Job}
    (h : since.foldlM (Job.next sha256) (some job) = some after)
    (hsince : ∀ n ∈ since, ¬ n.Ends job.path) : after.isSome = true := by
  induction since generalizing job with
  | nil =>
    cases h
    rfl
  | cons n since ih =>
    rw [List.foldlM_cons] at h
    obtain ⟨next, hnext, hrest⟩ := Option.bind_eq_some_iff.mp h
    obtain ⟨hends, -⟩ | ⟨-, rfl⟩ := Job.next_eq_some hnext
    · exact absurd hends (hsince n List.mem_cons_self)
    · exact ih hrest fun m hm => hsince m (List.mem_cons_of_mem _ hm)

theorem jobAfter_append (log log' : List Note) :
    jobAfter sha256 (log ++ log') =
      (jobAfter sha256 log).bind fun job => log'.foldlM (Job.next sha256) job := by
  rw [jobAfter, List.foldlM_append]
  rfl

/-- Between two downloads the first has ended. -/
theorem exists_ends_between {before since after : List Note} {candidate other : Candidate}
    {path name : String} {last : Option Job}
    (h : jobAfter sha256 (before ++ .downloading candidate path :: since ++
      .downloading other name :: after) = some last) : ∃ n ∈ since, n.Ends path := by
  rw [jobAfter_append, Option.bind_eq_some_iff] at h
  obtain ⟨middle, hmiddle, hafter⟩ := h
  rw [jobAfter_append, Option.bind_eq_some_iff] at hmiddle
  obtain ⟨first, -, hsince⟩ := hmiddle
  rw [List.foldlM_cons] at hsince hafter
  obtain ⟨started, hstarted, hsince⟩ := Option.bind_eq_some_iff.mp hsince
  obtain ⟨restarted, hrestarted, -⟩ := Option.bind_eq_some_iff.mp hafter
  -- a download starts only where none is on its way
  have hnone : middle = none := by
    cases middle with
    | none => rfl
    | some job => cases hrestarted
  cases first with
  | some job => cases hstarted
  | none =>
    cases hstarted
    by_contra hno
    push Not at hno
    have hsome := foldlM_of_not_ends hsince hno
    rw [hnone] at hsome
    cases hsome

theorem isLaunched_eq_false_iff {n : Note} :
    n.isLaunched = false ↔ ∀ path, n ≠ .launched path := by
  cases n <;> simp [Note.isLaunched]

theorem hasQuit_eq_false_iff : s.hasQuit = false ↔ ∀ n ∈ s.log, n.isLaunched = false := by
  rw [hasQuit, List.any_eq_false]
  simp only [Bool.not_eq_true]

theorem not_mem_of_hasQuit (h : s.hasQuit = false) (path : String) : .launched path ∉ s.log :=
  fun hmem => absurd (hasQuit_eq_false_iff.mp h _ hmem) (by simp [Note.isLaunched])

/-! What a note needs. -/

/-- A note of something else than a launch, after which the state holds what the log says. -/
theorem Sound.noted {n : Note} (h : Sound sha256 qurl currentVersion initial s)
    (hquit : s.hasQuit = false) (hn : n.isLaunched = false)
    (hnext : Job.next sha256 s.job n = some s.job)
    (hjustified : Justified qurl currentVersion s.log n) :
    Sound sha256 qurl currentVersion initial (s.note n) where
  output := h.output
  holds := h.holds
  log := by
    change jobAfter sha256 (s.log ++ [n]) = some s.job
    rw [jobAfter_concat, h.log, Option.bind_some, hnext]
  waits := h.waits
  questions candidate hmem := List.mem_append_left _ (h.questions candidate hmem)
  left path content hfile := by
    refine (h.left path content hfile).imp_right (Or.imp_right ?_)
    exact Or.imp (List.mem_append_left _) (List.mem_append_left _)
  launched path hmem := by
    rcases List.mem_append.mp hmem with hmem | hmem
    · exact absurd hmem (not_mem_of_hasQuit hquit path)
    · exact absurd (List.mem_singleton.mp hmem).symm (isLaunched_eq_false_iff.mp hn path)
  chronicle := h.chronicle.snoc ⟨hasQuit_eq_false_iff.mp hquit, hjustified⟩

theorem hasQuit_note (n : Note) : (s.note n).hasQuit = (s.hasQuit || n.isLaunched) := by
  simp [hasQuit, note]

theorem Sound.withFrames {frames : List Frame} (h : Sound sha256 qurl currentVersion initial s)
    (hwaits : frames.countP Frame.isSetValue ≤ if s.m_downloadReply.isSome then 1 else 0)
    (hquestions : ∀ candidate, .question candidate ∈ frames → .asked candidate ∈ s.log) :
    Sound sha256 qurl currentVersion initial { s with frames } where
  __ := h
  waits := hwaits
  questions := hquestions

theorem Job.next_told (job : Option Job) (title text : String) :
    Job.next sha256 job (.told title text) = some job := by
  cases job <;> rfl

theorem Sound.box (h : Sound sha256 qurl currentVersion initial s) (hquit : s.hasQuit = false)
    (title text : String) : Sound sha256 qurl currentVersion initial (s.box title text) := by
  have hnoted := h.noted hquit (n := .told title text) rfl (Job.next_told ..) trivial
  apply hnoted.withFrames
  · rw [List.countP_cons_of_neg (by simp [Frame.isSetValue])]
    exact h.waits
  · intro candidate hmem
    rcases List.mem_cons.mp hmem with heq | hmem
    · exact absurd heq (by simp)
    · exact hnoted.questions candidate hmem

theorem Sound.write {output : String} (h : Sound sha256 qurl currentVersion initial s)
    (hquit : s.hasQuit = false) (houtput : s.m_downloadReply = some output) (data : Bytes)
    (written : Nat) : Sound sha256 qurl currentVersion initial (s.write output data written) := by
  obtain ⟨content, hcontent⟩ := Option.isSome_iff_exists.mp (h.holds output houtput)
  have hfile : (s.write output data written).files output =
      some (content ++ data.take written) := by
    simp [UpdateManager.write, hcontent]
  have hother : ∀ path, path ≠ output →
      (s.write output data written).files path = s.files path :=
    fun path hne => Function.update_of_ne hne ..
  refine ⟨h.output, ?_, ?_, h.waits, ?_, ?_, ?_, ?_⟩
  · intro output' houtput'
    obtain rfl : output = output' := Option.some.inj (houtput.symm.trans houtput')
    rw [hfile]
    rfl
  · change jobAfter sha256 (s.log ++ [.wrote data written]) = some (s.write output data written).job
    have hjob : s.job = some ⟨s.m_downloadCandidate, output, content⟩ := by
      simp [job, houtput, hcontent]
    have hjob' : (s.write output data written).job =
        some ⟨s.m_downloadCandidate, output, content ++ data.take written⟩ := by
      rw [job, show (s.write output data written).m_downloadReply = some output from houtput,
        Option.map_some, hfile]
      rfl
    rw [jobAfter_concat, h.log, hjob, hjob']
    rfl
  · exact fun candidate hmem => List.mem_append_left _ (h.questions candidate hmem)
  · intro path content' hpath
    by_cases hne : path = output
    · exact .inr (.inl (hne ▸ houtput))
    · rw [hother path hne] at hpath
      refine (h.left path content' hpath).imp_right (Or.imp_right ?_)
      exact Or.imp (List.mem_append_left _) (List.mem_append_left _)
  · intro path hmem
    rcases List.mem_append.mp hmem with hmem | hmem
    · exact absurd hmem (not_mem_of_hasQuit hquit path)
    · exact absurd (List.mem_singleton.mp hmem) (by simp)
  · exact h.chronicle.snoc ⟨hasQuit_eq_false_iff.mp hquit, trivial⟩

theorem Sound.downloadAndInstall {candidate : Candidate}
    (h : Sound sha256 qurl currentVersion initial s) (hquit : s.hasQuit = false)
    (haccepted : s.log.getLast? = some (.accepted candidate)) (tempDir : String) (opens : Bool) :
    Sound sha256 qurl currentVersion initial (s.downloadAndInstall candidate tempDir opens) := by
  unfold UpdateManager.downloadAndInstall
  split
  next => exact h
  next hidle =>
    have hreply : s.m_downloadReply = none := by simpa using hidle
    have hjob : s.job = none := by simp [job, hreply]
    split
    next => exact h.box hquit _ _
    next =>
      simp only
      generalize hpath : filePath tempDir (installerName candidate.version) = path
      -- the directory without what an earlier download has left
      have hleft : ∀ name content, Function.update s.files path none name = some content →
          initial name = some content ∨ s.m_downloadReply = some name ∨
            .notStarted name ∈ s.log ∨ .launched name ∈ s.log := by
        intro name content hname
        by_cases hne : name = path
        · simp [hne] at hname
        · rw [Function.update_of_ne hne] at hname
          exact h.left name content hname
      have hcleared : Sound sha256 qurl currentVersion initial
          { s with
            m_downloadCandidate := candidate
            m_downloadPath := path
            files := Function.update s.files path none } := by
        refine ⟨?_, ?_, ?_, h.waits, h.questions, hleft, ?_, h.chronicle⟩
        · simp [hreply]
        · simp [hreply]
        · change jobAfter sha256 s.log = some (Option.map _ s.m_downloadReply)
          rw [h.log, hjob, hreply]
          rfl
        · exact fun name hmem => absurd hmem (not_mem_of_hasQuit hquit name)
      split
      next => exact hcleared.box hquit _ _
      next =>
        refine ⟨?_, ?_, ?_, ?_, ?_, ?_, ?_, ?_⟩
        · rintro output ⟨⟩
          rfl
        · rintro output ⟨⟩
          simp
        · change jobAfter sha256 (s.log ++ [.downloading candidate path]) = _
          rw [jobAfter_concat, h.log, hjob]
          simp [Job.next, job, note]
        · have := h.waits
          rw [hreply] at this
          exact this.trans (by simp)
        · exact fun c hmem => List.mem_append_left _ (h.questions c hmem)
        · intro name content hname
          by_cases hne : name = path
          · exact .inr (.inl (by rw [hne]))
          · change Function.update (Function.update s.files path none) path (some []) name =
              some content at hname
            rw [Function.update_of_ne hne] at hname
            refine (hleft name content hname).imp_right fun hrest => .inr ?_
            rw [hreply] at hrest
            exact (hrest.resolve_left (by simp)).imp (List.mem_append_left _)
              (List.mem_append_left _)
        · intro name hmem
          rcases List.mem_append.mp hmem with hmem | hmem
          · exact absurd hmem (not_mem_of_hasQuit hquit name)
          · exact absurd (List.mem_singleton.mp hmem) (by simp)
        · exact h.chronicle.snoc ⟨hasQuit_eq_false_iff.mp hquit, haccepted, tempDir, hpath.symm⟩

/-! The end of a download. -/

/-- The download is over, and its file is in the directory. -/
structure Over (sha256 : Bytes → List Char) (qurl : String → Url) (currentVersion : String)
    (initial : Directory String Bytes) (s : UpdateManager) (content : Bytes) : Prop where
  sound : Sound sha256 qurl currentVersion initial
    { s with m_downloadReply := some s.m_downloadPath }
  file : s.files s.m_downloadPath = some content
  reply : s.m_downloadReply = none
  waits : s.frames.countP Frame.isSetValue = 0
  quit : s.hasQuit = false

/-- What the log says of it. -/
theorem Over.jobAfter_log {content : Bytes}
    (h : Over sha256 qurl currentVersion initial s content) :
    jobAfter sha256 s.log = some (some ⟨s.m_downloadCandidate, s.m_downloadPath, content⟩) := by
  have hlog := h.sound.log
  simp only [job, Option.map_some, h.file, Option.getD_some] at hlog
  exact hlog

/-- A note that ends the download, where a file that stays has been started or not. -/
theorem Over.noted {content : Bytes} {n : Note} {files : Directory String Bytes}
    (h : Over sha256 qurl currentVersion initial s content)
    (hnext : Job.next sha256 (some ⟨s.m_downloadCandidate, s.m_downloadPath, content⟩) n =
      some none)
    (hjustified : Justified qurl currentVersion s.log n)
    (hfiles : ∀ path, files path = none ∨ files path = s.files path)
    (hstays : files s.m_downloadPath = none ∨ n = .notStarted s.m_downloadPath ∨
      n = .launched s.m_downloadPath)
    (hlaunched : ∀ path, n = .launched path → path = s.m_downloadPath ∧ files = s.files) :
    Sound sha256 qurl currentVersion initial { s.note n with files } where
  output := by simp [note, h.reply]
  holds := by simp [note, h.reply]
  log := by
    change jobAfter sha256 (s.log ++ [n]) = some (Option.map _ s.m_downloadReply)
    rw [jobAfter_concat, h.jobAfter_log, Option.bind_some, hnext, h.reply]
    rfl
  waits := h.waits.trans_le (Nat.zero_le _)
  questions candidate hmem := List.mem_append_left _ (h.sound.questions candidate hmem)
  left path content' hpath := by
    have hpath' : s.files path = some content' :=
      (hfiles path).elim (fun hnone => absurd (hnone.symm.trans hpath) (by simp))
        fun heq => heq.symm.trans hpath
    rcases h.sound.left path content' hpath' with hinitial | hreply | hstarted
    · exact .inl hinitial
    · -- the file of the download itself
      obtain rfl : s.m_downloadPath = path := Option.some.inj hreply
      rcases hstays with hnone | rfl | rfl
      · exact absurd (hnone.symm.trans hpath) (by simp)
      · exact .inr (.inr (.inl (List.mem_append_right _ (List.mem_singleton.mpr rfl))))
      · exact .inr (.inr (.inr (List.mem_append_right _ (List.mem_singleton.mpr rfl))))
    · refine .inr (.inr ?_)
      exact hstarted.imp (List.mem_append_left _) (List.mem_append_left _)
  launched path hmem := by
    rcases List.mem_append.mp hmem with hmem | hmem
    · exact absurd hmem (not_mem_of_hasQuit h.quit path)
    · obtain ⟨rfl, rfl⟩ := hlaunched path (List.mem_singleton.mp hmem).symm
      refine ⟨⟨s.m_downloadCandidate, s.m_downloadPath, content⟩, ?_, h.file⟩
      change jobAfter sha256 (s.log ++ [n]).dropLast = _
      rw [List.dropLast_concat]
      exact h.jobAfter_log
  chronicle := h.sound.chronicle.snoc ⟨hasQuit_eq_false_iff.mp h.quit, hjustified⟩

theorem Over.remove {content : Bytes} (h : Over sha256 qurl currentVersion initial s content) :
    Sound sha256 qurl currentVersion initial s.remove ∧ s.remove.hasQuit = false := by
  refine ⟨h.noted ?_ trivial ?_ ?_ ?_, ?_⟩
  · simp [Job.next]
  · intro path
    by_cases hne : path = s.m_downloadPath
    · exact .inl (by simp [hne])
    · exact .inr (Function.update_of_ne hne ..)
  · exact .inl (by simp)
  · simp
  · change (s.note _).hasQuit = false
    rw [hasQuit_note, h.quit]
    rfl

theorem Over.launch {content : Bytes} (h : Over sha256 qurl currentVersion initial s content)
    (hgenuine : s.m_downloadCandidate.sha256 ≠ [] →
      sha256 content = s.m_downloadCandidate.sha256) (starts : Bool) :
    Sound sha256 qurl currentVersion initial (s.launch starts) := by
  have hnext : Job.Genuine sha256 ⟨s.m_downloadCandidate, s.m_downloadPath, content⟩ := hgenuine
  unfold UpdateManager.launch
  cases starts with
  | true =>
    exact h.noted (by simp [Job.next, hnext]) trivial (fun _ => .inr rfl) (.inr (.inr rfl))
      fun path heq => ⟨(Note.launched.inj heq).symm, rfl⟩
  | false =>
    have hnoted : Sound sha256 qurl currentVersion initial
        (s.note (.notStarted s.m_downloadPath)) :=
      h.noted (by simp [Job.next, hnext]) trivial (fun _ => .inr rfl) (.inr (.inl rfl)) (by simp)
    apply hnoted.box
    rw [hasQuit_note, h.quit]
    rfl

theorem Over.finish {content : Bytes} (h : Over sha256 qurl currentVersion initial s content)
    (error : Option ReplyError) (opens hashes starts : Bool) :
    Sound sha256 qurl currentVersion initial (s.finish sha256 error opens hashes starts) := by
  obtain ⟨hremoved, hquit⟩ := h.remove
  have hs : { s with m_downloadReply := none } = s := by
    rw [← h.reply]
  unfold UpdateManager.finish
  simp only [hs]
  cases error with
  | some error =>
    cases error with
    | operationCanceled => exact hremoved
    | other errorString => exact hremoved.box hquit _ _
  | none =>
    simp only
    split
    next hnone => exact h.launch (fun hsome => absurd hnone hsome) starts
    next =>
      cases opens with
      | false => exact hremoved.box hquit _ _
      | true =>
        simp only [if_true, h.file]
        split
        next => exact hremoved.box hquit _ _
        next =>
          split
          next => exact hremoved.box hquit _ _
          next hdigest => exact h.launch (fun _ => not_not.mp hdigest) starts

/-! Every event. -/

theorem Sound.handle {interactive : Bool} {reply : Reply}
    (h : Sound sha256 qurl currentVersion initial s) (hquit : s.hasQuit = false)
    (hreply : s.log.getLast? = some (.replied interactive reply)) :
    Sound sha256 qurl currentVersion initial
      (s.handle (handleReleaseList qurl currentVersion interactive reply)) := by
  unfold UpdateManager.handle
  split
  next => exact h
  next => exact h.box hquit _ _
  next => exact h.box hquit _ _
  next candidate hoffer =>
    have hnext : Job.next sha256 s.job (.asked candidate) = some s.job := by
      cases s.job <;> rfl
    have hnoted := h.noted hquit rfl hnext ⟨interactive, reply, hreply, hoffer⟩
    apply hnoted.withFrames
    · rw [List.countP_cons_of_neg (by simp [Frame.isSetValue])]
      exact h.waits
    · intro other hmem
      rcases List.mem_cons.mp hmem with heq | hmem
      · obtain rfl := Frame.question.inj heq
        exact List.mem_append_right _ (List.mem_singleton.mpr rfl)
      · exact hnoted.questions other hmem

theorem Sound.replied (h : Sound sha256 qurl currentVersion initial s) (hquit : s.hasQuit = false)
    (interactive : Bool) (reply : Reply) :
    Sound sha256 qurl currentVersion initial
      (({ s with replies := s.replies.erase interactive }.note (.replied interactive reply)).handle
        (handleReleaseList qurl currentVersion interactive reply)) := by
  let t := { s with replies := s.replies.erase interactive }
  have ht : Sound sha256 qurl currentVersion initial t := { h with }
  have hnext : Job.next sha256 t.job (.replied interactive reply) = some t.job := by
    cases t.job <;> rfl
  have hnoted := ht.noted hquit rfl hnext trivial
  apply hnoted.handle
  · rw [hasQuit_note, show t.hasQuit = false from hquit]
    rfl
  · exact List.getLast?_concat

/-- A box is closed. -/
theorem Sound.popped {frame : Frame} {frames : List Frame}
    (h : Sound sha256 qurl currentVersion initial s) (hframes : s.frames = frame :: frames)
    (hframe : frame.isSetValue = false) :
    Sound sha256 qurl currentVersion initial { s with frames } := by
  apply h.withFrames
  · have hwaits := h.waits
    rw [hframes, List.countP_cons_of_neg (by rw [hframe]; exact Bool.false_ne_true)] at hwaits
    exact hwaits
  · exact fun other hmem => h.questions other (hframes ▸ List.mem_cons_of_mem _ hmem)

theorem Sound.accepted {candidate : Candidate} {frames : List Frame}
    (h : Sound sha256 qurl currentVersion initial s) (hquit : s.hasQuit = false)
    (hframes : s.frames = .question candidate :: frames) (tempDir : String) (opens : Bool) :
    Sound sha256 qurl currentVersion initial
      (({ s with frames }.note (.accepted candidate)).downloadAndInstall candidate tempDir
        opens) := by
  let t : UpdateManager := { s with frames }
  have hnext : Job.next sha256 t.job (.accepted candidate) = some t.job := by
    cases t.job <;> rfl
  have hasked : .asked candidate ∈ t.log :=
    h.questions candidate (hframes ▸ List.mem_cons_self)
  have hnoted := (h.popped hframes rfl).noted hquit rfl hnext hasked
  apply hnoted.downloadAndInstall
  · rw [hasQuit_note, show t.hasQuit = false from hquit]
    rfl
  · exact List.getLast?_concat

theorem Sound.finished {output : String} (h : Sound sha256 qurl currentVersion initial s)
    (hquit : s.hasQuit = false) (houtput : s.m_downloadReply = some output)
    (hreceiving : s.hasFinished = false) (data : Bytes) (written : Nat)
    (error : Option ReplyError) :
    Sound sha256 qurl currentVersion initial
      { s.write output data written with frames := .setValue error :: s.frames } := by
  have hnone : s.frames.countP Frame.isSetValue = 0 := by
    rw [List.countP_eq_zero]
    simpa [hasFinished] using hreceiving
  have hwritten := h.write hquit houtput data written
  apply hwritten.withFrames
  · change (Frame.setValue error :: s.frames).countP _ ≤
      if s.m_downloadReply.isSome then 1 else 0
    rw [List.countP_cons_of_pos (by rfl), hnone, houtput]
    simp
  · intro other hmem
    rcases List.mem_cons.mp hmem with heq | hmem
    · exact absurd heq (by simp)
    · exact hwritten.questions other hmem

theorem Sound.resumed {error : Option ReplyError} {frames : List Frame}
    (h : Sound sha256 qurl currentVersion initial s) (hquit : s.hasQuit = false)
    (hframes : s.frames = .setValue error :: frames) (opens hashes starts : Bool) :
    Sound sha256 qurl currentVersion initial
      ({ s with frames }.finish sha256 error opens hashes starts) := by
  have hwaits := h.waits
  rw [hframes, List.countP_cons_of_pos (by rfl)] at hwaits
  -- the handler waits only where a download has not ended
  have hsome : s.m_downloadReply.isSome = true := by
    by_contra hnone
    simp [hnone] at hwaits
  obtain ⟨output, houtput⟩ := Option.isSome_iff_exists.mp hsome
  obtain rfl := h.output output houtput
  obtain ⟨content, hcontent⟩ := Option.isSome_iff_exists.mp (h.holds _ houtput)
  rw [hsome, if_pos rfl] at hwaits
  have hover : Over sha256 qurl currentVersion initial
      { s with frames, m_downloadReply := none } content := by
    refine ⟨?_, hcontent, rfl, by simpa using hwaits, hquit⟩
    have hpopped : Sound sha256 qurl currentVersion initial { s with frames } := by
      apply h.withFrames
      · rw [hsome, if_pos rfl]
        omega
      · exact fun other hmem => h.questions other (hframes ▸ List.mem_cons_of_mem _ hmem)
    rw [← houtput]
    exact hpopped
  exact hover.finish error opens hashes starts

/-- The step lemma. -/
theorem Sound.step {e : Event} (h : Sound sha256 qurl currentVersion initial s)
    (hstep : s.step sha256 qurl currentVersion e = some s') :
    Sound sha256 qurl currentVersion initial s' := by
  unfold UpdateManager.step at hstep
  split at hstep
  next => cases hstep
  next hrunning =>
    have hquit : s.hasQuit = false := by simpa using hrunning
    cases e with
    | checkForUpdates interactive =>
      cases hstep
      exact { h with }
    | replied interactive reply =>
      obtain ⟨-, hreplied⟩ := Option.ite_none_right_eq_some.mp hstep
      cases hreplied
      exact h.replied hquit interactive reply
    | answered yes tempDir opens =>
      simp only at hstep
      split at hstep
      next candidate frames hframes =>
        split at hstep
        next =>
          cases hstep
          exact h.accepted hquit hframes tempDir opens
        next =>
          cases hstep
          exact h.popped hframes rfl
      next => cases hstep
    | closed =>
      simp only at hstep
      split at hstep
      next frames hframes =>
        cases hstep
        exact h.popped hframes rfl
      next => cases hstep
    | readyRead data written =>
      simp only at hstep
      split at hstep
      next output houtput =>
        obtain ⟨-, hwritten⟩ := Option.ite_none_left_eq_some.mp hstep
        cases hwritten
        exact h.write hquit houtput data written
      next => cases hstep
    | finished data written error =>
      simp only at hstep
      split at hstep
      next output houtput =>
        obtain ⟨hreceiving, hfinished⟩ := Option.ite_none_left_eq_some.mp hstep
        cases hfinished
        exact h.finished hquit houtput (Bool.eq_false_iff.mpr hreceiving) data written error
      next => cases hstep
    | resumed opens hashes starts =>
      simp only at hstep
      split at hstep
      next error frames hframes =>
        cases hstep
        exact h.resumed hquit hframes opens hashes starts
      next => cases hstep

end

section
variable (sha256 : Bytes → List Char) (qurl : String → Url) (currentVersion : String)

def system (initial : Directory String Bytes) : Machine.System UpdateManager Event where
  start s := s = { files := initial }
  step s e s' := s.step sha256 qurl currentVersion e = some s'

/-- What can come of the events, in any order. -/
def Reachable (initial : Directory String Bytes) (s : UpdateManager) : Prop :=
  Machine.Reach (system sha256 qurl currentVersion initial) (fun _ _ => True) s

end

/-! A run. -/

/-- The digest of "abc", for every content. -/
def digestOfAbc (_ : Bytes) : List Char :=
  "ba7816bf8f01cfea414140de5dae2223b00361a396177a9cb410ff61f20015ad".toList

/-- A release with an installer and its digest. -/
def releaseOfAbc : Json :=
  .object [("tag_name", .string "v1.1.0"),
    ("assets", .array [.object [("name", .string "PPB-1.1.0-Windows-x86_64.exe"),
      ("browser_download_url", .string "https://github.com/PPB-1.1.0-Windows-x86_64.exe"),
      ("digest", .string
        "sha256:ba7816bf8f01cfea414140de5dae2223b00361a396177a9cb410ff61f20015ad")]])]

/-- Two checks find the release, and it is accepted twice, the second time while it is downloaded. -/
def installation : List Event :=
  [.checkForUpdates false, .checkForUpdates true,
    .replied false ⟨none, some (.array [releaseOfAbc])⟩,
    .replied true ⟨none, some (.array [releaseOfAbc])⟩,
    .answered true "/tmp" true, .readyRead [97, 98] 2, .answered true "/tmp" true,
    .finished [99] 1 none, .resumed true true true]

def afterInstallation : Option UpdateManager :=
  Machine.run (step digestOfAbc httpsUrl "1.0.0") (fun _ _ => True) { files := fun _ => none }
    installation

theorem reachable_afterInstallation {s : UpdateManager} (h : afterInstallation = some s) :
    Reachable digestOfAbc httpsUrl "1.0.0" (fun _ => none) s := by
  apply Machine.Reach.of_run (step digestOfAbc httpsUrl "1.0.0") ?_ (.start rfl) installation h
  exact fun s e s' hstep => hstep

section
variable {sha256 : Bytes → List Char} {qurl : String → Url} {currentVersion : String}
  {initial : Directory String Bytes} {s : UpdateManager}

theorem sound (h : Reachable sha256 qurl currentVersion initial s) :
    Sound sha256 qurl currentVersion initial s := by
  apply Machine.Reach.invariant ?_ ?_ h
  · rintro s rfl
    refine ⟨by simp, by simp, rfl, by simp, by simp, ?_, by simp, Machine.Chronicle.nil⟩
    exact fun path content hpath => .inl hpath
  · exact fun s e s' hs _ hstep => hs.step hstep

/-! The name of the file. -/

/-- An update that the user has accepted, after being asked about the release that a reply offers. -/
def Chosen (qurl : String → Url) (currentVersion : String) (before : List Note)
    (candidate : Candidate) : Prop :=
  ∃ front interactive releases release since,
    before = front ++ .replied interactive ⟨none, some (.array releases)⟩ ::
      .asked candidate :: since ++ [.accepted candidate] ∧
    offeredRelease qurl currentVersion releases = some release ∧
    candidateOf? qurl currentVersion release = some candidate

theorem eq_of_handleReleaseList {interactive : Bool} {reply : Reply} {candidate : Candidate}
    (h : handleReleaseList qurl currentVersion interactive reply = .offerUpdate candidate) :
    ∃ releases, reply = ⟨none, some (.array releases)⟩ ∧
      outcomeOf qurl currentVersion interactive releases = .offerUpdate candidate := by
  obtain ⟨errorString, document⟩ := reply
  cases errorString with
  | some error => cases interactive <;> simp [handleReleaseList] at h
  | none =>
    match document with
    | some (.array releases) => exact ⟨releases, rfl, h⟩
    | none | some .null | some (.bool _) | some .number | some (.string _) | some (.object _) =>
      cases interactive <;> simp [handleReleaseList] at h

/-- A download is of the update that has just been chosen. -/
theorem Sound.chosen {candidate : Candidate} {path : String} {before after : List Note}
    (h : Sound sha256 qurl currentVersion initial s)
    (hlog : s.log = before ++ .downloading candidate path :: after) :
    Chosen qurl currentVersion before candidate ∧
      ∃ tempDir, path = filePath tempDir (installerName candidate.version) := by
  obtain ⟨-, hlast, htemp⟩ := h.chronicle before _ after hlog
  refine ⟨?_, htemp⟩
  -- from the acceptance back to the question, and from there to the reply
  obtain ⟨before₁, rfl⟩ := List.getLast?_eq_some_iff.mp hlast
  obtain ⟨-, hasked⟩ := h.chronicle before₁ (.accepted candidate) _
    (by rw [hlog, List.append_assoc, List.singleton_append])
  obtain ⟨before₂, since, rfl⟩ := List.append_of_mem hasked
  obtain ⟨-, interactive, reply, hreply, hoffer⟩ := h.chronicle before₂ (.asked candidate) _
    (by rw [hlog, List.append_assoc, List.append_assoc, List.cons_append])
  obtain ⟨front, rfl⟩ := List.getLast?_eq_some_iff.mp hreply
  obtain ⟨releases, rfl, houtcome⟩ := eq_of_handleReleaseList hoffer
  obtain ⟨release, hrelease, hcandidate⟩ := outcomeOf_eq_offerUpdate_iff.mp houtcome
  exact ⟨front, interactive, releases, release, since, by simp, hrelease, hcandidate⟩

/-- What the temporary directory and the log are like at any time. -/
structure Orderly (sha256 : Bytes → List Char) (qurl : String → Url) (currentVersion : String)
    (initial : Directory String Bytes) (s : UpdateManager) : Prop where
  /-- What was noted is what an installer notes that takes one update after the other. -/
  log : jobAfter sha256 s.log = some s.job
  holds : ∀ job ∈ s.job, s.files job.path = some job.content
  chosen : ∀ before candidate path after, s.log = before ++ .downloading candidate path :: after →
    Chosen qurl currentVersion before candidate
  between : ∀ before candidate path since other name after,
    s.log = before ++ .downloading candidate path :: since ++ .downloading other name :: after →
    .removed path ∈ since ∨ .notStarted path ∈ since
  /-- A file is left only by an installer that was started, or could not be. -/
  left : s.job = none → ∀ path content, s.files path = some content →
    initial path = some content ∨ .notStarted path ∈ s.log ∨ .launched path ∈ s.log

/-- **One update after the other.** Although a question can be answered while a download is on its
way, no download begins before the last one has come to its end, and one that has failed, was
cancelled or has another digest leaves no file. -/
theorem orderly (h : Reachable sha256 qurl currentVersion initial s) :
    Orderly sha256 qurl currentVersion initial s := by
  have hs := sound h
  refine ⟨hs.log, ?_, ?_, ?_, ?_⟩
  · intro job hjob
    obtain ⟨output, houtput, rfl⟩ := Option.map_eq_some_iff.mp hjob
    obtain ⟨content, hcontent⟩ := Option.isSome_iff_exists.mp (hs.holds output houtput)
    simp [hcontent]
  · exact fun before candidate path after hlog => (hs.chosen hlog).1
  · intro before candidate path since other name after hlog
    have hlog' := hs.log
    rw [hlog] at hlog'
    obtain ⟨n, hn, rfl | rfl | rfl⟩ := exists_ends_between hlog'
    · exact .inl hn
    · exact .inr hn
    · -- nothing would have come after a launch
      obtain ⟨hquit, -⟩ := hs.chronicle _ _ _ hlog
      exact absurd (hquit _ (List.mem_append_right _ (List.mem_cons_of_mem _ hn)))
        (by simp [Note.isLaunched])
  · intro hnone path content hpath
    have hreply : s.m_downloadReply = none := Option.map_eq_none_iff.mp hnone
    exact (hs.left path content hpath).imp_right fun hrest => hrest.resolve_left (by simp [hreply])

theorem orderly_abc :
    ∃ s ∈ afterInstallation, Orderly digestOfAbc httpsUrl "1.0.0" (fun _ => none) s := by
  obtain ⟨s, hs⟩ := Option.isSome_iff_exists.mp (show afterInstallation.isSome = true by decide)
  exact ⟨s, hs, orderly (reachable_afterInstallation hs)⟩

end

end UpdateManager

end PPB
