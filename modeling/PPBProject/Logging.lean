import PPBProject.Lib.Directory
import PPBProject.Wire

/- `FileHandler`: log lines are buffered, flushed to the base file, and the base file becomes a
   backup once it is large enough.

   The files are those of one handler: the base name and `base.1`, `base.2`, and so on. Writing
   and opening succeed. `QIODevice::Text` is taken to leave the bytes alone; under Windows the
   carriage returns it adds are in the files as they are in what is counted as flushed.

   Correspondence (C++ ↔ Lean):
     `m_file`, and the files on the disk   ↔ `isOpen`, `directory`
     the text of an entry, by base name    ↔ the parameter `format`
     the timer's `flush`                   ↔ `LogEvent.flush`
   Left out: `m_lineCount`, which nothing reads. -/
namespace PPB

/-- The files of a handler. -/
inductive LogFile where
  | base
  | backup (i : Nat)
  deriving DecidableEq

structure FileHandler where
  maxSize : Nat
  maxBackups : Nat
  directory : Directory LogFile Bytes
  isOpen : Bool := false
  buffer : Bytes := []

namespace FileHandler

/-- Appending creates the file if it is not there. -/
def openNewFile (h : FileHandler) : FileHandler :=
  { h with
    directory := Function.update h.directory .base (some ((h.directory .base).getD []))
    isOpen := true }

/-- The loop over the backups, from `i` down to 1. -/
def renameBackups : Nat → Directory LogFile Bytes → Directory LogFile Bytes
  | 0, d => d
  | i + 1, d => renameBackups i (d.rename (.backup (i + 1)) (.backup (i + 2)))

def rotateIfNeeded (h : FileHandler) : FileHandler :=
  if ((h.directory .base).getD []).length < h.maxSize then h
  else
    let renamed := (renameBackups h.maxBackups h.directory).rename .base (.backup 1)
    { h with directory := renamed, isOpen := false }.openNewFile

/-- `m_file.write`. -/
def write (h : FileHandler) (data : Bytes) : FileHandler :=
  { h with
    directory := Function.update h.directory .base (some ((h.directory .base).getD [] ++ data)) }

def flush (h : FileHandler) : FileHandler :=
  if h.buffer = [] then h
  else { h.write h.buffer with buffer := [] }.rotateIfNeeded

/-- A handler on an empty directory. -/
def create (maxSize maxBackups : Nat) : FileHandler :=
  ({ maxSize, maxBackups, directory := fun _ => none } : FileHandler).openNewFile

section
variable {LogEntry : Type} (format : LogEntry → Bytes)

def handle (h : FileHandler) (entry : LogEntry) : FileHandler :=
  if !h.isOpen then h
  else
    let h := { h with buffer := h.buffer ++ format entry }
    if 1024 * 1024 < h.buffer.length then h.flush else h

end

end FileHandler

/-- What drives a handler. -/
inductive LogEvent (LogEntry : Type) where
  | handle (entry : LogEntry)
  | flush

namespace FileHandler

section
variable {LogEntry : Type} (format : LogEntry → Bytes)

def take (h : FileHandler) : LogEvent LogEntry → FileHandler
  | .handle entry => h.handle format entry
  | .flush => h.flush

def run (h : FileHandler) (events : List (LogEvent LogEntry)) : FileHandler :=
  events.foldl (take format) h

/-! What is meant. -/

/-- The pieces that the events flush, given what is in the buffer. -/
def flushed (buffer : Bytes) : List (LogEvent LogEntry) → List Bytes
  | [] => []
  | .handle entry :: rest =>
    let buffer := buffer ++ format entry
    if 1024 * 1024 < buffer.length then buffer :: flushed [] rest else flushed buffer rest
  | .flush :: rest => if buffer = [] then flushed [] rest else buffer :: flushed [] rest

end

/-- The backups and the base file, oldest first; `n` is the last backup. -/
def contents (d : Directory LogFile Bytes) : Nat → Bytes
  | 0 => (d .base).getD []
  | n + 1 => (d (.backup (n + 1))).getD [] ++ contents d n

/-- The newest data are there, and no more files than there should be. -/
structure Rotated (maxSize maxBackups : Nat) (d : Directory LogFile Bytes) (all : Bytes) : Prop where
  small : ((d .base).getD []).length < maxSize
  few : ∀ k, maxBackups < k → d (.backup k) = none
  newest : contents d maxBackups <:+ all

/-- How often files of at least `maxSize` bytes are filled by the pieces, `size` bytes being
there. -/
def fills (maxSize : Nat) : Nat → List Bytes → Nat
  | _, [] => 0
  | size, piece :: rest =>
    if size + piece.length < maxSize then fills maxSize (size + piece.length) rest
    else fills maxSize 0 rest + 1

/-! The loop over the backups. -/

section
variable {d : Directory LogFile Bytes}

theorem renameBackups_base (n : Nat) : renameBackups n d .base = d .base := by
  induction n generalizing d with
  | zero => rfl
  | succ n ih =>
    rw [renameBackups, ih]
    exact Directory.rename_of_ne (by simp) (by simp)

/-- Nothing above the last target is touched. -/
theorem renameBackups_above {n k : Nat} (hk : n + 1 < k) :
    renameBackups n d (.backup k) = d (.backup k) := by
  induction n generalizing d with
  | zero => rfl
  | succ n ih =>
    rw [renameBackups, ih (by omega)]
    apply Directory.rename_of_ne
    · simp only [ne_eq, LogFile.backup.injEq]
      omega
    · simp only [ne_eq, LogFile.backup.injEq]
      omega

/-- If the last target is free, every backup moves one place up. -/
theorem renameBackups_moves {n : Nat} (hfree : d (.backup (n + 1)) = none) :
    renameBackups n d (.backup 1) = none ∧
      ∀ k, 0 < k → k ≤ n → renameBackups n d (.backup (k + 1)) = d (.backup k) := by
  induction n generalizing d with
  | zero => exact ⟨hfree, by omega⟩
  | succ n ih =>
    let moved := d.rename (.backup (n + 1)) (.backup (n + 2))
    have hmoved : moved = Function.update (Function.update d (.backup (n + 2))
        (d (.backup (n + 1)))) (.backup (n + 1)) none := Directory.rename_of_free hfree
    have hleft : moved (.backup (n + 1)) = none := by
      rw [hmoved, Function.update_self]
    obtain ⟨hfirst, hrest⟩ := ih hleft
    refine ⟨hfirst, fun k hpos hk => ?_⟩
    show renameBackups n moved (.backup (k + 1)) = d (.backup k)
    obtain rfl | hlt := Nat.eq_or_lt_of_le hk
    · rw [renameBackups_above (by omega), hmoved, Function.update_of_ne (by simp),
        Function.update_self]
    · rw [hrest k hpos (by omega)]
      apply Directory.rename_of_ne
      · simp only [ne_eq, LogFile.backup.injEq]
        omega
      · simp only [ne_eq, LogFile.backup.injEq]
        omega

/-! One flush. -/

/-- What the flush of a piece makes of the files. -/
def store (maxSize maxBackups : Nat) (d : Directory LogFile Bytes) (piece : Bytes) :
    Directory LogFile Bytes :=
  (({ maxSize, maxBackups, directory := d } : FileHandler).write piece).rotateIfNeeded.directory

theorem flush_eq {h : FileHandler} (hopen : h.isOpen = true) (hbuffer : h.buffer ≠ []) :
    h.flush = { h with
      directory := store h.maxSize h.maxBackups h.directory h.buffer
      buffer := [] } := by
  obtain ⟨maxSize, maxBackups, directory, isOpen, buffer⟩ := h
  obtain rfl : isOpen = true := hopen
  unfold flush
  rw [if_neg hbuffer]
  unfold store
  generalize hwritten : ({ maxSize, maxBackups, directory } : FileHandler).write buffer = written
  obtain ⟨_, _, directory, _, _⟩ := written
  cases hwritten
  unfold rotateIfNeeded write
  dsimp only
  split <;> rfl

/-- `pieces`, newest first, are in the backups, and `rest` in the base file. -/
structure Stored (d : Directory LogFile Bytes) (pieces : List Bytes) (rest : Bytes) : Prop where
  base : d .base = some rest
  backups : ∀ k, d (.backup (k + 1)) = pieces[k]?

section
variable {maxSize maxBackups : Nat} {pieces : List Bytes} {rest piece : Bytes}

theorem Stored.append (h : Stored d pieces rest) (hsmall : rest.length + piece.length < maxSize) :
    Stored (store maxSize maxBackups d piece) pieces (rest ++ piece) := by
  have hstore : store maxSize maxBackups d piece = Function.update d .base (some (rest ++ piece)) := by
    unfold store rotateIfNeeded
    simp only [write, h.base, Function.update_self, Option.getD_some, List.length_append]
    rw [if_pos hsmall]
  rw [hstore]
  refine ⟨Function.update_self .., fun k => ?_⟩
  rw [Function.update_of_ne (by simp)]
  exact h.backups k

/-- The files after a rotation. -/
theorem store_of_full (h : Stored d pieces rest) (hfull : maxSize ≤ rest.length + piece.length)
    (hfree : d (.backup (maxBackups + 1)) = none) :
    store maxSize maxBackups d piece .base = some [] ∧
      store maxSize maxBackups d piece (.backup 1) = some (rest ++ piece) ∧
      (∀ k, 0 < k → k ≤ maxBackups →
        store maxSize maxBackups d piece (.backup (k + 1)) = d (.backup k)) ∧
      ∀ k, maxBackups + 1 < k → store maxSize maxBackups d piece (.backup k) = d (.backup k) := by
  let written := Function.update d .base (some (rest ++ piece))
  have hwritten (k : Nat) : written (.backup k) = d (.backup k) :=
    Function.update_of_ne (by simp) ..
  obtain ⟨hfirst, hmoved⟩ := renameBackups_moves ((hwritten (maxBackups + 1)).trans hfree)
  have habove {k : Nat} (hk : maxBackups + 1 < k) :
      renameBackups maxBackups written (.backup k) = d (.backup k) :=
    (renameBackups_above hk).trans (hwritten k)
  have hbase : renameBackups maxBackups written .base = some (rest ++ piece) :=
    (renameBackups_base maxBackups).trans (Function.update_self ..)
  set renamed := renameBackups maxBackups written
  have hlast : renamed.rename .base (.backup 1) = Function.update
      (Function.update renamed (.backup 1) (some (rest ++ piece))) .base none := by
    rw [Directory.rename_of_free hfirst, hbase]
  have hstore : store maxSize maxBackups d piece =
      Function.update (renamed.rename .base (.backup 1)) .base (some []) := by
    unfold store rotateIfNeeded
    simp only [write, h.base, Function.update_self, Option.getD_some, List.length_append]
    rw [if_neg (by omega)]
    show Function.update (renamed.rename .base (.backup 1)) .base
      (some ((renamed.rename .base (.backup 1) .base).getD [])) = _
    rw [hlast, Function.update_self]
    rfl
  rw [hstore, hlast]
  refine ⟨Function.update_self .., ?_, fun k hpos hk => ?_, fun k hk => ?_⟩
  · rw [Function.update_of_ne (by simp), Function.update_of_ne (by simp), Function.update_self]
  · rw [Function.update_of_ne (by simp), Function.update_of_ne (by simp),
      Function.update_of_ne (by simpa using by omega), hmoved k hpos hk, hwritten]
  · rw [Function.update_of_ne (by simp), Function.update_of_ne (by simp),
      Function.update_of_ne (by simpa using by omega), habove hk]

theorem Stored.rotate (h : Stored d pieces rest) (hfull : maxSize ≤ rest.length + piece.length)
    (hroom : pieces.length < maxBackups) :
    Stored (store maxSize maxBackups d piece) ((rest ++ piece) :: pieces) [] := by
  have hfree : d (.backup (maxBackups + 1)) = none := by
    rw [h.backups, List.getElem?_eq_none]
    omega
  obtain ⟨hbase, hfirst, hmoved, habove⟩ := store_of_full h hfull hfree
  refine ⟨hbase, fun k => ?_⟩
  cases k with
  | zero => exact hfirst
  | succ k =>
    rw [List.getElem?_cons_succ, ← h.backups]
    obtain hk | hk := Nat.lt_or_ge k maxBackups
    · exact hmoved (k + 1) (by omega) hk
    · rw [habove (k + 1 + 1) (by omega), h.backups, h.backups, List.getElem?_eq_none (by omega),
        List.getElem?_eq_none (by omega)]

/-- When all backups are there, one more is made. -/
theorem store_overflows (h : Stored d pieces rest) (hfull : maxSize ≤ rest.length + piece.length)
    (hlength : pieces.length = maxBackups) (hpos : 0 < maxBackups) :
    (store maxSize maxBackups d piece (.backup (maxBackups + 1))).isSome := by
  have hfree : d (.backup (maxBackups + 1)) = none := by
    rw [h.backups, List.getElem?_eq_none]
    omega
  obtain ⟨-, -, hmoved, -⟩ := store_of_full h hfull hfree
  rw [hmoved maxBackups hpos (Nat.le_refl _)]
  obtain ⟨n, rfl⟩ := Nat.exists_eq_succ_of_ne_zero (Nat.ne_of_gt hpos)
  rw [h.backups]
  simp [hlength]

theorem renameBackups_keeps {n k : Nat} (hk : n < k) (hsome : (d (.backup k)).isSome) :
    (renameBackups n d (.backup k)).isSome := by
  induction n generalizing d with
  | zero => exact hsome
  | succ n ih =>
    apply ih (by omega)
    apply Directory.isSome_rename hsome
    simp only [ne_eq, LogFile.backup.injEq]
    omega

/-- It stays there. -/
theorem store_keeps {k : Nat} (hk : maxBackups < k) (hsome : (d (.backup k)).isSome) :
    (store maxSize maxBackups d piece (.backup k)).isSome := by
  have hwritten : (Function.update d .base (some ((d .base).getD [] ++ piece)) (.backup k)).isSome := by
    rw [Function.update_of_ne (by simp)]
    exact hsome
  unfold store rotateIfNeeded
  split
  · exact hwritten
  · dsimp only [write, openNewFile]
    rw [Function.update_of_ne (by simp)]
    exact Directory.isSome_rename (renameBackups_keeps hk hwritten) (by simp)

/-! All flushes. -/

/-- As long as there is a backup left to fill, everything is stored. -/
theorem Stored.foldl (h : Stored d pieces rest) (hsmall : rest.length < maxSize)
    (flushes : List Bytes)
    (hroom : pieces.length + fills maxSize rest.length flushes ≤ maxBackups) :
    ∃ pieces' rest', Stored (flushes.foldl (store maxSize maxBackups) d) pieces' rest' ∧
      rest'.length < maxSize ∧ pieces'.length ≤ maxBackups ∧
      pieces'.reverse.flatten ++ rest' = pieces.reverse.flatten ++ rest ++ flushes.flatten := by
  induction flushes generalizing d pieces rest with
  | nil => exact ⟨pieces, rest, h, hsmall, by simpa [fills] using hroom, by simp⟩
  | cons piece flushes ih =>
    unfold fills at hroom
    rw [List.foldl_cons]
    split at hroom
    next hfits =>
      obtain ⟨pieces', rest', hstored, hsmall', hfew, hall⟩ :=
        ih (h.append hfits) (by simpa using hfits) (by simpa using hroom)
      exact ⟨pieces', rest', hstored, hsmall', hfew, by rw [hall]; simp⟩
    next hfull =>
      obtain ⟨pieces', rest', hstored, hsmall', hfew, hall⟩ :=
        ih (@Stored.rotate d maxSize maxBackups pieces rest piece h (Nat.le_of_not_lt hfull)
          (by omega)) (Nat.zero_lt_of_lt hsmall)
          (by simp only [List.length_cons, List.length_nil]; omega)
      exact ⟨pieces', rest', hstored, hsmall', hfew, by rw [hall]; simp⟩

theorem foldl_store_keeps {k : Nat} (hk : maxBackups < k) (hsome : (d (.backup k)).isSome)
    (flushes : List Bytes) : (flushes.foldl (store maxSize maxBackups) d (.backup k)).isSome := by
  induction flushes generalizing d with
  | nil => exact hsome
  | cons piece flushes ih => exact ih (store_keeps hk hsome)

/-- When one file more is filled than there are backups, there is a backup too many. -/
theorem Stored.overflows (h : Stored d pieces rest) (hpos : 0 < maxBackups)
    (hfew : pieces.length ≤ maxBackups) (flushes : List Bytes)
    (hfull : maxBackups < pieces.length + fills maxSize rest.length flushes) :
    (flushes.foldl (store maxSize maxBackups) d (.backup (maxBackups + 1))).isSome := by
  induction flushes generalizing d pieces rest with
  | nil =>
    simp only [fills] at hfull
    omega
  | cons piece flushes ih =>
    unfold fills at hfull
    rw [List.foldl_cons]
    split at hfull
    next hfits => exact ih (h.append hfits) hfew (by simpa using hfull)
    next hrotates =>
      obtain hroom | hlast := Nat.lt_or_eq_of_le hfew
      · apply ih (h.rotate (Nat.le_of_not_lt hrotates) hroom) hroom
        simp only [List.length_cons, List.length_nil]
        omega
      · exact foldl_store_keeps (Nat.lt_succ_self _)
          (store_overflows h (Nat.le_of_not_lt hrotates) hlast hpos) flushes

theorem contents_of_stored (h : Stored d pieces rest) (n : Nat) :
    contents d n = (pieces.take n).reverse.flatten ++ rest := by
  induction n with
  | zero =>
    rw [contents, h.base]
    rfl
  | succ n ih =>
    rw [contents, h.backups, ih]
    cases hget : pieces[n]? with
    | none =>
      rw [List.getElem?_eq_none_iff] at hget
      rw [List.take_of_length_le (by omega), List.take_of_length_le (by omega)]
      rfl
    | some piece =>
      rw [List.take_add_one, hget]
      simp

end

end

section
variable {LogEntry : Type} (format : LogEntry → Bytes)

/-- The run stores what it flushes, piece after piece. -/
theorem directory_run (events : List (LogEvent LogEntry)) (h : FileHandler)
    (hopen : h.isOpen = true) : (h.run format events).directory =
      (flushed format h.buffer events).foldl (store h.maxSize h.maxBackups) h.directory := by
  induction events generalizing h with
  | nil => rfl
  | cons e events ih =>
    show ((h.take format e).run format events).directory = _
    cases e with
    | flush =>
      rw [flushed]
      split
      next hempty =>
        have hsame : h.flush = h := if_pos hempty
        show (h.flush.run format events).directory = _
        rw [hsame, ih h hopen, hempty]
      next hbuffer =>
        show (h.flush.run format events).directory = _
        rw [flush_eq hopen hbuffer]
        exact ih _ hopen
    | handle entry =>
      have htaken : h.take format (.handle entry) =
          let h := { h with buffer := h.buffer ++ format entry }
          if 1024 * 1024 < h.buffer.length then h.flush else h := by
        show h.handle format entry = _
        unfold handle
        rw [if_neg (by simp [hopen])]
      rw [htaken, flushed]
      dsimp only
      split
      next hlarge =>
        have hbuffer : h.buffer ++ format entry ≠ [] := by
          intro hempty
          rw [hempty] at hlarge
          cases hlarge
        rw [@flush_eq { h with buffer := h.buffer ++ format entry } hopen hbuffer]
        exact ih _ hopen
      next => exact ih _ hopen

/-- **Rotation keeps the newest data within its bound** exactly as long as no more files have been
filled than there are backups. -/
theorem rotated_iff_fills {maxSize maxBackups : Nat} (hsize : 0 < maxSize)
    (hbackups : 1 ≤ maxBackups) (events : List (LogEvent LogEntry)) :
    Rotated maxSize maxBackups ((create maxSize maxBackups).run format events).directory
        (flushed format [] events).flatten ↔
      fills maxSize 0 (flushed format [] events) ≤ maxBackups := by
  have hcreated : Stored (create maxSize maxBackups).directory [] [] := ⟨rfl, fun _ => rfl⟩
  have hrun := directory_run format events (create maxSize maxBackups) rfl
  rw [hrun]
  show Rotated maxSize maxBackups ((flushed format [] events).foldl (store maxSize maxBackups)
    (create maxSize maxBackups).directory) _ ↔ _
  constructor
  · intro hrotated
    by_contra hmany
    have hextra := hcreated.overflows hbackups (Nat.zero_le _) (flushed format [] events)
      (by simpa using hmany)
    rw [hrotated.few _ (Nat.lt_succ_self _)] at hextra
    cases hextra
  · intro hfew
    obtain ⟨pieces, rest, hstored, hsmall, hlength, hall⟩ :=
      hcreated.foldl hsize (flushed format [] events) (by simpa using hfew)
    refine ⟨?_, fun k hk => ?_, ?_⟩
    · rw [hstored.base]
      exact hsmall
    · obtain ⟨n, rfl⟩ := Nat.exists_eq_succ_of_ne_zero (Nat.ne_of_gt (Nat.zero_lt_of_lt hk))
      rw [hstored.backups, List.getElem?_eq_none (by omega)]
    · rw [contents_of_stored hstored, List.take_of_length_le hlength, hall]
      simp

end

/-- The pieces are the log entries themselves. -/
theorem rotated_iff_fills_once :
    Rotated 1 1 ((create 1 1).run id [.handle [0x41], .flush]).directory
        (flushed id [] [.handle [0x41], .flush]).flatten ↔
      fills 1 0 (flushed id [] [.handle [0x41], .flush]) ≤ 1 :=
  rotated_iff_fills id (by decide) (by decide) _

/-- With one backup, the second rotation makes another. -/
theorem not_rotated_twice : ¬Rotated 1 1
    ((create 1 1).run id [.handle [0x41], .flush, .handle [0x42], .flush]).directory
    (flushed id [] [.handle [0x41], .flush, .handle [0x42], .flush]).flatten := by
  intro hrotated
  have hnone := hrotated.few 2 (by decide)
  revert hnone
  decide

end FileHandler

end PPB
