import PPBProject.SemVer
import PPBProject.Lib.Best

/- The choice of an update. `handleReleaseList` goes once through the releases that GitHub has
   answered with and keeps the best of those that get through its tests. What Qt makes of the text
   of an URL is a parameter.

   Correspondence (C++ ↔ Lean):
     `QJsonDocument::fromJson(reply->readAll())`      ↔ `Reply.document`, `none` on a parse error
     `QJsonValue`, `QJsonObject::value`               ↔ `Json`, `Json.value`; undefined as `null`
     `QUrl(QString)` and what is asked of it          ↔ `qurl`, `Url`
     the body of the loop up to `installerUrl`        ↔ `candidateOf?`
     the loop                                         ↔ `bestCandidate`
     the message boxes, `offerUpdate`                 ↔ `Outcome`
   What `offerUpdate` asks and downloads then is in `Installer`. -/
namespace PPB

/-! JSON, as Qt has parsed it: no object has a key twice. -/

inductive Json
  | null
  | bool (value : Bool)
  | number
  | string (value : String)
  | array (items : List Json)
  | object (members : List (String × Json))

namespace Json

def toBool : Json → Bool
  | bool value => value
  | _ => false

def toString : Json → String
  | string value => value
  | _ => ""

def toArray : Json → List Json
  | array items => items
  | _ => []

/-- `toObject().value(key)`. -/
def value (json : Json) (key : String) : Json :=
  match json with
  | object members => (members.lookup key).getD null
  | _ => null

end Json

/-! Releases. -/

/-- What the code asks of a `QUrl`. -/
structure Url where
  isValid : Bool := false
  scheme : String := ""
  host : String := ""

structure Candidate where
  version : String := ""
  installerUrl : Url := {}
  sha256 : List Char := []

/-- The case folding of Qt, of the letters that fold to one of "sha256:". -/
def foldCase (ch : Char) : Char := if ch = 'ſ' then 's' else ch.toLower

/-- The digest in lower case, or nothing. -/
def parseSha256Digest (digest : String) : List Char :=
  let folded := "sha256:".toList
  if (digest.toList.take folded.length).map foldCase ≠ folded then []
  else
    let value := (trimmed (digest.toList.drop folded.length)).map Char.toLower
    if value.length = 64 ∧ value.all isHexDigit then value else []

/-- The tests of an asset's name. -/
def isInstallerName (name : List Char) : Bool :=
  "PPB-".toList.isPrefixOf name && "-Windows-x86_64.exe".toList.isSuffixOf name

/-- The tests of its URL. -/
def isGitHubUrl (url : Url) : Bool :=
  url.isValid && url.scheme = "https" && url.host.toList.map Char.toLower = "github.com".toList

section
variable (qurl : String → Url)

/-- One turn of the loop over the assets. -/
def installerOf? (asset : Json) : Option (Url × List Char) :=
  let name := (asset.value "name").toString
  let url := qurl (asset.value "browser_download_url").toString
  if !isInstallerName name.toList then none
  else if !isGitHubUrl url then none
  else some (url, parseSha256Digest (asset.value "digest").toString)

/-- The tag, without a leading v. -/
def versionOf (release : Json) : String :=
  let version := trimmed (release.value "tag_name").toString.toList
  String.ofList (if version.head? = some 'v' then version.tail else version)

def candidateOf? (currentVersion : String) (release : Json) : Option Candidate :=
  let allowPrerelease := currentVersion.toList.contains '-'
  let version := versionOf release
  if (release.value "draft").toBool then none
  else if (release.value "prerelease").toBool && !allowPrerelease then none
  else if !isValidSemVer version || compareSemVer version currentVersion ≤ 0 then none
  else
    let candidate : Candidate :=
      match (release.value "assets").toArray.findSome? (installerOf? qurl) with
      | some (installerUrl, sha256) => { version, installerUrl, sha256 }
      | none => { version }
    if !candidate.installerUrl.isValid then none else some candidate

/-- `best`, after one more release. -/
def keepBest (currentVersion : String) (best : Candidate) (release : Json) : Candidate :=
  match candidateOf? qurl currentVersion release with
  | none => best
  | some candidate =>
    if best.version.isEmpty || compareSemVer candidate.version best.version > 0 then candidate
    else best

def bestCandidate (currentVersion : String) (releases : List Json) : Candidate :=
  releases.foldl (keepBest qurl currentVersion) {}

structure Reply where
  errorString : Option String
  document : Option Json

inductive Outcome
  | silent
  | warning (title text : String)
  | information (title text : String)
  | offerUpdate (candidate : Candidate)

def handleReleaseList (currentVersion : String) (interactive : Bool) (reply : Reply) : Outcome :=
  let title := "Проверка обновлений"
  match reply.errorString with
  | some error =>
    if interactive then .warning title ("Не удалось проверить обновления:\n" ++ error) else .silent
  | none =>
    match reply.document with
    | some (.array releases) =>
      let best := bestCandidate qurl currentVersion releases
      if best.version.isEmpty then
        if interactive then
          .information title ("Установлена актуальная версия " ++ currentVersion ++ ".")
        else .silent
      else .offerUpdate best
    | _ => if interactive then .warning title "GitHub вернул некорректный ответ." else .silent

/-- `best`, with the release it was made of. -/
def keepBestFrom (currentVersion : String) (best : Candidate × Option Json) (release : Json) :
    Candidate × Option Json :=
  match candidateOf? qurl currentVersion release with
  | none => best
  | some candidate =>
    if best.1.version.isEmpty || compareSemVer candidate.version best.1.version > 0 then
      (candidate, some release)
    else best

/-- The release that is offered. -/
def offeredRelease (currentVersion : String) (releases : List Json) : Option Json :=
  (releases.foldl (keepBestFrom qurl currentVersion) ({}, none)).2

/-! What gets through the tests. -/

/-- The tests before the loop over the assets. -/
structure IsConsidered (currentVersion : String) (release : Json) : Prop where
  notDraft : (release.value "draft").toBool = false
  allowed : (release.value "prerelease").toBool = true → '-' ∈ currentVersion.toList
  valid : isValidSemVer (versionOf release) = true
  newer : 0 < compareSemVer (versionOf release) currentVersion

/-- All tests, where `names` are the names of installers. -/
structure GetsThrough (names : List Char → Prop) (currentVersion : String) (release : Json) : Prop
    extends IsConsidered currentVersion release where
  installer : ∃ asset ∈ (release.value "assets").toArray,
    names (asset.value "name").toString.toList ∧
      isGitHubUrl (qurl (asset.value "browser_download_url").toString) = true

end

section
variable {qurl : String → Url} {currentVersion : String} {release : Json}

theorem installerOf?_eq_some {asset : Json} {url : Url} {sha256 : List Char}
    (h : installerOf? qurl asset = some (url, sha256)) :
    isInstallerName (asset.value "name").toString.toList = true ∧
      url = qurl (asset.value "browser_download_url").toString ∧ isGitHubUrl url = true := by
  unfold installerOf? at h
  simp only at h
  split at h
  next => exact absurd h (by simp)
  next hname =>
    split at h
    next => exact absurd h (by simp)
    next hurl =>
      simp only [Option.some.injEq, Prod.mk.injEq] at h
      obtain ⟨rfl, -⟩ := h
      exact ⟨by simpa using hname, rfl, by simpa using hurl⟩

theorem installerOf?_isSome {asset : Json}
    (hname : isInstallerName (asset.value "name").toString.toList = true)
    (hurl : isGitHubUrl (qurl (asset.value "browser_download_url").toString) = true) :
    (installerOf? qurl asset).isSome = true := by
  simp [installerOf?, hname, hurl]

theorem isValid_of_isGitHubUrl {url : Url} (h : isGitHubUrl url = true) : url.isValid = true := by
  simp only [isGitHubUrl, Bool.and_eq_true] at h
  exact h.1.1

theorem candidateOf?_of_not (h : ¬ IsConsidered currentVersion release) :
    candidateOf? qurl currentVersion release = none := by
  unfold candidateOf?
  simp only
  split
  next => rfl
  next hdraft =>
    split
    next => rfl
    next hallowed =>
      split
      next => rfl
      next hversion =>
        rw [Bool.or_eq_true, decide_eq_true_eq, not_or, not_le] at hversion
        refine absurd ⟨by simpa using hdraft, ?_, by simpa using hversion.1, hversion.2⟩ h
        intro hflag
        simpa [hflag] using hallowed

theorem candidateOf?_of_isConsidered (h : IsConsidered currentVersion release) :
    candidateOf? qurl currentVersion release =
      ((release.value "assets").toArray.findSome? (installerOf? qurl)).map
        fun found => ⟨versionOf release, found.1, found.2⟩ := by
  have hflag : ((release.value "prerelease").toBool && !currentVersion.toList.contains '-') =
      false := by
    cases hprerelease : (release.value "prerelease").toBool with
    | false => rfl
    | true => simpa using h.allowed hprerelease
  have hversion : (!isValidSemVer (versionOf release) ||
      decide (compareSemVer (versionOf release) currentVersion ≤ 0)) = false := by
    simpa [h.valid] using h.newer
  simp only [candidateOf?, h.notDraft, hflag, hversion, Bool.false_eq_true, if_false]
  cases hfound : (release.value "assets").toArray.findSome? (installerOf? qurl) with
  | none => rfl
  | some found =>
    obtain ⟨asset, -, hasset⟩ := List.exists_of_findSome?_eq_some hfound
    obtain ⟨-, -, hgithub⟩ := installerOf?_eq_some hasset
    simp [isValid_of_isGitHubUrl hgithub]

theorem candidateOf?_isSome_iff :
    (candidateOf? qurl currentVersion release).isSome = true ↔
      GetsThrough qurl (isInstallerName · = true) currentVersion release := by
  by_cases hconsidered : IsConsidered currentVersion release
  · rw [candidateOf?_of_isConsidered hconsidered, Option.isSome_map, List.findSome?_isSome_iff]
    constructor
    · rintro ⟨asset, hmem, hasset⟩
      obtain ⟨⟨url, sha256⟩, hsome⟩ := Option.isSome_iff_exists.mp hasset
      obtain ⟨hname, rfl, hgithub⟩ := installerOf?_eq_some hsome
      exact ⟨hconsidered, asset, hmem, hname, hgithub⟩
    · rintro ⟨-, asset, hmem, hname, hurl⟩
      exact ⟨asset, hmem, installerOf?_isSome hname hurl⟩
  · rw [candidateOf?_of_not hconsidered]
    constructor
    · exact fun h => absurd h (by simp)
    · exact fun h => absurd h.toIsConsidered hconsidered

theorem version_of_candidateOf? {candidate : Candidate}
    (h : candidateOf? qurl currentVersion release = some candidate) :
    candidate.version = versionOf release ∧ isValidSemVer candidate.version = true := by
  have hthrough := candidateOf?_isSome_iff.mp (Option.isSome_iff_exists.mpr ⟨_, h⟩)
  have hversion : candidate.version = versionOf release := by
    rw [candidateOf?_of_isConsidered hthrough.toIsConsidered] at h
    obtain ⟨found, -, rfl⟩ := Option.map_eq_some_iff.mp h
    rfl
  exact ⟨hversion, hversion ▸ hthrough.valid⟩

/-! The loop is one pass for the best. -/

theorem isEmpty_of_isValidSemVer {version : String} (h : isValidSemVer version = true) :
    version.isEmpty = false := by
  by_contra hempty
  rw [Bool.not_eq_false, String.isEmpty_iff] at hempty
  rw [hempty] at h
  exact absurd h (by decide)

/-- Releases by their versions. -/
def releaseOrder (release other : Json) : Ordering :=
  versionOrder (versionOf release) (versionOf other)

instance : Std.TransCmp releaseOrder where
  eq_swap {a b} := by
    unfold releaseOrder
    exact Std.OrientedCmp.eq_swap
  isLE_trans {a b c} hab hbc := by
    unfold releaseOrder at hab hbc ⊢
    exact Std.TransCmp.isLE_trans hab hbc

theorem keepBestFrom_fst (releases : List Json) :
    (releases.foldl (keepBestFrom qurl currentVersion) ({}, none)).1 =
      bestCandidate qurl currentVersion releases := by
  rw [bestCandidate, ← List.foldl_hom Prod.fst]
  intro best release
  unfold keepBest keepBestFrom
  cases candidateOf? qurl currentVersion release with
  | none => rfl
  | some candidate =>
    simp only
    split <;> rfl

theorem offeredRelease_eq (releases : List Json) :
    offeredRelease qurl currentVersion releases =
      Best.best releaseOrder
        (releases.filter fun release => (candidateOf? qurl currentVersion release).isSome) ∧
    bestCandidate qurl currentVersion releases =
      ((offeredRelease qurl currentVersion releases).bind
        (candidateOf? qurl currentVersion)).getD {} := by
  rw [← keepBestFrom_fst, offeredRelease]
  induction releases using List.reverseRecOn with
  | nil => exact ⟨rfl, rfl⟩
  | append_singleton releases release ih =>
    obtain ⟨hsnd, hfst⟩ := ih
    rw [List.foldl_append, List.foldl_cons, List.foldl_nil, List.filter_append]
    generalize List.foldl (keepBestFrom qurl currentVersion) ({}, none) releases = best at *
    unfold keepBestFrom
    cases hrelease : candidateOf? qurl currentVersion release with
    | none =>
      rw [List.filter_cons_of_neg (by simp [hrelease]), List.filter_nil, List.append_nil]
      exact ⟨hsnd, hfst⟩
    | some candidate =>
      rw [List.filter_cons_of_pos (by simp [hrelease]), List.filter_nil, Best.best_concat, ← hsnd]
      obtain ⟨held, source⟩ := best
      cases source with
      | none =>
        obtain rfl : held = {} := hfst
        exact ⟨rfl, by simp [hrelease]⟩
      | some other =>
        -- what is held is the candidate of a release that got through before
        have hother := (Best.exists_split_of_best_filter hsnd.symm).1
        obtain ⟨candidate', hcandidate'⟩ := Option.isSome_iff_exists.mp hother
        obtain rfl : held = candidate' := by simpa [hcandidate'] using hfst
        obtain ⟨hversion, hvalid⟩ := version_of_candidateOf? hrelease
        obtain ⟨hversion', hvalid'⟩ := version_of_candidateOf? hcandidate'
        have hiff : (held.version.isEmpty ||
            decide (compareSemVer candidate.version held.version > 0)) = true ↔
            releaseOrder release other = .gt := by
          rw [isEmpty_of_isValidSemVer hvalid', Bool.false_or, decide_eq_true_eq, gt_iff_lt,
            compareSemVer_pos_iff hvalid hvalid', releaseOrder, hversion, hversion']
        by_cases hgt : releaseOrder release other = .gt
        · simp only [if_pos (hiff.mpr hgt), List.argAux, if_pos hgt]
          exact ⟨trivial, by simp [hrelease]⟩
        · simp only [if_neg (mt hiff.mp hgt), List.argAux, if_neg hgt]
          exact ⟨trivial, by simp [hcandidate']⟩

end

end PPB
