import PPBProject.Update

/- What is offered. The loop offers the best of the releases that get through its tests. These are
   the eligible ones and those with an installer that has no version in its name: the tests of the
   name let the hyphen before the version be the one after it. A release counts as a prerelease by
   the flag that GitHub has for it, and the running version by a hyphen anywhere in it. -/
namespace PPB

/-- `PPB-*-Windows-x86_64.exe`. -/
def MatchesInstaller (name : List Char) : Prop :=
  ∃ version, name = "PPB-".toList ++ version ++ "-Windows-x86_64.exe".toList

def nameWithoutVersion : List Char := "PPB-Windows-x86_64.exe".toList

theorem isInstallerName_iff {name : List Char} :
    isInstallerName name = true ↔ MatchesInstaller name ∨ name = nameWithoutVersion := by
  unfold isInstallerName MatchesInstaller nameWithoutVersion
  rw [Bool.and_eq_true, List.isPrefixOf_iff_prefix, List.isSuffixOf_iff_suffix]
  constructor
  · rintro ⟨⟨rest, rfl⟩, ⟨front, hfront⟩⟩
    -- how much of the prefix is left before the suffix
    match front with
    | [] => exact absurd hfront (by simp)
    | [_] => exact absurd hfront (by simp)
    | [_, _] => exact absurd hfront (by simp)
    | [_, _, _] =>
      have hsuffix : "-Windows-x86_64.exe".toList = '-' :: "Windows-x86_64.exe".toList := by decide
      obtain ⟨-, -, -, hrest⟩ : _ ∧ _ ∧ _ ∧ "Windows-x86_64.exe".toList = rest := by
        rw [hsuffix] at hfront
        simpa using hfront
      right
      rw [← hrest]
      decide
    | _ :: _ :: _ :: _ :: version =>
      obtain ⟨-, -, -, -, hrest⟩ :
          _ ∧ _ ∧ _ ∧ _ ∧ version ++ "-Windows-x86_64.exe".toList = rest := by
        simpa using hfront
      exact .inl ⟨version, by rw [← hrest, List.append_assoc]⟩
  · rintro (⟨version, rfl⟩ | rfl)
    · exact ⟨⟨version ++ _, by rw [List.append_assoc]⟩, ⟨_ ++ version, rfl⟩⟩
    · decide

/-! The best eligible release. -/

section
variable (qurl : String → Url) (currentVersion : String) (interactive : Bool)

def Eligible (release : Json) : Prop :=
  GetsThrough qurl MatchesInstaller currentVersion release

/-- What becomes of a list of releases. -/
def outcomeOf (releases : List Json) : Outcome :=
  handleReleaseList qurl currentVersion interactive ⟨none, some (.array releases)⟩

/-- The best eligible release is offered, whatever the order of the list. -/
structure OffersBest (releases : List Json) : Prop where
  nothing : (∀ candidate, outcomeOf qurl currentVersion interactive releases ≠
      .offerUpdate candidate) ↔ ∀ release ∈ releases, ¬ Eligible qurl currentVersion release
  offered : ∀ candidate, outcomeOf qurl currentVersion interactive releases =
      .offerUpdate candidate → ∃ release ∈ releases,
        offeredRelease qurl currentVersion releases = some release ∧
        candidateOf? qurl currentVersion release = some candidate ∧
        Eligible qurl currentVersion release ∧
        ∀ other ∈ releases, Eligible qurl currentVersion other →
          compareSemVer (versionOf other) candidate.version ≤ 0
  permuted : ∀ others, releases.Perm others → ∀ candidate candidate',
    outcomeOf qurl currentVersion interactive releases = .offerUpdate candidate →
    outcomeOf qurl currentVersion interactive others = .offerUpdate candidate' →
    compareSemVer candidate.version candidate'.version = 0

/-- A release that gets through by an installer without a version in its name, and by no other, is
    below an eligible one, or comes after an eligible one that is equal. -/
def EligibleGoFirst (releases : List Json) : Prop :=
  ∀ before release after, releases = before ++ release :: after →
    GetsThrough qurl (· = nameWithoutVersion) currentVersion release →
    ¬ Eligible qurl currentVersion release →
    (∃ other ∈ releases, Eligible qurl currentVersion other ∧
      0 < compareSemVer (versionOf other) (versionOf release)) ∨
    ∃ other ∈ before, Eligible qurl currentVersion other ∧
      compareSemVer (versionOf other) (versionOf release) = 0

end

section
variable {qurl : String → Url} {currentVersion : String} {interactive : Bool}
  {release other : Json} {releases : List Json}

theorem getsThrough_iff :
    (candidateOf? qurl currentVersion release).isSome = true ↔
      Eligible qurl currentVersion release ∨
        GetsThrough qurl (· = nameWithoutVersion) currentVersion release := by
  rw [candidateOf?_isSome_iff]
  constructor
  · rintro ⟨hconsidered, asset, hmem, hname, hurl⟩
    rcases isInstallerName_iff.mp hname with hname | hname
    · exact .inl ⟨hconsidered, asset, hmem, hname, hurl⟩
    · exact .inr ⟨hconsidered, asset, hmem, hname, hurl⟩
  · rintro (⟨hconsidered, asset, hmem, hname, hurl⟩ | ⟨hconsidered, asset, hmem, hname, hurl⟩)
    · exact ⟨hconsidered, asset, hmem, isInstallerName_iff.mpr (.inl hname), hurl⟩
    · exact ⟨hconsidered, asset, hmem, isInstallerName_iff.mpr (.inr hname), hurl⟩

/-- The releases that get through are valid, so the comparison is their order. -/
theorem compareSemVer_releases
    (h : (candidateOf? qurl currentVersion release).isSome = true)
    (h' : (candidateOf? qurl currentVersion other).isSome = true) :
    compare (compareSemVer (versionOf release) (versionOf other)) 0 = releaseOrder release other :=
  sign_compareSemVer_of_valid (candidateOf?_isSome_iff.mp h).valid
    (candidateOf?_isSome_iff.mp h').valid

theorem outcomeOf_eq_offerUpdate_iff {candidate : Candidate} :
    outcomeOf qurl currentVersion interactive releases = .offerUpdate candidate ↔
      ∃ release, offeredRelease qurl currentVersion releases = some release ∧
        candidateOf? qurl currentVersion release = some candidate := by
  obtain ⟨hbest, hcandidate⟩ := @offeredRelease_eq qurl currentVersion releases
  unfold outcomeOf handleReleaseList
  simp only
  cases hoffered : offeredRelease qurl currentVersion releases with
  | none =>
    have hempty : (bestCandidate qurl currentVersion releases).version.isEmpty = true := by
      rw [hcandidate, hoffered]
      rfl
    rw [if_pos hempty]
    cases interactive <;> simp
  | some release =>
    rw [hoffered] at hbest hcandidate
    have hsome := (Best.exists_split_of_best_filter hbest.symm).1
    obtain ⟨found, hfound⟩ := Option.isSome_iff_exists.mp hsome
    rw [Option.bind_some, hfound, Option.getD_some] at hcandidate
    have hvalid := (version_of_candidateOf? hfound).2
    rw [hcandidate, if_neg (by simp [isEmpty_of_isValidSemVer hvalid])]
    simp [hfound]

theorem offeredRelease_eq_none_iff :
    offeredRelease qurl currentVersion releases = none ↔
      ∀ release ∈ releases, (candidateOf? qurl currentVersion release).isSome = false := by
  rw [(offeredRelease_eq releases).1, Best.best_filter_eq_none_iff]

/-- A release is offered, of those that get through, and none of these is above it. -/
theorem of_offeredRelease (h : offeredRelease qurl currentVersion releases = some release) :
    release ∈ releases ∧ (candidateOf? qurl currentVersion release).isSome = true ∧
      ∀ other ∈ releases, (candidateOf? qurl currentVersion other).isSome = true →
        compareSemVer (versionOf other) (versionOf release) ≤ 0 := by
  rw [(offeredRelease_eq releases).1] at h
  have hsome := (Best.exists_split_of_best_filter h).1
  refine ⟨Best.mem_of_best_filter h, hsome, ?_⟩
  intro other hother hsome'
  have hle := Best.isLE_of_best_filter h hother hsome'
  rw [← compareSemVer_releases hsome' hsome] at hle
  exact Std.isLE_compare.mp hle

theorem exists_offer_iff :
    (∃ candidate, outcomeOf qurl currentVersion interactive releases = .offerUpdate candidate) ↔
      ∃ release ∈ releases, (candidateOf? qurl currentVersion release).isSome = true := by
  constructor
  · rintro ⟨candidate, hcandidate⟩
    obtain ⟨release, hrelease, -⟩ := outcomeOf_eq_offerUpdate_iff.mp hcandidate
    exact ⟨release, (of_offeredRelease hrelease).1, (of_offeredRelease hrelease).2.1⟩
  · rintro ⟨release, hmem, hsome⟩
    cases hoffered : offeredRelease qurl currentVersion releases with
    | none =>
      rw [offeredRelease_eq_none_iff.mp hoffered release hmem] at hsome
      exact absurd hsome (by decide)
    | some other =>
      obtain ⟨candidate, hcandidate⟩ :=
        Option.isSome_iff_exists.mp (of_offeredRelease hoffered).2.1
      exact ⟨candidate, outcomeOf_eq_offerUpdate_iff.mpr ⟨other, hoffered, hcandidate⟩⟩

/-- The other properties hold of whatever is offered. -/
theorem offersBest_iff_offered :
    OffersBest qurl currentVersion interactive releases ↔
      ∀ release, offeredRelease qurl currentVersion releases = some release →
        Eligible qurl currentVersion release := by
  constructor
  · intro h release hrelease
    obtain ⟨candidate, hcandidate⟩ :=
      Option.isSome_iff_exists.mp (of_offeredRelease hrelease).2.1
    obtain ⟨other, -, hother, -, heligible, -⟩ := h.offered candidate
      (outcomeOf_eq_offerUpdate_iff.mpr ⟨release, hrelease, hcandidate⟩)
    rw [hrelease] at hother
    exact Option.some.inj hother ▸ heligible
  · intro h
    refine ⟨?_, ?_, ?_⟩
    · constructor
      · intro hnothing release hmem heligible
        obtain ⟨candidate, hcandidate⟩ := (@exists_offer_iff qurl currentVersion interactive
          releases).mpr ⟨release, hmem, getsThrough_iff.mpr (.inl heligible)⟩
        exact hnothing candidate hcandidate
      · intro hnone candidate hcandidate
        obtain ⟨release, hrelease, -⟩ := outcomeOf_eq_offerUpdate_iff.mp hcandidate
        exact hnone release (of_offeredRelease hrelease).1 (h release hrelease)
    · intro candidate hcandidate
      obtain ⟨release, hrelease, hfound⟩ := outcomeOf_eq_offerUpdate_iff.mp hcandidate
      obtain ⟨hmem, hsome, hhighest⟩ := of_offeredRelease hrelease
      refine ⟨release, hmem, hrelease, hfound, h release hrelease, ?_⟩
      intro other hother heligible
      rw [(version_of_candidateOf? hfound).1]
      exact hhighest other hother (getsThrough_iff.mpr (.inl heligible))
    · intro others hperm candidate candidate' hcandidate hcandidate'
      obtain ⟨release, hrelease, hfound⟩ := outcomeOf_eq_offerUpdate_iff.mp hcandidate
      obtain ⟨release', hrelease', hfound'⟩ := outcomeOf_eq_offerUpdate_iff.mp hcandidate'
      rw [(version_of_candidateOf? hfound).1, (version_of_candidateOf? hfound').1]
      have hsome := (of_offeredRelease hrelease).2.1
      have hsome' := (of_offeredRelease hrelease').2.1
      rw [(offeredRelease_eq releases).1] at hrelease
      rw [(offeredRelease_eq others).1] at hrelease'
      rw [← compare_eq_iff_eq, compareSemVer_releases hsome hsome']
      exact Best.compare_of_perm hperm hrelease hrelease'

/-- The best eligible release is offered exactly where those that get through without a version in
    the name of the installer do not go first. -/
theorem offersBest_iff :
    OffersBest qurl currentVersion interactive releases ↔
      EligibleGoFirst qurl currentVersion releases := by
  rw [offersBest_iff_offered, (offeredRelease_eq releases).1, Best.forall_best_filter_iff]
  constructor
  · intro h before release after hl hwithout hnot
    rcases h before release after hl (getsThrough_iff.mpr (.inr hwithout)) hnot with
      ⟨other, hmem, -, heligible, hgt⟩ | ⟨other, hmem, -, heligible, heq⟩
    · refine .inl ⟨other, hmem, heligible, ?_⟩
      exact (compareSemVer_pos_iff heligible.valid hwithout.valid).mpr hgt
    · refine .inr ⟨other, hmem, heligible, ?_⟩
      exact (compareSemVer_eq_zero_iff heligible.valid hwithout.valid).mpr heq
  · intro h before release after hl hthrough hnot
    have hwithout := (getsThrough_iff.mp hthrough).resolve_left hnot
    rcases h before release after hl hwithout hnot with
      ⟨other, hmem, heligible, hpos⟩ | ⟨other, hmem, heligible, hzero⟩
    · refine .inl ⟨other, hmem, getsThrough_iff.mpr (.inl heligible), heligible, ?_⟩
      exact (compareSemVer_pos_iff heligible.valid hwithout.valid).mp hpos
    · refine .inr ⟨other, hmem, getsThrough_iff.mpr (.inl heligible), heligible, ?_⟩
      exact (compareSemVer_eq_zero_iff heligible.valid hwithout.valid).mp hzero

/-- The URL of an `https` text without a user and a port; no other text is valid here. -/
def httpsUrl (text : String) : Url :=
  let scheme := "https://".toList
  if scheme.isPrefixOf text.toList then
    { isValid := true
      scheme := "https"
      host := String.ofList ((text.toList.drop scheme.length).takeWhile (· ≠ '/')) }
  else {}

def releaseWith (tag : String) (prerelease : Bool) (installer : String) : Json :=
  .object [("tag_name", .string tag), ("draft", .bool false), ("prerelease", .bool prerelease),
    ("assets", .array [.object [("name", .string installer),
      ("browser_download_url", .string ("https://github.com/releases/" ++ installer))]])]

/-- A release is offered for an installer without a version in its name. -/
theorem not_offersBest : ¬ OffersBest httpsUrl "1.0.0" false
    [releaseWith "v1.1.0" false "PPB-Windows-x86_64.exe"] := by
  intro h
  have hnone : ∀ release ∈ [releaseWith "v1.1.0" false "PPB-Windows-x86_64.exe"],
      ¬ Eligible httpsUrl "1.0.0" release := by
    rintro release hmem ⟨-, asset, hasset, ⟨version, hname⟩, -⟩
    obtain rfl := List.mem_singleton.mp hmem
    obtain rfl := List.mem_singleton.mp hasset
    have hlength := congrArg List.length hname
    rw [List.length_append, List.length_append] at hlength
    change 22 = 4 + version.length + 19 at hlength
    omega
  obtain ⟨candidate, hcandidate⟩ := exists_offer_iff.mpr
    ⟨_, List.mem_singleton.mpr rfl, show (candidateOf? httpsUrl "1.0.0"
      (releaseWith "v1.1.0" false "PPB-Windows-x86_64.exe")).isSome = true by decide⟩
  exact h.nothing.mpr hnone candidate hcandidate

/-! Stable builds. -/

/-- A version without a prerelease component. -/
def IsStable (version : String) : Prop := ∀ m ∈ semVer? version, m.identifiers = []

instance (version : String) : Decidable (IsStable version) :=
  inferInstanceAs (Decidable (∀ m ∈ semVer? version, m.identifiers = []))

theorem identifiers_of_compareLex_eq {m n : Captured}
    (h : List.compareLex Component.asRead m.components n.components = .eq) :
    m.identifiers = [] ↔ n.identifiers = [] := by
  rw [Component.asRead, compareLex_components] at h
  simp only [Ordering.then_eq_eq] at h
  obtain ⟨-, -, -, hidentifiers⟩ := h
  unfold prereleaseOrder at hidentifiers
  split at hidentifiers
  next hm hn => simp [hm, hn]
  next => exact absurd hidentifiers (by decide)
  next => exact absurd hidentifiers (by decide)
  next hm hn => simp [hm, hn]

theorem isStable_of_versionOrder_eq {a b : String} (ha : isValidSemVer a = true)
    (hb : isValidSemVer b = true) (h : versionOrder a b = .eq) (hstable : IsStable a) :
    IsStable b := by
  obtain ⟨m, hm⟩ := (isValidSemVer_iff a).mp ha
  obtain ⟨n, hn⟩ := (isValidSemVer_iff b).mp hb
  rw [versionOrder, componentsOf_eq hm, componentsOf_eq hn] at h
  intro n' hn'
  obtain rfl : n = n' := Option.some.inj (hn.symm.trans hn')
  exact (identifiers_of_compareLex_eq h).mp (hstable m hm)

/-- Every prerelease that gets through is below a release that gets through and is none. -/
def StableGoFirst (qurl : String → Url) (currentVersion : String) (releases : List Json) : Prop :=
  ∀ release ∈ releases, GetsThrough qurl (isInstallerName · = true) currentVersion release →
    ¬ IsStable (versionOf release) →
    ∃ other ∈ releases, GetsThrough qurl (isInstallerName · = true) currentVersion other ∧
      IsStable (versionOf other) ∧ 0 < compareSemVer (versionOf other) (versionOf release)

/-- No prerelease is offered exactly where those that get through do not go first. -/
theorem offers_stable_iff :
    (∀ candidate, outcomeOf qurl currentVersion interactive releases = .offerUpdate candidate →
      IsStable candidate.version) ↔ StableGoFirst qurl currentVersion releases := by
  have hoffered : (∀ candidate, outcomeOf qurl currentVersion interactive releases =
      .offerUpdate candidate → IsStable candidate.version) ↔
      ∀ release, offeredRelease qurl currentVersion releases = some release →
        IsStable (versionOf release) := by
    constructor
    · intro h release hrelease
      obtain ⟨candidate, hcandidate⟩ :=
        Option.isSome_iff_exists.mp (of_offeredRelease hrelease).2.1
      rw [← (version_of_candidateOf? hcandidate).1]
      exact h candidate (outcomeOf_eq_offerUpdate_iff.mpr ⟨release, hrelease, hcandidate⟩)
    · intro h candidate hcandidate
      obtain ⟨release, hrelease, hfound⟩ := outcomeOf_eq_offerUpdate_iff.mp hcandidate
      rw [(version_of_candidateOf? hfound).1]
      exact h release hrelease
  rw [hoffered, (offeredRelease_eq releases).1, Best.forall_best_filter_iff]
  simp only [candidateOf?_isSome_iff]
  constructor
  · intro h release hmem hthrough hnot
    obtain ⟨before, after, hl⟩ := List.append_of_mem hmem
    rcases h before release after hl hthrough hnot with
      ⟨other, hother, hthrough', hstable, hgt⟩ | ⟨other, hother, hthrough', hstable, heq⟩
    · refine ⟨other, hother, hthrough', hstable, ?_⟩
      exact (compareSemVer_pos_iff hthrough'.valid hthrough.valid).mpr hgt
    · -- equal versions are both stable or both not
      exact absurd (isStable_of_versionOrder_eq hthrough'.valid hthrough.valid heq hstable) hnot
  · intro h before release after hl hthrough hnot
    obtain ⟨other, hother, hthrough', hstable, hpos⟩ :=
      h release (by simp [hl]) hthrough hnot
    refine .inl ⟨other, hother, hthrough', hstable, ?_⟩
    exact (compareSemVer_pos_iff hthrough'.valid hthrough.valid).mp hpos

end

theorem outcomeOf_singleton {qurl : String → Url} {currentVersion : String} {interactive : Bool}
    {release : Json} (h : (candidateOf? qurl currentVersion release).isSome = true) :
    ∃ candidate, outcomeOf qurl currentVersion interactive [release] = .offerUpdate candidate ∧
      candidate.version = versionOf release := by
  obtain ⟨candidate, hcandidate⟩ := exists_offer_iff.mpr ⟨release, List.mem_singleton.mpr rfl, h⟩
  obtain ⟨other, hother, hfound⟩ := outcomeOf_eq_offerUpdate_iff.mp hcandidate
  obtain rfl := List.mem_singleton.mp (of_offeredRelease hother).1
  exact ⟨candidate, hcandidate, (version_of_candidateOf? hfound).1⟩

/-- A stable build with a hyphen in its metadata is offered a prerelease, and so is any stable build
    where the flag of the release is not set. -/
theorem not_offers_stable :
    (isValidSemVer "1.0.0+build-5" = true ∧ IsStable "1.0.0+build-5" ∧
      ∃ candidate, outcomeOf httpsUrl "1.0.0+build-5" false
        [releaseWith "v2.0.0-rc.1" true "PPB-2.0.0-rc.1-Windows-x86_64.exe"] =
          .offerUpdate candidate ∧ ¬ IsStable candidate.version) ∧
    isValidSemVer "1.0.0" = true ∧ IsStable "1.0.0" ∧
      ∃ candidate, outcomeOf httpsUrl "1.0.0" false
        [releaseWith "v2.0.0-rc.1" false "PPB-2.0.0-rc.1-Windows-x86_64.exe"] =
          .offerUpdate candidate ∧ ¬ IsStable candidate.version := by
  have hprerelease : ¬ IsStable "2.0.0-rc.1" := by decide
  refine ⟨⟨by decide, by decide, ?_⟩, by decide, by decide, ?_⟩
  · obtain ⟨candidate, hcandidate, hversion⟩ := @outcomeOf_singleton httpsUrl "1.0.0+build-5" false
      (releaseWith "v2.0.0-rc.1" true "PPB-2.0.0-rc.1-Windows-x86_64.exe") (by decide)
    exact ⟨candidate, hcandidate, hversion ▸ hprerelease⟩
  · obtain ⟨candidate, hcandidate, hversion⟩ := @outcomeOf_singleton httpsUrl "1.0.0" false
      (releaseWith "v2.0.0-rc.1" false "PPB-2.0.0-rc.1-Windows-x86_64.exe") (by decide)
    exact ⟨candidate, hcandidate, hversion ▸ hprerelease⟩

end PPB
