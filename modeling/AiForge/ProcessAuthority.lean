import AiForge.ProcessLauncher

/-! # Authority of a process launch

What an accepted request may use. Containment is decided on the names of a path, but sameness
on its spelling, and a normal path may still carry a separator at its end: the two agree exactly
for the requests whose directories are not spelled in both ways. -/
namespace ProcessLauncher

open LexicalPaths List SafeText Staged

variable {request : ProcessLaunchRequest} {bounds : ProcessLaunchBounds}

def SameDirectory (path other : Text) : Prop := names slash path.1 = names slash other.1

def Inside (directory path : Text) : Prop := names slash directory.1 <+: names slash path.1

instance (path other : Text) : Decidable (SameDirectory path other) :=
  inferInstanceAs (Decidable (_ = _))

/-- The spellings that a request may use. -/
def Normal (path : Text) : Prop :=
  isAbsolute slash path.1 ∧ lexicallyNormal slash dot path.1 = path.1

variable {maximum : ℕ}

theorem normalizedAbsolutePath_normal {path : Text}
    (h : normalizedAbsolutePath path.1 maximum) : Normal path ∧ path.1.length ≤ maximum := by
  unfold normalizedAbsolutePath boundedText at h
  simp only [Bool.and_eq_true, beq_iff_eq, decide_eq_true_eq] at h
  obtain ⟨⟨⟨⟨⟨⟨-, hsize⟩, -⟩, -⟩, habsolute⟩, -⟩, hnorm⟩ := h
  exact ⟨⟨habsolute, hnorm⟩, hsize⟩

theorem Normal.same_iff {path other : Text} (h : Normal path) (hoth : Normal other) :
    SameDirectory path other ↔ path = other ∨ SlashApart slash path.1 other.1 := by
  unfold SameDirectory
  rw [normal_same_iff h.2 hoth.2, Subtype.ext_iff]

theorem Normal.inside {parent child : Text} (h : Normal parent) (hch : Normal child)
    (hin : pathIsWithin parent.1 child.1) : Inside parent child :=
  elements_prefix h.1 hch.1 ( isPrefixOf_iff_prefix.1 hin)

theorem wrapped_of_lt {value : ℕ} (h : value < 2 ^ 64) : wrapped value = value :=
  Nat.mod_eq_of_lt h

theorem text_lt (text : Text) : text.1.length + 1 < 2 ^ 64 := by
  have hsize := text.2
  unfold maxSize at hsize
  omega

theorem addBounded_some {total amount next : ℕ} (hmax : maximum < 2 ^ 64)
    (h : addBounded total amount maximum = some next) : next = total + amount ∧ next ≤ maximum := by
  unfold addBounded at h
  split_ifs at h with hover
  cases h
  have hsum : total + amount ≤ maximum := by omega
  rw [wrapped_of_lt (by omega)]
  exact ⟨rfl, hsum⟩

/-- A running total that every step raises by its amount ends at the sum. -/
theorem foldlM_total {ε β α : Type} {f : β → α → Except ε β} {total : β → ℕ} {amount : α → ℕ}
    (step : ∀ a b c, f b a = .ok c →
      total c = total b + amount a ∧ total c ≤ maximum)
    {xs : List α} {b c : β} (h : xs.foldlM f b = .ok c) (hb : total b ≤ maximum) :
    total c = total b + (xs.map amount).sum ∧ total c ≤ maximum := by
  induction xs generalizing b with
  | nil =>
    cases h
    exact ⟨rfl, hb⟩
  | cons x _ ih =>
    obtain ⟨d, hx, hrest⟩ := foldlM_cons_ok.1 h
    obtain ⟨hd, hle⟩ := step x b d hx
    obtain ⟨hc, hend⟩ := ih hrest hle
    refine ⟨?_, hend⟩
    rw [hc, hd, map_cons, sum_cons, Nat.add_assoc]

/-- The bytes that the executable and the arguments take, with their terminators. -/
def exactArgumentBytes (request : ProcessLaunchRequest) : ℕ :=
  request.executable.1.length + 1 + (request.arguments.map fun text => text.1.length + 1).sum

def variableBytes (entry : ProcessEnvironmentVariable) : ℕ :=
  entry.name.1.length + entry.value.1.length + 2

def exactLaunchBytes (request : ProcessLaunchRequest) : ℕ :=
  exactArgumentBytes request +
    (request.environment.map variableBytes).sum

theorem bounds_small {u : PUnit} (h : validateProcessLaunchBounds bounds = .ok u) :
    bounds.maximumArgumentBytes < 2 ^ 64 := by
  have hbd := ensure_ok.1 h
  have hsize : bounds.maximumArgumentBytes ≤ 256 * 1024 := hbd.2.2.2.1
  omega

theorem addArgument_ok {total next : ℕ} {argument : Text}
    (hbd : bounds.maximumArgumentBytes < 2 ^ 64)
    (h : addArgument bounds total argument = .ok next) :
    next = total + (argument.1.length + 1) ∧ next ≤ bounds.maximumArgumentBytes := by
  obtain ⟨-, hadd⟩ := guarded h
  rw [require_ok, wrapped_of_lt (text_lt _)] at hadd
  exact addBounded_some hbd hadd

theorem countArguments_ok {bytes : ℕ} (hbd : bounds.maximumArgumentBytes < 2 ^ 64)
    (h : countArguments request bounds = .ok bytes) :
    bytes = exactArgumentBytes request ∧ bytes ≤ bounds.maximumArgumentBytes := by
  obtain ⟨_, hbeg, h⟩ := bind_ok.1 h
  rw [require_ok, wrapped_of_lt (text_lt _)] at hbeg
  obtain ⟨hstarted, hle⟩ := addBounded_some hbd hbeg
  have hstep (argument : Text) (total next : ℕ)
      (h : addArgument bounds total argument = .ok next) :
      id next = id total + (argument.1.length + 1) ∧ id next ≤ bounds.maximumArgumentBytes :=
    addArgument_ok hbd h
  obtain ⟨htot, hend⟩ := foldlM_total hstep h hle
  refine ⟨?_, hend⟩
  rw [id, id, hstarted, Nat.zero_add] at htot
  exact htot

theorem validEnvironmentName_length {name : Bytes} (h : validEnvironmentName name) :
    name.length ≤ 255 := by
  unfold validEnvironmentName at h
  simp only [Bool.and_eq_true, decide_eq_true_eq] at h
  exact h.1.1.1.2

theorem addVariable_ok {counted next : Finset Text × ℕ} {entry : ProcessEnvironmentVariable}
    (hbd : bounds.maximumArgumentBytes < 2 ^ 64)
    (h : addVariable bounds counted entry = .ok next) :
    entry.name ∉ counted.1 ∧ next.1 = insert entry.name counted.1 ∧
      next.2 = counted.2 + variableBytes entry ∧ next.2 ≤ bounds.maximumArgumentBytes := by
  obtain ⟨hname, h⟩ := guarded h
  obtain ⟨-, h⟩ := guarded h
  obtain ⟨hnew, h⟩ := guarded h
  obtain ⟨_, hadd, hnext⟩ := bind_ok.1 h
  have hsh := validEnvironmentName_length hname
  have hsize := entry.value.2
  unfold maxSize at hsize
  have hpair : entry.name.1.length + entry.value.1.length < 2 ^ 64 := by omega
  have hboth : entry.name.1.length + entry.value.1.length + 2 < 2 ^ 64 := by omega
  rw [require_ok, wrapped_of_lt hpair, wrapped_of_lt hboth] at hadd
  obtain ⟨htot, hend⟩ := addBounded_some hbd hadd
  cases hnext
  exact ⟨hnew, rfl, htot, hend⟩

theorem countEnvironment_ok {argumentBytes : ℕ} {counted : Finset Text × ℕ}
    (hbd : bounds.maximumArgumentBytes < 2 ^ 64)
    (hle : argumentBytes ≤ bounds.maximumArgumentBytes)
    (h : countEnvironment request bounds argumentBytes = .ok counted) :
    (request.environment.map (·.name)).Nodup ∧
      counted.2 = argumentBytes + (request.environment.map variableBytes).sum ∧
      counted.2 ≤ bounds.maximumArgumentBytes := by
  have hclaims (entry : ProcessEnvironmentVariable) (before after : Finset Text × ℕ)
      (h : addVariable bounds before entry = .ok after) :
      True ∧ entry.name ∉ before.1 ∧ after.1 = insert entry.name before.1 := by
    obtain ⟨hnew, hnms, -⟩ := addVariable_ok hbd h
    exact ⟨trivial, hnew, hnms⟩
  have htotals (entry : ProcessEnvironmentVariable) (before after : Finset Text × ℕ)
      (h : addVariable bounds before entry = .ok after) :
      after.2 = before.2 + variableBytes entry ∧ after.2 ≤ bounds.maximumArgumentBytes :=
    (addVariable_ok hbd h).2.2
  obtain ⟨-, hnd, -⟩ := foldlM_claims hclaims h
  obtain ⟨htot, hend⟩ := foldlM_total htotals h hle
  exact ⟨hnd, htot, hend⟩

/-- A root that was granted for reading only grants nothing more. -/
def Grants (configured requested : ProcessFilesystemAccess) : Prop :=
  requested = .readOnly ∨ configured = .readWrite

/-- The request stays within what was configured, and its paths name what was pinned. -/
structure Unwidened (request : ProcessLaunchRequest) (bounds : ProcessLaunchBounds) : Prop where
  distinct : request.requestedRoots.Pairwise fun root other =>
    ¬ SameDirectory root.path other.path
  covered : ∀ requested ∈ request.requestedRoots, ∃ configured ∈ request.configuredRoots,
    Grants configured.access requested.access ∧ Inside configured.path requested.path
  pinned : ∀ requested ∈ request.requestedRoots, ∀ configured ∈ request.configuredRoots,
    SameDirectory configured.path requested.path → configured.identity = requested.identity
  workingPinned : ∀ root ∈ request.requestedRoots,
    SameDirectory root.path request.workingDirectory →
      root.identity = request.workingDirectoryIdentity
  workingInside : ∃ root ∈ request.requestedRoots, Inside root.path request.workingDirectory
  environment : (request.environment.map (·.name)).Nodup
  counted : ∃ argumentBytes names, countArguments request bounds = .ok argumentBytes ∧
    countEnvironment request bounds argumentBytes = .ok (names, exactLaunchBytes request)
  bounded : exactLaunchBytes request ≤ bounds.maximumArgumentBytes ∧
    bounds.maximumArgumentBytes < 2 ^ 64

/-- No directory is spelled with and without a separator at its end, except under one pinned
identity. -/
structure SpelledAlike (request : ProcessLaunchRequest) : Prop where
  distinct : request.requestedRoots.Pairwise fun root other =>
    ¬ SlashApart slash root.path.1 other.path.1
  pinned : ∀ requested ∈ request.requestedRoots, ∀ configured ∈ request.configuredRoots,
    SlashApart slash configured.path.1 requested.path.1 →
      configured.identity = requested.identity
  workingPinned : ∀ root ∈ request.requestedRoots,
    SlashApart slash root.path.1 request.workingDirectory.1 →
      root.identity = request.workingDirectoryIdentity

theorem validRoots_ok {roots : List ProcessFilesystemRoot} (h : validRoots bounds roots) :
    (∀ root ∈ roots, Normal root.path) ∧ (roots.map (·.path)).Nodup := by
  unfold validRoots at h
  simp only [Bool.and_eq_true, all_eq_true, decide_eq_true_eq] at h
  obtain ⟨hall, hnd⟩ := h
  refine ⟨?_, hnd⟩
  intro root hroot
  exact (normalizedAbsolutePath_normal (hall root hroot).1.1).1

theorem malformed_false (h : malformed request bounds = false) :
    Normal request.workingDirectory := by
  unfold malformed at h
  simp only [Bool.or_eq_false_iff, Bool.not_eq_false'] at h
  obtain ⟨⟨⟨⟨⟨⟨⟨⟨⟨-, -⟩, hwork⟩, -⟩, -⟩, -⟩, -⟩, -⟩, -⟩, -⟩ := h
  exact (normalizedAbsolutePath_normal hwork).1

structure Held (request : ProcessLaunchRequest) : Prop where
  pinned : ∀ requested ∈ request.requestedRoots, ∀ configured ∈ request.configuredRoots,
    configured.path = requested.path → configured.identity = requested.identity
  workingPinned : ∀ root ∈ request.requestedRoots,
    root.path = request.workingDirectory → root.identity = request.workingDirectoryIdentity
  covered : ∀ requested ∈ request.requestedRoots, ∃ configured ∈ request.configuredRoots,
    accessCovers configured requested ∧
      pathIsWithin configured.path.1 requested.path.1
  workingInside : ∃ root ∈ request.requestedRoots,
    pathIsWithin root.path.1 request.workingDirectory.1

theorem widened_false (h : widened request = false) : Held request := by
  unfold widened conflictingIdentity conflictingWorkingIdentity configuredCovers at h
  simp only [Bool.or_eq_false_iff, any_eq_false, Bool.not_eq_false', all_eq_true,
    any_eq_true, Bool.and_eq_true, beq_iff_eq, bne_iff_ne, not_exists, not_and, not_not] at h
  obtain ⟨⟨⟨hpin, hwork⟩, hcov⟩, hin⟩ := h
  exact ⟨hpin, hwork, hcov, hin⟩

theorem accessCovers_grants {configured requested : ProcessFilesystemRoot}
    (h : accessCovers configured requested) : Grants configured.access requested.access := by
  unfold accessCovers at h
  rw [Bool.or_eq_true, beq_iff_eq, beq_iff_eq] at h
  exact h.symm

structure Accepted (request : ProcessLaunchRequest) (bounds : ProcessLaunchBounds) : Prop where
  working : Normal request.workingDirectory
  configured : ∀ root ∈ request.configuredRoots, Normal root.path
  requested : ∀ root ∈ request.requestedRoots, Normal root.path
  distinct : (request.requestedRoots.map (·.path)).Nodup
  held : Held request
  small : bounds.maximumArgumentBytes < 2 ^ 64
  counted : ∃ argumentBytes counted, countArguments request bounds = .ok argumentBytes ∧
    countEnvironment request bounds argumentBytes = .ok counted

theorem accepted {u : PUnit} (h : validateProcessLaunchRequest request bounds = .ok u) :
    Accepted request bounds := by
  obtain ⟨_, hbd, h⟩ := bind_ok.1 h
  obtain ⟨hshp, h⟩ := guarded h
  obtain ⟨-, h⟩ := guarded h
  obtain ⟨argumentBytes, hargs, h⟩ := bind_ok.1 h
  obtain ⟨⟨hconf, hreq⟩, h⟩ := guarded h
  obtain ⟨hwide, h⟩ := guarded h
  obtain ⟨counted, henv, -⟩ := bind_ok.1 h
  obtain ⟨hconf, -⟩ := validRoots_ok hconf
  obtain ⟨hreq, hdist⟩ := validRoots_ok hreq
  exact {
    working := malformed_false hshp
    configured := hconf
    requested := hreq
    distinct := hdist
    held := widened_false hwide
    small := bounds_small hbd
    counted := ⟨argumentBytes, counted, hargs, henv⟩ }

/-- The parts of an accepted request that hold however its directories are spelled. -/
theorem Accepted.contained (h : Accepted request bounds) :
    (∀ requested ∈ request.requestedRoots, ∃ configured ∈ request.configuredRoots,
      Grants configured.access requested.access ∧ Inside configured.path requested.path) ∧
    ∃ root ∈ request.requestedRoots, Inside root.path request.workingDirectory := by
  constructor
  · intro requested hreq
    obtain ⟨configured, hconf, haccess, hin⟩ := h.held.covered requested hreq
    have hpar := h.configured configured hconf
    have hch := h.requested requested hreq
    exact ⟨configured, hconf, accessCovers_grants haccess, hpar.inside hch hin⟩
  · obtain ⟨root, hroot, hin⟩ := h.held.workingInside
    exact ⟨root, hroot, (h.requested root hroot).inside h.working hin⟩

theorem Accepted.measured (h : Accepted request bounds) : (request.environment.map (·.name)).Nodup ∧
    (∃ argumentBytes names, countArguments request bounds = .ok argumentBytes ∧
      countEnvironment request bounds argumentBytes = .ok (names, exactLaunchBytes request)) ∧
    exactLaunchBytes request ≤ bounds.maximumArgumentBytes := by
  obtain ⟨argumentBytes, ⟨names, bytes⟩, hargs, henv⟩ := h.counted
  obtain ⟨htot, hle⟩ := countArguments_ok h.small hargs
  obtain ⟨hnd, hbs, hend⟩ := countEnvironment_ok h.small hle henv
  have hexact : bytes = exactLaunchBytes request := by
    unfold exactLaunchBytes
    rw [← htot]
    exact hbs
  subst hexact
  exact ⟨hnd, ⟨argumentBytes, names, hargs, henv⟩, hend⟩

theorem Accepted.distinct_iff (h : Accepted request bounds) :
    (request.requestedRoots.Pairwise fun root other => ¬ SameDirectory root.path other.path) ↔
      request.requestedRoots.Pairwise fun root other =>
        ¬ SlashApart slash root.path.1 other.path.1 := by
  have hspelled : request.requestedRoots.Pairwise fun root other => root.path ≠ other.path :=
    pairwise_map.1 h.distinct
  constructor
  · intro hsame
    refine hsame.imp_of_mem ?_
    intro root other hroot hoth hdist hslash
    have hnorm := h.requested root hroot
    exact hdist ((hnorm.same_iff (h.requested other hoth)).2 (.inr hslash))
  · intro hslash
    refine (hslash.and hspelled).imp_of_mem ?_
    rintro root other hroot hoth ⟨hapart, hne⟩ hsame
    have hnorm := h.requested root hroot
    rcases (hnorm.same_iff (h.requested other hoth)).1 hsame with heq | hslash
    · exact hne heq
    · exact hapart hslash

/-- An accepted request widens nothing exactly when none of its directories is spelled in two
ways that the check takes for different directories. -/
theorem launch_unwidened_iff (request : ProcessLaunchRequest) (bounds : ProcessLaunchBounds)
    (h : validateProcessLaunchRequest request bounds = .ok ⟨⟩) :
    Unwidened request bounds ↔ SpelledAlike request := by
  have haccepted := accepted h
  constructor
  · intro hunwidened
    refine ⟨haccepted.distinct_iff.1 hunwidened.distinct, ?_, ?_⟩
    · intro requested hrequested configured hconfigured hslash
      have hnormal := haccepted.configured configured hconfigured
      have hsame := (hnormal.same_iff (haccepted.requested requested hrequested)).2 (.inr hslash)
      exact hunwidened.pinned requested hrequested configured hconfigured hsame
    · intro root hroot hslash
      have hnormal := haccepted.requested root hroot
      exact hunwidened.workingPinned root hroot
        ((hnormal.same_iff haccepted.working).2 (.inr hslash))
  · intro hspelled
    obtain ⟨hcovered, hinside⟩ := haccepted.contained
    obtain ⟨hnames, hcounted, hbounded⟩ := haccepted.measured
    refine ⟨haccepted.distinct_iff.2 hspelled.distinct, hcovered, ?_, ?_, hinside, hnames,
      hcounted, hbounded, haccepted.small⟩
    · intro requested hrequested configured hconfigured hsame
      have hnormal := haccepted.configured configured hconfigured
      rcases (hnormal.same_iff (haccepted.requested requested hrequested)).1 hsame with heq | hslash
      · exact haccepted.held.pinned requested hrequested configured hconfigured heq
      · exact hspelled.pinned requested hrequested configured hconfigured hslash
    · intro root hroot hsame
      have hnormal := haccepted.requested root hroot
      rcases (hnormal.same_iff haccepted.working).1 hsame with heq | hslash
      · exact haccepted.held.workingPinned root hroot heq
      · exact hspelled.workingPinned root hroot hslash

/-! ### A directory under two identities -/

def text (value : String) (h : (bytesOf value).length ≤ maxSize := by decide) : Text :=
  ⟨bytesOf value, h⟩

def launchRequest (directory : Text) (identity : Text) : ProcessLaunchRequest where
  executable := text "/bin/tool"
  executableIdentity := text "tool"
  arguments := [text "run"]
  workingDirectory := directory
  workingDirectoryIdentity := identity
  configuredRoots := [⟨text "/work", text "pinned", .readWrite⟩]
  requestedRoots := [⟨directory, identity, .readWrite⟩]
  environment := [⟨text "HOME", directory⟩]
  limits := ⟨1000, 100, 10, 10⟩

theorem launch_unwidened : Unwidened (launchRequest (text "/work") (text "pinned")) {} := by
  refine (launch_unwidened_iff _ _ (by decide +kernel)).2 ⟨pairwise_singleton _ _, ?_, ?_⟩
  · intro requested hrequested configured hconfigured _
    obtain rfl := mem_singleton.1 hrequested
    obtain rfl := mem_singleton.1 hconfigured
    rfl
  · intro root hroot _
    obtain rfl := mem_singleton.1 hroot
    rfl

theorem launch_widened : ¬ ∀ (request : ProcessLaunchRequest) (bounds : ProcessLaunchBounds),
    validateProcessLaunchRequest request bounds = .ok ⟨⟩ → Unwidened request bounds := by
  intro hclaim
  have hunwidened := hclaim (launchRequest (text "/work/") (text "exchanged")) {}
    (by decide +kernel)
  have hidentity := hunwidened.pinned _ mem_cons_self _ mem_cons_self (by decide +kernel)
  revert hidentity
  decide

end ProcessLauncher
