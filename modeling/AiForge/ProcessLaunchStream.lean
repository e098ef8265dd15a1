import AiForge.ProcessLauncher

/-! # Validated process streams

A launcher hands out its stream behind a check: what the inner stream answers is passed on while
it keeps the order of chunks, terminal and end, and the first answer that does not ends the
stream for good. -/
namespace ProcessLauncher

open KernelState LaunchPolicy List SafeText Staged

inductive ProcessOutputStream where
  | standardOutput | standardError
  | other (value : ℤ)
  deriving DecidableEq

structure ProcessLaunchProgress where
  stream : ProcessOutputStream := .standardOutput
  content : Bytes

inductive ProcessSpawnError where
  | notFound | permissionDenied | invalidFormat | operatingSystemError
  | other (value : ℤ)

inductive ProcessTerminalKind where
  | exited | signaled | spawnFailed | timedOut | outputLimit
  | other (value : ℤ)
  deriving DecidableEq

structure ProcessLaunchTerminal where
  kind : ProcessTerminalKind := .spawnFailed
  (exitCode signal : Option ℤ := none)
  spawnError : Option ProcessSpawnError := none
  duration : ℤ := 0
  (standardOutput standardError : Bytes := [])

inductive ProcessLaunchEvent where
  | progress (value : ProcessLaunchProgress)
  | terminal (value : ProcessLaunchTerminal)

/-- What one call of `next` gives: an error, the end or an event. -/
abbrev Answer := Except ProcessLaunchError (Option ProcessLaunchEvent)

def protocolFailure (message : String) : ProcessLaunchError :=
  launchFailure .protocolFailure .execution message

def validTerminalKind : ProcessTerminalKind → Bool
  | .exited | .signaled | .spawnFailed | .timedOut | .outputLimit => true
  | .other _ => false

def validSpawnError : ProcessSpawnError → Bool
  | .notFound | .permissionDenied | .invalidFormat | .operatingSystemError => true
  | .other _ => false

def validCorrelation (terminal : ProcessLaunchTerminal) : Bool :=
  let validExit := terminal.exitCode.all fun code => 0 ≤ code && code ≤ 255
  let validSignal := terminal.signal.all fun signal => 0 < signal
  validTerminalKind terminal.kind && validExit && validSignal &&
    (decide (terminal.kind = .exited) == terminal.exitCode.isSome) &&
    (decide (terminal.kind = .signaled) == terminal.signal.isSome) &&
    (decide (terminal.kind = .spawnFailed) == terminal.spawnError.isSome) &&
    terminal.spawnError.all validSpawnError

def validateTerminalForLimits (limits : ProcessLaunchLimits) (terminal : ProcessLaunchTerminal) :
    Except ProcessLaunchError PUnit := do
  let overbound := protocolFailure "process terminal is malformed or overbound"
  ensure (validCorrelation terminal ∧ 0 ≤ terminal.duration) overbound
  let bytes ← require
    (addBounded 0 terminal.standardOutput.length limits.maximumOutputBytes) overbound
  let _ ← require
    (addBounded bytes terminal.standardError.length limits.maximumOutputBytes) overbound

def validateProgressForLimits (limits : ProcessLaunchLimits) (progress : ProcessLaunchProgress) :
    Except ProcessLaunchError PUnit :=
  ensure ((progress.stream = .standardOutput ∨ progress.stream = .standardError) ∧
      progress.content ≠ [] ∧ progress.content.length ≤ limits.maximumProgressChunkBytes)
    (protocolFailure "process progress is malformed or overbound")

structure ValidatingProcessLaunchStream where
  limits : ProcessLaunchLimits
  outputBytes : ℕ := 0
  (standardOutput standardError : Bytes := [])
  (terminalSeen ended : Bool := false)

/-- What the inner stream answers when it is asked, and whether a chunk finds memory. -/
structure Reply where
  answer : Answer
  allocated : Bool := true

section Next

variable (stream : ValidatingProcessLaunchStream)

def fail (error : ProcessLaunchError) : Answer × ValidatingProcessLaunchStream :=
  (.error error, { stream with ended := true })

def append (progress : ProcessLaunchProgress) : ValidatingProcessLaunchStream :=
  if progress.stream = .standardOutput then
    { stream with standardOutput := stream.standardOutput ++ progress.content }
  else { stream with standardError := stream.standardError ++ progress.content }

def nextProgress (progress : ProcessLaunchProgress) (allocated : Bool) :
    Answer × ValidatingProcessLaunchStream :=
  if stream.terminalSeen then
    fail stream (protocolFailure "process stream emitted progress after terminal")
  else match validateProgressForLimits stream.limits progress with
  | .error error => fail stream error
  | .ok _ =>
    let maximum := stream.limits.maximumOutputBytes
    if progress.content.length > maximum - min stream.outputBytes maximum then
      fail stream (protocolFailure "process stream exceeded its output bound")
    else
      let counted := { stream with outputBytes := stream.outputBytes + progress.content.length }
      if allocated then (.ok (some (.progress progress)), append counted progress)
      else fail counted (launchFailure .internalFailure .execution
        "process stream validation failed internally")

def nextTerminal (terminal : ProcessLaunchTerminal) : Answer × ValidatingProcessLaunchStream :=
  if stream.terminalSeen then
    fail stream (protocolFailure "process stream emitted a second terminal")
  else match validateTerminalForLimits stream.limits terminal with
  | .error error => fail stream error
  | .ok _ =>
    if terminal.standardOutput ≠ stream.standardOutput ∨
        terminal.standardError ≠ stream.standardError then
      fail stream (protocolFailure "process terminal output disagreed with emitted progress")
    else (.ok (some (.terminal terminal)), { stream with terminalSeen := true })

def next (reply : Reply) : Answer × ValidatingProcessLaunchStream :=
  if stream.ended then (.ok none, stream)
  else match reply.answer with
  | .error error => fail stream error
  | .ok none =>
    if stream.terminalSeen then (.ok none, { stream with ended := true })
    else fail stream (protocolFailure "process stream ended without a terminal")
  | .ok (some (.progress progress)) => nextProgress stream progress reply.allocated
  | .ok (some (.terminal terminal)) => nextTerminal stream terminal

end Next

/-- One more call behind the answers so far. -/
def call (session : List Answer × ValidatingProcessLaunchStream) (reply : Reply) :
    List Answer × ValidatingProcessLaunchStream :=
  let result := next session.2 reply
  (session.1 ++ [result.1], result.2)

def session (limits : ProcessLaunchLimits) (replies : List Reply) :
    List Answer × ValidatingProcessLaunchStream :=
  replies.foldl call ([], { limits })

def deliveredEvents (answers : List Answer) : List ProcessLaunchEvent :=
  answers.filterMap fun
    | .ok event => event
    | .error _ => none

/-- The output of one stream that the chunks make up. -/
def output (stream : ProcessOutputStream) (chunks : List ProcessLaunchProgress) : Bytes :=
  (chunks.filter (·.stream = stream)).flatMap (·.content)

def totalBytes (chunks : List ProcessLaunchProgress) : ℕ :=
  (chunks.map (·.content.length)).sum

/-- The exit code, the signal and the spawn error are there for their kind only. -/
structure ProcessLaunchTerminal.Matches (terminal : ProcessLaunchTerminal) : Prop where
  kind : validTerminalKind terminal.kind
  exited : terminal.kind = .exited ↔ terminal.exitCode.isSome
  exitCode : ∀ code ∈ terminal.exitCode, 0 ≤ code ∧ code ≤ 255
  signaled : terminal.kind = .signaled ↔ terminal.signal.isSome
  signal : ∀ signal ∈ terminal.signal, 0 < signal
  spawnFailed : terminal.kind = .spawnFailed ↔ terminal.spawnError.isSome
  spawnError : ∀ error ∈ terminal.spawnError, validSpawnError error

/-- The chunks keep the limits and the terminal repeats them. -/
structure Delivered (limits : ProcessLaunchLimits) (chunks : List ProcessLaunchProgress)
    (terminal : Option ProcessLaunchTerminal) : Prop where
  chunk : ∀ chunk ∈ chunks, (chunk.stream = .standardOutput ∨ chunk.stream = .standardError) ∧
    chunk.content ≠ [] ∧ chunk.content.length ≤ limits.maximumProgressChunkBytes
  total : totalBytes chunks ≤ limits.maximumOutputBytes
  terminal : ∀ value ∈ terminal, value.Matches ∧
    value.standardOutput = output .standardOutput chunks ∧
    value.standardError = output .standardError chunks

/-- Chunks and at most one terminal are delivered, the end comes behind a terminal or an error,
and nothing but the end comes behind either. -/
structure WellFormed (limits : ProcessLaunchLimits) (answers : List Answer) : Prop where
  events : ∃ chunks terminal, deliveredEvents answers =
      chunks.map .progress ++ (terminal.map .terminal : Option ProcessLaunchEvent).toList ∧
    Delivered limits chunks terminal
  ended : ∀ before after, answers = before ++ .ok none :: after →
    (∀ error, .error error ∉ before) → ∃ terminal, .ok (some (.terminal terminal)) ∈ before
  silent : ∀ before last after, answers = before ++ last :: after →
    (last = .ok none ∨ ∃ error, last = .error error) → ∀ answer ∈ after, answer = .ok none

def eventsOf (chunks : List ProcessLaunchProgress) (terminal : Option ProcessLaunchTerminal) :
    List ProcessLaunchEvent :=
  chunks.map .progress ++ (terminal.map .terminal : Option ProcessLaunchEvent).toList

/-- What follows the events: nothing yet, the end behind a terminal, or an error. -/
inductive Ending (terminal : Option ProcessLaunchTerminal) : List Answer → Prop where
  | running : Ending terminal []
  | finished (count : ℕ) (seen : terminal.isSome) :
      Ending terminal (List.replicate (count + 1) (.ok none))
  | failed (error : ProcessLaunchError) (count : ℕ) :
      Ending terminal (.error error :: List.replicate count (.ok none))

/-- The fields of a stream that has not ended say what it delivered. -/
structure Tracks (stream : ValidatingProcessLaunchStream) (chunks : List ProcessLaunchProgress)
    (terminal : Option ProcessLaunchTerminal) : Prop where
  outputBytes : stream.outputBytes = totalBytes chunks
  standardOutput : stream.standardOutput = output .standardOutput chunks
  standardError : stream.standardError = output .standardError chunks
  terminalSeen : stream.terminalSeen = terminal.isSome

structure Sound (limits : ProcessLaunchLimits) (answers : List Answer)
    (stream : ValidatingProcessLaunchStream) (chunks : List ProcessLaunchProgress)
    (terminal : Option ProcessLaunchTerminal) (ending : List Answer) : Prop where
  answers : answers = (eventsOf chunks terminal).map (.ok ∘ some) ++ ending
  delivered : Delivered limits chunks terminal
  shape : Ending terminal ending
  limits : stream.limits = limits
  ended : stream.ended = !ending.isEmpty
  tracks : stream.ended = false → Tracks stream chunks terminal

section Session

variable {limits : ProcessLaunchLimits} {answers : List Answer}
variable {stream : ValidatingProcessLaunchStream} {chunks : List ProcessLaunchProgress}
variable {terminal : Option ProcessLaunchTerminal} {ending : List Answer}

def SoundSession (limits : ProcessLaunchLimits)
    (session : List Answer × ValidatingProcessLaunchStream) : Prop :=
  ∃ chunks terminal ending, Sound limits session.1 session.2 chunks terminal ending

theorem sound_start : SoundSession limits ([], { limits }) := by
  refine ⟨[], none, [], ?_⟩
  exact {
    answers := rfl
    delivered := ⟨fun _ h => (by cases h), Nat.zero_le _, fun _ h => (by cases h)⟩
    shape := .running
    limits := rfl
    ended := rfl
    tracks := fun _ => ⟨rfl, rfl, rfl, rfl⟩ }

theorem Sound.running (h : Sound limits answers stream chunks terminal ending)
    (hend : stream.ended = false) : ending = [] := by
  have hemp := h.ended
  rw [hend] at hemp
  cases ending with
  | nil => rfl
  | cons => cases hemp

theorem Sound.fail (h : Sound limits answers stream chunks terminal [])
    {failing : ValidatingProcessLaunchStream} (hlim : failing.limits = limits)
    (error : ProcessLaunchError) :
    SoundSession limits (answers ++ [(ProcessLauncher.fail failing error).1],
      (ProcessLauncher.fail failing error).2) := by
  refine ⟨chunks, terminal, [.error error], ?_⟩
  exact {
    answers := by rw [h.answers, append_nil]; rfl
    delivered := h.delivered
    shape := .failed error 0
    limits := hlim
    ended := rfl
    tracks := nofun }

variable {progress : ProcessLaunchProgress}

theorem append_limits : (append stream progress).limits = stream.limits ∧
      (append stream progress).ended = stream.ended := by
  unfold append
  split <;> exact ⟨rfl, rfl⟩

theorem output_append (which : ProcessOutputStream) : output which (chunks ++ [progress]) =
      output which chunks ++ if progress.stream = which then progress.content else [] := by
  unfold output
  rw [filter_append, flatMap_append]
  congr 1
  by_cases hwhich : progress.stream = which <;> simp [hwhich]

theorem totalBytes_append :
    totalBytes (chunks ++ [progress]) = totalBytes chunks + progress.content.length := by
  unfold totalBytes
  simp

theorem Tracks.append (h : Tracks stream chunks terminal)
    (hstream : progress.stream = .standardOutput ∨ progress.stream = .standardError) :
    Tracks (append { stream with
        outputBytes := stream.outputBytes + progress.content.length } progress)
      (chunks ++ [progress]) terminal := by
  have hout := h.standardOutput
  have herr := h.standardError
  have hbs := h.outputBytes
  unfold ProcessLauncher.append
  rcases hstream with hstream | hstream
  · rw [if_pos hstream]
    constructor
    · rw [totalBytes_append, ← hbs]
    · rw [output_append, if_pos hstream, ← hout]
    · rw [output_append, hstream, if_neg nofun, append_nil, ← herr]
    · exact h.terminalSeen
  · rw [if_neg (by rw [hstream]; nofun)]
    constructor
    · rw [totalBytes_append, ← hbs]
    · rw [output_append, hstream, if_neg nofun, append_nil, ← hout]
    · rw [output_append, if_pos hstream, ← herr]
    · exact h.terminalSeen

/-- A chunk is passed on within the limits, before any terminal. -/
theorem Sound.nextProgress (h : Sound limits answers stream chunks terminal [])
    (hrun : stream.ended = false) (progress : ProcessLaunchProgress) (allocated : Bool) :
    SoundSession limits (answers ++ [(ProcessLauncher.nextProgress stream progress allocated).1],
      (ProcessLauncher.nextProgress stream progress allocated).2) := by
  have htracks := h.tracks hrun
  unfold ProcessLauncher.nextProgress
  split
  · exact h.fail h.limits _
  · rename_i hseen
    split
    · exact h.fail h.limits _
    · rename_i hval
      dsimp only
      split
      · exact h.fail h.limits _
      · rename_i hfits
        obtain ⟨hstream, hcont, hsize⟩ := ensure_ok.1 hval
        split
        · obtain rfl : terminal = none := by
            rw [htracks.terminalSeen] at hseen
            exact Option.not_isSome_iff_eq_none.1 hseen
          refine ⟨chunks ++ [progress], none, [], ?_⟩
          have htot := h.delivered.total
          rw [← htracks.outputBytes] at htot
          rw [h.limits] at hsize hfits
          exact {
            answers := by rw [h.answers]; simp [eventsOf]
            delivered := by
              refine ⟨?_, ?_, fun _ h => (by cases h)⟩
              · intro chunk hchunk
                rcases mem_append.1 hchunk with hold | hnew
                · exact h.delivered.chunk chunk hold
                · obtain rfl := mem_singleton.1 hnew
                  exact ⟨hstream, hcont, hsize⟩
              · rw [totalBytes_append, ← htracks.outputBytes]
                omega
            shape := .running
            limits := append_limits.1.trans h.limits
            ended := append_limits.2.trans hrun
            tracks := fun _ => htracks.append hstream }
        · refine h.fail ?_ _
          exact h.limits

theorem validateTerminal_matches {value : ProcessLaunchTerminal} {u : PUnit}
    (h : validateTerminalForLimits limits value = .ok u) : value.Matches := by
  obtain ⟨⟨hval, -⟩, -⟩ := guarded h
  unfold validCorrelation at hval
  simp only [Bool.and_eq_true, beq_iff_eq, Option.all_eq_true, decide_eq_true_eq] at hval
  obtain ⟨⟨⟨⟨⟨⟨hkind, hexit⟩, hsignal⟩, hexited⟩, hsignaled⟩, hspawn⟩, herr⟩ := hval
  refine ⟨hkind, ?_, hexit, ?_, hsignal, ?_, herr⟩
  · rw [← hexited, decide_eq_true_eq]
  · rw [← hsignaled, decide_eq_true_eq]
  · rw [← hspawn, decide_eq_true_eq]

theorem Sound.nextTerminal (h : Sound limits answers stream chunks terminal [])
    (hrun : stream.ended = false) (value : ProcessLaunchTerminal) :
    SoundSession limits (answers ++ [(ProcessLauncher.nextTerminal stream value).1],
      (ProcessLauncher.nextTerminal stream value).2) := by
  have htracks := h.tracks hrun
  unfold ProcessLauncher.nextTerminal
  split
  · exact h.fail h.limits _
  · rename_i hseen
    split
    · exact h.fail h.limits _
    · rename_i hval
      split
      · exact h.fail h.limits _
      · rename_i hagr
        obtain ⟨hout, herr⟩ := not_or.1 hagr
        rw [not_not] at hout herr
        obtain rfl : terminal = none := by
          rw [htracks.terminalSeen] at hseen
          exact Option.not_isSome_iff_eq_none.1 hseen
        refine ⟨chunks, some value, [], ?_⟩
        exact {
          answers := by rw [h.answers]; simp [eventsOf]
          delivered := by
            refine ⟨h.delivered.chunk, h.delivered.total, ?_⟩
            intro other hoth
            obtain rfl := Option.mem_some.1 hoth
            exact ⟨validateTerminal_matches hval, hout.trans htracks.standardOutput,
              herr.trans htracks.standardError⟩
          shape := .running
          limits := h.limits
          ended := hrun
          tracks := fun _ => ⟨htracks.outputBytes, htracks.standardOutput,
            htracks.standardError, rfl⟩ }

theorem Sound.silent (h : Sound limits answers stream chunks terminal ending)
    (hended : stream.ended) :
    Sound limits (answers ++ [.ok none]) stream chunks terminal (ending ++ [.ok none]) := by
  refine { h with answers := ?_, shape := ?_, ended := ?_ }
  · rw [h.answers, append_assoc]
  · have hend := h.shape
    cases hend with
    | running =>
      have hemp := h.ended
      rw [hended] at hemp
      cases hemp
    | finished count seen =>
      rw [← replicate_succ']
      exact .finished (count + 1) seen
    | failed error count =>
      rw [cons_append, ← replicate_succ']
      exact .failed error (count + 1)
  · rw [hended]
    cases ending <;> rfl

theorem sound_call {session : List Answer × ValidatingProcessLaunchStream}
    (h : SoundSession limits session) (reply : Reply) :
    SoundSession limits (call session reply) := by
  obtain ⟨answers, _⟩ := session
  obtain ⟨chunks, terminal, _, h⟩ := h
  unfold call next
  split
  · rename_i hend
    exact ⟨chunks, terminal, _, h.silent hend⟩
  · rename_i hrun
    rw [Bool.not_eq_true] at hrun
    obtain rfl := h.running hrun
    split
    · exact h.fail h.limits _
    · split
      · rename_i hseen
        refine ⟨chunks, terminal, [.ok none], ?_⟩
        exact { h with
          answers := by rw [h.answers, append_nil]
          shape := .finished 0 ((h.tracks hrun).terminalSeen.symm.trans hseen)
          ended := rfl
          tracks := nofun }
      · exact h.fail h.limits _
    · exact h.nextProgress hrun _ _
    · exact h.nextTerminal hrun _

theorem session_sound (limits : ProcessLaunchLimits) (replies : List Reply) :
    SoundSession limits (session limits replies) := by
  refine List.foldlRecOn (motive := SoundSession limits) replies call sound_start ?_
  intro session h reply _
  exact sound_call h reply

theorem Ending.no_event (h : Ending terminal ending) (event : ProcessLaunchEvent) :
    .ok (some event) ∉ ending := by
  intro hmem
  cases h with
  | running => cases hmem
  | finished => cases eq_of_mem_replicate hmem
  | failed =>
    rcases mem_cons.1 hmem with hfst | hrest
    · cases hfst
    · cases eq_of_mem_replicate hrest

theorem Ending.silent {before after : List Answer} {last : Answer}
    (h : Ending terminal (before ++ last :: after)) : ∀ answer ∈ after, answer = .ok none := by
  intro answer hans
  generalize hend : before ++ last :: after = ending at h
  cases h with
  | running => cases append_ne_nil_of_right_ne_nil _ (cons_ne_nil _ _) hend
  | finished count =>
    refine eq_of_mem_replicate (n := count + 1) ?_
    rw [← hend]
    exact mem_append_right _ (mem_cons_of_mem _ hans)
  | failed _ count =>
    refine eq_of_mem_replicate (n := count) ?_
    cases before with
    | nil =>
      obtain ⟨-, haft⟩ := List.cons.inj hend
      rw [← haft]
      exact hans
    | cons =>
      obtain ⟨-, hrest⟩ := List.cons.inj hend
      rw [← hrest]
      exact mem_append_right _ (mem_cons_of_mem _ hans)

theorem Sound.split (h : Sound limits answers stream chunks terminal ending)
    {before after : List Answer} {last : Answer} (hans : answers = before ++ last :: after)
    (hlast : ∀ event, last ≠ .ok (some event)) :
    ∃ rest, before = (eventsOf chunks terminal).map (.ok ∘ some) ++ rest ∧
      ending = rest ++ last :: after := by
  rw [h.answers] at hans
  rcases append_eq_append_iff.1 hans with ⟨rest, hpre, hend⟩ |
    ⟨rest, hevs, hend⟩
  · exact ⟨rest, hpre, hend⟩
  · cases rest with
    | nil =>
      rw [append_nil] at hevs
      exact ⟨[], by rw [append_nil]; exact hevs.symm, hend.symm⟩
    | cons =>
      obtain ⟨rfl, -⟩ := List.cons.inj hend
      have hmem : last ∈ (eventsOf chunks terminal).map (.ok ∘ some) := by
        rw [hevs]
        exact mem_append_right _ mem_cons_self
      obtain ⟨event, -, hev⟩ := mem_map.1 hmem
      exact absurd hev.symm (hlast event)

theorem Sound.wellFormed (h : Sound limits answers stream chunks terminal ending) :
    WellFormed limits answers := by
  constructor
  · refine ⟨chunks, terminal, ?_, h.delivered⟩
    have hending : deliveredEvents ending = [] := by
      unfold deliveredEvents
      rw [filterMap_eq_nil_iff]
      intro answer hans
      match answer with
      | .error _ => rfl
      | .ok none => rfl
      | .ok (some event) => exact absurd hans (h.shape.no_event event)
    have hevs : deliveredEvents ((eventsOf chunks terminal).map (.ok ∘ some)) =
        eventsOf chunks terminal := by
      unfold deliveredEvents
      rw [filterMap_map]
      exact filterMap_some
    rw [h.answers]
    unfold deliveredEvents at hevs hending ⊢
    rw [filterMap_append, hevs, hending, append_nil]
    rfl
  · intro before after hanswers herrors
    obtain ⟨rest, hpre, hrest⟩ := h.split hanswers fun _ h => by cases h
    have hending := h.shape
    rw [hrest] at hending
    generalize hshp : rest ++ .ok none :: after = shape at hending
    cases hending with
    | running => cases append_ne_nil_of_right_ne_nil _ (cons_ne_nil _ _) hshp
    | finished _ seen =>
      obtain ⟨value, rfl⟩ := Option.isSome_iff_exists.1 seen
      refine ⟨value, ?_⟩
      rw [hpre]
      exact mem_append_left _ (mem_map.2 ⟨.terminal value, by simp [eventsOf], rfl⟩)
    | failed error =>
      cases rest with
      | nil => cases (List.cons.inj hshp).1
      | cons =>
        obtain ⟨rfl, -⟩ := List.cons.inj hshp
        refine absurd ?_ (herrors error)
        rw [hpre]
        exact mem_append_right _ mem_cons_self
  · intro before last after hanswers hlast
    have hno (event : ProcessLaunchEvent) : last ≠ .ok (some event) := by
      rintro rfl
      rcases hlast with hend | ⟨error, herr⟩
      · cases hend
      · cases herr
    obtain ⟨rest, -, hrest⟩ := h.split hanswers hno
    have hending := h.shape
    rw [hrest] at hending
    exact hending.silent

end Session

/-- Whatever the inner stream answers, the validated stream delivers chunks within the limits,
then at most one terminal that repeats them, and is silent behind its end or its error. -/
theorem validated_stream_well_formed (limits : ProcessLaunchLimits) (replies : List Reply) :
    WellFormed limits (session limits replies).1 := by
  obtain ⟨_, _, _, h⟩ := session_sound limits replies
  exact h.wellFormed

end ProcessLauncher
