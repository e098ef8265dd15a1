import AiForge.DurableLog

/-! # What a replay can read

Appending checks a batch and each of its documents, replaying also the totals of the session.
A session can be read when every row is fit to be read and the totals stay within the limits of
a replay; the checks of the writer guarantee the former and not the latter. -/
namespace SessionStore

open Content List SafeText Staged

variable {P : Type} {codec : Codec P} {limits : SessionStoreLimits}

/-- Some replay under these limits succeeds. -/
def Readable (codec : Codec P) (limits : SessionStoreLimits) (db : Database)
    (session : SessionId) : Prop :=
  ∃ circumstance found, replayEvents codec limits circumstance db session = .ok found

def documentBytes (rows : List EventRow) : ℕ := (rows.map (·.payloadJson.length)).sum

/-- A row that a replay takes, wherever it stands. -/
structure Fit (codec : Codec P) (limits : SessionStoreLimits) (row : EventRow) : Prop where
  envelope : 0 < row.metadata.sequence ∧ 0 < row.metadata.schemaVersion ∧
    row.metadata.schemaVersion < 2 ^ 32
  identity : validId row.metadata.eventId ∧ validId row.metadata.runId ∧
    row.metadata.causedByEventId.all validId ∧ row.metadata.parentRunId.all validId ∧
    row.metadata.invocationId.all validId
  type : validType row.payloadType
  document : row.payloadJson.length ≤ limits.maximumPayloadBytes
  decodes : ∃ payload,
    codec.read row.payloadType row.metadata.schemaVersion row.payloadJson = .ok payload

variable {rows : List EventRow}

theorem fit_of_replayRows {circumstance : Circumstance} {number : ℕ} {replay result : Replay P}
    (h : replayRows codec limits circumstance number replay rows = .ok result)
    (hevs : replay.events.length ≤ limits.maximumReplayEvents)
    (hbs : replay.replayBytes ≤ limits.maximumReplayBytes) :
    (∀ row ∈ rows, Fit codec limits row) ∧
      replay.events.length + rows.length ≤ limits.maximumReplayEvents ∧
      replay.replayBytes + documentBytes rows ≤ limits.maximumReplayBytes := by
  induction rows generalizing number replay with
  | nil => exact ⟨by simp, hevs, hbs⟩
  | cons _ _ ih =>
    replace h := later h
    replace h := later h
    obtain ⟨_, hrow, h⟩ := bind_ok.1 h
    obtain ⟨hcnt, henv, -, hids, ⟨-, htype⟩, ⟨hpay, _⟩, payload, hread, rfl⟩ :=
      replayRow_ok.1 hrow
    obtain ⟨hfit, hcounts, htot⟩ := ih h (by rw [length_append]; exact hcnt)
      (by dsimp only; omega)
    refine ⟨?_, ?_, ?_⟩
    · exact forall_mem_cons.2 ⟨⟨henv, hids, htype, hpay, payload, hread⟩, hfit⟩
    · simp only [length_append, length_cons, length_nil] at hcounts ⊢
      omega
    · simp only [documentBytes, map_cons, sum_cons] at htot ⊢
      omega

/-- The rows still to be read come after those that were read. -/
structure Follows (replay : Replay P) (rows : List EventRow) : Prop where
  later : ∀ row ∈ rows, replay.previousSequence < row.metadata.sequence
  ordered : rows.Pairwise fun a b => a.metadata.sequence < b.metadata.sequence
  new : ∀ row ∈ rows, row.metadata.eventId ∉ replay.eventIds
  distinct : (rows.map (·.metadata.eventId)).Nodup

theorem replayRows_of_fit (codec : Codec P) (number : ℕ) {replay : Replay P}
    (hfoll : Follows replay rows) (hfit : ∀ row ∈ rows, Fit codec limits row)
    (hevs : replay.events.length + rows.length ≤ limits.maximumReplayEvents)
    (hbs : replay.replayBytes + documentBytes rows ≤ limits.maximumReplayBytes) :
    ∃ result, replayRows codec limits .quiet number replay rows = .ok result := by
  induction rows generalizing number replay with
  | nil => exact ⟨replay, rfl⟩
  | cons row rows ih =>
    obtain ⟨hrow, hrows⟩ := forall_mem_cons.1 hfit
    obtain ⟨payload, hread⟩ := hrow.decodes
    obtain ⟨hlat, hord⟩ := pairwise_cons.1 hfoll.ordered
    obtain ⟨hnew, hdist⟩ := nodup_cons.1 hfoll.distinct
    simp only [documentBytes, map_cons, sum_cons, length_cons] at hevs hbs
    have hstep := replayRow_ok.2 ⟨by omega, hrow.envelope, hfoll.later row (by simp),
      hrow.identity, ⟨hfoll.new row (by simp), hrow.type⟩, ⟨hrow.document, by omega⟩,
      payload, hread, rfl⟩
    have hnext : Follows ({
        events := replay.events ++ [(row.metadata, payload)]
        eventIds := insert row.metadata.eventId replay.eventIds
        previousSequence := row.metadata.sequence
        replayBytes := replay.replayBytes + row.payloadJson.length } : Replay P) rows := by
      refine ⟨hlat, hord, ?_, hdist⟩
      intro other hoth hmem
      rcases Finset.mem_insert.1 hmem with heq | hmem
      · exact hnew (mem_map.2 ⟨other, hoth, heq⟩)
      · exact hfoll.new other (mem_cons_of_mem _ hoth) hmem
    obtain ⟨result, hres⟩ := ih (number + 1) hnext hrows
      (by simp only [length_append, length_cons, length_nil]; omega)
      (by simp only [documentBytes]; omega)
    refine ⟨result, ?_⟩
    rw [replayRows, bind_ok]
    exact ⟨(), rfl, bind_ok.2 ⟨(), rfl, bind_ok.2 ⟨_, hstep, hres⟩⟩⟩

variable {db : Database} {session : SessionId}

theorem readable_iff (hdb : Sound db) : Readable codec limits db session ↔
      db.hasSession session ∧ (∀ row ∈ db.rows session, Fit codec limits row) ∧
      (db.rows session).length ≤ limits.maximumReplayEvents ∧
      documentBytes (db.rows session) ≤ limits.maximumReplayBytes := by
  constructor
  · rintro ⟨_, _, h⟩
    replace h := later h
    replace h := later h
    replace h := later h
    obtain ⟨_, hsess, h⟩ := bind_ok.1 h
    obtain ⟨replay, hrows, h⟩ := bind_ok.1 h
    obtain ⟨hfit, hevs, hbs⟩ := fit_of_replayRows hrows (Nat.zero_le _) (Nat.zero_le _)
    refine ⟨ensure_ok.1 hsess, hfit, ?_, ?_⟩
    · exact (Nat.zero_add _).symm.trans_le hevs
    · exact (Nat.zero_add _).symm.trans_le hbs
  · rintro ⟨hsess, hfit, hevs, hbs⟩
    have hfoll : Follows ({} : Replay P) (db.rows session) := by
      refine ⟨fun row hrow => (hfit row hrow).envelope.1, ?_,
        fun row _ => Finset.notMem_empty _, ?_⟩
      · rw [rows_eq hdb]
        exact hdb.ordered session
      · rw [rows_eq hdb]
        exact hdb.distinct session
    obtain ⟨replay, hrepl⟩ := replayRows_of_fit codec 1 hfoll hfit
      (by simpa using hevs) (by simpa using hbs)
    refine ⟨.quiet, replay.events, ?_⟩
    simp only [replayEvents, bind_ok]
    exact ⟨(), rfl, (), rfl, (), rfl, ⟨⟩, ensure_ok.2 hsess, replay, hrepl, (), rfl,
      rfl⟩

def eventBytes (codec : Codec P) (event : Event P) : ℕ :=
  match encodePayload codec event with
  | .ok encoded => encoded.document.length
  | .error _ => 0

/-- The document of an event is one that the decoder takes. -/
def Decodes (codec : Codec P) (event : Event P) : Prop :=
  ∃ encoded payload, encodePayload codec event = .ok encoded ∧
    codec.read encoded.type event.metadata.schemaVersion encoded.document = .ok payload

theorem documentBytes_of_stores {events : List (Event P)}
    (h : List.Forall₂ (Stores codec session) events rows) :
    documentBytes rows = (events.map (eventBytes codec)).sum := by
  induction h with
  | nil => rfl
  | @cons event row events rows hfst _ ih =>
    obtain ⟨encoded, henc, rfl⟩ := hfst
    have hbs : eventBytes codec event = encoded.document.length := by
      unfold eventBytes
      rw [henc]
    unfold documentBytes at ih ⊢
    rw [map_cons, sum_cons, map_cons, sum_cons, hbs, ih]
    rfl

theorem encodePayload_type {event : Event P} {encoded : EncodedPayload}
    (h : encodePayload codec event = .ok encoded) : validType encoded.type := by
  obtain ⟨htype, h⟩ := guarded h
  obtain ⟨_, -, h⟩ := bind_ok.1 h
  cases h
  exact htype

/-- The writer's checks leave only the decoding open. -/
theorem fit_iff_decodes {event : Event P} {row : EventRow}
    (hrow : Stores codec session event row) (h : Checked codec limits event) :
    Fit codec limits row ↔ Decodes codec event := by
  obtain ⟨encoded, henc, rfl⟩ := hrow
  constructor
  · intro hfit
    obtain ⟨payload, hread⟩ := hfit.decodes
    exact ⟨encoded, payload, henc, hread⟩
  · rintro ⟨_, payload, hoth, hread⟩
    obtain rfl := Except.ok.inj (henc.symm.trans hoth)
    have henv := event.envelope_ok
    simp only [envelopeOk, Bool.and_eq_true, decide_eq_true_eq] at henv
    obtain ⟨⟨⟨⟨⟨hid, hrun⟩, hcaused⟩, hpar⟩, hinv⟩, hver⟩ := henv
    exact ⟨⟨h.sequence, h.schemaVersion, hver⟩, ⟨hid, hrun, hcaused, hpar, hinv⟩,
      encodePayload_type henc, h.document encoded henc, payload, hread⟩

theorem fit_all_iff {events : List (Event P)}
    (hrows : List.Forall₂ (Stores codec session) events rows)
    (h : ∀ event ∈ events, Checked codec limits event) :
    (∀ row ∈ rows, Fit codec limits row) ↔ ∀ event ∈ events, Decodes codec event := by
  induction hrows with
  | nil => simp
  | cons hfst _ ih =>
    obtain ⟨hev, hevs⟩ := forall_mem_cons.1 h
    rw [forall_mem_cons, forall_mem_cons, fit_iff_decodes hfst hev, ih hevs]

theorem accepted_checked (hdb : Sound db) (session : SessionId)
    {calls : List (Call P)} (hlim : ∀ call ∈ calls, call.limits = limits) :
    ∀ event ∈ accepted codec session db calls, Checked codec limits event := by
  induction calls generalizing db with
  | nil =>
    intro event hev
    cases hev
  | cons call _ ih =>
    obtain ⟨hcall, hcalls⟩ := forall_mem_cons.1 hlim
    intro event hev
    rcases mem_append.1 hev with hev | hev
    · by_cases hok : (call.perform codec db).2.isOk
      · rw [if_pos hok] at hev
        exact hcall ▸ (perform_adds hdb hok).checked session event hev
      · rw [if_neg hok] at hev
        cases hev
    · exact ih (perform_sound codec call hdb) hcalls event hev

theorem after_hasSession (hdb : Sound db)
    (h : db.hasSession session) (calls : List (Call P)) :
    (after codec db calls).hasSession session := by
  induction calls generalizing db with
  | nil => exact h
  | cons call _ ih =>
    refine ih (perform_sound codec call hdb) ?_
    by_cases hok : (call.perform codec db).2.isOk
    · exact (perform_adds hdb hok).sessions session h
    · rw [perform_refused hdb (Bool.eq_false_iff.2 hok)]
      exact h

/-- A session that could be read can still be read after any further calls under the same limits
if and only if the totals of its events stay within those of a replay and the new documents are
ones that the decoder takes. The limit on single payloads cannot fail: the writer checks it. -/
theorem readable_after_iff (codec : Codec P) (limits : SessionStoreLimits) (session : SessionId)
    (history more : List (Call P)) (hlimits : ∀ call ∈ more, call.limits = limits)
    (hread : Readable codec limits (after codec {} history) session) :
    Readable codec limits (after codec {} (history ++ more)) session ↔
      ((after codec {} history).rows session).length +
          (accepted codec session (after codec {} history) more).length ≤
        limits.maximumReplayEvents ∧
      documentBytes ((after codec {} history).rows session) +
          ((accepted codec session (after codec {} history) more).map (eventBytes codec)).sum ≤
        limits.maximumReplayBytes ∧
      ∀ event ∈ accepted codec session (after codec {} history) more, Decodes codec event := by
  have hsound : Sound (after codec {} history) := after_sound sound_empty history
  have hsound' : Sound (after codec (after codec {} history) more) := after_sound hsound more
  obtain ⟨hsession, hfit, -, -⟩ := (readable_iff hsound).1 hread
  obtain ⟨rows, hrows, hstores⟩ := after_rows codec hsound session more
  have hlong : (after codec (after codec {} history) more).rows session =
      (after codec {} history).rows session ++ rows := by
    rw [rows_eq hsound', rows_eq hsound, hrows]
  have hchecked : ∀ event ∈ accepted codec session (after codec {} history) more,
      Checked codec limits event := accepted_checked hsound session hlimits
  rw [after_append, readable_iff hsound', hlong, forall_mem_append, length_append,
    fit_all_iff hstores hchecked, ← hstores.length_eq]
  have hbytes : documentBytes ((after codec {} history).rows session ++ rows) =
      documentBytes ((after codec {} history).rows session) +
        ((accepted codec session (after codec {} history) more).map (eventBytes codec)).sum := by
    rw [← documentBytes_of_stores hstores]
    simp only [documentBytes, map_append, sum_append]
  rw [hbytes]
  constructor
  · rintro ⟨-, ⟨-, hdecodes⟩, hcount, htotal⟩
    exact ⟨hcount, htotal, hdecodes⟩
  · rintro ⟨hcount, htotal, hdecodes⟩
    exact ⟨after_hasSession hsound hsession more, ⟨hfit, hdecodes⟩, hcount, htotal⟩

/-- The codec of `run.completed`, whose document is an empty object. -/
def completedCodec : Codec Unit where
  payloadType _ := bytesOf "run.completed"
  write _ version :=
    if version = 1 then .ok (bytesOf "\x7b\x7d")
    else .error ⟨.unsupportedVersion,
      "known event payload uses an unsupported schema version", false⟩
  read type version document :=
    if type = bytesOf "run.completed" ∧ version = 1 ∧ document = bytesOf "\x7b\x7d" then .ok ()
    else .error ⟨.corrupt, "known event payload does not match its declared schema", false⟩
  jsonValid _ := true

def firstCompleted : Event Unit := ⟨⟨"first", "run", 1, 1, 0, none, none, none⟩, (), by decide⟩

def secondCompleted : Event Unit := ⟨⟨"second", "run", 2, 1, 0, none, none, none⟩, (), by decide⟩

def firstAppended (limits : SessionStoreLimits) : List (Call Unit) :=
  [⟨.createSession ⟨"session", 0⟩, limits, .quiet⟩,
    ⟨.appendEvents "session" [firstCompleted], limits, .quiet⟩]

def secondAppend (limits : SessionStoreLimits) : Call Unit :=
  ⟨.appendEvents "session" [secondCompleted], limits, .quiet⟩

def oneEvent : SessionStoreLimits := { maximumReplayEvents := 1 }

def roomy : SessionStoreLimits := {}

/-- With room for both events the session can still be read. -/
theorem second_append_readable :
    Readable completedCodec roomy (after completedCodec {} (firstAppended roomy)) "session" ∧
    Readable completedCodec roomy
      (after completedCodec {} (firstAppended roomy ++ [secondAppend roomy])) "session" := by
  have hfirst : Readable completedCodec roomy (after completedCodec {} (firstAppended roomy))
      "session" := ⟨.quiet, [(firstCompleted.metadata, ())], by decide +kernel⟩
  refine ⟨hfirst, ?_⟩
  rw [readable_after_iff completedCodec roomy "session" (firstAppended roomy)
    [secondAppend roomy] (by simp [secondAppend]) hfirst]
  refine ⟨by decide +kernel, by decide +kernel, ?_⟩
  intro event hevent
  have haccepted : accepted completedCodec "session"
      (after completedCodec {} (firstAppended roomy)) [secondAppend roomy] =
      [secondCompleted] := by rfl
  rw [haccepted, mem_singleton] at hevent
  subst hevent
  exact ⟨⟨bytesOf "run.completed", bytesOf "\x7b\x7d"⟩, (), by decide +kernel, by decide +kernel⟩

/-- With room for one, the second append is accepted and no replay reads the session any more. -/
theorem second_append_unreadable : validLimits oneEvent ∧
    Readable completedCodec oneEvent (after completedCodec {} (firstAppended oneEvent))
      "session" ∧
    ((secondAppend oneEvent).perform completedCodec
      (after completedCodec {} (firstAppended oneEvent))).2.isOk ∧
    ¬ Readable completedCodec oneEvent ((secondAppend oneEvent).perform completedCodec
      (after completedCodec {} (firstAppended oneEvent))).1 "session" := by
  refine ⟨by decide, ⟨.quiet, [(firstCompleted.metadata, ())], by decide +kernel⟩,
    by decide +kernel, ?_⟩
  intro h
  have hsound : Sound (after completedCodec {} (firstAppended oneEvent)) :=
    after_sound sound_empty _
  obtain ⟨-, -, hcount, -⟩ := (readable_iff (perform_sound completedCodec _ hsound)).1 h
  revert hcount
  decide +kernel

end SessionStore
