import AiForge.SessionStore

/-! # The durable log

Whatever the clients do, in whatever order and with whatever failures, the rows of a session
are the accepted batches one after the other: a call that is refused leaves the database as it
was, and an accepted one adds its rows behind all others. -/
namespace SessionStore

open Content Events List SortedBy Staged

variable {P : Type} {codec : Codec P}

structure Sound (db : Database) : Prop where
  ordered : ∀ session, (db.eventsOf session).Pairwise
    fun a b => a.metadata.sequence < b.metadata.sequence
  distinct : ∀ session, ((db.eventsOf session).map (·.metadata.eventId)).Nodup
  owned : ∀ row ∈ db.events, db.hasSession row.sessionId = true

theorem sound_empty : Sound {} := by
  constructor
  · intro session
    exact List.Pairwise.nil
  · intro session
    exact nodup_nil
  · intro row hrow
    cases hrow

theorem rows_eq {db : Database} (h : Sound db) (session : SessionId) :
    db.rows session = db.eventsOf session := by
  have hle : (db.eventsOf session).Pairwise
      fun a b => a.metadata.sequence ≤ b.metadata.sequence :=
    (h.ordered session).imp fun hab => le_of_lt hab
  have hnd : ((db.eventsOf session).map fun row => row.metadata.sequence).Nodup := by
    rw [nodup_iff_pairwise_ne, pairwise_map]
    exact (h.ordered session).imp fun hab => ne_of_lt hab
  refine eq_of_perm_sorted (sortBy_perm _ _) (nodup_map_sortBy hnd) (sortBy_sorted _ _) ?_
  exact hle

theorem le_lastSequence {db : Database} {session : SessionId} {row : EventRow}
    (h : row ∈ db.eventsOf session) : row.metadata.sequence ≤ db.lastSequence session := by
  have hfold : ∀ (rows : List EventRow) (start : ℕ),
      start ≤ rows.foldl (fun last row => max last row.metadata.sequence) start ∧
        ∀ row ∈ rows, row.metadata.sequence ≤
          rows.foldl (fun last row => max last row.metadata.sequence) start := by
    intro rows
    induction rows with
    | nil =>
      intro start
      exact ⟨le_rfl, by simp⟩
    | cons first _ ih =>
      intro start
      obtain ⟨hbeg, hrows⟩ := ih (max start first.metadata.sequence)
      refine ⟨(le_max_left _ _).trans hbeg, ?_⟩
      intro row hrow
      rcases mem_cons.1 hrow with rfl | hrow
      · exact (le_max_right _ _).trans hbeg
      · exact hrows row hrow
  exact (hfold (db.eventsOf session) 0).2 row h

theorem mem_eventsOf {db : Database} {session : SessionId} {row : EventRow} :
    row ∈ db.eventsOf session ↔ row ∈ db.events ∧ row.sessionId = session := by
  simp [Database.eventsOf]

theorem insertEvent_ok {db db' : Database} {row : EventRow} :
    insertEvent codec db row = .ok db' ↔
      (db.hasSession row.sessionId ∧ 0 < row.metadata.sequence ∧
        0 < row.metadata.schemaVersion ∧ codec.jsonValid row.payloadJson ∧
        (∀ other ∈ db.eventsOf row.sessionId, other.metadata.sequence ≠ row.metadata.sequence) ∧
        ∀ other ∈ db.eventsOf row.sessionId, other.metadata.eventId ≠ row.metadata.eventId) ∧
      db' = { db with events := db.events ++ [row] } := by
  unfold insertEvent
  rw [bind_ok]
  constructor
  · rintro ⟨_, hchk, h⟩
    exact ⟨ensure_ok.1 hchk, (Except.ok.inj h).symm⟩
  · rintro ⟨hchk, rfl⟩
    exact ⟨⟨⟩, ensure_ok.2 hchk, rfl⟩

theorem eventsOf_append (db : Database) (rows : List EventRow) (session : SessionId) :
    Database.eventsOf { db with events := db.events ++ rows } session =
      db.eventsOf session ++ rows.filter (·.sessionId == session) := filter_append ..

theorem filter_owned {rows : List EventRow} {session : SessionId}
    (h : ∀ row ∈ rows, row.sessionId = session) : rows.filter (·.sessionId == session) = rows := by
  rw [filter_eq_self]
  intro row hrow
  simp [h row hrow]

theorem filter_foreign {rows : List EventRow} {owner session : SessionId}
    (h : ∀ row ∈ rows, row.sessionId = owner) (hs : owner ≠ session) :
    rows.filter (·.sessionId == session) = [] := by
  rw [filter_eq_nil_iff]
  intro row hrow heq
  exact hs ((h row hrow).symm.trans (by simpa using heq))

theorem distinct_insertEvent {db db' : Database} {row : EventRow}
    (h : insertEvent codec db row = .ok db')
    (hd : ∀ session, ((db.eventsOf session).map (·.metadata.eventId)).Nodup)
    (session : SessionId) : ((db'.eventsOf session).map (·.metadata.eventId)).Nodup := by
  obtain ⟨⟨-, -, -, -, -, hids⟩, rfl⟩ := insertEvent_ok.1 h
  rw [eventsOf_append, map_append]
  by_cases hs : row.sessionId = session
  · subst hs
    have hone : [row].filter (·.sessionId == row.sessionId) = [row] := by simp
    rw [hone]
    refine nodup_append.2 ⟨hd _, by simp, ?_⟩
    intro a ha b hb hab
    obtain ⟨other, hoth, rfl⟩ := mem_map.1 ha
    have hb : b = row.metadata.eventId := by simpa using hb
    exact hids other hoth (hab.trans hb)
  · have hnone : [row].filter (·.sessionId == session) = [] := by simp [hs]
    rw [hnone]
    simpa using hd session

theorem insertRows_ok {circumstance : Circumstance} {look number : ℕ} {db db' : Database}
    {rows : List EventRow} (h : insertRows codec circumstance look number db rows = .ok db') :
    db' = { db with events := db.events ++ rows } ∧
    ((∀ session, ((db.eventsOf session).map (·.metadata.eventId)).Nodup) →
      ∀ session, ((db'.eventsOf session).map (·.metadata.eventId)).Nodup) ∧
    (∀ row ∈ rows, db.hasSession row.sessionId) := by
  induction rows generalizing look number db with
  | nil =>
    cases h
    exact ⟨by simp, id, by simp⟩
  | cons _ _ ih =>
    replace h := later h
    replace h := later h
    obtain ⟨_, hins, h⟩ := bind_ok.1 h
    obtain ⟨rfl, hdist, howned⟩ := ih h
    have hd := distinct_insertEvent hins
    obtain ⟨⟨hsess, -⟩, rfl⟩ := insertEvent_ok.1 hins
    refine ⟨by simp, fun hdb => hdist (hd hdb), ?_⟩
    intro other hoth
    rcases mem_cons.1 hoth with rfl | hoth
    · exact hsess
    · exact howned other hoth

/-- Rows of one session that come after all of its rows keep the database sound. -/
theorem finishRows_ok {circumstance : Circumstance} {db db' : Database} {rows : List EventRow}
    {session : SessionId} (h : finishRows codec circumstance db rows = .ok (db', ()))
    (hdb : Sound db) (hrows : ∀ row ∈ rows, row.sessionId = session)
    (hsort : rows.Pairwise fun a b => a.metadata.sequence < b.metadata.sequence)
    (haft : ∀ old ∈ db.eventsOf session, ∀ row ∈ rows,
      old.metadata.sequence < row.metadata.sequence) :
    db' = { db with events := db.events ++ rows } ∧ Sound db' := by
  obtain ⟨_, hins, h⟩ := bind_ok.1 h
  replace h := later h
  replace h := later h
  obtain ⟨rfl, -⟩ := Prod.mk.inj (Except.ok.inj h)
  obtain ⟨rfl, hdist, howned⟩ := insertRows_ok hins
  refine ⟨rfl, ?_, hdist hdb.distinct, ?_⟩
  · intro other
    rw [eventsOf_append]
    by_cases hs : other = session
    · subst hs
      rw [filter_owned hrows]
      exact pairwise_append.2 ⟨hdb.ordered _, hsort, haft⟩
    · rw [filter_foreign hrows (Ne.symm hs), append_nil]
      exact hdb.ordered other
  · intro row hrow
    rcases mem_append.1 hrow with hrow | hrow
    · exact hdb.owned row hrow
    · exact howned row hrow

def Stores (codec : Codec P) (session : SessionId) (event : Event P) (row : EventRow) : Prop :=
  ∃ encoded, encodePayload codec event = .ok encoded ∧ row = eventRow session event encoded

/-- A batch whose envelopes are in order and whose payloads are encoded within the limit. -/
structure Prepared (codec : Codec P) (limits : SessionStoreLimits) (events : List (Event P))
    (encoded : List EncodedPayload) : Prop where
  encodes : List.Forall₂ (fun event payload => encodePayload codec event = .ok payload ∧
    payload.document.length ≤ limits.maximumPayloadBytes) events encoded
  increasing : events.Pairwise fun a b => a.metadata.sequence < b.metadata.sequence
  numbered : ∀ event ∈ events, 0 < event.metadata.sequence ∧ 0 < event.metadata.schemaVersion

theorem prepareEvent_ok {limits : SessionStoreLimits} {envelope payload : SessionStoreError}
    {batch next : Batch} {event : Event P}
    (h : prepareEvent codec limits envelope payload batch event = .ok next) :
    ∃ encoded, encodePayload codec event = .ok encoded ∧
      encoded.document.length ≤ limits.maximumPayloadBytes ∧
      (0 < event.metadata.sequence ∧ 0 < event.metadata.schemaVersion) ∧
      (batch.encoded ≠ [] → batch.previousSequence < event.metadata.sequence) ∧
      next.encoded = batch.encoded ++ [encoded] ∧
      next.previousSequence = event.metadata.sequence := by
  obtain ⟨hchk, h⟩ := guarded h
  obtain ⟨encoded, henc, h⟩ := bind_ok.1 h
  obtain ⟨hsize, h⟩ := guarded h
  cases h
  obtain ⟨hseq, hver, -, hnext, -⟩ := hchk
  exact ⟨encoded, henc, hsize,
    ⟨Nat.pos_of_ne_zero hseq, Nat.pos_of_ne_zero hver⟩, hnext, rfl, rfl⟩

theorem foldlM_prepareEvent {limits : SessionStoreLimits} {envelope payload : SessionStoreError}
    {batch result : Batch} {events : List (Event P)}
    (h : events.foldlM (prepareEvent codec limits envelope payload) batch = .ok result) :
    ∃ encoded, result.encoded = batch.encoded ++ encoded ∧
      Prepared codec limits events encoded ∧ (batch.encoded ≠ [] → ∀ event ∈ events,
        batch.previousSequence < event.metadata.sequence) := by
  induction events generalizing batch with
  | nil =>
    cases h
    exact ⟨[], by simp, ⟨.nil, .nil, by simp⟩, by simp⟩
  | cons event events ih =>
    obtain ⟨next, hstep, hrest⟩ := foldlM_cons_ok.1 h
    obtain ⟨first, hfst, hsize, hnum, hnext, henc, hprev⟩ := prepareEvent_ok hstep
    obtain ⟨rest, hres, hprep, haft⟩ := ih hrest
    have hne : next.encoded ≠ [] := by
      rw [henc]
      simp
    have hlat : ∀ other ∈ events, event.metadata.sequence < other.metadata.sequence := by
      intro other hoth
      have hlt := haft hne other hoth
      rwa [hprev] at hlt
    refine ⟨first :: rest, ?_, ⟨?_, ?_, ?_⟩, ?_⟩
    · rw [hres, henc, append_assoc]
      rfl
    · exact .cons ⟨hfst, hsize⟩ hprep.encodes
    · exact pairwise_cons.2 ⟨hlat, hprep.increasing⟩
    · exact forall_mem_cons.2 ⟨hnum, hprep.numbered⟩
    · intro hb other hoth
      rcases mem_cons.1 hoth with rfl | hoth
      · exact hnext hb
      · exact (hnext hb).trans (hlat other hoth)

theorem checkAppend_ok {limits : SessionStoreLimits} {circumstance : Circumstance}
    {events : List (Event P)} {encoded : List EncodedPayload}
    (h : checkAppend codec limits circumstance events = .ok encoded) :
    events ≠ [] ∧ Prepared codec limits events encoded := by
  obtain ⟨hchk, h⟩ := guarded h
  replace h := later h
  obtain ⟨batch, hbatch, h⟩ := bind_ok.1 h
  cases h
  obtain ⟨payloads, hpayloads, hprep, -⟩ := foldlM_prepareEvent hbatch
  have hsame : batch.encoded = payloads := hpayloads.trans (nil_append _)
  exact ⟨hchk.1, hsame ▸ hprep⟩

theorem checkInitial_ok {limits : SessionStoreLimits} {circumstance : Circumstance}
    {events : List (Event P)} {encoded : List EncodedPayload}
    (h : checkInitial codec limits circumstance events = .ok encoded) :
    (events.head?.map (·.metadata.sequence)) = some 1 ∧ Prepared codec limits events encoded := by
  replace h := later h
  replace h := later h
  obtain ⟨hhead, h⟩ := guarded h
  obtain ⟨batch, hbatch, h⟩ := bind_ok.1 h
  cases h
  obtain ⟨payloads, hpayloads, hprep, -⟩ := foldlM_prepareEvent hbatch
  have hsame : batch.encoded = payloads := hpayloads.trans (nil_append _)
  exact ⟨hhead, hsame ▸ hprep⟩

section Rows

variable {limits : SessionStoreLimits} {events : List (Event P)} {encoded : List EncodedPayload}

theorem Prepared.stores (h : Prepared codec limits events encoded) (session : SessionId) :
    List.Forall₂ (Stores codec session) events
      (List.zipWith (eventRow session) events encoded) := by
  have hall := h.encodes
  clear h
  induction hall with
  | nil => exact .nil
  | cons hfst _ ih => exact .cons ⟨_, hfst.1, rfl⟩ ih

/-- What the checks of a batch guarantee for each of its events. -/
structure Checked (codec : Codec P) (limits : SessionStoreLimits) (event : Event P) : Prop where
  sequence : 0 < event.metadata.sequence
  schemaVersion : 0 < event.metadata.schemaVersion
  document : ∀ payload, encodePayload codec event = .ok payload →
    payload.document.length ≤ limits.maximumPayloadBytes

theorem Prepared.checked (h : Prepared codec limits events encoded) {event : Event P}
    (hev : event ∈ events) : Checked codec limits event := by
  obtain ⟨hseq, hver⟩ := h.numbered event hev
  refine ⟨hseq, hver, ?_⟩
  intro payload hpay
  have hall := h.encodes
  clear h
  induction hall with
  | nil => cases hev
  | cons hfst _ ih =>
    rcases mem_cons.1 hev with rfl | hev
    · obtain rfl := Except.ok.inj (hpay.symm.trans hfst.1)
      exact hfst.2
    · exact ih hev

end Rows

theorem stores_metadata {session : SessionId} {events : List (Event P)} {rows : List EventRow}
    (h : List.Forall₂ (Stores codec session) events rows) :
    rows.map (·.metadata) = events.map (·.metadata) ∧ ∀ row ∈ rows, row.sessionId = session := by
  induction h with
  | nil => exact ⟨rfl, by simp⟩
  | @cons event row events rows hfst _ ih =>
    obtain ⟨_, -, rfl⟩ := hfst
    refine ⟨congrArg (event.metadata :: ·) ih.1, ?_⟩
    intro other hoth
    rcases mem_cons.1 hoth with rfl | hoth
    · rfl
    · exact ih.2 other hoth

theorem stores_increasing {session : SessionId} {events : List (Event P)} {rows : List EventRow}
    (h : List.Forall₂ (Stores codec session) events rows)
    (hi : events.Pairwise fun a b => a.metadata.sequence < b.metadata.sequence) :
    rows.Pairwise fun a b => a.metadata.sequence < b.metadata.sequence := by
  have hmap : (events.map (·.metadata)).Pairwise fun a b => a.sequence < b.sequence :=
    pairwise_map.2 hi
  rw [← (stores_metadata h).1, pairwise_map] at hmap
  exact hmap

theorem transaction_cases {α : Type} (db : Database)
    (body : Except SessionStoreError (Database × α)) :
    (∃ db' answer, body = .ok (db', answer) ∧ transaction db body = (db', .ok answer)) ∨
      ∃ error, transaction db body = (db, .error error) := by
  cases body with
  | error error => exact .inr ⟨error, rfl⟩
  | ok result => exact .inl ⟨result.1, result.2, rfl, rfl⟩

/-- What an accepted call did to the database. -/
structure Adds (codec : Codec P) (call : Call P) (db db' : Database) : Prop where
  sound : Sound db'
  sessions : ∀ session, db.hasSession session → db'.hasSession session
  rows : ∀ session, ∃ rows, db'.eventsOf session = db.eventsOf session ++ rows ∧
    List.Forall₂ (Stores codec session) (call.batch session) rows
  checked : ∀ session, ∀ event ∈ call.batch session, Checked codec call.limits event

theorem adds_refl {call : Call P} {db : Database} (h : Sound db)
    (hb : ∀ session, call.batch session = []) : Adds codec call db db := by
  refine ⟨h, fun _ hs => hs, ?_, ?_⟩
  · intro session
    rw [hb session]
    exact ⟨[], (append_nil _).symm, .nil⟩
  · intro session
    rw [hb session]
    simp

theorem adds_rows {call : Call P} {db : Database} {target : SessionId} {rows : List EventRow}
    {events : List (Event P)} (h : Sound { db with events := db.events ++ rows })
    (hrows : List.Forall₂ (Stores codec target) events rows)
    (hchk : ∀ event ∈ events, Checked codec call.limits event)
    (hb : ∀ session, call.batch session = if target = session then events else []) :
    Adds codec call db { db with events := db.events ++ rows } := by
  refine ⟨h, fun _ hs => hs, ?_, ?_⟩
  · intro session
    have howner := (stores_metadata hrows).2
    rw [eventsOf_append, hb session]
    by_cases hs : target = session
    · subst hs
      rw [if_pos rfl, filter_owned howner]
      exact ⟨rows, rfl, hrows⟩
    · rw [if_neg hs, filter_foreign howner hs]
      exact ⟨[], rfl, .nil⟩
  · intro session event hev
    rw [hb session] at hev
    by_cases hs : target = session
    · rw [if_pos hs] at hev
      exact hchk event hev
    · rw [if_neg hs] at hev
      cases hev

theorem insertSession_ok {db db' : Database} {row : SessionRow}
    (h : insertSession db row = .ok db') :
    db.hasSession row.sessionId = false ∧ db' = { db with sessions := db.sessions ++ [row] } := by
  obtain ⟨hchk, h⟩ := guarded h
  exact ⟨hchk, (Except.ok.inj h).symm⟩

theorem hasSession_append {db : Database} {row : SessionRow} {session : SessionId}
    (h : db.hasSession session) :
    Database.hasSession { db with sessions := db.sessions ++ [row] } session := by
  unfold Database.hasSession at h ⊢
  rw [any_append, h]
  rfl

theorem sound_insertSession {db : Database} (h : Sound db) (row : SessionRow) :
    Sound { db with sessions := db.sessions ++ [row] } := by
  refine ⟨h.ordered, h.distinct, ?_⟩
  intro event hev
  exact hasSession_append (h.owned event hev)

theorem eventsOf_eq_nil {db : Database} (h : Sound db) {session : SessionId}
    (hs : db.hasSession session = false) : db.eventsOf session = [] := by
  rw [eq_nil_iff_forall_not_mem]
  intro row hrow
  obtain ⟨hmem, rfl⟩ := mem_eventsOf.1 hrow
  have howned := h.owned row hmem
  rw [hs] at howned
  cases howned

theorem createSession_cases (circumstance : Circumstance) (db : Database) (row : SessionRow) :
    (∃ error, createSession circumstance db row = (db, .error error)) ∨
      db.hasSession row.sessionId = false ∧ createSession circumstance db row =
        ({ db with sessions := db.sessions ++ [row] }, .ok ()) := by
  unfold createSession
  cases circumstance.poll 0 with
  | error error => exact .inl ⟨error, rfl⟩
  | ok =>
    rcases transaction_cases db (storeSession circumstance db row) with
      ⟨_, _, hbody, hres⟩ | ⟨error, hres⟩
    · have h := later hbody
      replace h := later h
      obtain ⟨_, hins, h⟩ := bind_ok.1 h
      replace h := later h
      replace h := later h
      obtain ⟨rfl, -⟩ := Prod.mk.inj (Except.ok.inj h)
      obtain ⟨hnew, rfl⟩ := insertSession_ok hins
      exact .inr ⟨hnew, hres⟩
    · exact .inl ⟨error, hres⟩

theorem createSessionWithEvents_cases (codec : Codec P) (limits : SessionStoreLimits)
    (circumstance : Circumstance) {db : Database} (hdb : Sound db) (row : SessionRow)
    (events : List (Event P)) :
    (∃ error, createSessionWithEvents codec limits circumstance db row events =
      (db, .error error)) ∨
    ∃ rows encoded, db.hasSession row.sessionId = false ∧
      (events.head?.map (·.metadata.sequence)) = some 1 ∧ Prepared codec limits events encoded ∧
      List.Forall₂ (Stores codec row.sessionId) events rows ∧
      Sound ⟨db.sessions ++ [row], db.events ++ rows⟩ ∧
      createSessionWithEvents codec limits circumstance db row events =
        (⟨db.sessions ++ [row], db.events ++ rows⟩, .ok ()) := by
  unfold createSessionWithEvents
  cases hchk : checkInitial codec limits circumstance events with
  | error error => exact .inl ⟨error, rfl⟩
  | ok encoded =>
    obtain ⟨hhead, hprep⟩ := checkInitial_ok hchk
    rcases transaction_cases db (storeInitial codec circumstance db row
      (List.zipWith (eventRow row.sessionId) events encoded)) with
      ⟨_, _, hbody, hres⟩ | ⟨error, hres⟩
    · have h := later hbody
      replace h := later h
      obtain ⟨_, hins, h⟩ := bind_ok.1 h
      obtain ⟨hnew, rfl⟩ := insertSession_ok hins
      have hrows := hprep.stores row.sessionId
      have hold : Database.eventsOf { db with sessions := db.sessions ++ [row] }
          row.sessionId = [] := eventsOf_eq_nil hdb hnew
      obtain ⟨rfl, hsound⟩ := finishRows_ok h (sound_insertSession hdb row)
        (stores_metadata hrows).2 (stores_increasing hrows hprep.increasing)
        (by rw [hold]; simp)
      exact .inr ⟨_, encoded, hnew, hhead, hprep, hrows, hsound, hres⟩
    · exact .inl ⟨error, hres⟩

theorem appendEvents_cases (codec : Codec P) (limits : SessionStoreLimits)
    (circumstance : Circumstance) {db : Database} (hdb : Sound db) (session : SessionId)
    (events : List (Event P)) :
    (∃ error, appendEvents codec limits circumstance db session events = (db, .error error)) ∨
    ∃ rows encoded, db.hasSession session ∧ events ≠ [] ∧
      (∀ event ∈ events, db.lastSequence session < event.metadata.sequence) ∧
      Prepared codec limits events encoded ∧ List.Forall₂ (Stores codec session) events rows ∧
      Sound { db with events := db.events ++ rows } ∧
      appendEvents codec limits circumstance db session events =
        ({ db with events := db.events ++ rows }, .ok ()) := by
  unfold appendEvents
  cases hchk : checkAppend codec limits circumstance events with
  | error error => exact .inl ⟨error, rfl⟩
  | ok encoded =>
    obtain ⟨hne, hprep⟩ := checkAppend_ok hchk
    rcases transaction_cases db (storeBatch codec circumstance db session events
      (List.zipWith (eventRow session) events encoded)) with
      ⟨_, _, hbody, hres⟩ | ⟨error, hres⟩
    · have h := later hbody
      replace h := later h
      obtain ⟨hsess, h⟩ := guarded h
      obtain ⟨hadv, h⟩ := guarded h
      -- The check is on the first event; the others come later in the batch.
      have hlast : ∀ event ∈ events, db.lastSequence session < event.metadata.sequence := by
        cases events with
        | nil => exact absurd rfl hne
        | cons first =>
          have hfst := hadv first rfl
          intro event hev
          rcases mem_cons.1 hev with rfl | hev
          · exact hfst
          · exact hfst.trans ((pairwise_cons.1 hprep.increasing).1 event hev)
      have hrows := hprep.stores session
      have haft : ∀ old ∈ db.eventsOf session, ∀ row ∈
          List.zipWith (eventRow session) events encoded,
          old.metadata.sequence < row.metadata.sequence := by
        intro old hold row hrow
        have hmem : row.metadata ∈ events.map (·.metadata) := by
          rw [← (stores_metadata hrows).1]
          exact mem_map_of_mem hrow
        obtain ⟨event, hev, he⟩ := mem_map.1 hmem
        rw [← he]
        exact lt_of_le_of_lt (le_lastSequence hold) (hlast event hev)
      obtain ⟨rfl, hsound⟩ := finishRows_ok h hdb (stores_metadata hrows).2
        (stores_increasing hrows hprep.increasing) haft
      exact .inr ⟨_, encoded, hsess, hne, hlast, hprep, hrows, hsound, hres⟩
    · exact .inl ⟨error, hres⟩

/-- A refused call changes nothing, and an accepted one adds its batch. -/
theorem perform_cases (codec : Codec P) (call : Call P) {db : Database} (hdb : Sound db) :
    (∃ error, call.perform codec db = (db, .error error)) ∨
      ∃ answer, (call.perform codec db).2 = .ok answer ∧
        Adds codec call db (call.perform codec db).1 := by
  obtain ⟨request, limits, circumstance⟩ := call
  cases request with
  | createSession row =>
    rcases createSession_cases circumstance db row with
      ⟨error, h⟩ | ⟨-, h⟩
    · refine .inl ⟨error, ?_⟩
      simp only [Call.perform, h]
      rfl
    · refine .inr ⟨[], ?_, ?_⟩
      · simp only [Call.perform, h]
        rfl
      · simp only [Call.perform, h, silent]
        refine ⟨sound_insertSession hdb row, fun _ hs => hasSession_append hs, ?_, ?_⟩
        · intro session
          exact ⟨[], (append_nil _).symm, .nil⟩
        · intro session event hev
          cases hev
  | createSessionWithEvents row events =>
    rcases createSessionWithEvents_cases codec limits circumstance hdb row events with
      ⟨error, h⟩ | ⟨rows, _, -, -, hprep, hrows, hsound, h⟩
    · refine .inl ⟨error, ?_⟩
      simp only [Call.perform, h]
      rfl
    · refine .inr ⟨[], ?_, ?_⟩
      · simp only [Call.perform, h]
        rfl
      · simp only [Call.perform, h, silent]
        have hadds : Adds codec ⟨.createSessionWithEvents row events, limits, circumstance⟩
            ⟨db.sessions ++ [row], db.events⟩ ⟨db.sessions ++ [row], db.events ++ rows⟩ :=
          adds_rows hsound hrows (fun _ => hprep.checked) fun _ => rfl
        exact ⟨hsound, fun _ hs => hasSession_append hs, hadds.rows, hadds.checked⟩
  | appendEvents session events =>
    rcases appendEvents_cases codec limits circumstance hdb session events with
      ⟨error, h⟩ | ⟨rows, _, -, -, -, hprep, hrows, hsound, h⟩
    · refine .inl ⟨error, ?_⟩
      simp only [Call.perform, h]
      rfl
    · refine .inr ⟨[], ?_, ?_⟩
      · simp only [Call.perform, h]
        rfl
      · simp only [Call.perform, h, silent]
        exact adds_rows hsound hrows (fun _ => hprep.checked) fun _ => rfl
  | replayEvents session =>
    cases h : replayEvents codec limits circumstance db session with
    | error error =>
      refine .inl ⟨error, ?_⟩
      simp only [Call.perform, h]
    | ok events =>
      refine .inr ⟨events, ?_, ?_⟩
      · simp only [Call.perform, h]
      · exact adds_refl hdb fun _ => rfl

theorem perform_adds {call : Call P} {db : Database} (hdb : Sound db)
    (h : (call.perform codec db).2.isOk) : Adds codec call db (call.perform codec db).1 := by
  rcases perform_cases codec call hdb with ⟨_, he⟩ | ⟨-, -, hadds⟩
  · rw [he] at h
    cases h
  · exact hadds

theorem perform_refused {call : Call P} {db : Database} (hdb : Sound db)
    (h : (call.perform codec db).2.isOk = false) : (call.perform codec db).1 = db := by
  rcases perform_cases codec call hdb with ⟨_, he⟩ | ⟨_, hok, -⟩
  · rw [he]
  · rw [hok] at h
    cases h

theorem perform_sound (codec : Codec P) (call : Call P) {db : Database} (hdb : Sound db) :
    Sound (call.perform codec db).1 := by
  rcases perform_cases codec call hdb with ⟨_, he⟩ | ⟨-, -, hadds⟩
  · rw [he]
    exact hdb
  · exact hadds.sound

theorem after_sound {db : Database} (hdb : Sound db) (calls : List (Call P)) :
    Sound (after codec db calls) := by
  induction calls generalizing db with
  | nil => exact hdb
  | cons call _ ih => exact ih (perform_sound codec call hdb)

theorem after_append (db : Database) (first second : List (Call P)) :
    after codec db (first ++ second) = after codec (after codec db first) second := by
  induction first generalizing db with
  | nil => rfl
  | cons _ _ ih => exact ih _

/-- The rows of a session are those it had and those of the batches accepted since. -/
theorem after_rows (codec : Codec P) {db : Database} (hdb : Sound db) (session : SessionId)
    (calls : List (Call P)) :
    ∃ rows, (after codec db calls).eventsOf session = db.eventsOf session ++ rows ∧
      List.Forall₂ (Stores codec session) (accepted codec session db calls) rows := by
  induction calls generalizing db with
  | nil => exact ⟨[], (append_nil _).symm, .nil⟩
  | cons call _ ih =>
    obtain ⟨later, hlat, hsto⟩ := ih (perform_sound codec call hdb)
    by_cases hok : (call.perform codec db).2.isOk
    · obtain ⟨rows, hrows, hbatch⟩ := (perform_adds hdb hok).rows session
      refine ⟨rows ++ later, ?_, ?_⟩
      · rw [after, hlat, hrows, append_assoc]
      · rw [accepted, if_pos hok]
        exact rel_append hbatch hsto
    · have hsame := perform_refused hdb (Bool.eq_false_iff.2 hok)
      refine ⟨later, ?_, ?_⟩
      · rw [after, hlat, hsame]
      · rw [accepted, if_neg hok]
        exact hsto

theorem replayRow_ok {limits : SessionStoreLimits} {replay next : Replay P} {row : EventRow} :
    replayRow codec limits replay row = .ok next ↔
      replay.events.length < limits.maximumReplayEvents ∧
      (0 < row.metadata.sequence ∧ 0 < row.metadata.schemaVersion ∧
        row.metadata.schemaVersion < 2 ^ 32) ∧
      replay.previousSequence < row.metadata.sequence ∧
      (validId row.metadata.eventId ∧ validId row.metadata.runId ∧
        row.metadata.causedByEventId.all validId ∧ row.metadata.parentRunId.all validId ∧
        row.metadata.invocationId.all validId) ∧
      (row.metadata.eventId ∉ replay.eventIds ∧ validType row.payloadType) ∧
      (row.payloadJson.length ≤ limits.maximumPayloadBytes ∧
        row.payloadJson.length ≤ limits.maximumReplayBytes - replay.replayBytes) ∧
      ∃ payload,
        codec.read row.payloadType row.metadata.schemaVersion row.payloadJson = .ok payload ∧
        next = {
          events := replay.events ++ [(row.metadata, payload)]
          eventIds := insert row.metadata.eventId replay.eventIds
          previousSequence := row.metadata.sequence
          replayBytes := replay.replayBytes + row.payloadJson.length } := by
  unfold replayRow
  simp only [bind_ok, ensure_ok]
  constructor
  · rintro ⟨-, h1, -, h2, -, h3, -, h4, -, h5, -, h6, payload, hread, h⟩
    exact ⟨h1, h2, h3, h4, h5, h6, payload, hread, (Except.ok.inj h).symm⟩
  · rintro ⟨h1, h2, h3, h4, h5, h6, payload, hread, rfl⟩
    exact ⟨⟨⟩, h1, ⟨⟩, h2, ⟨⟩, h3, ⟨⟩, h4, ⟨⟩, h5, ⟨⟩, h6, payload, hread, rfl⟩

end SessionStore
