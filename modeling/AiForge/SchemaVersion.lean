import AiForge.JsonText
import AiForge.NamedMembers

/-! # The version that an event is stored under

The kernel chooses the schema version of an event from its payload, the store decides which
versions it encodes and what it reads back. If some version keeps a payload, the chosen one does:
the two differ only where the chosen version has more room or where less is enough. -/
namespace PayloadCodec

open Except Option

open Content Events Json List PlanGraph Recording SafeText SessionStore Staged RunEventPayload

variable {parts : Parts} {library : Library}

/-- The store takes the payload under this version and a replay returns it. -/
def Keeps (parts : Parts) (library : Library) (payload : RunEventPayload) (version : ℕ) : Prop :=
  validType (bytesOf (payloadType payload)) ∧
    ∃ document, encode parts library payload version = .ok document ∧
      decode parts library (payloadType payload) version document = .ok payload

theorem dumpOf_ok {value : Json} {document : Bytes} :
    dumpOf library value = .ok document ↔ library.dump value = some document := by
  unfold dumpOf
  cases library.dump value with
  | none =>
    constructor
    · intro h
      cases h
    · intro h
      cases h
  | some =>
    exact ⟨fun h => congrArg _ (ok.inj h), fun h => congrArg _ (some.inj h)⟩

theorem canonical_iff_dump {value : Json} :
    value.canonical ↔ ∃ document, library.dump value = some document := by
  rw [← library.dump_isSome, isSome_iff_exists]

theorem parseJsonDocument_dump {value : Json} {document : Bytes}
    (h : library.dump value = some document) : parseJsonDocument library document = .ok value := by
  unfold parseJsonDocument
  rw [library.parse_dump value document h]
  dsimp only
  rw [h]
  exact if_pos rfl

/-- What the encoder checks before it writes. -/
structure Encodable (payload : RunEventPayload) (version : ℕ) : Prop where
  known : knownPayloadSchema (payloadType payload) version
  valid : validatePayloadSchemaForEncoding payload version = .ok ()
  first : version = 1 → checkFirstVersion payload = .ok ()

variable {payload : RunEventPayload}

/-- A payload of a known kind is kept when its document can be printed and is read as the
payload: the comparison of the decoder then compares the document with itself. -/
theorem keeps_known_iff (hu : isUnknown payload = false) (version : ℕ) :
    Keeps parts library payload version ↔
      validType (bytesOf (payloadType payload)) ∧ Encodable payload version ∧
      ∃ value, payloadJson parts library payload version = .ok value ∧
        value.canonical ∧
        parsePayload parts (payloadType payload) value version = .ok payload := by
  refine and_congr_right fun _ => ?_
  constructor
  · rintro ⟨document, hencode, hdec⟩
    simp only [encode, bind_ok, ensure_ok, mapError_ok, dumpOf_ok, hu] at hencode
    obtain ⟨-, hknw, -, -, _, hval, _, hfst, value, hvalue, hdump⟩ := hencode
    have hknw : knownPayloadSchema (payloadType payload) version := by simpa using hknw
    have hfst : version = 1 → checkFirstVersion payload = .ok () := by
      intro h1
      unfold onlyIf at hfst
      rwa [if_pos h1] at hfst
    refine ⟨⟨hknw, hval, hfst⟩, value, hvalue, canonical_iff_dump.2 ⟨document, hdump⟩, ?_⟩
    simp only [decode, parseJsonDocument_dump hdump, hknw, if_true, bind_ok, ensure_ok,
      mapError_ok] at hdec
    obtain ⟨_, hparsed, _, hparse, -, -, -, -, -, -, -, -, hsame⟩ := hdec
    cases hparsed
    cases hsame
    exact hparse
  · rintro ⟨henc, value, hvalue, hcanon, hparse⟩
    obtain ⟨document, hdump⟩ : ∃ document, library.dump value = some document :=
      canonical_iff_dump.1 hcanon
    refine ⟨document, ?_, ?_⟩
    · simp only [encode, bind_ok, ensure_ok, mapError_ok, dumpOf_ok, hu]
      refine ⟨⟨⟩, .inl henc.known, ⟨⟩, by simp, (), henc.valid, ⟨⟩, ?_, value,
        hvalue, hdump⟩
      unfold onlyIf
      split
      · rename_i h1
        exact henc.first h1
      · rfl
    · simp only [decode, parseJsonDocument_dump hdump, henc.known, if_true, bind_ok,
        ensure_ok, mapError_ok, dumpOf_ok]
      exact ⟨value, rfl, payload, hparse, ⟨⟩, rfl, value, hvalue, document, hdump, ⟨⟩, rfl, rfl⟩

def policyNames : List String := ["invocation_id", "decision", "scopes", "reason", "source"]

/-- The fields that both versions of a policy decision have are read as they were written. -/
structure PolicyKept (parts : Parts) (value : ToolPolicyDecided) (scopes : Json) : Prop where
  invocationId : parseId (idText value.invocationId) = .ok value.invocationId
  decision : parsePolicy (.text (bytesOf (policyName value.decision))) = .ok value.decision
  scopes : parts.scopes.read scopes = .ok value.scopes
  reason : parseOptionalString (optionalStringJson value.reason) = .ok value.reason
  source : parsePolicySource (.text (bytesOf (policySourceName value.source))) = .ok value.source

variable {scopes : Json} {extra : List (Bytes × Json)} {names : List String} {version : ℕ}

theorem parseToolPolicyDecided_iff {value : ToolPolicyDecided}
    (hn : Named (toolPolicyDecidedBase value scopes ++ extra) (policyNames ++ names)) :
    parseToolPolicyDecided parts (obj (toolPolicyDecidedBase value scopes ++ extra)) version =
        .ok value ↔
      (2 ≤ version → "automatic_approval" ∈ names) ∧ PolicyKept parts value scopes ∧
      only (2 ≤ version) none
        (field (obj (toolPolicyDecidedBase value scopes ++ extra)) "automatic_approval" >>=
          parseAutomaticApproval) = .ok value.automaticApproval ∧
      decide (value.source = .automaticMatcher) = value.automaticApproval.isSome ∧
      ¬ (value.automaticApproval.isSome ∧ value.decision ≠ .allow) := by
  have hcont : (2 ≤ version → (obj (toolPolicyDecidedBase value scopes ++ extra)).contains
      (key "automatic_approval")) ↔ (2 ≤ version → "automatic_approval" ∈ names) := by
    rw [contains_obj hn, decide_eq_true_eq]
    simp [policyNames]
  have hid := field_obj hn "invocation_id" (idText value.invocationId)
    (by simp [toolPolicyDecidedBase])
  have hdecision := field_obj hn "decision"
    (.text (bytesOf (policyName value.decision))) (by simp [toolPolicyDecidedBase])
  have hsc := field_obj hn "scopes" scopes (by simp [toolPolicyDecidedBase])
  have hreason := field_obj hn "reason" (optionalStringJson value.reason)
    (by simp [toolPolicyDecidedBase])
  have hsrc : fieldOr (obj (toolPolicyDecidedBase value scopes ++ extra)) "source" .fallback
      parsePolicySource = parsePolicySource (.text (bytesOf (policySourceName value.source))) :=
    fieldOr_obj hn "source" _ (by simp [toolPolicyDecidedBase]) _ _
  simp only [parseToolPolicyDecided, hid, hdecision, hsc, hreason, hsrc, bind_ok,
    ensure_ok, Staged.ok_bind, hcont]
  constructor
  · rintro ⟨-, hc, _, hi, _, hd, _, hs, _, hr, _, ho, _, ha, -, hok, hsame⟩
    cases hsame
    exact ⟨hc, ⟨hi, hd, hs, hr, ho⟩, ha, hok.1, hok.2⟩
  · rintro ⟨hc, hk, ha, h1, h2⟩
    exact ⟨⟨⟩, hc, _, hk.invocationId, _, hk.decision, _, hk.scopes, _, hk.reason, _, hk.source,
      _, ha, ⟨⟩, ⟨h1, h2⟩, rfl⟩

/-- The second version of a policy decision has room for what the first one keeps. -/
theorem policyDecided_second {value : ToolPolicyDecided}
    (h : Keeps parts library (.toolPolicyDecided value) 1) :
    Keeps parts library (.toolPolicyDecided value) 2 := by
  rw [keeps_known_iff rfl] at h ⊢
  obtain ⟨htype, henc, _, hdoc, hcanon, hparse⟩ := h
  obtain ⟨scopes, hsc, hdoc⟩ := bind_ok.1 hdoc
  cases hdoc
  have hn : Named (toolPolicyDecidedBase value scopes ++ []) (policyNames ++ []) :=
    ⟨rfl, by decide⟩
  have hn' : Named (toolPolicyDecidedBase value scopes ++ [(key "automatic_approval", .null)])
      (policyNames ++ ["automatic_approval"]) := ⟨rfl, by decide⟩
  obtain ⟨decoded, hdec, hsame⟩ := map_ok.1 hparse
  obtain rfl : decoded = value := toolPolicyDecided.inj hsame
  obtain ⟨-, hkept, hnone, hcons, hallow⟩ := (parseToolPolicyDecided_iff hn).1 hdec
  have hnone : decoded.automaticApproval = none := (ok.inj hnone).symm
  have hval := henc.valid
  simp only [validatePayloadSchemaForEncoding, hnone, bind_ok, ensure_ok] at hval
  obtain ⟨-, hsrc, -⟩ := hval
  refine ⟨htype, ⟨rfl, ?_, by simp⟩,
    obj (toolPolicyDecidedBase decoded scopes ++ [(key "automatic_approval", .null)]), ?_, ?_, ?_⟩
  · simp only [validatePayloadSchemaForEncoding, hnone, bind_ok, ensure_ok]
    exact ⟨⟨⟩, hsrc, by simp⟩
  · refine bind_ok.2 ⟨scopes, hsc, ?_⟩
    rw [hnone]
    rfl
  · have hbase := (canonical_named hn).1 hcanon
    rw [append_nil] at hbase
    rw [canonical_named hn', forall_mem_append]
    exact ⟨hbase, by simp [Json.canonical]⟩
  · refine map_ok.2 ⟨decoded, (parseToolPolicyDecided_iff hn').2 ?_, rfl⟩
    refine ⟨by simp, hkept, ?_, hcons, hallow⟩
    rw [field_obj hn' "automatic_approval" .null (by simp), hnone]
    rfl

def planNames : List String :=
  ["plan_id", "revision_id", "supersedes_revision_id", "goal", "source_snapshot", "tasks"]

/-- The fields that both versions of a plan revision have are read as they were written. -/
structure PlanKept (parts : Parts) (revision : PlanRevision) (snapshot : Json)
    (tasks : List Json) : Prop where
  planId : parseId (idText revision.planId) = .ok revision.planId
  revisionId : parseId (idText revision.revisionId) = .ok revision.revisionId
  supersedes : parseOptionalId (optionalIdJson revision.supersedesRevisionId) =
    .ok revision.supersedesRevisionId
  snapshot : parseOptional parts.snapshot snapshot = .ok revision.sourceSnapshot
  tasks : tasks.mapM parts.planTask.read = .ok revision.tasks

theorem parsePlanRevision_iff {revision : PlanRevision} {snapshot : Json} {tasks : List Json}
    (hn : Named (planRevisionBase revision snapshot tasks ++ extra) (planNames ++ names)) :
    parsePlanRevision parts (obj (planRevisionBase revision snapshot tasks ++ extra)) =
        .ok revision ↔
      PlanKept parts revision snapshot tasks ∧
      fieldOr (obj (planRevisionBase revision snapshot tasks ++ extra)) "evidence" [] (fun found =>
        itemsOf "plan evidence list is invalid" found >>= fun items =>
          items.mapM parts.planEvidenceBinding.read) = .ok revision.evidence ∧
      (validatePlanRevision revision).isOk = true := by
  have htasks := field_obj hn "tasks" (.array tasks) (by simp [planRevisionBase])
  have hplan := field_obj hn "plan_id" (idText revision.planId)
    (by simp [planRevisionBase])
  have hrev := field_obj hn "revision_id" (idText revision.revisionId)
    (by simp [planRevisionBase])
  have hsupersedes := field_obj hn "supersedes_revision_id"
    (optionalIdJson revision.supersedesRevisionId) (by simp [planRevisionBase])
  have hgoal := field_obj hn "goal" (.text revision.goal) (by simp [planRevisionBase])
  have hsnap := field_obj hn "source_snapshot" snapshot
    (by simp [planRevisionBase])
  simp only [parsePlanRevision, htasks, hplan, hrev, hsupersedes, hgoal, hsnap,
    bind_ok, ensure_ok, Staged.ok_bind]
  constructor
  · rintro ⟨_, hraw, _, hp, _, hr, _, hs, _, _, _, ho, _, ht, _, he, -, hok, hsame⟩
    cases hraw
    cases hsame
    exact ⟨⟨hp, hr, hs, ho, ht⟩, he, hok⟩
  · rintro ⟨hk, he, hok⟩
    exact ⟨tasks, rfl, _, hk.planId, _, hk.revisionId, _, hk.supersedes, _, rfl, _, hk.snapshot,
      _, hk.tasks, _, he, ⟨⟩, hok, rfl⟩

/-- The second version of a plan revision has room for what the first one keeps. -/
theorem planRevision_second {revision : PlanRevision}
    (h : Keeps parts library (.planRevisionProposed revision) 1) :
    Keeps parts library (.planRevisionProposed revision) 2 := by
  rw [keeps_known_iff rfl] at h ⊢
  obtain ⟨htype, henc, _, hdoc, hcanon, hparse⟩ := h
  have hemp : revision.evidence = [] := ensure_ok.1 (henc.first rfl)
  obtain ⟨inner, hinner, hdoc⟩ := bind_ok.1 hdoc
  cases hdoc
  simp only [planRevisionJson, bind_ok, ensure_ok] at hinner
  obtain ⟨-, hval, tasks, htasks, snapshot, hsnap, evidence, hev, hinner⟩ := hinner
  obtain rfl : [] = evidence := ok.inj hev
  cases hinner
  have hn : Named (planRevisionBase revision snapshot tasks ++ []) (planNames ++ []) :=
    ⟨rfl, by decide⟩
  have hn' : Named (planRevisionBase revision snapshot tasks ++ [(key "evidence", .array [])])
      (planNames ++ ["evidence"]) := ⟨rfl, by decide⟩
  have houter : ∀ inner, Named [(key "revision", inner)] ["revision"] :=
    fun inner => ⟨rfl, by decide⟩
  obtain ⟨decoded, hdec, hsame⟩ := map_ok.1 hparse
  obtain rfl : decoded = revision := planRevisionProposed.inj hsame
  have hdec : field (obj [(key "revision", obj (planRevisionBase decoded snapshot tasks ++
      []))]) "revision" >>= parsePlanRevision parts = .ok decoded := hdec
  rw [field_obj (houter _) "revision" _ mem_cons_self, Staged.ok_bind, parsePlanRevision_iff hn]
    at hdec
  obtain ⟨hkept, -, -⟩ := hdec
  refine ⟨htype, ⟨rfl, rfl, by simp⟩, obj [(key "revision",
    obj (planRevisionBase decoded snapshot tasks ++ [(key "evidence", .array [])]))], ?_, ?_, ?_⟩
  · refine bind_ok.2 ⟨_, ?_, rfl⟩
    simp only [planRevisionJson, bind_ok, ensure_ok]
    refine ⟨⟨⟩, hval, tasks, htasks, snapshot, hsnap, _, ?_, rfl⟩
    rw [hemp]
    rfl
  · rw [canonical_named (houter _), forall_mem_singleton] at hcanon ⊢
    have hbase := (canonical_named hn).1 hcanon
    rw [append_nil] at hbase
    rw [canonical_named hn', forall_mem_append]
    exact ⟨hbase, by simp [Json.canonical, Json.canonicalItems]⟩
  · refine map_ok.2 ⟨decoded, ?_, rfl⟩
    show field _ _ >>= parsePlanRevision parts = .ok decoded
    rw [field_obj (houter _) "revision" _ mem_cons_self, Staged.ok_bind, parsePlanRevision_iff hn']
    refine ⟨hkept, ?_, hval⟩
    rw [fieldOr_obj hn' "evidence" (.array []) (by simp), hemp]
    rfl

def descriptorNames : List String :=
  ["parent_run_id", "plan_id", "revision_id", "task_id", "context", "budget", "effects",
    "capability_scopes"]

/-- The fields that all versions of a descriptor have are read as they were written. -/
structure DescriptorKept (parts : Parts) (descriptor : ChildRunDescriptor)
    (context budget effects scopes : Json) : Prop where
  parentRunId : parseId (idText descriptor.parentRunId) = .ok descriptor.parentRunId
  planId : parseId (idText descriptor.planId) = .ok descriptor.planId
  revisionId : parseId (idText descriptor.revisionId) = .ok descriptor.revisionId
  taskId : parseId (idText descriptor.taskId) = .ok descriptor.taskId
  context : parts.childRunContext.read context = .ok descriptor.context
  budget : parts.childRunBudget.read budget = .ok descriptor.budget
  effects : parts.effects.read effects = .ok descriptor.effects
  scopes : parts.scopes.read scopes = .ok descriptor.capabilityScopes

variable {descriptor : ChildRunDescriptor}

theorem parseChildRunDescriptor_iff {context budget effects : Json}
    (hn : Named (childRunDescriptorBase descriptor context budget effects scopes ++ extra)
      (descriptorNames ++ names)) :
    parseChildRunDescriptor parts
        (obj (childRunDescriptorBase descriptor context budget effects scopes ++ extra)) =
        .ok descriptor ↔
      DescriptorKept parts descriptor context budget effects scopes ∧
      fieldOr (obj (childRunDescriptorBase descriptor context budget effects scopes ++ extra))
        "attempt" 1 (getU32 parts) = .ok descriptor.attempt ∧
      fieldOr (obj (childRunDescriptorBase descriptor context budget effects scopes ++ extra))
        "review_receipt_id" none parseOptionalId = .ok descriptor.reviewReceiptId ∧
      (validateChildRunDescriptor descriptor).isOk := by
  have hpar := field_obj hn "parent_run_id" (idText descriptor.parentRunId)
    (by simp [childRunDescriptorBase])
  have hplan := field_obj hn "plan_id" (idText descriptor.planId)
    (by simp [childRunDescriptorBase])
  have hrev := field_obj hn "revision_id" (idText descriptor.revisionId)
    (by simp [childRunDescriptorBase])
  have htask := field_obj hn "task_id" (idText descriptor.taskId)
    (by simp [childRunDescriptorBase])
  have hctx := field_obj hn "context" context (by simp [childRunDescriptorBase])
  have hbud := field_obj hn "budget" budget (by simp [childRunDescriptorBase])
  have heff := field_obj hn "effects" effects (by simp [childRunDescriptorBase])
  have hsc := field_obj hn "capability_scopes" scopes (by simp [childRunDescriptorBase])
  simp only [parseChildRunDescriptor, hpar, hplan, hrev, htask, hctx, hbud,
    heff, hsc, bind_ok, ensure_ok, Staged.ok_bind]
  constructor
  · rintro ⟨_, hp, _, hq, _, hr, _, ht, _, hc, _, hb, _, he, _, hs, _, ha, _, hv, -, hok, hsame⟩
    cases hsame
    exact ⟨⟨hp, hq, hr, ht, hc, hb, he, hs⟩, ha, hv, hok⟩
  · rintro ⟨hk, ha, hv, hok⟩
    exact ⟨_, hk.parentRunId, _, hk.planId, _, hk.revisionId, _, hk.taskId, _, hk.context, _,
      hk.budget, _, hk.effects, _, hk.scopes, _, ha, _, hv, ⟨⟩, hok, rfl⟩

def reviewNames (descriptor : ChildRunDescriptor) : List String :=
  if descriptor.reviewReceiptId.isSome then ["review_receipt_id"] else []

theorem named_review (descriptor : ChildRunDescriptor) (context budget effects scopes : Json)
    (attempt : List (Bytes × Json)) (names : List String) (h : attempt.map Prod.fst = names.map key)
    (hnms : names = [] ∨ names = ["attempt"]) :
    Named (childRunDescriptorBase descriptor context budget effects scopes ++
      (attempt ++ childRunReview descriptor))
      (descriptorNames ++ (names ++ reviewNames descriptor)) := by
  unfold childRunReview reviewNames
  constructor
  · rw [map_append, map_append, h, map_append, map_append]
    cases descriptor.reviewReceiptId <;> rfl
  · rcases hnms with rfl | rfl <;> cases descriptor.reviewReceiptId.isSome <;> decide

/-- The review of a dispatch is read alike, with or without an attempt before it. -/
theorem fieldOr_review {context budget effects : Json} {attempt : List (Bytes × Json)}
    (hn : Named (childRunDescriptorBase descriptor context budget effects scopes ++
      (attempt ++ childRunReview descriptor)) (descriptorNames ++ (names ++ reviewNames descriptor)))
    (hnms : "review_receipt_id" ∉ names) :
    fieldOr (obj (childRunDescriptorBase descriptor context budget effects scopes ++
      (attempt ++ childRunReview descriptor))) "review_receipt_id" none parseOptionalId =
      match descriptor.reviewReceiptId with
      | some receipt => parseOptionalId (idText receipt)
      | none => .ok none := by
  cases hrev : descriptor.reviewReceiptId with
  | none =>
    refine fieldOr_missing hn ?_ _ _
    simp [descriptorNames, reviewNames, hrev, hnms]
  | some receipt =>
    refine fieldOr_obj hn "review_receipt_id" (idText receipt) ?_ _ _
    simp [childRunReview, hrev]

def createdMembers (childRunId : RunId) (descriptor : Json) : List (Bytes × Json) :=
  [(key "child_run_id", idText childRunId), (key "descriptor", descriptor)]

theorem named_created (childRunId : RunId) (descriptor : Json) :
    Named (createdMembers childRunId descriptor) ["child_run_id", "descriptor"] :=
  ⟨rfl, by decide⟩

/-- Which members of a descriptor a schema version asks for. -/
def Dispatched (descriptor : Json) (version : ℕ) : Prop :=
  ¬ (version = 1 ∨ (version = 2 ∧ descriptor.contains (key "attempt")) ∨
    ((version = 3 ∨ version = 4) ∧ descriptor.contains (key "attempt") = false) ∨
    (version = 3 ∧ descriptor.contains (key "review_receipt_id")) ∨
    (version = 4 ∧ descriptor.contains (key "review_receipt_id") = false))

variable {childRunId : RunId} {document : Json}

theorem parseChildRunCreated_iff :
    parseChildRunCreated parts (obj (createdMembers childRunId document)) version =
        .ok (childRunId, some descriptor) ↔
      Dispatched document version ∧ parseId (idText childRunId) = .ok childRunId ∧
      parseChildRunDescriptor parts document = .ok descriptor := by
  have hn := named_created childRunId document
  have hmem : (obj (createdMembers childRunId document)).member (key "descriptor") =
      some document := by
    rw [member_obj hn.nodup, Json.lookup_eq_some_iff hn.nodup]
    simp [createdMembers]
  have hid := field_obj hn "child_run_id" (idText childRunId) (by simp [createdMembers])
  have hdesc : fieldOr (obj (createdMembers childRunId document)) "descriptor" none
      (fun found => (parseChildRunDescriptor parts found).map some) =
      (parseChildRunDescriptor parts document).map some :=
    fieldOr_obj hn "descriptor" document (by simp [createdMembers]) _ _
  simp only [parseChildRunCreated, hmem, hid, hdesc, bind_ok, ensure_ok,
    Staged.ok_bind, isSome_some, any_some, Bool.true_eq_false, false_or, and_true]
  constructor
  · rintro ⟨-, hchk, _, hi, _, hd, hsame⟩
    obtain ⟨rfl, rfl⟩ := Prod.mk.inj (ok.inj hsame)
    obtain ⟨found, hfnd, heq⟩ := map_ok.1 hd
    cases heq
    exact ⟨hchk, hi, hfnd⟩
  · rintro ⟨hchk, hi, hd⟩
    exact ⟨⟨⟩, hchk, _, hi, _, map_ok.2 ⟨descriptor, hd, rfl⟩, rfl⟩

structure DescriptorWritten (parts : Parts) (descriptor : ChildRunDescriptor)
    (context budget effects scopes : Json) : Prop where
  context : parts.childRunContext.write descriptor.context = .ok context
  budget : parts.childRunBudget.write descriptor.budget = .ok budget
  effects : parts.effects.write descriptor.effects = .ok effects
  scopes : parts.scopes.write descriptor.capabilityScopes = .ok scopes

def attemptMember (descriptor : ChildRunDescriptor) (includeAttempt : Bool) :
    List (Bytes × Json) :=
  if includeAttempt then [(key "attempt", .number descriptor.attempt)] else []

theorem childRunDescriptorJson_ok {includeAttempt : Bool} :
    childRunDescriptorJson parts descriptor includeAttempt = .ok document ↔
      (validateChildRunDescriptor descriptor).isOk ∧ ∃ context budget effects scopes,
        DescriptorWritten parts descriptor context budget effects scopes ∧
        document = obj (childRunDescriptorBase descriptor context budget effects scopes ++
          (attemptMember descriptor includeAttempt ++ childRunReview descriptor)) := by
  simp only [childRunDescriptorJson, bind_ok, ensure_ok, append_assoc]
  constructor
  · rintro ⟨-, hval, context, hc, budget, hb, effects, he, scopes, hs, h⟩
    exact ⟨hval, context, budget, effects, scopes, ⟨hc, hb, he, hs⟩, (ok.inj h).symm⟩
  · rintro ⟨hval, context, budget, effects, scopes, hw, rfl⟩
    exact ⟨⟨⟩, hval, context, hw.context, budget, hw.budget, effects, hw.effects, scopes,
      hw.scopes, rfl⟩

theorem childRunCreatedJson_ok (hv : 2 ≤ version) :
    childRunCreatedJson parts childRunId (some descriptor) version = .ok document ↔
      ¬ (version < 3 ∧ descriptor.attempt ≠ 1) ∧
      ∃ inner, childRunDescriptorJson parts descriptor (3 ≤ version) = .ok inner ∧
        document = obj (createdMembers childRunId inner) := by
  simp only [childRunCreatedJson, childRunDispatch, if_pos hv, bind_ok, ensure_ok]
  constructor
  · rintro ⟨_, ⟨-, hatt, inner, hinner, hdisp⟩, h⟩
    cases hdisp
    exact ⟨hatt, inner, hinner, (ok.inj h).symm⟩
  · rintro ⟨hatt, inner, hinner, rfl⟩
    exact ⟨_, ⟨⟨⟩, hatt, inner, hinner, rfl⟩, rfl⟩

/-- A dispatch of the second version is a first attempt, which the later ones write out. -/
theorem childRun_later (h : Keeps parts library (.childRunCreated childRunId (some descriptor)) 2)
    (hver : version = if descriptor.reviewReceiptId.isSome then 4 else 3) :
    Keeps parts library (.childRunCreated childRunId (some descriptor)) version := by
  have hthree : 3 ≤ version := by
    rw [hver]
    split <;> decide
  rw [keeps_known_iff rfl] at h ⊢
  obtain ⟨htype, -, _, hdoc, hcanon, hparse⟩ := h
  obtain ⟨hatt, _, hinner, rfl⟩ := (childRunCreatedJson_ok le_rfl).1 hdoc
  have hone : descriptor.attempt = 1 := by
    by_contra hne
    exact hatt ⟨by decide, hne⟩
  obtain ⟨hval, context, budget, effects, scopes, hwrit, rfl⟩ :=
    childRunDescriptorJson_ok.1 hinner
  obtain ⟨⟨_, _⟩, hdec, hsame⟩ := map_ok.1 hparse
  obtain ⟨hrun, hfnd⟩ := childRunCreated.inj hsame
  dsimp only at hrun hfnd
  rw [hrun, hfnd] at hdec
  obtain ⟨-, hid, hdesc⟩ := parseChildRunCreated_iff.1 hdec
  have hn := named_review descriptor context budget effects scopes
    (attemptMember descriptor (decide (3 ≤ 2))) [] rfl (.inl rfl)
  have hn' := named_review descriptor context budget effects scopes
    [(key "attempt", .number descriptor.attempt)] ["attempt"] rfl (.inr rfl)
  obtain ⟨hkept, -, hrev, -⟩ := (parseChildRunDescriptor_iff hn).1 hdesc
  rw [fieldOr_review hn (by simp)] at hrev
  have hlat : attemptMember descriptor (decide (3 ≤ version)) =
      [(key "attempt", .number descriptor.attempt)] := by
    rw [decide_eq_true hthree]
    rfl
  refine ⟨htype, ⟨?_, rfl, ?_⟩, obj (createdMembers childRunId
    (obj (childRunDescriptorBase descriptor context budget effects scopes ++
      ([(key "attempt", .number descriptor.attempt)] ++ childRunReview descriptor)))),
    (childRunCreatedJson_ok (by omega)).2 ⟨by omega, _,
      childRunDescriptorJson_ok.2 ⟨hval, context, budget, effects, scopes, hwrit,
        by rw [hlat]⟩, rfl⟩, ?_, ?_⟩
  · rw [hver]
    split <;> rfl
  · intro hfst
    omega
  · rw [canonical_named (named_created _ _)] at hcanon ⊢
    simp only [createdMembers, forall_mem_cons] at hcanon ⊢
    obtain ⟨hrun, hinner, hnil⟩ := hcanon
    refine ⟨hrun, ?_, hnil⟩
    have hall := (canonical_named hn).1 hinner
    rw [forall_mem_append, forall_mem_append] at hall
    rw [canonical_named hn', forall_mem_append, forall_mem_append]
    exact ⟨hall.1, by simp [Json.canonical, hone], hall.2.2⟩
  · refine map_ok.2 ⟨(childRunId, some descriptor), parseChildRunCreated_iff.2
      ⟨?_, hid, (parseChildRunDescriptor_iff hn').2 ⟨hkept, ?_, ?_, hval⟩⟩, rfl⟩
    · unfold Dispatched
      rw [contains_obj hn', contains_obj hn', hver]
      cases hr : descriptor.reviewReceiptId <;> simp [descriptorNames, reviewNames, hr]
    · rw [fieldOr_obj hn' "attempt" (.number descriptor.attempt) (by simp), hone]
      rfl
    · rw [fieldOr_review hn' (by simp)]
      exact hrev

def startNames : List String :=
  ["surface_id", "workspace_id", "permission_profile_id", "persona_id"]

/-- The fields that all versions of a run start have are read as they were written. -/
structure StartKept (value : RunStarted) : Prop where
  surfaceId : parseId (idText value.surfaceId) = .ok value.surfaceId
  workspaceId : parseId (idText value.workspaceId) = .ok value.workspaceId
  permissionProfileId : parseId (idText value.permissionProfileId) =
    .ok value.permissionProfileId
  personaId : parseOptionalId (optionalIdJson value.personaId) = .ok value.personaId

variable {value : RunStarted}

/-- A version before the markers has no members for them. -/
theorem parseRunStarted_iff {rest : List (Bytes × Json)} (hv : version ≤ 4)
    (hn : Named (runStartedBase value ++ rest) (startNames ++ names)) :
    parseRunStarted parts (obj (runStartedBase value ++ rest)) version = .ok value ↔
      (startNames ++ names).length = (runStartedFields version).length ∧
      (∀ name ∈ runStartedFields version, name ∈ startNames ++ names) ∧ StartKept value ∧
      parseRunMemory parts (obj (runStartedBase value ++ rest)) version =
        .ok value.memorySelection ∧
      only (modern version) .conversation
        (field (obj (runStartedBase value ++ rest)) "purpose" >>= parseRunPurpose) =
        .ok value.purpose ∧
      only (modern version) none
        (field (obj (runStartedBase value ++ rest)) "conversation_admission" >>=
          parseOptional parts.conversationAdmission) = .ok value.conversationAdmission ∧
      value.localContextAdmissionRequired = false ∧ value.manualObservationRequired = false ∧
      checkRunStartedAdmissionSchema value version = .ok () := by
  have hsurface := field_obj hn "surface_id" (idText value.surfaceId) (by simp [runStartedBase])
  have hws := field_obj hn "workspace_id" (idText value.workspaceId)
    (by simp [runStartedBase])
  have hprof := field_obj hn "permission_profile_id" (idText value.permissionProfileId)
    (by simp [runStartedBase])
  have hpers := field_obj hn "persona_id" (optionalIdJson value.personaId)
    (by simp [runStartedBase])
  have hfive : ¬ version = 5 := by omega
  have hsix : ¬ version = 6 := by omega
  simp only [parseRunStarted, hsurface, hws, hprof, hpers, bind_ok,
    Staged.ok_bind, onlyIf, if_neg hfive, if_neg hsix, decide_eq_false hfive,
    decide_eq_false hsix]
  constructor
  · rintro ⟨_, hfld, _, hs, _, hw, _, hp, _, hr, _, hm, _, hu, _, ha, -, -, -, -, _, hchk,
      hsame⟩
    obtain ⟨hlen, hall⟩ := (requireConversationFields_obj hn).1 hfld
    cases hsame
    exact ⟨hlen, hall, ⟨hs, hw, hp, hr⟩, hm, hu, ha, rfl, rfl, hchk⟩
  · rintro ⟨hlen, hall, hk, hm, hu, ha, hlocal, hmanual, hchk⟩
    have hsame : ({
        surfaceId := value.surfaceId, workspaceId := value.workspaceId
        permissionProfileId := value.permissionProfileId, personaId := value.personaId
        memorySelection := value.memorySelection, purpose := value.purpose
        conversationAdmission := value.conversationAdmission
        localContextAdmissionRequired := false
        manualObservationRequired := false } : RunStarted) = value := by
      cases value
      dsimp only at hlocal hmanual ⊢
      rw [hlocal, hmanual]
    refine ⟨(), (requireConversationFields_obj hn).2 ⟨hlen, hall⟩, _, hk.surfaceId, _,
      hk.workspaceId, _, hk.permissionProfileId, _, hk.personaId, _, hm, _, hu, _, ha, ⟨⟩, rfl,
      ⟨⟩, rfl, (), ?_, ?_⟩
    · rw [hsame]
      exact hchk
    · rw [hsame]
      rfl

/-- A part that was written and read back as present is not null. -/
theorem read_of_parseOptional {α : Type} {part : Part α} {value : Json} {a : α}
    (h : parseOptional part value = .ok (some a)) : part.read value = .ok a := by
  unfold parseOptional at h
  by_cases hnull : value.isNull
  · rw [if_pos hnull] at h
    cases h
  · rw [if_neg hnull] at h
    obtain ⟨_, hfnd, heq⟩ := map_ok.1 h
    cases heq
    exact hfnd

section

variable (hv : version = 1 ∨ version = 2) (hlocal : value.localContextAdmissionRequired = false)
  (hmanual : value.manualObservationRequired = false)

include hv hlocal hmanual

/-- Without a marker the versions before the third ask nothing of an admission. -/
theorem checkAdmission_legacy : checkRunStartedAdmissionSchema value version = .ok () := by
  simp only [checkRunStartedAdmissionSchema, bind_ok, ensure_ok, hlocal, hmanual]
  rcases hv with rfl | rfl <;> simp

theorem legacy_document {rest : List (Bytes × Json)}
    (hrest : runStartedLegacy parts value version = .ok rest) :
    runStartedJson parts value version = .ok (obj (runStartedBase value ++ rest)) := by
  have hchk := checkAdmission_legacy hv hlocal hmanual
  have hmodern : modern version = false := by rcases hv with rfl | rfl <;> rfl
  simp only [runStartedJson, runStartedRest, hmodern, hchk, hrest, Staged.ok_bind]
  rcases hv with rfl | rfl <;> simp [pure, pure] <;> rfl

end

/-- A conversation without an admission needs no more than the versions before the third. -/
theorem runStarted_earlier (hpurp : value.purpose = .conversation)
    (hadm : value.conversationAdmission = none)
    (h : Keeps parts library (.runStarted value) 3) :
    Keeps parts library (.runStarted value) (if value.memorySelection.isSome then 2 else 1) := by
  rw [keeps_known_iff rfl] at h ⊢
  obtain ⟨htype, -, _, hdoc, hcanon, hparse⟩ := h
  simp only [payloadJson, runStartedJson, bind_ok] at hdoc
  obtain ⟨_, _, rest, hrest, hdoc⟩ := hdoc
  cases hdoc
  have hrest : runStartedModern parts value = .ok rest := hrest
  simp only [runStartedModern, bind_ok] at hrest
  obtain ⟨memory, hmemory, admission, -, hrest⟩ := hrest
  cases hrest
  obtain ⟨decoded, hdec, hsame⟩ := map_ok.1 hparse
  obtain rfl : decoded = value := runStarted.inj hsame
  have hn : Named (runStartedBase decoded ++
      [(key "purpose", .text (bytesOf (runPurposeName decoded.purpose))),
        (key "memory_selection", memory), (key "conversation_admission", admission)])
      (startNames ++ ["purpose", "memory_selection", "conversation_admission"]) :=
    ⟨rfl, by decide⟩
  have hmem : ∀ members : List (Bytes × Json),
      (members ++ if 3 = 5 then [(key "local_context_admission_required", Json.boolean true)]
        else []) ++ (if 3 = 6 then [(key "manual_observation_required", Json.boolean true)]
        else []) = members := by
    intro members
    simp
  rw [hmem] at hcanon hdec
  obtain ⟨-, -, hkept, hsel, -, -, hlocal, hmanual, -⟩ :=
    (parseRunStarted_iff (by decide) hn).1 hdec
  have hbase := ((canonical_named hn).1 hcanon)
  rw [forall_mem_append] at hbase
  have hsel : parseOptional parts.memorySelection memory = .ok decoded.memorySelection := by
    exact hsel
  cases hsome : decoded.memorySelection with
  | none =>
    have hn' : Named (runStartedBase decoded ++ []) (startNames ++ []) := ⟨rfl, by decide⟩
    have hleg : runStartedLegacy parts decoded 1 = .ok [] := by
      simp [runStartedLegacy, hpurp, hadm, hsome, bind_ok, ensure_ok, pure,
        Except.pure]
    refine ⟨htype, ⟨rfl, rfl, fun _ => rfl⟩, obj (runStartedBase decoded ++ []),
      legacy_document (.inl rfl) hlocal hmanual hleg, ?_, ?_⟩
    · rw [canonical_named hn', append_nil]
      exact hbase.1
    · refine map_ok.2 ⟨decoded, (parseRunStarted_iff (by decide) hn').2 ?_, rfl⟩
      refine ⟨rfl, by decide, hkept, ?_, ?_, ?_, hlocal, hmanual,
        checkAdmission_legacy (.inl rfl) hlocal hmanual⟩
      · rw [hsome]
        rfl
      · rw [hpurp]
        rfl
      · rw [hadm]
        rfl
  | some selection =>
    simp only [isSome_some, if_true]
    rw [hsome] at hsel hmemory
    have hn' : Named (runStartedBase decoded ++ [(key "memory_selection", memory)])
        (startNames ++ ["memory_selection"]) := ⟨rfl, by decide⟩
    have hwr : parts.memorySelection.write selection = .ok memory := hmemory
    have hleg : runStartedLegacy parts decoded 2 = .ok [(key "memory_selection", memory)] := by
      simp [runStartedLegacy, hpurp, hadm, hsome, hwr, bind_ok, ensure_ok]
    refine ⟨htype, ⟨rfl, rfl, by simp⟩,
      obj (runStartedBase decoded ++ [(key "memory_selection", memory)]),
      legacy_document (.inr rfl) hlocal hmanual hleg, ?_, ?_⟩
    · rw [canonical_named hn', forall_mem_append, forall_mem_singleton]
      exact ⟨hbase.1, hbase.2 (key "memory_selection", memory) (by simp)⟩
    · refine map_ok.2 ⟨decoded, (parseRunStarted_iff (by decide) hn').2 ?_, rfl⟩
      refine ⟨rfl, by decide, hkept, ?_, ?_, ?_, hlocal, hmanual,
        checkAdmission_legacy (.inr rfl) hlocal hmanual⟩
      · exact map_ok.2 ⟨selection, read_of_parseOptional hsel, hsome.symm⟩
      · rw [hpurp]
        rfl
      · rw [hadm]
        rfl

def versionedTypes : List String :=
  ["run.started", "plan.revision_proposed", "run.child_created", "tool.proposed",
    "tool.policy_decided"]

def memoryTypes : List String :=
  ["memory.proposed", "memory.policy_decided", "memory.accepted", "memory.edited_and_accepted",
    "memory.rejected", "memory.superseded", "memory.expired"]

theorem memoryTypes_complete : ∀ type ∈ knownPayloadTypes,
    "memory.".toList.isPrefixOf type.toList → type ∈ memoryTypes := by
  have hparts : knownPayloadTypes = knownPayloadTypes.take 20 ++
      ((knownPayloadTypes.drop 20).take 20 ++ ((knownPayloadTypes.drop 40).take 20 ++
        knownPayloadTypes.drop 60)) := by decide +kernel
  rw [hparts]
  simp only [forall_mem_append]
  exact ⟨by decide +kernel, by decide +kernel, by decide +kernel, by decide +kernel⟩

theorem versionedTypes_known : ∀ type ∈ versionedTypes, knownPayloadType type := by
  decide +kernel

theorem knownPayloadSchema_cases {type : String} (h : knownPayloadSchema type version) :
    version = 1 ∧ knownPayloadType type ∨ type ∈ versionedTypes ∨
      type ∈ memoryTypes ∧ knownPayloadType type := by
  simp only [knownPayloadSchema, Bool.or_eq_true, Bool.and_eq_true, beq_iff_eq] at h
  rcases h with (((⟨hv, hk⟩ | ⟨hv, htype⟩) | ⟨hv, htype⟩) | ⟨hv, htype⟩) | ⟨hv, htype⟩
  · exact .inl ⟨hv, hk⟩
  · rcases htype with ((((rfl | rfl) | rfl) | rfl) | rfl) | ⟨hbeg, hknw⟩
    · exact .inr (.inl (by decide))
    · exact .inr (.inl (by decide))
    · exact .inr (.inl (by decide))
    · exact .inr (.inl (by decide))
    · exact .inr (.inl (by decide))
    · have hmem : type ∈ knownPayloadTypes := contains_iff_mem.1 hknw
      exact .inr (.inr ⟨memoryTypes_complete type hmem hbeg, hknw⟩)
  · exact .inr (.inl (by rw [htype]; decide))
  · exact .inr (.inl (by rw [htype]; decide))
  · exact .inr (.inl (by rw [htype]; decide))

theorem known_of_schema {type : String}
    (h : knownPayloadSchema type version) : knownPayloadType type := by
  rcases knownPayloadSchema_cases h with ⟨-, hk⟩ | hk | ⟨-, hk⟩
  · exact hk
  · exact versionedTypes_known type hk
  · exact hk

theorem keeps_single (hu : isUnknown payload = false)
    (hversioned : payloadType payload ∉ versionedTypes) (hmem : payloadType payload ∉ memoryTypes)
    (hpick : eventSchemaVersion payload = 1) (h : Keeps parts library payload version) :
    Keeps parts library payload (eventSchemaVersion payload) := by
  obtain ⟨-, henc, -⟩ := (keeps_known_iff hu version).1 h
  rcases knownPayloadSchema_cases henc.known with ⟨hv, -⟩ | htype | ⟨htype, -⟩
  · rw [hpick, ← hv]
    exact h
  · exact absurd htype hversioned
  · exact absurd htype hmem

theorem checkAdmission_ok : checkRunStartedAdmissionSchema value version = .ok () ↔
      (decide (version = 6) = value.manualObservationRequired ∧
        ¬ (version = 6 ∧ (value.purpose ≠ .control ∨ value.conversationAdmission.isSome ∨
          value.localContextAdmissionRequired))) ∧
      (decide (version = 5) = value.localContextAdmissionRequired ∧
        ¬ (version = 5 ∧ value.purpose ≠ .conversation)) ∧
      ¬ (version = 3 ∧ value.conversationAdmission.any fun admission =>
        decide (admission.version ≠ 1)) ∧
      ¬ (version = 4 ∧ (value.purpose ≠ .conversation ∨
        !value.conversationAdmission.any fun admission => decide (admission.version = 2))) := by
  simp only [checkRunStartedAdmissionSchema, bind_ok, ensure_ok]
  constructor
  · rintro ⟨-, h6, -, h5, -, h3, h4⟩
    exact ⟨h6, h5, h3, h4⟩
  · rintro ⟨h6, h5, h3, h4⟩
    exact ⟨⟨⟩, h6, ⟨⟩, h5, ⟨⟩, h3, h4⟩

theorem runStarted_written (h : Keeps parts library (.runStarted value) version) :
    version ∈ [1, 2, 3, 4, 5, 6] ∧ checkRunStartedAdmissionSchema value version = .ok () ∧
      (version ≤ 2 → value.purpose = .conversation ∧ value.conversationAdmission = none ∧
        decide (version = 2) = value.memorySelection.isSome) := by
  obtain ⟨-, henc, _, hdoc, -⟩ := (keeps_known_iff rfl version).1 h
  have hver : version ∈ [1, 2, 3, 4, 5, 6] := by
    have hknw := henc.known
    simp only [payloadType, knownPayloadSchema, Bool.or_eq_true, Bool.and_eq_true, beq_iff_eq]
      at hknw
    simp only [mem_cons, not_mem_nil, or_false]
    omega
  simp only [payloadJson, runStartedJson, bind_ok] at hdoc
  obtain ⟨_, hchk, _, hrest, -⟩ := hdoc
  refine ⟨hver, hchk, ?_⟩
  intro hle
  have hmodern : modern version = false := by
    unfold modern
    rw [decide_eq_false_iff_not]
    simp only [mem_cons, not_mem_nil, or_false]
    omega
  rw [runStartedRest, if_neg (Bool.eq_false_iff.1 hmodern)] at hrest
  obtain ⟨_, hleg, -⟩ := bind_ok.1 hrest
  obtain ⟨hpurp, hadm, hmem⟩ := ensure_ok.1 hleg
  exact ⟨hpurp, isNone_iff_eq_none.1 hadm, hmem⟩

theorem keeps_runStarted (h : Keeps parts library (.runStarted value) version) :
    Keeps parts library (.runStarted value) (eventSchemaVersion (.runStarted value)) := by
  obtain ⟨hver, hchk, hleg⟩ := runStarted_written h
  obtain ⟨⟨hmanual, -⟩, ⟨hlocal, -⟩, h3, h4⟩ := checkAdmission_ok.1 hchk
  have hkeep : eventSchemaVersion (.runStarted value) = version →
      Keeps parts library (.runStarted value) (eventSchemaVersion (.runStarted value)) := by
    intro heq
    rw [heq]
    exact h
  simp only [mem_cons, not_mem_nil, or_false] at hver
  rcases hver with rfl | rfl | rfl | rfl | rfl | rfl
  · obtain ⟨hpurp, hadm, hmem⟩ := hleg (by decide)
    refine hkeep ?_
    simp [eventSchemaVersion, runStartSchemaVersion, ← hmanual, ← hlocal, hpurp, hadm,
      ← hmem]
  · obtain ⟨hpurp, hadm, hmem⟩ := hleg (by decide)
    refine hkeep ?_
    simp [eventSchemaVersion, runStartSchemaVersion, ← hmanual, ← hlocal, hpurp, hadm,
      ← hmem]
  · have hold : (value.conversationAdmission.any fun admission =>
        decide (admission.version = 2)) = false := by
      cases hadm : value.conversationAdmission with
      | none => rfl
      | some admission =>
        rw [hadm] at h3
        have hone : admission.version = 1 := by simpa using h3
        simp [hone]
    by_cases hplain : value.purpose = .conversation ∧ value.conversationAdmission = none
    · have hearly := runStarted_earlier hplain.1 hplain.2 h
      have hpick : eventSchemaVersion (.runStarted value) =
          if value.memorySelection.isSome then 2 else 1 := by
        simp [eventSchemaVersion, runStartSchemaVersion, ← hmanual, ← hlocal, hplain.1, hplain.2]
      rw [hpick]
      exact hearly
    · refine hkeep ?_
      have hneeds : value.purpose ≠ .conversation ∨ value.conversationAdmission.isSome := by
        by_contra hneither
        rw [not_or, not_not, Bool.not_eq_true, isSome_eq_false_iff,
          isNone_iff_eq_none] at hneither
        exact hplain hneither
      simp [eventSchemaVersion, runStartSchemaVersion, ← hmanual, ← hlocal, hold, hneeds]
  · refine hkeep ?_
    have hnew : (value.conversationAdmission.any fun admission =>
        decide (admission.version = 2)) = true := by
      by_contra hnot
      exact h4 ⟨rfl, .inr (by simpa using hnot)⟩
    simp [eventSchemaVersion, runStartSchemaVersion, ← hmanual, ← hlocal, hnew]
  · refine hkeep ?_
    simp [eventSchemaVersion, runStartSchemaVersion, ← hmanual, ← hlocal]
  · refine hkeep ?_
    simp [eventSchemaVersion, runStartSchemaVersion, ← hmanual]

/-- The first version of a proposal is read without a quote and without validated arguments. -/
theorem parseToolProposed_first {value : ToolProposed}
    (h : parseToolProposed parts document 1 = .ok value) :
    value.spendQuote = none ∧ value.validatedArguments = none := by
  simp only [parseToolProposed, bind_ok] at h
  obtain ⟨_, -, _, -, _, -, _, -, _, -, _, -, _, -, _, -, _, -, _, -, _, -, _, -, _, -, _, -, _,
    -, _, hquote, _, hfnd, _, -, h⟩ := h
  cases h
  exact ⟨(ok.inj hquote).symm, (ok.inj hfnd).symm⟩

theorem keeps_toolProposed {value : ToolProposed}
    (h : Keeps parts library (.toolProposed value) version) :
    Keeps parts library (.toolProposed value) (eventSchemaVersion (.toolProposed value)) := by
  obtain ⟨-, henc, _, hdoc, -, hparse⟩ := (keeps_known_iff rfl version).1 h
  have hver : version = 1 ∨ version = 2 ∨ version = 3 := by
    have hknw := henc.known
    simp [payloadType, knownPayloadSchema] at hknw
    omega
  obtain ⟨_, hproof, -⟩ := bind_ok.1 hdoc
  obtain ⟨hobs, -⟩ := ensure_ok.1 hproof
  have hargs : 2 ≤ version → value.validatedArguments.isSome :=
    ensure_ok.1 henc.valid
  have hfst : version = 1 → value.validatedArguments = none := by
    rintro rfl
    obtain ⟨decoded, hdec, hsame⟩ := map_ok.1 hparse
    obtain rfl : decoded = value := toolProposed.inj hsame
    exact (parseToolProposed_first hdec).2
  have hpick : eventSchemaVersion (.toolProposed value) = version := by
    rcases hver with rfl | rfl | rfl
    · simp [eventSchemaVersion, ← hobs, hfst rfl]
    · simp [eventSchemaVersion, ← hobs, hargs le_rfl]
    · simp [eventSchemaVersion, ← hobs]
  rw [hpick]
  exact h

theorem two_versions (hu : isUnknown payload = false)
    (htype : payloadType payload = "tool.policy_decided" ∨
      payloadType payload = "plan.revision_proposed")
    (h : Keeps parts library payload version) : version = 1 ∨ version = 2 := by
  obtain ⟨-, henc, -⟩ := (keeps_known_iff hu version).1 h
  have hknw := henc.known
  rcases htype with htype | htype
  all_goals
    simp [htype, knownPayloadSchema] at hknw
    omega

/-- The third version of a dispatch has no review and the fourth has one. -/
theorem childRun_review (hthree : 3 ≤ version)
    (hdoc : childRunCreatedJson parts childRunId (some descriptor) version = .ok document)
    (hparse : parseChildRunCreated parts document version = .ok (childRunId, some descriptor)) :
    (version = 3 → descriptor.reviewReceiptId.isSome = false) ∧
      (version = 4 → descriptor.reviewReceiptId.isSome) := by
  obtain ⟨-, _, hinner, rfl⟩ := (childRunCreatedJson_ok (by omega)).mp hdoc
  obtain ⟨-, context, budget, effects, scopes, -, rfl⟩ := childRunDescriptorJson_ok.mp hinner
  obtain ⟨hdisp, -⟩ := parseChildRunCreated_iff.mp hparse
  have hn := named_review descriptor context budget effects scopes
    (attemptMember descriptor (decide (3 ≤ version))) ["attempt"]
    (by rw [decide_eq_true hthree]; rfl) (Or.inr rfl)
  have hcont : (obj (childRunDescriptorBase descriptor context budget effects scopes ++
      (attemptMember descriptor (decide (3 ≤ version)) ++ childRunReview descriptor))).contains
      (key "review_receipt_id") = descriptor.reviewReceiptId.isSome := by
    rw [contains_obj hn]
    cases hr : descriptor.reviewReceiptId <;> simp [descriptorNames, reviewNames, hr]
  unfold Dispatched at hdisp
  rw [hcont] at hdisp
  constructor
  · intro h3
    by_contra hsome
    exact hdisp (Or.inr (Or.inr (Or.inr (Or.inl ⟨h3, (Bool.not_eq_false _).mp hsome⟩))))
  · intro h4
    by_contra hnone
    exact hdisp (Or.inr (Or.inr (Or.inr (Or.inr ⟨h4, (Bool.not_eq_true _).mp hnone⟩))))

theorem keeps_childRun {descriptor : Option ChildRunDescriptor}
    (h : Keeps parts library (.childRunCreated childRunId descriptor) version) :
    Keeps parts library (.childRunCreated childRunId descriptor)
      (eventSchemaVersion (.childRunCreated childRunId descriptor)) := by
  obtain ⟨-, henc, _, hdoc, -, hparse⟩ := (keeps_known_iff rfl version).1 h
  have hver : version = 1 ∨ version = 2 ∨ version = 3 ∨ version = 4 := by
    have hknw := henc.known
    simp [payloadType, knownPayloadSchema] at hknw
    omega
  cases descriptor with
  | none =>
    have hone : version = 1 := by
      by_contra hne
      have hlat : 2 ≤ version := by omega
      obtain ⟨_, hdisp, -⟩ := bind_ok.1 hdoc
      rw [childRunDispatch, if_pos hlat] at hdisp
      cases hdisp
    rw [hone] at h
    exact h
  | some descriptor =>
    have hnot : version ≠ 1 := by
      rintro rfl
      have hfst := ensure_ok.1 (henc.first rfl)
      cases hfst
    by_cases htwo : version = 2
    · rw [htwo] at h
      exact childRun_later h rfl
    · have hrev : version = if descriptor.reviewReceiptId.isSome then 4 else 3 := by
        obtain ⟨⟨_, _⟩, hdec, hsame⟩ := map_ok.1 hparse
        obtain ⟨hrun, hfnd⟩ := childRunCreated.inj hsame
        dsimp only at hrun hfnd
        rw [hrun, hfnd] at hdec
        obtain ⟨h3, h4⟩ := childRun_review (by omega) hdoc hdec
        have hlat : version = 3 ∨ version = 4 := by omega
        rcases hlat with hv | hv
        · rw [h3 hv]
          exact hv
        · rw [h4 hv]
          exact hv
      have hpick : eventSchemaVersion (.childRunCreated childRunId (some descriptor)) =
          version := hrev.symm
      rw [hpick]
      exact h

/-- An opaque payload whose type no version knows is stored alike under every version. -/
theorem keeps_unknown {typeName : String} {block : StructuredDataBlock}
    (htype : knownPayloadType typeName = false)
    (h : Keeps parts library (.unknown typeName block) version) (other : ℕ) :
    Keeps parts library (.unknown typeName block) other := by
  have hunk : ∀ version, knownPayloadSchema typeName version = false := by
    intro version
    rw [Bool.eq_false_iff]
    intro hknw
    rw [known_of_schema hknw] at htype
    cases htype
  have hfst : ∀ version, onlyIf (version = 1)
      (checkFirstVersion (.unknown typeName block)) = (.ok ⟨⟩ : Except SessionStoreError _) := by
    intro version
    unfold onlyIf
    split <;> rfl
  have hsame : encode parts library (.unknown typeName block) version =
      encode parts library (.unknown typeName block) other := by
    simp only [encode, payloadType, hunk, validatePayloadSchemaForEncoding, payloadJson,
      hfst]
  obtain ⟨hval, document, henc, hdec⟩ := h
  refine ⟨hval, document, ?_, ?_⟩
  · rw [← hsame]
    exact henc
  · simp only [decode, payloadType, hunk] at hdec ⊢
    exact hdec

theorem otherEventType_single (kind : OtherEvent) {encoded : String}
    (h : isMemoryEvent (.other kind encoded) = false) :
    otherEventType kind ∉ versionedTypes ∧ otherEventType kind ∉ memoryTypes := by
  cases kind <;> simp_all [isMemoryEvent, otherEventType, versionedTypes, memoryTypes]

/-- If a version keeps a payload, the version that the kernel chooses keeps it. An opaque payload
under the name of a known kind is left out: the chosen version knows the name and refuses it. -/
theorem chosen_version_keeps (parts : Parts) (library : Library) (payload : RunEventPayload)
    (hmemory : isMemoryEvent payload = false)
    (hunread : isUnknown payload → knownPayloadType (payloadType payload) = false)
    (h : ∃ version, Keeps parts library payload version) :
    Keeps parts library payload (eventSchemaVersion payload) := by
  obtain ⟨version, h⟩ := h
  cases payload with
  | runStarted => exact keeps_runStarted h
  | toolProposed => exact keeps_toolProposed h
  | toolPolicyDecided =>
    rcases two_versions rfl (.inl rfl) h with rfl | rfl
    · exact policyDecided_second h
    · exact h
  | planRevisionProposed =>
    rcases two_versions rfl (.inr rfl) h with rfl | rfl
    · exact planRevision_second h
    · exact h
  | childRunCreated => exact keeps_childRun h
  | unknown => exact keeps_unknown (hunread rfl) h _
  | other kind =>
    obtain ⟨hversioned, hmemories⟩ := otherEventType_single kind hmemory
    exact keeps_single rfl hversioned hmemories rfl h
  | _ =>
    exact keeps_single rfl (by simp [payloadType, versionedTypes])
      (by simp [payloadType, memoryTypes]) rfl h

def noPart {α : Type} : Part α := ⟨fun _ => .error .json, fun _ => .error .json⟩

/-- The parts of proposals and policy decisions; the others are not reached here. -/
def proposalParts : Parts where
  structured := structuredPart
  effects := effectsPart
  scopes := scopesPart
  spendQuote := noPart
  opsRequest := noPart
  memorySelection := noPart
  conversationAdmission := noPart
  snapshot := noPart
  planTask := noPart
  planEvidenceBinding := noPart
  childRunContext := noPart
  childRunBudget := noPart
  truncated _ := 0
  otherJson _ _ := .error .json
  parseOther _ _ _ := .error .json

def denial : RunEventPayload :=
  .toolPolicyDecided ⟨"invocation", .deny, [], some "no", .fallback, none⟩

/-- A denial that the first version keeps is kept by the second, which is the chosen one. -/
theorem denial_kept_by_second :
    Keeps proposalParts Json.compact denial 1 ∧ eventSchemaVersion denial = 2 ∧
      Keeps proposalParts Json.compact denial (eventSchemaVersion denial) := by
  have hfirst : Keeps proposalParts Json.compact denial 1 := by
    refine ⟨by decide +kernel, bytesOf ("\x7b\"decision\":\"deny\",\"invocation_id\":" ++
      "\"invocation\",\"reason\":\"no\",\"scopes\":[],\"source\":\"fallback\"\x7d"),
      by decide +kernel, by decide +kernel⟩
  exact ⟨hfirst, rfl,
    chosen_version_keeps proposalParts Json.compact denial rfl (by simp [denial, isUnknown])
      ⟨1, hfirst⟩⟩

/-- An event of a later program, read by a store that knows its kind but not its version. -/
def laterStart : RunEventPayload := .unknown "run.started" ⟨"application/json", bytesOf "null"⟩

/-- The seventh version keeps it and the chosen one does not. -/
theorem later_start_not_kept :
    isMemoryEvent laterStart = false ∧ Keeps proposalParts Json.compact laterStart 7 ∧
      ¬ Keeps proposalParts Json.compact laterStart (eventSchemaVersion laterStart) := by
  refine ⟨rfl, ⟨by decide +kernel, bytesOf "null", by decide +kernel, by decide +kernel⟩, ?_⟩
  rintro ⟨-, _, hencode, -⟩
  have hrefused : encode proposalParts Json.compact laterStart (eventSchemaVersion laterStart) =
      .error (invalidArgument "known event schema cannot carry an opaque payload") := by
    decide +kernel
  rw [hrefused] at hencode
  cases hencode

end PayloadCodec
