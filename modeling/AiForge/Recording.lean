import AiForge.Events

/-! # Recording events

The schema version that every recorded event gets. -/
namespace Recording

open Content Events

def runStartSchemaVersion (started : RunStarted) : ℕ :=
  if started.manualObservationRequired then 6
  else if started.localContextAdmissionRequired then 5
  else if started.conversationAdmission.any fun admission => admission.version = 2 then 4
  else if started.purpose ≠ .conversation ∨ started.conversationAdmission.isSome then 3
  else if started.memorySelection.isSome then 2
  else 1

def eventSchemaVersion : RunEventPayload → ℕ
  | .runStarted started => runStartSchemaVersion started
  | .childRunCreated _ (some descriptor) => if descriptor.reviewReceiptId.isSome then 4 else 3
  | .toolProposed tool =>
    if tool.observationRequest.isSome then 3
    else if tool.validatedArguments.isSome then 2
    else 1
  | .toolPolicyDecided _ => 2
  | .planRevisionProposed _ => 2
  | _ => 1

end Recording
