import AiForge.DistinctPayloads
import AiForge.DurableLog

/-! # Stored events

The log keeps the documents of its events and a replay decodes them. So a replay is as exact as
the codec, and the codec forgets one thing: the validated arguments of a proposal that is stored
under the first version. -/
namespace SessionStore

open Content Events SafeText PayloadCodec Staged

variable {parts : Parts} {library : Json.Library} {jsonValid : Bytes → Bool}

def proposal (validatedArguments : Option StructuredDataBlock) : RunEventPayload :=
  .toolProposed ⟨"invocation", "read", ⟨"application/json", bytesOf "1"⟩, [.read], none, true,
    [], [], none, none, validatedArguments, none⟩

def proposed (validatedArguments : Option StructuredDataBlock) : Event RunEventPayload :=
  ⟨⟨"event", "run", 1, 1, 0, none, none, some "invocation"⟩, proposal validatedArguments,
    by decide⟩

def validated : StructuredDataBlock := ⟨"application/json", bytesOf "1"⟩

end SessionStore
