import Colloquy.Shape.Writer

/-!
# Reports of state

The bodies of the answers that tell how the service is and who the caller is.
-/

set_option autoImplicit false

namespace Colloquy

/-- The receipt of feedback. -/
structure FeedbackReceipt where
  response : String
  deriving DecidableEq, Repr

/-- How the receipt for feedback is read and written. -/
instance : Encoded FeedbackReceipt where
  shape := .record "FeedbackResponse" false (.cons "response" .string .nil)
  pack r := (r.response, ())
  unpack := fun (response, ()) => ⟨response⟩
  unpack_pack _ := rfl

/-- The receipt of every accepted feedback. -/
def FeedbackReceipt.received : FeedbackReceipt :=
  ⟨"feedback received"⟩

/-- The state of a feature of the service. -/
structure FeatureStatus where
  functionality : String
  status : Dictionary Json.Value

/-- How the state of a feature is read and written. -/
instance : Encoded FeatureStatus where
  shape := .record "StatusResponse" false
    (.cons "functionality" .string <| .cons "status" (.dictionary .value) .nil)
  pack s := (s.functionality, s.status, ())
  unpack := fun (functionality, status, ()) => ⟨functionality, status⟩
  unpack_pack _ := rfl

/-- Whether the service takes feedback. -/
def FeatureStatus.feedback (enabled : Bool) : FeatureStatus :=
  ⟨"feedback", Dictionary.ofList [("enabled", .bool enabled)]⟩

/-- Whether the service can take requests. -/
structure Health where
  status : Dictionary String
  deriving DecidableEq

/-- How the state of the service is read and written. -/
instance : Encoded Health where
  shape := .record "HealthResponse" false (.cons "status" (.dictionary .string) .nil)
  pack h := (h.status, ())
  unpack := fun (status, ()) => ⟨status⟩
  unpack_pack _ := rfl

/-- A service that can take requests. -/
def Health.healthy : Health :=
  ⟨Dictionary.ofList [("status", "healthy")]⟩

/-- Whether the service runs. -/
structure Liveness where
  alive : Bool
  deriving DecidableEq, Repr

/-- How the sign of life is read and written. -/
instance : Encoded Liveness where
  shape := .record "LivenessResponse" false (.cons "alive" .flag .nil)
  pack l := (l.alive, ())
  unpack := fun (alive, ()) => ⟨alive⟩
  unpack_pack _ := rfl

end Colloquy
