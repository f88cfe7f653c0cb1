import Colloquy.Payload.Feedback
import Colloquy.Payload.Answer
import Colloquy.Report.Failure
import Colloquy.Report.Status
import Colloquy.Auth.Authenticator
import Colloquy.Settings.Check
import Colloquy.Conversation.Cache
import Colloquy.Service.Handling
import Colloquy.Json.Pointer
import Colloquy.Datum
import Colloquy.Settings.Load
import Colloquy.Logging.Logger
import Colloquy.Proofs.Conversation.Trimming
import Colloquy.Proofs.Conversation.Residence
import Colloquy.Proofs.Conversation.Recency
import Colloquy.Proofs.Conversation.HeldText
import Colloquy.Proofs.Conversation.KeySharing
import Colloquy.Proofs.Service.Recall
import Colloquy.Proofs.Json.PlainText
import Colloquy.Proofs.Shape.ListedRecord
import Colloquy.Proofs.Service.ListedQuery
import Colloquy.Proofs.Service.Isolation
import Colloquy.Proofs.Payload.Attachments
import Colloquy.Proofs.Service.QueryRules
import Colloquy.Proofs.Service.QueryVerdict
import Colloquy.Proofs.Auth.Showing
import Colloquy.Proofs.Auth.Admission
import Colloquy.Proofs.Service.Guarding
import Colloquy.Proofs.Service.Effects
import Colloquy.Proofs.Service.FollowUp
import Colloquy.Proofs.Service.Overlap
import Colloquy.Proofs.Service.FeedbackRules
import Colloquy.Proofs.Service.FeedbackVerdict
import Colloquy.Proofs.Json.StringText
import Colloquy.Proofs.Json.WholeNumber
import Colloquy.Proofs.Json.Containers
import Colloquy.Proofs.Json.WrittenValue
import Colloquy.Proofs.Shape.RoundTrip
import Colloquy.Proofs.Shape.TwoWay
import Colloquy.Proofs.Token.Base64RoundTrip
import Colloquy.Proofs.Token.IssuedToken
import Colloquy.Proofs.Token.Acceptance
import Colloquy.Proofs.Settings.AuthAgreement
import Colloquy.Proofs.Entries
import Colloquy.Proofs.Datum.Groups
import Colloquy.Proofs.Datum.Layers
import Colloquy.Proofs.Shape.LayeredRecord
import Colloquy.Proofs.Settings.Variables
import Colloquy.Proofs.Settings.Single
import Colloquy.Proofs.Settings.Layering
import Colloquy.Proofs.Results
import Colloquy.Proofs.Api.Conformance
import Colloquy.Proofs.Api.Documented
import Colloquy.Proofs.Binary64.Rounding
import Colloquy.Proofs.Json.NumberText
import Colloquy.Proofs.Json.NumberValue
import Colloquy.Proofs.Json.NumberRange
import Colloquy.Proofs.Shape.AnyOrder
import Colloquy.Proofs.Service.FeedbackBody
import Colloquy.Proofs.Json.IntegerText
import Colloquy.Proofs.Payload.VoteText
import Colloquy.Proofs.Service.BlankCredentials
import Colloquy.Proofs.Service.Warnings
import Colloquy.Proofs.Json.ContainerReads
import Colloquy.Proofs.Json.PassedOver
import Colloquy.Proofs.Shape.PlainReads
import Colloquy.Proofs.Shape.RecordText
import Colloquy.Proofs.Payload.BodyKinds
import Colloquy.Proofs.Conversation.Forms
import Colloquy.Proofs.Service.FaultReports
import Colloquy.Proofs.Settings.ValueText
import Colloquy.Proofs.Settings.ValueReads
import Colloquy.Proofs.Settings.TextVariables
import Colloquy.Proofs.Json.ObjectTree
import Colloquy.Proofs.Payload.KnownMembers
