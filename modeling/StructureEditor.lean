import StructureEditor.Action
import StructureEditor.Arena.Basic
import StructureEditor.Arena.Capture
import StructureEditor.Arena.Compile
import StructureEditor.Arena.Inspect
import StructureEditor.Arena.Query
import StructureEditor.Candidate
import StructureEditor.Context
import StructureEditor.Edit.Basic
import StructureEditor.Edit.Codec
import StructureEditor.History.Basic
import StructureEditor.History.Session
import StructureEditor.Identity
import StructureEditor.Json.Document
import StructureEditor.Json.Double
import StructureEditor.Json.Medium
import StructureEditor.Json.Reader
import StructureEditor.Json.Value
import StructureEditor.Json.Writer
import StructureEditor.Language.Basic
import StructureEditor.Language.Build
import StructureEditor.Language.RuleBook
import StructureEditor.Outcome
import StructureEditor.Proofs.Assembling
import StructureEditor.Proofs.Attachments
import StructureEditor.Proofs.Balance
import StructureEditor.Proofs.Boundedness
import StructureEditor.Proofs.Canonical
import StructureEditor.Proofs.Census
import StructureEditor.Proofs.Chronicles
import StructureEditor.Proofs.Classes
import StructureEditor.Proofs.Companions
import StructureEditor.Proofs.Composing
import StructureEditor.Proofs.Confinement
import StructureEditor.Proofs.Copies
import StructureEditor.Proofs.Creation
import StructureEditor.Proofs.Discarding
import StructureEditor.Proofs.Discretion
import StructureEditor.Proofs.EditEncodings
import StructureEditor.Proofs.Elements
import StructureEditor.Proofs.Encodings
import StructureEditor.Proofs.Extensions
import StructureEditor.Proofs.Faultless
import StructureEditor.Proofs.Finishing
import StructureEditor.Proofs.Footing
import StructureEditor.Proofs.ForeignData
import StructureEditor.Proofs.Forest
import StructureEditor.Proofs.Frames
import StructureEditor.Proofs.Frugality
import StructureEditor.Proofs.Grafting
import StructureEditor.Proofs.Groups
import StructureEditor.Proofs.Hearing
import StructureEditor.Proofs.Hooks
import StructureEditor.Proofs.Locality
import StructureEditor.Proofs.Locating
import StructureEditor.Proofs.Lockstep
import StructureEditor.Proofs.Mirroring
import StructureEditor.Proofs.Naming
import StructureEditor.Proofs.Operations.Frame
import StructureEditor.Proofs.Operations.Grow
import StructureEditor.Proofs.Operations.Paste
import StructureEditor.Proofs.Operations.Replay
import StructureEditor.Proofs.Operations.Transition
import StructureEditor.Proofs.Order
import StructureEditor.Proofs.Pages
import StructureEditor.Proofs.Pasting
import StructureEditor.Proofs.Paused
import StructureEditor.Proofs.Placement
import StructureEditor.Proofs.Reachability
import StructureEditor.Proofs.Rebuilding
import StructureEditor.Proofs.Recording
import StructureEditor.Proofs.Records
import StructureEditor.Proofs.Refinement
import StructureEditor.Proofs.Refusals
import StructureEditor.Proofs.RefusedReplays
import StructureEditor.Proofs.Registrations
import StructureEditor.Proofs.Rendering
import StructureEditor.Proofs.Replaying
import StructureEditor.Proofs.Rereading
import StructureEditor.Proofs.Restaging
import StructureEditor.Proofs.Restoring
import StructureEditor.Proofs.Roots
import StructureEditor.Proofs.RoundTrip
import StructureEditor.Proofs.Running
import StructureEditor.Proofs.SampleLanguage
import StructureEditor.Proofs.Scopes
import StructureEditor.Proofs.Separators
import StructureEditor.Proofs.Sessions
import StructureEditor.Proofs.Settling
import StructureEditor.Proofs.SideBySide
import StructureEditor.Proofs.SingleChanges
import StructureEditor.Proofs.Sizes
import StructureEditor.Proofs.Sketch
import StructureEditor.Proofs.SlotNumbers
import StructureEditor.Proofs.Slots
import StructureEditor.Proofs.Soundness
import StructureEditor.Proofs.Spelling
import StructureEditor.Proofs.Suspensions
import StructureEditor.Proofs.TakingBack
import StructureEditor.Proofs.Tenancy
import StructureEditor.Proofs.Timeline
import StructureEditor.Proofs.Transitions
import StructureEditor.Proofs.Transplanting
import StructureEditor.Proofs.Twins
import StructureEditor.Proofs.Typing
import StructureEditor.Proofs.Unfolding
import StructureEditor.Proofs.Unison
import StructureEditor.Proofs.Upkeep
import StructureEditor.Proofs.Vacancies
import StructureEditor.Proofs.Ways
import StructureEditor.Proofs.WholeActions
import StructureEditor.Refusal
import StructureEditor.Sample.Arithmetic
import StructureEditor.Sample.Candidates
import StructureEditor.Sample.Expression
import StructureEditor.Sample.Phrase
import StructureEditor.Sample.Shelf
import StructureEditor.Sample.TextSession
import StructureEditor.Settings
import StructureEditor.Snapshot.Basic
import StructureEditor.Snapshot.Codec
import StructureEditor.Text.Inspect
import StructureEditor.Text.Integer
import StructureEditor.Text.Keyed
import StructureEditor.Text.Shapeless
import StructureEditor.Workspace.Basic
import StructureEditor.Workspace.Build
import StructureEditor.Workspace.Grow
import StructureEditor.Workspace.Paste
import StructureEditor.Workspace.Replay
import StructureEditor.Workspace.Restore
import StructureEditor.Workspace.Transition
import StructureEditor.Workspace.Watch
