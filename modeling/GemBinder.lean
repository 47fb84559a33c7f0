import GemBinder.Main
import GemBinder.Proofs.Failure
import GemBinder.Proofs.Registration
import GemBinder.Proofs.Text.Lines
import GemBinder.Proofs.Text.Casing
import GemBinder.Proofs.Text.Placeholder
import GemBinder.Proofs.TypeSpelling
import GemBinder.Proofs.Symbols
import GemBinder.Proofs.Override
import GemBinder.Proofs.BuiltinOverrides
import GemBinder.Proofs.Source.Retarget
import GemBinder.Proofs.Source.Layout
import GemBinder.Proofs.Source.Natives
import GemBinder.Proofs.Source.Calls
import GemBinder.Proofs.Marshal
import GemBinder.Proofs.Source.Externs
import GemBinder.Proofs.Source.Heads
import GemBinder.Proofs.Source.Text
import GemBinder.Proofs.Files.Disk
import GemBinder.Proofs.World
import GemBinder.Proofs.Files.Scratch
import GemBinder.Proofs.Files.Locality
import GemBinder.Proofs.Files.Moving
import GemBinder.Proofs.Generation
import GemBinder.Proofs.Selection
import GemBinder.Proofs.Plan
import GemBinder.Proofs.PlanLocality
import GemBinder.Proofs.Source.Registered
import GemBinder.Proofs.Source.Success
import GemBinder.Proofs.Staging.Writing
import GemBinder.Proofs.Files.Order
import GemBinder.Proofs.Staging.Merging
import GemBinder.Proofs.Staging.Overlay
import GemBinder.Proofs.DryRun
import GemBinder.Proofs.Template.Render
import GemBinder.Proofs.RubyStub
import GemBinder.Proofs.Text.Comments
import GemBinder.Proofs.Header.Reading
import GemBinder.Proofs.RubyComments
import GemBinder.Proofs.Delivery
import GemBinder.Proofs.Header.Merging
import GemBinder.Proofs.Header.Traversal
import GemBinder.Proofs.Identifiers
import GemBinder.Proofs.Header.Parameters
import GemBinder.Proofs.StricterRules
import GemBinder.Proofs.Header.Enumerations
import GemBinder.Proofs.Registry
import GemBinder.Proofs.OverrideFiles
import GemBinder.Proofs.PlainTypes
import GemBinder.Proofs.Text.Tokens
import GemBinder.Proofs.TypeLayout
import GemBinder.Proofs.TypeCopies
import GemBinder.Proofs.NamingConventions
import GemBinder.Proofs.BaseTypes
import GemBinder.Proofs.ConstPlaces
import GemBinder.Proofs.Header.ParameterLayout
import GemBinder.Proofs.Header.RoundTrip
import GemBinder.Proofs.Header.EnumRoundTrip
import GemBinder.Proofs.Header.NestedCode
import GemBinder.Proofs.Header.ScopedEnums
import GemBinder.Proofs.Header.Conversions
import GemBinder.Proofs.Header.Comments
import GemBinder.Proofs.Source.Renaming
import GemBinder.Proofs.OverrideChecks
import GemBinder.Proofs.Source.LocalNames
import GemBinder.Proofs.Header.BraceScanners
import GemBinder.Proofs.Text.CodePoint
import GemBinder.Proofs.Files.Writing
import GemBinder.Proofs.Header.Discovery
import GemBinder.Proofs.RubyDocumentation
