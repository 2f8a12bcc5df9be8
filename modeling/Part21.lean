import Part21.Number.Place
import Part21.Text.CodePoint
import Part21.Text.Capital
import Part21.Text.Cased
import Part21.Text.Small
import Part21.Text.Quoted
import Part21.Text.Position
import Part21.Number.Numeral
import Part21.Number.Binary64
import Part21.Number.Shortest
import Part21.Exchange.StringBody
import Part21.Exchange.Lexeme
import Part21.Exchange.Token
import Part21.Exchange.Parameter
import Part21.Exchange.Record
import Part21.Exchange.Header
import Part21.Journal
import Part21.Exchange.Section
import Part21.Exchange.Reader
import Part21.Exchange.Reading
import Part21.Schema.TypeDef
import Part21.Schema.Fault
import Part21.Schema.Registry
import Part21.Schema.Hierarchy
import Part21.Schema.Selection
import Part21.Schema.Validation
import Part21.Schema.Catalogue
import Part21.Express.Token
import Part21.Express.Reader
import Part21.Express.Schema
import Part21.Resolution.Error
import Part21.Resolution.Settings
import Part21.Resolution.Fields
import Part21.Resolution.Value
import Part21.Resolution.Held
import Part21.Resolution.Build
import Part21.Resolution.Inventory
import Part21.Resolution.Population
import Part21.Resolution.Progress
import Part21.Resolution.Basis
import Part21.Resolution.Pass
import Part21.Resolution.Table
import Part21.Resolution.Reading
import Part21.Resolution.Workshop
import Part21.Listener
import Part21.Proofs.Resolution.Session
import Part21.Proofs.Resolution.Lifecycle
import Part21.Proofs.Resolution.Moments
import Part21.Proofs.Schema.Ancestry
import Part21.Proofs.Resolution.Following
import Part21.Proofs.Resolution.References
import Part21.Proofs.Resolution.Descent
import Part21.Proofs.Resolution.Brought
import Part21.Proofs.Resolution.Soundness
import Part21.Proofs.Text.Capital
import Part21.Proofs.Resolution.Outcome
import Part21.Proofs.Resolution.Errors
import Part21.Proofs.Resolution.Failures
import Part21.Proofs.Resolution.Passage
import Part21.Proofs.Resolution.Filling
import Part21.Proofs.Resolution.Order
import Part21.Proofs.Resolution.Precedence
import Part21.Proofs.Resolution.Conversion
import Part21.Proofs.Resolution.Slots
import Part21.Proofs.Resolution.Regular
import Part21.Proofs.Resolution.Presence
import Part21.Proofs.Resolution.Questions
import Part21.Proofs.Resolution.Chains
import Part21.Proofs.Schema.Supertypes
import Part21.Proofs.Schema.Options
import Part21.Proofs.Resolution.Fields
import Part21.Proofs.Resolution.Targets
import Part21.Proofs.Schema.Linearization
import Part21.Proofs.Resolution.Parts
import Part21.Proofs.Resolution.Resemblance
import Part21.Proofs.Resolution.Interchange
import Part21.Proofs.Resolution.Forms
import Part21.Proofs.Resolution.Abandonment
import Part21.Proofs.Exchange.Spelling
import Part21.Proofs.Exchange.Parameters
import Part21.Proofs.Exchange.Records
import Part21.Proofs.Exchange.Sections
import Part21.Proofs.Exchange.Unambiguity
import Part21.Proofs.Exchange.Layout
import Part21.Proofs.Exchange.Cutting
import Part21.Proofs.Exchange.Literals
import Part21.Proofs.Exchange.Sameness
import Part21.Proofs.Exchange.RoundTrip
import Part21.Proofs.Exchange.Continuation
import Part21.Proofs.Exchange.Fragments
import Part21.Proofs.Exchange.Oversize
import Part21.Proofs.Exchange.Faults
import Part21.Proofs.Schema.Checks
import Part21.Proofs.Resolution.Validity
import Part21.Proofs.Express.Cutting
import Part21.Proofs.Express.Spelling
import Part21.Proofs.Express.Declarations
import Part21.Proofs.Express.RoundTrip
import Part21.Proofs.Express.Validity
import Part21.Proofs.Resolution.Leniency
import Part21.Proofs.Workshop.Steps
import Part21.Proofs.Workshop.Jobs
import Part21.Proofs.Workshop.Waiting
import Part21.Proofs.Workshop.Permanence
import Part21.Proofs.Workshop.Passes
import Part21.Proofs.Workshop.Deferral
import Part21.Proofs.Workshop.Agreement
import Part21.Proofs.Workshop.Sequence
import Part21.Proofs.Exchange.Restart
import Part21.Proofs.Number.Hexadecimal
import Part21.Proofs.Exchange.Digits
import Part21.Proofs.Exchange.Directives
import Part21.Proofs.Exchange.Encodings
import Part21.Proofs.Exchange.Binaries
import Part21.Proofs.Text.Order
import Part21.Proofs.Text.Address
import Part21.Proofs.Exchange.Grammar
import Part21.Proofs.Exchange.Lookahead
import Part21.Proofs.Exchange.Shapes
import Part21.Proofs.Exchange.Endings
import Part21.Proofs.Exchange.Expectations
import Part21.Proofs.Exchange.Refusals
import Part21.Proofs.Exchange.SectionRefusals
import Part21.Proofs.Exchange.Diagnosis
import Part21.Proofs.Schema.Inheritance
import Part21.Proofs.Number.Rounding
import Part21.Proofs.Resolution.Conformance
import Part21.Proofs.Resolution.Keywords
import Part21.Proofs.Resolution.FreshPaths
import Part21.Proofs.Resolution.Reporting
import Part21.Proofs.Resolution.FirstUse
import Part21.Proofs.Workshop.Depths
import Part21.Proofs.Schema.Reachability
import Part21.Proofs.Schema.Keeping
import Part21.Proofs.Resolution.Origins
import Part21.Proofs.Resolution.Retention
import Part21.Proofs.Resolution.Namesakes
import Part21.Proofs.Resolution.Uniqueness
