import Phrasebook.Files.Disk
import Phrasebook.Main
import Phrasebook.Proofs.Catalog.Schema
import Phrasebook.Proofs.Catalog.Assembly
import Phrasebook.Proofs.Compile.Run
import Phrasebook.Proofs.Accessor.Generation
import Phrasebook.Proofs.Contract.Declaration
import Phrasebook.Proofs.Compile.Selection
import Phrasebook.Proofs.Accessor.Calls
import Phrasebook.Proofs.Compile.Calls
import Phrasebook.Proofs.Emission.Evaluation
import Phrasebook.Proofs.Name.Identifier
import Phrasebook.Proofs.Template
import Phrasebook.Proofs.Template.Decomposition
import Phrasebook.Proofs.Emission.Expression
import Phrasebook.Proofs.Emission.Function
import Phrasebook.Proofs.Emission.Accessor
import Phrasebook.Proofs.Emission.Lookup
import Phrasebook.Proofs.Emission.Display
import Phrasebook.Proofs.Source.TagSpelling
import Phrasebook.Proofs.Source.TagRewriting
import Phrasebook.Proofs.Source.TagEncoding
import Phrasebook.Proofs.Source.TagLines
import Phrasebook.Proofs.Source.Content
import Phrasebook.Proofs.Compile.Issues
import Phrasebook.Proofs.Compile.Apart
import Phrasebook.Proofs.Accessor.Filling
import Phrasebook.Proofs.Compile.Placeholders
import Phrasebook.Proofs.Compile.Gaps
import Phrasebook.Proofs.Emission.FunctionNames
import Phrasebook.Proofs.Emission.Literal
import Phrasebook.Proofs.Emission.Documentation
import Phrasebook.Proofs.Compile.Forwarding
import Phrasebook.Proofs.Emission.Forwarding
import Phrasebook.Proofs.Emission.Invocation
import Phrasebook.Proofs.Compile.Failure
import Phrasebook.Proofs.Compile.Collisions
import Phrasebook.Proofs.Compile.MethodPlaces
import Phrasebook.Proofs.Registry.Run
import Phrasebook.Proofs.Registry.Inputs
import Phrasebook.Proofs.Compile.References
import Phrasebook.Proofs.Source.Flattening
import Phrasebook.Proofs.Source.Conversion
import Phrasebook.Proofs.Text.Blank
import Phrasebook.Proofs.Parameter.Splitting
import Phrasebook.Proofs.Parameter.Reading
import Phrasebook.Proofs.Parameter.Spelling
import Phrasebook.Proofs.Parameter.List
import Phrasebook.Proofs.Parameter.Display
import Phrasebook.Proofs.Parameter.Nesting
import Phrasebook.Proofs.Path
import Phrasebook.Proofs.Files.Disk
import Phrasebook.Proofs.Files.Changes
import Phrasebook.Proofs.Project.Search
import Phrasebook.Proofs.Project.Loading
import Phrasebook.Proofs.Report
import Phrasebook.Proofs.Command.Effects
import Phrasebook.Proofs.Command.Status
import Phrasebook.Proofs.Report.Order
import Phrasebook.Proofs.Text.Case
import Phrasebook.Proofs.Name.Humps
import Phrasebook.Proofs.Name.Legal
import Phrasebook.Proofs.Emission.MethodNames
import Phrasebook.Proofs.Text.Replacing
import Phrasebook.Proofs.Source.Location
import Phrasebook.Proofs.Config.Separation
