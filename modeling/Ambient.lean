import Ambient.Main
import Ambient.Proofs.Bindings
import Ambient.Proofs.DescriptionForms
import Ambient.Proofs.Effects
import Ambient.Proofs.Erasure
import Ambient.Proofs.Exports
import Ambient.Proofs.Linking
import Ambient.Proofs.ModulesInOrder
import Ambient.Proofs.Nesting
import Ambient.Proofs.NormalForm
import Ambient.Proofs.OverridesRoundTrip
import Ambient.Proofs.OverridesForms
import Ambient.Proofs.PatchedLines
import Ambient.Proofs.WrittenTypes
import Ambient.Proofs.RepeatedChanges
import Ambient.Proofs.Regeneration
import Ambient.Proofs.RewrittenTypes
import Ambient.Proofs.TidyText
import Ambient.Proofs.BlankRuns
import Ambient.Proofs.CommentBlocks
import Ambient.Proofs.DuplicateParameters
import Ambient.Proofs.Confinement
import Ambient.Proofs.FilledTemplate
import Ambient.Proofs.OverridesMembers
import Ambient.Proofs.SpelledOptions
import Ambient.Proofs.SharedReferences
import Ambient.Proofs.MarkerSplitting
