import LiterateMarkdown.Main
import LiterateMarkdown.Rule.Pattern
import LiterateMarkdown.Proofs.Build.Staging
import LiterateMarkdown.Proofs.Config.RoundTrip
import LiterateMarkdown.Proofs.Content.Application
import LiterateMarkdown.Proofs.Content.Composition
import LiterateMarkdown.Proofs.Content.Fusion
import LiterateMarkdown.Proofs.Content.Idempotence
import LiterateMarkdown.Proofs.Content.OutputItem
import LiterateMarkdown.Proofs.Content.Replay
import LiterateMarkdown.Proofs.Content.SessionFiles
import LiterateMarkdown.Proofs.Document.AnonymousNames
import LiterateMarkdown.Proofs.Document.FailedLines
import LiterateMarkdown.Proofs.Document.WellFormed
import LiterateMarkdown.Proofs.Fence.Decomposition
import LiterateMarkdown.Proofs.Fence.ShownParts
import LiterateMarkdown.Proofs.LineEnding.Page
import LiterateMarkdown.Proofs.LineFilter.ArtifactBody
import LiterateMarkdown.Proofs.LineFilter.Conservation
import LiterateMarkdown.Proofs.LineFilter.Idempotence
import LiterateMarkdown.Proofs.LineFilter.Invariant
import LiterateMarkdown.Proofs.LineFilter.RuleOrder
import LiterateMarkdown.Proofs.Property.Concatenation
import LiterateMarkdown.Proofs.Property.Reading
import LiterateMarkdown.Proofs.Property.RoundTrip
import LiterateMarkdown.Proofs.Property.UnquotedValue
import LiterateMarkdown.Proofs.Site.Agreement
import LiterateMarkdown.Proofs.Site.BuildOutcome
import LiterateMarkdown.Proofs.LineFilter.VerbatimRegion
import LiterateMarkdown.Proofs.LineFilter.ClosingFence
import LiterateMarkdown.Proofs.LineFilter.HiddenArtifact
import LiterateMarkdown.Proofs.LineFilter.TitledPage
import LiterateMarkdown.Proofs.Rule.Anchoring
import LiterateMarkdown.Proofs.Rule.Composition
import LiterateMarkdown.Proofs.Rule.Modes
import LiterateMarkdown.Proofs.Session.Layout
import LiterateMarkdown.Proofs.Site.Publishing
