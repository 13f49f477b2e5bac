import SeedCorpus.Synthesis.Program
import SeedCorpus.Synthesis.Altered
import SeedCorpus.Filter.StandIn
import SeedCorpus.Toml.Value
import SeedCorpus.Toml.Number
import SeedCorpus.Toml.Moment
import SeedCorpus.Toml.Text
import SeedCorpus.Toml.Table
import SeedCorpus.Toml.Parser
import SeedCorpus.Filter.Settings
import SeedCorpus.Synthesis.Settings
import SeedCorpus.Text.Blank
import SeedCorpus.Text.Utf8
import SeedCorpus.Filter.Commands
import SeedCorpus.CommandLine.Commands
import SeedCorpus.Folder.Changes
import SeedCorpus.Main
import SeedCorpus.Proofs.Filter.Pass
import SeedCorpus.Proofs.Filter.Generated
import SeedCorpus.Proofs.Typing.Programs
import SeedCorpus.Proofs.Files.Inputs
import SeedCorpus.Proofs.Files.Mentions
import SeedCorpus.Proofs.Syntax.Parts
import SeedCorpus.Proofs.Files.Matching
import SeedCorpus.Proofs.Files.ManyRuns
import SeedCorpus.Proofs.Folder.Writing
import SeedCorpus.Proofs.Files.Batches
import SeedCorpus.Proofs.Arrays.Sharing
import SeedCorpus.Proofs.Folder.Tidy
import SeedCorpus.Proofs.Filter.Again
import SeedCorpus.Proofs.Rendering.Braces
import SeedCorpus.Proofs.Rendering.Indentation
import SeedCorpus.Proofs.Synthesis.Arity
import SeedCorpus.Proofs.Rendering.Words
import SeedCorpus.Proofs.Synthesis.Naming
import SeedCorpus.Proofs.Rendering.Phrases
import SeedCorpus.Proofs.Rendering.Unambiguous
import SeedCorpus.Proofs.Filter.Jumps
import SeedCorpus.Proofs.Synthesis.Renewal
import SeedCorpus.Proofs.Filter.Keeping
import SeedCorpus.Proofs.Filter.Commands
import SeedCorpus.Proofs.Filter.StandIns
import SeedCorpus.Proofs.Rendering.Lasting
import SeedCorpus.Proofs.Rendering.Shifting
import SeedCorpus.Proofs.Synthesis.Pools
import SeedCorpus.Proofs.Synthesis.Upholding
import SeedCorpus.Proofs.Files.Saving
import SeedCorpus.Proofs.Synthesis.Interning
import SeedCorpus.Proofs.Settings.Unknown
import SeedCorpus.Proofs.Settings.Overlay
import SeedCorpus.Proofs.Toml.Rearranged
