import TestSkeleton.Text.Blank
import TestSkeleton.Text.Word
import TestSkeleton.Text.Quoted
import TestSkeleton.Text.Utf8
import TestSkeleton.Entries
import TestSkeleton.Path.Name
import TestSkeleton.Path.Parts
import TestSkeleton.Files.Fault
import TestSkeleton.Failure
import TestSkeleton.Signature.Reading
import TestSkeleton.Signature.Argument
import TestSkeleton.Settings.Basic
import TestSkeleton.TestFile.Insertion
import TestSkeleton.TestFile.CaseNames
import TestSkeleton.StatePaths
import TestSkeleton.Json.Token
import TestSkeleton.Preferences.Encoding
import TestSkeleton.Report.Diagnostic
import TestSkeleton.Report.Remembered
import TestSkeleton.Settings.Sample
import TestSkeleton.Files.Guarded
import TestSkeleton.Files.Tree
import TestSkeleton.Files.Memory
import TestSkeleton.Generation.Run
import TestSkeleton.Toml.Reading
import TestSkeleton.Settings.Search
import TestSkeleton.Command.Reading
import TestSkeleton.Main
import TestSkeleton.Proofs.TestFile.Inserting
import TestSkeleton.Proofs.TestFile.Tokens
import TestSkeleton.Proofs.TestFile.GeneratedText
import TestSkeleton.Proofs.Files.Failing
import TestSkeleton.Proofs.Generation.ClosedForm
import TestSkeleton.Proofs.Generation.OwnOutput
import TestSkeleton.Proofs.Json.RoundTrip
import TestSkeleton.Proofs.Preferences.Interleaving
import TestSkeleton.Proofs.Preferences.Neighbours
import TestSkeleton.Proofs.Preferences.RoundTrip
import TestSkeleton.Proofs.Preferences.Refinement
import TestSkeleton.Proofs.Preferences.SavedFile
import TestSkeleton.Proofs.Preferences.Sharing
import TestSkeleton.Proofs.Preferences.Updates
import TestSkeleton.Proofs.Files.Attempting
import TestSkeleton.Proofs.Generation.Attempting
import TestSkeleton.Proofs.Generation.Failing
import TestSkeleton.Proofs.Generation.Reusing
import TestSkeleton.Proofs.Generation.Sessions
import TestSkeleton.Proofs.Generation.Extending
import TestSkeleton.Proofs.Files.Locking
import TestSkeleton.Proofs.Files.Protocol
import TestSkeleton.Proofs.Writers.Turns
import TestSkeleton.Proofs.Writers.Sharing
import TestSkeleton.Proofs.Writers.Sequence
import TestSkeleton.Proofs.Writers.Interleaving
import TestSkeleton.Proofs.Writers.Serializing
import TestSkeleton.Proofs.Generation.Remembering
import TestSkeleton.Proofs.Signature.RoundTrip
import TestSkeleton.Proofs.Generation.AllOrNothing
import TestSkeleton.Proofs.Generation.Previewing
import TestSkeleton.Proofs.Generation.Sources
import TestSkeleton.Proofs.Signature.Grammar
import TestSkeleton.Proofs.TestFile.Headers
import TestSkeleton.Proofs.Generation.Repeating
import TestSkeleton.Proofs.Preferences.Layout
import TestSkeleton.Proofs.Preferences.LastWriter
import TestSkeleton.Proofs.Signature.VariableNames
import TestSkeleton.Proofs.Path.SourceNames
import TestSkeleton.Proofs.Generation.AcceptedSettings
import TestSkeleton.Proofs.Generation.SelectedLines
import TestSkeleton.Proofs.Path.Rooted
import TestSkeleton.Proofs.Generation.Spellings
import TestSkeleton.Proofs.Generation.OneLock
import TestSkeleton.Proofs.Generation.Destinations
import TestSkeleton.Proofs.TestFile.Literals
import TestSkeleton.Proofs.Preferences.Retrying
import TestSkeleton.Proofs.Command.Writing
import TestSkeleton.Proofs.Command.RoundTrip
import TestSkeleton.Proofs.Command.Groups
import TestSkeleton.Proofs.Toml.DistinctNames
import TestSkeleton.Proofs.Settings.Checks
import TestSkeleton.Proofs.Settings.Stating
import TestSkeleton.Proofs.Settings.Overriding
