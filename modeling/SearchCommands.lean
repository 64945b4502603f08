import SearchCommands.Main
import SearchCommands.Proofs.Text.Words
import SearchCommands.Proofs.Text.Letters
import SearchCommands.Proofs.Pattern.Languages
import SearchCommands.Proofs.Field.Spelling
import SearchCommands.Proofs.Field.Occurrence
import SearchCommands.Proofs.Grammar.Tokens
import SearchCommands.Proofs.Grammar.Scans
import SearchCommands.Proofs.Number.Rounding
import SearchCommands.Proofs.Number.Decimals
import SearchCommands.Proofs.Number.ReadBack
import SearchCommands.Proofs.Number.Whole
import SearchCommands.Proofs.Filter.Bounds
import SearchCommands.Proofs.Grammar.Values
import SearchCommands.Proofs.Beatmap.Reading
import SearchCommands.Proofs.Search.Reading
import SearchCommands.Proofs.Field.Words
import SearchCommands.Proofs.Grammar.Plain
import SearchCommands.Proofs.Grammar.Layout
import SearchCommands.Proofs.Beatmap.Words
import SearchCommands.Proofs.Search.Composition
import SearchCommands.Proofs.Search.Words
import SearchCommands.Proofs.Search.Phases
import SearchCommands.Proofs.Search.Completeness
import SearchCommands.Proofs.Search.Order
import SearchCommands.Proofs.Search.Canonical
import SearchCommands.Proofs.Search.Invariant
import SearchCommands.Proofs.Search.RoundTrip
import SearchCommands.Proofs.Pattern.Lookback
import SearchCommands.Proofs.Pattern.QuoteWise
import SearchCommands.Proofs.Field.QuoteWise
import SearchCommands.Proofs.Grammar.Frames
import SearchCommands.Proofs.Grammar.Confinement
import SearchCommands.Proofs.Grammar.Isolation
import SearchCommands.Proofs.Search.Isolation
import SearchCommands.Proofs.Text.Parts
import SearchCommands.Proofs.Grammar.Spans
import SearchCommands.Proofs.Grammar.Leftover
import SearchCommands.Proofs.Search.Leftover
import SearchCommands.Proofs.Filter.Clauses
import SearchCommands.Proofs.Search.Demands
import SearchCommands.Proofs.Grammar.Objections
import SearchCommands.Proofs.Search.Verdict
import SearchCommands.Proofs.Grammar.Preference
import SearchCommands.Proofs.Grammar.Aliases
import SearchCommands.Proofs.Text.LetterCase
import SearchCommands.Proofs.Pattern.Alike
import SearchCommands.Proofs.Pattern.LetterCase
import SearchCommands.Proofs.Grammar.Alike
import SearchCommands.Proofs.Grammar.LetterCase
import SearchCommands.Proofs.Search.LetterCase
import SearchCommands.Proofs.Text.Spacing
import SearchCommands.Proofs.Pattern.InWord
import SearchCommands.Proofs.Field.Spacing
import SearchCommands.Proofs.Grammar.Spacing
import SearchCommands.Proofs.Search.Spacing
import SearchCommands.Proofs.Filter.Exchange
import SearchCommands.Proofs.Text.Places
import SearchCommands.Proofs.Text.Marked
import SearchCommands.Proofs.Field.Retyping
import SearchCommands.Proofs.Grammar.Retyping
import SearchCommands.Proofs.Grammar.Crossing
import SearchCommands.Proofs.Grammar.Taken
import SearchCommands.Proofs.Grammar.Copies
import SearchCommands.Proofs.Grammar.Exchange
import SearchCommands.Proofs.Search.Exchange
import SearchCommands.Proofs.Search.Equality
import SearchCommands.Proofs.Grammar.Positional
import SearchCommands.Proofs.Search.Username
import SearchCommands.Proofs.Command.Trace
import SearchCommands.Proofs.Command.Order
import SearchCommands.Proofs.Command.Rebinding
import SearchCommands.Proofs.Command.Run
import SearchCommands.Proofs.CommandLine.Arguments
import SearchCommands.Proofs.CommandLine.Session
import SearchCommands.Proofs.Grammar.Soundness
import SearchCommands.Proofs.Grammar.Coverage
import SearchCommands.Proofs.Text.Segments
import SearchCommands.Proofs.Grammar.WordByWord
import SearchCommands.Proofs.Grammar.Joining
import SearchCommands.Proofs.Command.Grammars
import SearchCommands.Proofs.Command.Stripping
import SearchCommands.Proofs.Command.Commuting
import SearchCommands.Proofs.Grammar.Leading
import SearchCommands.Proofs.Grammar.Separate
import SearchCommands.Proofs.Grammar.Permuting
import SearchCommands.Proofs.Grammar.Rereading
import SearchCommands.Proofs.Search.Rereading
import SearchCommands.Proofs.Filter.Construction
import SearchCommands.Proofs.Filter.Canonical
import SearchCommands.Proofs.Grammar.GroupNames
import SearchCommands.Proofs.Command.Declaration
import SearchCommands.Proofs.Grammar.Rounds
import SearchCommands.Proofs.Field.AliasOrder
import SearchCommands.Proofs.Grammar.Attribution
import SearchCommands.Proofs.Grammar.AliasOrder
