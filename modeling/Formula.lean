import Formula.Command.Directory
import Formula.Main
import Formula.Proofs.Alphabet
import Formula.Proofs.Longest
import Formula.Proofs.Pieces
import Formula.Proofs.Reachable
import Formula.Proofs.Actions
import Formula.Proofs.Steps
import Formula.Proofs.Lexemes
import Formula.Proofs.Requests
import Formula.Proofs.Runs
import Formula.Proofs.Coverage
import Formula.Proofs.Pairing
import Formula.Proofs.Acceptance
import Formula.Proofs.Places
import Formula.Proofs.Grammar
import Formula.Proofs.Loosening
import Formula.Proofs.Respacing
import Formula.Proofs.LongestTokens
import Formula.Proofs.Neighbours
import Formula.Proofs.Lines
import Formula.Proofs.Driving
import Formula.Proofs.Schedules
import Formula.Proofs.Relexing
import Formula.Proofs.Collecting
import Formula.Proofs.Trails
import Formula.Proofs.Decimals
import Formula.Proofs.Safety
import Formula.Proofs.Literals
import Formula.Proofs.Copies
import Formula.Proofs.Evaluation
import Formula.Proofs.Meaning
import Formula.Proofs.Dependence
import Formula.Proofs.Carets
import Formula.Proofs.Undoing
import Formula.Proofs.Numerals
import Formula.Proofs.Spelling
import Formula.Proofs.Documents
import Formula.Proofs.Writing
import Formula.Proofs.Presentations
import Formula.Proofs.Loading
import Formula.Proofs.Printing
import Formula.Proofs.Rewinding
import Formula.Proofs.Contract
import Formula.Proofs.Entries
import Formula.Proofs.Quoting
import Formula.Proofs.Listing
import Formula.Rule.Bounds
import Formula.Proofs.Searching
import Formula.Proofs.Coordinates
import Formula.Proofs.Characters
import Formula.Proofs.Sessions
import Formula.Proofs.Greedy
