import TilePuzzle.Http
import TilePuzzle.Main
import TilePuzzle.Proofs.Run
import TilePuzzle.Proofs.Coherence
import TilePuzzle.Proofs.Number
import TilePuzzle.Proofs.Reading
import TilePuzzle.Proofs.Loading
import TilePuzzle.Proofs.Opening
import TilePuzzle.Proofs.Animation
import TilePuzzle.Proofs.Pace
import TilePuzzle.Proofs.Ticking
import TilePuzzle.Proofs.Twins
import TilePuzzle.Proofs.Outcome
import TilePuzzle.Proofs.Constants
import TilePuzzle.Proofs.Frame
import TilePuzzle.Proofs.Attempt
import TilePuzzle.Proofs.Ending
import TilePuzzle.Proofs.Forgetting
import TilePuzzle.Proofs.Recollection
import TilePuzzle.Proofs.Delivery
import TilePuzzle.Proofs.Intents
import TilePuzzle.Proofs.Looks
import TilePuzzle.Proofs.Refinement
import TilePuzzle.Proofs.Following
import TilePuzzle.Proofs.Requests
import TilePuzzle.Proofs.Registry
import TilePuzzle.Proofs.Isolation
import TilePuzzle.Proofs.Batches
import TilePuzzle.Proofs.Sequences
import TilePuzzle.Proofs.Verdict
import TilePuzzle.Proofs.Idling
import TilePuzzle.Proofs.Cues
import TilePuzzle.Proofs.Insertion
import TilePuzzle.Proofs.Traversal
import TilePuzzle.Proofs.Hovering
import TilePuzzle.Proofs.Positions
import TilePuzzle.Proofs.Findings
import TilePuzzle.Proofs.Layout
import TilePuzzle.Proofs.Corners
import TilePuzzle.Proofs.Canonical
import TilePuzzle.Proofs.Sounds
import TilePuzzle.Proofs.Tolerance
import TilePuzzle.Proofs.Placement
import TilePuzzle.Proofs.Identity
import TilePuzzle.Proofs.Rounding
import TilePuzzle.Proofs.Delays
import TilePuzzle.Proofs.Documents
import TilePuzzle.Proofs.Hexadecimal
