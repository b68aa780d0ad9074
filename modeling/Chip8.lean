import Chip8.Command.Tree
import Chip8.Main
import Chip8.Proofs.Bare.Safety
import Chip8.Proofs.Polling
import Chip8.Proofs.Strictness
import Chip8.Proofs.Reset
import Chip8.Proofs.Confinement
import Chip8.Proofs.Calls
import Chip8.Proofs.Interleaving
import Chip8.Proofs.Stopping
import Chip8.Proofs.Randomness
import Chip8.Proofs.Countdown
import Chip8.Proofs.Keys
import Chip8.Proofs.Store
import Chip8.Proofs.Drawing
import Chip8.Proofs.Unclipped
import Chip8.Proofs.Outcomes
import Chip8.Proofs.Encoding
import Chip8.Proofs.Arithmetic
import Chip8.Proofs.Transfers
import Chip8.Proofs.Footprint
import Chip8.Proofs.Branching
import Chip8.Proofs.Recognition
import Chip8.Proofs.Counting
import Chip8.Proofs.Programs
import Chip8.Proofs.KeyNames
import Chip8.Proofs.Glyphs
import Chip8.Proofs.Views
