import Chip8.Display.Pixel
import Chip8.Main
import Chip8.Proofs.InstructionTable
import Chip8.Proofs.Effects
import Chip8.Proofs.Cycles
import Chip8.Proofs.Reachability
import Chip8.Proofs.Faults
import Chip8.Proofs.Coherence
import Chip8.Proofs.RunCalls
import Chip8.Proofs.Histories
import Chip8.Proofs.Halting
import Chip8.Proofs.Beeps
import Chip8.Proofs.Batches
import Chip8.Proofs.Debugging
import Chip8.Proofs.KeyWait
import Chip8.Proofs.Subroutines
import Chip8.Proofs.Loading
import Chip8.Proofs.Footprints
import Chip8.Proofs.Dispatch
import Chip8.Proofs.Mnemonics
import Chip8.Proofs.Listings
import Chip8.Proofs.Redraws
import Chip8.Proofs.Frames
import Chip8.Proofs.Painting
import Chip8.Proofs.Sprites
import Chip8.Proofs.Reports
import Chip8.Proofs.RandomStream
import Chip8.Proofs.Hosts
import Chip8.Proofs.Layers
import Chip8.Proofs.Countdowns
import Chip8.Proofs.Transfers
import Chip8.Proofs.ArithmeticLaws
import Chip8.Proofs.ProgressAccount
import Chip8.Proofs.RedrawLatch
import Chip8.Proofs.Rendering
import Chip8.Proofs.PastEnd
