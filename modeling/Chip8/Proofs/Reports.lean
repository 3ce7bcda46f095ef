import Chip8.Proofs.Coherence
import Chip8.Session.Request

namespace Chip8.Machine

variable {m next : Machine}

/-- What is to be logged of the next cycle: a warning if it executes a word that shows no pattern,
and an error if the machine halts in it. A word that reaches past the end of memory is not
executed, so only the error is due. -/
def due (m : Machine) : List Log.Entry :=
  let word := Hex.address 4 (m.wordOn 0).toNat
  let pc := Hex.address 3 m.pc.toNat
  (if m.Executes (m.wordOn 0) ∧ ∀ k ∈ Kind.all, k.pattern.matchesWord (m.wordOn 0) = false then
    [⟨.warning, "Unknown opcode " ++ word ++ " at " ++ pc ++ ", skipping"⟩] else []) ++
  (if m.status ≠ .halted ∧ m.cycle.value.status = .halted then
    [⟨.error, "Machine halted: " ++ Fault.name m.cycle.value.fault ++ " at " ++ pc⟩] else [])

end Chip8.Machine
