import Chip8.Machine.Basic

namespace Chip8

inductive Report where
  | unknownWord (word pc : UInt16)
  | halted (fault : Option Fault) (pc : UInt16)
  | truncated (size : Nat)
  deriving DecidableEq, Repr

namespace Report

def isError : Report → Bool
  | halted _ _ => true
  | _ => false

def message : Report → String
  | unknownWord word pc =>
    let word := Hex.address 4 word.toNat
    let pc := Hex.address 3 pc.toNat
    s!"Unknown opcode {word} at {pc}, skipping"
  | halted fault pc =>
    let pc := Hex.address 3 pc.toNat
    s!"Machine halted: {Fault.name fault} at {pc}"
  | truncated size =>
    let dropped := size - programCapacity
    s!"Program is {size} bytes, only {programCapacity} fit; dropping {dropped} bytes"

end Report

end Chip8
