import FormulaReader.Activity
import FormulaReader.Text.Utf8

/-!
Sinks: where the reports of a session go. A sink may accept only so many bytes and so many
flushes; it then fails.
-/

namespace FormulaReader

/-- How often something may still be done. -/
inductive Allowance where
  | unlimited
  | limited (left : Nat)
deriving DecidableEq

/-- The allowance after one use, if there is one left. -/
def Allowance.spend? : Allowance → Option Allowance
  | .unlimited => some .unlimited
  | .limited 0 => none
  | .limited (left + 1) => some (.limited left)

structure Sink where
  bytes : Allowance
  flushes : Allowance
deriving DecidableEq

/-- A sink that never fails. -/
def Sink.unlimited : Sink :=
  ⟨.unlimited, .unlimited⟩

inductive SinkFault where
  | full
  | flushRefused
deriving DecidableEq

def SinkFault.text : SinkFault → String
  | .full => "sink full"
  | .flushRefused => "flush refused"

/-- Work that reports to a sink, and ends as soon as the sink fails. -/
abbrev Reporting (α : Type) : Type :=
  Activity SinkFault Sink α

namespace Reporting

/-- Writes one byte, if there is room for it. -/
def writeByte (byte : UInt8) : Reporting Unit :=
  fun sink =>
    match sink.bytes.spend? with
    | some bytes => ⟨.ok (), { sink with bytes }, [.wrote byte]⟩
    | none => ⟨.error .full, sink, []⟩

/-- Writes the bytes in order, up to the first one for which there is no room. -/
def writeBytes : List UInt8 → Reporting Unit
  | [] => pure ()
  | byte :: rest => do
      writeByte byte
      writeBytes rest

/-- Writes `text` in UTF-8. -/
def write (text : String) : Reporting Unit :=
  writeBytes (Text.utf8 text)

/-- Asks the sink to pass on what was written. -/
def flush : Reporting Unit :=
  fun sink =>
    match sink.flushes.spend? with
    | some flushes => ⟨.ok (), { sink with flushes }, [.flushed]⟩
    | none => ⟨.error .flushRefused, sink, []⟩

end Reporting

end FormulaReader
