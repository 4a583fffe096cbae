import IndirectBranch.Text.Hex
import IndirectBranch.Text.Quoted

/-! What the auditor reports about its own work. -/
namespace IndirectBranch.Log

inductive Level
  | warn
  | info
  | debug
  | trace
  deriving DecidableEq, Repr

namespace Level

def ofVerbosity : Nat → Level
  | 0 => .warn
  | 1 => .info
  | 2 => .debug
  | _ => .trace

def rank : Level → Nat
  | .warn => 0
  | .info => 1
  | .debug => 2
  | .trace => 3

def name : Level → String
  | .warn => "warn"
  | .info => "info"
  | .debug => "debug"
  | .trace => "trace"

def shows (limit l : Level) : Bool := l.rank ≤ limit.rank

end Level

inductive Event
  | policyLoaded (path : Option String) (pointerAuth : Bool) (exemptions : Nat)
  | auditStarted (files classes : Nat) (disassembler : String) (parallel : Bool)
  | imageParsed (segments sections symbols : Nat)
  | disassemblerReady
  | tailIgnored (base : UInt64) (length : Nat)
  | segmentWraps (base : UInt64)
  | shownRaw (error : String)
  | unresolved (address : UInt64)
  | classified (findings critical : Nat)
  | scanned (critical : Nat)
  | skipped (error : String)
  deriving DecidableEq, Repr

namespace Event

def level : Event → Level
  | .policyLoaded .. => .debug
  | .auditStarted .. => .info
  | .imageParsed .. => .debug
  | .disassemblerReady => .trace
  | .tailIgnored .. => .debug
  | .segmentWraps _ => .warn
  | .shownRaw _ => .warn
  | .unresolved _ => .debug
  | .classified .. => .debug
  | .scanned _ => .info
  | .skipped _ => .warn

open Text in
def text : Event → String
  | .policyLoaded path pointerAuth exemptions =>
    let shown := match path with
      | some p => "Some(" ++ quoted p ++ ")"
      | none => "None"
    s!"policy loaded policy={shown} pointer_auth={pointerAuth} exemptions={exemptions}"
  | .auditStarted files classes disassembler parallel =>
    s!"starting audit files={files} patterns={classes} " ++
      s!"disassembler={quoted disassembler} parallel={parallel}"
  | .imageParsed segments sections symbols =>
    s!"parsed ELF image segments={segments} sections={sections} symbols={symbols}"
  | .disassemblerReady => "capstone arm64 handle ready version=5.0"
  | .tailIgnored base length =>
    s!"ignoring trailing partial instruction base={hex base.toNat} tail={length}"
  | .segmentWraps base =>
    s!"segment wraps the address space, stopping scan base={hex base.toNat}"
  | .shownRaw error => s!"falling back to raw encoding error={error}"
  | .unresolved address => s!"no symbol covers indirect branch address={hex address.toNat}"
  | .classified findings critical =>
    s!"classified findings findings={findings} critical={critical}"
  | .scanned critical => s!"scanned critical={critical}"
  | .skipped error => s!"skipping file error={error}"

end Event

structure Entry where
  file : Option String
  event : Event
  deriving DecidableEq, Repr

/-- The line of an entry. The file is named only if messages of level `info` are shown. -/
def Entry.line (limit : Level) (e : Entry) : String :=
  let file := match e.file with
    | some path => if limit.shows .info then "audit\x7bpath=" ++ path ++ "\x7d: " else ""
    | none => ""
  e.event.level.name.toUpper ++ " " ++ file ++ e.event.text

def lines (limit : Level) (entries : List Entry) : List String :=
  (entries.filter fun e => limit.shows e.event.level).map (·.line limit)

end IndirectBranch.Log
