import IndirectBranch.Elf.SymbolEntry

/-! The dynamic table of a linked file, and the symbols it leads to. -/
namespace IndirectBranch.Elf

abbrev Dynamic := List (Nat × Nat)

namespace Dynamic

def pltRelSize : Nat := 2

def hash : Nat := 4

def stringTable : Nat := 5

def symbolTable : Nat := 6

def rela : Nat := 7

def relaSize : Nat := 8

def stringSize : Nat := 10

def rel : Nat := 17

def relSize : Nat := 18

def pltRel : Nat := 20

def jumpRel : Nat := 23

def gnuHash : Nat := 0x6FFFFEF5

/-- The table ends at the first null tag. -/
def untilNull : List (List Nat) → Dynamic
  | [tag, value] :: rest => (tag, value) :: if tag = 0 then [] else untilNull rest
  | _ => []

def parse (e : Encoding) (file : Bytes) (programs : List ProgramHeader) :
    Except Malformed (Option Dynamic) :=
  match programs.find? (·.type == ProgramHeader.dynamic) with
  | none => .ok none
  | some p =>
    let size := p.fileSize.toNat
    if size = 0 then .ok (some [])
    else
      match slice file p.offset.toNat size with
      | .error _ => .error (.dynamicRange p.offset.toNat size)
      | .ok bytes => do
        let width := e.wordWidth
        let table ← records e [width, width] (size / (2 * width)) bytes
        return some (untilNull table)

/-- Of two entries with one tag the later counts. -/
def value? (d : Dynamic) (tag : Nat) : Option Nat :=
  (d.reverse.find? (·.1 == tag)).map (·.2)

def value (d : Dynamic) (tag : Nat) : Nat := (d.value? tag).getD 0

/-- File offset of the table whose address stands under `tag`; zero if it lies in no segment. -/
def offset (d : Dynamic) (programs : List ProgramHeader) (tag : Nat) : Nat :=
  ((d.value? tag).bind (ProgramHeader.fileOffset? programs)).getD 0

/-- A relocation names its symbol in the upper half of its second field. -/
def relocationSymbol (e : Encoding) : List Nat → Nat
  | _ :: info :: _ => if e.wide then info / UInt32.size else info / 256
  | _ => 0

/-- Symbols named by the relocations in a range of the file; a partial last entry is ignored. -/
def relocationSymbols (e : Encoding) (file : Bytes) (offset size : Nat) (withAddend : Bool) :
    Except Malformed (List Nat) := do
  if size = 0 then return []
  let bytes ← slice file offset size
  let widths := List.replicate (if withAddend then 3 else 2) e.wordWidth
  let table ← records e widths (size / totalWidth widths) bytes
  return table.map (relocationSymbol e)

def largestBucket (e : Encoding) : Nat → Nat → Bytes → Except Malformed Nat
  | 0, largest, _ => .ok largest
  | count + 1, largest, rest => do
    let (n, rest) ← field e 4 rest
    largestBucket e count (max largest n) rest

/-- Walks a chain from `symbol` on; a word with bit 0 set ends it. -/
def chainEnd (e : Encoding) : Nat → Nat → Bytes → Except Malformed Nat
  | 0, symbol, _ => .ok symbol
  | fuel + 1, symbol, rest => do
    let (n, rest) ← field e 4 rest
    if n % 2 = 1 then return symbol + 1 else chainEnd e fuel (symbol + 1) rest

/-- Number of symbols, from a hash table with buckets and chains at `h`. -/
def gnuHashCount (e : Encoding) (file : Bytes) (h : Nat) : Except Malformed Nat := do
  let buckets ← number32 e file h
  let firstSymbol ← number32 e file (h + 4)
  let bloom ← number32 e file (h + 8)
  if buckets = 0 ∨ firstSymbol = 0 ∨ bloom = 0 then throw (.hashTable buckets firstSymbol bloom)
  let start := h + 16 + bloom * e.wordWidth
  let rest ← openAt file start
  let largest ← largestBucket e buckets 0 rest
  if largest < firstSymbol then return 0
  let rest ← openAt file (start + 4 * buckets + 4 * (largest - firstSymbol))
  chainEnd e (rest.length + 1) largest rest

def hashCount (e : Encoding) (file : Bytes) (programs : List ProgramHeader) (d : Dynamic) :
    Except Malformed Nat :=
  match (d.value? gnuHash).bind (ProgramHeader.fileOffset? programs),
      (d.value? hash).bind (ProgramHeader.fileOffset? programs) with
  | some h, _ => gnuHashCount e file h
  | none, some h => number32 e file (h + 4)
  | none, none => .ok 0

/-- The dynamic symbols and their names. There are at least as many symbols as the relocations
speak of. -/
def symbols (e : Encoding) (file : Bytes) (programs : List ProgramHeader) (d : Dynamic) :
    Except Malformed (List SymbolEntry × StringTable) := do
  let names ← StringTable.parse file (d.offset programs stringTable) (d.value stringSize)
  let relas ← relocationSymbols e file (d.offset programs rela) (d.value relaSize) true
  let rels ← relocationSymbols e file (d.offset programs rel) (d.value relSize) false
  let plts ← relocationSymbols e file (d.offset programs jumpRel) (d.value pltRelSize)
    (d.value pltRel == rela)
  let counted ← hashCount e file programs d
  let largest := (relas ++ rels ++ plts).foldl max 0
  let count := if largest = 0 then counted else max counted (largest + 1)
  let entries ← SymbolEntry.parseTable e file (d.offset programs symbolTable) count
  return (entries, names)

end Dynamic
end IndirectBranch.Elf
